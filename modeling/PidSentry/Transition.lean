import Mathlib.Logic.Relation

/-! Labelled transition systems: reachability and invariants, runs observed
step by step, and projections of one system onto another. -/

namespace PidSentry

structure System (σ α : Type*) where
  init : σ → Prop
  step : σ → α → σ → Prop

namespace System

variable {σ τ α β : Type*}

def Next (M : System σ α) (s t : σ) : Prop := ∃ a, M.step s a t

def Reachable (M : System σ α) (s : σ) : Prop :=
  ∃ s₀, M.init s₀ ∧ Relation.ReflTransGen M.Next s₀ s

theorem Reachable.of_init {M : System σ α} {s : σ} (h : M.init s) : M.Reachable s :=
  ⟨s, h, .refl⟩

theorem Reachable.tail {M : System σ α} {s t : σ} {a : α} (h : M.Reachable s)
    (hs : M.step s a t) : M.Reachable t := by
  obtain ⟨s₀, hi, hr⟩ := h
  exact ⟨s₀, hi, hr.tail ⟨a, hs⟩⟩

/-- What holds initially and survives every step taken from a reachable state
holds in every reachable state. -/
theorem Reachable.invariant {M : System σ α} {P : σ → Prop}
    (hinit : ∀ s, M.init s → P s)
    (hstep : ∀ s a t, M.Reachable s → P s → M.step s a t → P t)
    {s : σ} (h : M.Reachable s) : P s := by
  obtain ⟨s₀, hi, hr⟩ := h
  induction hr with
  | refl => exact hinit s₀ hi
  | tail hr hs ih =>
    obtain ⟨a, hs⟩ := hs
    exact hstep _ a _ ⟨s₀, hi, hr⟩ ih hs

/-- A system that moves as another one does under `f`, or leaves the image of
`f` alone, reaches only states whose image the other one reaches. -/
theorem Reachable.project {M : System σ α} {N : System τ β} (f : σ → τ)
    (hinit : ∀ s, M.init s → N.init (f s))
    (hstep : ∀ s a t, M.Reachable s → M.step s a t → f t = f s ∨ ∃ b, N.step (f s) b (f t))
    {s : σ} (h : M.Reachable s) : N.Reachable (f s) := by
  refine Reachable.invariant (P := fun s => N.Reachable (f s))
    (fun s hi => .of_init (hinit s hi)) ?_ h
  intro s a t hr hn hs
  rcases hstep s a t hr hs with he | ⟨b, hb⟩
  · exact he ▸ hn
  · exact hn.tail hb

/-- A run lists the labels taken, each with the state it led to. -/
def IsRun (M : System σ α) : σ → List (α × σ) → Prop
  | _, [] => True
  | s, (a, t) :: run => M.step s a t ∧ M.IsRun t run

def Throughout (P : σ → α → σ → Prop) : σ → List (α × σ) → Prop
  | _, [] => True
  | s, (a, t) :: run => P s a t ∧ Throughout P t run

instance Throughout.decidable {P : σ → α → σ → Prop} [∀ s a t, Decidable (P s a t)] :
    ∀ s run, Decidable (Throughout P s run)
  | _, [] => inferInstanceAs (Decidable True)
  | s, (a, t) :: run =>
    have := Throughout.decidable (P := P) t run
    inferInstanceAs (Decidable (P s a t ∧ Throughout P t run))

theorem IsRun.throughout {M : System σ α} {P : σ → α → σ → Prop}
    (h : ∀ s a t, M.Reachable s → M.step s a t → P s a t)
    {s : σ} {run : List (α × σ)} (hs : M.Reachable s) (hr : M.IsRun s run) :
    Throughout P s run := by
  induction run generalizing s with
  | nil => trivial
  | cons step run ih => exact ⟨h _ _ _ hs hr.1, ih (hs.tail hr.1) hr.2⟩

theorem IsRun.throughout_iff {M : System σ α} {P Q : σ → α → σ → Prop}
    (h : ∀ s a t, M.Reachable s → M.step s a t → (P s a t ↔ Q s a t))
    {s : σ} {run : List (α × σ)} (hs : M.Reachable s) (hr : M.IsRun s run) :
    Throughout P s run ↔ Throughout Q s run := by
  induction run generalizing s with
  | nil => exact Iff.rfl
  | cons step run ih => exact and_congr (h _ _ _ hs hr.1) (ih (hs.tail hr.1) hr.2)

def last : σ → List (α × σ) → σ
  | s, [] => s
  | _, (_, t) :: run => last t run

theorem IsRun.concat {M : System σ α} {s t : σ} {a : α} {run : List (α × σ)} (hr : M.IsRun s run)
    (h : M.step (last s run) a t) : M.IsRun s (run ++ [(a, t)]) := by
  induction run generalizing s with
  | nil => exact ⟨h, trivial⟩
  | cons step run ih => exact ⟨hr.1, ih hr.2 h⟩

/-- An invariant of the steps holds of the state that a run ends in. -/
theorem IsRun.last_of_step {M : System σ α} {I : σ → Prop}
    (h : ∀ s a t, I s → M.step s a t → I t) {s : σ} {run : List (α × σ)} (hi : I s)
    (hr : M.IsRun s run) : I (last s run) := by
  induction run generalizing s with
  | nil => exact hi
  | cons step run ih => exact ih (h _ _ _ hi hr.1) hr.2

/-- What comes to hold in a run does so by one of its steps. -/
theorem IsRun.exists_step {M : System σ α} {P : σ → Prop} {s : σ} {run : List (α × σ)} (hr : M.IsRun s run)
    (hs : ¬ P s) (hlast : P (last s run)) :
    ∃ pre a t post, run = pre ++ (a, t) :: post ∧ M.step (last s pre) a t ∧ ¬ P (last s pre) ∧ P t := by
  induction run generalizing s with
  | nil => exact absurd hlast hs
  | cons step run ih =>
    obtain ⟨a, t⟩ := step
    by_cases ht : P t
    · exact ⟨[], a, t, run, rfl, hr.1, hs, ht⟩
    · obtain ⟨pre, b, u, post, rfl, hstep, hpre, hu⟩ := ih hr.2 ht hlast
      exact ⟨(a, t) :: pre, b, u, post, rfl, hstep, hpre, hu⟩

/-- Counting down on the labels of one kind: if such a step leaves one less to
go, every other step leaves as many, and the count cannot come to nothing
before `Q` happens, then either `Q` happens, at the latest by the label that would
end the count, or the run has come less far and what the count stands for goes on. -/
theorem IsRun.countdown {M : System σ α} {k : α → Bool} {C Q : σ → α → σ → Prop}
    {I : Nat → σ → Prop}
    (h : ∀ n s a t, I (n + 1) s → M.step s a t → C s a t →
      Q s a t ∨ if k a then n ≠ 0 ∧ I n t else I (n + 1) t)
    {n : Nat} {s : σ} {run : List (α × σ)} (hi : I (n + 1) s) (hr : M.IsRun s run)
    (hc : Throughout C s run) :
    (∃ pre a t post, run = pre ++ (a, t) :: post ∧ Q (last s pre) a t ∧
      (pre.countP fun step => k step.1) ≤ n) ∨
    ∃ left, (run.countP fun step => k step.1) + left = n ∧ I (left + 1) (last s run) := by
  induction run generalizing n s with
  | nil => exact .inr ⟨n, Nat.zero_add n, hi⟩
  | cons step run ih =>
    obtain ⟨a, t⟩ := step
    rcases h n s a t hi hr.1 hc.1 with hq | hleft
    · exact .inl ⟨[], a, t, run, rfl, hq, Nat.zero_le n⟩
    · by_cases hk : k a = true
      · rw [if_pos hk] at hleft
        obtain ⟨m, rfl⟩ := Nat.exists_eq_succ_of_ne_zero hleft.1
        rcases ih hleft.2 hr.2 hc.2 with ⟨pre, b, u, post, rfl, hq, hpre⟩ | ⟨left, hcount, hi⟩
        · exact .inl ⟨(a, t) :: pre, b, u, post, rfl, hq, by simpa [hk] using hpre⟩
        · exact .inr ⟨left, by simp only [List.countP_cons, hk, if_true]; omega, hi⟩
      · rw [if_neg hk] at hleft
        rcases ih hleft hr.2 hc.2 with ⟨pre, b, u, post, rfl, hq, hpre⟩ | ⟨left, hcount, hi⟩
        · exact .inl ⟨(a, t) :: pre, b, u, post, rfl, hq, by simpa [hk] using hpre⟩
        · exact .inr ⟨left, by simpa [hk] using hcount, hi⟩

theorem Reachable.exists_run {M : System σ α} {t : σ} (h : M.Reachable t) :
    ∃ s run, M.init s ∧ M.IsRun s run ∧ last s run = t := by
  obtain ⟨s, hi, hr⟩ := h
  have hrun : ∃ run, M.IsRun s run ∧ last s run = t := by
    clear hi
    induction hr using Relation.ReflTransGen.head_induction_on with
    | refl => exact ⟨[], trivial, rfl⟩
    | head hb _ ih =>
      obtain ⟨b, hb⟩ := hb
      obtain ⟨run, hrun, hlast⟩ := ih
      exact ⟨(b, _) :: run, ⟨hb, hrun⟩, hlast⟩
  obtain ⟨run, hrun, hlast⟩ := hrun
  exact ⟨s, run, hi, hrun, hlast⟩

/-- What holds throughout every run holds of every step from a reachable state. -/
theorem Reachable.of_throughout {M : System σ α} {P : σ → α → σ → Prop}
    (h : ∀ s run, M.init s → M.IsRun s run → Throughout P s run)
    {s t : σ} {a : α} (hs : M.Reachable s) (hstep : M.step s a t) : P s a t := by
  obtain ⟨s₀, hi, hr⟩ := hs
  have h := fun run => h s₀ run hi
  clear hi
  induction hr using Relation.ReflTransGen.head_induction_on with
  | refl => exact (h [(a, t)] ⟨hstep, trivial⟩).1
  | head hb _ ih =>
    obtain ⟨b, hb⟩ := hb
    exact ih fun run hrun => (h ((b, _) :: run) ⟨hb, hrun⟩).2

/-- An invariant that a step preserves under a side condition gives, in every
run whose steps all meet the condition, what it implies of each step. -/
theorem IsRun.throughout_of_condition {M : System σ α} {I : σ → Prop}
    {C P : σ → α → σ → Prop}
    (h : ∀ s a t, M.Reachable s → I s → M.step s a t → C s a t → P s a t ∧ I t)
    {s : σ} {run : List (α × σ)} (hs : M.Reachable s) (hi : I s) (hr : M.IsRun s run)
    (hc : Throughout C s run) : Throughout P s run := by
  induction run generalizing s with
  | nil => trivial
  | cons step run ih =>
    have hh := h _ _ _ hs hi hr.1 hc.1
    exact ⟨hh.1, ih (hs.tail hr.1) hh.2 hr.2 hc.2⟩

theorem Throughout.and {P Q : σ → α → σ → Prop} {s : σ} {run : List (α × σ)}
    (hp : Throughout P s run) (hq : Throughout Q s run) :
    Throughout (fun s a t => P s a t ∧ Q s a t) s run := by
  induction run generalizing s with
  | nil => trivial
  | cons step run ih => exact ⟨⟨hp.1, hq.1⟩, ih hp.2 hq.2⟩

/-- What no step brings about holds all along a run that ends with it. -/
theorem IsRun.throughout_of_last {M : System σ α} {Q : σ → Prop}
    (h : ∀ s a t, M.Reachable s → M.step s a t → Q t → Q s)
    {s : σ} {run : List (α × σ)} (hs : M.Reachable s) (hr : M.IsRun s run) (hq : Q (last s run)) :
    Q s ∧ Throughout (fun _ _ t => Q t) s run := by
  induction run generalizing s with
  | nil => exact ⟨hq, trivial⟩
  | cons step run ih =>
    obtain ⟨hqt, hrest⟩ := ih (hs.tail hr.1) hr.2 hq
    exact ⟨h _ _ _ hs hr.1 hqt, hqt, hrest⟩

/-- When the side condition is also forced by the invariant of the next state,
the runs that keep the invariant are exactly those that meet the condition. -/
theorem IsRun.invariant_iff {M : System σ α} {I : σ → Prop} {C : σ → α → σ → Prop}
    (h : ∀ s a t, M.Reachable s → I s → M.step s a t → (I t ↔ C s a t))
    {s : σ} {run : List (α × σ)} (hs : M.Reachable s) (hi : I s) (hr : M.IsRun s run) :
    Throughout (fun _ _ t => I t) s run ↔ Throughout C s run := by
  induction run generalizing s with
  | nil => exact Iff.rfl
  | cons step run ih =>
    have he := h _ _ _ hs hi hr.1
    constructor
    · rintro ⟨hit, hrest⟩
      exact ⟨he.mp hit, (ih (hs.tail hr.1) hit hr.2).mp hrest⟩
    · rintro ⟨hc, hrest⟩
      have hit := he.mpr hc
      exact ⟨hit, (ih (hs.tail hr.1) hit hr.2).mpr hrest⟩

/-- What holds after a step exactly if it has held before and the step meets the condition
holds at the end of a run exactly if it has held at its start and all its steps do. -/
theorem IsRun.last_iff {M : System σ α} {I J : σ → Prop} {C : σ → α → σ → Prop}
    (h : ∀ s a t, M.Reachable s → J s → M.step s a t → J t ∧ (I t ↔ I s ∧ C s a t))
    {s : σ} {run : List (α × σ)} (hs : M.Reachable s) (hj : J s) (hr : M.IsRun s run) :
    I (last s run) ↔ I s ∧ Throughout C s run := by
  induction run generalizing s with
  | nil => exact (and_iff_left trivial).symm
  | cons step run ih =>
    obtain ⟨hjt, he⟩ := h _ _ _ hs hj hr.1
    have hlast := ih (hs.tail hr.1) hjt hr.2
    rw [he, and_assoc] at hlast
    exact hlast

def ofNext (init : σ → Prop) (next : σ → α → Option σ) : System σ α :=
  ⟨init, fun s a t => next s a = some t⟩

def run (next : σ → α → Option σ) : σ → List α → List (α × σ)
  | _, [] => []
  | s, a :: labels =>
    match next s a with
    | none => []
    | some t => (a, t) :: run next t labels

theorem isRun_run (init : σ → Prop) (next : σ → α → Option σ) (s : σ) (labels : List α) :
    (ofNext init next).IsRun s (run next s labels) := by
  induction labels generalizing s with
  | nil => trivial
  | cons a labels ih =>
    cases he : next s a with
    | none => simp [run, he, IsRun]
    | some t => simpa [run, he, IsRun] using ⟨he, ih t⟩

theorem throughout_run {next : σ → α → Option σ} {s : σ} {labels : List α} {P : α → Prop}
    (h : ∀ a ∈ labels, P a) : Throughout (fun _ a _ => P a) s (run next s labels) := by
  induction labels generalizing s with
  | nil => trivial
  | cons a labels ih =>
    cases he : next s a with
    | none => simp [run, he, Throughout]
    | some t =>
      simp only [run, he]
      exact ⟨h a List.mem_cons_self, ih fun b hb => h b (List.mem_cons_of_mem a hb)⟩

theorem Reachable.of_foldlM {init : σ → Prop} {next : σ → α → Option σ} {s t : σ}
    (hs : (ofNext init next).Reachable s) (labels : List α)
    (h : labels.foldlM next s = some t) : (ofNext init next).Reachable t := by
  induction labels generalizing s with
  | nil => simpa [← Option.some.inj h] using hs
  | cons a labels ih =>
    cases he : next s a with
    | none => simp [he] at h
    | some u => exact ih (hs.tail (show next s a = some u from he)) (by simpa [he] using h)

end System

end PidSentry
