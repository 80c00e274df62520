import Mathlib.Logic.Function.Basic

/-! Constructors that assign the fields of an object one after the other and may
fail in between, and the cleanups that then look at the fields: what a cleanup does
cannot depend on memory from before the construction unless it reads a field that
has not been assigned. -/

namespace PidSentry

structure Slot (ν : Type*) where
  value : ν
  assigned : Bool
  deriving DecidableEq, Repr

/-- The fields of an object, of which only the assigned ones are known. -/
abbrev Fields (φ ν : Type*) := φ → Slot ν

inductive Instruction (φ ν σ : Type*)
  | assign (field : φ) (value : ν)
  | attempt (step : σ)
  deriving DecidableEq, Repr

inductive Cleanup (φ ν α : Type*)
  | done
  | clear (field : φ) (rest : Cleanup φ ν α)
  /-- An action on whatever the field holds. -/
  | read (action : α) (field : φ) (rest : Cleanup φ ν α)
  /-- An action on what the field points to, if anything, after which it is null. -/
  | release (action : α) (field : φ) (rest : Cleanup φ ν α)
  | branch (field : φ) (test : ν → Bool) (body rest : Cleanup φ ν α)

variable {φ ν σ α : Type*} [DecidableEq φ]

def Fields.assign (M : Fields φ ν) (field : φ) (value : ν) : Fields φ ν :=
  Function.update M field ⟨value, true⟩

def construct (M : Fields φ ν) : List (Instruction φ ν σ) → Fields φ ν
  | [] => M
  | .assign field value :: rest => construct (M.assign field value) rest
  | .attempt _ :: rest => construct M rest

/-- Every step at which a constructor can fail, after what it has done before. -/
def failures : List (Instruction φ ν σ) → List (List (Instruction φ ν σ) × σ)
  | [] => []
  | .assign field value :: rest => (failures rest).map (Prod.map (.assign field value :: ·) id)
  | .attempt step :: rest => ([], step) :: (failures rest).map (Prod.map (.attempt step :: ·) id)

omit [DecidableEq φ] in
theorem mem_failures_iff {program before : List (Instruction φ ν σ)} {step : σ} :
    (before, step) ∈ failures program ↔ ∃ after, program = before ++ .attempt step :: after := by
  induction program generalizing before with
  | nil => simp [failures]
  | cons instruction program ih =>
    have hlater : (before, step) ∈ (failures program).map (Prod.map (instruction :: ·) id) ↔
        ∃ earlier, before = instruction :: earlier ∧
          ∃ after, program = earlier ++ .attempt step :: after := by
      simp only [List.mem_map, Prod.exists, Prod.map_apply, id, Prod.mk.injEq]
      constructor
      · rintro ⟨earlier, found, hmem, hbefore, hstep⟩
        rw [hstep] at hmem
        exact ⟨earlier, hbefore.symm, ih.mp hmem⟩
      · rintro ⟨earlier, rfl, hprogram⟩
        exact ⟨earlier, step, ih.mpr hprogram, rfl, rfl⟩
    cases instruction with
    | assign field value =>
      rw [failures, hlater]
      constructor
      · rintro ⟨earlier, rfl, after, rfl⟩
        exact ⟨after, rfl⟩
      · rintro ⟨after, hprogram⟩
        cases before with
        | nil => simp at hprogram
        | cons first earlier =>
          rw [List.cons_append, List.cons.injEq] at hprogram
          exact ⟨earlier, by rw [hprogram.1], after, hprogram.2⟩
    | attempt first =>
      rw [failures, List.mem_cons, hlater, Prod.mk.injEq]
      constructor
      · rintro (⟨rfl, rfl⟩ | ⟨earlier, rfl, after, rfl⟩)
        · exact ⟨program, rfl⟩
        · exact ⟨after, rfl⟩
      · rintro ⟨after, hprogram⟩
        cases before with
        | nil =>
          rw [List.nil_append, List.cons.injEq, Instruction.attempt.injEq] at hprogram
          exact .inl ⟨rfl, hprogram.1.symm⟩
        | cons second earlier =>
          rw [List.cons_append, List.cons.injEq] at hprogram
          exact .inr ⟨earlier, by rw [hprogram.1], after, hprogram.2⟩

def Agree (M N : Fields φ ν) : Prop :=
  ∀ f, (M f).assigned = (N f).assigned ∧ ((M f).assigned = true → M f = N f)

omit [DecidableEq φ] in
theorem Agree.symm {M N : Fields φ ν} (h : Agree M N) : Agree N M := by
  intro f
  obtain ⟨hassigned, hsame⟩ := h f
  exact ⟨hassigned.symm, fun hn => (hsame (hassigned.trans hn)).symm⟩

theorem Agree.assign {M N : Fields φ ν} (h : Agree M N) (field : φ) (value : ν) :
    Agree (M.assign field value) (N.assign field value) := by
  intro f
  by_cases hf : f = field
  · subst hf
    simp [Fields.assign]
  · simpa [Fields.assign, hf] using h f

theorem Agree.construct {M N : Fields φ ν} (h : Agree M N) (program : List (Instruction φ ν σ)) :
    Agree (construct M program) (construct N program) := by
  induction program generalizing M N with
  | nil => exact h
  | cons instruction program ih =>
    cases instruction with
    | assign field value => exact ih (h.assign field value)
    | attempt step => exact ih h

def Garbage (M : Fields φ ν) : Prop := ∀ f, (M f).assigned = false

omit [DecidableEq φ] in
theorem Garbage.agree {M N : Fields φ ν} (hm : Garbage M) (hn : Garbage N) : Agree M N := by
  intro f
  refine ⟨(hm f).trans (hn f).symm, fun h => ?_⟩
  rw [hm f] at h
  cases h

namespace Cleanup

variable [Zero ν] [DecidableEq ν]

/-- What a cleanup makes of the fields, and everything that it does. -/
def run : Cleanup φ ν α → Fields φ ν → Fields φ ν × List (α × φ × ν)
  | done, M => (M, [])
  | clear field rest, M => rest.run (M.assign field 0)
  | read action field rest, M =>
    ((rest.run M).1, (action, field, (M field).value) :: (rest.run M).2)
  | release action field rest, M =>
    let later := rest.run (M.assign field 0)
    (later.1, if (M field).value = 0 then later.2 else (action, field, (M field).value) :: later.2)
  | branch field test body rest, M =>
    if test (M field).value then
      let later := rest.run (body.run M).1
      (later.1, (body.run M).2 ++ later.2)
    else rest.run M

/-- Whether a cleanup reads a field that is not assigned. -/
def stale : Cleanup φ ν α → Fields φ ν → Bool
  | done, _ => false
  | clear field rest, M => rest.stale (M.assign field 0)
  | read _ field rest, M => ! (M field).assigned || rest.stale M
  | release _ field rest, M => ! (M field).assigned || rest.stale (M.assign field 0)
  | branch field test body rest, M =>
    ! (M field).assigned ||
      if test (M field).value then body.stale M || rest.stale (body.run M).1 else rest.stale M

/-- On objects that agree, a cleanup that reads assigned fields only does the same. -/
theorem run_agree {cleanup : Cleanup φ ν α} {M N : Fields φ ν} (h : Agree M N)
    (hstale : cleanup.stale M = false) :
    (cleanup.run M).2 = (cleanup.run N).2 ∧ Agree (cleanup.run M).1 (cleanup.run N).1 ∧
      cleanup.stale N = false := by
  induction cleanup generalizing M N with
  | done => exact ⟨rfl, h, rfl⟩
  | clear field rest ih => exact ih (h.assign field 0) hstale
  | read action field rest ih =>
    simp only [stale, Bool.or_eq_false_iff, Bool.not_eq_false'] at hstale
    have hfield := (h field).2 hstale.1
    obtain ⟨hsame, hagree, hlater⟩ := ih h hstale.2
    refine ⟨?_, hagree, ?_⟩
    · simp only [run, hfield, hsame]
    · simp [stale, ← hfield, hstale.1, hlater]
  | release action field rest ih =>
    simp only [stale, Bool.or_eq_false_iff, Bool.not_eq_false'] at hstale
    have hfield := (h field).2 hstale.1
    obtain ⟨hsame, hagree, hlater⟩ := ih (h.assign field 0) hstale.2
    refine ⟨?_, hagree, ?_⟩
    · simp only [run, hfield, hsame]
    · simp [stale, ← hfield, hstale.1, hlater]
  | branch field test body rest ihbody ihrest =>
    simp only [stale, Bool.or_eq_false_iff, Bool.not_eq_false'] at hstale
    have hfield := (h field).2 hstale.1
    by_cases htest : test (M field).value = true
    · simp only [htest, if_true, Bool.or_eq_false_iff] at hstale
      obtain ⟨hassigned, hbody, hrest⟩ := hstale
      obtain ⟨hbodysame, hbodyagree, hbodylater⟩ := ihbody h hbody
      obtain ⟨hsame, hagree, hlater⟩ := ihrest hbodyagree hrest
      refine ⟨?_, ?_, ?_⟩
      · simp only [run, ← hfield, htest, if_true, hbodysame, hsame]
      · simpa only [run, ← hfield, htest, if_true] using hagree
      · simp [stale, ← hfield, hassigned, htest, hbodylater, hlater]
    · rw [if_neg htest] at hstale
      obtain ⟨hsame, hagree, hlater⟩ := ihrest h hstale.2
      refine ⟨?_, ?_, ?_⟩
      · simpa only [run, ← hfield, if_neg htest] using hsame
      · simpa only [run, ← hfield, if_neg htest] using hagree
      · simp [stale, ← hfield, hstale.1, htest, hlater]

theorem stale_eq_of_agree {cleanup : Cleanup φ ν α} {M N : Fields φ ν} (h : Agree M N) :
    cleanup.stale M = cleanup.stale N := by
  cases hm : cleanup.stale M with
  | false => exact (run_agree h hm).2.2.symm
  | true =>
    cases hn : cleanup.stale N with
    | true => rfl
    | false =>
      have hfalse := (run_agree h.symm hn).2.2
      rw [hm] at hfalse
      cases hfalse

end Cleanup

section

variable [Zero ν] [DecidableEq ν]

/-- Whatever was there before the construction, the cleanup does the same. -/
def SameCleanup (before : List (Instruction φ ν σ)) (cleanup : Cleanup φ ν α) : Prop :=
  ∀ M N : Fields φ ν, Garbage M → Garbage N →
    (cleanup.run (construct M before)).2 = (cleanup.run (construct N before)).2

/-- Every field that the cleanup reads has been assigned. -/
def ReadsAssigned (before : List (Instruction φ ν σ)) (cleanup : Cleanup φ ν α) : Prop :=
  ∀ M : Fields φ ν, Garbage M → cleanup.stale (construct M before) = false

variable {before : List (Instruction φ ν σ)} {cleanup : Cleanup φ ν α}

theorem ReadsAssigned.same (h : ReadsAssigned before cleanup) : SameCleanup before cleanup :=
  fun M _ hm hn => (Cleanup.run_agree ((hm.agree hn).construct before) (h M hm)).1

/-- What one object shows of the fields that are read holds of all. -/
theorem readsAssigned_iff {M : Fields φ ν} (hm : Garbage M) :
    ReadsAssigned before cleanup ↔ cleanup.stale (construct M before) = false := by
  constructor
  · exact fun h => h M hm
  · intro h N hn
    rw [← Cleanup.stale_eq_of_agree ((hm.agree hn).construct before), h]

end

end PidSentry
