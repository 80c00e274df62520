import Mathlib.Logic.Basic

/-! Programs that get answers from outside and may fail or stop: a precondition that
covers every script of answers, and a rule for each construct. -/

namespace PidSentry

inductive Completion (ε δ β : Type)
  | value (b : β)
  | error (e : ε)
  /-- There is no going on, not even to clean up. -/
  | stop (d : δ)
  deriving DecidableEq, Repr

/-- A program on states `σ`, under a script of the answers that it will get. -/
def Scripted (α σ ε δ β : Type) := σ → List α → Completion ε δ β × σ × List α

namespace Scripted

variable {α σ ε δ β γ : Type}

instance : Monad (Scripted α σ ε δ) where
  pure b := fun s answers => (.value b, s, answers)
  bind m k := fun s answers =>
    match m s answers with
    | (.value b, s', rest) => k b s' rest
    | (.error e, s', rest) => (.error e, s', rest)
    | (.stop d, s', rest) => (.stop d, s', rest)

def get : Scripted α σ ε δ σ := fun s answers => (.value s, s, answers)

def modify (f : σ → σ) : Scripted α σ ε δ Unit := fun s answers => (.value (), f s, answers)

def error (e : ε) : Scripted α σ ε δ β := fun s answers => (.error e, s, answers)

def stop (d : δ) : Scripted α σ ε δ β := fun s answers => (.stop d, s, answers)

/-- The next answer, or a stop where the script ends. -/
def ask (waiting : δ) : Scripted α σ ε δ α := fun s answers =>
  match answers with
  | [] => (.stop waiting, s, [])
  | answer :: rest => (.value answer, s, rest)

def errorIf (p : Prop) [Decidable p] (e : ε) : Scripted α σ ε δ Unit :=
  if p then error e else pure ()

def ensure (p : Prop) [Decidable p] (d : δ) : Scripted α σ ε δ Unit :=
  if p then pure () else stop d

def onlyIf (p : Prop) [Decidable p] (m : Scripted α σ ε δ Unit) : Scripted α σ ε δ Unit :=
  if p then m else pure ()

/-- What is done about the state on the way out of an error. -/
def onError (m : Scripted α σ ε δ β) (f : σ → σ) : Scripted α σ ε δ β := fun s answers =>
  match m s answers with
  | (.error e, s', rest) => (.error e, f s', rest)
  | ending => ending

def orStop (m : Scripted α σ ε δ β) (d : δ) : Scripted α σ ε δ β := fun s answers =>
  match m s answers with
  | (.error _, s', rest) => (.stop d, s', rest)
  | ending => ending

/-- Whatever the answers are, the program ends in one of these ways. -/
def wp (m : Scripted α σ ε δ β) (Q : β → σ → Prop) (E : ε → σ → Prop) (S : δ → σ → Prop)
    (s : σ) : Prop :=
  ∀ answers,
    match m s answers with
    | (.value b, s', _) => Q b s'
    | (.error e, s', _) => E e s'
    | (.stop d, s', _) => S d s'

variable {m : Scripted α σ ε δ β} {k : β → Scripted α σ ε δ γ} {Q Q' : β → σ → Prop}
  {R : γ → σ → Prop} {E E' : ε → σ → Prop} {S S' : δ → σ → Prop} {s : σ}

theorem wp_mono (h : wp m Q E S s) (hq : ∀ b s', Q b s' → Q' b s') (he : ∀ e s', E e s' → E' e s')
    (hs : ∀ d s', S d s' → S' d s') : wp m Q' E' S' s := by
  intro answers
  have hm := h answers
  split at hm
  · exact hq _ _ hm
  · exact he _ _ hm
  · exact hs _ _ hm

theorem wp_pure {b : β} (h : Q b s) : wp (pure b : Scripted α σ ε δ β) Q E S s := fun _ => h

theorem wp_error {e : ε} (h : E e s) : wp (error e : Scripted α σ ε δ β) Q E S s := fun _ => h

theorem wp_stop {d : δ} (h : S d s) : wp (stop d : Scripted α σ ε δ β) Q E S s := fun _ => h

theorem wp_bind (h : wp m (fun b => wp (k b) R E S) E S s) : wp (m >>= k) R E S s := by
  intro answers
  have hm := h answers
  show match (match m s answers with
    | (.value b, s', rest) => k b s' rest
    | (.error e, s', rest) => (.error e, s', rest)
    | (.stop d, s', rest) => (.stop d, s', rest)) with
    | (.value b, s', _) => R b s'
    | (.error e, s', _) => E e s'
    | (.stop d, s', _) => S d s'
  generalize m s answers = ending at hm
  obtain ⟨ending, s', rest⟩ := ending
  cases ending with
  | value b => exact hm rest
  | error e => exact hm
  | stop d => exact hm

theorem wp_seq (h : wp m Q E' S' s) (hk : ∀ b s', Q b s' → wp (k b) R E S s')
    (he : ∀ e s', E' e s' → E e s') (hs : ∀ d s', S' d s' → S d s') : wp (m >>= k) R E S s :=
  wp_bind (wp_mono h hk he hs)

theorem wp_then (h : wp m Q E S s) (hk : ∀ b s', Q b s' → wp (k b) R E S s') :
    wp (m >>= k) R E S s :=
  wp_seq h hk (fun _ _ h => h) (fun _ _ h => h)

theorem wp_get {k : σ → Scripted α σ ε δ γ} (h : wp (k s) R E S s) : wp (get >>= k) R E S s :=
  fun answers => h answers

theorem wp_modify {f : σ → σ} {k : Unit → Scripted α σ ε δ γ} (h : wp (k ()) R E S (f s)) :
    wp (modify f >>= k) R E S s :=
  fun answers => h answers

theorem wp_update {f : σ → σ} {Q : Unit → σ → Prop} (h : Q () (f s)) :
    wp (modify f : Scripted α σ ε δ Unit) Q E S s :=
  fun _ => h

theorem wp_ask {waiting : δ} {k : α → Scripted α σ ε δ γ} (hs : S waiting s)
    (h : ∀ answer, wp (k answer) R E S s) : wp (ask waiting >>= k) R E S s := by
  intro answers
  cases answers with
  | nil => exact hs
  | cons answer rest => exact h answer rest

theorem wp_errorIf {p : Prop} [Decidable p] {e : ε} {k : Unit → Scripted α σ ε δ γ}
    (he : p → E e s) (h : ¬ p → wp (k ()) R E S s) : wp (errorIf p e >>= k) R E S s := by
  by_cases hp : p
  · rw [errorIf, if_pos hp]
    exact fun _ => he hp
  · rw [errorIf, if_neg hp]
    exact fun answers => h hp answers

theorem wp_ensure {p : Prop} [Decidable p] {d : δ} {k : Unit → Scripted α σ ε δ γ} (hp : p)
    (h : wp (k ()) R E S s) : wp (ensure p d >>= k) R E S s := by
  rw [ensure, if_pos hp]
  exact fun answers => h answers

theorem wp_ensured {p : Prop} [Decidable p] {d : δ} {Q : Unit → σ → Prop} (hp : p) (h : Q () s) :
    wp (ensure p d : Scripted α σ ε δ Unit) Q E S s := by
  rw [ensure, if_pos hp]
  exact wp_pure h

theorem wp_onError {f : σ → σ} (h : wp m Q (fun e s' => E e (f s')) S s) :
    wp (m.onError f) Q E S s := by
  intro answers
  have hm := h answers
  unfold onError
  generalize m s answers = ending at hm
  obtain ⟨ending, s', rest⟩ := ending
  cases ending <;> exact hm

theorem wp_orStop {d : δ} (h : wp m Q (fun _ s' => S d s') S s) : wp (m.orStop d) Q E S s := by
  intro answers
  have hm := h answers
  unfold orStop
  generalize m s answers = ending at hm
  obtain ⟨ending, s', rest⟩ := ending
  cases ending <;> exact hm

theorem wp_ite {p : Prop} [Decidable p] {m₁ m₂ : Scripted α σ ε δ β} (hp : p → wp m₁ Q E S s)
    (hn : ¬ p → wp m₂ Q E S s) : wp (if p then m₁ else m₂) Q E S s := by
  by_cases h : p
  · rw [if_pos h]
    exact hp h
  · rw [if_neg h]
    exact hn h

theorem wp_onlyIf {p : Prop} [Decidable p] {m : Scripted α σ ε δ Unit} {Q : Unit → σ → Prop}
    (hp : p → wp m Q E S s) (hn : ¬ p → Q () s) : wp (onlyIf p m) Q E S s :=
  wp_ite hp fun h => wp_pure (hn h)

end Scripted

end PidSentry
