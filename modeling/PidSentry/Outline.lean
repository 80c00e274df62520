import Mathlib.Data.List.Basic
import Mathlib.Data.List.TakeWhile

/-! Procedures that are lists of calls. Each call can fail, which leaves the rest to
a cleanup; an outline of a procedure asserts what holds between any two calls. -/

namespace PidSentry

/-- How a call leaves the procedure that makes it. -/
inductive Ending
  | goesOn
  | fails
  | aborts
  deriving DecidableEq, Repr

inductive Stage
  | working
  | closing
  | aborted
  deriving DecidableEq, Repr

/-- A procedure under way: the calls to be made, those that a failing one has
left unmade (itself among them), and the data. -/
structure Course (κ δ : Type*) where
  todo : List κ
  left : List κ
  stage : Stage
  data : δ
  deriving DecidableEq, Repr

variable {κ ρ δ : Type*} (perform : κ → ρ → δ → Option (Ending × δ))

namespace Course

def start (calls : List κ) (data : δ) : Course κ δ := ⟨calls, [], .working, data⟩

def Unmade (c : Course κ δ) (call : κ) : Prop := call ∈ c.todo ∨ call ∈ c.left

instance [DecidableEq κ] (c : Course κ δ) (call : κ) : Decidable (c.Unmade call) :=
  inferInstanceAs (Decidable (_ ∨ _))

variable (cleanup : List κ)

/-- The cleanup has none of its own, so that a call of it that fails aborts. -/
def after (c : Course κ δ) (call : κ) (calls : List κ) (data : δ) : Ending → Course κ δ
  | .goesOn => { c with todo := calls, data := data }
  | .fails =>
    match c.stage with
    | .working => ⟨cleanup, call :: calls, .closing, data⟩
    | _ => ⟨[], c.left, .aborted, data⟩
  | .aborts => ⟨[], c.left, .aborted, data⟩

/-- A procedure that has come to its end goes on to the cleanup as well. -/
def next (c : Course κ δ) (result : ρ) : Option (Course κ δ) :=
  match c.stage, c.todo with
  | .aborted, _ | .closing, [] => none
  | .working, [] => some ⟨cleanup, c.left, .closing, c.data⟩
  | _, call :: calls => (perform call result c.data).map fun (ending, data) =>
    c.after cleanup call calls data ending

end Course

variable {perform} {cleanup : List κ}

theorem Course.next_cons {c : Course κ δ} {call : κ} {calls : List κ} (hstage : c.stage ≠ .aborted)
    (htodo : c.todo = call :: calls) (result : ρ) : c.next perform cleanup result =
      (perform call result c.data).map fun (ending, data) => c.after cleanup call calls data ending := by
  obtain ⟨todo, left, stage, data⟩ := c
  obtain rfl : todo = call :: calls := htodo
  cases stage with
  | working | closing => rfl
  | aborted => exact absurd rfl hstage

/-- Everything that a step of a course can be. -/
inductive Course.Steps (perform : κ → ρ → δ → Option (Ending × δ)) (cleanup : List κ) (result : ρ) :
    Course κ δ → Course κ δ → Prop
  | returns (left : List κ) (data : δ) :
    Steps perform cleanup result ⟨[], left, .working, data⟩ ⟨cleanup, left, .closing, data⟩
  | goesOn {call : κ} {calls left : List κ} {stage : Stage} {data data' : δ}
    (hstage : stage ≠ .aborted) (hcall : perform call result data = some (.goesOn, data')) :
    Steps perform cleanup result ⟨call :: calls, left, stage, data⟩ ⟨calls, left, stage, data'⟩
  | fails {call : κ} {calls left : List κ} {data data' : δ}
    (hcall : perform call result data = some (.fails, data')) :
    Steps perform cleanup result ⟨call :: calls, left, .working, data⟩
      ⟨cleanup, call :: calls, .closing, data'⟩
  | aborts {call : κ} {calls left : List κ} {stage : Stage} {data data' : δ} {ending : Ending}
    (hstage : stage ≠ .aborted) (hcall : perform call result data = some (ending, data')) :
    Steps perform cleanup result ⟨call :: calls, left, stage, data⟩ ⟨[], left, .aborted, data'⟩

theorem Course.steps_of_next {c t : Course κ δ} {result : ρ}
    (h : c.next perform cleanup result = some t) : Steps perform cleanup result c t := by
  obtain ⟨todo, left, stage, data⟩ := c
  cases todo with
  | nil =>
    cases stage with
    | working =>
      obtain rfl := Option.some.inj h
      exact .returns left data
    | closing | aborted => cases h
  | cons call calls =>
    by_cases hstage : stage = .aborted
    · subst hstage
      cases h
    · rw [next_cons hstage rfl] at h
      obtain ⟨⟨ending, data'⟩, hcall, rfl⟩ := Option.map_eq_some_iff.mp h
      cases ending with
      | goesOn => exact .goesOn hstage hcall
      | fails =>
        cases stage with
        | working => exact .fails hcall
        | closing | aborted => exact .aborts hstage hcall
      | aborts => exact .aborts hstage hcall

/-- A step makes the first of the calls to be made, or leaves the data as they are. -/
theorem Course.data_of_next {c t : Course κ δ} {result : ρ}
    (h : c.next perform cleanup result = some t) : t.data = c.data ∨
      ∃ call calls ending, c.todo = call :: calls ∧ perform call result c.data = some (ending, t.data) := by
  cases steps_of_next h with
  | returns left data => exact .inl rfl
  | goesOn hstage hcall => exact .inr ⟨_, _, _, rfl, hcall⟩
  | fails hcall => exact .inr ⟨_, _, _, rfl, hcall⟩
  | aborts hstage hcall => exact .inr ⟨_, _, _, rfl, hcall⟩

theorem Course.unaborted_of_next {c t : Course κ δ} {result : ρ}
    (h : c.next perform cleanup result = some t) : c.stage ≠ .aborted := by
  cases steps_of_next h with
  | returns left data => exact Stage.noConfusion
  | goesOn hstage hcall => exact hstage
  | fails hcall => exact Stage.noConfusion
  | aborts hstage hcall => exact hstage

/-- The calls to come are those that there were, or those of the cleanup. -/
theorem Course.mem_of_next {c t : Course κ δ} {result : ρ} (h : c.next perform cleanup result = some t)
    {call : κ} (hcall : call ∈ t.todo) : call ∈ c.todo ∨ call ∈ cleanup := by
  cases steps_of_next h with
  | returns left data | fails => exact .inr hcall
  | @goesOn other rest => exact .inl (List.mem_cons_of_mem other hcall)
  | aborts => cases hcall

/-- What is left unmade has been left by the first call of it, which has failed. -/
theorem Course.left_of_next {c t : Course κ δ} {result : ρ} (h : c.next perform cleanup result = some t) :
    t.left = c.left ∨ ∃ call calls data, c.todo = call :: calls ∧ t.left = call :: calls ∧
      perform call result c.data = some (.fails, data) := by
  cases steps_of_next h with
  | returns | goesOn | aborts => exact .inl rfl
  | fails hcall => exact .inr ⟨_, _, _, rfl, rfl, hcall⟩

/-- The calls to be made, and those left unmade, are the last ones of what they
belong to. -/
structure Course.Within (calls cleanup : List κ) (c : Course κ δ) : Prop where
  working : c.stage = .working → c.todo <:+ calls ∧ c.left = []
  closing : c.stage = .closing → c.todo <:+ cleanup ∧ c.left <:+ calls

theorem Course.Within.next {calls : List κ} {c t : Course κ δ} {result : ρ}
    (hi : c.Within calls cleanup) (h : c.next perform cleanup result = some t) :
    t.Within calls cleanup := by
  cases steps_of_next h with
  | returns left data =>
    refine ⟨fun hstage => ?_, fun _ => ⟨List.suffix_rfl, ?_⟩⟩
    · cases hstage
    · have hleft := (hi.working rfl).2
      dsimp only at hleft ⊢
      rw [hleft]
      exact List.nil_suffix
  | goesOn hstage hcall =>
    refine ⟨fun hworking => ?_, fun hclosing => ?_⟩
    · obtain ⟨htodo, hleft⟩ := hi.working hworking
      exact ⟨(List.suffix_cons _ _).trans htodo, hleft⟩
    · obtain ⟨htodo, hleft⟩ := hi.closing hclosing
      exact ⟨(List.suffix_cons _ _).trans htodo, hleft⟩
  | fails hcall =>
    refine ⟨fun hstage => ?_, fun _ => ⟨List.suffix_rfl, (hi.working rfl).1⟩⟩
    cases hstage
  | aborts hstage hcall =>
    refine ⟨fun hstage => ?_, fun hstage => ?_⟩
    · cases hstage
    · cases hstage

theorem Course.Within.mem {calls : List κ} {c : Course κ δ} (hi : c.Within calls cleanup)
    (hstage : c.stage ≠ .aborted) {call : κ} (h : call ∈ c.todo) : call ∈ calls ∨ call ∈ cleanup := by
  cases he : c.stage with
  | working => exact .inl ((hi.working he).1.subset h)
  | closing => exact .inr ((hi.closing he).1.subset h)
  | aborted => exact absurd he hstage

/-- A call that is not one of the cleanup comes to be made only by being made. -/
theorem Course.Within.unmade {calls : List κ} {c t : Course κ δ} {result : ρ} {call : κ}
    (hi : c.Within calls cleanup) (hcall : call ∉ cleanup) (h : c.next perform cleanup result = some t)
    (hstage : t.stage ≠ .aborted) :
    (t.Unmade call ↔ c.Unmade call) ∨
      ∃ rest data, c.todo = call :: rest ∧ t = { c with todo := rest, data := data } := by
  cases steps_of_next h with
  | returns left data =>
    refine .inl (or_congr_left (iff_of_false hcall ?_))
    exact List.not_mem_nil
  | @goesOn other rest left stage data data' hworks hother =>
    by_cases he : call = other
    · subst he
      exact .inr ⟨rest, data', rfl, rfl⟩
    · refine .inl (or_congr_left ⟨List.mem_cons_of_mem other, fun hmem => ?_⟩)
      exact (List.mem_cons.mp hmem).resolve_left he
  | @fails other rest left data data' hother =>
    have hleft : left = [] := (hi.working rfl).2
    subst hleft
    refine .inl ⟨fun hunmade => ?_, fun hunmade => ?_⟩
    · exact .inl (hunmade.resolve_left hcall)
    · exact .inr (hunmade.resolve_right List.not_mem_nil)
  | aborts _ hother => exact absurd rfl hstage

section order

variable [DecidableEq κ] {calls rest : List κ} {a b : κ}

/-- The calls before the first of one kind, and those after it. -/
def callsBefore (a : κ) (calls : List κ) : List κ := calls.takeWhile (· ≠ a)

def callsAfter (a : κ) (calls : List κ) : List κ := (calls.dropWhile (· ≠ a)).tail

theorem callsBefore_append_callsAfter (ha : a ∈ calls) :
    callsBefore a calls ++ a :: callsAfter a calls = calls := by
  induction calls with
  | nil => cases ha
  | cons x calls ih =>
    by_cases hx : x = a
    · simp [callsBefore, callsAfter, hx]
    · have ha' : a ∈ calls := (List.mem_cons.mp ha).resolve_left (Ne.symm hx)
      simpa [callsBefore, callsAfter, hx] using ih ha'

/-- Before a call is made all that comes after it is still to be made. -/
theorem callsAfter_of_suffix (h : rest <:+ calls) (honce : a ∉ callsAfter a calls) (ha : a ∈ rest) :
    a :: callsAfter a calls <:+ rest := by
  have hsuffix : a :: callsAfter a calls <:+ calls := ⟨_, callsBefore_append_callsAfter (h.subset ha)⟩
  rcases List.suffix_or_suffix_of_suffix h hsuffix with hrest | hrest
  · rcases List.suffix_cons_iff.mp hrest with rfl | hrest
    · exact List.suffix_rfl
    · exact absurd (hrest.subset ha) honce
  · exact hrest

/-- What is made while `a` is still to be made comes before it. -/
theorem mem_callsBefore_of_suffix (h : b :: rest <:+ calls) (honce : a ∉ callsAfter a calls) (ha : a ∈ rest) :
    b ∈ callsBefore a calls := by
  have hmem : a ∈ calls := h.subset (List.mem_cons_of_mem b ha)
  obtain ⟨made, hmade⟩ := h
  obtain ⟨between, hbetween⟩ := callsAfter_of_suffix ⟨made ++ [b], by simpa using hmade⟩ honce ha
  have hsplit : (made ++ b :: between) ++ a :: callsAfter a calls =
      callsBefore a calls ++ a :: callsAfter a calls := by
    calc (made ++ b :: between) ++ a :: callsAfter a calls
        = made ++ b :: (between ++ a :: callsAfter a calls) := by simp
      _ = calls := by rw [hbetween, hmade]
      _ = callsBefore a calls ++ a :: callsAfter a calls := (callsBefore_append_callsAfter hmem).symm
  rw [← List.append_cancel_right hsplit]
  simp

theorem ne_of_suffix (h : b :: rest <:+ calls) (honce : a ∉ callsAfter a calls) (ha : a ∈ rest) : b ≠ a := by
  rintro rfl
  simpa using List.mem_takeWhile_imp (mem_callsBefore_of_suffix h honce ha)

/-- What comes after `a` only is not the next call to be made while `a` is to be made. -/
theorem later_of_suffix (h : rest <:+ calls) (honce : a ∉ callsAfter a calls) (ha : a ∈ rest)
    (hafter : b ∈ callsAfter a calls) (hbefore : b ∉ callsBefore a calls) :
    b ∈ rest ∧ rest.head? ≠ some b := by
  refine ⟨(callsAfter_of_suffix h honce ha).subset (List.mem_cons_of_mem a hafter), fun hhead => ?_⟩
  obtain ⟨rest, rfl⟩ := List.head?_eq_some_iff.mp hhead
  rcases List.mem_cons.mp ha with rfl | ha
  · exact honce hafter
  · exact hbefore (mem_callsBefore_of_suffix h honce ha)

end order

/-- `I` holds before every call and at the end, of the calls to be made and the
data, and `C` of the calls left and the data after every call that fails. -/
def Outline (perform : κ → ρ → δ → Option (Ending × δ)) (I C : List κ → δ → Prop) :
    List κ → δ → Prop
  | [], data => I [] data
  | call :: calls, data => I (call :: calls) data ∧
    ∀ result ending data', perform call result data = some (ending, data') →
      (ending = .goesOn → Outline perform I C calls data') ∧
      (ending = .fails → C (call :: calls) data')

namespace Outline

variable {I C : List κ → δ → Prop} {calls more : List κ} {data : δ}

theorem here (h : Outline perform I C calls data) : I calls data := by
  cases calls with
  | nil => exact h
  | cons call calls => exact h.1

/-- Calls that keep an invariant are outlined by what it implies before each of
them, up to the calls that come after them. -/
theorem append {J : δ → Prop} (hhere : ∀ rest, rest <:+ calls → ∀ data, J data → I (rest ++ more) data)
    (hfails : ∀ rest, rest <:+ calls → ∀ data, J data → C (rest ++ more) data)
    (hkeeps : ∀ call ∈ calls, ∀ result ending data data', J data →
      perform call result data = some (ending, data') → J data')
    (hmore : ∀ data, J data → Outline perform I C more data) (hdata : J data) :
    Outline perform I C (calls ++ more) data := by
  induction calls generalizing data with
  | nil => exact hmore data hdata
  | cons call calls ih =>
    have hrest : ∀ rest, rest <:+ calls → rest <:+ call :: calls :=
      fun rest hrest => hrest.trans (List.suffix_cons call calls)
    refine ⟨hhere _ List.suffix_rfl data hdata, fun result ending data' hcall => ⟨fun _ => ?_, fun _ => ?_⟩⟩
    · exact ih (fun rest h => hhere rest (hrest rest h)) (fun rest h => hfails rest (hrest rest h))
        (fun other h => hkeeps other (List.mem_cons_of_mem call h))
        (hkeeps call List.mem_cons_self _ _ _ _ hdata hcall)
    · exact hfails _ List.suffix_rfl data' (hkeeps call List.mem_cons_self _ _ _ _ hdata hcall)

theorem of_invariant {J : δ → Prop} (hhere : ∀ rest, rest <:+ calls → ∀ data, J data → I rest data)
    (hfails : ∀ rest, rest <:+ calls → ∀ data, J data → C rest data)
    (hkeeps : ∀ call ∈ calls, ∀ result ending data data', J data →
      perform call result data = some (ending, data') → J data')
    (hdata : J data) : Outline perform I C calls data := by
  have h : Outline perform I C (calls ++ []) data :=
    append (by simpa using hhere) (by simpa using hfails) hkeeps
      (fun data hdata => hhere [] List.nil_suffix data hdata) hdata
  rwa [List.append_nil] at h

end Outline

/-- A course keeps to the outline of its procedure, and from a failure on, or from
the end of the procedure, to that of the cleanup. -/
def Course.Meets (perform : κ → ρ → δ → Option (Ending × δ)) (I C : List κ → δ → Prop)
    (J : List κ → List κ → δ → Prop) (c : Course κ δ) : Prop :=
  match c.stage with
  | .working => c.left = [] ∧ Outline perform I C c.todo c.data
  | .closing => Outline perform (J c.left) (fun _ _ => True) c.todo c.data
  | .aborted => True

theorem Course.Meets.next {I C : List κ → δ → Prop} {J : List κ → List κ → δ → Prop}
    (hreturns : ∀ data, I [] data → Outline perform (J []) (fun _ _ => True) cleanup data)
    (hfails : ∀ left data, C left data → Outline perform (J left) (fun _ _ => True) cleanup data)
    {c t : Course κ δ} {result : ρ} (hi : c.Meets perform I C J)
    (h : c.next perform cleanup result = some t) : t.Meets perform I C J := by
  cases steps_of_next h with
  | returns left data =>
    obtain ⟨rfl, houtline⟩ : left = [] ∧ Outline perform I C [] data := hi
    exact hreturns data houtline
  | @goesOn call calls left stage data data' hstage hcall =>
    cases stage with
    | working =>
      obtain ⟨hleft, houtline⟩ : left = [] ∧ Outline perform I C (call :: calls) data := hi
      exact ⟨hleft, (houtline.2 _ _ _ hcall).1 rfl⟩
    | closing =>
      have houtline : Outline perform (J left) (fun _ _ => True) (call :: calls) data := hi
      exact (houtline.2 _ _ _ hcall).1 rfl
    | aborted => exact absurd rfl hstage
  | @fails call calls left data data' hcall =>
    obtain ⟨-, houtline⟩ : left = [] ∧ Outline perform I C (call :: calls) data := hi
    exact hfails _ _ ((houtline.2 _ _ _ hcall).2 rfl)
  | aborts hstage hcall => exact trivial

theorem Course.Meets.here {I : List κ → δ → Prop} {C : List κ → δ → Prop} {c : Course κ δ}
    (hi : c.Meets perform I C (fun _ => I)) (hstage : c.stage ≠ .aborted) : I c.todo c.data := by
  unfold Course.Meets at hi
  cases he : c.stage with
  | working =>
    rw [he] at hi
    exact hi.2.here
  | closing =>
    rw [he] at hi
    exact hi.here
  | aborted => exact absurd he hstage

end PidSentry
