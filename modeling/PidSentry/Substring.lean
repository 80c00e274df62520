import Mathlib.Data.List.Infix
import Mathlib.Tactic.ByContra

/-! The first occurrence of one list in another. -/

namespace PidSentry

variable {α : Type*}

structure FirstOccurrence (name s pre post : List α) : Prop where
  split : s = pre ++ name ++ post
  first : ∀ pre' post', s = pre' ++ name ++ post' → pre.length ≤ pre'.length

theorem FirstOccurrence.of_start {name s post : List α} (h : s = name ++ post) :
    FirstOccurrence name s [] post :=
  ⟨h, fun _ _ _ => Nat.zero_le _⟩

theorem FirstOccurrence.cons {name s pre post : List α} {a : α} (hne : ¬ name <+: a :: s)
    (h : FirstOccurrence name s pre post) : FirstOccurrence name (a :: s) (a :: pre) post := by
  refine ⟨congrArg (List.cons a) h.split, fun pre' post' he => ?_⟩
  cases pre' with
  | nil => exact absurd ⟨post', he.symm⟩ hne
  | cons b pre' =>
    have hs : s = pre' ++ name ++ post' := (List.cons.inj he).2
    exact Nat.succ_le_succ (h.first pre' post' hs)

theorem FirstOccurrence.unique {name s pre post pre' post' : List α}
    (h : FirstOccurrence name s pre post) (h' : FirstOccurrence name s pre' post') :
    pre = pre' ∧ post = post' := by
  have hlength := Nat.le_antisymm (h.first _ _ h'.split) (h'.first _ _ h.split)
  have he : pre ++ (name ++ post) = pre' ++ (name ++ post') := by
    rw [← List.append_assoc, ← List.append_assoc, ← h.split, ← h'.split]
  obtain ⟨rfl, hrest⟩ := List.append_inj he hlength
  exact ⟨rfl, List.append_cancel_left hrest⟩

theorem FirstOccurrence.singleton {pre : List α} {a : α} (h : a ∉ pre) (post : List α) :
    FirstOccurrence [a] (pre ++ a :: post) pre post := by
  refine ⟨by simp, fun pre' post' he => ?_⟩
  by_contra hlt
  have hpre : (pre ++ a :: post)[pre'.length]? = pre[pre'.length]? :=
    List.getElem?_append_left (Nat.not_le.mp hlt)
  have hother : (pre' ++ [a] ++ post')[pre'.length]? = some a := by simp
  rw [← he, hpre] at hother
  exact h (List.mem_of_getElem? hother)

theorem FirstOccurrence.isInfix {name s pre post : List α} (h : FirstOccurrence name s pre post) :
    name <:+: s :=
  ⟨pre, post, h.split.symm⟩

variable [DecidableEq α]

/-- From the first occurrence on. -/
def strstr : List α → List α → Option (List α)
  | [], name => if name = [] then some [] else none
  | a :: s, name => if name.isPrefixOf (a :: s) then some (a :: s) else strstr s name

theorem strstr_cases (s name : List α) :
    (strstr s name = none ∧ ¬ name <:+: s) ∨
      ∃ pre post, strstr s name = some (name ++ post) ∧ FirstOccurrence name s pre post := by
  induction s with
  | nil =>
    by_cases hname : name = []
    · exact .inr ⟨[], [], by simp [strstr, hname], .of_start (by simp [hname])⟩
    · exact .inl ⟨by simp [strstr, hname], by simpa using hname⟩
  | cons a s ih =>
    by_cases hstart : name <+: a :: s
    · obtain ⟨post, hpost⟩ := hstart
      refine .inr ⟨[], post, ?_, .of_start hpost.symm⟩
      have hp : name.isPrefixOf (a :: s) = true := List.isPrefixOf_iff_prefix.mpr ⟨post, hpost⟩
      rw [strstr, if_pos hp, hpost]
    · have hp : ¬ name.isPrefixOf (a :: s) = true := mt List.isPrefixOf_iff_prefix.mp hstart
      rw [strstr, if_neg hp, List.infix_cons_iff]
      rcases ih with ⟨hnone, hnot⟩ | ⟨pre, post, hsome, hfirst⟩
      · exact .inl ⟨hnone, not_or.mpr ⟨hstart, hnot⟩⟩
      · exact .inr ⟨a :: pre, post, hsome, hfirst.cons hstart⟩

theorem strstr_eq_none_iff {s name : List α} : strstr s name = none ↔ ¬ name <:+: s := by
  rcases strstr_cases s name with ⟨hnone, hnot⟩ | ⟨pre, post, hsome, hfirst⟩
  · simp [hnone, hnot]
  · simp [hsome, hfirst.isInfix]

theorem FirstOccurrence.strstr_eq {name s pre post : List α}
    (h : FirstOccurrence name s pre post) : strstr s name = some (name ++ post) := by
  rcases strstr_cases s name with ⟨-, hnot⟩ | ⟨pre', post', hsome, hfirst⟩
  · exact absurd h.isInfix hnot
  · rw [hsome, (h.unique hfirst).2]

end PidSentry
