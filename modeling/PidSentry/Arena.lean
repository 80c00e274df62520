import Mathlib.Data.List.Basic

/-! Objects that are allocated, closed and freed. An object has a place of its
own that is never given to another one, so that any use after it is freed shows. -/

namespace PidSentry

structure Cell (α : Type*) where
  value : α
  closed : Nat
  freed : Nat
  deriving DecidableEq, Repr

namespace Cell

variable {α : Type*}

def fresh (value : α) : Cell α := ⟨value, 0, 0⟩

def update (f : α → α) (cell : Cell α) : Cell α := { cell with value := f cell.value }

def close (cell : Cell α) : Cell α := { cell with closed := cell.closed + 1 }

def free (cell : Cell α) : Cell α := { cell with freed := cell.freed + 1 }

def Live (cell : Cell α) : Prop := cell.closed = 0 ∧ cell.freed = 0

def Retired (cell : Cell α) : Prop := cell.closed = 1 ∧ cell.freed = 1

@[simp] theorem fresh_value (value : α) : (fresh value).value = value := rfl

@[simp] theorem fresh_live (value : α) : (fresh value).Live := ⟨rfl, rfl⟩

@[simp] theorem update_value (f : α → α) (cell : Cell α) : (cell.update f).value = f cell.value := rfl

@[simp] theorem live_update {f : α → α} {cell : Cell α} : (cell.update f).Live ↔ cell.Live := Iff.rfl

theorem Live.close_free {cell : Cell α} (h : cell.Live) : cell.close.free.Retired := by
  obtain ⟨hclosed, hfreed⟩ := h
  exact ⟨by simp [close, free, hclosed], by simp [close, free, hfreed]⟩

theorem Live.not_retired {cell : Cell α} (h : cell.Live) : ¬ cell.Retired := by
  intro hretired
  have hfreed := h.2.symm.trans hretired.2
  omega

end Cell

abbrev Arena (α : Type*) := List (Cell α)

namespace Arena

variable {α : Type*} (arena : Arena α)

/-- The value of an object that has not been freed. -/
def use (i : Nat) : Option α :=
  match arena[i]? with
  | some cell => if cell.freed = 0 then some cell.value else none
  | none => none

def allocate (value : α) : Arena α := arena ++ [.fresh value]

def update (i : Nat) (f : α → α) : Arena α := arena.modify i (Cell.update f)

def close (i : Nat) : Arena α := arena.modify i Cell.close

def free (i : Nat) : Arena α := arena.modify i Cell.free

variable {arena} {i j : Nat} {cell : Cell α}

theorem use_of_live (hcell : arena[i]? = some cell) (hlive : cell.Live) :
    arena.use i = some cell.value := by
  simp [use, hcell, hlive.2]

theorem free_close (arena : Arena α) (i : Nat) :
    (arena.close i).free i = arena.modify i fun cell => cell.close.free := by
  apply List.ext_getElem?
  intro j
  by_cases hij : i = j
  · simp [close, free, hij, Function.comp_def]
  · simp [close, free, hij]

theorem getElem?_modify_self {f : Cell α → Cell α} (hcell : arena[i]? = some cell) :
    (arena.modify i f)[i]? = some (f cell) := by
  simp [hcell]

theorem getElem?_modify_of_ne {f : Cell α → Cell α} (hne : j ≠ i) :
    (arena.modify i f)[j]? = arena[j]? := by
  simp [hne.symm]

theorem modify_congr {f g : Cell α → Cell α} (hcell : arena[i]? = some cell) (h : f cell = g cell) :
    arena.modify i f = arena.modify i g := by
  apply List.ext_getElem?
  intro j
  by_cases hij : j = i
  · rw [hij, getElem?_modify_self hcell, getElem?_modify_self hcell, h]
  · rw [getElem?_modify_of_ne hij, getElem?_modify_of_ne hij]

theorem modify_concat (arena : Arena α) (cell : Cell α) (f : Cell α → Cell α) :
    (arena ++ [cell]).modify arena.length f = arena ++ [f cell] := by
  induction arena with
  | nil => rfl
  | cons first arena ih => simpa using ih

@[simp] theorem use_concat (arena : Arena α) (value : α) :
    (arena ++ [Cell.fresh value]).use arena.length = some value :=
  use_of_live List.getElem?_concat_length (Cell.fresh_live value)

theorem getElem?_append_of_some (cells : Arena α) (hcell : arena[i]? = some cell) :
    (arena ++ cells)[i]? = some cell := by
  rw [List.getElem?_append_left (List.getElem?_eq_some_iff.mp hcell).1, hcell]

theorem lt_length_of_some (hcell : arena[i]? = some cell) : i < arena.length :=
  (List.getElem?_eq_some_iff.mp hcell).1

theorem getElem?_append_cases {cells : Arena α} (h : (arena ++ cells)[i]? = some cell) :
    arena[i]? = some cell ∨ cell ∈ cells := by
  by_cases hlt : i < arena.length
  · exact .inl (by rwa [List.getElem?_append_left hlt] at h)
  · have hle : arena.length ≤ i := by omega
    rw [List.getElem?_append_right hle] at h
    exact .inr (List.mem_of_getElem? h)

theorem getElem?_concat_cases {last : Cell α} (h : (arena ++ [last])[i]? = some cell) :
    arena[i]? = some cell ∨ i = arena.length := by
  by_cases hlt : i < arena.length
  · exact .inl (by rwa [List.getElem?_append_left hlt] at h)
  · have hbound := lt_length_of_some h
    rw [List.length_append, List.length_singleton] at hbound
    exact .inr (by omega)

end Arena

end PidSentry
