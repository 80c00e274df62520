import Mathlib.Logic.Function.Basic
import Mathlib.Tactic.SplitIfs

/-! The descriptors of a process: what closing, duplicating and executing leave of
the references to a file. -/

namespace PidSentry

structure OpenFile (φ : Type*) where
  file : φ
  closeOnExec : Bool
  deriving DecidableEq, Repr

abbrev DescriptorTable (φ : Type*) := Nat → Option (OpenFile φ)

namespace DescriptorTable

variable {φ ψ : Type*} (table : DescriptorTable φ)

def map (f : φ → ψ) : DescriptorTable ψ :=
  fun fd => (table fd).map fun entry => ⟨f entry.file, entry.closeOnExec⟩

def place (fd : Nat) (entry : OpenFile φ) : DescriptorTable φ :=
  Function.update table fd (some entry)

def close (fd : Nat) : DescriptorTable φ := Function.update table fd none

/-- The number of the duplicate is below the limit; whatever had it is closed. -/
def duplicate (limit : Nat) (flag : Bool → Bool) (oldFd newFd : Nat) :
    Option (DescriptorTable φ) :=
  match table oldFd with
  | none => none
  | some entry =>
    if newFd = oldFd then some table
    else if newFd < limit then some (table.place newFd ⟨entry.file, flag entry.closeOnExec⟩)
    else none

def exec : DescriptorTable φ := fun fd => (table fd).filter (! ·.closeOnExec)

def closesOnExec (fd : Nat) : Bool := (table fd).any (·.closeOnExec)

def RefersTo (fd : Nat) (file : φ) : Prop := ∃ flag, table fd = some ⟨file, flag⟩

/-- A file is open as long as a descriptor refers to it. -/
def Holds (file : φ) : Prop := ∃ fd, table.RefersTo fd file

/-- No other descriptor refers to the file. -/
def Sole (file : φ) (fd : Nat) : Prop := ∀ other, table.RefersTo other file → other = fd

variable {table} {file : φ} {fd other : Nat} {entry : OpenFile φ}

@[simp] theorem place_self : table.place fd entry fd = some entry :=
  Function.update_self ..

@[simp] theorem place_of_ne (h : other ≠ fd) : table.place fd entry other = table other :=
  Function.update_of_ne h ..

@[simp] theorem close_self : table.close fd fd = none := Function.update_self ..

@[simp] theorem close_of_ne (h : other ≠ fd) : table.close fd other = table other :=
  Function.update_of_ne h ..

theorem close_eq_some_iff :
    table.close fd other = some entry ↔ other ≠ fd ∧ table other = some entry := by
  by_cases h : other = fd
  · simp [h]
  · simp [h]

theorem exec_eq_some_iff :
    table.exec fd = some entry ↔ table fd = some entry ∧ entry.closeOnExec = false := by
  simp [exec]

theorem duplicate_cases {t : DescriptorTable φ} {limit oldFd newFd : Nat} {flag : Bool → Bool}
    (h : table.duplicate limit flag oldFd newFd = some t) :
    newFd = oldFd ∧ t = table ∨ ∃ entry, table oldFd = some entry ∧
      t = table.place newFd ⟨entry.file, flag entry.closeOnExec⟩ := by
  unfold duplicate at h
  cases hold : table oldFd with
  | none =>
    rw [hold] at h
    cases h
  | some entry =>
    rw [hold] at h
    dsimp only at h
    split_ifs at h with hsame hlimit
    · exact .inl ⟨hsame, (Option.some.inj h).symm⟩
    · exact .inr ⟨entry, rfl, (Option.some.inj h).symm⟩

theorem duplicate_of_ne {t : DescriptorTable φ} {limit oldFd newFd : Nat} {flag : Bool → Bool}
    (h : table.duplicate limit flag oldFd newFd = some t) (hne : other ≠ newFd) :
    t other = table other := by
  rcases duplicate_cases h with ⟨-, rfl⟩ | ⟨entry, -, rfl⟩
  · rfl
  · exact place_of_ne hne

theorem duplicate_eq_place {limit oldFd newFd : Nat} {flag : Bool → Bool}
    (hold : table oldFd = some entry) (hne : newFd ≠ oldFd) (hlimit : newFd < limit) :
    table.duplicate limit flag oldFd newFd =
      some (table.place newFd ⟨entry.file, flag entry.closeOnExec⟩) := by
  simp only [duplicate, hold, if_neg hne, if_pos hlimit]

theorem closesOnExec_of_eq (h : table fd = some entry) :
    table.closesOnExec fd = entry.closeOnExec := by
  simp [closesOnExec, h]

namespace Sole

theorem map (table : DescriptorTable φ) {f : φ → ψ} {file : ψ} (h : ∀ a, f a ≠ file) (fd : Nat) :
    (table.map f).Sole file fd := by
  rintro other ⟨flag, hother⟩
  obtain ⟨entry, -, he⟩ := Option.map_eq_some_iff.mp hother
  exact absurd (OpenFile.mk.inj he).1 (h entry.file)

theorem place (h : table.Sole file fd) (hentry : entry.file = file → other = fd) :
    (table.place other entry).Sole file fd := by
  rintro n ⟨flag, hn⟩
  by_cases hne : n = other
  · subst hne
    rw [place_self] at hn
    exact hentry (by rw [Option.some.inj hn])
  · rw [place_of_ne hne] at hn
    exact h n ⟨flag, hn⟩

theorem close (h : table.Sole file fd) (other : Nat) : (table.close other).Sole file fd := by
  rintro n ⟨flag, hn⟩
  exact h n ⟨flag, (close_eq_some_iff.mp hn).2⟩

theorem exec (h : table.Sole file fd) : table.exec.Sole file fd := by
  rintro n ⟨flag, hn⟩
  exact h n ⟨flag, (exec_eq_some_iff.mp hn).1⟩

/-- A duplicate of another descriptor is no reference to the file. -/
theorem duplicate {t : DescriptorTable φ} {limit oldFd newFd : Nat} {flag : Bool → Bool}
    (h : table.Sole file fd) (hne : oldFd ≠ fd)
    (ht : table.duplicate limit flag oldFd newFd = some t) : t.Sole file fd := by
  rcases duplicate_cases ht with ⟨-, rfl⟩ | ⟨entry, hold, rfl⟩
  · exact h
  · refine h.place fun hfile => absurd (h oldFd ⟨entry.closeOnExec, ?_⟩) hne
    rw [hold, ← hfile]

theorem holds_iff (h : table.Sole file fd) : table.Holds file ↔ table.RefersTo fd file := by
  constructor
  · rintro ⟨other, hother⟩
    exact h other hother ▸ hother
  · exact fun hfd => ⟨fd, hfd⟩

end Sole

end DescriptorTable

end PidSentry
