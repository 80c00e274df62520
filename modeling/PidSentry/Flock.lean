import Mathlib.Logic.Function.Basic

/-! Processes that share one directory entry: the files it may name, what each
process holds open, and advisory locks that last as long as the file is open. -/

namespace PidSentry

inductive FlockMode
  | shared
  | exclusive
  deriving DecidableEq, Repr

/-- The one file that a process may hold open, and its lock on it. -/
inductive Descriptor (ν : Type*)
  | closed
  | opened (file : ν) (lock : Option FlockMode)
  deriving DecidableEq, Repr

inductive FileCall (ν : Type*)
  | openExisting (file : ν)
  | createExclusive (file : ν)
  /-- No entry to open or to unlink. -/
  | absent
  /-- An entry in the way of an exclusive creation. -/
  | present
  | flock (mode : FlockMode)
  | unlock
  | read (bytes : List UInt8)
  | write (offset : Nat) (bytes : List UInt8)
  | truncate
  | lstat (entry : Option ν)
  | unlink
  | close
  deriving DecidableEq, Repr

/-- A write at an offset fills up with zeros what lies before it. -/
def overwrite (content : List UInt8) (offset : Nat) (bytes : List UInt8) : List UInt8 :=
  (content.rightpad offset 0).take offset ++ bytes ++ content.drop (offset + bytes.length)

theorem overwrite_length (content bytes : List UInt8) :
    overwrite content content.length bytes = content ++ bytes := by
  simp [overwrite, List.rightpad]

/-- Writing the next part of a buffer after the parts before it. -/
theorem overwrite_take {buf bytes : List UInt8} {written : Nat} (hw : written ≤ buf.length)
    (hb : bytes <+: buf.drop written) :
    overwrite (buf.take written) written bytes = buf.take (written + bytes.length) := by
  have hlen : (buf.take written).length = written := List.length_take_of_le hw
  have hover := overwrite_length (buf.take written) bytes
  rw [hlen] at hover
  rw [hover, List.take_add, ← List.prefix_iff_eq_take.mp hb]

namespace FileCall

variable {ν : Type*}

/-- The content that a call leaves in the file the process holds open. -/
@[simp] def revise (content : List UInt8) : FileCall ν → List UInt8
  | write offset bytes => overwrite content offset bytes
  | truncate => []
  | _ => content

@[simp] def revises : FileCall ν → Bool
  | write .. | truncate => true
  | _ => false

@[simp] def relinks : FileCall ν → Bool
  | createExclusive _ | unlink => true
  | _ => false

end FileCall

namespace Descriptor

variable {ν : Type*}

@[simp] def file : Descriptor ν → Option ν
  | closed => none
  | opened file _ => some file

@[simp] def after : Descriptor ν → FileCall ν → Descriptor ν
  | _, .openExisting file | _, .createExclusive file => opened file none
  | opened file _, .flock mode => opened file (some mode)
  | opened file _, .unlock => opened file none
  | _, .close => closed
  | descriptor, _ => descriptor

theorem eq_of_locked_after {descriptor : Descriptor ν} {call : FileCall ν} {f : ν}
    {mode : FlockMode} (h : descriptor.after call = opened f (some mode)) :
    descriptor = opened f (some mode) ∨ call = .flock mode ∧ descriptor.file = some f := by
  cases call with
  | flock asked =>
    cases descriptor with
    | closed => cases h
    | opened g lock =>
      simp only [after, opened.injEq, Option.some.injEq] at h
      exact .inr ⟨by rw [h.2], by rw [file, h.1]⟩
  | unlock => cases descriptor <;> cases h
  | openExisting | createExclusive | close => cases h
  | absent | present | read | write | truncate | lstat | unlink => exact .inl h

end Descriptor

structure FileSystem (π ν : Type*) where
  entry : Option ν
  content : ν → List UInt8
  descriptor : π → Descriptor ν

namespace FileSystem

variable {π ν : Type*} (fs : FileSystem π ν)

/-- Whether a call of the process can have its result. A new file is one that
no process holds open, and a lock is granted only beside compatible ones. -/
def Allows (i : π) : FileCall ν → Prop
  | .openExisting f => fs.entry = some f
  | .createExclusive f => fs.entry = none ∧ ∀ j, (fs.descriptor j).file ≠ some f
  | .absent => fs.entry = none
  | .present | .unlink => fs.entry ≠ none
  | .flock .exclusive => ∀ f, (fs.descriptor i).file = some f →
      ∀ j, j ≠ i → ∀ mode, fs.descriptor j ≠ .opened f (some mode)
  | .flock .shared => ∀ f, (fs.descriptor i).file = some f →
      ∀ j, j ≠ i → fs.descriptor j ≠ .opened f (some .exclusive)
  | .read bytes => ∃ f, (fs.descriptor i).file = some f ∧ fs.content f = bytes
  | .lstat entry => fs.entry = entry
  | .write .. | .truncate => (fs.descriptor i).file ≠ none
  | .unlock | .close => True

variable [DecidableEq π] [DecidableEq ν]

def entryAfter : FileCall ν → Option ν
  | .createExclusive f => some f
  | .unlink => none
  | _ => fs.entry

def contentAfter (i : π) (call : FileCall ν) : ν → List UInt8 :=
  match call, (fs.descriptor i).file with
  | .createExclusive f, _ => Function.update fs.content f []
  | call, some f => Function.update fs.content f (call.revise (fs.content f))
  | _, none => fs.content

def perform (i : π) (call : FileCall ν) : FileSystem π ν where
  entry := fs.entryAfter call
  content := fs.contentAfter i call
  descriptor := Function.update fs.descriptor i ((fs.descriptor i).after call)

@[simp] theorem perform_descriptor_self (i : π) (call : FileCall ν) :
    (fs.perform i call).descriptor i = (fs.descriptor i).after call := Function.update_self ..

@[simp] theorem perform_descriptor_of_ne {i j : π} (h : j ≠ i) (call : FileCall ν) :
    (fs.perform i call).descriptor j = fs.descriptor j := Function.update_of_ne h ..

/-- An exclusive lock shuts out every other lock on the file. -/
def Exclusive : Prop :=
  ∀ i j f mode, fs.descriptor i = .opened f (some .exclusive) →
    fs.descriptor j = .opened f (some mode) → i = j

variable {fs}

theorem Exclusive.perform (h : fs.Exclusive) {i : π} {call : FileCall ν}
    (hallows : fs.Allows i call) : (fs.perform i call).Exclusive := by
  intro j k f mode hj hk
  by_contra hne
  by_cases hji : j = i
  · subst hji
    rw [perform_descriptor_of_ne fs (Ne.symm hne)] at hk
    rw [perform_descriptor_self] at hj
    rcases Descriptor.eq_of_locked_after hj with hj | ⟨rfl, hfile⟩
    · exact hne (h j k f mode hj hk)
    · exact hallows f hfile k (Ne.symm hne) mode hk
  · rw [perform_descriptor_of_ne fs hji] at hj
    by_cases hki : k = i
    · subst hki
      rw [perform_descriptor_self] at hk
      rcases Descriptor.eq_of_locked_after hk with hk | ⟨rfl, hfile⟩
      · exact hne (h j k f mode hj hk)
      · cases mode with
        | shared => exact hallows f hfile j hne hj
        | exclusive => exact hallows f hfile j hne .exclusive hj
    · rw [perform_descriptor_of_ne fs hki] at hk
      exact hne (h j k f mode hj hk)

theorem perform_entry {i : π} {call : FileCall ν} (h : call.relinks = false) :
    (fs.perform i call).entry = fs.entry := by
  cases call <;> first | rfl | cases h

theorem perform_content_self {i : π} {call : FileCall ν} {f : ν}
    (hi : (fs.descriptor i).file = some f) (hlink : call.relinks = false) :
    (fs.perform i call).content f = call.revise (fs.content f) := by
  cases call with
  | createExclusive => cases hlink
  | _ =>
    simp only [perform, contentAfter, hi]
    exact Function.update_self ..

/-- A file changes only by its creation and by the process that holds it open. -/
theorem perform_content_of_ne {i : π} {call : FileCall ν} {f : ν}
    (hcreate : call ≠ .createExclusive f)
    (hi : call.revises = true → (fs.descriptor i).file ≠ some f) :
    (fs.perform i call).content f = fs.content f := by
  cases call with
  | createExclusive g =>
    have hne : f ≠ g := fun he => hcreate (he ▸ rfl)
    exact Function.update_of_ne hne ..
  | write | truncate =>
    simp only [perform, contentAfter]
    cases hd : (fs.descriptor i).file with
    | none => rfl
    | some g =>
      have hne : f ≠ g := fun he => hi rfl (he ▸ hd)
      exact Function.update_of_ne hne ..
  | _ =>
    simp only [perform, contentAfter]
    cases (fs.descriptor i).file with
    | none => rfl
    | some g => exact congrFun (Function.update_eq_self g fs.content) f

end FileSystem

end PidSentry
