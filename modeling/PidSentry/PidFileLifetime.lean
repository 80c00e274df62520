import PidSentry.PidFileObject
import PidSentry.Transition

/-! What holds of a `struct PidFile` from call to call: its file, its lock, and what
it has done to the file. -/

namespace PidSentry

open Scripted PidFileError PidFileStop

namespace PidFileEffect

/-- The effect is not by way of a descriptor that is open for reading. -/
def Permitted (effect : PidFileEffect) : Prop := effect ≠ write .readOnly ∧ effect ≠ truncate .readOnly

end PidFileEffect

namespace PidFileObject

variable {s s' t : PidFileObject}

def Permitted (s : PidFileObject) : Prop := ∀ effect ∈ s.effects, effect.Permitted

/-- A lock is a lock on a file, and a write lock is on one that is open for writing. -/
structure Consistent (s : PidFileObject) : Prop where
  file : s.mLock ≠ none → s.mFile ≠ none
  writable : s.mLock = some .exclusive → s.mFile = some .writeOnly

theorem Consistent.of_unlocked (h : s.mLock = none) : s.Consistent := by
  constructor
  · exact fun hlock => absurd h hlock
  · intro hlock
    rw [h] at hlock
    cases hlock

theorem Consistent.of_writable (h : s.mFile = some .writeOnly) : s.Consistent :=
  ⟨fun _ => by simp [h], fun _ => h⟩

theorem Consistent.unlocked (h : s.Consistent) (hfile : s.mFile = none) : s.mLock = none := by
  by_contra hlock
  exact h.file hlock hfile

structure Within (s s' : PidFileObject) : Prop where
  mPathName : s'.mPathName = s.mPathName
  permitted : s.Permitted → s'.Permitted

theorem Within.refl (s : PidFileObject) : Within s s := ⟨rfl, id⟩

theorem Within.trans (h : Within s s') (h' : Within s' t) : Within s t :=
  ⟨h'.mPathName.trans h.mPathName, h'.permitted ∘ h.permitted⟩

theorem Within.of_eq (hname : s'.mPathName = s.mPathName) (heffects : s'.effects = s.effects) :
    Within s s' := by
  refine ⟨hname, fun h => ?_⟩
  unfold Permitted
  rw [heffects]
  exact h

theorem Within.perform {effect : PidFileEffect} (heffect : effect.Permitted)
    (hname : s'.mPathName = s.mPathName) (heffects : s'.effects = s.effects ++ [effect]) :
    Within s s' := by
  refine ⟨hname, fun h e he => ?_⟩
  rw [heffects] at he
  rcases List.mem_append.mp he with hold | hnew
  · exact h e hold
  · rw [List.mem_singleton.mp hnew]
    exact heffect

def Halts (s : PidFileObject) (d : PidFileStop) (s' : PidFileObject) : Prop :=
  d ≠ asserted ∧ s.Within s'

theorem Fails.within {e : PidFileError} {s' t : PidFileObject} (ht : t.Within s) (h : Fails s e s') :
    t.Within s' := by
  rw [h.2]
  exact ht

theorem Stops.halts {d : PidFileStop} {s' t : PidFileObject} (ht : t.Within s) (h : Stops s d s') :
    Halts t d s' := by
  refine ⟨h.1, ?_⟩
  rw [h.2]
  exact ht

/-- A part that leaves the object as it is where it does not succeed, after others
that have kept within what is permitted. -/
theorem wp_within {β γ : Type} {m : PidFileM β} {k : β → PidFileM γ} {Q : β → PidFileObject → Prop}
    {R : γ → PidFileObject → Prop} (ht : t.Within s) (h : wp m Q (Fails s) (Stops s) s)
    (hk : ∀ b s', Q b s' → wp (k b) R (fun _ s' => t.Within s') (Halts t) s') :
    wp (m >>= k) R (fun _ s' => t.Within s') (Halts t) s :=
  wp_seq h hk (fun _ _ hf => hf.within ht) (fun _ _ hd => hd.halts ht)

/-- Its descriptor is not open for writing, but all that is done with it is to read
and to unlink its name. -/
theorem removePidFile_spec (hlock : s.mLock = none) :
    wp removePidFile (fun _ s' => s'.mFile = none ∧ s'.mLock = none ∧ s.Within s')
      (fun _ s' => s.Within s') (Halts s) s := by
  apply wp_modify
  have hopened : s.Within { s with mFile := some .readOnly } := .of_eq rfl rfl
  have hlocking := lockPidFile_spec (s := { s with mFile := some .readOnly }) hlock (by simp) .exclusive
  apply wp_within hopened hlocking
  rintro - s₁ rfl
  have hlocked : s.Within { s with mFile := some .readOnly, mLock := some .exclusive } :=
    .of_eq rfl rfl
  apply wp_within hlocked (readPidFileObject_spec (by simp) (by simp))
  rintro pidSignature s₁ rfl
  refine wp_errorIf (fun _ => hlocked) fun _ => ?_
  apply wp_within hlocked (unlinkPidFile_spec rfl)
  intro unlinked s₁ hs₁
  have hwithin : s.Within s₁ := by
    rcases hs₁ with rfl | rfl
    · exact hlocked
    · exact .perform (by simp [PidFileEffect.Permitted]) rfl rfl
  have hlock₁ : s₁.mLock ≠ none := by rcases hs₁ with rfl | rfl <;> simp
  apply wp_within hwithin (releasePidFileLock_spec hlock₁)
  rintro - s₂ rfl
  exact wp_update ⟨rfl, rfl, hwithin.trans (.of_eq rfl rfl)⟩

theorem generateLoop_spec (fuel : Nat) (hfile : s.mFile = none) (hlock : s.mLock = none) :
    wp (generateLoop fuel)
      (fun _ s' => s'.mFile = some .writeOnly ∧ s'.mLock = none ∧ s.Within s')
      (fun _ s' => s.Within s') (Halts s) s := by
  induction fuel generalizing s with
  | zero => exact wp_stop ⟨by simp, .refl s⟩
  | succ fuel ih =>
    apply wp_within (.refl s) (attemptCall_spec .absent)
    rintro existing s' rfl
    have hremoved : wp (onlyIf (existing = true) removePidFile)
        (fun _ t => t.mFile = none ∧ t.mLock = none ∧ s'.Within t) (fun _ t => s'.Within t)
        (Halts s') s' :=
      wp_onlyIf (fun _ => removePidFile_spec hlock) fun _ => ⟨hfile, hlock, .refl s'⟩
    apply wp_then hremoved
    rintro - t ⟨htfile, htlock, hwithin⟩
    apply wp_get
    apply wp_ensure htfile
    apply wp_within hwithin (attemptCall_spec .present)
    rintro created t' rfl
    refine wp_ite (fun _ => ?_) fun _ => ?_
    · apply wp_modify
      apply wp_update
      refine ⟨rfl, htlock, hwithin.trans ?_⟩
      exact .perform (by simp [PidFileEffect.Permitted]) rfl rfl
    · exact wp_mono (ih htfile htlock) (fun _ _ h => ⟨h.1, h.2.1, hwithin.trans h.2.2⟩)
        (fun _ _ h => hwithin.trans h) (fun _ _ h => ⟨h.1, hwithin.trans h.2⟩)

theorem openNew_spec (fuel aMode : Nat) (hfile : s.mFile = none) (hlock : s.mLock = none) :
    wp (openNew fuel aMode)
      (fun _ s' => s'.mFile = some .writeOnly ∧ s'.mLock = none ∧ s.Within s')
      (fun _ s' => s.Within s') (Halts s) s := by
  refine wp_errorIf (fun _ => .refl s) fun hmode => ?_
  apply wp_get
  apply wp_ensure hmode
  apply wp_ensure hfile
  apply wp_onError
  exact wp_mono (generateLoop_spec fuel hfile hlock) (fun _ _ h => h)
    (fun _ _ h => h.trans (.of_eq rfl rfl)) (fun _ _ h => h)

/-- What is opened for a new file is open for writing, and after a failure nothing is. -/
theorem openPidFile_new_spec (fuel aMode : Nat) (hfile : s.mFile = none) (hlock : s.mLock = none) :
    wp (openPidFile_ fuel ⟨true, false⟩ aMode)
      (fun _ s' => s'.mFile = some .writeOnly ∧ s'.mLock = none ∧ s.Within s')
      (fun _ s' => s'.mFile = none ∧ s'.mLock = none ∧ s.Within s') (Halts s) s := by
  apply wp_get
  refine wp_errorIf (fun hopen => ?_) fun _ => ?_
  · exact absurd hopen (by simp [hfile, hlock])
  apply wp_onError
  apply wp_modify
  have hcleared : s.Within { s with mLock := none } := .of_eq rfl rfl
  refine wp_errorIf (fun hothers => by cases hothers) fun _ => ?_
  refine wp_seq (wp_ite (fun _ => openNew_spec fuel aMode hfile rfl) fun h => absurd rfl h) ?_ ?_ ?_
  · rintro - s' ⟨hopened, hunlocked, hwithin⟩
    apply wp_get
    exact wp_ensured (by simp [hopened]) ⟨hopened, hunlocked, hcleared.trans hwithin⟩
  · exact fun _ _ h => ⟨rfl, rfl, (hcleared.trans h).trans (.of_eq rfl rfl)⟩
  · exact fun _ _ h => ⟨h.1, hcleared.trans h.2⟩

/-- Neither the file nor its directory entry has been touched. -/
def Untouched (s s' : PidFileObject) : Prop :=
  s'.effects = s.effects ∧ s'.mPathName = s.mPathName

theorem Untouched.within {s' : PidFileObject} (h : Untouched s s') : s.Within s' := .of_eq h.2 h.1

theorem openPidFile_spec (fuel : Nat) (aFlags : OpenFlags) :
    wp (openPidFile fuel aFlags)
      (fun _ s' => s'.mFile = some .readOnly ∧ s'.mLock = none ∧ Untouched s s')
      (fun e s' => Fails s e s' ∨ s'.mFile = none ∧ s'.mLock = none ∧ Untouched s s')
      (fun d s' => d ≠ asserted ∧ Untouched s s') s := by
  apply wp_get
  refine wp_errorIf (fun _ => .inl ⟨by simp, rfl⟩) fun _ => ?_
  apply wp_onError
  apply wp_modify
  refine wp_errorIf (fun _ => .inr ⟨rfl, rfl, rfl, rfl⟩) fun _ => ?_
  have hopened : wp (if aFlags.creat = true then openNew fuel 0 else openExisting 0)
      (fun _ s' => s' = { s with mFile := some .readOnly, mLock := none })
      (fun _ s' => s' = { s with mLock := none })
      (fun d s' => d ≠ asserted ∧ s' = { s with mLock := none }) { s with mLock := none } := by
    refine wp_ite (fun _ => wp_errorIf (fun _ => rfl) fun hmode => ?_) fun _ => ?_
    · exact absurd (Nat.zero_and sIRUSR) hmode
    · refine wp_errorIf (fun hmode => absurd rfl hmode) fun _ => ?_
      apply wp_seq (call_spec (by simp)) _ (fun _ _ h => h.2) (fun _ _ h => h)
      rintro - s' rfl
      exact wp_update rfl
  refine wp_seq hopened ?_ ?_ ?_
  · rintro - s' rfl
    apply wp_get
    exact wp_ensured (by simp) ⟨rfl, rfl, rfl, rfl⟩
  · rintro e s' rfl
    exact .inr ⟨rfl, rfl, rfl, rfl⟩
  · rintro d s' ⟨hd, rfl⟩
    exact ⟨hd, rfl, rfl⟩

theorem retirePidFile_spec (hlock : s.mLock = some .exclusive) :
    wp (retirePidFile .writeOnly) (fun _ s' => s.Within s') (fun _ _ => False) (Halts s) s := by
  have htruncate : wp (orStop (call other) aborted) (fun _ s' => s' = s) (fun _ _ => False) (Halts s)
      s := by
    apply wp_orStop
    exact wp_mono (call_spec (by simp)) (fun _ _ h => h)
      (fun _ _ h => ⟨by simp, h.within (.refl s)⟩) (fun _ _ h => h.halts (.refl s))
  apply wp_then htruncate
  rintro - s' rfl
  apply wp_modify
  have hemptied : s'.Within { s' with effects := s'.effects ++ [.truncate .writeOnly] } :=
    .perform (by simp [PidFileEffect.Permitted]) rfl rfl
  have hunlink : wp (orStop unlinkPidFile_ aborted) (fun _ t => s'.Within t) (fun _ _ => False)
      (Halts s') { s' with effects := s'.effects ++ [.truncate .writeOnly] } := by
    apply wp_orStop
    refine wp_mono (unlinkPidFile_spec hlock) ?_ (fun _ _ h => ⟨by simp, h.within hemptied⟩)
      (fun _ _ h => h.halts hemptied)
    rintro unlinked t (rfl | rfl)
    · exact hemptied
    · exact hemptied.trans (.perform (by simp [PidFileEffect.Permitted]) rfl rfl)
  apply wp_then hunlink
  intro unlinked t hwithin
  exact wp_ite (fun _ => wp_pure hwithin) fun _ => wp_stop ⟨by simp, hwithin⟩

theorem closePidFile_spec (h : s.Consistent) :
    wp closePidFile
      (fun _ s' => s'.mFile = none ∧ s'.mLock = none ∧ s.Within s' ∧
        (s.mLock ≠ some .exclusive → Untouched s s'))
      (fun _ _ => False)
      (fun d s' => Halts s d s' ∧ (s.mLock ≠ some .exclusive → Untouched s s')) s := by
  apply wp_get
  cases hfile : s.mFile with
  | none => exact wp_pure ⟨hfile, h.unlocked hfile, .refl s, fun _ => ⟨rfl, rfl⟩⟩
  | some access =>
    by_cases hlock : s.mLock = some .exclusive
    · obtain rfl : access = .writeOnly := by
        rw [h.writable hlock] at hfile
        exact (Option.some.inj hfile).symm
      refine wp_seq (wp_onlyIf (fun _ => retirePidFile_spec hlock) fun hn => absurd hlock hn) ?_
        (fun _ _ hf => hf) (fun _ _ hd => ⟨hd, fun hn => absurd hlock hn⟩)
      intro _ s' hwithin
      exact wp_update ⟨rfl, rfl, hwithin.trans (.of_eq rfl rfl), fun hn => absurd hlock hn⟩
    · have hskip : wp (onlyIf (s.mLock = some .exclusive) (retirePidFile access))
          (fun _ s' => s' = s) (fun _ _ => False) (fun _ _ => False) s :=
        wp_onlyIf (fun hl => absurd hl hlock) fun _ => rfl
      apply wp_seq hskip _ (fun _ _ hf => hf) (fun _ _ hf => hf.elim)
      rintro - s' rfl
      exact wp_update ⟨rfl, rfl, .of_eq rfl rfl, fun _ => ⟨rfl, rfl⟩⟩

/-- A failure over an existing file leaves nothing open. -/
def Leaves (s : PidFileObject) (e : PidFileError) (s' : PidFileObject) : Prop :=
  s'.Consistent ∧ s.Within s' ∧ (s'.mFile = none ∧ s'.mLock = none ∨ ∀ pid, e ≠ eexist pid)

theorem Fails.leaves {e : PidFileError} {s' t : PidFileObject} (h : Fails s e s')
    (hs : s.Consistent) (ht : t.Within s) : Leaves t e s' := by
  obtain ⟨he, rfl⟩ := h
  exact ⟨hs, ht, .inr he⟩

theorem wp_leaves {β γ : Type} {m : PidFileM β} {k : β → PidFileM γ} {Q : β → PidFileObject → Prop}
    {R : γ → PidFileObject → Prop} (hs : s.Consistent) (ht : t.Within s)
    (h : wp m Q (Fails s) (Stops s) s)
    (hk : ∀ b s', Q b s' → wp (k b) R (Leaves t) (Halts t) s') :
    wp (m >>= k) R (Leaves t) (Halts t) s :=
  wp_seq h hk (fun _ _ hf => hf.leaves hs ht) (fun _ _ hd => hd.halts ht)

theorem createLoop_spec (aMode fuel : Nat) (hfile : s.mFile = none) (hlock : s.mLock = none) :
    wp (createLoop aMode fuel)
      (fun _ s' => s'.mFile = some .writeOnly ∧ s'.mLock = some .exclusive ∧ s.Within s')
      (Leaves s) (Halts s) s := by
  induction fuel generalizing s with
  | zero => exact wp_stop ⟨by simp, .refl s⟩
  | succ fuel ih =>
    refine wp_seq (openPidFile_new_spec fuel aMode hfile hlock) ?_ ?_ (fun _ _ h => h)
    swap
    · exact fun _ _ ⟨hf, hl, hwithin⟩ => ⟨.of_unlocked hl, hwithin, .inl ⟨hf, hl⟩⟩
    rintro - s₁ ⟨hopened, hunlocked, hwithin⟩
    apply wp_leaves (.of_unlocked hunlocked) hwithin
      (acquirePidFileWriteLock_spec hunlocked (by simp [hopened]))
    rintro - s₂ ⟨-, rfl⟩
    have hlocked : s.Within { s₁ with mLock := some .exclusive } := hwithin.trans (.of_eq rfl rfl)
    have hconsistent : Consistent { s₁ with mLock := some .exclusive } := .of_writable hopened
    apply wp_leaves hconsistent hlocked detectPidFileZombie_spec
    rintro zombie s₂ rfl
    refine wp_ite (fun _ => ?_) fun _ => wp_pure ⟨hopened, rfl, hlocked⟩
    apply wp_leaves hconsistent hlocked (releasePidFileLock_spec (by simp))
    rintro - s₂ rfl
    have hreleased : s.Within { s₁ with mLock := none } := hwithin.trans (.of_eq rfl rfl)
    refine wp_seq (closePidFile_spec (.of_unlocked rfl)) ?_ (fun _ _ h => h.elim)
      (fun _ _ h => ⟨h.1.1, hreleased.trans h.1.2⟩)
    rintro - s₂ ⟨hclosed, hnone, hwithin', -⟩
    have hall := hreleased.trans hwithin'
    exact wp_mono (ih hclosed hnone) (fun _ _ h => ⟨h.1, h.2.1, hall.trans h.2.2⟩)
      (fun _ _ h => ⟨h.1, hall.trans h.2.1, h.2.2⟩) (fun _ _ h => ⟨h.1, hall.trans h.2⟩)

theorem writePidFile_spec (hfile : s.mFile = some .writeOnly) (hlock : s.mLock = some .exclusive) :
    wp createPidFile_
      (fun _ s' => s'.mFile = some .writeOnly ∧ s'.mLock = some .exclusive ∧ s.Within s')
      (Leaves s) (Halts s) s := by
  apply wp_leaves (.of_writable hfile) (.refl s) (call_spec (by simp))
  rintro - s' rfl
  apply wp_leaves (.of_writable hfile) (.refl s') (call_spec (by simp))
  rintro - t rfl
  apply wp_get
  rw [hfile]
  apply wp_modify
  have hwritten : t.Within { t with effects := t.effects ++ [.write .writeOnly] } :=
    .perform (by simp [PidFileEffect.Permitted]) rfl rfl
  have hconsistent : Consistent { t with effects := t.effects ++ [.write .writeOnly] } :=
    .of_writable hfile
  refine wp_mono (call_spec (by simp)) ?_ (fun _ _ h => h.leaves hconsistent hwritten)
    (fun _ _ h => h.halts hwritten)
  rintro - t' rfl
  exact ⟨hfile, hlock, hwritten⟩

theorem createPidFile_spec (h : s.Consistent) (fuel aMode : Nat) :
    wp (createPidFile fuel aMode)
      (fun _ s' => s'.mFile = some .writeOnly ∧ s'.mLock = none ∧ s.Within s')
      (Leaves s) (Halts s) s := by
  apply wp_get
  refine wp_errorIf (fun _ => ⟨h, .refl s, .inr (by simp)⟩) fun hclosed => ?_
  obtain ⟨hfile, hlock⟩ := not_or.mp hclosed
  apply wp_then (createLoop_spec aMode fuel (not_not.mp hfile) (not_not.mp hlock))
  rintro - s₁ ⟨hopened, hlocked, hwithin⟩
  refine wp_seq (writePidFile_spec hopened hlocked) ?_
    (fun _ _ h => ⟨h.1, hwithin.trans h.2.1, h.2.2⟩) (fun _ _ h => ⟨h.1, hwithin.trans h.2⟩)
  rintro - s₂ ⟨hopened, hlocked, hwritten⟩
  have hall := hwithin.trans hwritten
  refine wp_mono (releasePidFileLock_spec (by simp [hlocked])) ?_
    (fun _ _ h => h.leaves (.of_writable hopened) hall) (fun _ _ h => h.halts hall)
  rintro - s₃ rfl
  exact ⟨hopened, rfl, hall.trans (.of_eq rfl rfl)⟩

-- over no existing file, with every other call a success
example : (createPidFile 2 0o444 ⟨none, none, true, []⟩ (.absent :: .replicate 9 .success)).2.1 =
    ⟨some .writeOnly, none, true, [.create, .write .writeOnly]⟩ := by decide

end PidFileObject

inductive PidFileRequest
  | initPidFile
  | openPidFile (aFlags : OpenFlags)
  | createPidFile (aMode : Nat)
  | acquirePidFileReadLock
  | acquirePidFileWriteLock
  | readPidFile
  | closePidFile
  | destroyPidFile
  deriving DecidableEq, Repr

namespace PidFileRequest

def run (fuel : Nat) : PidFileRequest → PidFileM Unit
  | initPidFile => PidFileObject.initPidFile
  | openPidFile aFlags => PidFileObject.openPidFile fuel aFlags
  | createPidFile aMode => PidFileObject.createPidFile fuel aMode
  | acquirePidFileReadLock => PidFileObject.acquirePidFileReadLock
  | acquirePidFileWriteLock => PidFileObject.acquirePidFileWriteLock
  | readPidFile => do
    let _ ← PidFileObject.readPidFileObject
    pure ()
  | closePidFile => PidFileObject.closePidFile
  | destroyPidFile => PidFileObject.destroyPidFile

def Creates (request : PidFileRequest) : Prop := ∃ aMode, request = createPidFile aMode

end PidFileRequest

namespace PidFileObject

variable {s : PidFileObject}

/-- Without a path name an object can only be initialised; a lock is asked for on an
open file without one, and the file is read under a lock. -/
def Allows (s : PidFileObject) : PidFileRequest → Prop
  | .initPidFile => s.mPathName = false
  | .openPidFile _ | .createPidFile _ | .closePidFile | .destroyPidFile => s.mPathName = true
  | .acquirePidFileReadLock | .acquirePidFileWriteLock =>
    s.mPathName = true ∧ s.mFile ≠ none ∧ s.mLock = none
  | .readPidFile => s.mPathName = true ∧ s.mLock ≠ none

/-- The object has no file that it has created. -/
def ReadsOnly (s : PidFileObject) : Prop := s.mPathName = true → s.mFile ≠ some .writeOnly

/-- What is done to the file, which is nothing by way of an object that reads only. -/
structure Respects (s : PidFileObject) (request : PidFileRequest) (s' : PidFileObject) : Prop where
  permitted : s.Permitted → s'.Permitted
  untouched : ¬ request.Creates → s.ReadsOnly → s'.effects = s.effects

structure Returns (s : PidFileObject) (request : PidFileRequest) (s' : PidFileObject) : Prop
    extends s.Respects request s' where
  consistent : s'.Consistent
  readsOnly : ¬ request.Creates → s.ReadsOnly → s'.ReadsOnly

theorem Respects.of_untouched {s' : PidFileObject} {request : PidFileRequest}
    (h : s'.effects = s.effects) : s.Respects request s' := by
  refine ⟨fun hs => ?_, fun _ _ => h⟩
  unfold Permitted
  rw [h]
  exact hs

theorem Respects.of_creates {s' : PidFileObject} {aMode : Nat} (h : s.Within s') :
    s.Respects (.createPidFile aMode) s' :=
  ⟨h.permitted, fun hn => absurd ⟨aMode, rfl⟩ hn⟩

theorem Returns.of_creates {s' : PidFileObject} {aMode : Nat} (h : s.Within s')
    (hs : s'.Consistent) : s.Returns (.createPidFile aMode) s' :=
  ⟨.of_creates h, hs, fun hn => absurd ⟨aMode, rfl⟩ hn⟩

theorem Returns.of_untouched {s' : PidFileObject} {request : PidFileRequest}
    (heffects : s'.effects = s.effects) (hs : s'.Consistent) (hreads : s.ReadsOnly → s'.ReadsOnly) :
    s.Returns request s' :=
  ⟨.of_untouched heffects, hs, fun _ => hreads⟩

theorem Returns.of_unwritable {s' : PidFileObject} {request : PidFileRequest}
    (heffects : s'.effects = s.effects) (hs : s'.Consistent) (hfile : s'.mFile ≠ some .writeOnly) :
    s.Returns request s' :=
  .of_untouched heffects hs fun _ _ => hfile

theorem Fails.returns {e : PidFileError} {s' : PidFileObject} {request : PidFileRequest}
    (h : Fails s e s') (hs : s.Consistent) :
    s.Returns request s' ∧ ∀ pid, e = eexist pid → s'.mFile = none ∧ s'.mLock = none := by
  obtain ⟨he, rfl⟩ := h
  exact ⟨.of_untouched rfl hs id, fun pid hpid => absurd hpid (he pid)⟩

theorem Stops.respects {d : PidFileStop} {s' : PidFileObject} {request : PidFileRequest}
    (h : Stops s d s') : d ≠ asserted ∧ s.Respects request s' := by
  obtain ⟨hd, rfl⟩ := h
  exact ⟨hd, .of_untouched rfl⟩

def Contract (s : PidFileObject) (request : PidFileRequest) (m : PidFileM Unit) : Prop :=
  wp m
    (fun _ s' => s.Returns request s' ∧
      (request.Creates → s'.mFile ≠ none ∧ s'.mLock = none))
    (fun e s' => s.Returns request s' ∧
      ∀ pid, e = eexist pid → s'.mFile = none ∧ s'.mLock = none)
    (fun d s' => d ≠ asserted ∧ s.Respects request s') s

theorem closePidFile_contract (hname : s.mPathName = true) (h : s.Consistent)
    {request : PidFileRequest} (hrequest : ¬ request.Creates) : Contract s request closePidFile := by
  have hshared : s.ReadsOnly → s.mLock ≠ some .exclusive := fun hreads hexclusive =>
    hreads hname (h.writable hexclusive)
  refine wp_mono (closePidFile_spec h) ?_ (fun _ _ hf => hf.elim) ?_
  · rintro - s' ⟨hfile, hlock, hwithin, huntouched⟩
    exact ⟨⟨⟨hwithin.permitted, fun _ hreads => (huntouched (hshared hreads)).1⟩, .of_unlocked hlock,
      fun _ _ _ => by simp [hfile]⟩, fun hcreates => absurd hcreates hrequest⟩
  · rintro d s' ⟨hhalts, huntouched⟩
    exact ⟨hhalts.1, hhalts.2.permitted, fun _ hreads => (huntouched (hshared hreads)).1⟩

theorem run_contract (fuel : Nat) {request : PidFileRequest} (hallows : s.Allows request)
    (h : s.mPathName = true → s.Consistent) : Contract s request (request.run fuel) := by
  cases request with
  | initPidFile =>
    apply wp_modify
    apply wp_seq (call_spec (by simp))
    · rintro - s' rfl
      exact wp_update ⟨.of_unwritable rfl (.of_unlocked rfl) (by simp), fun ⟨_, h⟩ => by cases h⟩
    · rintro e s' ⟨he, rfl⟩
      exact ⟨.of_unwritable rfl (.of_unlocked rfl) (by simp), fun _ _ => ⟨rfl, rfl⟩⟩
    · rintro d s' ⟨hd, rfl⟩
      exact ⟨hd, .of_untouched rfl⟩
  | openPidFile aFlags =>
    refine wp_mono (openPidFile_spec fuel aFlags) ?_ ?_ ?_
    · rintro - s' ⟨hfile, hlock, huntouched⟩
      exact ⟨.of_unwritable huntouched.1 (.of_unlocked hlock) (by simp [hfile]),
        fun ⟨_, h⟩ => by cases h⟩
    · rintro e s' (hfails | ⟨hfile, hlock, huntouched⟩)
      · exact hfails.returns (h hallows)
      · exact ⟨.of_unwritable huntouched.1 (.of_unlocked hlock) (by simp [hfile]),
          fun _ _ => ⟨hfile, hlock⟩⟩
    · rintro d s' ⟨hd, huntouched⟩
      exact ⟨hd, .of_untouched huntouched.1⟩
  | createPidFile aMode =>
    refine wp_mono (createPidFile_spec (h hallows) fuel aMode) ?_ ?_ ?_
    · rintro - s' ⟨hfile, hlock, hwithin⟩
      exact ⟨.of_creates hwithin (.of_unlocked hlock), fun _ => ⟨by simp [hfile], hlock⟩⟩
    · rintro e s' ⟨hconsistent, hwithin, hleft⟩
      refine ⟨.of_creates hwithin hconsistent, fun pid hpid => ?_⟩
      rcases hleft with hclosed | hother
      · exact hclosed
      · exact absurd hpid (hother pid)
    · rintro d s' ⟨hd, hwithin⟩
      exact ⟨hd, .of_creates hwithin⟩
  | acquirePidFileReadLock =>
    obtain ⟨hname, hfile, hlock⟩ := hallows
    refine wp_mono (lockPidFile_spec hlock hfile .shared) ?_ (fun _ _ hf => hf.returns (h hname))
      (fun _ _ hd => hd.respects)
    rintro - s' rfl
    exact ⟨.of_untouched rfl ⟨fun _ => hfile, fun hl => by cases hl⟩ id, fun ⟨_, h⟩ => by cases h⟩
  | acquirePidFileWriteLock =>
    obtain ⟨hname, hfile, hlock⟩ := hallows
    refine wp_mono (acquirePidFileWriteLock_spec hlock hfile) ?_ (fun _ _ hf => hf.returns (h hname))
      (fun _ _ hd => hd.respects)
    rintro - s' ⟨hwrite, rfl⟩
    exact ⟨.of_untouched rfl ⟨fun _ => hfile, fun _ => hwrite⟩ id, fun ⟨_, h⟩ => by cases h⟩
  | readPidFile =>
    obtain ⟨hname, hlock⟩ := hallows
    refine wp_seq (readPidFileObject_spec hlock ((h hname).file hlock)) ?_
      (fun _ _ hf => hf.returns (h hname)) (fun _ _ hd => hd.respects)
    rintro pidSignature s' rfl
    exact wp_pure ⟨.of_untouched rfl (h hname) id, fun ⟨_, h⟩ => by cases h⟩
  | closePidFile => exact closePidFile_contract hallows (h hallows) fun ⟨_, h⟩ => by cases h
  | destroyPidFile =>
    have hnew : ¬ PidFileRequest.destroyPidFile.Creates := fun ⟨_, h⟩ => by cases h
    have hclose := closePidFile_contract hallows (h hallows) hnew
    apply wp_then hclose
    rintro - s' ⟨hreturns, hcreates⟩
    refine wp_update ⟨⟨⟨hreturns.permitted, hreturns.untouched⟩, ⟨?_, ?_⟩, ?_⟩, hcreates⟩
    · exact hreturns.consistent.file
    · exact hreturns.consistent.writable
    · intro _ _ hname
      cases hname

end PidFileObject

/-- A call, how far its loops may go, and what the system answers. -/
structure PidFileTurn where
  request : PidFileRequest
  fuel : Nat
  answers : List SystemAnswer
  deriving DecidableEq, Repr

namespace PidFileTurn

def ending (turn : PidFileTurn) (s : PidFileObject) :
    Completion PidFileError PidFileStop Unit × PidFileObject × List SystemAnswer :=
  turn.request.run turn.fuel s turn.answers

def Ends (turn : PidFileTurn) (s s' : PidFileObject) : Prop :=
  (turn.ending s).2.1 = s' ∧ ∀ d, (turn.ending s).1 ≠ .stop d

end PidFileTurn

open PidFileObject

variable {s : PidFileObject}

/-- The calls on an object, in memory that may hold anything before it is initialised,
one after the other as each is allowed and returns. -/
def pidFileObjects : System PidFileObject PidFileTurn where
  init s := s.mPathName = false ∧ s.effects = []
  step s turn s' := s.Allows turn.request ∧ turn.Ends s s'

theorem PidFileTurn.ends_returns {turn : PidFileTurn} {s' : PidFileObject}
    (hallows : s.Allows turn.request) (h : s.mPathName = true → s.Consistent)
    (hends : turn.Ends s s') : s.Returns turn.request s' := by
  obtain ⟨rfl, hreturns⟩ := hends
  have hcontract := run_contract turn.fuel hallows h turn.answers
  unfold PidFileTurn.ending at hreturns ⊢
  generalize turn.request.run turn.fuel s turn.answers = outcome at hcontract hreturns
  obtain ⟨ending, s', rest⟩ := outcome
  cases ending with
  | value b => exact hcontract.1
  | error e => exact hcontract.1
  | stop d => exact absurd rfl (hreturns d)

theorem consistent_of_reachable (hs : pidFileObjects.Reachable s) :
    (s.mPathName = true → s.Consistent) ∧ s.Permitted := by
  refine System.Reachable.invariant
    (P := fun s => (s.mPathName = true → s.Consistent) ∧ s.Permitted) ?_ ?_ hs
  · rintro s ⟨hname, heffects⟩
    refine ⟨fun h => ?_, fun effect heffect => ?_⟩
    · rw [hname] at h
      cases h
    · rw [heffects] at heffect
      cases heffect
  · rintro s turn s' - ⟨hconsistent, hpermitted⟩ ⟨hallows, hends⟩
    have hreturns := turn.ends_returns hallows hconsistent hends
    exact ⟨fun _ => hreturns.consistent, hreturns.permitted hpermitted⟩

/-- An object that creates no file leaves the file and its directory entry alone. -/
theorem effects_of_run {run : List (PidFileTurn × PidFileObject)}
    (hs : pidFileObjects.Reachable s) (hreads : s.ReadsOnly) (hr : pidFileObjects.IsRun s run)
    (hnone : ∀ turn ∈ run, ¬ turn.1.request.Creates) : (System.last s run).effects = s.effects := by
  induction run generalizing s with
  | nil => rfl
  | cons first run ih =>
    obtain ⟨turn, s'⟩ := first
    obtain ⟨hstep, hrest⟩ := hr
    have hreturns := turn.ends_returns hstep.1 (consistent_of_reachable hs).1 hstep.2
    have hnew := hnone _ List.mem_cons_self
    have hlater := ih (hs.tail hstep) (hreturns.readsOnly hnew hreads) hrest fun later hlater =>
      hnone later (List.mem_cons_of_mem _ hlater)
    exact hlater.trans (hreturns.untouched hnew hreads)

/-- At every return of every call on an object a lock is on a file, and a write lock on
one that is open for writing; no effect ever comes by way of a descriptor that is open
for reading; and an object that creates no file has no effect at all. -/
theorem pidFileObjects_consistent (hs : pidFileObjects.Reachable s) :
    (∀ (turn : PidFileTurn) (s' : PidFileObject), s.Allows turn.request → (turn.ending s).2.1 = s' →
      s'.Permitted ∧
      (¬ turn.request.Creates → s.ReadsOnly → s'.effects = s.effects) ∧
      match (turn.ending s).1 with
      | .value _ => s'.Consistent ∧ (turn.request.Creates → s'.mFile ≠ none ∧ s'.mLock = none)
      | .error e => s'.Consistent ∧ ∀ pid, e = eexist pid → s'.mFile = none ∧ s'.mLock = none
      | .stop d => d ≠ asserted) ∧
    ∀ (run : List (PidFileTurn × PidFileObject)), s.ReadsOnly → pidFileObjects.IsRun s run →
      (∀ turn ∈ run, ¬ turn.1.request.Creates) → (System.last s run).effects = s.effects := by
  obtain ⟨hconsistent, hpermitted⟩ := consistent_of_reachable hs
  refine ⟨?_, fun run => effects_of_run hs⟩
  rintro turn s' hallows rfl
  have hcontract := run_contract turn.fuel hallows hconsistent turn.answers
  unfold PidFileTurn.ending
  generalize turn.request.run turn.fuel s turn.answers = outcome at hcontract
  obtain ⟨ending, s', rest⟩ := outcome
  cases ending with
  | value b =>
    obtain ⟨hreturns, hcreates⟩ := hcontract
    exact ⟨hreturns.permitted hpermitted, hreturns.untouched, hreturns.consistent, hcreates⟩
  | error e =>
    obtain ⟨hreturns, hexists⟩ := hcontract
    exact ⟨hreturns.permitted hpermitted, hreturns.untouched, hreturns.consistent, hexists⟩
  | stop d => exact ⟨hcontract.2.permitted hpermitted, hcontract.2.untouched, hcontract.1⟩

/-- An object that is open, and was initialised over what the memory held. -/
theorem pidFileObjects_consistent_opened :
    let s : PidFileObject := ⟨some .readOnly, none, true, []⟩
    (∀ (turn : PidFileTurn) (s' : PidFileObject), s.Allows turn.request → (turn.ending s).2.1 = s' →
      s'.Permitted ∧
      (¬ turn.request.Creates → s.ReadsOnly → s'.effects = s.effects) ∧
      match (turn.ending s).1 with
      | .value _ => s'.Consistent ∧ (turn.request.Creates → s'.mFile ≠ none ∧ s'.mLock = none)
      | .error e => s'.Consistent ∧ ∀ pid, e = eexist pid → s'.mFile = none ∧ s'.mLock = none
      | .stop d => d ≠ asserted) ∧
    ∀ (run : List (PidFileTurn × PidFileObject)), s.ReadsOnly → pidFileObjects.IsRun s run →
      (∀ turn ∈ run, ¬ turn.1.request.Creates) → (System.last s run).effects = s.effects := by
  let memory : PidFileObject := ⟨some .writeOnly, some .exclusive, false, []⟩
  have hmemory : pidFileObjects.Reachable memory := .of_init ⟨rfl, rfl⟩
  have hinit : pidFileObjects.step memory ⟨.initPidFile, 0, [.success]⟩ ⟨none, none, true, []⟩ :=
    ⟨rfl, rfl, fun d h => by cases h⟩
  have hopen : pidFileObjects.step ⟨none, none, true, []⟩ ⟨.openPidFile ⟨false, false⟩, 0, [.success]⟩
      ⟨some .readOnly, none, true, []⟩ := ⟨rfl, rfl, fun d h => by cases h⟩
  exact pidFileObjects_consistent ((hmemory.tail hinit).tail hopen)

end PidSentry
