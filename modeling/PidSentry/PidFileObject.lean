import PidSentry.Flock
import PidSentry.PidFile
import PidSentry.Scripted

/-! `struct PidFile` and its functions (pidfile_.c), with every call of theirs on the
system answered by a script. -/

namespace PidSentry

inductive Access
  | readOnly
  | writeOnly
  deriving DecidableEq, Repr

inductive PidFileEffect
  | create
  /-- A write or a truncation, by way of a descriptor. -/
  | write (access : Access)
  | truncate (access : Access)
  | unlink
  deriving DecidableEq, Repr

/-- An object, and everything that has been done by way of it. `mPathName` says
whether there is a path name. -/
structure PidFileObject where
  mFile : Option Access
  mLock : Option FlockMode
  mPathName : Bool
  effects : List PidFileEffect
  deriving DecidableEq, Repr

inductive SystemAnswer
  | success
  /-- `ENOENT` -/
  | absent
  /-- `EEXIST` -/
  | present
  /-- A file with another device or inode number. -/
  | different
  /-- The process named by the content of the file. -/
  | reading (reading : PidFileReading)
  | failure
  deriving DecidableEq, Repr

/-- The `errno` of a call that has failed. No call on the system fails with `EEXIST`
but those that look for it. -/
inductive PidFileError
  | eexist (pid : Pid)
  | ealready
  | einval
  | erange
  | eio
  | other
  deriving DecidableEq, Repr

inductive PidFileStop
  /-- `ERT_ABORT_IF` -/
  | aborted
  /-- A failed `ert_ensure`, or a null `mFile` that is used. -/
  | asserted
  /-- A null signature is compared. -/
  | fault
  /-- For an answer of the system. -/
  | waiting
  deriving DecidableEq, Repr

/-- The flags of `openPidFile` but for `O_CLOEXEC`. -/
structure OpenFlags where
  creat : Bool
  others : Bool
  deriving DecidableEq, Repr

abbrev PidFileM := Scripted SystemAnswer PidFileObject PidFileError PidFileStop

open Scripted PidFileError PidFileStop

namespace PidFileObject

def sIRUSR : Nat := 0o400

/-- A call on the system that must succeed. -/
def call (e : PidFileError) : PidFileM Unit := do
  let answer ← ask waiting
  errorIf (answer ≠ .success) e

/-- A call on the system that may also end in the one way that is looked for. -/
def attemptCall (expected : SystemAnswer) : PidFileM Bool := do
  let answer ← ask waiting
  errorIf (answer ≠ .success ∧ answer ≠ expected) other
  pure (answer = .success)

def perform (effect : PidFileEffect) : PidFileM Unit :=
  modify fun self => { self with effects := self.effects ++ [effect] }

def setFile (mFile : Option Access) : PidFileM Unit :=
  modify fun self => { self with mFile := mFile }

def setLock (mLock : Option FlockMode) : PidFileM Unit :=
  modify fun self => { self with mLock := mLock }

def fileClosed (self : PidFileObject) : PidFileObject := { self with mFile := none }

def closed (self : PidFileObject) : PidFileObject :=
  { self with mFile := none, mLock := none }

def lockPidFile_ (aLockType : FlockMode) : PidFileM Unit := do
  let self ← get
  ensure (self.mLock = none) asserted
  ensure (self.mFile ≠ none) asserted
  call other
  setLock (some aLockType)

/-- The signature that is read, with pid 0 or -1 where there is no valid process. -/
def readPidFileObject : PidFileM PidSignature := do
  let self ← get
  ensure (self.mLock ≠ none) asserted
  ensure (self.mFile ≠ none) asserted
  let answer ← ask waiting
  match answer with
  | .reading (.signature pidSignature) => pure pidSignature
  | .reading .fault => stop fault
  | _ => error other

def releasePidFileLock_ : PidFileM Unit := do
  let self ← get
  ensure (self.mLock ≠ none) asserted
  call other
  setLock none

/-- The lock is taken whatever the file was opened for. -/
def acquirePidFileWriteLock_ : PidFileM Unit := lockPidFile_ .exclusive

def acquirePidFileWriteLock : PidFileM Unit := do
  let self ← get
  ensure (self.mFile ≠ none) asserted
  call other
  errorIf (self.mFile = some .readOnly) other
  acquirePidFileWriteLock_

def acquirePidFileReadLock : PidFileM Unit := lockPidFile_ .shared

def detectPidFileZombie_ : PidFileM Bool := do
  let named ← attemptCall .absent
  if named then
    let same ← attemptCall .different
    pure (! same)
  else pure true

def unlinkPidFile_ : PidFileM Bool := do
  let self ← get
  ensure (self.mLock = some .exclusive) asserted
  let zombie ← detectPidFileZombie_
  if zombie then pure false
  else
    let unlinked ← attemptCall .absent
    onlyIf (unlinked = true) (perform .unlink)
    pure true

/-- An existing file that can be removed is removed, up to its being closed. -/
def removePidFile : PidFileM Unit := do
  setFile (some .readOnly)
  acquirePidFileWriteLock_
  let pidSignature ← readPidFileObject
  errorIf (pidSignature.mPid ≠ 0 ∧ pidSignature.mPid ≠ -1) (eexist pidSignature.mPid)
  let _ ← unlinkPidFile_
  releasePidFileLock_
  setFile none

/-- The loop of `generatePidFile_`. -/
def generateLoop : Nat → PidFileM Unit
  | 0 => stop waiting
  | fuel + 1 => do
    let existing ← attemptCall .absent
    onlyIf (existing = true) removePidFile
    let self ← get
    ensure (self.mFile = none) asserted
    let created ← attemptCall .present
    if created then
      perform .create
      setFile (some .writeOnly)
    else generateLoop fuel

def generatePidFile_ (fuel aMode : Nat) : PidFileM Unit := do
  let self ← get
  ensure (aMode &&& sIRUSR ≠ 0) asserted
  ensure (self.mFile = none) asserted
  onError (generateLoop fuel) fileClosed

/-- With `O_CREAT`. -/
def openNew (fuel aMode : Nat) : PidFileM Unit := do
  errorIf (aMode &&& sIRUSR = 0) einval
  generatePidFile_ fuel aMode

/-- Without `O_CREAT`. -/
def openExisting (aMode : Nat) : PidFileM Unit := do
  errorIf (aMode ≠ 0) einval
  call other
  setFile (some .readOnly)

/-- What `openPidFile_` does on an object that is not open already. -/
def openUnopened (fuel : Nat) (aFlags : OpenFlags) (aMode : Nat) : PidFileM Unit := do
  setLock none
  errorIf (aFlags.others = true) einval
  let () ← (if aFlags.creat = true then openNew fuel aMode else openExisting aMode)
  let self ← get
  ensure (self.mFile ≠ none) asserted

def openPidFile_ (fuel : Nat) (aFlags : OpenFlags) (aMode : Nat) : PidFileM Unit := do
  let self ← get
  errorIf (self.mFile ≠ none ∨ self.mLock ≠ none) ealready
  onError (openUnopened fuel aFlags aMode) closed

def openPidFile (fuel : Nat) (aFlags : OpenFlags) : PidFileM Unit := openPidFile_ fuel aFlags 0

/-- The part of `closePidFile` under the write lock. -/
def retirePidFile (access : Access) : PidFileM Unit := do
  orStop (call other) aborted
  perform (.truncate access)
  let unlinked ← orStop unlinkPidFile_ aborted
  ensure (unlinked = true) aborted

def closePidFile : PidFileM Unit := do
  let self ← get
  match self.mFile with
  | none => pure ()
  | some access =>
    onlyIf (self.mLock = some .exclusive) (retirePidFile access)
    modify closed

def destroyPidFile : PidFileM Unit := do
  closePidFile
  modify fun self => { self with mPathName := false }

/-- `destroyPidFile` has nothing to do after a failure. -/
def initPidFile : PidFileM Unit := do
  modify fun self => { self with mFile := none, mLock := none, mPathName := false }
  call other
  modify fun self => { self with mPathName := true }

/-- The child and its address are as the assertions of `createPidFile_` want them. -/
def createPidFile_ : PidFileM Unit := do
  call other
  call erange
  let self ← get
  match self.mFile with
  | none => stop asserted
  | some access =>
    -- some of it may be written even if the write then fails
    perform (.write access)
    call eio

/-- The loop of `createPidFile`, in which a zombie is closed and opened anew. -/
def createLoop (aMode : Nat) : Nat → PidFileM Unit
  | 0 => stop waiting
  | fuel + 1 => do
    openPidFile_ fuel ⟨true, false⟩ aMode
    acquirePidFileWriteLock
    let zombie ← detectPidFileZombie_
    if zombie then
      releasePidFileLock_
      closePidFile
      createLoop aMode fuel
    else pure ()

def createPidFile (fuel aMode : Nat) : PidFileM Unit := do
  let self ← get
  errorIf (self.mFile ≠ none ∨ self.mLock ≠ none) ealready
  createLoop aMode fuel
  createPidFile_
  releasePidFileLock_

/-- A failed call, which has changed nothing. -/
def Fails (s : PidFileObject) (e : PidFileError) (s' : PidFileObject) : Prop :=
  (∀ pid, e ≠ eexist pid) ∧ s' = s

def Stops (s : PidFileObject) (d : PidFileStop) (s' : PidFileObject) : Prop := d ≠ asserted ∧ s' = s

section

variable {s : PidFileObject}

theorem call_spec {e : PidFileError} (he : ∀ pid, e ≠ eexist pid) :
    wp (call e) (fun _ s' => s' = s) (Fails s) (Stops s) s := by
  apply wp_ask ⟨by simp, rfl⟩
  intro answer
  exact wp_ite (fun _ => wp_error ⟨he, rfl⟩) (fun _ => wp_pure rfl)

theorem attemptCall_spec (expected : SystemAnswer) :
    wp (attemptCall expected) (fun _ s' => s' = s) (Fails s) (Stops s) s := by
  apply wp_ask ⟨by simp, rfl⟩
  intro answer
  exact wp_errorIf (fun _ => ⟨by simp, rfl⟩) (fun _ => wp_pure rfl)

theorem lockPidFile_spec (hlock : s.mLock = none) (hfile : s.mFile ≠ none) (aLockType : FlockMode) :
    wp (lockPidFile_ aLockType) (fun _ s' => s' = { s with mLock := some aLockType }) (Fails s)
      (Stops s) s := by
  apply wp_get
  apply wp_ensure hlock
  apply wp_ensure hfile
  apply wp_then (call_spec (by simp))
  rintro - s' rfl
  exact wp_update rfl

theorem readPidFileObject_spec (hlock : s.mLock ≠ none) (hfile : s.mFile ≠ none) :
    wp readPidFileObject (fun _ s' => s' = s) (Fails s) (Stops s) s := by
  apply wp_get
  apply wp_ensure hlock
  apply wp_ensure hfile
  apply wp_ask ⟨by simp, rfl⟩
  intro answer
  split
  · exact wp_pure rfl
  · exact wp_stop ⟨by simp, rfl⟩
  · exact wp_error ⟨by simp, rfl⟩

theorem releasePidFileLock_spec (hlock : s.mLock ≠ none) :
    wp releasePidFileLock_ (fun _ s' => s' = { s with mLock := none }) (Fails s) (Stops s) s := by
  apply wp_get
  apply wp_ensure hlock
  apply wp_then (call_spec (by simp))
  rintro - s' rfl
  exact wp_update rfl

/-- The lock is acquired only on a file that is open for writing. -/
theorem acquirePidFileWriteLock_spec (hlock : s.mLock = none) (hfile : s.mFile ≠ none) :
    wp acquirePidFileWriteLock
      (fun _ s' => s.mFile = some .writeOnly ∧ s' = { s with mLock := some .exclusive })
      (Fails s) (Stops s) s := by
  apply wp_get
  apply wp_ensure hfile
  apply wp_then (call_spec (by simp))
  rintro - s' rfl
  refine wp_errorIf (fun _ => ⟨by simp, rfl⟩) fun hread => ?_
  have hwrite : s'.mFile = some .writeOnly := by
    cases hmode : s'.mFile with
    | none => exact absurd hmode hfile
    | some access => cases access <;> simp_all
  exact wp_mono (lockPidFile_spec hlock hfile .exclusive) (fun _ _ h => ⟨hwrite, h⟩)
    (fun _ _ h => h) (fun _ _ h => h)

theorem detectPidFileZombie_spec :
    wp detectPidFileZombie_ (fun _ s' => s' = s) (Fails s) (Stops s) s := by
  apply wp_then (attemptCall_spec .absent)
  rintro named s' rfl
  refine wp_ite (fun _ => ?_) (fun _ => wp_pure rfl)
  apply wp_then (attemptCall_spec .different)
  rintro same s' rfl
  exact wp_pure rfl

theorem unlinkPidFile_spec (hlock : s.mLock = some .exclusive) :
    wp unlinkPidFile_ (fun _ s' => s' = s ∨ s' = { s with effects := s.effects ++ [.unlink] })
      (Fails s) (Stops s) s := by
  apply wp_get
  apply wp_ensure hlock
  apply wp_then detectPidFileZombie_spec
  rintro zombie s' rfl
  refine wp_ite (fun _ => wp_pure (.inl rfl)) (fun _ => ?_)
  apply wp_then (attemptCall_spec .absent)
  rintro unlinked s' rfl
  apply wp_bind
  exact wp_onlyIf (fun _ => wp_update (wp_pure (.inr rfl))) (fun _ => wp_pure (.inl rfl))

end

end PidFileObject

end PidSentry
