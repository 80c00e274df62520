import PidSentry.PidFile

/-! A client of a pid file (command.c), up to the connection that it gets from a
pid server: `createCommand`, call by call. -/

namespace PidSentry

inductive CommandStatus
  | error
  | ok
  | unreachablePidFile
  | nonexistentPidFile
  | inaccessiblePidFile
  | zombiePidFile
  | malformedPidFile
  deriving DecidableEq, Repr

/-- What the client does next; `κ` are the pid servers. -/
inductive CommandCall (ν κ : Type*)
  | initPidFile (reachable : Bool)
  | openPidFile (mFile : ν)
  | nonexistent
  | inaccessible
  | acquirePidFileReadLock
  | readPidFile (content : List UInt8)
  | createPidSignature (pid : Pid) (fetched : Fetched)
  | connect (server : κ) (sun_path : List UInt8)
  | ready
  | write (bytes : List UInt8)
  | read
  | failed
  | closeUnixSocket
  | destroyPidFile
  deriving DecidableEq, Repr

inductive CommandPhase
  | initialising
  | opening
  | locking
  | reading
  | checking (parsedPid : Pid) (pidSignature : CString) (sun_path : List UInt8)
  | connecting (pidSignature : PidSignature) (sun_path : List UInt8)
  | awaitingWrite (pidSignature : PidSignature)
  /-- In `sendPidSignature`, with what is left to write. -/
  | sending (pidSignature : PidSignature) (message : List UInt8)
  | awaitingRead (pidSignature : PidSignature)
  | receiving (pidSignature : PidSignature)
  | finishing (status : CommandStatus) (mChildPid : Pid)
  | destroying (status : CommandStatus) (mChildPid : Pid)
  | returned (status : CommandStatus) (mChildPid : Pid)
  /-- At a null pointer. -/
  | aborting
  deriving DecidableEq, Repr

namespace CommandPhase

/-- After the calls, `mRelaxed` makes up for a process that is not there. -/
def settled (mRelaxed : Bool) (status : CommandStatus) (mChildPid : Pid) : CommandPhase :=
  if (status = .nonexistentPidFile ∨ status = .zombiePidFile) ∧ mRelaxed = true then
    .finishing .ok 0
  else .finishing status mChildPid

def scanned (mRelaxed : Bool) : PidFileText → CommandPhase
  | .malformed => settled mRelaxed .malformedPidFile 0
  | .unaddressable => .finishing .error 0
  | .process parsedPid pidSignature sun_path => .checking parsedPid pidSignature sun_path

def matched (mRelaxed : Bool) (sun_path : List UInt8) : PidFileReading → CommandPhase
  | .signature pidSignature =>
    if pidSignature.mPid = 0 then settled mRelaxed .zombiePidFile 0
    else if pidSignature.mPid = -1 then settled mRelaxed .malformedPidFile 0
    else .connecting pidSignature sun_path
  | .failed => .finishing .error 0
  | .fault => .aborting

variable {ν κ : Type*}

def next (parser : PidParser) (mRelaxed : Bool) : CommandPhase → CommandCall ν κ → Option CommandPhase
  | initialising, .initPidFile reachable =>
    some (if reachable then opening else settled mRelaxed .unreachablePidFile 0)
  | opening, .openPidFile _ => some locking
  | opening, .nonexistent => some (settled mRelaxed .nonexistentPidFile 0)
  | opening, .inaccessible => some (settled mRelaxed .inaccessiblePidFile 0)
  | locking, .acquirePidFileReadLock => some reading
  | reading, .readPidFile content => some (scanned mRelaxed (PidSentry.readPidFile parser content))
  | checking parsedPid pidSignature sun_path, .createPidSignature pid fetched =>
    if pid = parsedPid then
      some (matched mRelaxed sun_path (matchPidFile parsedPid pidSignature fetched))
    else none
  | connecting pidSignature sun_path, .connect _ name =>
    if name = sun_path then some (awaitingWrite pidSignature) else none
  | awaitingWrite pidSignature, .ready =>
    some ((sendPidSignature pidSignature).elim (finishing .error 0) (sending pidSignature))
  | sending pidSignature message, .write bytes =>
    if bytes = message then some (awaitingRead pidSignature)
    else if bytes <+: message then some (sending pidSignature (message.drop bytes.length))
    else none
  | awaitingRead pidSignature, .ready => some (receiving pidSignature)
  | receiving pidSignature, .read => some (settled mRelaxed .ok pidSignature.mPid)
  | initialising, .failed | opening, .failed | locking, .failed | reading, .failed
  | connecting .., .failed | awaitingWrite _, .failed | sending .., .failed
  | awaitingRead _, .failed | receiving _, .failed => some (finishing .error 0)
  | finishing status mChildPid, .closeUnixSocket => some (destroying status mChildPid)
  | destroying status mChildPid, .destroyPidFile => some (returned status mChildPid)
  | _, _ => none

def succeeded : CommandPhase → Bool
  | finishing status mChildPid | destroying status mChildPid | returned status mChildPid =>
    status = .ok ∧ mChildPid ≠ 0
  | _ => false

theorem settled_cases (mRelaxed : Bool) (status : CommandStatus) (mChildPid : Pid) :
    settled mRelaxed status mChildPid = .finishing status mChildPid ∨
      settled mRelaxed status mChildPid = .finishing .ok 0 := by
  unfold settled
  split_ifs
  · exact .inr rfl
  · exact .inl rfl

/-- Only a signature that agrees with the pid file gets as far as a pid server. -/
theorem matched_cases (mRelaxed : Bool) (sun_path : List UInt8) (parsedPid : Pid)
    (pidSignature : CString) (fetched : Fetched) :
    let q := matched mRelaxed sun_path (matchPidFile parsedPid pidSignature fetched)
    q = .connecting ⟨parsedPid, pidSignature⟩ sun_path ∨ q = .aborting ∨
      ∃ status mChildPid, q = .finishing status mChildPid ∧ q.succeeded = false := by
  have hsettled : ∀ status, status ≠ .ok → ∃ status' mChildPid,
      settled mRelaxed status 0 = .finishing status' mChildPid ∧
        (settled mRelaxed status 0).succeeded = false := by
    intro status hne
    rcases settled_cases mRelaxed status 0 with he | he <;>
      exact ⟨_, _, he, by rw [he]; simp [succeeded]⟩
  have hmatched : ∀ sig : PidSignature, sig = ⟨0, []⟩ ∨ sig = ⟨parsedPid, pidSignature⟩ →
      let q := matched mRelaxed sun_path (.signature sig)
      q = .connecting ⟨parsedPid, pidSignature⟩ sun_path ∨ q = .aborting ∨
        ∃ status mChildPid, q = .finishing status mChildPid ∧ q.succeeded = false := by
    intro sig hsig
    simp only [matched]
    split_ifs with hzero hminus
    · exact .inr (.inr (hsettled _ nofun))
    · exact .inr (.inr (hsettled _ nofun))
    · rcases hsig with rfl | rfl
      · exact absurd rfl hzero
      · exact .inl rfl
  unfold matchPidFile
  split_ifs
  · exact .inr (.inl rfl)
  · cases fetched with
    | failed => exact .inr (.inr ⟨_, _, rfl, rfl⟩)
    | absent => exact hmatched _ (.inl rfl)
    | signature mSignature =>
      dsimp only
      split_ifs with hcmp
      · exact hmatched _ (.inr (by rw [strcmp_eq_zero_iff.mp hcmp]))
      · exact hmatched _ (.inl rfl)

end CommandPhase

end PidSentry
