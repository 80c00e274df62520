import PidSentry.Construction

/-! The constructors that clean up after themselves (pidserver.c, umbilical.c,
childprocess.c, shellcommand.c, sentry.c), and the fields that their cleanups read. -/

namespace PidSentry

/-- Of the object under construction and of the objects within it. -/
inductive Member
  /-- The pointer to an object that is allocated. -/
  | self
  | mUnixSocket | mList | mEvent | mClient | mMethod
  | mEventQueue | mPidSignature | mClients
  | mPidServer | mEventPipe | mEchoRequest
  | mPid | mPgid | mShellCommand | mTetherPipe | mChild | mUmbilical | mMutex | mMonitor
  | mArgList | mShell | mCmd
  | mFile | mLock | mPathName
  | mUmbilicalSocket | mChildProcess | mJobControl | mSyncSocket | mPidFile | mUmbilicalProcess
  deriving DecidableEq, Repr

inductive Fallible
  | malloc
  | acceptUnixSocket | ownUnixSocketPeerCred
  | createFileEventQueueActivity | armFileEventQueueActivity
  | createPidSignature | createUnixSocket | ownUnixSocketName | abstractSocketName
  | createFileEventQueue
  | createEventLatch (latch : Member)
  | createEventPipe | bindEventLatchPipe
  | createPipe | closeFileOnExec | nonBlockingFile
  | command | createParseArgListCopy | strdup
  | createSocketPair | createChildProcess | createJobControl | watchJobControlDone
  | createBellSocketPair | createShellCommand | forkProcessChild | superviseChildProcess
  | watchJobControlSignals | watchJobControlStop | watchJobControlContinue
  | initPidFile | createPidServer | chdir | duplicateFd | closeChildProcessTether
  | purgeProcessOrphanedFds
  deriving DecidableEq, Repr

inductive Word
  | null
  /-- The address of the member that a pointer of this name belongs to. -/
  | address (field : Member)
  | argument
  | result (step : Fallible)
  | lockTypeWrite
  | other (word : Nat)
  deriving DecidableEq, Repr

instance : Zero Word := ⟨.null⟩

inductive CleanupAction
  /-- Closes, destroys or frees what a pointer leads to. -/
  | close
  | free
  | unbind
  /-- Discards every client on a list. -/
  | discard
  | kill
  | reap
  | truncate
  | unlink
  /-- Asserts that there is nothing. -/
  | ensure
  deriving DecidableEq, Repr

abbrev Program := List (Instruction Member Word Fallible)

abbrev Destructor := Cleanup Member Word CleanupAction

/-- What a constructor that has succeeded leaves in the fields. -/
def Program.succeeded (program : Program) : Program :=
  program.filter fun instruction =>
    match instruction with
    | .assign .. => true
    | .attempt _ => false

open Instruction Cleanup Member Fallible

/-- The cleanup of what a pointer leads to, unless it is null. -/
def unlessNull (field : Member) (body rest : Destructor) : Destructor :=
  branch field (fun word => word ≠ .null) body rest

def createPidServerClient_.program : Program :=
  [assign self 0, attempt malloc, assign self (.result malloc),
    attempt acceptUnixSocket, assign mUnixSocket (.address mUnixSocket),
    attempt ownUnixSocketPeerCred]

def closePidServerClient_.cleanup : Destructor :=
  unlessNull self (release .close mUnixSocket (read .free self done)) done

def createPidServerClientActivity_.program : Program :=
  [assign self 0, attempt malloc, assign self (.result malloc),
    assign mList 0, assign mEvent 0, assign mClient .argument, assign mMethod .argument,
    attempt createFileEventQueueActivity, assign mEvent (.address mEvent),
    attempt armFileEventQueueActivity]

def closePidServerClientActivity_.cleanup : Destructor :=
  unlessNull self (read .ensure mList (release .close mEvent (read .free self done))) done

def createPidServer.program : Program :=
  [assign mUnixSocket 0, assign mEventQueue 0, assign mPidSignature 0, assign mClients 0,
    attempt createPidSignature, assign mPidSignature (.result createPidSignature),
    attempt createUnixSocket, assign mUnixSocket (.address mUnixSocket),
    attempt ownUnixSocketName, attempt abstractSocketName,
    attempt createFileEventQueue, assign mEventQueue (.address mEventQueue)]

def closePidServer.cleanup (rest : Destructor) : Destructor :=
  release .discard mClients <| release .close mEventQueue <| release .close mUnixSocket <|
    release .close mPidSignature rest

def createUmbilicalMonitor.program : Program :=
  [assign mPidServer .argument, assign mEventPipe 0,
    attempt (createEventLatch mEchoRequest), assign mEchoRequest (.address mEchoRequest),
    attempt createEventPipe, assign mEventPipe (.address mEventPipe),
    attempt bindEventLatchPipe]

def closeUmbilicalMonitor.cleanup : Destructor :=
  read .unbind mEchoRequest <| release .close mEventPipe <| release .close mEchoRequest done

def createChildProcess.program : Program :=
  [assign mPid 0, assign mPgid 0, assign mShellCommand 0, assign mTetherPipe 0,
    assign mChild 0, assign mUmbilical 0, assign mMutex 0, assign mMonitor 0,
    attempt (createEventLatch mChild), assign mChild (.address mChild),
    attempt (createEventLatch mUmbilical), assign mUmbilical (.address mUmbilical),
    assign mMutex (.address mMutex),
    attempt createPipe, assign mTetherPipe (.address mTetherPipe),
    attempt closeFileOnExec, attempt nonBlockingFile]

def createChildProcess.cleanup : Destructor :=
  release .close mTetherPipe <| release .close mMutex <| release .close mUmbilical <|
    release .close mChild done

/-- A command of one word is run by a shell if there is a blank in it. -/
def createShellCommand.program (shell : Bool) : Program :=
  [assign mArgList 0, assign mShell 0, assign mCmd 0,
    attempt command,
    attempt createParseArgListCopy, assign mArgList (.address mArgList)] ++
  if shell then [assign mShell (.other 1), attempt strdup, assign mCmd (.result strdup)]
  else [attempt malloc, assign mCmd (.result malloc)]

def closeShellCommand.cleanup : Destructor :=
  release .close mArgList (read .free mCmd done)

def closeChildProcess.cleanup : Destructor :=
  unlessNull mPid (read .kill mPid (read .reap mPid done)) <|
  read .ensure mMonitor <| release .close mMutex <| release .close mTetherPipe <|
    release .close mUmbilical <| release .close mChild <|
  unlessNull mShellCommand closeShellCommand.cleanup <| clear mShellCommand done

def initPidFile.program : Program :=
  [assign mFile 0, assign mLock 0, assign mPathName 0,
    attempt initPidFile, assign mPathName (.address mPathName)]

def closePidFile.cleanup (rest : Destructor) : Destructor :=
  unlessNull mFile
    (branch mLock (fun word => word = .lockTypeWrite) (read .truncate mFile (read .unlink mFile done)) <|
      release .close mFile <| clear mLock done)
    rest

/-- An object that is constructed within the sentry cleans up after itself if it
fails, and counts as a single step here. -/
def createSentry.program (shell pidFile debug : Bool) : Program :=
  [assign mUmbilicalSocket 0, assign mChildProcess 0, assign mJobControl 0, assign mSyncSocket 0,
    assign mPidFile 0, assign mPidServer 0, assign mUmbilicalProcess 0,
    attempt createSocketPair, assign mUmbilicalSocket (.address mUmbilicalSocket),
    attempt createChildProcess] ++ createChildProcess.program.succeeded ++
  [assign mChildProcess (.address mChildProcess),
    attempt createJobControl, assign mJobControl (.address mJobControl),
    attempt watchJobControlDone,
    attempt createBellSocketPair, assign mSyncSocket (.address mSyncSocket),
    attempt createShellCommand] ++ (createShellCommand.program shell).succeeded ++
  [assign mShellCommand (.address mShellCommand),
    attempt forkProcessChild, assign mPid (.result forkProcessChild),
    assign mPgid (.result forkProcessChild),
    attempt superviseChildProcess,
    attempt watchJobControlSignals, attempt watchJobControlStop, attempt watchJobControlContinue] ++
  (if pidFile then
    [attempt initPidFile] ++ initPidFile.program.succeeded ++ [assign mPidFile (.address mPidFile),
      attempt createPidServer] ++ createPidServer.program.succeeded ++
    [assign mPidServer (.address mPidServer)]
  else []) ++
  (if debug then [] else [attempt chdir]) ++
  [attempt duplicateFd, attempt closeChildProcessTether, assign mTetherPipe 0,
    attempt purgeProcessOrphanedFds]

def closeSentry.cleanup : Destructor :=
  unlessNull mPidServer (closePidServer.cleanup done) <| clear mPidServer <|
  unlessNull mPidFile (closePidFile.cleanup (release .close mPathName done)) <| clear mPidFile <|
  release .close mSyncSocket <| release .close mJobControl <|
  unlessNull mChildProcess closeChildProcess.cleanup <| clear mChildProcess <|
  release .close mUmbilicalSocket done

inductive Constructor
  | createPidServerClient_
  | createPidServerClientActivity_
  | createPidServer
  | createUmbilicalMonitor
  | createChildProcess
  | createSentry (shell pidFile debug : Bool)
  | createShellCommand (shell : Bool)
  deriving DecidableEq, Repr

namespace Constructor

def program : Constructor → Program
  | createPidServerClient_ => createPidServerClient_.program
  | createPidServerClientActivity_ => createPidServerClientActivity_.program
  | createPidServer => createPidServer.program
  | createUmbilicalMonitor => createUmbilicalMonitor.program
  | createChildProcess => createChildProcess.program
  | createSentry shell pidFile debug => createSentry.program shell pidFile debug
  | createShellCommand shell => createShellCommand.program shell

def cleanup : Constructor → Destructor
  | createPidServerClient_ => closePidServerClient_.cleanup
  | createPidServerClientActivity_ => closePidServerClientActivity_.cleanup
  | createPidServer => closePidServer.cleanup done
  | createUmbilicalMonitor => closeUmbilicalMonitor.cleanup
  | createChildProcess => createChildProcess.cleanup
  | createSentry .. => closeSentry.cleanup
  | createShellCommand _ => closeShellCommand.cleanup

/-- The failures after which a pointer is looked at that is assigned on success only. -/
def Overlooks (constructor : Constructor) (step : Fallible) : Prop :=
  constructor = createPidServerClient_ ∧ step = acceptUnixSocket ∨
    constructor = createUmbilicalMonitor ∧ step = createEventLatch mEchoRequest

instance (constructor : Constructor) (step : Fallible) : Decidable (constructor.Overlooks step) :=
  inferInstanceAs (Decidable (_ ∨ _))

/-- An object in memory that holds the same word everywhere. -/
def stained (word : Nat) : Fields Member Word := fun _ => ⟨.other word, false⟩

theorem garbage_stained (word : Nat) : Garbage (stained word) := fun _ => rfl

theorem failures_checked (constructor : Constructor) :
    ∀ failure ∈ failures constructor.program,
      (constructor.cleanup.stale (construct (stained 0) failure.1) = true ↔
        constructor.Overlooks failure.2) ∧
      (constructor.Overlooks failure.2 →
        (constructor.cleanup.run (construct (stained 0) failure.1)).2 ≠
          (constructor.cleanup.run (construct (stained 1) failure.1)).2) := by
  cases constructor with
  | createSentry shell pidFile debug => cases shell <;> cases pidFile <;> cases debug <;> decide +kernel
  | createShellCommand shell => cases shell <;> decide +kernel
  | createPidServerClient_ | createPidServerClientActivity_ | createPidServer
  | createUmbilicalMonitor | createChildProcess => decide +kernel

/-- After a failure the cleanup is independent of what the memory held before, and
reads fields only that are assigned, unless it is one of the two overlooked. -/
theorem cleanup_independent_iff (constructor : Constructor) {before : Program} {step : Fallible}
    (h : ∃ after, constructor.program = before ++ attempt step :: after) :
    (SameCleanup before constructor.cleanup ↔ ¬ constructor.Overlooks step) ∧
      (ReadsAssigned before constructor.cleanup ↔ ¬ constructor.Overlooks step) := by
  obtain ⟨hstale, hdiffer⟩ := constructor.failures_checked _ (mem_failures_iff.mpr h)
  have hreads : ReadsAssigned before constructor.cleanup ↔ ¬ constructor.Overlooks step := by
    rw [readsAssigned_iff (garbage_stained 0), ← hstale, Bool.not_eq_true]
  refine ⟨⟨fun hsame hoverlooks => ?_, fun hnot => (hreads.mpr hnot).same⟩, hreads⟩
  exact hdiffer hoverlooks (hsame _ _ (garbage_stained 0) (garbage_stained 1))

theorem cleanup_independent_createFileEventQueue :
    (SameCleanup (createPidServer.program.take 10) createPidServer.cleanup ↔
        ¬ createPidServer.Overlooks createFileEventQueue) ∧
      (ReadsAssigned (createPidServer.program.take 10) createPidServer.cleanup ↔
        ¬ createPidServer.Overlooks createFileEventQueue) :=
  cleanup_independent_iff createPidServer ⟨[assign mEventQueue (.address mEventQueue)], rfl⟩

/-- A client that is not accepted is closed all the same. -/
theorem createPidServerClient_dependent :
    ¬ ∀ (constructor : Constructor) (before : Program) (step : Fallible),
      (∃ after, constructor.program = before ++ attempt step :: after) →
        SameCleanup before constructor.cleanup ∧ ReadsAssigned before constructor.cleanup := by
  intro h
  have hclient := h createPidServerClient_ (createPidServerClient_.program.take 3) acceptUnixSocket
    ⟨[assign mUnixSocket (.address mUnixSocket), attempt ownUnixSocketPeerCred], rfl⟩
  have hsame := hclient.1 _ _ (garbage_stained 0) (garbage_stained 1)
  exact absurd hsame (by decide +kernel)

end Constructor

end PidSentry
