import PidSentry.Outline
import PidSentry.PollLoop
import PidSentry.Transition

/-! The calls that `runAgentSentry_` makes from `createSentry` to `closeSentry`
(sentry.c), and the signal watchers that can be called between any two of them. -/

namespace PidSentry

/-- The watchers that `ert_watchJobControl…` installs. -/
inductive Watcher
  | done
  | signals
  | stop
  | cont
  deriving DecidableEq, Repr

/-- The calls in the order of the source. `announceSentryPidFile` fails as well if
it returns a pid. `discardStdout` is `ert_ownFdValid` with `ert_nullifyFd`, and
`ifRecorded` a call that `closeChildProcess` makes if there is a pid. -/
inductive SentryCall
  | createSocketPair
  | createChildProcess
  | createJobControl
  | watchJobControl (watcher : Watcher)
  | createBellSocketPair
  | createShellCommand
  | forkProcessChild
  | recordPid
  | fetchProcessGroupId
  | superviseChildProcess
  | initPidFile
  | createPidServer
  | chdir
  | duplicateFd
  | closeChildProcessTether
  | purgeProcessOrphanedFds
  | announceSentryPidFile
  | createUmbilicalProcess
  | reapSentry
  | closePidServer
  | identifySentry
  | closeBellSocketPairChild
  | ringBellSocketPairParent
  | waitBellSocketPairParent
  | identifyChild
  | discardStdout
  | closeBellSocketPair
  | raiseSigStop
  | monitorChildProcess
  | stopUmbilicalProcess
  | closeSocketPair
  | killChildProcessGroup
  | acquirePidFileWriteLock
  | destroyPidFile
  | unwatchJobControl (watcher : Watcher)
  | closeJobControl
  | killChildProcess
  | reapProcessChild
  | clearPid
  | ifRecorded (call : SentryCall)
  | freeChildProcess
  | reapUmbilical
  deriving DecidableEq, Repr

/-- What decides which calls are made: `gOptions.mServer`, `ert_debuglevel(0)`,
`ert_testMode(Ert_TestLevelSync)` and `RUNNING_ON_VALGRIND`. -/
structure SentryOptions where
  mPidFile : Bool
  mIdentify : Bool
  debug : Bool
  sync : Bool
  valgrind : Bool
  deriving DecidableEq, Repr

def forkChildProcess : List SentryCall :=
  [.createShellCommand, .forkProcessChild, .recordPid, .fetchProcessGroupId, .superviseChildProcess]

def createSentry (options : SentryOptions) : List SentryCall :=
  .flatten
    [[.createSocketPair, .createChildProcess, .createJobControl, .watchJobControl .done,
        .createBellSocketPair],
      forkChildProcess,
      [.watchJobControl .signals, .watchJobControl .stop, .watchJobControl .cont],
      if options.mPidFile then [.initPidFile, .createPidServer] else [],
      if options.debug then [] else [.chdir],
      [.duplicateFd, .closeChildProcessTether, .purgeProcessOrphanedFds]]

def closeChildProcess : List SentryCall :=
  [.ifRecorded .killChildProcess, .ifRecorded .reapProcessChild, .ifRecorded .clearPid,
    .freeChildProcess]

def runSentry (options : SentryOptions) : List SentryCall :=
  .flatten
    [[.createUmbilicalProcess, .reapSentry, .closePidServer],
      if options.mIdentify then [.identifySentry] else [],
      [.closeBellSocketPairChild, .ringBellSocketPairParent, .waitBellSocketPairParent],
      if options.mIdentify then [.identifyChild] else [],
      [.ringBellSocketPairParent, .discardStdout, .waitBellSocketPairParent, .closeBellSocketPair],
      if options.sync then [.raiseSigStop] else [],
      [.monitorChildProcess, .stopUmbilicalProcess, .closeSocketPair, .killChildProcessGroup],
      if options.mPidFile then [.acquirePidFileWriteLock, .destroyPidFile] else [],
      [.unwatchJobControl .cont, .unwatchJobControl .stop, .unwatchJobControl .signals,
        .unwatchJobControl .done, .reapProcessChild, .clearPid],
      closeChildProcess,
      if options.valgrind then [.reapUmbilical] else []]

def closeSentry : List SentryCall :=
  [.closePidServer, .destroyPidFile, .closeBellSocketPair, .closeJobControl] ++
  closeChildProcess ++ [.closeSocketPair]

def runAgentSentry (options : SentryOptions) : List SentryCall :=
  createSentry options ++ .announceSentryPidFile :: runSentry options

/-- The child itself, whatever the sentry has recorded of it. -/
inductive SentryChild
  | unforked
  | forked (pid : Pid)
  | reaped
  deriving DecidableEq, Repr

/-- The local `childPid` of `forkChildProcess`. -/
def SentryChild.childPid : SentryChild → Pid
  | forked pid => pid
  | unforked | reaped => 0

/-- `mChildProcess`, `mPidFile` and `mUmbilicalProcess` are whether the sentry has
them. -/
structure SentryData where
  mChildProcess : Bool
  mPid : Pid
  mPgid : Pid
  mPidFile : Bool
  mUmbilicalProcess : Bool
  watched : List Watcher
  child : SentryChild
  deriving DecidableEq, Repr

inductive CallResult
  | ok
  | forked (childPid : Pid)
  | failed
  deriving DecidableEq, Repr

namespace SentryCall

/-- The child is the leader of its process group. -/
def effect (d : SentryData) : SentryCall → SentryData
  | createChildProcess => { d with mChildProcess := true, mPid := 0, mPgid := 0 }
  | watchJobControl watcher => { d with watched := watcher :: d.watched }
  | recordPid => { d with mPid := d.child.childPid }
  | fetchProcessGroupId => { d with mPgid := d.mPid }
  | initPidFile => { d with mPidFile := true }
  | createUmbilicalProcess => { d with mUmbilicalProcess := true }
  | destroyPidFile => { d with mPidFile := false }
  | unwatchJobControl watcher => { d with watched := d.watched.filter (· ≠ watcher) }
  | closeJobControl => { d with watched := [] }
  | reapProcessChild => if d.child = .forked d.mPid then { d with child := .reaped } else d
  | clearPid => { d with mPid := 0 }
  | ifRecorded call => if d.mChildProcess ∧ d.mPid ≠ 0 then call.effect d else d
  | freeChildProcess => { d with mChildProcess := false }
  | _ => d

/-- How a call that cannot be made ends, if that can be: mostly the sentry goes on
to `closeSentry`, but some failures are met with `ert_terminate`, `ert_ensure` or
`ERT_ABORT_IF`. -/
def failure (d : SentryData) : SentryCall → Option Ending
  | recordPid | closePidServer | closeBellSocketPairChild | closeBellSocketPair | closeSocketPair
  | closeChildProcessTether | closeJobControl | clearPid | freeChildProcess => none
  | fetchProcessGroupId | createUmbilicalProcess | identifySentry => some .aborts
  | announceSentryPidFile => if d.mPidFile then some .fails else none
  | destroyPidFile => if d.mPidFile then some .aborts else none
  | ifRecorded call =>
    if d.mChildProcess ∧ d.mPid ≠ 0 then (call.failure d).map fun _ => .aborts else none
  | _ => some .fails

/-- A watcher whose installation fails is taken to be there until it is removed. -/
def perform (call : SentryCall) (result : CallResult) (d : SentryData) :
    Option (Ending × SentryData) :=
  match call, result with
  | forkProcessChild, .forked childPid =>
    if 0 < childPid then some (.goesOn, { d with child := .forked childPid }) else none
  | forkProcessChild, .ok => none
  | call, .ok => some (.goesOn, call.effect d)
  | watchJobControl watcher, .failed => some (.fails, (watchJobControl watcher).effect d)
  | call, .failed => (call.failure d).map fun ending => (ending, d)
  | _, .forked _ => none

end SentryCall

/-- What the watchers call; `supervised` is whether the umbilical process, if there
is one, could be supervised. -/
inductive Callback
  | reapSentry (supervised : Bool)
  | raiseSentrySignal
  | raiseSentryStop
  | raiseSentryResume
  | raiseSentrySigCont
  deriving DecidableEq, Repr

namespace Callback

def watcher : Callback → Watcher
  | reapSentry _ => .done
  | raiseSentrySignal => .signals
  | raiseSentryStop | raiseSentryResume => .stop
  | raiseSentrySigCont => .cont

/-- The pid or process group that a callback monitors or signals for the child. -/
def target (d : SentryData) : Callback → Option Pid
  | reapSentry supervised => if d.mUmbilicalProcess && !supervised then none else some d.mPid
  | raiseSentrySignal => some d.mPid
  | raiseSentryStop | raiseSentryResume => some d.mPgid
  | raiseSentrySigCont => none

end Callback

abbrev SentryRun := Course SentryCall SentryData

inductive SentryEvent
  | call (result : CallResult)
  | callback (callback : Callback)
  deriving DecidableEq, Repr

namespace SentryRun

/-- A process that has come to an abort is not called back. -/
def next (s : SentryRun) : SentryEvent → Option SentryRun
  | .call result => Course.next SentryCall.perform closeSentry s result
  | .callback callback => if s.stage ≠ .aborted ∧ callback.watcher ∈ s.data.watched then some s else none

def start (options : SentryOptions) : SentryRun :=
  Course.start (runAgentSentry options) ⟨false, 0, 0, false, false, [], .unforked⟩

def system (options : SentryOptions) : System SentryRun SentryEvent :=
  .ofNext (· = start options) next

/-- A callback touches a pid or process group only if that is recorded and the
child, which has not been reaped, is its owner. -/
def TouchesLive (s : SentryRun) (event : SentryEvent) (_ : SentryRun) : Prop :=
  ∀ callback pid, event = .callback callback → callback.target s.data = some pid →
    pid ≠ 0 ∧ s.data.child = .forked pid

/-- `reapSentry_` comes to the child only when `forkChildProcess` has recorded it. -/
def ReapsRecorded (s : SentryRun) (event : SentryEvent) (_ : SentryRun) : Prop :=
  ∀ supervised, event = .callback (.reapSentry supervised) →
    (s.data.mUmbilicalProcess = true → supervised = true) → ¬ s.Unmade .recordPid

end SentryRun

/-- What the watchers rely on; `unrecorded` is whether the pid has yet to be
recorded. -/
structure SentryData.Watched (unrecorded : Prop) (d : SentryData) : Prop where
  done : .done ∈ d.watched → (unrecorded ↔ d.mPid = 0) ∧ (d.mPid ≠ 0 → d.child = .forked d.mPid)
  signals : .signals ∈ d.watched → d.mPid ≠ 0 ∧ d.child = .forked d.mPid
  stop : .stop ∈ d.watched → d.mPgid ≠ 0 ∧ d.child = .forked d.mPgid

/-- The child and what is recorded of it stay as they are. -/
structure SentryData.SameChild (d d' : SentryData) : Prop where
  mPid : d'.mPid = d.mPid
  mPgid : d'.mPgid = d.mPgid
  child : d'.child = d.child

theorem SentryData.Watched.congr {unrecorded : Prop} {d d' : SentryData} (h : d.Watched unrecorded)
    (hsame : d.SameChild d') (hwatched : d'.watched ⊆ d.watched) : d'.Watched unrecorded := by
  obtain ⟨hpid, hpgid, hchild⟩ := hsame
  refine ⟨fun hw => ?_, fun hw => ?_, fun hw => ?_⟩
  · rw [hpid, hchild]
    exact h.done (hwatched hw)
  · rw [hpid, hchild]
    exact h.signals (hwatched hw)
  · rw [hpgid, hchild]
    exact h.stop (hwatched hw)

theorem SentryData.Watched.of_unwatched {unrecorded : Prop} {d : SentryData} (h : d.watched = []) :
    d.Watched unrecorded := by
  refine ⟨fun hw => ?_, fun hw => ?_, fun hw => ?_⟩ <;> simp [h] at hw

namespace SentryCall

def steady : SentryCall → Bool
  | createChildProcess | forkProcessChild | recordPid | fetchProcessGroupId | reapProcessChild
  | clearPid | ifRecorded _ => false
  | _ => true

def watches : SentryCall → Bool
  | watchJobControl _ => true
  | ifRecorded call => call.watches
  | _ => false

variable {call : SentryCall} {result : CallResult} {ending : Ending} {d d' : SentryData}

theorem perform_cases (h : call.perform result d = some (ending, d')) :
    d' = d ∨ d' = call.effect d ∨
      call = .forkProcessChild ∧ ∃ childPid, 0 < childPid ∧ d' = { d with child := .forked childPid } := by
  unfold perform at h
  split at h
  · obtain ⟨hpid, h⟩ := Option.ite_none_right_eq_some.mp h
    cases h
    exact .inr (.inr ⟨rfl, _, hpid, rfl⟩)
  · cases h
  · cases h
    exact .inr (.inl rfl)
  · cases h
    exact .inr (.inl rfl)
  · obtain ⟨failure, -, he⟩ := Option.map_eq_some_iff.mp h
    cases he
    exact .inl rfl
  · cases h

theorem effect_watched (h : call.watches = false) : (call.effect d).watched ⊆ d.watched := by
  induction call with
  | watchJobControl watcher => cases h
  | unwatchJobControl watcher => exact List.filter_subset_self ..
  | closeJobControl => exact List.nil_subset _
  | ifRecorded call ih =>
    unfold effect
    split_ifs
    · exact ih h
    · exact List.Subset.refl _
  | reapProcessChild =>
    unfold effect
    split_ifs <;> exact List.Subset.refl _
  | _ => exact List.Subset.refl _

theorem perform_watched (hcall : call.watches = false)
    (h : call.perform result d = some (ending, d')) : d'.watched ⊆ d.watched := by
  rcases perform_cases h with rfl | rfl | ⟨-, childPid, -, rfl⟩
  · exact List.Subset.refl _
  · exact effect_watched hcall
  · exact List.Subset.refl _

theorem perform_sameChild (hcall : call.steady = true)
    (h : call.perform result d = some (ending, d')) : d.SameChild d' := by
  rcases perform_cases h with rfl | rfl | ⟨rfl, -⟩
  · exact ⟨rfl, rfl, rfl⟩
  · cases call <;> first | exact ⟨rfl, rfl, rfl⟩ | cases hcall
  · cases hcall

end SentryCall

namespace SentryRun

open SentryCall

/-- What the watchers rely on, with the calls that are yet to be made or, in
`closeSentry`, that have been left. -/
def Ready (rest : List SentryCall) (d : SentryData) : Prop := d.Watched (.recordPid ∈ rest)

theorem closeSentry_outline {left : List SentryCall} {d : SentryData} (hd : Ready left d) :
    Outline perform (fun _ => Ready left) (fun _ _ => True) closeSentry d := by
  have hsplit : closeSentry = [.closePidServer, .destroyPidFile, .closeBellSocketPair] ++
      .closeJobControl :: (closeChildProcess ++ [.closeSocketPair]) := rfl
  rw [hsplit]
  refine Outline.append (J := Ready left) (fun _ _ _ hd => hd) (fun _ _ _ _ => trivial) ?_ ?_ hd
  · intro call hcall result ending d d' hd h
    have hsteady : call.steady = true ∧ call.watches = false := by
      clear h
      revert call
      decide
    exact hd.congr (perform_sameChild hsteady.1 h) (perform_watched hsteady.2 h)
  · intro d hd
    refine ⟨hd, fun result ending d' h => ⟨fun hending => ?_, fun _ => trivial⟩⟩
    have hunwatched : d'.watched = [] := by
      cases result with
      | ok =>
        cases h
        rfl
      | forked childPid | failed => cases h
    refine Outline.of_invariant (J := fun d => d.watched = []) (fun _ _ _ hd => .of_unwatched hd)
      (fun _ _ _ _ => trivial) ?_ hunwatched
    intro call hcall result ending d d' hd h
    have hwatches : call.watches = false := by
      clear h
      revert call
      decide
    have hsubset := perform_watched hwatches h
    rw [hd] at hsubset
    exact List.subset_nil.mp hsubset

/-- The calls up to the fork. -/
def beforeFork : List SentryCall :=
  [.createSocketPair, .createChildProcess, .createJobControl, .watchJobControl .done,
    .createBellSocketPair, .createShellCommand]

/-- The calls of `runSentry` before it gives up the pid file. -/
def beforeDestroy (options : SentryOptions) : List SentryCall :=
  .flatten
    [[.createUmbilicalProcess, .reapSentry, .closePidServer],
      if options.mIdentify then [.identifySentry] else [],
      [.closeBellSocketPairChild, .ringBellSocketPairParent, .waitBellSocketPairParent],
      if options.mIdentify then [.identifyChild] else [],
      [.ringBellSocketPairParent, .discardStdout, .waitBellSocketPairParent, .closeBellSocketPair],
      if options.sync then [.raiseSigStop] else [],
      [.monitorChildProcess, .stopUmbilicalProcess, .closeSocketPair, .killChildProcessGroup]]

/-- The calls from the record of the child to the removal of the watchers. -/
def beforeUnwatch (options : SentryOptions) : List SentryCall :=
  .flatten
    [[.superviseChildProcess, .watchJobControl .signals, .watchJobControl .stop,
        .watchJobControl .cont],
      if options.mPidFile then [.initPidFile, .createPidServer] else [],
      if options.debug then [] else [.chdir],
      [.duplicateFd, .closeChildProcessTether, .purgeProcessOrphanedFds, .announceSentryPidFile],
      beforeDestroy options,
      if options.mPidFile then [.acquirePidFileWriteLock, .destroyPidFile] else []]

def unwatched : List Watcher := [.cont, .stop, .signals, .done]

def afterUnwatch (options : SentryOptions) : List SentryCall :=
  [.reapProcessChild, .clearPid] ++ closeChildProcess ++
  (if options.valgrind then [.reapUmbilical] else [])

/-- The calls of `runSentry` after it has given up the pid file. -/
def afterDestroy (options : SentryOptions) : List SentryCall :=
  unwatched.map .unwatchJobControl ++ afterUnwatch options

/-- The calls once the pid and the process group of the child are recorded. -/
def afterRecord (options : SentryOptions) : List SentryCall :=
  beforeUnwatch options ++ afterDestroy options

theorem runAgentSentry_eq (options : SentryOptions) :
    runAgentSentry options = beforeFork ++ .forkProcessChild :: .recordPid :: .fetchProcessGroupId ::
      afterRecord options := by
  simp [runAgentSentry, createSentry, runSentry, forkChildProcess, beforeFork, afterRecord,
    beforeUnwatch, beforeDestroy, afterDestroy, unwatched, afterUnwatch]

theorem steady_of_mem {options : SentryOptions} {call : SentryCall} (h : call ∈ beforeUnwatch options) :
    call.steady = true ∧ call ≠ .recordPid := by
  have hall : (beforeUnwatch options).all (fun call => call.steady && call ≠ .recordPid) = true := by
    obtain ⟨mPidFile, mIdentify, debug, sync, valgrind⟩ := options
    cases mPidFile <;> cases mIdentify <;> cases debug <;> cases sync <;> rfl
  simpa using List.all_eq_true.mp hall call h

theorem watches_of_mem {options : SentryOptions} {call : SentryCall} (h : call ∈ afterUnwatch options) :
    call.watches = false ∧ call ≠ .recordPid := by
  have hall : (afterUnwatch options).all (fun call => !call.watches && call ≠ .recordPid) = true := by
    obtain ⟨mPidFile, mIdentify, debug, sync, valgrind⟩ := options
    cases valgrind <;> rfl
  simpa using List.all_eq_true.mp hall call h

/-- The child is recorded, with its process group, and has not been reaped. -/
structure Recorded (d : SentryData) : Prop where
  mPid : d.mPid ≠ 0
  mPgid : d.mPgid = d.mPid
  child : d.child = .forked d.mPid

theorem Recorded.congr {d d' : SentryData} (hd : Recorded d) (h : d.SameChild d') : Recorded d' := by
  obtain ⟨hpid, hpgid, hchild⟩ := h
  refine ⟨?_, ?_, ?_⟩
  · rw [hpid]
    exact hd.mPid
  · rw [hpid, hpgid]
    exact hd.mPgid
  · rw [hpid, hchild]
    exact hd.child

theorem Recorded.ready {rest : List SentryCall} {d : SentryData} (hd : Recorded d)
    (hrest : .recordPid ∉ rest) : Ready rest d := by
  refine ⟨fun _ => ⟨iff_of_false hrest hd.mPid, fun _ => hd.child⟩, fun _ => ⟨hd.mPid, hd.child⟩,
    fun _ => ?_⟩
  rw [hd.mPgid]
  exact ⟨hd.mPid, hd.child⟩

theorem afterUnwatch_outline {options : SentryOptions} {d : SentryData} (hd : d.watched = []) :
    Outline perform Ready Ready (afterUnwatch options) d := by
  refine Outline.of_invariant (J := fun d => d.watched = []) (fun _ _ _ hd => .of_unwatched hd)
    (fun _ _ _ hd => .of_unwatched hd) ?_ hd
  intro call hcall result ending d d' hd h
  have hsubset := perform_watched (watches_of_mem hcall).1 h
  rw [hd] at hsubset
  exact List.subset_nil.mp hsubset

theorem unwatch_outline {options : SentryOptions} {watchers : List Watcher} {d : SentryData}
    (hd : Recorded d) (hwatched : d.watched ⊆ watchers) :
    Outline perform Ready Ready (watchers.map .unwatchJobControl ++ afterUnwatch options) d := by
  induction watchers generalizing d with
  | nil => exact afterUnwatch_outline (List.subset_nil.mp hwatched)
  | cons watcher watchers ih =>
    have hrest : .recordPid ∉ (watcher :: watchers).map .unwatchJobControl ++ afterUnwatch options := by
      intro hmem
      rcases List.mem_append.mp hmem with hmem | hmem
      · simp at hmem
      · exact (watches_of_mem hmem).2 rfl
    refine ⟨hd.ready hrest, fun result ending d' h => ⟨fun hending => ?_, fun _ => ?_⟩⟩
    · cases result with
      | ok =>
        cases h
        refine ih ⟨hd.mPid, hd.mPgid, hd.child⟩ fun other hother => ?_
        obtain ⟨hmem, hne⟩ := List.mem_filter.mp hother
        exact (List.mem_cons.mp (hwatched hmem)).resolve_left (of_decide_eq_true hne)
      | forked childPid => cases h
      | failed =>
        cases h
        cases hending
    · exact (hd.congr (perform_sameChild rfl h)).ready hrest

theorem recordPid_notMem {options : SentryOptions} {rest : List SentryCall}
    (h : rest <:+ beforeUnwatch options) :
    .recordPid ∉ rest ++ afterDestroy options := by
  intro hmem
  rcases List.mem_append.mp hmem with hmem | hmem
  · exact (steady_of_mem (h.subset hmem)).2 rfl
  · rcases List.mem_append.mp hmem with hmem | hmem
    · simp at hmem
    · exact (watches_of_mem hmem).2 rfl

theorem recorded_outline {options : SentryOptions} {d : SentryData} (hd : Recorded d) :
    Outline perform Ready Ready (afterRecord options) d := by
  refine Outline.append (J := Recorded) (fun rest h _ hd => hd.ready (recordPid_notMem h))
    (fun rest h _ hd => hd.ready (recordPid_notMem h)) ?_ (fun d hd => ?_) hd
  · intro call hcall result ending d d' hd h
    exact hd.congr (perform_sameChild (steady_of_mem hcall).1 h)
  · refine unwatch_outline hd fun watcher _ => ?_
    cases watcher <;> simp [unwatched]

/-- Before the pid of the child is recorded only `reapSentry_` is watching. -/
structure Unrecorded (d : SentryData) : Prop where
  mPid : d.mPid = 0
  watched : d.watched ⊆ [.done]

theorem Unrecorded.ready {rest : List SentryCall} {d : SentryData} (hd : Unrecorded d)
    (hrest : .recordPid ∈ rest) : Ready rest d := by
  have hnot : ∀ watcher, watcher ≠ .done → watcher ∉ d.watched := by
    intro watcher hne hmem
    exact hne (List.mem_singleton.mp (hd.watched hmem))
  refine ⟨fun _ => ⟨iff_of_true hrest hd.mPid, fun hne => absurd hd.mPid hne⟩, fun hmem => ?_,
    fun hmem => ?_⟩
  · exact absurd hmem (hnot .signals Watcher.noConfusion)
  · exact absurd hmem (hnot .stop Watcher.noConfusion)

theorem Unrecorded.effect {call : SentryCall} {d : SentryData} (hd : Unrecorded d)
    (hcall : call ∈ beforeFork) : Unrecorded (call.effect d) := by
  simp only [beforeFork, List.mem_cons, List.not_mem_nil, or_false] at hcall
  rcases hcall with rfl | rfl | rfl | rfl | rfl | rfl
  · exact hd
  · exact ⟨rfl, hd.watched⟩
  · exact hd
  · exact ⟨hd.mPid, List.cons_subset.mpr ⟨List.mem_singleton_self _, hd.watched⟩⟩
  · exact hd
  · exact hd

theorem fetch_outline {options : SentryOptions} {d : SentryData} (hpid : d.mPid ≠ 0)
    (hchild : d.child = .forked d.mPid) (hwatched : d.watched ⊆ [.done]) :
    Outline perform Ready Ready (.fetchProcessGroupId :: afterRecord options) d := by
  have hrest : .recordPid ∉ .fetchProcessGroupId :: afterRecord options := by
    intro hmem
    exact recordPid_notMem List.suffix_rfl ((List.mem_cons.mp hmem).resolve_left SentryCall.noConfusion)
  have hready : Ready (.fetchProcessGroupId :: afterRecord options) d := by
    refine ⟨fun _ => ⟨iff_of_false hrest hpid, fun _ => hchild⟩, fun hmem => ⟨hpid, hchild⟩,
      fun hmem => ?_⟩
    exact absurd (List.mem_singleton.mp (hwatched hmem)) Watcher.noConfusion
  refine ⟨hready, fun result ending d' h => ?_⟩
  cases result with
  | ok =>
    cases h
    exact ⟨fun _ => recorded_outline ⟨hpid, rfl, hchild⟩, Ending.noConfusion⟩
  | forked childPid => cases h
  | failed =>
    cases h
    exact ⟨Ending.noConfusion, Ending.noConfusion⟩

theorem record_outline {options : SentryOptions} {d : SentryData} (hd : Unrecorded d) {childPid : Pid}
    (hchild : d.child = .forked childPid) (hpid : 0 < childPid) :
    Outline perform Ready Ready (.recordPid :: .fetchProcessGroupId ::
      afterRecord options) d := by
  refine ⟨hd.ready List.mem_cons_self, fun result ending d' h => ?_⟩
  cases result with
  | ok =>
    cases h
    have hrecorded : d.child.childPid = childPid := by
      rw [hchild]
      rfl
    refine ⟨fun _ => fetch_outline ?_ ?_ hd.watched, Ending.noConfusion⟩
    · show d.child.childPid ≠ 0
      rw [hrecorded]
      rintro rfl
      exact absurd hpid (by decide)
    · show d.child = .forked d.child.childPid
      rw [hrecorded, hchild]
  | forked childPid | failed => cases h

theorem fork_outline {options : SentryOptions} {d : SentryData} (hd : Unrecorded d) :
    Outline perform Ready Ready (.forkProcessChild :: .recordPid :: .fetchProcessGroupId ::
      afterRecord options) d := by
  have hready : Ready (.forkProcessChild :: .recordPid :: .fetchProcessGroupId ::
      afterRecord options) d :=
    hd.ready (List.mem_cons_of_mem _ List.mem_cons_self)
  refine ⟨hready, fun result ending d' h => ?_⟩
  cases result with
  | ok => cases h
  | forked childPid =>
    obtain ⟨hpid, h⟩ := Option.ite_none_right_eq_some.mp h
    cases h
    exact ⟨fun _ => record_outline ⟨hd.mPid, hd.watched⟩ rfl hpid, Ending.noConfusion⟩
  | failed =>
    cases h
    exact ⟨Ending.noConfusion, fun _ => hready⟩

theorem runAgentSentry_outline (options : SentryOptions) :
    Outline perform Ready Ready (runAgentSentry options) (start options).data := by
  rw [runAgentSentry_eq]
  refine Outline.append (J := Unrecorded) (fun rest _ d hd => hd.ready (by simp))
    (fun rest _ d hd => hd.ready (by simp)) ?_ (fun d hd => fork_outline hd) ⟨rfl, List.nil_subset _⟩
  intro call hcall result ending d d' hd h
  rcases perform_cases h with rfl | rfl | ⟨rfl, -⟩
  · exact hd
  · exact hd.effect hcall
  · simp [beforeFork] at hcall

variable {options : SentryOptions} {s t : SentryRun}

theorem next_callback {callback : Callback} : s.next (.callback callback) = some t ↔
    s.stage ≠ .aborted ∧ callback.watcher ∈ s.data.watched ∧ t = s := by
  unfold next
  rw [Option.ite_none_right_eq_some, Option.some.injEq, eq_comm, and_assoc]

/-- What a course keeps from one call to the next holds throughout, as the
watchers leave the sentry as it is. -/
theorem invariant_of_reachable {P : SentryRun → Prop} (hstart : P (start options))
    (hcall : ∀ s result t, P s → Course.next perform closeSentry s result = some t → P t)
    (hs : (system options).Reachable s) : P s := by
  refine System.Reachable.invariant ?_ ?_ hs
  · rintro s rfl
    exact hstart
  · intro s event t _ hi hstep
    cases event with
    | call result => exact hcall s result t hi hstep
    | callback callback =>
      obtain ⟨-, -, rfl⟩ := next_callback.mp hstep
      exact hi

theorem within_of_reachable (hs : (system options).Reachable s) :
    s.Within (runAgentSentry options) closeSentry := by
  refine invariant_of_reachable (P := fun s => s.Within (runAgentSentry options) closeSentry) ?_
    (fun s result t hi h => hi.next h) hs
  exact ⟨fun _ => ⟨List.suffix_rfl, rfl⟩, Stage.noConfusion⟩

theorem meets_of_reachable (hs : (system options).Reachable s) :
    s.Meets perform Ready Ready (fun left _ => Ready left) := by
  refine invariant_of_reachable (P := fun s => s.Meets perform Ready Ready (fun left _ => Ready left))
    ⟨rfl, runAgentSentry_outline options⟩ (fun s result t hi h => hi.next ?_ ?_ h) hs
  · exact fun data hd => closeSentry_outline hd
  · exact fun left data hd => closeSentry_outline hd

theorem watched_of_reachable (hs : (system options).Reachable s) (hstage : s.stage ≠ .aborted) :
    s.data.Watched (s.Unmade .recordPid) := by
  have hmeets := meets_of_reachable hs
  have hwithin := within_of_reachable hs
  unfold Course.Meets at hmeets
  cases he : s.stage with
  | working =>
    rw [he] at hmeets
    obtain ⟨hleft, houtline⟩ := hmeets
    have hunmade : s.Unmade .recordPid ↔ .recordPid ∈ s.todo := by simp [Course.Unmade, hleft]
    rw [hunmade]
    exact houtline.here
  | closing =>
    rw [he] at hmeets
    have htodo : .recordPid ∉ s.todo := by
      intro hmem
      have hclose := (hwithin.closing he).1.subset hmem
      revert hclose
      decide
    have hunmade : s.Unmade .recordPid ↔ .recordPid ∈ s.left := by simp [Course.Unmade, htodo]
    rw [hunmade]
    exact hmeets.here
  | aborted => exact absurd he hstage

/-- Callbacks touch only a recorded child that has not been reaped exactly when
`reapSentry_` does not come to the child before `forkChildProcess` has recorded
it. -/
theorem touchesLive_iff (options : SentryOptions) {run : List (SentryEvent × SentryRun)}
    (hr : (system options).IsRun (start options) run) :
    System.Throughout TouchesLive (start options) run ↔
      System.Throughout ReapsRecorded (start options) run := by
  refine System.IsRun.throughout_iff (fun s event t hs hstep => ?_) (.of_init rfl) hr
  constructor
  · rintro h supervised rfl hsupervised
    obtain ⟨hstage, hwatched, -⟩ := next_callback.mp hstep
    have htarget : (Callback.reapSentry supervised).target s.data = some s.data.mPid := by
      cases humbilical : s.data.mUmbilicalProcess with
      | false => simp [Callback.target, humbilical]
      | true => simp [Callback.target, hsupervised humbilical]
    have hrecorded := (h _ _ rfl htarget).1
    exact fun hunmade => hrecorded (((watched_of_reachable hs hstage).done hwatched).1.mp hunmade)
  · rintro h callback pid rfl htarget
    obtain ⟨hstage, hwatched, -⟩ := next_callback.mp hstep
    have hi := watched_of_reachable hs hstage
    cases callback with
    | reapSentry supervised =>
      obtain ⟨hreaches, hpid⟩ := Option.ite_none_left_eq_some.mp htarget
      obtain rfl := Option.some.inj hpid
      have hsupervised : s.data.mUmbilicalProcess = true → supervised = true := by
        intro humbilical
        simpa [humbilical] using hreaches
      have hpid : s.data.mPid ≠ 0 := fun hzero =>
        h supervised rfl hsupervised ((hi.done hwatched).1.mpr hzero)
      exact ⟨hpid, (hi.done hwatched).2 hpid⟩
    | raiseSentrySignal =>
      obtain rfl := Option.some.inj htarget
      exact hi.signals hwatched
    | raiseSentryStop | raiseSentryResume =>
      obtain rfl := Option.some.inj htarget
      exact hi.stop hwatched
    | raiseSentrySigCont => cases htarget

/-- The child exits as soon as it has been forked, or an adopted child does. -/
theorem touches_unrecorded :
    ¬ ∀ (options : SentryOptions) (run : List (SentryEvent × SentryRun)),
      (system options).IsRun (start options) run →
      System.Throughout TouchesLive (start options) run := by
  intro h
  let run := System.run next (start ⟨true, true, false, false, false⟩)
    [.call .ok, .call .ok, .call .ok, .call .ok, .call .ok, .call .ok, .call (.forked 7),
      .callback (.reapSentry true)]
  have hh := h ⟨true, true, false, false, false⟩ run (System.isRun_run _ _ _ _)
  exact (hh.2.2.2.2.2.2.2.1 _ _ rfl rfl).1 rfl

theorem touchesLive_cleaned :
    let options : SentryOptions := ⟨true, false, false, false, false⟩
    let run := System.run next (start options)
      [.call .ok, .call .ok, .call .ok, .call .ok, .call .ok, .call .ok, .call (.forked 7),
        .call .ok, .callback (.reapSentry true), .call .ok, .call .ok, .call .ok, .call .ok,
        .callback .raiseSentryStop, .call .failed, .callback .raiseSentrySignal, .call .ok,
        .call .ok, .call .ok, .callback (.reapSentry true), .call .ok, .call .ok, .call .ok]
    System.Throughout TouchesLive (start options) run ↔
      System.Throughout ReapsRecorded (start options) run :=
  touchesLive_iff _ (System.isRun_run _ _ _ _)

end SentryRun

end PidSentry
