import PidSentry.SentryRun

/-! The calls that `runAgentProcess_` makes from `ert_createJobControl` to
`ert_closeJobControl` (agent.c), as the watchdog of an agent process that it forks, and
the signal watchers that can be called between any two of them. -/

namespace PidSentry

def SIGCONT : Nat := 18
def SIGTSTP : Nat := 20

/-- The calls in the order of the source. `createPipe` and `fillFdSets` are those of
`prepareAgentChildProcessFork_`, `forkProcess` the fork itself, and `closePipeReader` what
`ert_forkProcessChild` does in the watchdog after that. -/
inductive AgentCall
  | createJobControl
  | createParentProcess
  | createAgentChildProcess
  | createPipe
  | fillFdSets
  | forkProcess
  | closePipeReader
  | recordAgentPid
  | watchJobControl (watcher : Watcher)
  | waitProcessChild
  | unwatchJobControl (watcher : Watcher)
  | clearAgentPid
  | reapProcessChild
  | closeAgentChildProcess
  | closeParentProcess
  | closeJobControl
  deriving DecidableEq, Repr

/-- `mOrphaned` is that of `gOptions.mServer`. -/
def runAgentProcess (mOrphaned : Bool) : List AgentCall :=
  .flatten
    [[.createJobControl],
      if mOrphaned then [.createParentProcess] else [],
      [.createAgentChildProcess, .createPipe, .fillFdSets, .forkProcess, .closePipeReader,
        .recordAgentPid, .watchJobControl .signals, .watchJobControl .stop, .waitProcessChild,
        .unwatchJobControl .stop, .unwatchJobControl .signals, .clearAgentPid, .reapProcessChild]]

def closeAgentProcess : List AgentCall :=
  [.closeAgentChildProcess, .closeParentProcess, .closeJobControl]

/-- `mThread` is whether there is a thread that runs `monitorParent_`. -/
structure ParentProcess where
  mParentPid : Pid
  mThread : Bool
  deriving DecidableEq, Repr

/-- The ends of a pipe that a process has open. -/
structure PipeEnds where
  mRdFile : Bool
  mWrFile : Bool
  deriving DecidableEq, Repr

/-- `agentPid` is the local one, and `reaped` whether the agent has been reaped. -/
structure AgentData where
  mAgentPid : Pid
  agentPid : Pid
  reaped : Bool
  parentProcess : Option ParentProcess
  mParentPipe : Option PipeEnds
  watched : List Watcher
  deriving DecidableEq, Repr

/-- `parent` has what `ert_ownProcessParentId` returns and whether `ert_createThread`
succeeds, and `dumped` is for an agent that has dumped core on SIGQUIT. -/
inductive AgentResult
  | ok
  | parent (parentPid : Pid) (mThread : Bool)
  | forked (agentPid : Pid)
  | dumped
  | failed
  deriving DecidableEq, Repr

namespace AgentCall

def effect (d : AgentData) : AgentCall → AgentData
  | createPipe => { d with mParentPipe := some ⟨true, true⟩ }
  | closePipeReader => { d with mParentPipe := d.mParentPipe.map fun pipe => { pipe with mRdFile := false } }
  | recordAgentPid => { d with mAgentPid := d.agentPid }
  | watchJobControl watcher => { d with watched := watcher :: d.watched }
  | unwatchJobControl watcher => { d with watched := d.watched.filter (· ≠ watcher) }
  | clearAgentPid => { d with agentPid := d.mAgentPid, mAgentPid := 0 }
  | reapProcessChild => { d with reaped := true }
  | closeAgentChildProcess => { d with mParentPipe := none }
  | closeParentProcess => { d with parentProcess := none }
  | closeJobControl => { d with watched := [] }
  | _ => d

/-- The calls that come before there is an agent only. -/
def forks : AgentCall → Bool
  | createPipe | forkProcess => true
  | _ => false

/-- How a call that cannot be made ends, if that can be. -/
def failure (d : AgentData) : AgentCall → Option Ending
  | createParentProcess | createAgentChildProcess | recordAgentPid | clearAgentPid
  | closeAgentChildProcess | closeJobControl => none
  | closeParentProcess => d.parentProcess.map fun _ => .aborts
  | _ => some .fails

/-- `createParentProcess` looks neither at its thread nor at whether init is a parent
that has adopted the watchdog. The watchdog quits in sympathy with its agent. -/
def perform (call : AgentCall) (result : AgentResult) (d : AgentData) : Option (Ending × AgentData) :=
  match call, result with
  | createParentProcess, .parent parentPid mThread =>
    some (.goesOn, { d with parentProcess := some ⟨if parentPid = 1 then 0 else parentPid, mThread⟩ })
  | forkProcess, .forked agentPid =>
    if 0 < agentPid then some (.goesOn, { d with agentPid }) else none
  | waitProcessChild, .dumped => some (.aborts, d)
  | createParentProcess, .ok | forkProcess, .ok => none
  | call, .ok => some (.goesOn, call.effect d)
  | watchJobControl watcher, .failed => some (.fails, (watchJobControl watcher).effect d)
  | call, .failed => (call.failure d).map fun ending => (ending, d)
  | _, .parent .. | _, .forked _ | _, .dumped => none

end AgentCall

/-- What the watchers send to the agent, unless their assertion fails. -/
def raiseAgent (self : AgentData) (aSigNum : Nat) : Option (Pid × Nat) :=
  if self.mAgentPid ≠ 0 then some (self.mAgentPid, aSigNum) else none

def raiseAgentSignal (self : AgentData) (aSigNum : Nat) : Option (Pid × Nat) := raiseAgent self aSigNum
def raiseAgentStop (self : AgentData) : Option (Pid × Nat) := raiseAgent self SIGTSTP
def raiseAgentResume (self : AgentData) : Option (Pid × Nat) := raiseAgent self SIGCONT

inductive AgentCallback
  | raiseAgentSignal (aSigNum : Nat)
  | raiseAgentStop
  | raiseAgentResume
  deriving DecidableEq, Repr

namespace AgentCallback

def watcher : AgentCallback → Watcher
  | raiseAgentSignal _ => .signals
  | raiseAgentStop | raiseAgentResume => .stop

def raises (d : AgentData) : AgentCallback → Option (Pid × Nat)
  | raiseAgentSignal aSigNum => PidSentry.raiseAgentSignal d aSigNum
  | raiseAgentStop => PidSentry.raiseAgentStop d
  | raiseAgentResume => PidSentry.raiseAgentResume d

theorem raises_eq (callback : AgentCallback) (d : AgentData) : ∃ aSigNum,
    callback.raises d = raiseAgent d aSigNum := by
  cases callback with
  | raiseAgentSignal aSigNum => exact ⟨aSigNum, rfl⟩
  | raiseAgentStop => exact ⟨SIGTSTP, rfl⟩
  | raiseAgentResume => exact ⟨SIGCONT, rfl⟩

end AgentCallback

abbrev AgentRun := Course AgentCall AgentData

namespace AgentRun

open AgentCall

def start (mOrphaned : Bool) : AgentRun :=
  Course.start (runAgentProcess mOrphaned) ⟨0, 0, false, none, none, []⟩

/-- The watchdog has the write end of the parent pipe open. -/
def holdsPipe (d : AgentData) : Bool := d.mParentPipe.any PipeEnds.mWrFile

structure Unforked (d : AgentData) : Prop where
  mAgentPid : d.mAgentPid = 0
  agentPid : d.agentPid = 0
  reaped : d.reaped = false
  watched : d.watched = []

/-- The agent that is recorded is the one that was forked, and has not been reaped. -/
structure RecordsAgent (d : AgentData) : Prop where
  mAgentPid : d.mAgentPid ≠ 0
  agentPid : d.agentPid = d.mAgentPid
  reaped : d.reaped = false

theorem RecordsAgent.congr {d d' : AgentData} (hd : RecordsAgent d) (hmAgentPid : d'.mAgentPid = d.mAgentPid)
    (hagentPid : d'.agentPid = d.agentPid) (hreaped : d'.reaped = d.reaped) : RecordsAgent d' := by
  refine ⟨?_, ?_, hreaped.trans hd.reaped⟩
  · rw [hmAgentPid]
    exact hd.mAgentPid
  · rw [hagentPid, hmAgentPid]
    exact hd.agentPid

/-- What the watchers and the calls to come rely on. -/
structure Ready (rest : List AgentCall) (d : AgentData) : Prop where
  watched : d.watched ≠ [] → RecordsAgent d
  pipe : d.agentPid ≠ 0 → holdsPipe d = true
  forks : ∀ call ∈ rest.head?, call.forks = true → Unforked d
  clears : rest.head? = some .clearAgentPid → RecordsAgent d

/-- What a call that fails leaves to the cleanup, and what comes of it. -/
structure Leaves (_ : List AgentCall) (d : AgentData) : Prop where
  watched : d.watched ≠ [] → RecordsAgent d
  pipe : d.agentPid ≠ 0 → holdsPipe d = true

structure Closes (rest : List AgentCall) (d : AgentData) : Prop where
  watched : d.watched ≠ [] → RecordsAgent d
  pipe : .closeAgentChildProcess ∈ rest → d.agentPid ≠ 0 → holdsPipe d = true
  closed : .closeAgentChildProcess ∉ rest → holdsPipe d = false

variable {call : AgentCall} {rest : List AgentCall} {result : AgentResult} {ending : Ending} {d d' : AgentData}

theorem Unforked.ready (hd : Unforked d) (hrest : rest.head? ≠ some .clearAgentPid) : Ready rest d :=
  ⟨fun h => absurd hd.watched h, fun h => absurd hd.agentPid h, fun _ _ _ => hd, fun h => absurd h hrest⟩

theorem RecordsAgent.ready (hd : RecordsAgent d) (hpipe : holdsPipe d = true)
    (hrest : ∀ call ∈ rest.head?, call.forks = false) : Ready rest d :=
  ⟨fun _ => hd, fun _ => hpipe, fun call hcall h => absurd h (Bool.eq_false_iff.mp (hrest call hcall)),
    fun _ => hd⟩

theorem ready_of_unwatched (hd : d.watched = []) (hpipe : holdsPipe d = true)
    (hforks : ∀ call ∈ rest.head?, call.forks = false) (hclears : rest.head? ≠ some .clearAgentPid) :
    Ready rest d :=
  ⟨fun h => absurd hd h, fun _ => hpipe,
    fun call hcall h => absurd h (Bool.eq_false_iff.mp (hforks call hcall)), fun h => absurd h hclears⟩

theorem leaves_of_unwatched (hd : d.watched = []) (hpipe : holdsPipe d = true) : Leaves rest d :=
  ⟨fun h => absurd hd h, fun _ => hpipe⟩

theorem Unforked.leaves (hd : Unforked d) : Leaves rest d :=
  ⟨fun h => absurd hd.watched h, fun h => absurd hd.agentPid h⟩

theorem RecordsAgent.leaves (hd : RecordsAgent d) (hpipe : holdsPipe d = true) : Leaves rest d :=
  ⟨fun _ => hd, fun _ => hpipe⟩

theorem perform_cases (h : call.perform result d = some (ending, d')) :
    d' = d ∨ d' = call.effect d ∨ (∃ parentProcess, d' = { d with parentProcess }) ∨
      call = .forkProcess ∧ ∃ agentPid, result = .forked agentPid ∧ d' = { d with agentPid } := by
  unfold perform at h
  split at h
  · cases h
    exact .inr (.inr (.inl ⟨_, rfl⟩))
  · obtain ⟨-, h⟩ := Option.ite_none_right_eq_some.mp h
    cases h
    exact .inr (.inr (.inr ⟨rfl, _, rfl, rfl⟩))
  · cases h
    exact .inl rfl
  · cases h
  · cases h
  · cases h
    exact .inr (.inl rfl)
  · cases h
    exact .inr (.inl rfl)
  · obtain ⟨failure, -, he⟩ := Option.map_eq_some_iff.mp h
    cases he
    exact .inl rfl
  · cases h
  · cases h
  · cases h

/-- The agent of the watchdog is the same from the fork on. -/
theorem agentPid_of_perform (h : call.perform result d = some (ending, d'))
    (hforks : ∀ agentPid, call = .forkProcess → result ≠ .forked agentPid)
    (hclears : call = .clearAgentPid → RecordsAgent d) : d'.agentPid = d.agentPid := by
  rcases perform_cases h with rfl | rfl | ⟨parentProcess, rfl⟩ | ⟨hcall, agentPid, hresult, -⟩
  · rfl
  · cases call with
    | clearAgentPid => exact (hclears rfl).agentPid.symm
    | _ => rfl
  · rfl
  · exact absurd hresult (hforks agentPid hcall)

theorem reaped_of_perform (h : call.perform result d = some (ending, d')) (hd : d'.reaped = false) :
    d.reaped = false ∧ (call = .reapProcessChild → result ≠ .ok) := by
  constructor
  · rcases perform_cases h with rfl | rfl | ⟨parentProcess, rfl⟩ | ⟨hcall, agentPid, hresult, rfl⟩
    · exact hd
    · cases call with
      | reapProcessChild => cases hd
      | _ => exact hd
    · exact hd
    · exact hd
  · rintro rfl rfl
    cases h
    cases hd

/-- The parent pipe is opened by `prepareAgentChildProcessFork_` only. -/
theorem holdsPipe_of_perform (h : call.perform result d = some (ending, d')) (hcall : call ≠ .createPipe)
    (hd : holdsPipe d' = true) : holdsPipe d = true := by
  rcases perform_cases h with rfl | rfl | ⟨parentProcess, rfl⟩ | ⟨-, agentPid, -, rfl⟩
  · exact hd
  · cases call with
    | createPipe => exact absurd rfl hcall
    | closePipeReader =>
      obtain ⟨pipe, hpipe, hholds⟩ := (Option.any_eq_true _ _).mp hd
      obtain ⟨opened, hopened, rfl⟩ := Option.map_eq_some_iff.mp hpipe
      exact (Option.any_eq_true _ _).mpr ⟨opened, hopened, hholds⟩
    | closeAgentChildProcess => cases hd
    | _ => exact hd
  · exact hd
  · exact hd

/-- The calls before the parent pipe. -/
def beforePipe (mOrphaned : Bool) : List AgentCall :=
  .createJobControl :: ((if mOrphaned then [.createParentProcess] else []) ++ [.createAgentChildProcess])

def watching : List AgentCall := [.watchJobControl .signals, .watchJobControl .stop, .waitProcessChild]

def unwatched : List Watcher := [.stop, .signals]

theorem runAgentProcess_eq (mOrphaned : Bool) : runAgentProcess mOrphaned = beforePipe mOrphaned ++
    .createPipe :: .fillFdSets :: .forkProcess :: .closePipeReader :: .recordAgentPid ::
      (watching ++ (unwatched.map .unwatchJobControl ++ [.clearAgentPid, .reapProcessChild])) := by
  simp [runAgentProcess, beforePipe, watching, unwatched]

theorem reap_outline (hd : d.watched = []) (hpipe : holdsPipe d = true) :
    Outline perform Ready Leaves [.reapProcessChild] d := by
  refine ⟨ready_of_unwatched hd hpipe (by simp [forks]) (by simp), fun result ending d' h => ?_⟩
  cases result with
  | ok =>
    cases h
    exact ⟨fun _ => ready_of_unwatched hd hpipe (by simp [forks]) (by simp), Ending.noConfusion⟩
  | failed =>
    cases h
    exact ⟨Ending.noConfusion, fun _ => leaves_of_unwatched hd hpipe⟩
  | parent | forked | dumped => cases h

theorem clear_outline (hd : RecordsAgent d) (hwatched : d.watched = []) (hpipe : holdsPipe d = true) :
    Outline perform Ready Leaves [.clearAgentPid, .reapProcessChild] d := by
  refine ⟨hd.ready hpipe (by simp [forks]), fun result ending d' h => ?_⟩
  cases result with
  | ok =>
    cases h
    exact ⟨fun _ => reap_outline hwatched hpipe, Ending.noConfusion⟩
  | parent | forked | dumped | failed => cases h

theorem unwatch_outline {watchers : List Watcher} (hd : RecordsAgent d) (hwatched : d.watched ⊆ watchers)
    (hpipe : holdsPipe d = true) : Outline perform Ready Leaves
      (watchers.map .unwatchJobControl ++ [.clearAgentPid, .reapProcessChild]) d := by
  induction watchers generalizing d with
  | nil => exact clear_outline hd (List.subset_nil.mp hwatched) hpipe
  | cons watcher watchers ih =>
    refine ⟨hd.ready hpipe (by simp [forks]), fun result ending d' h => ?_⟩
    cases result with
    | ok =>
      cases h
      refine ⟨fun _ => ih (hd.congr rfl rfl rfl) (fun other hother => ?_) hpipe,
        Ending.noConfusion⟩
      obtain ⟨hmem, hne⟩ := List.mem_filter.mp hother
      exact (List.mem_cons.mp (hwatched hmem)).resolve_left (of_decide_eq_true hne)
    | failed =>
      cases h
      exact ⟨Ending.noConfusion, fun _ => hd.leaves hpipe⟩
    | parent | forked | dumped => cases h

/-- The agent is recorded while the watchers are installed, and while it is waited for. -/
structure Watching (d : AgentData) : Prop extends RecordsAgent d where
  pipe : holdsPipe d = true
  watched : d.watched ⊆ unwatched

theorem Watching.perform (hd : Watching d) (hcall : call ∈ watching)
    (h : call.perform result d = some (ending, d')) : Watching d' := by
  have hwatch : ∀ watcher ∈ unwatched,
      Watching ((AgentCall.watchJobControl watcher).effect d) := fun watcher hwatcher =>
    ⟨hd.toRecordsAgent.congr rfl rfl rfl, hd.pipe, List.cons_subset.mpr ⟨hwatcher, hd.watched⟩⟩
  simp only [watching, List.mem_cons, List.not_mem_nil, or_false] at hcall
  rcases hcall with rfl | rfl | rfl <;> cases result <;> cases h
  · exact hwatch .signals (by decide)
  · exact hwatch .signals (by decide)
  · exact hwatch .stop (by decide)
  · exact hwatch .stop (by decide)
  · exact hd
  · exact hd
  · exact hd

theorem watching_outline (hd : Watching d) : Outline perform Ready Leaves
    (watching ++ (unwatched.map .unwatchJobControl ++ [.clearAgentPid, .reapProcessChild])) d := by
  refine Outline.append (J := Watching) (fun rest hrest d hd => ?_)
    (fun rest _ d hd => hd.toRecordsAgent.leaves hd.pipe)
    (fun call hcall result ending d d' hd h => hd.perform hcall h)
    (fun d hd => unwatch_outline hd.toRecordsAgent hd.watched hd.pipe) hd
  refine hd.ready hd.pipe fun call hcall => ?_
  cases rest with
  | nil =>
    obtain rfl := Option.mem_some_iff.mp hcall
    rfl
  | cons other rest =>
    obtain rfl := Option.mem_some_iff.mp hcall
    have hwatching : ∀ call ∈ watching, call.forks = false := by decide
    exact hwatching other (hrest.subset List.mem_cons_self)

theorem record_outline (hpid : d.agentPid ≠ 0) (hreaped : d.reaped = false)
    (hwatched : d.watched = []) (hpipe : holdsPipe d = true) : Outline perform Ready Leaves
      (.recordAgentPid ::
        (watching ++ (unwatched.map .unwatchJobControl ++ [.clearAgentPid, .reapProcessChild]))) d := by
  refine ⟨ready_of_unwatched hwatched hpipe (by simp [forks]) (by simp), fun result ending d' h => ?_⟩
  cases result with
  | ok =>
    cases h
    refine ⟨fun _ => watching_outline ⟨⟨hpid, rfl, hreaped⟩, hpipe, ?_⟩, Ending.noConfusion⟩
    exact hwatched.symm ▸ List.nil_subset _
  | parent | forked | dumped | failed => cases h

theorem fork_outline (hd : Unforked d) (hpipe : holdsPipe d = true) : Outline perform Ready Leaves
    (.forkProcess :: .closePipeReader :: .recordAgentPid ::
      (watching ++ (unwatched.map .unwatchJobControl ++ [.clearAgentPid, .reapProcessChild]))) d := by
  refine ⟨hd.ready (by simp), fun result ending d' h => ?_⟩
  cases result with
  | forked agentPid =>
    obtain ⟨hpid, h⟩ := Option.ite_none_right_eq_some.mp h
    cases h
    have hne : agentPid ≠ 0 := by
      rintro rfl
      exact absurd hpid (by decide)
    refine ⟨fun _ => ⟨ready_of_unwatched hd.watched hpipe (by simp [forks]) (by simp),
      fun result ending d' h => ?_⟩, Ending.noConfusion⟩
    cases result with
    | ok =>
      cases h
      refine ⟨fun _ => record_outline hne hd.reaped hd.watched ?_, Ending.noConfusion⟩
      obtain ⟨pipe, hpipe, hholds⟩ := (Option.any_eq_true _ _).mp hpipe
      simp [effect, holdsPipe, hpipe, hholds]
    | failed =>
      cases h
      exact ⟨Ending.noConfusion, fun _ => leaves_of_unwatched hd.watched hpipe⟩
    | parent | forked | dumped => cases h
  | failed =>
    cases h
    exact ⟨Ending.noConfusion, fun _ => hd.leaves⟩
  | ok | parent | dumped => cases h

theorem Unforked.perform (hd : Unforked d) {mOrphaned : Bool} (hcall : call ∈ beforePipe mOrphaned)
    (h : call.perform result d = some (ending, d')) : Unforked d' := by
  have hcalls : call = .createJobControl ∨ call = .createParentProcess ∨ call = .createAgentChildProcess := by
    cases mOrphaned <;> simp [beforePipe] at hcall <;> tauto
  rcases hcalls with rfl | rfl | rfl <;> cases result <;> cases h
  · exact hd
  · exact hd
  · exact ⟨hd.mAgentPid, hd.agentPid, hd.reaped, hd.watched⟩
  · exact hd

theorem runAgentProcess_outline (mOrphaned : Bool) :
    Outline perform Ready Leaves (runAgentProcess mOrphaned) (start mOrphaned).data := by
  rw [runAgentProcess_eq]
  refine Outline.append (J := Unforked) (fun rest hrest d hd => hd.ready ?_)
    (fun rest _ d hd => hd.leaves) (fun call hcall result ending d d' hd h => hd.perform hcall h)
    (fun d hd => ?_) ⟨rfl, rfl, rfl, rfl⟩
  · cases rest with
    | nil => simp
    | cons call rest =>
      have hmem : call ∈ beforePipe mOrphaned := hrest.subset List.mem_cons_self
      rintro ⟨⟩
      cases mOrphaned <;> simp [beforePipe] at hmem
  · refine ⟨hd.ready (by simp), fun result ending d' h => ?_⟩
    cases result with
    | ok =>
      cases h
      have hd' : Unforked (AgentCall.createPipe.effect d) := ⟨hd.mAgentPid, hd.agentPid, hd.reaped, hd.watched⟩
      refine ⟨fun _ => ⟨hd'.ready (by simp), fun result ending d'' h => ?_⟩, Ending.noConfusion⟩
      cases result with
      | ok =>
        cases h
        exact ⟨fun _ => fork_outline hd' rfl, Ending.noConfusion⟩
      | failed =>
        cases h
        exact ⟨Ending.noConfusion, fun _ => hd'.leaves⟩
      | parent | forked | dumped => cases h
    | failed =>
      cases h
      exact ⟨Ending.noConfusion, fun _ => hd.leaves⟩
    | parent | forked | dumped => cases h

/-- The parent pipe is closed before anything else can come to an abort. -/
theorem closeAgentProcess_outline (hd : Leaves rest d) :
    Outline perform Closes (fun _ _ => True) closeAgentProcess d := by
  refine ⟨⟨hd.watched, fun _ => hd.pipe, fun h => absurd List.mem_cons_self h⟩,
    fun result ending d' h => ⟨fun _ => ?_, fun _ => trivial⟩⟩
  cases result with
  | ok =>
    cases h
    refine ⟨⟨fun hne => (hd.watched hne).congr rfl rfl rfl, by simp, fun _ => rfl⟩,
      fun result ending d' h => ⟨fun _ => ?_, fun _ => trivial⟩⟩
    have hclosed : d'.watched = d.watched ∧ holdsPipe d' = false ∧ (RecordsAgent d → RecordsAgent d') := by
      cases result with
      | ok =>
        cases h
        exact ⟨rfl, rfl, fun hd => hd.congr rfl rfl rfl⟩
      | failed =>
        obtain ⟨failure, -, he⟩ := Option.map_eq_some_iff.mp h
        cases he
        exact ⟨rfl, rfl, fun hd => hd.congr rfl rfl rfl⟩
      | parent | forked | dumped => cases h
    obtain ⟨hwatched, hclosed, hrecorded⟩ := hclosed
    refine ⟨⟨fun hne => hrecorded (hd.watched (hwatched ▸ hne)), by simp, fun _ => hclosed⟩,
      fun result ending d'' h => ⟨fun _ => ?_, fun _ => trivial⟩⟩
    cases result with
    | ok =>
      cases h
      exact ⟨fun hne => absurd rfl hne, by simp, fun _ => hclosed⟩
    | parent | forked | dumped | failed => cases h
  | parent | forked | dumped | failed => cases h

end AgentRun

end PidSentry
