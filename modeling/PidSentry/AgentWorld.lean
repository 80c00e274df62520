import PidSentry.AgentRun
import PidSentry.ChildRun
import PidSentry.ProcessWorld

/-! The watchdog and the agent process that it has forked, among the other processes: the
parent pipe that ties the agent to the watchdog, the thread that ties the watchdog to its
parent (parentprocess.c), and the event loop of the sentry in the agent. Any of them can
be killed at any time. -/

namespace PidSentry

/-- `posted` is whether the agent has closed its write end of the parent pipe, as it does
before it runs `runAgentChildProcess_`; `monitor` is `monitorChildProcess` of its sentry. -/
structure AgentProcess where
  self : Forked
  posted : Bool
  monitor : Option ChildRun
  deriving DecidableEq, Repr

/-- `heirs` are the processes, other than the watchdog, that have had a write end of the
parent pipe from the fork that made them and have not closed it. -/
structure AgentWorld where
  table : ProcessTable Pid
  watchdog : Forked
  run : AgentRun
  agent : Option AgentProcess
  heirs : List Nat
  deriving DecidableEq, Repr

inductive AgentEvent
  | call (result : AgentResult)
  | callback (callback : AgentCallback)
  /-- The thread of the watchdog wakes up. -/
  | monitorParent
  | closePipeWriter
  | monitorChildProcess (childPid umbilicalPid : Pid) (tetherFd umbilicalFd parentFd start activity : Int)
  | monitor (event : ChildEvent)
  | other (act : ProcessAct Pid)
  deriving DecidableEq, Repr

def ChildEvent.isParent : ChildEvent → Bool
  | parent _ => true
  | _ => false

namespace AgentWorld

open AgentRun

/-- As `getppid` has it: a process without a parent has been adopted by init. -/
def parentId (t : ProcessTable Pid) (x : Process Pid) : Pid :=
  (x.parent.bind fun parent => t.processes.find? fun y => y.self = parent).elim 1 Process.number

def ownProcessParentId (s : AgentWorld) : Option Pid := (s.table.entry s.watchdog.pid).map (parentId s.table)

def watchdogAlive (s : AgentWorld) : Prop := s.table.Alive s.watchdog.self

instance (s : AgentWorld) : Decidable s.watchdogAlive := inferInstanceAs (Decidable (s.table.Alive _))

/-- Nobody is left that has a write end of the parent pipe open. -/
def HungUp (s : AgentWorld) : Prop :=
  ¬ (s.watchdogAlive ∧ holdsPipe s.run.data = true) ∧ ∀ self ∈ s.heirs, ¬ s.table.Alive self

instance (s : AgentWorld) : Decidable s.HungUp := inferInstanceAs (Decidable (_ ∧ _))

/-- A zombie of the watchdog's own. -/
def zombie (s : AgentWorld) (pid : Pid) : Bool :=
  (s.table.entry pid).any fun x => x.parent = some s.watchdog.self ∧ x.zombie

/-- What a call of the watchdog other than the fork does to the processes, if it can
return as it does. -/
def callTable (s : AgentWorld) : AgentCall → AgentResult → Option (ProcessTable Pid)
  | .createParentProcess, .parent parentPid _ =>
    if s.ownProcessParentId = some parentPid then some s.table else none
  | .waitProcessChild, .ok | .waitProcessChild, .dumped =>
    if s.zombie s.run.data.mAgentPid then some s.table else none
  | .reapProcessChild, .ok =>
    if s.zombie s.run.data.agentPid then s.table.act (.reap s.run.data.agentPid) else none
  | _, _ => some s.table

/-- The others are left to themselves. The number of init is never given away, the agent
forks nobody before it has closed its write end, and the watchdog reaps its own. -/
def permits (s : AgentWorld) : ProcessAct Pid → Bool
  | .fork parent number => 1 < number && (s.table.entry parent).all fun x =>
    x.self ≠ s.watchdog.self ∧ s.agent.all fun agent => agent.posted ∨ x.self ≠ agent.self.self
  | .setpgid .. | .exit _ => true
  | .reap number => (s.table.entry number).all fun x => x.parent ≠ some s.watchdog.self

/-- A process that is forked has the descriptors of its parent. -/
def inherits (s : AgentWorld) : ProcessAct Pid → List Nat
  | .fork parent _ =>
    if (s.table.entry parent).any fun x => x.self ∈ s.heirs then s.table.next :: s.heirs else s.heirs
  | _ => s.heirs

variable (lap : LapTime) (server : ServerOptions)

def next (s : AgentWorld) : AgentEvent → Option AgentWorld
  | .call result =>
    if s.watchdogAlive then (Course.next AgentCall.perform closeAgentProcess s.run result).bind fun run =>
      match s.run.todo, result with
      | .forkProcess :: _, .forked pid =>
        if 1 < pid then (s.table.act (.fork s.watchdog.pid pid)).map fun table => { s with
          table
          run
          agent := some ⟨⟨pid, s.table.next⟩, false, none⟩
          heirs := if holdsPipe s.run.data then s.table.next :: s.heirs else s.heirs }
        else none
      | call :: _, result => (s.callTable call result).map fun table => { s with table, run }
      | [], _ => some { s with run }
    else none
  | .callback callback =>
    if s.watchdogAlive ∧ s.run.stage ≠ .aborted ∧ callback.watcher ∈ s.run.data.watched then
      some (if (callback.raises s.run.data).isSome then s
        else { s with run := ⟨[], s.run.left, .aborted, s.run.data⟩ })
    else none
  | .monitorParent =>
    if s.watchdogAlive ∧ s.run.data.parentProcess.any ParentProcess.mThread then
      if s.ownProcessParentId = some 1 then
        (s.table.act (.exit s.watchdog.pid)).map fun table => { s with table }
      else some s
    else none
  | .closePipeWriter => s.agent.bind fun agent =>
    if s.table.Alive agent.self.self ∧ agent.posted = false then some { s with
      agent := some { agent with posted := true }
      heirs := s.heirs.filter (· ≠ agent.self.self) }
    else none
  | .monitorChildProcess childPid umbilicalPid tetherFd umbilicalFd parentFd start activity =>
    s.agent.bind fun agent =>
      if s.table.Alive agent.self.self ∧ agent.posted ∧ agent.monitor = none then some { s with
        agent := some { agent with monitor := some (.enter lap server childPid umbilicalPid tetherFd
          umbilicalFd (some parentFd) start activity) } }
      else none
  | .monitor event => s.agent.bind fun agent =>
    if s.table.Alive agent.self.self ∧ (event.isParent → s.HungUp) then
      agent.monitor.bind fun m => (m.next lap event).map fun m' =>
        { s with agent := some { agent with monitor := some m' } }
    else none
  | .other act =>
    if s.permits act then (s.table.act act).map fun table => { s with table, heirs := s.inherits act }
    else none

/-- Everything that a step can be. -/
inductive Steps (s : AgentWorld) : AgentEvent → AgentWorld → Prop
  | call {result : AgentResult} {call : AgentCall} {calls : List AgentCall} {run : AgentRun}
    {table : ProcessTable Pid} (halive : s.watchdogAlive) (htodo : s.run.todo = call :: calls)
    (hrun : Course.next AgentCall.perform closeAgentProcess s.run result = some run)
    (hforked : ∀ pid, call = .forkProcess → result ≠ .forked pid)
    (htable : s.callTable call result = some table) : Steps s (.call result) { s with table, run }
  | forks {pid : Pid} {calls : List AgentCall} {run : AgentRun} {table : ProcessTable Pid}
    (halive : s.watchdogAlive) (htodo : s.run.todo = .forkProcess :: calls)
    (hrun : Course.next AgentCall.perform closeAgentProcess s.run (.forked pid) = some run) (hpid : 1 < pid)
    (htable : s.table.act (.fork s.watchdog.pid pid) = some table) :
    Steps s (.call (.forked pid)) { s with
      table
      run
      agent := some ⟨⟨pid, s.table.next⟩, false, none⟩
      heirs := if holdsPipe s.run.data then s.table.next :: s.heirs else s.heirs }
  | returns {result : AgentResult} {run : AgentRun} (halive : s.watchdogAlive) (htodo : s.run.todo = [])
    (hrun : Course.next AgentCall.perform closeAgentProcess s.run result = some run) :
    Steps s (.call result) { s with run }
  | callback {callback : AgentCallback} (halive : s.watchdogAlive) (hstage : s.run.stage ≠ .aborted)
    (hwatched : callback.watcher ∈ s.run.data.watched) :
    Steps s (.callback callback) (if (callback.raises s.run.data).isSome then s
      else { s with run := ⟨[], s.run.left, .aborted, s.run.data⟩ })
  | wakes (halive : s.watchdogAlive) (hparent : s.ownProcessParentId ≠ some 1) : Steps s .monitorParent s
  | exits {table : ProcessTable Pid} (halive : s.watchdogAlive) (hparent : s.ownProcessParentId = some 1)
    (htable : s.table.act (.exit s.watchdog.pid) = some table) : Steps s .monitorParent { s with table }
  | posts {agent : AgentProcess} (hagent : s.agent = some agent) (halive : s.table.Alive agent.self.self)
    (hposted : agent.posted = false) :
    Steps s .closePipeWriter { s with
      agent := some { agent with posted := true }
      heirs := s.heirs.filter (· ≠ agent.self.self) }
  | enters {agent : AgentProcess} {childPid umbilicalPid : Pid}
    {tetherFd umbilicalFd parentFd start activity : Int}
    (hagent : s.agent = some agent) (hposted : agent.posted = true) (hnone : agent.monitor = none) :
    Steps s (.monitorChildProcess childPid umbilicalPid tetherFd umbilicalFd parentFd start activity)
      { s with agent := some { agent with monitor := some (.enter lap server childPid umbilicalPid tetherFd
        umbilicalFd (some parentFd) start activity) } }
  | monitors {event : ChildEvent} {agent : AgentProcess} {m m' : ChildRun} (hagent : s.agent = some agent)
    (halive : s.table.Alive agent.self.self) (hparent : event.isParent = true → s.HungUp)
    (hmonitor : agent.monitor = some m) (hnext : m.next lap event = some m') :
    Steps s (.monitor event) { s with agent := some { agent with monitor := some m' } }
  | other {act : ProcessAct Pid} {table : ProcessTable Pid} (hpermits : s.permits act = true)
    (htable : s.table.act act = some table) :
    Steps s (.other act) { s with table, heirs := s.inherits act }

/-- The watchdog has forked nobody. -/
structure Begins (mOrphaned : Bool) (s : AgentWorld) : Prop where
  table : s.table.Consistent
  parented : s.table.Parented
  numbers : ∀ x ∈ s.table.processes, 1 < x.number
  watchdog : ∃ x ∈ s.table.processes, x.number = s.watchdog.pid ∧ x.self = s.watchdog.self
  run : s.run = AgentRun.start mOrphaned
  agent : s.agent = none
  heirs : s.heirs = []

def system (mOrphaned : Bool) : System AgentWorld AgentEvent :=
  .ofNext (Begins mOrphaned) (next lap server)

variable {lap} {server} {s t : AgentWorld} {event : AgentEvent}

theorem steps_of_next (h : s.next lap server event = some t) : Steps lap server s event t := by
  cases event with
  | call result =>
    obtain ⟨halive, h⟩ := Option.ite_none_right_eq_some.mp h
    obtain ⟨run, hrun, h⟩ := Option.bind_eq_some_iff.mp h
    split at h
    · obtain ⟨hpid, h⟩ := Option.ite_none_right_eq_some.mp h
      obtain ⟨table, htable, rfl⟩ := Option.map_eq_some_iff.mp h
      exact .forks halive ‹_› hrun hpid htable
    · rename_i call calls htodo hnot _ _
      obtain ⟨table, htable, rfl⟩ := Option.map_eq_some_iff.mp h
      exact .call halive htodo hrun (fun pid hcall hresult => hnot pid hresult hcall) htable
    · obtain rfl := Option.some.inj h
      exact .returns halive ‹_› hrun
  | callback callback =>
    obtain ⟨⟨halive, hstage, hwatched⟩, h⟩ := Option.ite_none_right_eq_some.mp h
    obtain rfl := Option.some.inj h
    exact .callback halive hstage hwatched
  | monitorParent =>
    obtain ⟨⟨halive, -⟩, h⟩ := Option.ite_none_right_eq_some.mp h
    split_ifs at h with hparent
    · obtain ⟨table, htable, rfl⟩ := Option.map_eq_some_iff.mp h
      exact .exits halive hparent htable
    · obtain rfl := Option.some.inj h
      exact .wakes halive hparent
  | closePipeWriter =>
    obtain ⟨agent, hagent, h⟩ := Option.bind_eq_some_iff.mp h
    obtain ⟨⟨halive, hposted⟩, h⟩ := Option.ite_none_right_eq_some.mp h
    obtain rfl := Option.some.inj h
    exact .posts hagent halive hposted
  | monitorChildProcess =>
    obtain ⟨agent, hagent, h⟩ := Option.bind_eq_some_iff.mp h
    obtain ⟨⟨-, hposted, hnone⟩, h⟩ := Option.ite_none_right_eq_some.mp h
    obtain rfl := Option.some.inj h
    exact .enters hagent hposted hnone
  | monitor event =>
    obtain ⟨agent, hagent, h⟩ := Option.bind_eq_some_iff.mp h
    obtain ⟨⟨halive, hparent⟩, h⟩ := Option.ite_none_right_eq_some.mp h
    obtain ⟨m, hmonitor, h⟩ := Option.bind_eq_some_iff.mp h
    obtain ⟨m', hnext, rfl⟩ := Option.map_eq_some_iff.mp h
    exact .monitors hagent halive hparent hmonitor hnext
  | other act =>
    obtain ⟨hpermits, h⟩ := Option.ite_none_right_eq_some.mp h
    obtain ⟨table, htable, rfl⟩ := Option.map_eq_some_iff.mp h
    exact .other hpermits htable

end AgentWorld

end PidSentry
