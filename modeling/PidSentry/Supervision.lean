import PidSentry.SentryRun
import PidSentry.TetherThread

/-! How the sentry gets to know what becomes of its child and of the umbilical process:
`superviseChildProcess` (childprocess.c), which `reapSentry_` calls on a SIGCHLD and the
sentry calls once it has recorded either of them, the event latches that it sets, and
`monitorChildProcess`, whose event loop polls the latches. -/

namespace PidSentry

def SIGQUIT : Nat := 3

inductive Role
  | umbilical
  | child
  deriving DecidableEq, Repr

/-- What `ert_monitorProcessChild` returns of a process that is there. -/
structure ProcessReport where
  mChildState : ChildProcessState
  mChildStatus : Nat
  there : mChildState.exists
  deriving DecidableEq, Repr

namespace ProcessReport

def running : ProcessReport := ⟨.running, 0, by decide⟩

def terminated (report : ProcessReport) : Bool :=
  report.mChildState = .exited || report.mChildState = .killed || report.mChildState = .dumped

def suspended (report : ProcessReport) : Bool :=
  report.mChildState = .stopped || report.mChildState = .trapped

/-- The sentry dumps core in sympathy. -/
def quits (report : ProcessReport) : Bool :=
  report.mChildState = .dumped && report.mChildStatus = SIGQUIT

theorem terminated_of_quits {report : ProcessReport} (h : report.quits = true) : report.terminated = true := by
  unfold quits at h
  unfold terminated
  simp_all

theorem running_or_suspended_or_terminated (report : ProcessReport) :
    report.mChildState = .running ∨ report.suspended = true ∨ report.terminated = true := by
  obtain ⟨mChildState, mChildStatus, there⟩ := report
  cases mChildState with
  | running => exact .inl rfl
  | stopped | trapped => exact .inr (.inl rfl)
  | exited | killed | dumped => exact .inr (.inr rfl)
  | echild => exact absurd rfl there.1
  | failed => exact absurd rfl there.2

theorem unsuspended_of_terminated {report : ProcessReport} (h : report.terminated = true) :
    report.suspended = false := by
  obtain ⟨mChildState, mChildStatus, there⟩ := report
  cases mChildState <;> first | rfl | cases h

end ProcessReport

/-- The setting of an event latch; one that is disabled cannot be set again. -/
inductive LatchSetting
  | off
  | on
  | disabled
  deriving DecidableEq, Repr

namespace LatchSetting

def set : LatchSetting → LatchSetting
  | disabled => disabled
  | off | on => on

/-- What `superviseChildProcess_` makes of the latch. -/
def supervised (latch : LatchSetting) (report : ProcessReport) : LatchSetting :=
  if report.mChildState = .running then latch.set
  else if report.suspended then latch
  else disabled

theorem supervised_eq_disabled {latch : LatchSetting} {report : ProcessReport}
    (h : latch.supervised report = disabled) : latch = disabled ∨ report.terminated = true := by
  unfold supervised at h
  split_ifs at h with hrunning hsuspended
  · cases latch with
    | disabled => exact .inl rfl
    | off | on => cases h
  · exact .inl h
  · exact .inr ((report.running_or_suspended_or_terminated.resolve_left hrunning).resolve_left hsuspended)

@[simp] theorem supervised_disabled (report : ProcessReport) : disabled.supervised report = disabled := by
  unfold supervised
  split_ifs <;> rfl

theorem supervised_ne_off {latch : LatchSetting} {report : ProcessReport}
    (h : latch ≠ off ∨ report.suspended = false) : latch.supervised report ≠ off := by
  unfold supervised
  split_ifs with hrunning hsuspended
  · cases latch <;> exact LatchSetting.noConfusion
  · exact h.resolve_right (by simp [hsuspended])
  · exact LatchSetting.noConfusion

theorem supervised_of_terminated (latch : LatchSetting) {report : ProcessReport}
    (h : report.terminated = true) : latch.supervised report = disabled := by
  unfold supervised
  split_ifs with hrunning hsuspended
  · simp [ProcessReport.terminated, hrunning] at h
  · rw [ProcessReport.unsuspended_of_terminated h] at hsuspended
    cases hsuspended
  · rfl

end LatchSetting

/-- `owed` is whether the event loop has yet to be told that the process has terminated,
or that it is running again. -/
structure Overseen where
  process : Option ProcessReport
  latch : LatchSetting
  owed : Bool
  deriving DecidableEq, Repr

namespace Overseen

def terminated (self : Overseen) : Bool := self.process.any ProcessReport.terminated

theorem terminated_iff {self : Overseen} : self.terminated = true ↔
    ∃ report, self.process = some report ∧ report.terminated = true := by
  simp [terminated, Option.any_eq_true]

def becomes (self : Overseen) (report : ProcessReport) : Overseen :=
  { self with process := some report, owed := !report.suspended }

def forked (self : Overseen) : Overseen := { self with process := some .running }

def supervised (self : Overseen) (report : ProcessReport) : Overseen :=
  { self with latch := self.latch.supervised report }

/-- The event loop polls the latch, and calls back with whether it is enabled. -/
def polled (self : Overseen) (aEnabled : Bool) : Option Overseen :=
  if aEnabled then
    if self.latch = .on then some { self with latch := .off, owed := self.owed && self.terminated }
    else none
  else if self.latch = .disabled then some { self with owed := false }
  else none

end Overseen

/-- Where `superviseChildProcess` is: before `ert_monitorProcessChild` of the one or the
other, or with its report before the latch is set or disabled. -/
inductive Supervising
  | monitoring (role : Role)
  | latching (role : Role) (report : ProcessReport)
  | quitting
  | returned (ok : Bool)
  deriving DecidableEq, Repr

/-- A watcher that has returned is done with, whatever it returns. -/
def Supervising.pending : Supervising → Option Supervising
  | returned _ => none
  | self => some self

/-- `sigchld` is whether a SIGCHLD is pending, `handler` is `reapSentry_` as a watcher
calls it, and `call` is `superviseChildProcess` as the sentry itself calls it. -/
structure Supervision where
  sentry : SentryRun
  overseen : Role → Overseen
  sigchld : Bool
  handler : Option Supervising
  call : Option Supervising
  monitor : Option MonitorRun
  quit : Bool

inductive SupervisionEvent
  | call (result : CallResult)
  | forkUmbilical
  | superviseChildProcess
  | supervise (ok : Bool)
  | sigchld
  | handle (ok : Bool)
  | quitProcess
  | monitorChildProcess (umbilicalPid : Pid) (tetherFd umbilicalFd : Int) (parentFd : Option Int)
    (start since : Int)
  | monitor (event : MonitorEvent)
  /-- One of the two stops, continues or terminates. -/
  | becomes (role : Role) (report : ProcessReport)
  /-- A SIGCHLD for any other process, such as one that was there before an exec -/
  | adopted
  deriving DecidableEq, Repr

/-- What the event loop is told by a callback of a latch. -/
def MonitorEvent.latched : MonitorEvent → Option (Role × Bool)
  | .child (.reapChild aEnabled _ _) => some (.child, aEnabled)
  | .child (.reapUmbilical aEnabled _) => some (.umbilical, aEnabled)
  | _ => none

namespace Supervision

def Live (s : Supervision) : Prop := s.quit = false ∧ s.sentry.stage ≠ .aborted

instance (s : Supervision) : Decidable s.Live := inferInstanceAs (Decidable (_ ∧ _))

def AtCall (s : Supervision) (call : SentryCall) : Prop := s.Live ∧ s.sentry.todo.head? = some call

instance (s : Supervision) (call : SentryCall) : Decidable (s.AtCall call) :=
  inferInstanceAs (Decidable (_ ∧ _))

def recorded (s : Supervision) : Role → Bool
  | .umbilical => s.sentry.data.mUmbilicalProcess
  | .child => s.sentry.data.mPid ≠ 0

/-- `reapSentry_` goes past the umbilical process for as long as it is not recorded. -/
def reapSentry (s : Supervision) : Supervising :=
  .monitoring (if s.recorded .umbilical then .umbilical else .child)

/-- `superviseChildProcess` is called by the sentry before it has an umbilical process,
and later by way of `reapSentry_`. -/
def supervising (s : Supervision) : SentryCall → Option Supervising
  | .superviseChildProcess => some (.monitoring .child)
  | .reapSentry => some s.reapSentry
  | _ => none

/-- A process whose pid has not been recorded cannot be monitored. -/
def advance (s : Supervision) (ok : Bool) : Supervising → Option Supervising
  | .monitoring role =>
    if !ok then some (.returned false)
    else if s.recorded role then (s.overseen role).process.map (.latching role)
    else none
  | .latching role report =>
    if !ok then some (.returned false)
    else if role = .umbilical then some (.monitoring .child)
    else if report.quits then some .quitting
    else some (.returned true)
  | .quitting | .returned _ => none

def latch (s : Supervision) (ok : Bool) : Supervising → Role → Overseen
  | .latching role report =>
    if ok then Function.update s.overseen role ((s.overseen role).supervised report) else s.overseen
  | _ => s.overseen

/-- A watcher that is being called is not removed until it has returned. -/
structure Permits (s : Supervision) (call : SentryCall) (result : CallResult) : Prop where
  supervises : call = .superviseChildProcess ∨ call = .reapSentry →
    s.call = some (.returned (result = .ok))
  forks : call = .createUmbilicalProcess → result = .ok → (s.overseen .umbilical).process ≠ none
  monitors : call = .monitorChildProcess →
    s.monitor.map MonitorRun.phase = some (.returned (if result = .ok then .ok else .error))
  unwatches : call = .unwatchJobControl .done ∨ call = .closeJobControl → s.handler = none
  reaps : call = .reapProcessChild ∨ call = .ifRecorded .reapProcessChild ∧ s.sentry.data.mPid ≠ 0 →
    result = .ok → (s.overseen .child).terminated = true

instance (s : Supervision) (call : SentryCall) (result : CallResult) : Decidable (s.Permits call result) :=
  decidable_of_iff
    ((call = .superviseChildProcess ∨ call = .reapSentry → s.call = some (.returned (result = .ok))) ∧
      (call = .createUmbilicalProcess → result = .ok → (s.overseen .umbilical).process ≠ none) ∧
      (call = .monitorChildProcess →
        s.monitor.map MonitorRun.phase = some (.returned (if result = .ok then .ok else .error))) ∧
      (call = .unwatchJobControl .done ∨ call = .closeJobControl → s.handler = none) ∧
      (call = .reapProcessChild ∨ call = .ifRecorded .reapProcessChild ∧ s.sentry.data.mPid ≠ 0 →
        result = .ok → (s.overseen .child).terminated = true))
    ⟨fun ⟨h₁, h₂, h₃, h₄, h₅⟩ => ⟨h₁, h₂, h₃, h₄, h₅⟩, fun ⟨h₁, h₂, h₃, h₄, h₅⟩ => ⟨h₁, h₂, h₃, h₄, h₅⟩⟩

/-- The child is there from the fork on. -/
def called (s : Supervision) (call : SentryCall) (result : CallResult) : Role → Overseen :=
  if call = .forkProcessChild ∧ result ≠ .failed then
    Function.update s.overseen .child (s.overseen .child).forked
  else s.overseen

def next (lap : LapTime) (server : ServerOptions) (mDrain_s : Nat) (useReadWrite : Bool)
    (s : Supervision) : SupervisionEvent → Option Supervision
  | .call result =>
    if s.quit then none
    else (s.sentry.next (.call result)).bind fun sentry => match s.sentry.todo with
      | [] => some { s with sentry }
      | call :: _ =>
        if s.Permits call result then
          some { s with sentry, overseen := s.called call result, call := none }
        else none
  | .forkUmbilical =>
    if s.AtCall .createUmbilicalProcess ∧ (s.overseen .umbilical).process = none then
      some { s with overseen := Function.update s.overseen .umbilical (s.overseen .umbilical).forked }
    else none
  | .superviseChildProcess =>
    if s.Live ∧ s.call = none then
      (s.sentry.todo.head?.bind s.supervising).map fun x => { s with call := some x }
    else none
  | .supervise ok =>
    if s.Live then s.call.bind fun x => (s.advance ok x).map fun y =>
      { s with call := some y, overseen := s.latch ok x }
    else none
  | .sigchld =>
    if s.Live ∧ s.sigchld ∧ s.handler = none ∧ .done ∈ s.sentry.data.watched then
      some { s with sigchld := false, handler := some s.reapSentry }
    else none
  | .handle ok =>
    if s.Live then s.handler.bind fun x => (s.advance ok x).map fun y =>
      { s with handler := y.pending, overseen := s.latch ok x }
    else none
  | .quitProcess =>
    if s.Live ∧ (s.handler = some .quitting ∨ s.call = some .quitting) then some { s with quit := true }
    else none
  | .monitorChildProcess umbilicalPid tetherFd umbilicalFd parentFd start since =>
    if s.AtCall .monitorChildProcess ∧ s.monitor = none then
      some { s with monitor := some (.enter lap server useReadWrite s.sentry.data.mPid umbilicalPid
        tetherFd umbilicalFd parentFd start since) }
    else none
  | .monitor event =>
    if s.AtCall .monitorChildProcess then s.monitor.bind fun m => (m.next lap mDrain_s event).bind fun m' =>
      match event.latched with
      | none => some { s with monitor := some m' }
      | some (role, aEnabled) => ((s.overseen role).polled aEnabled).map fun x =>
        { s with monitor := some m', overseen := Function.update s.overseen role x }
    else none
  | .becomes role report =>
    if (s.overseen role).process ≠ none ∧ (s.overseen role).terminated = false then
      let x := (s.overseen role).becomes report
      some { s with sigchld := true, overseen := Function.update s.overseen role x }
    else none
  | .adopted => some { s with sigchld := true }

def start (options : SentryOptions) : Supervision :=
  ⟨.start options, fun _ => ⟨none, .off, false⟩, false, none, none, none, false⟩

/-- Everything that a step can be. -/
inductive Steps (lap : LapTime) (server : ServerOptions) (mDrain_s : Nat) (useReadWrite : Bool)
    (s : Supervision) : SupervisionEvent → Supervision → Prop
  | returns {result : CallResult} {sentry : SentryRun} (htodo : s.sentry.todo = [])
    (hnext : s.sentry.next (.call result) = some sentry) :
    Steps lap server mDrain_s useReadWrite s (.call result) { s with sentry }
  | call {result : CallResult} {call : SentryCall} {calls : List SentryCall} {sentry : SentryRun}
    (htodo : s.sentry.todo = call :: calls) (hpermits : s.Permits call result)
    (hnext : s.sentry.next (.call result) = some sentry) :
    Steps lap server mDrain_s useReadWrite s (.call result)
      { s with sentry, overseen := s.called call result, call := none }
  | forkUmbilical (hcall : s.AtCall .createUmbilicalProcess)
    (hprocess : (s.overseen .umbilical).process = none) :
    Steps lap server mDrain_s useReadWrite s .forkUmbilical
      { s with overseen := Function.update s.overseen .umbilical (s.overseen .umbilical).forked }
  | enter {call : SentryCall} {x : Supervising} (hcall : s.call = none)
    (hhead : s.sentry.todo.head? = some call) (hx : s.supervising call = some x) :
    Steps lap server mDrain_s useReadWrite s .superviseChildProcess { s with call := some x }
  | supervise {ok : Bool} {x y : Supervising} (hcall : s.call = some x)
    (hadvance : s.advance ok x = some y) :
    Steps lap server mDrain_s useReadWrite s (.supervise ok) { s with call := some y, overseen := s.latch ok x }
  | sigchld (hlive : s.Live) (hhandler : s.handler = none) (hwatched : .done ∈ s.sentry.data.watched) :
    Steps lap server mDrain_s useReadWrite s .sigchld
      { s with sigchld := false, handler := some s.reapSentry }
  | handle {ok : Bool} {x y : Supervising} (hlive : s.Live) (hhandler : s.handler = some x)
    (hadvance : s.advance ok x = some y) :
    Steps lap server mDrain_s useReadWrite s (.handle ok)
      { s with handler := y.pending, overseen := s.latch ok x }
  | quitProcess (hquitting : s.handler = some .quitting ∨ s.call = some .quitting) :
    Steps lap server mDrain_s useReadWrite s .quitProcess { s with quit := true }
  | monitorChildProcess {umbilicalPid : Pid} {tetherFd umbilicalFd : Int} {parentFd : Option Int}
    {start since : Int} (hnone : s.monitor = none) :
    Steps lap server mDrain_s useReadWrite s
      (.monitorChildProcess umbilicalPid tetherFd umbilicalFd parentFd start since)
      { s with monitor := some (.enter lap server useReadWrite s.sentry.data.mPid umbilicalPid
        tetherFd umbilicalFd parentFd start since) }
  | monitor {event : MonitorEvent} {m m' : MonitorRun} (hm : s.monitor = some m)
    (hnext : m.next lap mDrain_s event = some m') (hlatched : event.latched = none) :
    Steps lap server mDrain_s useReadWrite s (.monitor event) { s with monitor := some m' }
  | told {event : MonitorEvent} {m m' : MonitorRun} {role : Role} {aEnabled : Bool} {x : Overseen}
    (hm : s.monitor = some m) (hnext : m.next lap mDrain_s event = some m')
    (hlatched : event.latched = some (role, aEnabled)) (hx : (s.overseen role).polled aEnabled = some x) :
    Steps lap server mDrain_s useReadWrite s (.monitor event)
      { s with monitor := some m', overseen := Function.update s.overseen role x }
  | becomes {role : Role} {report : ProcessReport} (hprocess : (s.overseen role).process ≠ none)
    (halive : (s.overseen role).terminated = false) :
    Steps lap server mDrain_s useReadWrite s (.becomes role report)
      { s with
        sigchld := true
        overseen := Function.update s.overseen role ((s.overseen role).becomes report) }
  | adopted : Steps lap server mDrain_s useReadWrite s .adopted { s with sigchld := true }

theorem steps_of_next {lap : LapTime} {server : ServerOptions} {mDrain_s : Nat} {useReadWrite : Bool}
    {s t : Supervision} {event : SupervisionEvent}
    (h : s.next lap server mDrain_s useReadWrite event = some t) :
    Steps lap server mDrain_s useReadWrite s event t := by
  cases event with
  | call result =>
    obtain ⟨-, h⟩ := Option.ite_none_left_eq_some.mp h
    obtain ⟨sentry, hnext, h⟩ := Option.bind_eq_some_iff.mp h
    cases htodo : s.sentry.todo with
    | nil =>
      rw [htodo] at h
      obtain rfl := Option.some.inj h
      exact .returns htodo hnext
    | cons call calls =>
      rw [htodo] at h
      obtain ⟨hpermits, h⟩ := Option.ite_none_right_eq_some.mp h
      obtain rfl := Option.some.inj h
      exact .call htodo hpermits hnext
  | forkUmbilical =>
    obtain ⟨⟨hcall, hprocess⟩, h⟩ := Option.ite_none_right_eq_some.mp h
    obtain rfl := Option.some.inj h
    exact .forkUmbilical hcall hprocess
  | superviseChildProcess =>
    obtain ⟨⟨-, hcall⟩, h⟩ := Option.ite_none_right_eq_some.mp h
    obtain ⟨x, hx, rfl⟩ := Option.map_eq_some_iff.mp h
    obtain ⟨call, hhead, hx⟩ := Option.bind_eq_some_iff.mp hx
    exact .enter hcall hhead hx
  | supervise ok =>
    obtain ⟨-, h⟩ := Option.ite_none_right_eq_some.mp h
    obtain ⟨x, hcall, h⟩ := Option.bind_eq_some_iff.mp h
    obtain ⟨y, hadvance, rfl⟩ := Option.map_eq_some_iff.mp h
    exact .supervise hcall hadvance
  | sigchld =>
    obtain ⟨⟨hlive, -, hhandler, hwatched⟩, h⟩ := Option.ite_none_right_eq_some.mp h
    obtain rfl := Option.some.inj h
    exact .sigchld hlive hhandler hwatched
  | handle ok =>
    obtain ⟨hlive, h⟩ := Option.ite_none_right_eq_some.mp h
    obtain ⟨x, hhandler, h⟩ := Option.bind_eq_some_iff.mp h
    obtain ⟨y, hadvance, rfl⟩ := Option.map_eq_some_iff.mp h
    exact .handle hlive hhandler hadvance
  | quitProcess =>
    obtain ⟨⟨-, hquitting⟩, h⟩ := Option.ite_none_right_eq_some.mp h
    obtain rfl := Option.some.inj h
    exact .quitProcess hquitting
  | monitorChildProcess umbilicalPid tetherFd umbilicalFd parentFd start since =>
    obtain ⟨⟨-, hnone⟩, h⟩ := Option.ite_none_right_eq_some.mp h
    obtain rfl := Option.some.inj h
    exact .monitorChildProcess hnone
  | monitor event =>
    obtain ⟨-, h⟩ := Option.ite_none_right_eq_some.mp h
    obtain ⟨m, hm, h⟩ := Option.bind_eq_some_iff.mp h
    obtain ⟨m', hnext, h⟩ := Option.bind_eq_some_iff.mp h
    cases hlatched : event.latched with
    | none =>
      rw [hlatched] at h
      obtain rfl := Option.some.inj h
      exact .monitor hm hnext hlatched
    | some latched =>
      obtain ⟨role, aEnabled⟩ := latched
      rw [hlatched] at h
      obtain ⟨x, hx, rfl⟩ := Option.map_eq_some_iff.mp h
      exact .told hm hnext hlatched hx
  | becomes role report =>
    obtain ⟨⟨hprocess, halive⟩, h⟩ := Option.ite_none_right_eq_some.mp h
    obtain rfl := Option.some.inj h
    exact .becomes hprocess halive
  | adopted =>
    obtain rfl := Option.some.inj h
    exact .adopted

variable (lap : LapTime) (options : SentryOptions) (server : ServerOptions) (mDrain_s : Nat)
  (useReadWrite : Bool)

def system : System Supervision SupervisionEvent :=
  .ofNext (· = start options) (next lap server mDrain_s useReadWrite)

/-- As long as the pid of a process has been recorded, supervising it succeeds. -/
def Reliable (s : Supervision) (event : SupervisionEvent) : Prop :=
  event = .handle false → s.handler = some (.monitoring .child) ∧ s.sentry.data.mPid = 0

instance (s : Supervision) (event : SupervisionEvent) : Decidable (s.Reliable event) :=
  inferInstanceAs (Decidable (_ → _))

def reliable : System Supervision SupervisionEvent :=
  .ofNext (· = start options) fun s event =>
    if s.Reliable event then s.next lap server mDrain_s useReadWrite event else none

end Supervision

end PidSentry
