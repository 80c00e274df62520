import PidSentry.ChildMonitor

/-! Runs of the sentry's event loop: the callbacks in any order in which the
poll entries and timers allow them, next to the tether thread. -/

namespace PidSentry

inductive TerminationCause
  | parent
  | umbilical
  | tether
  deriving DecidableEq, Repr

def TerminationCause.action : TerminationCause → ChildTerminationAction
  | .parent | .umbilical => .terminate
  | .tether => .abort

/-- Each callback with the results of its system calls and the poll time, and
for a timer the number of periods by which the loop advances it beforehand. -/
inductive ChildEvent
  /-- The tether thread records activity in `pollFdDrain_`. -/
  | tetherActivity (time : Int)
  | tether
  | umbilical (read : ReadResult) (pollTime : Int)
  | parent (pollTime : Int)
  | reapChild (enabled flushed : Bool) (pollTime : Int)
  | reapUmbilical (enabled : Bool) (pollTime : Int)
  | cont (pollTime : Int)
  | timerTether (laps : Nat) (state : ChildProcessState) (pollTime : Int)
  | timerUmbilical (laps : Nat) (state : ChildProcessState) (write : WriteResult) (pollTime : Int)
  | timerTermination (laps : Nat) (killed : Bool) (pollTime : Int)
  | timerChild (laps : Nat) (pinged : Bool) (pollTime : Int)
  deriving DecidableEq, Repr

structure ChildRun where
  monitor : ChildMonitor
  /-- `mActivity.mSince` of the tether thread -/
  activity : Int
  /-- How the last callback ended; the loop goes on only after `ok`. -/
  rc : Rc
  signals : List Nat
  cause : Option TerminationCause
  deriving DecidableEq, Repr

namespace ChildEvent

def Ready (monitor : ChildMonitor) : ChildEvent → Prop
  | tetherActivity _ | reapChild .. | reapUmbilical .. | cont _ => True
  | tether => monitor.mPollFds.tether.armed
  | umbilical .. => monitor.mPollFds.umbilical.armed
  | parent _ => monitor.mPollFds.parent.armed
  | timerTether laps _ pollTime => monitor.mTimers.tether.Laps laps pollTime
  | timerUmbilical laps _ _ pollTime => monitor.mTimers.umbilical.Laps laps pollTime
  | timerTermination laps _ pollTime => monitor.mTimers.termination.Laps laps pollTime
  | timerChild laps _ pollTime => monitor.mTimers.disconnection.Laps laps pollTime

instance (monitor : ChildMonitor) (event : ChildEvent) : Decidable (event.Ready monitor) := by
  cases event <;> unfold Ready <;> infer_instance

def reply (lap : LapTime) (monitor : ChildMonitor) (activity : Int) :
    ChildEvent → ChildMonitor.Reply
  | tetherActivity _ => .ok monitor
  | tether => monitor.pollFdTether
  | umbilical read pollTime => monitor.pollFdUmbilical lap read pollTime
  | parent pollTime => monitor.pollFdParent lap pollTime
  | reapChild enabled flushed pollTime => monitor.pollFdReapChildEvent lap enabled flushed pollTime
  | reapUmbilical enabled pollTime => monitor.pollFdReapUmbilicalEvent lap enabled pollTime
  | cont pollTime => monitor.pollFdContUmbilical lap pollTime
  | timerTether laps state pollTime =>
    { monitor with mTimers.tether := monitor.mTimers.tether.lap laps }.pollFdTimerTether lap
      state activity pollTime
  | timerUmbilical laps state write pollTime =>
    { monitor with mTimers.umbilical := monitor.mTimers.umbilical.lap laps }.pollFdTimerUmbilical
      lap state write pollTime
  | timerTermination laps killed _ =>
    { monitor with mTimers.termination := monitor.mTimers.termination.lap laps }.pollFdTimerTermination
      killed
  | timerChild laps pinged _ =>
    { monitor with mTimers.disconnection := monitor.mTimers.disconnection.lap laps }.pollFdTimerChild
      pinged

/-- The cause for which an event activates the termination plan, if it does. -/
def cause : ChildEvent → Option TerminationCause
  | parent _ => some .parent
  | umbilical .. | timerUmbilical .. => some .umbilical
  | timerTether .. => some .tether
  | _ => none

def pollTime : ChildEvent → Option Int
  | tetherActivity _ | tether => none
  | umbilical _ pollTime | parent pollTime | reapChild _ _ pollTime | reapUmbilical _ pollTime
  | cont pollTime | timerTether _ _ pollTime | timerUmbilical _ _ _ pollTime
  | timerTermination _ _ pollTime | timerChild _ _ pollTime => some pollTime

def recorded (activity : Int) : ChildEvent → Int
  | tetherActivity time => time
  | _ => activity

end ChildEvent

def ChildEffect.signalled : ChildEffect → Option Nat
  | signal plan => some plan.mSig
  | _ => none

namespace ChildRun

def after (lap : LapTime) (s : ChildRun) (event : ChildEvent) : ChildRun :=
  let reply := event.reply lap s.monitor s.activity
  { monitor := reply.self
    activity := event.recorded s.activity
    rc := reply.rc
    signals := s.signals ++ reply.effects.filterMap ChildEffect.signalled
    cause :=
      if s.monitor.mTermination.mSignalPlan = none ∧
          reply.self.mTermination.mSignalPlan ≠ none then event.cause
      else s.cause }

def next (lap : LapTime) (s : ChildRun) (event : ChildEvent) : Option ChildRun :=
  if s.rc = .ok ∧ event.Ready s.monitor then some (s.after lap event) else none

theorem next_eq_some {lap : LapTime} {s t : ChildRun} {event : ChildEvent} :
    s.next lap event = some t ↔
      (s.rc = .ok ∧ event.Ready s.monitor) ∧ s.after lap event = t := by
  unfold next
  split <;> simp_all

/-- The loop as `monitorChildProcess` enters it, with its lap timers taken to
start at `start` and the last tether activity at `activity`. -/
def enter (lap : LapTime) (options : ServerOptions) (childPid umbilicalPid : Pid)
    (tetherFd umbilicalFd : Int) (parentFd : Option Int) (start activity : Int) : ChildRun where
  monitor := .create lap options childPid umbilicalPid tetherFd umbilicalFd parentFd start
  activity := activity
  rc := .ok
  signals := []
  cause := none

def Start (lap : LapTime) (options : ServerOptions) (s : ChildRun) : Prop :=
  ∃ childPid umbilicalPid tetherFd umbilicalFd parentFd start activity,
    s = enter lap options childPid umbilicalPid tetherFd umbilicalFd parentFd start activity

def system (lap : LapTime) (options : ServerOptions) : System ChildRun ChildEvent :=
  .ofNext (Start lap options) (next lap)

end ChildRun

end PidSentry
