import PidSentry.PollLoop

/-! The event loop of the sentry: `struct ChildMonitor` of childprocess.c, the
callbacks of its poll entries, timers and event latches, and its initial state. -/

namespace PidSentry

def SIGABRT : Nat := 6
def SIGKILL : Nat := 9
def SIGTERM : Nat := 15

inductive ChildTerminationAction
  | terminate
  | abort
  deriving DecidableEq, Repr

structure ChildSignalPlan where
  mPid : Pid
  mSig : Nat
  deriving DecidableEq, Repr

structure ChildMonitor.Termination where
  /-- Null, or the plan from the entry pointed at to the end of its array. -/
  mSignalPlan : Option (List ChildSignalPlan)
  mSignalPeriod : Nat
  deriving DecidableEq, Repr

structure ChildMonitor.Umbilical where
  mPid : Pid
  mPreempt : Bool
  mCycleCount : Nat
  mCycleLimit : Nat
  deriving DecidableEq, Repr

structure ChildMonitor.Tether where
  mCycleCount : Nat
  mCycleLimit : Nat
  deriving DecidableEq, Repr

structure ChildMonitor.Event where
  mChildLatchDisabled : Bool
  mUmbilicalLatchDisabled : Bool
  deriving DecidableEq, Repr

structure ChildMonitor.PollFds where
  tether : PollFd
  umbilical : PollFd
  parent : PollFd
  deriving DecidableEq, Repr

structure ChildMonitor.TimerActions where
  tether : PollFdTimerAction
  umbilical : PollFdTimerAction
  termination : PollFdTimerAction
  disconnection : PollFdTimerAction
  deriving DecidableEq, Repr

structure ChildMonitor where
  mChildPid : Pid
  mTermination : ChildMonitor.Termination
  mUmbilical : ChildMonitor.Umbilical
  mTether : ChildMonitor.Tether
  mEvent : ChildMonitor.Event
  mPollFds : ChildMonitor.PollFds
  mTimers : ChildMonitor.TimerActions
  deriving DecidableEq, Repr

inductive ChildEffect
  | ping
  | signal (plan : ChildSignalPlan)
  | flushTether
  | pingTether
  deriving DecidableEq, Repr

/-- The part of `gOptions.mServer` that the monitor reads. -/
structure ServerOptions where
  mTether : Bool
  mTether_s : Nat
  mUmbilical_s : Nat
  mSignal_s : Nat
  deriving DecidableEq, Repr

namespace ChildMonitor

abbrev Reply := Outcome ChildMonitor ChildEffect

/-- The arrays of `mSignalPlans`, with their terminating entry. -/
def mSignalPlans (self : ChildMonitor) : ChildTerminationAction → List ChildSignalPlan
  | .terminate => [⟨self.mChildPid, SIGTERM⟩, ⟨self.mChildPid, SIGKILL⟩, ⟨0, 0⟩]
  | .abort => [⟨self.mChildPid, SIGABRT⟩, ⟨self.mChildPid, SIGKILL⟩, ⟨0, 0⟩]

def activateFdTimerTermination (lap : LapTime) (self : ChildMonitor)
    (aAction : ChildTerminationAction) (aPollTime : Int) : Reply :=
  let self := { self with mTimers.tether.mPeriod := 0 }
  if self.mTimers.termination.mPeriod = 0 then
    if self.mTermination.mSignalPlan = none then
      .ok { self with
        mTermination.mSignalPlan := some (self.mSignalPlans aAction)
        mTimers.termination.mPeriod := self.mTermination.mSignalPeriod
        mTimers.termination.mSince := lap.trigger self.mTimers.termination.mSince
          self.mTermination.mSignalPeriod aPollTime }
    else .abort self
  else .ok self

section activateFdTimerTermination

variable (lap : LapTime) (self : ChildMonitor) (aAction : ChildTerminationAction) (aPollTime : Int)

theorem activateFdTimerTermination_tether :
    (self.activateFdTimerTermination lap aAction aPollTime).self.mTimers.tether.mPeriod = 0 := by
  unfold activateFdTimerTermination
  dsimp only
  split_ifs <;> rfl

@[simp] theorem activateFdTimerTermination_mTether :
    (self.activateFdTimerTermination lap aAction aPollTime).self.mTether = self.mTether := by
  unfold activateFdTimerTermination
  dsimp only
  split_ifs <;> rfl

@[simp] theorem activateFdTimerTermination_mUmbilical :
    (self.activateFdTimerTermination lap aAction aPollTime).self.mUmbilical = self.mUmbilical := by
  unfold activateFdTimerTermination
  dsimp only
  split_ifs <;> rfl

@[simp] theorem activateFdTimerTermination_umbilical :
    (self.activateFdTimerTermination lap aAction aPollTime).self.mTimers.umbilical =
      self.mTimers.umbilical := by
  unfold activateFdTimerTermination
  dsimp only
  split_ifs <;> rfl

@[simp] theorem activateFdTimerTermination_mPollFds :
    (self.activateFdTimerTermination lap aAction aPollTime).self.mPollFds = self.mPollFds := by
  unfold activateFdTimerTermination
  dsimp only
  split_ifs <;> rfl

@[simp] theorem activateFdTimerTermination_effects :
    (self.activateFdTimerTermination lap aAction aPollTime).effects = [] := by
  unfold activateFdTimerTermination
  dsimp only
  split_ifs <;> rfl

end activateFdTimerTermination

/-- `killed` is whether `kill(2)` succeeds. Reading `mSignalPlan[1]` needs a
second entry, which may be the terminating one. -/
def pollFdTimerTermination (self : ChildMonitor) (killed : Bool) : Reply :=
  match self.mTermination.mSignalPlan with
  | some (plan :: next :: rest) =>
    let self :=
      if next.mSig ≠ 0 then { self with mTermination.mSignalPlan := some (next :: rest) }
      else self
    if killed then .emit self (.signal plan) else .error self
  | _ => .abort self

def pollFdParent (lap : LapTime) (self : ChildMonitor) (aPollTime : Int) : Reply :=
  activateFdTimerTermination lap { self with mPollFds.parent := .disarmed } .terminate aPollTime

def restartFdTimerUmbilical (lap : LapTime) (self : ChildMonitor) (aPollTime : Int) : Reply :=
  if self.mUmbilical.mCycleCount ≠ self.mUmbilical.mCycleLimit then
    if self.mUmbilical.mCycleCount < self.mUmbilical.mCycleLimit then
      .ok { self with
        mUmbilical.mCycleCount := 0
        mTimers.umbilical.mSince := lap.restart self.mTimers.umbilical.mSince aPollTime }
    else .abort self
  else .ok self

def pollFdCloseUmbilical (lap : LapTime) (self : ChildMonitor) (aPollTime : Int) : Reply :=
  activateFdTimerTermination lap
    { self with mPollFds.umbilical := .disarmed, mTimers.umbilical.mPeriod := 0 }
    .terminate aPollTime

/-- The echo that `pollFdUmbilical_` reads. -/
def pollFdEcho (lap : LapTime) (self : ChildMonitor) (aPollTime : Int) : Reply :=
  if self.mUmbilical.mCycleCount < self.mUmbilical.mCycleLimit then
    if self.mUmbilical.mPreempt = false then
      .ok { self with
        mUmbilical.mCycleCount := self.mUmbilical.mCycleLimit
        mTimers.umbilical.mSince := lap.restart self.mTimers.umbilical.mSince aPollTime }
    else
      .ok { self with
        mUmbilical.mCycleCount := self.mUmbilical.mCycleLimit
        mUmbilical.mPreempt := false
        mTimers.umbilical.mSince := lap.trigger self.mTimers.umbilical.mSince
          self.mTimers.umbilical.mPeriod aPollTime }
  else .abort self

def pollFdUmbilical (lap : LapTime) (self : ChildMonitor) (read : ReadResult)
    (aPollTime : Int) : Reply :=
  if self.mPollFds.umbilical.armed then
    match read with
    | .failed => .error self
    | .eintr => .ok self
    | .eof | .econnreset => pollFdCloseUmbilical lap self aPollTime
    | .byte _ => pollFdEcho lap self aPollTime
  else .abort self

def pollFdWriteUmbilical (self : ChildMonitor) (write : WriteResult) : Reply :=
  if self.mUmbilical.mCycleCount = self.mUmbilical.mCycleLimit then
    match write with
    | .written => .emit { self with mUmbilical.mCycleCount := 0 } .ping
    | _ => .error self
  else .abort self

/-- Latch `mUmbilical`; `aEnabled` is false once the process has terminated. -/
def pollFdReapUmbilicalEvent (lap : LapTime) (self : ChildMonitor) (aEnabled : Bool)
    (aPollTime : Int) : Reply :=
  if aEnabled then restartFdTimerUmbilical lap self aPollTime
  else .ok { self with mEvent.mUmbilicalLatchDisabled := true }

def pollFdContUmbilical (lap : LapTime) (self : ChildMonitor) (aPollTime : Int) : Reply :=
  if self.mUmbilical.mCycleCount ≠ self.mUmbilical.mCycleLimit then
    .ok { self with
      mTimers.umbilical.mSince := lap.trigger self.mTimers.umbilical.mSince
        self.mTimers.umbilical.mPeriod aPollTime }
  else .ok { self with mUmbilical.mPreempt := true }

/-- The branch of `pollFdTimerUmbilical_` that waits for an echo; `state` is
what `ert_monitorProcessChild` reports of the umbilical process. -/
def pollFdTimeoutUmbilical (lap : LapTime) (self : ChildMonitor) (state : ChildProcessState)
    (aPollTime : Int) : Reply :=
  match state with
  | .failed => .error self
  | .echild => .ok self
  | .trapped | .stopped => .ok { self with mUmbilical.mCycleCount := 0 }
  | .running | .exited | .killed | .dumped =>
    let self := { self with mUmbilical.mCycleCount := self.mUmbilical.mCycleCount + 1 }
    if self.mUmbilical.mCycleCount = self.mUmbilical.mCycleLimit then
      pollFdCloseUmbilical lap self aPollTime
    else .ok self

def pollFdTimerUmbilical (lap : LapTime) (self : ChildMonitor) (state : ChildProcessState)
    (write : WriteResult) (aPollTime : Int) : Reply :=
  if self.mUmbilical.mCycleCount ≠ self.mUmbilical.mCycleLimit then
    if self.mUmbilical.mCycleCount < self.mUmbilical.mCycleLimit then
      pollFdTimeoutUmbilical lap self state aPollTime
    else .abort self
  else
    let wrErr := pollFdWriteUmbilical self write
    match write with
    | .written | .failed => wrErr
    | .ewouldblock => .ok wrErr.self
    | .epipe => pollFdCloseUmbilical lap wrErr.self aPollTime
    | .eintr =>
      -- the loop must not block here, so the write is left to the next pass
      let self := wrErr.self
      .ok { self with
        mTimers.umbilical.mSince := lap.trigger self.mTimers.umbilical.mSince
          self.mTimers.umbilical.mPeriod aPollTime }

def pollFdTether (self : ChildMonitor) : Reply :=
  .ok { self with mPollFds.tether := .disarmed }

def restartFdTimerTether (lap : LapTime) (self : ChildMonitor) (aPollTime : Int) : Reply :=
  if self.mTimers.tether.mPeriod ≠ 0 then
    .ok { self with
      mTether.mCycleCount := 0
      mTimers.tether.mSince := lap.restart self.mTimers.tether.mSince aPollTime }
  else .ok self

/-- `since` is the `mActivity.mSince` that the tether thread recorded last. -/
def pollFdTimerTether (lap : LapTime) (self : ChildMonitor) (state : ChildProcessState)
    (since aPollTime : Int) : Reply :=
  match state with
  | .failed => .error self
  | .echild => activateFdTimerTermination lap self .abort aPollTime
  | .trapped | .stopped => .ok { self with mTether.mCycleCount := 0 }
  | .running | .exited | .killed | .dumped =>
    if aPollTime < since + self.mTimers.tether.mPeriod then
      .ok { self with
        mTimers.tether.mSince := lap.restart self.mTimers.tether.mSince since
        mTether.mCycleCount := 0 }
    else if self.mTether.mCycleCount + 1 < self.mTether.mCycleLimit then
      .ok { self with mTether.mCycleCount := self.mTether.mCycleCount + 1 }
    else
      activateFdTimerTermination lap
        { self with mTether.mCycleCount := self.mTether.mCycleLimit } .abort aPollTime

/-- Latch `mChild`; `flushed` is whether `flushTetherThread` succeeds. -/
def pollFdReapChildEvent (lap : LapTime) (self : ChildMonitor) (aEnabled flushed : Bool)
    (aPollTime : Int) : Reply :=
  if aEnabled then restartFdTimerTether lap self aPollTime
  else
    let self := { self with mEvent.mChildLatchDisabled := true }
    if flushed then .emit { self with mTimers.disconnection.mPeriod := nsecs 1 } .flushTether
    else .error self

def pollFdTimerChild (self : ChildMonitor) (pinged : Bool) : Reply :=
  if pinged then .emit self .pingTether else .error self

/-- Number of periods in a timeout: `timeoutCycles` in `monitorChildProcess`. -/
def timeoutCycles : Nat := 2

/-- The monitor that `monitorChildProcess` sets up, with its lap timers taken
to start at `start`. -/
def create (lap : LapTime) (options : ServerOptions) (childPid umbilicalPid : Pid)
    (tetherFd umbilicalFd : Int) (parentFd : Option Int) (start : Int) : ChildMonitor where
  mChildPid := childPid
  mTermination := ⟨none, nsecs options.mSignal_s⟩
  mUmbilical := ⟨umbilicalPid, false, timeoutCycles, timeoutCycles⟩
  mTether := ⟨0, timeoutCycles⟩
  mEvent := ⟨false, false⟩
  mPollFds := {
    parent := match parentFd with
      | some fd => ⟨fd, .disconnect⟩
      | none => .disarmed
    umbilical := ⟨umbilicalFd, .input⟩
    tether := if options.mTether then ⟨tetherFd, .disconnect⟩ else .disarmed }
  mTimers := {
    tether := ⟨start, nsecs (if options.mTether then options.mTether_s else 0) / timeoutCycles⟩
    umbilical := ⟨lap.trigger start (nsecs options.mUmbilical_s / 2) start,
      nsecs options.mUmbilical_s / 2⟩
    termination := ⟨start, 0⟩
    disconnection := ⟨start, 0⟩ }

end ChildMonitor

end PidSentry
