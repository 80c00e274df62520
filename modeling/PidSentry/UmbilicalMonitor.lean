import PidSentry.PidServer

/-! The event loop of the umbilical process: `struct UmbilicalMonitor` of
umbilical.c, the callbacks of its poll entries, timer and echo latch. -/

namespace PidSentry

structure UmbilicalMonitor.Umbilical where
  mCycleCount : Nat
  mCycleLimit : Nat
  mParentPid : Pid
  mClosed : Bool
  deriving DecidableEq, Repr

structure UmbilicalMonitor.PollFds where
  umbilical : PollFd
  pidServer : PollFd
  pidClient : PollFd
  deriving DecidableEq, Repr

structure UmbilicalMonitor where
  mUmbilical : UmbilicalMonitor.Umbilical
  mPidServer : Option PidServer
  /-- The setting of `mLatch.mEchoRequest`. -/
  mEchoRequest : Bool
  mFds : UmbilicalMonitor.PollFds
  mTimer : PollFdTimerAction
  deriving DecidableEq, Repr

inductive UmbilicalEffect
  | echo
  | acknowledge (fd : Int)
  deriving DecidableEq, Repr

def PidServerEffect.umbilical : PidServerEffect → UmbilicalEffect
  | acknowledge fd => .acknowledge fd

namespace UmbilicalMonitor

abbrev Reply := Outcome UmbilicalMonitor UmbilicalEffect

def pollFdPidServer (self : UmbilicalMonitor) (euid : Nat) (calls : PidServerCalls)
    (peer : PidServerPeer) (fd : Int) : Reply :=
  match self.mPidServer with
  | none => .abort self
  | some server =>
    let accepted := server.acceptPidServerConnection euid calls peer fd
    let self := { self with mPidServer := some accepted.self }
    match accepted.rc with
    | .ok =>
      let self :=
        if self.mFds.pidClient.armed then self
        else { self with mFds.pidClient := ⟨server.mEventQueue, .input⟩ }
      ⟨self, .ok, accepted.effects.map PidServerEffect.umbilical⟩
    | .error => .error self
    | .abort => .abort self

def pollFdPidClient (self : UmbilicalMonitor) (gone : List PidServerClient) (polled : Bool) :
    Reply :=
  match self.mPidServer with
  | none => .abort self
  | some server =>
    let (server, rc) := server.cleanPidServer gone polled
    let self := { self with mPidServer := some server }
    if rc ≠ 0 then .ok { self with mFds.pidClient := .disarmed } else .ok self

/-- `shutdown` is whether `shutdown(2)` of the umbilical socket succeeds. -/
def closeFdUmbilical (self : UmbilicalMonitor) (shutdown : Bool) : Reply :=
  if shutdown then
    .ok { self with
      mFds.umbilical := .disarmed
      mFds.pidServer := .disarmed
      mTimer.mPeriod := 0 }
  else .abort self

/-- The start of the umbilical timer after activity: half a period out of phase
with the pings. -/
def restartTimer (lap : LapTime) (self : UmbilicalMonitor) (aPollTime : Int) : UmbilicalMonitor :=
  { self with
    mTimer.mSince := lap.delay (lap.trigger self.mTimer.mSince self.mTimer.mPeriod aPollTime)
      (self.mTimer.mPeriod / 2)
    mUmbilical.mCycleCount := 0 }

/-- A byte read from the umbilical; `latched` is whether the echo request can be
posted. -/
def pollFdMessage (lap : LapTime) (self : UmbilicalMonitor) (value : UInt8) (latched : Bool)
    (aPollTime : Int) : Reply :=
  if self.mUmbilical.mClosed then .abort self
  else if value = 0 then
    .ok ({ self with mUmbilical.mClosed := true }.restartTimer lap aPollTime)
  else if latched then
    .ok ({ self with mEchoRequest := true }.restartTimer lap aPollTime)
  else .error self

def pollFdUmbilical (lap : LapTime) (self : UmbilicalMonitor) (read : ReadResult)
    (shutdown latched : Bool) (aPollTime : Int) : Reply :=
  match read with
  | .failed => .error self
  | .eintr => .ok self
  | .eof | .econnreset => self.closeFdUmbilical shutdown
  | .byte value => self.pollFdMessage lap value latched aPollTime

/-- `stopped` is whether the sentry is found to be stopped. -/
def pollFdTimerUmbilical (self : UmbilicalMonitor) (stopped shutdown : Bool) : Reply :=
  if stopped then .ok { self with mUmbilical.mCycleCount := 0 }
  else
    let self := { self with mUmbilical.mCycleCount := self.mUmbilical.mCycleCount + 1 }
    if self.mUmbilical.mCycleLimit ≤ self.mUmbilical.mCycleCount then
      self.closeFdUmbilical shutdown
    else .ok self

def pollFdSendEcho (self : UmbilicalMonitor) (write : WriteResult) : Reply :=
  if self.mFds.umbilical.fd = -1 then .ok self
  else
    match write with
    | .written => .emit self .echo
    | .epipe => .ok self
    | .eintr | .ewouldblock | .failed => .error self

/-- The latches posted to the event pipe; one whose callback is interrupted
stays posted. `slept` is the delay of the race tests. -/
def pollFdEventPipe (self : UmbilicalMonitor) (slept : Bool) (write : WriteResult) : Reply :=
  if slept then .ok self
  else if self.mEchoRequest then
    let sent := { self with mEchoRequest := false }.pollFdSendEcho write
    match sent.rc, write with
    | .error, .eintr => .ok self
    | _, _ => sent
  else .ok self

def pollFdCompletion (self : UmbilicalMonitor) : Bool :=
  !self.mFds.umbilical.armed && !self.mFds.pidServer.armed && !self.mFds.pidClient.armed

def STDIN_FILENO : Int := 0

/-- The local `cycleLimit` of `createUmbilicalMonitor`. -/
def cycleLimit : Nat := 2

/-- The monitor that `createUmbilicalMonitor` sets up for the configured timeout
in seconds, with its timer taken to start at `start`. -/
def create (mUmbilical_s : Nat) (aStdinFd : Int) (aParentPid : Pid)
    (aPidServer : Option PidServer) (start : Int) : UmbilicalMonitor where
  mUmbilical := ⟨0, cycleLimit, aParentPid, false⟩
  mPidServer := aPidServer
  mEchoRequest := false
  mFds := {
    umbilical := ⟨aStdinFd, .input⟩
    pidServer := match aPidServer with
      | some server => ⟨server.mUnixSocket, .input⟩
      | none => .disarmed
    pidClient := .disarmed }
  mTimer := ⟨start, nsecs mUmbilical_s / cycleLimit⟩

/-- The clients that hold a reference to the child process group. -/
def clients (self : UmbilicalMonitor) : List PidServerClient :=
  match self.mPidServer with
  | some server => server.mClients
  | none => []

end UmbilicalMonitor

end PidSentry
