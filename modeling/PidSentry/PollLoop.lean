import PidSentry.Transition
import Mathlib.Tactic.ByContra
import Mathlib.Tactic.SplitIfs

/-! What the event loops of the sentry and of the umbilical use of libert:
poll entries, lap timers, and the results of the system calls made in their
callbacks. Times and periods are in nanoseconds. -/

namespace PidSentry

abbrev Pid := Int32

/-- How a callback ends: it returns 0, it returns -1, or an assertion of its
own ends the process. -/
inductive Rc
  | ok
  | error
  | abort
  deriving DecidableEq, Repr

/-- What a callback leaves behind: the structure it was given, how it ended,
and what it did outside of that structure. -/
structure Outcome (σ ε : Type) where
  self : σ
  rc : Rc
  effects : List ε

namespace Outcome

variable {σ ε : Type}

def ok (self : σ) : Outcome σ ε := ⟨self, .ok, []⟩

def error (self : σ) : Outcome σ ε := ⟨self, .error, []⟩

/-- A failed `ert_ensure` or `ERT_ABORT_IF`, or an invalid dereference. -/
def abort (self : σ) : Outcome σ ε := ⟨self, .abort, []⟩

def emit (self : σ) (effect : ε) : Outcome σ ε := ⟨self, .ok, [effect]⟩

@[simp] theorem ok_self (self : σ) : (ok self : Outcome σ ε).self = self := rfl
@[simp] theorem ok_rc (self : σ) : (ok self : Outcome σ ε).rc = .ok := rfl
@[simp] theorem ok_effects (self : σ) : (ok self : Outcome σ ε).effects = [] := rfl
@[simp] theorem error_self (self : σ) : (error self : Outcome σ ε).self = self := rfl
@[simp] theorem error_rc (self : σ) : (error self : Outcome σ ε).rc = .error := rfl
@[simp] theorem error_effects (self : σ) : (error self : Outcome σ ε).effects = [] := rfl
@[simp] theorem abort_self (self : σ) : (abort self : Outcome σ ε).self = self := rfl
@[simp] theorem abort_rc (self : σ) : (abort self : Outcome σ ε).rc = .abort := rfl
@[simp] theorem abort_effects (self : σ) : (abort self : Outcome σ ε).effects = [] := rfl
@[simp] theorem emit_self (self : σ) (effect : ε) : (emit self effect).self = self := rfl
@[simp] theorem emit_rc (self : σ) (effect : ε) : (emit self effect).rc = .ok := rfl
@[simp] theorem emit_effects (self : σ) (effect : ε) : (emit self effect).effects = [effect] := rfl

end Outcome

/-- The masks stored in `struct pollfd`; `none` is the zero mask. -/
inductive PollEvents
  | none
  | input
  | output
  | disconnect
  deriving DecidableEq, Repr

structure PollFd where
  fd : Int
  events : PollEvents
  deriving DecidableEq, Repr

def PollFd.armed (self : PollFd) : Bool := self.events != .none

def PollFd.disarmed : PollFd := ⟨-1, .none⟩

@[simp] theorem PollFd.armed_disarmed : PollFd.disarmed.armed = false := rfl

structure PollFdTimerAction where
  mSince : Int
  mPeriod : Nat
  deriving DecidableEq, Repr

namespace PollFdTimerAction

/-- The loop runs a timer at a poll time at or after `mSince + mPeriod`, and
never runs one whose period is zero. -/
def Due (self : PollFdTimerAction) (pollTime : Int) : Prop :=
  self.mPeriod ≠ 0 ∧ self.mSince + self.mPeriod ≤ pollTime

/-- Before it calls the action, the loop advances `mSince` by whole periods to
no later than the poll time. -/
def Laps (self : PollFdTimerAction) (laps : Nat) (pollTime : Int) : Prop :=
  self.Due pollTime ∧ 1 ≤ laps ∧ self.mSince + laps * self.mPeriod ≤ pollTime

def lap (self : PollFdTimerAction) (laps : Nat) : PollFdTimerAction :=
  { self with mSince := self.mSince + laps * self.mPeriod }

instance (self : PollFdTimerAction) (pollTime : Int) : Decidable (self.Due pollTime) :=
  inferInstanceAs (Decidable (_ ∧ _))

instance (self : PollFdTimerAction) (laps : Nat) (pollTime : Int) :
    Decidable (self.Laps laps pollTime) :=
  inferInstanceAs (Decidable (_ ∧ _))

@[simp] theorem lap_mPeriod (self : PollFdTimerAction) (laps : Nat) :
    (self.lap laps).mPeriod = self.mPeriod := rfl

end PollFdTimerAction

/-- The lap time functions, each taking `mSince` first and giving its new value. -/
structure LapTime where
  trigger : Int → Nat → Int → Int
  restart : Int → Int → Int
  delay : Int → Nat → Int

/-- Triggering a timer makes it due at once, restarting it starts a new period
at the given time, and delaying it moves its start. -/
structure LapTime.Lawful (lap : LapTime) : Prop where
  trigger_due : ∀ since period now, lap.trigger since period now + period ≤ now
  restart_eq : ∀ since now, lap.restart since now = now
  delay_eq : ∀ since delay, lap.delay since delay = since + delay

/-- Lap times kept on a clock that runs from before the first period. -/
def LapTime.monotonic : LapTime where
  trigger _ period now := now - period
  restart _ now := now
  delay since delay := since + delay

theorem LapTime.monotonic_lawful : LapTime.monotonic.Lawful where
  trigger_due since period now := by simp [monotonic]
  restart_eq _ _ := rfl
  delay_eq _ _ := rfl

/-- `ERT_NSECS(Ert_Seconds(...))` -/
def nsecs (seconds : Nat) : Nat := seconds * 1000000000

inductive ReadResult
  | byte (value : UInt8)
  | eof
  | eintr
  | econnreset
  | failed
  deriving DecidableEq, Repr

inductive WriteResult
  | written
  | epipe
  | eintr
  | ewouldblock
  | failed
  deriving DecidableEq, Repr

/-- `Ert_ChildProcessState`, with the two ways in which
`ert_monitorProcessChild` gives no state. -/
inductive ChildProcessState
  | running
  | stopped
  | trapped
  | exited
  | killed
  | dumped
  | echild
  | failed
  deriving DecidableEq, Repr

/-- The process still exists, if only as a zombie. -/
def ChildProcessState.exists (state : ChildProcessState) : Prop :=
  state ≠ .echild ∧ state ≠ .failed

instance (state : ChildProcessState) : Decidable state.exists :=
  inferInstanceAs (Decidable (_ ∧ _))

end PidSentry
