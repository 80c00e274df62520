import PidSentry.ChildRun
import PidSentry.TetherCopy

/-! `monitorChildProcess` (childprocess.c) with the tether thread that it creates, tells
to come to an end and joins (tether.c). The thread takes part by its own event loop, the
control pipe and the state that both lock. -/

namespace PidSentry

inductive TetherThreadState
  | stopped
  | running
  | stopping
  deriving DecidableEq, Repr

/-- Where the thread is in `tetherThreadMain_`. It has replaced the tether and its end of
the control pipe by the null pipe once it is `emptied`. -/
inductive ThreadPhase
  | absent
  | created
  | looping
  | emptied
  | returned (rc : Rc)
  deriving DecidableEq, Repr

/-- `requested` is whether the control pipe holds the request to flush. -/
structure TetherThread where
  mState : TetherThreadState
  mFlushed : Bool
  requested : Bool
  phase : ThreadPhase
  run : TetherRun
  deriving DecidableEq, Repr

def TetherThread.controlClosed (self : TetherThread) : Bool :=
  self.phase = .emptied || self.phase = .returned .ok

/-- Where `monitorChildProcess` is: `leaving` leads to `closeTetherThread`, which first
has its assertions met and then joins the thread. -/
inductive MonitorPhase
  | begun
  | creating
  | created
  | looping
  | leaving (rc : Rc)
  | joining (rc : Rc)
  | returned (rc : Rc)
  | aborted
  deriving DecidableEq, Repr

structure MonitorRun where
  phase : MonitorPhase
  child : ChildRun
  thread : TetherThread
  deriving DecidableEq, Repr

inductive MonitorEvent
  /-- `ert_createThread`, or a failure up to it -/
  | createThread (ok : Bool)
  | threadStarts
  /-- `createTetherThread` finds the thread running. -/
  | threadCreated
  /-- The rest up to `ert_runPollFdLoop` -/
  | createMonitor (ok : Bool)
  | child (event : ChildEvent)
  | thread (event : TetherEvent)
  | threadEmptied
  | threadFails
  | completes
  | fails
  | closeTetherThread
  | threadReturns
  | threadJoined
  deriving DecidableEq, Repr

/-- The loop of the sentry is complete. -/
def ChildMonitor.pollFdCompletion (self : ChildMonitor) : Bool :=
  self.mEvent.mChildLatchDisabled && !self.mPollFds.tether.armed

namespace MonitorRun

/-- `flushTetherThread` writes its request unless the thread has closed the pipe. -/
def flushed (self : TetherThread) : TetherThread :=
  { self with mFlushed := true, requested := self.requested || !self.controlClosed }

/-- What a callback of the sentry does to the thread. -/
def told (self : TetherThread) : ChildEvent → TetherThread
  | .reapChild false true _ => flushed self
  | _ => self

/-- The poll entry of the tether is ready when the thread has closed the control pipe. -/
def permitsChild (s : MonitorRun) : ChildEvent → Bool
  | .tether => s.thread.controlClosed
  | .tetherActivity _ => false
  | _ => true

/-- The child writes to the tether for as long as the thread has not closed it. -/
def permitsThread (s : MonitorRun) : TetherEvent → Bool
  | .write _ | .closeWriters => !s.thread.controlClosed
  | .poll ready => s.thread.phase = .looping && (!ready.control || s.thread.requested)
  | .control read => s.thread.phase = .looping && (!read || s.thread.requested)
  | .drain .. | .timerDisconnected => s.thread.phase = .looping

def taken (self : TetherThread) : TetherEvent → TetherThread
  | .control true => { self with requested := false }
  | _ => self

def next (lap : LapTime) (mDrain_s : Nat) (s : MonitorRun) : MonitorEvent → Option MonitorRun
  | .createThread ok =>
    if s.phase = .begun then
      if ok then some { s with phase := .creating, thread.phase := .created }
      else some { s with phase := .leaving .error }
    else none
  | .threadStarts =>
    if s.thread.phase = .created then
      some { s with thread.phase := .looping, thread.mState := .running }
    else none
  | .threadCreated =>
    if s.phase = .creating ∧ s.thread.mState ≠ .stopped then some { s with phase := .created }
    else none
  | .createMonitor ok =>
    if s.phase = .created then some { s with phase := if ok then .looping else .leaving .error }
    else none
  | .child event =>
    if s.phase = .looping ∧ s.permitsChild event then
      (s.child.next lap event).map fun child => { s with child, thread := told s.thread event }
    else none
  | .thread event =>
    if s.permitsThread event then
      (s.thread.run.next mDrain_s event).map fun run => { s with
        child.activity := run.poll.mSince
        thread := { taken s.thread event with run } }
    else none
  | .threadEmptied =>
    if s.thread.phase = .looping ∧ s.thread.run.Completed then some { s with thread.phase := .emptied }
    else none
  | .threadFails =>
    if s.thread.phase = .looping then some { s with thread.phase := .returned .error } else none
  | .completes =>
    if s.phase = .looping ∧ s.child.rc = .ok ∧ s.child.monitor.pollFdCompletion then
      some { s with phase := .leaving .ok }
    else none
  | .fails =>
    if s.phase = .looping then
      some { s with phase := if s.child.rc = .abort then .aborted else .leaving .error }
    else none
  | .closeTetherThread => match s.phase with
    | .leaving rc =>
      if s.thread.phase = .absent then some { s with phase := .returned rc }
      else if s.thread.mFlushed ∧ s.thread.mState = .running then
        some { s with phase := .joining rc, thread.mState := .stopping }
      else some { s with phase := .aborted }
    | _ => none
  | .threadReturns =>
    if s.thread.phase = .emptied ∧ s.thread.mState ≠ .running then
      some { s with thread.phase := .returned .ok }
    else none
  | .threadJoined => match s.phase, s.thread.phase with
    | .joining rc, .returned _ => some { s with phase := .returned rc }
    | _, _ => none

/-- `start` and `since` are when the loops of the sentry and of the thread begin. -/
def enter (lap : LapTime) (options : ServerOptions) (useReadWrite : Bool) (childPid umbilicalPid : Pid)
    (tetherFd umbilicalFd : Int) (parentFd : Option Int) (start since : Int) : MonitorRun where
  phase := .begun
  child := .enter lap options childPid umbilicalPid tetherFd umbilicalFd parentFd start since
  thread := ⟨.stopped, false, false, .absent, .enter useReadWrite since⟩

def Start (lap : LapTime) (options : ServerOptions) (useReadWrite : Bool) (s : MonitorRun) : Prop :=
  ∃ childPid umbilicalPid tetherFd umbilicalFd parentFd start since,
    s = enter lap options useReadWrite childPid umbilicalPid tetherFd umbilicalFd parentFd start since

def system (lap : LapTime) (options : ServerOptions) (mDrain_s : Nat) (useReadWrite : Bool) :
    System MonitorRun MonitorEvent :=
  .ofNext (Start lap options useReadWrite) (next lap mDrain_s)

end MonitorRun

namespace ChildMonitor

/-- Neither has the child been reported to have terminated, nor the tether thread to
have closed the control pipe. -/
structure Undisturbed (m m' : ChildMonitor) : Prop where
  latch : m'.mEvent.mChildLatchDisabled = m.mEvent.mChildLatchDisabled
  tether : m'.mPollFds.tether = m.mPollFds.tether

theorem Undisturbed.refl (m : ChildMonitor) : m.Undisturbed m := ⟨rfl, rfl⟩

variable {self m : ChildMonitor} {lap : LapTime} {aPollTime : Int}

theorem activateFdTimerTermination_undisturbed {aAction : ChildTerminationAction} (h : m.Undisturbed self) :
    m.Undisturbed (self.activateFdTimerTermination lap aAction aPollTime).self := by
  unfold activateFdTimerTermination
  dsimp only
  split_ifs <;> exact ⟨h.latch, h.tether⟩

theorem pollFdCloseUmbilical_undisturbed (h : m.Undisturbed self) :
    m.Undisturbed (self.pollFdCloseUmbilical lap aPollTime).self :=
  activateFdTimerTermination_undisturbed ⟨h.latch, h.tether⟩

theorem pollFdUmbilical_undisturbed {read : ReadResult} :
    self.Undisturbed (self.pollFdUmbilical lap read aPollTime).self := by
  unfold pollFdUmbilical
  split_ifs
  · cases read with
    | byte value =>
      dsimp only
      unfold pollFdEcho
      split_ifs <;> exact ⟨rfl, rfl⟩
    | eof | econnreset => exact pollFdCloseUmbilical_undisturbed (.refl self)
    | eintr | failed => exact .refl self
  · exact .refl self

theorem pollFdReapUmbilicalEvent_undisturbed {aEnabled : Bool} :
    self.Undisturbed (self.pollFdReapUmbilicalEvent lap aEnabled aPollTime).self := by
  unfold pollFdReapUmbilicalEvent restartFdTimerUmbilical
  split_ifs <;> exact ⟨rfl, rfl⟩

theorem pollFdTimerUmbilical_undisturbed {state : ChildProcessState} {write : WriteResult}
    (h : m.Undisturbed self) : m.Undisturbed (self.pollFdTimerUmbilical lap state write aPollTime).self := by
  unfold pollFdTimerUmbilical
  split_ifs
  · unfold pollFdTimeoutUmbilical
    cases state with
    | running | exited | killed | dumped =>
      dsimp only
      split_ifs
      · exact pollFdCloseUmbilical_undisturbed ⟨h.latch, h.tether⟩
      · exact ⟨h.latch, h.tether⟩
    | stopped | trapped | echild | failed => exact ⟨h.latch, h.tether⟩
  · exact h
  · have hwrite : m.Undisturbed (self.pollFdWriteUmbilical write).self := by
      unfold pollFdWriteUmbilical
      split_ifs
      · cases write <;> exact ⟨h.latch, h.tether⟩
      · exact h
    cases write with
    | epipe => exact pollFdCloseUmbilical_undisturbed hwrite
    | written | failed | ewouldblock | eintr => exact ⟨hwrite.latch, hwrite.tether⟩

theorem pollFdTimerTether_undisturbed {state : ChildProcessState} {since : Int} (h : m.Undisturbed self) :
    m.Undisturbed (self.pollFdTimerTether lap state since aPollTime).self := by
  unfold pollFdTimerTether
  cases state with
  | failed | trapped | stopped => exact ⟨h.latch, h.tether⟩
  | echild => exact activateFdTimerTermination_undisturbed h
  | running | exited | killed | dumped =>
    dsimp only
    split_ifs
    · exact ⟨h.latch, h.tether⟩
    · exact ⟨h.latch, h.tether⟩
    · exact activateFdTimerTermination_undisturbed ⟨h.latch, h.tether⟩

theorem pollFdTimerTermination_undisturbed {killed : Bool} (h : m.Undisturbed self) :
    m.Undisturbed (self.pollFdTimerTermination killed).self := by
  unfold pollFdTimerTermination
  split
  · dsimp only
    split_ifs <;> exact ⟨h.latch, h.tether⟩
  · exact h

end ChildMonitor

/-- Only its own callbacks bring the termination of the child, or the end of the tether
thread, into the monitor. -/
theorem ChildEvent.reply_undisturbed (lap : LapTime) (monitor : ChildMonitor) (activity : Int)
    (event : ChildEvent) (htether : event ≠ .tether)
    (hreap : ∀ flushed pollTime, event ≠ .reapChild false flushed pollTime) :
    monitor.Undisturbed (event.reply lap monitor activity).self := by
  cases event with
  | tetherActivity time => exact .refl monitor
  | tether => exact absurd rfl htether
  | umbilical read pollTime => exact ChildMonitor.pollFdUmbilical_undisturbed
  | parent pollTime => exact ChildMonitor.activateFdTimerTermination_undisturbed ⟨rfl, rfl⟩
  | reapChild enabled flushed pollTime =>
    cases enabled with
    | false => exact absurd rfl (hreap flushed pollTime)
    | true =>
      show monitor.Undisturbed (monitor.restartFdTimerTether lap pollTime).self
      unfold ChildMonitor.restartFdTimerTether
      split_ifs <;> exact ⟨rfl, rfl⟩
  | reapUmbilical enabled pollTime => exact ChildMonitor.pollFdReapUmbilicalEvent_undisturbed
  | cont pollTime =>
    unfold ChildEvent.reply ChildMonitor.pollFdContUmbilical
    dsimp only
    split_ifs <;> exact ⟨rfl, rfl⟩
  | timerTether laps state pollTime => exact ChildMonitor.pollFdTimerTether_undisturbed ⟨rfl, rfl⟩
  | timerUmbilical laps state write pollTime => exact ChildMonitor.pollFdTimerUmbilical_undisturbed ⟨rfl, rfl⟩
  | timerTermination laps killed pollTime => exact ChildMonitor.pollFdTimerTermination_undisturbed ⟨rfl, rfl⟩
  | timerChild laps pinged pollTime =>
    unfold ChildEvent.reply ChildMonitor.pollFdTimerChild
    dsimp only
    split_ifs <;> exact ⟨rfl, rfl⟩

namespace TetherPoll

@[simp] theorem pollFdDrainCopy_mPeriod (self : TetherPoll) (unread : List UInt8) (calls : TetherCalls) :
    (self.pollFdDrainCopy unread calls).self.mPeriod = self.mPeriod := by
  unfold pollFdDrainCopy
  split_ifs
  · rfl
  · rfl
  · cases calls.read with
    | bytes rdSize =>
      dsimp only
      split_ifs <;> rfl
    | epipe | eintr | ewouldblock | failed => rfl
  · cases calls.write with
    | bytes wrSize =>
      dsimp only
      split_ifs <;> rfl
    | epipe | eintr | ewouldblock | failed => rfl

@[simp] theorem pollFdDrainSplice_mPeriod (self : TetherPoll) (unread : List UInt8) (closed : Bool)
    (calls : TetherCalls) : (self.pollFdDrainSplice unread closed calls).self.mPeriod = self.mPeriod := by
  unfold pollFdDrainSplice
  by_cases hioctl : calls.ioctl = false
  · rw [if_pos hioctl]
  by_cases havailable : unread.length = 0
  · rw [if_neg hioctl, if_pos havailable]
  rw [if_neg hioctl, if_neg havailable]
  cases calls.splice with
  | bytes splicedBytes =>
    dsimp only
    split_ifs <;> rfl
  | epipe | eintr | ewouldblock | failed => rfl

@[simp] theorem pollFdDrain_mPeriod (self : TetherPoll) (unread : List UInt8) (closed : Bool)
    (calls : TetherCalls) (now : Int) :
    (self.pollFdDrain unread closed calls now).self.mPeriod = self.mPeriod := by
  unfold pollFdDrain
  dsimp only
  split_ifs <;> simp

end TetherPoll

namespace MonitorRun

variable {lap : LapTime} {options : ServerOptions} {mDrain_s : Nat} {useReadWrite : Bool} {s t : MonitorRun}

/-- Everything that a step can be. -/
inductive Steps (lap : LapTime) (mDrain_s : Nat) (s : MonitorRun) : MonitorEvent → MonitorRun → Prop
  | createThread (hphase : s.phase = .begun) : Steps lap mDrain_s s (.createThread true)
      { s with phase := .creating, thread.phase := .created }
  | createThreadFails (hphase : s.phase = .begun) :
    Steps lap mDrain_s s (.createThread false) { s with phase := .leaving .error }
  | threadStarts (hthread : s.thread.phase = .created) : Steps lap mDrain_s s .threadStarts
      { s with thread.phase := .looping, thread.mState := .running }
  | threadCreated (hphase : s.phase = .creating) (hstate : s.thread.mState ≠ .stopped) :
    Steps lap mDrain_s s .threadCreated { s with phase := .created }
  | createMonitor (ok : Bool) (hphase : s.phase = .created) : Steps lap mDrain_s s (.createMonitor ok)
      { s with phase := if ok then .looping else .leaving .error }
  | child {event : ChildEvent} {child : ChildRun} (hphase : s.phase = .looping)
    (hpermits : s.permitsChild event = true) (hchild : s.child.next lap event = some child) :
    Steps lap mDrain_s s (.child event) { s with child, thread := told s.thread event }
  | thread {event : TetherEvent} {run : TetherRun} (hpermits : s.permitsThread event = true)
    (hrun : s.thread.run.next mDrain_s event = some run) : Steps lap mDrain_s s (.thread event)
      { s with child.activity := run.poll.mSince, thread := { taken s.thread event with run } }
  | threadEmptied (hthread : s.thread.phase = .looping) (hcompleted : s.thread.run.Completed) :
    Steps lap mDrain_s s .threadEmptied { s with thread.phase := .emptied }
  | threadFails (hthread : s.thread.phase = .looping) :
    Steps lap mDrain_s s .threadFails { s with thread.phase := .returned .error }
  | completes (hphase : s.phase = .looping) (hrc : s.child.rc = .ok)
    (hcompletion : s.child.monitor.pollFdCompletion = true) :
    Steps lap mDrain_s s .completes { s with phase := .leaving .ok }
  | fails (hphase : s.phase = .looping) : Steps lap mDrain_s s .fails
      { s with phase := if s.child.rc = .abort then .aborted else .leaving .error }
  | closeNone {rc : Rc} (hphase : s.phase = .leaving rc) (hthread : s.thread.phase = .absent) :
    Steps lap mDrain_s s .closeTetherThread { s with phase := .returned rc }
  | close {rc : Rc} (hphase : s.phase = .leaving rc) (hthread : s.thread.phase ≠ .absent)
    (hflushed : s.thread.mFlushed = true) (hstate : s.thread.mState = .running) :
    Steps lap mDrain_s s .closeTetherThread { s with phase := .joining rc, thread.mState := .stopping }
  | closeAborts {rc : Rc} (hphase : s.phase = .leaving rc) (hthread : s.thread.phase ≠ .absent)
    (hensure : ¬(s.thread.mFlushed = true ∧ s.thread.mState = .running)) :
    Steps lap mDrain_s s .closeTetherThread { s with phase := .aborted }
  | threadReturns (hthread : s.thread.phase = .emptied) (hstate : s.thread.mState ≠ .running) :
    Steps lap mDrain_s s .threadReturns { s with thread.phase := .returned .ok }
  | threadJoined {rc rc' : Rc} (hphase : s.phase = .joining rc) (hthread : s.thread.phase = .returned rc') :
    Steps lap mDrain_s s .threadJoined { s with phase := .returned rc }

theorem steps_of_next {event : MonitorEvent} (h : s.next lap mDrain_s event = some t) :
    Steps lap mDrain_s s event t := by
  cases event with
  | createThread ok =>
    obtain ⟨hphase, h⟩ := Option.ite_none_right_eq_some.mp h
    cases ok with
    | true =>
      obtain rfl := Option.some.inj h
      exact .createThread hphase
    | false =>
      obtain rfl := Option.some.inj h
      exact .createThreadFails hphase
  | threadStarts =>
    obtain ⟨hthread, h⟩ := Option.ite_none_right_eq_some.mp h
    obtain rfl := Option.some.inj h
    exact .threadStarts hthread
  | threadCreated =>
    obtain ⟨⟨hphase, hstate⟩, h⟩ := Option.ite_none_right_eq_some.mp h
    obtain rfl := Option.some.inj h
    exact .threadCreated hphase hstate
  | createMonitor ok =>
    obtain ⟨hphase, h⟩ := Option.ite_none_right_eq_some.mp h
    obtain rfl := Option.some.inj h
    exact .createMonitor ok hphase
  | child event =>
    obtain ⟨⟨hphase, hpermits⟩, h⟩ := Option.ite_none_right_eq_some.mp h
    obtain ⟨child, hchild, rfl⟩ := Option.map_eq_some_iff.mp h
    exact .child hphase hpermits hchild
  | thread event =>
    obtain ⟨hpermits, h⟩ := Option.ite_none_right_eq_some.mp h
    obtain ⟨run, hrun, rfl⟩ := Option.map_eq_some_iff.mp h
    exact .thread hpermits hrun
  | threadEmptied =>
    obtain ⟨⟨hthread, hcompleted⟩, h⟩ := Option.ite_none_right_eq_some.mp h
    obtain rfl := Option.some.inj h
    exact .threadEmptied hthread hcompleted
  | threadFails =>
    obtain ⟨hthread, h⟩ := Option.ite_none_right_eq_some.mp h
    obtain rfl := Option.some.inj h
    exact .threadFails hthread
  | completes =>
    obtain ⟨⟨hphase, hrc, hcompletion⟩, h⟩ := Option.ite_none_right_eq_some.mp h
    obtain rfl := Option.some.inj h
    exact .completes hphase hrc hcompletion
  | fails =>
    obtain ⟨hphase, h⟩ := Option.ite_none_right_eq_some.mp h
    obtain rfl := Option.some.inj h
    exact .fails hphase
  | closeTetherThread =>
    simp only [next] at h
    split at h
    · next rc hphase =>
      split_ifs at h with hthread hensure
      · obtain rfl := Option.some.inj h
        exact .closeNone hphase hthread
      · obtain rfl := Option.some.inj h
        exact .close hphase hthread hensure.1 hensure.2
      · obtain rfl := Option.some.inj h
        exact .closeAborts hphase hthread hensure
    · cases h
  | threadReturns =>
    obtain ⟨⟨hthread, hstate⟩, h⟩ := Option.ite_none_right_eq_some.mp h
    obtain rfl := Option.some.inj h
    exact .threadReturns hthread hstate
  | threadJoined =>
    simp only [next] at h
    split at h
    · next rc rc' hphase hthread =>
      obtain rfl := Option.some.inj h
      exact .threadJoined hphase hthread
    · cases h

@[simp] theorem told_phase (self : TetherThread) (event : ChildEvent) :
    (told self event).phase = self.phase := by
  unfold told
  split <;> rfl

@[simp] theorem told_mState (self : TetherThread) (event : ChildEvent) :
    (told self event).mState = self.mState := by
  unfold told
  split <;> rfl

@[simp] theorem told_run (self : TetherThread) (event : ChildEvent) : (told self event).run = self.run := by
  unfold told
  split <;> rfl

@[simp] theorem taken_phase (self : TetherThread) (event : TetherEvent) :
    (taken self event).phase = self.phase := by
  unfold taken
  split <;> rfl

@[simp] theorem taken_mState (self : TetherThread) (event : TetherEvent) :
    (taken self event).mState = self.mState := by
  unfold taken
  split <;> rfl

@[simp] theorem taken_mFlushed (self : TetherThread) (event : TetherEvent) :
    (taken self event).mFlushed = self.mFlushed := by
  unfold taken
  split <;> rfl

/-- How the two of them know of each other, by the state that they lock. -/
structure Handshake (phase : MonitorPhase) (thread : ThreadPhase) (state : TetherThreadState) : Prop where
  stopped : state = .stopped ↔ thread = .absent ∨ thread = .created
  stopping : state = .stopping ↔
    (∃ rc, phase = .joining rc) ∨ ∃ rc, phase = .returned rc ∧ thread ≠ .absent
  begun : phase = .begun → thread = .absent
  absent : thread = .absent → phase = .begun ∨ phase = .leaving .error ∨ phase = .returned .error
  created : thread = .created → phase = .creating
  joined : ∀ rc, phase = .returned rc → thread = .absent ∨ ∃ rc', thread = .returned rc'

theorem Handshake.step (hi : Handshake s.phase s.thread.phase s.thread.mState) {event : MonitorEvent}
    (h : Steps lap mDrain_s s event t) : Handshake t.phase t.thread.phase t.thread.mState := by
  obtain ⟨hstopped, hstopping, hbegun, habsent, hcreated, hjoined⟩ := hi
  cases h with
  | @child event child hphase hpermits hchild =>
    rw [told_phase, told_mState]
    exact ⟨hstopped, hstopping, hbegun, habsent, hcreated, hjoined⟩
  | @thread event run hpermits hrun =>
    rw [taken_phase, taken_mState]
    exact ⟨hstopped, hstopping, hbegun, habsent, hcreated, hjoined⟩
  | createMonitor ok hphase => cases ok <;> constructor <;> simp_all
  | fails hphase => by_cases hrc : s.child.rc = .abort <;> constructor <;> simp_all
  | createThread | createThreadFails | threadStarts | threadCreated | threadEmptied | threadFails
  | completes | closeNone | close | closeAborts | threadReturns | threadJoined =>
    constructor <;> simp_all

/-- The drain timer runs on a request only, which is made once the child has terminated. -/
structure Flushes (mDrain_s : Nat) (s : MonitorRun) : Prop where
  flushed : s.thread.mFlushed = true → s.child.monitor.mEvent.mChildLatchDisabled = true
  latch : s.child.monitor.mEvent.mChildLatchDisabled = true → s.child.rc = .ok → s.thread.mFlushed = true
  requested : s.thread.requested = true → s.thread.mFlushed = true
  period : s.thread.run.poll.mPeriod ≠ 0 → s.thread.mFlushed = true ∧ mDrain_s ≠ 0
  expired : s.thread.run.cause = some .expired → s.thread.mFlushed = true ∧ mDrain_s ≠ 0
  left : s.phase = .leaving .ok ∨ s.phase = .joining .ok ∨ s.phase = .returned .ok →
    s.child.rc = .ok ∧ s.child.monitor.pollFdCompletion = true
  joins : ∀ rc, s.phase = .joining rc ∨ s.phase = .returned rc →
    s.thread.phase = .absent ∨ s.thread.mFlushed = true

theorem Flushes.child (hi : s.Flushes mDrain_s) {event : ChildEvent} {child : ChildRun}
    (hphase : s.phase = .looping) (h : s.child.next lap event = some child) :
    Flushes mDrain_s { s with child, thread := told s.thread event } := by
  obtain ⟨⟨hrc, -⟩, rfl⟩ := ChildRun.next_eq_some.mp h
  have hleft : ∀ {P : Prop} {rc : Rc},
      s.phase = .leaving rc ∨ s.phase = .joining rc ∨ s.phase = .returned rc → P := by
    intro P rc h
    rcases h with h | h | h <;> rw [hphase] at h <;> cases h
  by_cases hreap : ∃ flushed pollTime, event = .reapChild false flushed pollTime
  · obtain ⟨flushed, pollTime, rfl⟩ := hreap
    cases flushed with
    | true =>
      exact ⟨fun _ => rfl, fun _ _ => rfl, fun _ => rfl, fun h => ⟨rfl, (hi.period h).2⟩,
        fun h => ⟨rfl, (hi.expired h).2⟩, hleft, fun _ h => hleft (.inr h)⟩
    | false =>
      exact ⟨fun _ => rfl, fun _ h => Rc.noConfusion h, hi.requested, hi.period, hi.expired, hleft,
        fun _ h => hleft (.inr h)⟩
  · have htold : told s.thread event = s.thread := by
      unfold told
      split
      · exact absurd ⟨_, _, rfl⟩ hreap
      · rfl
    have hlatch : (event.reply lap s.child.monitor s.child.activity).self.mEvent.mChildLatchDisabled =
        s.child.monitor.mEvent.mChildLatchDisabled := by
      by_cases htether : event = .tether
      · subst htether
        rfl
      · exact (event.reply_undisturbed lap _ _ htether fun flushed pollTime he => hreap ⟨_, _, he⟩).latch
    rw [htold]
    exact ⟨fun h => hlatch.trans (hi.flushed h), fun h _ => hi.latch (hlatch.symm.trans h) hrc, hi.requested,
      hi.period, hi.expired, hleft, fun _ h => hleft (.inr h)⟩

theorem Flushes.thread (hi : s.Flushes mDrain_s) {event : TetherEvent} {run : TetherRun}
    (hpermits : s.permitsThread event = true) (h : s.thread.run.next mDrain_s event = some run) :
    Flushes mDrain_s
      { s with child.activity := run.poll.mSince, thread := { taken s.thread event with run } } := by
  obtain ⟨⟨-, hrun⟩, rfl⟩ := TetherRun.next_eq_some.mp h
  have hperiod : (s.thread.run.after mDrain_s event).poll.mPeriod ≠ 0 →
      s.thread.mFlushed = true ∧ mDrain_s ≠ 0 := by
    intro hne
    cases event with
    | write bytes | closeWriters | poll ready => exact hi.period hne
    | control read =>
      cases read with
      | false => exact hi.period hne
      | true =>
        have hrequested : s.thread.requested = true := (Bool.and_eq_true_iff.mp hpermits).2
        refine ⟨hi.requested hrequested, ?_⟩
        rintro rfl
        exact hne rfl
    | drain entry calls now =>
      refine hi.period ?_
      rw [← TetherPoll.pollFdDrain_mPeriod s.thread.run.poll s.thread.run.unread
        s.thread.run.writersClosed calls now]
      exact hne
    | timerDisconnected => exact absurd rfl hne
  have hexpired : (s.thread.run.after mDrain_s event).cause = some .expired →
      s.thread.mFlushed = true ∧ mDrain_s ≠ 0 := by
    intro hcause
    cases event with
    | write bytes | closeWriters | poll ready | control read => exact hi.expired hcause
    | drain entry calls now =>
      refine hi.expired ?_
      simp only [TetherRun.after, TetherRun.drainCause] at hcause
      split_ifs at hcause
      · exact hcause
      · cases hcause
      · cases hcause
      · exact hcause
    | timerDisconnected => exact hi.period hrun
  refine ⟨?_, ?_, ?_, ?_, ?_, hi.left, ?_⟩
  · simpa using hi.flushed
  · simpa using hi.latch
  · intro hrequested
    rw [taken_mFlushed]
    refine hi.requested ?_
    unfold taken at hrequested
    split at hrequested
    · cases hrequested
    · exact hrequested
  · simpa using hperiod
  · simpa using hexpired
  · simpa using hi.joins

theorem Flushes.step (hi : s.Flushes mDrain_s) {event : MonitorEvent} (h : Steps lap mDrain_s s event t) :
    t.Flushes mDrain_s := by
  have hleft := hi.left
  have hjoins := hi.joins
  cases h with
  | child hphase hpermits hchild => exact hi.child hphase hchild
  | thread hpermits hrun => exact hi.thread hpermits hrun
  | createMonitor ok hphase =>
    refine ⟨hi.flushed, hi.latch, hi.requested, hi.period, hi.expired, ?_, ?_⟩ <;> cases ok <;> simp
  | fails hphase =>
    refine ⟨hi.flushed, hi.latch, hi.requested, hi.period, hi.expired, ?_, ?_⟩ <;>
      by_cases hrc : s.child.rc = .abort <;> simp [hrc]
  | threadStarts hthread | threadEmptied hthread hcompleted | threadFails hthread
  | threadReturns hthread hstate =>
    refine ⟨hi.flushed, hi.latch, hi.requested, hi.period, hi.expired, hi.left, fun rc h => .inr ?_⟩
    exact (hi.joins rc h).resolve_left (by simp [hthread])
  | createThread | createThreadFails | threadCreated | completes | closeNone | close | closeAborts
  | threadJoined =>
    refine ⟨hi.flushed, hi.latch, hi.requested, hi.period, hi.expired, ?_, ?_⟩ <;> simp_all

theorem controlClosed_iff {self : TetherThread} :
    self.controlClosed = true ↔ self.phase = .emptied ∨ self.phase = .returned .ok := by
  simp [TetherThread.controlClosed]

@[simp] theorem told_controlClosed (self : TetherThread) (event : ChildEvent) :
    (told self event).controlClosed = self.controlClosed := by
  simp [TetherThread.controlClosed]

/-- The sentry sees the tether closed when the thread has completed its loop, if there is
a tether at all. -/
structure Coupled (options : ServerOptions) (s : MonitorRun) : Prop where
  closed : s.thread.controlClosed = true → s.thread.run.Completed
  tether : options.mTether = true → s.child.monitor.mPollFds.tether.armed = false →
    s.thread.controlClosed = true

theorem Coupled.child (hi : s.Coupled options) {event : ChildEvent} {child : ChildRun}
    (hpermits : s.permitsChild event = true) (h : s.child.next lap event = some child) :
    Coupled options { s with child, thread := told s.thread event } := by
  obtain ⟨-, rfl⟩ := ChildRun.next_eq_some.mp h
  refine ⟨by simpa using hi.closed, fun htether harmed => ?_⟩
  rw [told_controlClosed]
  by_cases he : event = .tether
  · subst he
    exact hpermits
  · refine hi.tether htether ?_
    have hsame : (event.reply lap s.child.monitor s.child.activity).self.mPollFds.tether =
        s.child.monitor.mPollFds.tether := by
      by_cases hreap : ∃ flushed pollTime, event = .reapChild false flushed pollTime
      · obtain ⟨flushed, pollTime, rfl⟩ := hreap
        cases flushed <;> rfl
      · exact (event.reply_undisturbed lap _ _ he fun flushed pollTime h => hreap ⟨_, _, h⟩).tether
    rw [← hsame]
    exact harmed

theorem open_of_permits {event : TetherEvent} (h : s.permitsThread event = true) :
    s.thread.controlClosed = false := by
  have hlooping : s.thread.phase = .looping → s.thread.controlClosed = false := by
    intro hphase
    simp [TetherThread.controlClosed, hphase]
  cases event with
  | write bytes | closeWriters => simpa [permitsThread] using h
  | poll ready => exact hlooping (of_decide_eq_true (Bool.and_eq_true_iff.mp h).1)
  | control read => exact hlooping (of_decide_eq_true (Bool.and_eq_true_iff.mp h).1)
  | drain entry calls now => exact hlooping (of_decide_eq_true h)
  | timerDisconnected => exact hlooping (of_decide_eq_true h)

theorem Coupled.step (hi : s.Coupled options) (hbegun : s.phase = .begun → s.thread.phase = .absent)
    {event : MonitorEvent} (h : Steps lap mDrain_s s event t) : t.Coupled options := by
  have hclosed := hi.closed
  have htether := hi.tether
  simp only [controlClosed_iff] at hclosed htether
  cases h with
  | child hphase hpermits hchild => exact hi.child hpermits hchild
  | @thread event run hpermits hrun =>
    have hopen := open_of_permits hpermits
    have hsame : ({ taken s.thread event with run } : TetherThread).controlClosed = s.thread.controlClosed := by
      simp [TetherThread.controlClosed]
    refine ⟨fun h => ?_, fun hmTether harmed => ?_⟩
    · rw [hsame, hopen] at h
      cases h
    · rw [hsame]
      exact hi.tether hmTether harmed
  | createMonitor ok hphase => exact ⟨hi.closed, hi.tether⟩
  | fails hphase => exact ⟨hi.closed, hi.tether⟩
  | createThread | createThreadFails | threadStarts | threadCreated | threadEmptied | threadFails
  | completes | closeNone | close | closeAborts | threadReturns | threadJoined =>
    constructor <;> simp_all [controlClosed_iff]

theorem run_of_reachable (hs : (system lap options mDrain_s useReadWrite).Reachable s) :
    (TetherRun.system mDrain_s useReadWrite).Reachable s.thread.run := by
  refine System.Reachable.project (M := system lap options mDrain_s useReadWrite)
    (fun s => s.thread.run) ?_ (fun s event t _ h => ?_) hs
  · rintro s ⟨childPid, umbilicalPid, tetherFd, umbilicalFd, parentFd, start, since, rfl⟩
    exact ⟨since, rfl⟩
  · cases steps_of_next h with
    | thread hpermits hrun => exact .inr ⟨_, hrun⟩
    | @child event child hphase hpermits hchild => exact .inl (told_run s.thread event)
    | _ => exact .inl rfl

/-- Everything that the two of them rely on. -/
structure Sound (options : ServerOptions) (mDrain_s : Nat) (s : MonitorRun) : Prop where
  handshake : Handshake s.phase s.thread.phase s.thread.mState
  flushes : s.Flushes mDrain_s
  coupled : s.Coupled options

theorem Start.sound (hs : Start lap options useReadWrite s) : s.Sound options mDrain_s := by
  obtain ⟨childPid, umbilicalPid, tetherFd, umbilicalFd, parentFd, start, since, rfl⟩ := hs
  refine ⟨by constructor <;> simp [enter], ?_, ⟨Bool.noConfusion, fun htether harmed => ?_⟩⟩
  · refine ⟨Bool.noConfusion, Bool.noConfusion, Bool.noConfusion, fun h => absurd rfl h, nofun,
      ?_, ?_⟩ <;> simp [enter]
  · simp [enter, ChildRun.enter, ChildMonitor.create, htether, PollFd.armed] at harmed

theorem sound_of_reachable (hs : (system lap options mDrain_s useReadWrite).Reachable s) :
    s.Sound options mDrain_s := by
  refine System.Reachable.invariant (M := system lap options mDrain_s useReadWrite)
    (fun s hi => Start.sound hi) (fun s event t _ hi h => ?_) hs
  have hsteps := steps_of_next h
  exact ⟨hi.handshake.step hsteps, hi.flushes.step hsteps, hi.coupled.step hi.handshake.begun hsteps⟩

theorem Handshake.running {rc : Rc} {thread : ThreadPhase} {state : TetherThreadState}
    (h : Handshake (.leaving rc) thread state) (hthread : thread ≠ .absent) : state = .running := by
  cases hstate : state with
  | running => rfl
  | stopped =>
    have hcreated := h.created ((h.stopped.mp hstate).resolve_left hthread)
    cases hcreated
  | stopping => simpa using h.stopping.mp hstate

/-- A child that writes three bytes and terminates, and then the sentry up to the end
of its loop. -/
def copying : List MonitorEvent :=
  [.createThread true, .threadStarts, .threadCreated, .createMonitor true, .thread (.write [1, 2, 3]),
    .thread (.poll ⟨false, true, false⟩), .thread (.drain .input ⟨true, .bytes 3, .eintr, .eintr, true⟩ 1),
    .thread .closeWriters, .child (.reapChild false true 5), .thread (.poll ⟨true, true, true⟩),
    .thread (.control true), .thread (.drain .input ⟨true, .eintr, .bytes 2, .eintr, true⟩ 6),
    .thread (.drain .output ⟨true, .eintr, .bytes 1, .eintr, true⟩ 7), .thread (.poll ⟨false, true, false⟩),
    .thread (.drain .input ⟨true, .eintr, .eintr, .eintr, true⟩ 8), .threadEmptied, .child .tether,
    .completes]

/-- What is left to do for the two of them. -/
def closing : List MonitorEvent := [.closeTetherThread, .threadReturns, .threadJoined]

def entered : MonitorRun := enter .monotonic ⟨true, 60, 10, 5⟩ true 7 8 3 4 none 0 0

theorem entered_start : Start .monotonic ⟨true, 60, 10, 5⟩ true entered := ⟨_, _, _, _, _, _, _, rfl⟩

/-- The monitor has seen the child terminate, and has told the thread. -/
def Terminated (s : MonitorRun) : Prop :=
  s.child.monitor.mEvent.mChildLatchDisabled = true ∧ s.thread.mFlushed = true

instance (s : MonitorRun) : Decidable s.Terminated := inferInstanceAs (Decidable (_ ∧ _))

/-- Whether it succeeds or fails, the sentry comes out of `monitorChildProcess` once there
is a thread only after the child has terminated: any failure before that ends in the
assertion of `closeTetherThread`, and a success never does. -/
theorem monitorChildProcess_returns (hs : (system lap options mDrain_s useReadWrite).Reachable s) :
    (∀ rc, s.phase = .returned rc → s.thread.phase = .absent ∧ rc = .error ∨
      s.Terminated ∧ ∃ rc', s.thread.phase = .returned rc') ∧
    ∀ rc t, s.phase = .leaving rc → s.next lap mDrain_s .closeTetherThread = some t →
      (t.phase = .aborted ↔ s.thread.phase ≠ .absent ∧ ¬ s.Terminated) ∧
      (rc = .ok → t.phase = .joining .ok) := by
  obtain ⟨hshake, hflushes, -⟩ := sound_of_reachable hs
  have hterminated : s.Terminated ↔ s.thread.mFlushed = true :=
    ⟨And.right, fun h => ⟨hflushes.flushed h, h⟩⟩
  refine ⟨fun rc hphase => ?_, fun rc t hphase h => ?_⟩
  · rcases hshake.joined rc hphase with habsent | hreturned
    · refine .inl ⟨habsent, ?_⟩
      simpa [hphase] using hshake.absent habsent
    · refine .inr ⟨hterminated.mpr ((hflushes.joins rc (.inr hphase)).resolve_left ?_), hreturned⟩
      obtain ⟨rc', hreturned⟩ := hreturned
      simp [hreturned]
  · rw [hphase] at hshake
    have hok : rc = .ok → s.thread.phase ≠ .absent ∧ s.thread.mFlushed = true := by
      rintro rfl
      obtain ⟨hrc, hcompletion⟩ := hflushes.left (.inl hphase)
      refine ⟨fun habsent => ?_, hflushes.latch (Bool.and_eq_true_iff.mp hcompletion).1 hrc⟩
      simpa using hshake.absent habsent
    rw [hterminated]
    cases steps_of_next h with
    | closeNone _ habsent =>
      refine ⟨iff_of_false MonitorPhase.noConfusion fun h => h.1 habsent, fun hrc => ?_⟩
      exact absurd habsent (hok hrc).1
    | close hleaving _ hflushed _ =>
      obtain rfl := MonitorPhase.leaving.inj (hphase.symm.trans hleaving)
      exact ⟨iff_of_false MonitorPhase.noConfusion fun h => h.2 hflushed, fun hrc => congrArg _ hrc⟩
    | closeAborts _ habsent hensure =>
      have hflushed : s.thread.mFlushed ≠ true := fun h => hensure ⟨h, hshake.running habsent⟩
      exact ⟨iff_of_true rfl ⟨habsent, hflushed⟩, fun hrc => absurd (hok hrc).2 hflushed⟩

theorem monitorChildProcess_returns_copied :
    ∃ s, (copying ++ closing).foldlM (next .monotonic 30) entered =
        some s ∧ s.phase = .returned .ok ∧
      ((∀ rc, s.phase = .returned rc → s.thread.phase = .absent ∧ rc = .error ∨
        s.Terminated ∧ ∃ rc', s.thread.phase = .returned rc') ∧
      ∀ rc t, s.phase = .leaving rc → s.next .monotonic 30 .closeTetherThread = some t →
        (t.phase = .aborted ↔ s.thread.phase ≠ .absent ∧ ¬ s.Terminated) ∧
          (rc = .ok → t.phase = .joining .ok)) :=
  ⟨_, rfl, rfl, monitorChildProcess_returns (.of_foldlM (.of_init entered_start)
    (copying ++ closing) rfl)⟩

/-- When the sentry comes out of `monitorChildProcess` with success, the output on the
tether has been delivered whole unless the destination has been closed or the drain
timer has run out, which it never does while the child is alive. -/
theorem tether_delivered (htether : options.mTether = true)
    (hs : (system lap options mDrain_s useReadWrite).Reachable s) :
    s.thread.run.delivered <+: s.thread.run.written ∧
    (s.thread.run.cause = some .expired → s.Terminated ∧ mDrain_s ≠ 0) ∧
    (s.phase = .returned .ok → s.thread.run.Completed ∧
      (s.thread.run.writersClosed = true ∧ s.thread.run.delivered = s.thread.run.written ∨
        s.thread.run.cause = some .destination ∨ s.thread.run.cause = some .expired)) := by
  obtain ⟨-, hflushes, hcoupled⟩ := sound_of_reachable hs
  have hfaithful := TetherRun.faithful_of_reachable (run_of_reachable hs)
  refine ⟨⟨_, hfaithful.conserve⟩, fun hcause => ?_, fun hphase => ?_⟩
  · obtain ⟨hflushed, hdrain⟩ := hflushes.expired hcause
    exact ⟨⟨hflushes.flushed hflushed, hflushed⟩, hdrain⟩
  · have hcompletion := (hflushes.left (.inr (.inr hphase))).2
    have harmed : s.child.monitor.mPollFds.tether.armed = false := by
      simpa using (Bool.and_eq_true_iff.mp hcompletion).2
    have hcompleted := hcoupled.closed (hcoupled.tether htether harmed)
    refine ⟨hcompleted, ?_⟩
    by_cases hdestination : s.thread.run.cause = some .destination
    · exact .inr (.inl hdestination)
    by_cases hexpired : s.thread.run.cause = some .expired
    · exact .inr (.inr hexpired)
    exact .inl (hfaithful.all_delivered ⟨hcompleted, hexpired, hdestination⟩)

theorem tether_delivered_copied :
    ∃ s, (copying ++ closing).foldlM (next .monotonic 30) entered =
        some s ∧ s.thread.run.delivered <+: s.thread.run.written ∧
      (s.thread.run.cause = some .expired → s.Terminated ∧ 30 ≠ 0) ∧
      (s.phase = .returned .ok → s.thread.run.Completed ∧
        (s.thread.run.writersClosed = true ∧ s.thread.run.delivered = s.thread.run.written ∨
          s.thread.run.cause = some .destination ∨ s.thread.run.cause = some .expired)) :=
  ⟨_, rfl, tether_delivered rfl (.of_foldlM (.of_init entered_start)
    (copying ++ closing) rfl)⟩

/-- After a success `closeTetherThread` waits for nothing but the thread's own last steps:
neither loop is gone back to, and no input or output is waited for. -/
theorem closeTetherThread_joins (htether : options.mTether = true)
    (hs : (system lap options mDrain_s useReadWrite).Reachable s) (hphase : s.phase = .leaving .ok) :
    ∃ events, events ⊆ closing ∧
      ∃ t, events.foldlM (next lap mDrain_s) s = some t ∧ t.phase = .returned .ok := by
  obtain ⟨hshake, hflushes, hcoupled⟩ := sound_of_reachable hs
  obtain ⟨hrc, hcompletion⟩ := hflushes.left (.inl hphase)
  obtain ⟨hlatch, hopen⟩ := Bool.and_eq_true_iff.mp hcompletion
  have hflushed := hflushes.latch hlatch hrc
  have hclosed := controlClosed_iff.mp (hcoupled.tether htether (by simpa using hopen))
  have hthread : s.thread.phase ≠ .absent := by
    rcases hclosed with h | h <;> simp [h]
  rw [hphase] at hshake
  have hrunning := hshake.running hthread
  rcases hclosed with hemptied | hreturned
  · refine ⟨closing, List.Subset.refl _,
      { s with phase := .returned .ok, thread.mState := .stopping, thread.phase := .returned .ok }, ?_, rfl⟩
    simp [closing, next, hphase, hemptied, hflushed, hrunning]
  · refine ⟨[.closeTetherThread, .threadJoined], by simp [closing],
      { s with phase := .returned .ok, thread.mState := .stopping }, ?_, rfl⟩
    simp [next, hphase, hreturned, hflushed, hrunning]

theorem closeTetherThread_joins_copied :
    ∃ s, copying.foldlM (next .monotonic 30) entered = some s ∧
      ∃ events, events ⊆ closing ∧
        ∃ t, events.foldlM (next .monotonic 30) s = some t ∧ t.phase = .returned .ok :=
  ⟨_, rfl, closeTetherThread_joins rfl (.of_foldlM (.of_init entered_start) copying rfl) rfl⟩

end MonitorRun

end PidSentry
