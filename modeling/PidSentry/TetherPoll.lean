import PidSentry.PollLoop

/-! The tether thread (tether.c): the callbacks that copy the child's output to
the destination, with a buffer or by splicing, and runs of its event loop. -/

namespace PidSentry

structure TetherPoll.PollFds where
  control : PollEvents
  input : PollEvents
  output : PollEvents
  deriving DecidableEq, Repr

structure TetherPoll where
  /-- Whether there is a buffer: if not, the thread splices. -/
  mBuf : Bool
  mBufLen : Nat
  /-- The bytes from `mBufPtr` to `mBufEnd`. -/
  mBuffered : List UInt8
  mPollFds : TetherPoll.PollFds
  mPeriod : Nat
  /-- `mThread->mActivity.mSince` -/
  mSince : Int
  deriving DecidableEq, Repr

inductive Transfer
  | bytes (count : Nat)
  | epipe
  | eintr
  | ewouldblock
  | failed
  deriving DecidableEq, Repr

structure TetherCalls where
  ioctl : Bool
  read : Transfer
  write : Transfer
  splice : Transfer
  wait : Bool
  deriving DecidableEq, Repr

/-- What a drain callback leaves behind: what it returns, how many bytes it took
from the tether, which ones it gave to the destination, and whether it was told
that the destination is closed. -/
structure Drained where
  self : TetherPoll
  rc : Int
  taken : Nat
  put : List UInt8
  broken : Bool
  deriving DecidableEq, Repr

namespace TetherPoll

def pollFdDrainCopy (self : TetherPoll) (unread : List UInt8) (calls : TetherCalls) : Drained :=
  if self.mBuffered = [] then
    if calls.ioctl = false then ⟨self, -1, 0, [], false⟩
    else if unread.length = 0 then ⟨self, 1, 0, [], false⟩
    else
      match calls.read with
      | .bytes rdSize =>
        if rdSize = 0 then ⟨self, 1, 0, [], false⟩
        else
          ⟨{ self with
              mBuffered := unread.take rdSize
              mPollFds.input := .disconnect
              mPollFds.output := .output }, 0, rdSize, [], false⟩
      | .eintr | .ewouldblock => ⟨self, 0, 0, [], false⟩
      | .epipe | .failed => ⟨self, -1, 0, [], false⟩
  else
    match calls.write with
    | .bytes wrSize =>
      let put := self.mBuffered.take wrSize
      let left := { self with mBuffered := self.mBuffered.drop wrSize }
      if wrSize = 0 then ⟨self, 1, 0, [], true⟩
      else if left.mBuffered = [] then
        ⟨{ left with mPollFds.input := .input, mPollFds.output := .disconnect }, 0, 0, put, false⟩
      else ⟨left, 0, 0, put, false⟩
    | .epipe => ⟨self, 1, 0, [], true⟩
    | .eintr | .ewouldblock => ⟨self, 0, 0, [], false⟩
    | .failed => ⟨self, -1, 0, [], false⟩

/-- `closed` is whether every writer has closed the tether, which makes it as
ready to be read as more input does. -/
def pollFdDrainSplice (self : TetherPoll) (unread : List UInt8) (closed : Bool)
    (calls : TetherCalls) : Drained :=
  if calls.ioctl = false then ⟨self, -1, 0, [], false⟩
  else if unread.length = 0 then ⟨self, 1, 0, [], false⟩
  else
    match calls.splice with
    | .bytes splicedBytes =>
      let put := unread.take splicedBytes
      let srcFdReady := unread.drop splicedBytes ≠ [] ∨ closed = true
      if splicedBytes = 0 then ⟨self, 1, 0, [], true⟩
      else if calls.wait = false then ⟨self, -1, splicedBytes, put, false⟩
      else if srcFdReady then
        ⟨{ self with mPollFds.input := .disconnect, mPollFds.output := .output }, 0, splicedBytes,
          put, false⟩
      else
        ⟨{ self with mPollFds.input := .input, mPollFds.output := .disconnect }, 0, splicedBytes,
          put, false⟩
    | .epipe => ⟨self, 1, 0, [], true⟩
    | .eintr | .ewouldblock => ⟨self, 0, 0, [], false⟩
    | .failed => ⟨self, -1, 0, [], false⟩

def pollFdDrain (self : TetherPoll) (unread : List UInt8) (closed : Bool) (calls : TetherCalls)
    (now : Int) : Drained :=
  if self.mPollFds.control ≠ .none then
    let self := { self with mSince := now }
    let drained :=
      if self.mBuf then self.pollFdDrainCopy unread calls
      else self.pollFdDrainSplice unread closed calls
    if drained.rc = -1 then drained
    else if drained.rc ≠ 0 then
      { drained with self.mPollFds.control := .none, rc := 0 }
    else drained
  else ⟨self, 0, 0, [], false⟩

/-- `read` is whether the request can be read from the control pipe. -/
def pollFdControl (self : TetherPoll) (mDrain_s : Nat) (read : Bool) : Outcome TetherPoll Empty :=
  if read then .ok { self with mPeriod := nsecs mDrain_s } else .error self

def pollFdTimerDisconnected (self : TetherPoll) : TetherPoll :=
  { self with mPeriod := 0, mPollFds.control := .none }

def pollFdCompletion (self : TetherPoll) : Bool := self.mPollFds.control == .none

/-- The poll state that `tetherThreadMain_` sets up. -/
def create (useReadWrite : Bool) (since : Int) : TetherPoll where
  mBuf := useReadWrite
  mBufLen := 16 * 1024
  mBuffered := []
  mPollFds := ⟨.input, .input, .disconnect⟩
  mPeriod := 0
  mSince := since

end TetherPoll

/-- The entries that a poll has found ready and whose callbacks are yet to run. -/
structure TetherReady where
  control : Bool
  input : Bool
  output : Bool
  deriving DecidableEq, Repr

/-- How the loop came to be complete: a drain callback found no more input, the
destination turned out to be closed, or the drain timer fired. -/
inductive TetherCause
  | drained
  | destination
  | expired
  deriving DecidableEq, Repr

structure TetherRun where
  poll : TetherPoll
  ready : TetherReady
  /-- What the last poll asked of the destination. -/
  asked : PollEvents
  /-- Since the last poll a callback has run because the destination closed. -/
  disconnected : Bool
  /-- How the last callback ended; the loop goes on only after `ok`. -/
  rc : Rc
  cause : Option TetherCause
  written : List UInt8
  unread : List UInt8
  delivered : List UInt8
  writersClosed : Bool
  deriving DecidableEq, Repr

inductive TetherEntry
  | input
  | output
  deriving DecidableEq, Repr

/-- Writers act at any time. What they do while a callback runs is taken to come
before it: more input or an end of file adds to what the callback finds ready,
and takes nothing away. -/
inductive TetherEvent
  | write (bytes : List UInt8)
  | closeWriters
  | poll (ready : TetherReady)
  | control (read : Bool)
  | drain (entry : TetherEntry) (calls : TetherCalls) (now : Int)
  | timerDisconnected
  deriving DecidableEq, Repr

def Transfer.AtMost (limit : Nat) : Transfer → Prop
  | bytes count => count ≤ limit
  | _ => True

instance (limit : Nat) (transfer : Transfer) : Decidable (transfer.AtMost limit) := by
  cases transfer <;> unfold Transfer.AtMost <;> infer_instance

/-- What the calls of a callback can give: a read no more than the buffer holds
or the tether has, and nothing only if there is nothing; a write or a splice no
more than is offered. -/
structure TetherCalls.Lawful (calls : TetherCalls) (s : TetherRun) : Prop where
  read : calls.read.AtMost (min s.poll.mBufLen s.unread.length)
  eof : calls.read = .bytes 0 → s.unread = []
  write : calls.write.AtMost s.poll.mBuffered.length
  splice : calls.splice.AtMost s.unread.length

theorem TetherCalls.lawful_iff {calls : TetherCalls} {s : TetherRun} :
    calls.Lawful s ↔ calls.read.AtMost (min s.poll.mBufLen s.unread.length) ∧
      (calls.read = .bytes 0 → s.unread = []) ∧ calls.write.AtMost s.poll.mBuffered.length ∧
      calls.splice.AtMost s.unread.length :=
  ⟨fun h => ⟨h.read, h.eof, h.write, h.splice⟩, fun ⟨h₁, h₂, h₃, h₄⟩ => ⟨h₁, h₂, h₃, h₄⟩⟩

instance (calls : TetherCalls) (s : TetherRun) : Decidable (calls.Lawful s) :=
  decidable_of_iff _ TetherCalls.lawful_iff.symm

def TetherReady.has (ready : TetherReady) : TetherEntry → Bool
  | .input => ready.input
  | .output => ready.output

def TetherReady.without (ready : TetherReady) : TetherEntry → TetherReady
  | .input => { ready with input := false }
  | .output => { ready with output := false }

namespace TetherRun

/-- Whether a poll may report the tether for the events its entry asks for. -/
def InputReady (s : TetherRun) : Prop :=
  match s.poll.mPollFds.input with
  | .input => s.unread ≠ [] ∨ s.writersClosed = true
  | .disconnect => s.writersClosed = true
  | .none | .output => False

instance (s : TetherRun) : Decidable s.InputReady := by
  unfold InputReady; split <;> infer_instance

/-- The callbacks of one poll, in either order, run before the next poll. -/
def Permits (s : TetherRun) : TetherEvent → Prop
  | .write _ => s.writersClosed = false
  | .closeWriters => True
  | .poll ready =>
    s.poll.pollFdCompletion = false ∧ s.ready = ⟨false, false, false⟩ ∧
      (ready.input = true → s.InputReady)
  | .control _ => s.ready.control = true
  | .drain entry calls _ => s.ready.has entry = true ∧ calls.Lawful s
  | .timerDisconnected => s.poll.mPeriod ≠ 0

instance (s : TetherRun) (event : TetherEvent) : Decidable (s.Permits event) := by
  cases event <;> unfold Permits <;> infer_instance

/-- The callback of `entry` runs because the destination closed, or another one
of the same poll has. -/
def disconnects (s : TetherRun) (entry : TetherEntry) : Bool :=
  s.disconnected || (entry == .output && s.asked == .disconnect)

/-- Why the loop is complete after a drain callback, if it was not before. -/
def drainCause (s : TetherRun) (entry : TetherEntry) (drained : Drained) : Option TetherCause :=
  if s.poll.pollFdCompletion then s.cause
  else if drained.self.pollFdCompletion then
    if drained.broken || s.disconnects entry then some .destination else some .drained
  else s.cause

def after (mDrain_s : Nat) (s : TetherRun) : TetherEvent → TetherRun
  | .write bytes => { s with written := s.written ++ bytes, unread := s.unread ++ bytes }
  | .closeWriters => { s with writersClosed := true }
  | .poll ready => { s with
      ready := ready
      asked := s.poll.mPollFds.output
      disconnected := false }
  | .control read =>
    let reply := s.poll.pollFdControl mDrain_s read
    { s with poll := reply.self, rc := reply.rc, ready.control := false }
  | .drain entry calls now =>
    let drained := s.poll.pollFdDrain s.unread s.writersClosed calls now
    { s with
      poll := drained.self
      ready := s.ready.without entry
      rc := if drained.rc = -1 then .error else .ok
      cause := s.drainCause entry drained
      disconnected := s.disconnects entry
      unread := s.unread.drop drained.taken
      delivered := s.delivered ++ drained.put }
  | .timerDisconnected => { s with
      poll := s.poll.pollFdTimerDisconnected
      cause := if s.poll.pollFdCompletion then s.cause else some .expired }

def next (mDrain_s : Nat) (s : TetherRun) (event : TetherEvent) : Option TetherRun :=
  if s.rc = .ok ∧ s.Permits event then some (s.after mDrain_s event) else none

theorem next_eq_some {mDrain_s : Nat} {s t : TetherRun} {event : TetherEvent} :
    s.next mDrain_s event = some t ↔
      (s.rc = .ok ∧ s.Permits event) ∧ s.after mDrain_s event = t := by
  unfold next
  split <;> simp_all

def enter (useReadWrite : Bool) (since : Int) : TetherRun :=
  ⟨.create useReadWrite since, ⟨false, false, false⟩, .none, false, .ok, none, [], [], [], false⟩

def Start (useReadWrite : Bool) (s : TetherRun) : Prop := ∃ since, s = enter useReadWrite since

def system (mDrain_s : Nat) (useReadWrite : Bool) : System TetherRun TetherEvent :=
  .ofNext (Start useReadWrite) (next mDrain_s)

/-- The loop returns once it is complete and no callback has failed. -/
def Completed (s : TetherRun) : Prop := s.rc = .ok ∧ s.poll.pollFdCompletion = true

instance (s : TetherRun) : Decidable s.Completed := inferInstanceAs (Decidable (_ ∧ _))

end TetherRun

end PidSentry
