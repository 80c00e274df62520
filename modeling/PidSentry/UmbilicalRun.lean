import PidSentry.UmbilicalMonitor

/-! Runs of the umbilical process: the first read that synchronises it with the
sentry, its event loop in any order that the poll entries allow, and its end. -/

namespace PidSentry

/-- The steps of `runUmbilicalProcessChild_`: waiting for the sentry, running
the loop, going on to kill the child process group once the loop is complete,
or leaving with an error. -/
inductive UmbilicalPhase
  | synchronising
  | looping
  | killing
  | failed
  | aborted
  deriving DecidableEq, Repr

/-- Each callback with the results of its system calls; `completed` is the loop
finding `pollFdCompletion_` to hold. -/
inductive UmbilicalEvent
  | umbilical (read : ReadResult) (shutdown latched : Bool) (pollTime : Int)
  | pidServer (euid : Nat) (calls : PidServerCalls) (peer : PidServerPeer) (fd : Int)
  | pidClient (gone : List PidServerClient) (polled : Bool)
  | eventPipe (slept : Bool) (write : WriteResult)
  | timerUmbilical (laps : Nat) (stopped shutdown : Bool) (pollTime : Int)
  | completed
  deriving DecidableEq, Repr

structure UmbilicalRun where
  monitor : UmbilicalMonitor
  phase : UmbilicalPhase
  deriving DecidableEq, Repr

namespace UmbilicalEvent

def Ready (s : UmbilicalRun) : UmbilicalEvent → Prop
  | umbilical .. =>
    (s.phase = .synchronising ∨ s.phase = .looping) ∧ s.monitor.mFds.umbilical.armed
  | pidServer .. => s.phase = .looping ∧ s.monitor.mFds.pidServer.armed
  | pidClient .. => s.phase = .looping ∧ s.monitor.mFds.pidClient.armed
  | eventPipe .. => s.phase = .looping
  | timerUmbilical laps _ _ pollTime => s.phase = .looping ∧ s.monitor.mTimer.Laps laps pollTime
  | completed => s.phase = .looping ∧ s.monitor.pollFdCompletion

instance (s : UmbilicalRun) (event : UmbilicalEvent) : Decidable (event.Ready s) := by
  cases event <;> unfold Ready <;> infer_instance

def reply (lap : LapTime) (monitor : UmbilicalMonitor) : UmbilicalEvent → UmbilicalMonitor.Reply
  | umbilical read shutdown latched pollTime =>
    monitor.pollFdUmbilical lap read shutdown latched pollTime
  | pidServer euid calls peer fd => monitor.pollFdPidServer euid calls peer fd
  | pidClient gone polled => monitor.pollFdPidClient gone polled
  | eventPipe slept write => monitor.pollFdEventPipe slept write
  | timerUmbilical laps stopped shutdown _ =>
    { monitor with mTimer := monitor.mTimer.lap laps }.pollFdTimerUmbilical stopped shutdown
  | completed => .ok monitor

end UmbilicalEvent

def UmbilicalEvent.reads : UmbilicalEvent → Nat
  | umbilical (.byte _) .. => 1
  | _ => 0

/-- The umbilical, its timer and the entry of the pid server are left alone. -/
structure UmbilicalMonitor.SameTimer (m n : UmbilicalMonitor) : Prop where
  umbilical : n.mUmbilical = m.mUmbilical
  entry : n.mFds.umbilical = m.mFds.umbilical
  listen : n.mFds.pidServer = m.mFds.pidServer
  timer : n.mTimer = m.mTimer

/-- Only reading and the timer touch the umbilical. -/
theorem UmbilicalEvent.reply_sameTimer (lap : LapTime) (m : UmbilicalMonitor)
    {event : UmbilicalEvent}
    (hread : ∀ read shutdown latched pollTime, event ≠ .umbilical read shutdown latched pollTime)
    (hfired : ∀ laps stopped shutdown pollTime,
      event ≠ .timerUmbilical laps stopped shutdown pollTime) :
    m.SameTimer (event.reply lap m).self := by
  cases event with
  | umbilical read shutdown latched pollTime => exact absurd rfl (hread _ _ _ _)
  | timerUmbilical laps stopped shutdown pollTime => exact absurd rfl (hfired _ _ _ _)
  | completed => exact ⟨rfl, rfl, rfl, rfl⟩
  | pidServer euid calls peer fd =>
    simp only [reply, UmbilicalMonitor.pollFdPidServer]
    cases hs : m.mPidServer with
    | none => exact ⟨rfl, rfl, rfl, rfl⟩
    | some server =>
      dsimp only
      cases (server.acceptPidServerConnection euid calls peer fd).rc with
      | ok =>
        dsimp only
        split_ifs <;> exact ⟨rfl, rfl, rfl, rfl⟩
      | error | abort => exact ⟨rfl, rfl, rfl, rfl⟩
  | pidClient gone polled =>
    simp only [reply, UmbilicalMonitor.pollFdPidClient]
    cases m.mPidServer with
    | none => exact ⟨rfl, rfl, rfl, rfl⟩
    | some server =>
      dsimp only
      split_ifs <;> exact ⟨rfl, rfl, rfl, rfl⟩
  | eventPipe slept write =>
    simp only [reply, UmbilicalMonitor.pollFdEventPipe, UmbilicalMonitor.pollFdSendEcho]
    split_ifs
    · exact ⟨rfl, rfl, rfl, rfl⟩
    · exact ⟨rfl, rfl, rfl, rfl⟩
    · cases write <;> exact ⟨rfl, rfl, rfl, rfl⟩
    · exact ⟨rfl, rfl, rfl, rfl⟩

namespace UmbilicalRun

def after (lap : LapTime) (s : UmbilicalRun) (event : UmbilicalEvent) : UmbilicalRun where
  monitor := (event.reply lap s.monitor).self
  phase :=
    match (event.reply lap s.monitor).rc with
    | .ok => if event = .completed then .killing else .looping
    | .error => .failed
    | .abort => .aborted

def next (lap : LapTime) (s : UmbilicalRun) (event : UmbilicalEvent) : Option UmbilicalRun :=
  if event.Ready s then some (s.after lap event) else none

theorem next_eq_some {lap : LapTime} {s t : UmbilicalRun} {event : UmbilicalEvent} :
    s.next lap event = some t ↔ event.Ready s ∧ s.after lap event = t := by
  unfold next
  split <;> simp_all

def enter (mUmbilical_s : Nat) (sentryPid : Pid) (pidServer : Option PidServer) (start : Int) :
    UmbilicalRun :=
  ⟨.create mUmbilical_s UmbilicalMonitor.STDIN_FILENO sentryPid pidServer start, .synchronising⟩

/-- The pid server, if there is one, starts without clients. -/
def Start (mUmbilical_s : Nat) (s : UmbilicalRun) : Prop :=
  ∃ sentryPid pidServer start, (∀ server ∈ pidServer, server.mClients = []) ∧
    s = enter mUmbilical_s sentryPid pidServer start

def system (lap : LapTime) (mUmbilical_s : Nat) : System UmbilicalRun UmbilicalEvent :=
  .ofNext (Start mUmbilical_s) (next lap)

theorem next_eq_none {lap : LapTime} {s : UmbilicalRun} (h : s.phase ≠ .synchronising)
    (hl : s.phase ≠ .looping) (event : UmbilicalEvent) : s.next lap event = none := by
  refine if_neg fun hr => ?_
  cases event with
  | umbilical read shutdown latched pollTime => exact hr.1.elim h hl
  | eventPipe slept write => exact hl hr
  | pidServer | pidClient | timerUmbilical | completed => exact hl hr.1

/-- The process kills the child process group only once its loop is complete. -/
theorem completion_of_killing {lap : LapTime} {mUmbilical_s : Nat} {s : UmbilicalRun}
    (hs : (system lap mUmbilical_s).Reachable s) (hk : s.phase = .killing) :
    s.monitor.pollFdCompletion = true := by
  refine System.Reachable.invariant
    (P := fun s => s.phase = .killing → s.monitor.pollFdCompletion = true) ?_ ?_ hs hk
  · rintro s ⟨sentryPid, pidServer, start, -, rfl⟩ hk
    cases hk
  · rintro s event t - - hstep hk
    obtain ⟨hready, rfl⟩ := next_eq_some.mp hstep
    have hc : event = .completed := by
      by_contra hne
      simp only [after, hne, if_false] at hk
      split at hk <;> cases hk
    subst hc
    exact hready.2

end UmbilicalRun

end PidSentry
