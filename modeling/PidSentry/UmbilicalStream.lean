import PidSentry.PidClients

/-! What one umbilical process reads of its sentry, from the first ping to the end
of the stream, and whom it kills once its loop is complete. -/

namespace PidSentry

/-- The events that end in `closeFdUmbilical_`. -/
def UmbilicalEvent.closes (m : UmbilicalMonitor) : UmbilicalEvent → Bool
  | umbilical .eof .. | umbilical .econnreset .. => true
  | timerUmbilical _ stopped .. =>
    !stopped && m.mUmbilical.mCycleLimit ≤ m.mUmbilical.mCycleCount + 1
  | _ => false

inductive KilledGroup
  | child
  | sentry
  deriving DecidableEq, Repr

/-- What `runUmbilicalProcessChild_` kills after its loop; `killed` is whether the
child process group can be signalled. -/
def UmbilicalMonitor.killGroups (self : UmbilicalMonitor) (killed : Bool) : List KilledGroup :=
  if killed then
    if self.mUmbilical.mClosed then [.child] else [.child, .sentry]
  else []

/-- The umbilical process with the stream from its sentry: the bytes still to be
read, whether the sentry is done writing, and whether its end is shut down. It
also keeps whether the zero byte has been read, the descriptors that have been
shut down, and the groups that have been killed on the way out. -/
structure StreamRun where
  umbilical : UmbilicalRun
  unread : List UInt8
  finished : Bool
  shut : Bool
  zeroRead : Bool
  shutdowns : List Int
  exited : Bool
  killed : List KilledGroup
  deriving DecidableEq, Repr

inductive StreamEvent
  | ping
  | close
  | shut
  | umbilical (event : UmbilicalEvent)
  | exit (killed : Bool)
  deriving DecidableEq, Repr

namespace StreamRun

/-- Bytes are read in the order in which they were written, and the end of the
stream only after them. The umbilical process has a child of its own in the
child process group, so that it can always be signalled. -/
def Permits (s : StreamRun) : StreamEvent → Prop
  | .ping | .close => s.finished = false
  | .shut => True
  | .umbilical (.umbilical (.byte value) ..) => s.unread.head? = some value
  | .umbilical (.umbilical .eof ..) => s.unread = [] ∧ s.shut
  | .umbilical (.umbilical .econnreset ..) => s.shut
  | .umbilical _ => True
  | .exit killed => s.umbilical.phase = .killing ∧ s.exited = false ∧ killed

instance (s : StreamRun) (event : StreamEvent) : Decidable (s.Permits event) := by
  unfold Permits
  split <;> infer_instance

def readsZero : UmbilicalEvent → Bool
  | .umbilical (.byte value) .. => value = 0
  | _ => false

/-- The step of the process, with what it takes from the stream. -/
def read (s : StreamRun) (event : UmbilicalEvent) (umbilical : UmbilicalRun) : StreamRun :=
  { s with
    umbilical := umbilical
    unread := s.unread.drop event.reads
    zeroRead := s.zeroRead || readsZero event
    shutdowns := s.shutdowns ++
      if event.closes s.umbilical.monitor then [s.umbilical.monitor.mFds.umbilical.fd] else [] }

def next (lap : LapTime) (s : StreamRun) (event : StreamEvent) : Option StreamRun :=
  if s.Permits event then
    match event with
    | .ping => some { s with unread := s.unread ++ [46] }
    | .close => some { s with unread := s.unread ++ [0], finished := true }
    | .shut => some { s with finished := true, shut := true }
    | .umbilical event => (s.umbilical.next lap event).map (s.read event)
    | .exit killed => some { s with
        exited := true
        killed := s.umbilical.monitor.killGroups killed }
  else none

def enter (umbilical : UmbilicalRun) : StreamRun :=
  ⟨umbilical, [], false, false, false, [], false, []⟩

def Start (mUmbilical_s : Nat) (s : StreamRun) : Prop :=
  ∃ umbilical, UmbilicalRun.Start mUmbilical_s umbilical ∧ s = enter umbilical

def system (lap : LapTime) (mUmbilical_s : Nat) : System StreamRun StreamEvent :=
  .ofNext (Start mUmbilical_s) (next lap)

/-- An orderly end of the umbilical is told from a failure of the sentry. -/
structure ToldApart (s : StreamRun) : Prop where
  once : s.shutdowns.length ≤ 1
  descriptor : -1 ∉ s.shutdowns
  completed : s.umbilical.phase = .killing → s.shutdowns ≠ []
  last : s.zeroRead → s.unread = [] ∧ s.finished
  asserted : s.unread ≠ [] → s.umbilical.monitor.mUmbilical.mClosed = false
  killed : .sentry ∈ s.killed ↔ s.exited ∧ s.umbilical.phase = .killing ∧ s.zeroRead = false

end StreamRun

/-- What the callbacks do to the entries and the timer, unless they close the
umbilical. -/
structure UmbilicalMonitor.SameEntries (m n : UmbilicalMonitor) : Prop where
  umbilical : n.mFds.umbilical = m.mFds.umbilical
  pidServer : n.mFds.pidServer = m.mFds.pidServer
  period : n.mTimer.mPeriod = m.mTimer.mPeriod

theorem UmbilicalEvent.byte_of_reads {event : UmbilicalEvent} (h : event.reads ≠ 0) :
    ∃ value shutdown latched pollTime, event = .umbilical (.byte value) shutdown latched pollTime := by
  unfold reads at h
  split at h
  · exact ⟨_, _, _, _, rfl⟩
  · exact absurd rfl h

theorem UmbilicalEvent.reply_closes (lap : LapTime) {m : UmbilicalMonitor} {event : UmbilicalEvent}
    (h : event.closes m) : ∃ n : UmbilicalMonitor, ∃ shutdown, n.mFds = m.mFds ∧
      n.mUmbilical.mClosed = m.mUmbilical.mClosed ∧
      event.reply lap m = n.closeFdUmbilical shutdown := by
  cases event with
  | umbilical read shutdown latched pollTime =>
    cases read with
    | eof | econnreset => exact ⟨m, shutdown, rfl, rfl, rfl⟩
    | byte | eintr | failed => cases h
  | timerUmbilical laps stopped shutdown pollTime =>
    cases stopped with
    | true => cases h
    | false =>
      have hlimit : m.mUmbilical.mCycleLimit ≤ m.mUmbilical.mCycleCount + 1 := by
        simpa [closes] using h
      exact ⟨{ m with
        mTimer := m.mTimer.lap laps
        mUmbilical.mCycleCount := m.mUmbilical.mCycleCount + 1 }, shutdown, rfl, rfl,
        if_pos hlimit⟩
  | pidServer | pidClient | eventPipe | completed => cases h

theorem UmbilicalEvent.reply_sameEntries (lap : LapTime) {m : UmbilicalMonitor}
    {event : UmbilicalEvent} (h : event.closes m = false) :
    m.SameEntries (event.reply lap m).self := by
  by_cases hread : ∃ read shutdown latched pollTime,
      event = .umbilical read shutdown latched pollTime
  · obtain ⟨read, shutdown, latched, pollTime, rfl⟩ := hread
    cases read with
    | byte value =>
      simp only [reply, UmbilicalMonitor.pollFdUmbilical, UmbilicalMonitor.pollFdMessage]
      split_ifs <;> exact ⟨rfl, rfl, rfl⟩
    | eintr | failed => exact ⟨rfl, rfl, rfl⟩
    | eof | econnreset => cases h
  · by_cases hfired : ∃ laps stopped shutdown pollTime,
        event = .timerUmbilical laps stopped shutdown pollTime
    · obtain ⟨laps, stopped, shutdown, pollTime, rfl⟩ := hfired
      simp only [reply, UmbilicalMonitor.pollFdTimerUmbilical]
      split_ifs with hstopped hlimit
      · exact ⟨rfl, rfl, rfl⟩
      · simp [closes, hstopped, hlimit] at h
      · exact ⟨rfl, rfl, rfl⟩
    · have hsame := event.reply_sameTimer lap m
        (fun read shutdown latched pollTime he => hread ⟨read, shutdown, latched, pollTime, he⟩)
        (fun laps stopped shutdown pollTime he => hfired ⟨laps, stopped, shutdown, pollTime, he⟩)
      exact ⟨hsame.entry, hsame.listen, by rw [hsame.timer]⟩

/-- Only a byte that is read can set `mClosed`. -/
theorem UmbilicalEvent.reply_mClosed (lap : LapTime) {m : UmbilicalMonitor} {event : UmbilicalEvent}
    (h : event.reads = 0) :
    (event.reply lap m).self.mUmbilical.mClosed = m.mUmbilical.mClosed := by
  cases hcloses : event.closes m with
  | true =>
    obtain ⟨n, shutdown, -, hclosed, hreply⟩ := event.reply_closes lap hcloses
    rw [hreply, ← hclosed]
    unfold UmbilicalMonitor.closeFdUmbilical
    split_ifs <;> rfl
  | false =>
    by_cases hread : ∃ read shutdown latched pollTime,
        event = .umbilical read shutdown latched pollTime
    · obtain ⟨read, shutdown, latched, pollTime, rfl⟩ := hread
      cases read with
      | byte value => cases h
      | eintr | failed => rfl
      | eof | econnreset => cases hcloses
    · by_cases hfired : ∃ laps stopped shutdown pollTime,
          event = .timerUmbilical laps stopped shutdown pollTime
      · obtain ⟨laps, stopped, shutdown, pollTime, rfl⟩ := hfired
        simp only [reply, UmbilicalMonitor.pollFdTimerUmbilical]
        split_ifs with hstopped hlimit
        · rfl
        · simp [closes, hstopped, hlimit] at hcloses
        · rfl
      · have hsame := event.reply_sameTimer lap m
          (fun read shutdown latched pollTime he => hread ⟨read, shutdown, latched, pollTime, he⟩)
          (fun laps stopped shutdown pollTime he => hfired ⟨laps, stopped, shutdown, pollTime, he⟩)
        rw [hsame.umbilical]

namespace UmbilicalRun

/-- The umbilical is shut down, and the loop goes on for the clients alone. -/
structure Closed (s : UmbilicalRun) : Prop where
  entry : s.monitor.mFds.umbilical = .disarmed
  listen : s.monitor.mFds.pidServer.armed = false
  period : s.monitor.mTimer.mPeriod = 0
  phase : s.phase = .looping ∨ s.phase = .killing

/-- The process waits for the sentry on an open umbilical, and one that is no longer open
has been shut down. -/
structure Listens (s : UmbilicalRun) : Prop where
  waits : s.phase = .synchronising → s.monitor.mFds.umbilical.armed = true
  closed : s.monitor.mFds.umbilical.armed = false → s.Closed

theorem Closed.not_closes {s : UmbilicalRun} (hi : s.Closed) {event : UmbilicalEvent} (h : event.Ready s) :
    event.closes s.monitor = false := by
  cases event with
  | umbilical read shutdown latched pollTime =>
    have harmed := h.2
    rw [hi.entry] at harmed
    cases harmed
  | timerUmbilical laps stopped shutdown pollTime => exact absurd hi.period h.2.1.1
  | pidServer | pidClient | eventPipe | completed => rfl

/-- Once the umbilical is shut down, nothing makes the process fail. -/
theorem Closed.after {lap : LapTime} {s : UmbilicalRun} {event : UmbilicalEvent} (hi : s.Closed)
    (hserves : s.monitor.Serves) (hready : event.Ready s) : (s.after lap event).Closed := by
  have hsame := event.reply_sameEntries lap (hi.not_closes hready)
  refine ⟨hsame.umbilical.trans hi.entry, ?_, hsame.period.trans hi.period, ?_⟩
  · exact (congrArg PollFd.armed hsame.pidServer).trans hi.listen
  · cases event with
    | umbilical read shutdown latched pollTime =>
      have harmed := hready.2
      rw [hi.entry] at harmed
      cases harmed
    | pidServer euid calls peer fd =>
      have harmed := hready.2
      rw [hi.listen] at harmed
      cases harmed
    | timerUmbilical laps stopped shutdown pollTime => exact absurd hi.period hready.2.1.1
    | pidClient gone polled =>
      obtain ⟨server, hserver⟩ := Option.ne_none_iff_exists'.mp (hserves (.inr hready.2))
      have hreply := UmbilicalMonitor.pollFdPidClient_eq hserver gone polled rfl
      exact .inl (by simp [UmbilicalRun.after, UmbilicalEvent.reply, hreply])
    | eventPipe slept write =>
      have hfd : s.monitor.mFds.umbilical.fd = -1 := congrArg PollFd.fd hi.entry
      have hok : (s.monitor.pollFdEventPipe slept write).rc = .ok := by
        simp only [UmbilicalMonitor.pollFdEventPipe, UmbilicalMonitor.pollFdSendEcho, hfd, if_true]
        split_ifs <;> rfl
      exact .inl (by simp [UmbilicalRun.after, UmbilicalEvent.reply, hok])
    | completed => exact .inr rfl

theorem listens_of_reachable {lap : LapTime} {mUmbilical_s : Nat} {s : UmbilicalRun}
    (hs : (system lap mUmbilical_s).Reachable s) : s.Listens := by
  refine System.Reachable.invariant (P := Listens) ?_ ?_ hs
  · rintro s ⟨sentryPid, pidServer, start, -, rfl⟩
    exact ⟨fun _ => rfl, fun h => by cases h⟩
  · rintro s event t hs hi hstep
    obtain ⟨hready, rfl⟩ := next_eq_some.mp hstep
    refine ⟨fun hphase => ?_, fun hdisarmed => ?_⟩
    · simp only [after] at hphase
      split at hphase
      · split_ifs at hphase
      · cases hphase
      · cases hphase
    · by_cases harmed : s.monitor.mFds.umbilical.armed = true
      · cases hcloses : event.closes s.monitor with
        | true =>
          obtain ⟨n, shutdown, hfds, -, hreply⟩ := event.reply_closes lap hcloses
          have hunfinished : event ≠ .completed := by
            rintro rfl
            cases hcloses
          cases shutdown with
          | true =>
            refine ⟨?_, ?_, ?_, .inl ?_⟩ <;>
              simp [after, hreply, UmbilicalMonitor.closeFdUmbilical, hunfinished]
          | false =>
            have hsame : (s.after lap event).monitor.mFds = s.monitor.mFds := by
              simp [after, hreply, UmbilicalMonitor.closeFdUmbilical, hfds]
            rw [hsame, harmed] at hdisarmed
            cases hdisarmed
        | false =>
          have hsame := congrArg PollFd.armed (event.reply_sameEntries lap hcloses).umbilical
          rw [show (s.after lap event).monitor.mFds.umbilical.armed = _ from hsame, harmed] at hdisarmed
          cases hdisarmed
      · exact (hi.closed (Bool.eq_false_iff.mpr harmed)).after (serves_of_reachable hs) hready

end UmbilicalRun

namespace StreamRun

open UmbilicalMonitor

/-- The bytes left to be read are pings, and a zero byte after them if one has
been written and not been read. -/
structure Ordered (s : StreamRun) : Prop where
  bytes : ∃ pings : List UInt8, 0 ∉ pings ∧
    (s.unread = pings ∨ s.finished ∧ s.zeroRead = false ∧ s.unread = pings ++ [0])
  last : s.zeroRead → s.unread = [] ∧ s.finished
  closed : s.umbilical.monitor.mUmbilical.mClosed = s.zeroRead

/-- The umbilical is shut down once, and its entry and timer are off from then on. -/
structure ShutOnce (s : StreamRun) : Prop where
  opened : s.shutdowns = [] → s.umbilical.monitor.mFds.umbilical = ⟨STDIN_FILENO, .input⟩
  shut : s.shutdowns = [] ∨ s.shutdowns = [STDIN_FILENO] ∧ (s.umbilical.phase = .aborted ∨
    s.umbilical.monitor.mFds.umbilical.armed = false ∧ s.umbilical.monitor.mTimer.mPeriod = 0)
  completed : s.umbilical.phase = .killing → s.umbilical.monitor.mFds.umbilical.armed = false

structure Killed (s : StreamRun) : Prop where
  phase : s.exited → s.umbilical.phase = .killing
  sentry : .sentry ∈ s.killed ↔ s.exited ∧ s.zeroRead = false

variable {lap : LapTime} {s : StreamRun}

/-- The zero byte is the last to be read, and the bytes before it are pings. -/
theorem Ordered.cons (hi : s.Ordered) {value : UInt8} {rest : List UInt8}
    (hunread : s.unread = value :: rest) :
    s.zeroRead = false ∧ (value = 0 → s.finished ∧ rest = []) ∧
      (value ≠ 0 → ∃ pings : List UInt8, 0 ∉ pings ∧
        (rest = pings ∨ s.finished ∧ rest = pings ++ [0])) := by
  obtain ⟨pings, hpings, hshape⟩ := hi.bytes
  rw [hunread] at hshape
  refine ⟨?_, ?_, ?_⟩
  · by_contra hread
    have hempty := (hi.last (Bool.eq_true_of_not_eq_false hread)).1
    rw [hunread] at hempty
    cases hempty
  · rintro rfl
    rcases hshape with he | ⟨hfinished, -, he⟩
    · exact absurd (he ▸ List.mem_cons_self) hpings
    · cases pings with
      | nil => exact ⟨hfinished, (List.cons.inj he).2⟩
      | cons ping pings =>
        have hping := (List.cons.inj he).1
        exact absurd (hping ▸ List.mem_cons_self) hpings
  · intro hvalue
    cases pings with
    | nil =>
      rcases hshape with he | ⟨-, -, he⟩
      · cases he
      · exact absurd (List.cons.inj he).1 hvalue
    | cons ping pings =>
      refine ⟨pings, fun hmem => hpings (List.mem_cons_of_mem _ hmem), ?_⟩
      rcases hshape with he | ⟨hfinished, -, he⟩
      · exact .inl (List.cons.inj he).2
      · exact .inr ⟨hfinished, (List.cons.inj he).2⟩

theorem readsZero_of_reads {event : UmbilicalEvent} (h : event.reads = 0) : readsZero event = false := by
  unfold readsZero
  split
  · cases h
  · rfl

theorem Ordered.read (hi : s.Ordered) {event : UmbilicalEvent} {umbilical : UmbilicalRun}
    (hp : s.Permits (.umbilical event)) (h : s.umbilical.next lap event = some umbilical) :
    (s.read event umbilical).Ordered := by
  obtain ⟨-, rfl⟩ := UmbilicalRun.next_eq_some.mp h
  by_cases hreads : event.reads = 0
  · have hzero := readsZero_of_reads hreads
    refine ⟨?_, ?_, ?_⟩
    · simpa [StreamRun.read, hreads, hzero] using hi.bytes
    · simpa [StreamRun.read, hreads, hzero] using hi.last
    · simp only [StreamRun.read, hzero, Bool.or_false]
      exact (event.reply_mClosed lap hreads).trans hi.closed
  · obtain ⟨value, shutdown, latched, pollTime, rfl⟩ := UmbilicalEvent.byte_of_reads hreads
    obtain ⟨rest, hunread⟩ : ∃ rest, s.unread = value :: rest := List.head?_eq_some_iff.mp hp
    obtain ⟨hfresh, hlast, hping⟩ := hi.cons hunread
    have hclosed := hi.closed.trans hfresh
    have hleft : (s.read (.umbilical (.byte value) shutdown latched pollTime)
        (s.umbilical.after lap (.umbilical (.byte value) shutdown latched pollTime))).unread = rest := by
      simp [StreamRun.read, hunread, UmbilicalEvent.reads]
    by_cases hvalue : value = 0
    · subst hvalue
      obtain ⟨hfinished, rfl⟩ := hlast rfl
      refine ⟨⟨[], List.not_mem_nil, .inl hleft⟩, fun _ => ⟨hleft, hfinished⟩, ?_⟩
      simp [StreamRun.read, UmbilicalRun.after, UmbilicalEvent.reply, pollFdUmbilical,
        pollFdMessage, hclosed, restartTimer, readsZero]
    · have hzero : readsZero (.umbilical (.byte value) shutdown latched pollTime) = false := by
        simp [readsZero, hvalue]
      have hunended : (s.read (.umbilical (.byte value) shutdown latched pollTime)
          (s.umbilical.after lap (.umbilical (.byte value) shutdown latched
            pollTime))).zeroRead = false := by
        simp [StreamRun.read, hfresh, hzero]
      obtain ⟨pings, hpings, hshape⟩ := hping hvalue
      refine ⟨⟨pings, hpings, ?_⟩, fun hread => ?_, ?_⟩
      · rw [hleft]
        exact hshape.imp_right fun hend => ⟨hend.1, hunended, hend.2⟩
      · rw [hunended] at hread
        cases hread
      · rw [hunended]
        simp only [StreamRun.read, UmbilicalRun.after, UmbilicalEvent.reply, pollFdUmbilical,
          pollFdMessage, hclosed, hvalue, Bool.false_eq_true, if_false]
        split_ifs
        · exact hclosed
        · exact hclosed

theorem runs_of_ready {run : UmbilicalRun} {event : UmbilicalEvent} (h : event.Ready run) :
    run.phase = .synchronising ∨ run.phase = .looping := by
  cases event with
  | umbilical => exact h.1
  | eventPipe => exact .inr h
  | pidServer | pidClient | timerUmbilical | completed => exact .inr h.1

theorem unended_of_ready {run : UmbilicalRun} {event : UmbilicalEvent} (h : event.Ready run) :
    run.phase ≠ .killing ∧ run.phase ≠ .aborted := by
  rcases runs_of_ready h with he | he <;> simp [he]

theorem ShutOnce.closes (hi : s.ShutOnce) {event : UmbilicalEvent} (hready : event.Ready s.umbilical)
    (hcloses : event.closes s.umbilical.monitor) : s.shutdowns = [] := by
  refine hi.shut.resolve_right ?_
  rintro ⟨-, haborted | ⟨hdisarmed, hperiod⟩⟩
  · exact (unended_of_ready hready).2 haborted
  · cases event with
    | umbilical read shutdown latched pollTime =>
      have harmed := hready.2
      rw [hdisarmed] at harmed
      cases harmed
    | timerUmbilical laps stopped shutdown pollTime => exact hready.2.1.1 hperiod
    | pidServer | pidClient | eventPipe | completed => cases hcloses

theorem ShutOnce.read (hi : s.ShutOnce) {event : UmbilicalEvent} {umbilical : UmbilicalRun}
    (h : s.umbilical.next lap event = some umbilical) : (s.read event umbilical).ShutOnce := by
  obtain ⟨hready, rfl⟩ := UmbilicalRun.next_eq_some.mp h
  cases hcloses : event.closes s.umbilical.monitor with
  | true =>
    have hnone := hi.closes hready hcloses
    have hfd := hi.opened hnone
    have hshutdowns : (s.read event (s.umbilical.after lap event)).shutdowns = [STDIN_FILENO] := by
      simp [StreamRun.read, hnone, hcloses, hfd]
    obtain ⟨n, shutdown, -, -, hreply⟩ := event.reply_closes lap hcloses
    have hunfinished : event ≠ .completed := by
      rintro rfl
      cases hcloses
    refine ⟨fun h => ?_, .inr ⟨hshutdowns, ?_⟩, fun h => ?_⟩
    · rw [hshutdowns] at h
      cases h
    · cases shutdown with
      | true => exact .inr (by simp [StreamRun.read, UmbilicalRun.after, hreply, closeFdUmbilical])
      | false => exact .inl (by simp [StreamRun.read, UmbilicalRun.after, hreply, closeFdUmbilical])
    · cases shutdown <;>
        simp [StreamRun.read, UmbilicalRun.after, hreply, closeFdUmbilical, hunfinished] at h
  | false =>
    have hsame := event.reply_sameEntries lap hcloses
    have hshutdowns : (s.read event (s.umbilical.after lap event)).shutdowns = s.shutdowns := by
      simp [StreamRun.read, hcloses]
    refine ⟨fun h => ?_, ?_, fun h => ?_⟩
    · rw [hshutdowns] at h
      exact hsame.umbilical.trans (hi.opened h)
    · rw [hshutdowns]
      refine hi.shut.imp_right fun hshut => ⟨hshut.1, ?_⟩
      rcases hshut.2 with haborted | ⟨hdisarmed, hperiod⟩
      · exact absurd haborted (unended_of_ready hready).2
      · refine .inr ⟨?_, ?_⟩
        · simp only [StreamRun.read, UmbilicalRun.after, hsame.umbilical]
          exact hdisarmed
        · exact hsame.period.trans hperiod
    · have hcompleted : event = .completed := by
        by_contra hne
        simp only [StreamRun.read, UmbilicalRun.after, hne, if_false] at h
        split at h <;> cases h
      subst hcompleted
      have hcompletion := hready.2
      simp only [pollFdCompletion, Bool.and_eq_true, Bool.not_eq_true'] at hcompletion
      exact hcompletion.1.1

theorem ShutOnce.shutdowns_of_killing (hi : s.ShutOnce) (hphase : s.umbilical.phase = .killing) :
    s.shutdowns ≠ [] := by
  intro he
  have hdisarmed := hi.completed hphase
  rw [hi.opened he] at hdisarmed
  cases hdisarmed

theorem ShutOnce.armed_iff (hi : s.ShutOnce) (haborted : s.umbilical.phase ≠ .aborted) :
    s.umbilical.monitor.mFds.umbilical.armed = true ↔ s.shutdowns = [] := by
  rcases hi.shut with he | ⟨he, habort | ⟨hdisarmed, -⟩⟩
  · exact iff_of_true (by rw [hi.opened he]; rfl) he
  · exact absurd habort haborted
  · simp [hdisarmed, he]

theorem Killed.read (hi : s.Killed) {event : UmbilicalEvent} {umbilical : UmbilicalRun}
    (h : s.umbilical.next lap event = some umbilical) : (s.read event umbilical).Killed := by
  obtain ⟨hready, -⟩ := UmbilicalRun.next_eq_some.mp h
  have hhere : ¬ s.exited := fun he => (unended_of_ready hready).1 (hi.phase he)
  refine ⟨fun he => absurd he hhere, iff_of_false (fun hmem => ?_) fun he => hhere he.1⟩
  exact hhere (hi.sentry.mp hmem).1

/-- What holds in every state of the process and its stream. -/
structure Sound (s : StreamRun) : Prop where
  ordered : s.Ordered
  shutOnce : s.ShutOnce
  killed : s.Killed

/-- While the sentry still writes, only pings are left to be read. -/
theorem Ordered.writing (hi : s.Ordered) (h : s.finished = false) :
    s.zeroRead = false ∧ 0 ∉ s.unread := by
  obtain ⟨pings, hpings, hshape⟩ := hi.bytes
  constructor
  · by_contra hread
    have hfinished := (hi.last (Bool.eq_true_of_not_eq_false hread)).2
    rw [h] at hfinished
    cases hfinished
  · rcases hshape with he | ⟨hfinished, -, -⟩
    · rwa [he]
    · rw [h] at hfinished
      cases hfinished

theorem Sound.step {t : StreamRun} {event : StreamEvent} (hi : s.Sound)
    (h : s.next lap event = some t) : t.Sound := by
  obtain ⟨hordered, hshut, hkilled⟩ := hi
  unfold next at h
  split_ifs at h with hp
  cases event with
  | ping =>
    obtain rfl := Option.some.inj h
    obtain ⟨hfresh, hbytes⟩ := hordered.writing hp
    refine ⟨⟨⟨s.unread ++ [46], by simp [hbytes], .inl rfl⟩, fun hread => ?_, hordered.closed⟩,
      ⟨hshut.opened, hshut.shut, hshut.completed⟩, ⟨hkilled.phase, hkilled.sentry⟩⟩
    exact absurd hread (Bool.eq_false_iff.mp hfresh)
  | close =>
    obtain rfl := Option.some.inj h
    obtain ⟨hfresh, hbytes⟩ := hordered.writing hp
    refine ⟨⟨⟨s.unread, hbytes, .inr ⟨rfl, hfresh, rfl⟩⟩, fun hread => ?_, hordered.closed⟩,
      ⟨hshut.opened, hshut.shut, hshut.completed⟩, ⟨hkilled.phase, hkilled.sentry⟩⟩
    exact absurd hread (Bool.eq_false_iff.mp hfresh)
  | shut =>
    obtain rfl := Option.some.inj h
    obtain ⟨pings, hpings, hshape⟩ := hordered.bytes
    refine ⟨⟨⟨pings, hpings, hshape.imp_right fun ⟨_, hfresh, he⟩ => ⟨rfl, hfresh, he⟩⟩,
      fun hread => ⟨(hordered.last hread).1, rfl⟩, hordered.closed⟩,
      ⟨hshut.opened, hshut.shut, hshut.completed⟩, ⟨hkilled.phase, hkilled.sentry⟩⟩
  | umbilical event =>
    obtain ⟨umbilical, humbilical, rfl⟩ := Option.map_eq_some_iff.mp h
    exact ⟨hordered.read hp humbilical, hshut.read humbilical, hkilled.read humbilical⟩
  | exit killed =>
    obtain rfl := Option.some.inj h
    obtain ⟨hphase, -, rfl⟩ := hp
    refine ⟨⟨hordered.bytes, hordered.last, hordered.closed⟩,
      ⟨hshut.opened, hshut.shut, hshut.completed⟩, ⟨fun _ => hphase, ?_⟩⟩
    have hclosed := hordered.closed
    cases hread : s.zeroRead with
    | false => simp [killGroups, hclosed, hread]
    | true => simp [killGroups, hclosed, hread]

theorem Start.sound {mUmbilical_s : Nat} (hs : Start mUmbilical_s s) : s.Sound := by
  obtain ⟨umbilical, ⟨sentryPid, pidServer, start, -, rfl⟩, rfl⟩ := hs
  refine ⟨⟨⟨[], List.not_mem_nil, .inl rfl⟩, ?_, rfl⟩, ⟨fun _ => rfl, .inl rfl, ?_⟩, ⟨?_, ?_⟩⟩
  · intro h
    cases h
  · intro h
    cases h
  · intro h
    cases h
  · simp [enter]

theorem umbilical_of_reachable {mUmbilical_s : Nat} (hs : (system lap mUmbilical_s).Reachable s) :
    (UmbilicalRun.system lap mUmbilical_s).Reachable s.umbilical := by
  refine System.Reachable.project StreamRun.umbilical ?_ ?_ hs
  · rintro s ⟨umbilical, humbilical, rfl⟩
    exact humbilical
  · intro s event t _ h
    have h : s.next lap event = some t := h
    unfold next at h
    split_ifs at h
    cases event with
    | umbilical event =>
      obtain ⟨umbilical, humbilical, rfl⟩ := Option.map_eq_some_iff.mp h
      exact .inr ⟨event, humbilical⟩
    | ping | close | shut | exit =>
      obtain rfl := Option.some.inj h
      exact .inl rfl

theorem sound_of_reachable {mUmbilical_s : Nat} (hs : (system lap mUmbilical_s).Reachable s) : s.Sound :=
  System.Reachable.invariant (P := Sound) (fun _ h => Start.sound h) (fun _ _ _ _ hi hstep => hi.step hstep) hs

/-- An orderly shutdown is never mistaken for a failure of the sentry, nor a
failure for an orderly shutdown. -/
theorem toldApart_of_reachable {lap : LapTime} {mUmbilical_s : Nat} {s : StreamRun}
    (hs : (system lap mUmbilical_s).Reachable s) : s.ToldApart := by
  obtain ⟨hordered, hshut, hkilled⟩ := sound_of_reachable hs
  refine ⟨?_, ?_, fun hphase => ?_, hordered.last, fun hunread => ?_, ?_⟩
  · rcases hshut.shut with he | ⟨he, -⟩ <;> simp [he]
  · rcases hshut.shut with he | ⟨he, -⟩ <;> simp [he, STDIN_FILENO]
  · exact hshut.shutdowns_of_killing hphase
  · rw [hordered.closed]
    by_contra hread
    exact hunread (hordered.last (Bool.eq_true_of_not_eq_false hread)).1
  · rw [hkilled.sentry]
    constructor
    · rintro ⟨hexited, hfresh⟩
      exact ⟨hexited, hkilled.phase hexited, hfresh⟩
    · rintro ⟨hexited, -, hfresh⟩
      exact ⟨hexited, hfresh⟩

/-- The close request is read after a last ping, and the sentry is spared. -/
theorem toldApart_orderly :
    ∃ s, [StreamEvent.ping, .umbilical (.umbilical (.byte 46) true true 0), .ping, .close, .shut,
        .umbilical (.umbilical (.byte 46) true true 1), .umbilical (.umbilical (.byte 0) true true 2),
        .umbilical (.umbilical .eof true true 3), .umbilical .completed, .exit true].foldlM
          (next .monotonic) (enter (.enter 30 1 none 0)) = some s ∧
      s.killed = [.child] ∧ s.ToldApart :=
  ⟨_, rfl, rfl, toldApart_of_reachable (show (system .monotonic 30).Reachable _ from
    .of_foldlM (.of_init ⟨_, ⟨1, none, 0, nofun, rfl⟩, rfl⟩)
      [.ping, .umbilical (.umbilical (.byte 46) true true 0), .ping, .close, .shut,
        .umbilical (.umbilical (.byte 46) true true 1), .umbilical (.umbilical (.byte 0) true true 2),
        .umbilical (.umbilical .eof true true 3), .umbilical .completed, .exit true] rfl)⟩

end StreamRun

end PidSentry
