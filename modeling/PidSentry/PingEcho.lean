import PidSentry.PidClients
import PidSentry.SentryUmbilical

/-! The sentry and the umbilical process joined by the umbilical: one token goes
round as a ping, a posted echo request and an echo. -/

namespace PidSentry

namespace ChildMonitor

/-- The token as the sentry knows it: it is out while an echo is awaited. -/
def outstanding (self : ChildMonitor) : Nat :=
  if self.mUmbilical.mCycleCount < self.mUmbilical.mCycleLimit then 1 else 0

structure Counted (m : ChildMonitor) : Prop where
  bound : m.mUmbilical.mCycleCount ≤ m.mUmbilical.mCycleLimit
  positive : 0 < m.mUmbilical.mCycleLimit

/-- The callback reads `reads` echoes and writes the pings of its effects, and
keeps account of both. -/
structure Carries (m : ChildMonitor) (reads : Nat) (reply : Reply) : Prop where
  counted : reply.self.Counted
  token : reply.self.outstanding + reads = m.outstanding + reply.effects.count .ping

variable (lap : LapTime) (self : ChildMonitor) (aPollTime : Int)

theorem Spares.carries {self : ChildMonitor} {reply : Reply} (h : self.Spares reply) (hc : self.Counted) :
    self.Carries 0 reply := by
  refine ⟨⟨?_, ?_⟩, ?_⟩
  · rw [h.count, h.limit]
    exact hc.bound
  · rw [h.limit]
    exact hc.positive
  · simp only [outstanding, h.count, h.limit, h.pings]

theorem restartFdTimerUmbilical_carries (hc : self.Counted) :
    self.Carries 0 (self.restartFdTimerUmbilical lap aPollTime) ∧
      (self.restartFdTimerUmbilical lap aPollTime).rc = .ok := by
  unfold restartFdTimerUmbilical
  split_ifs with hne hlt
  · refine ⟨⟨⟨Nat.zero_le _, hc.positive⟩, ?_⟩, rfl⟩
    simp [outstanding, hc.positive, hlt]
  · exact absurd (Nat.lt_of_le_of_ne hc.bound hne) hlt
  · exact ⟨⟨hc, rfl⟩, rfl⟩

theorem pollFdEcho_carries (hc : self.Counted)
    (hlt : self.mUmbilical.mCycleCount < self.mUmbilical.mCycleLimit) :
    self.Carries 1 (self.pollFdEcho lap aPollTime) ∧
      (self.pollFdEcho lap aPollTime).rc = .ok := by
  unfold pollFdEcho
  split_ifs
  · exact ⟨⟨⟨Nat.le_refl _, hc.positive⟩, by simp [outstanding, hlt]⟩, rfl⟩
  · exact ⟨⟨⟨Nat.le_refl _, hc.positive⟩, by simp [outstanding, hlt]⟩, rfl⟩

theorem pollFdWriteUmbilical_carries (hc : self.Counted) (write : WriteResult)
    (he : self.mUmbilical.mCycleCount = self.mUmbilical.mCycleLimit) :
    self.Carries 0 (self.pollFdWriteUmbilical write) ∧
      (self.pollFdWriteUmbilical write).rc ≠ .abort := by
  unfold pollFdWriteUmbilical
  rw [if_pos he]
  cases write with
  | written =>
    refine ⟨⟨⟨Nat.zero_le _, hc.positive⟩, ?_⟩, nofun⟩
    simp [outstanding, he, hc.positive]
  | epipe | eintr | ewouldblock | failed => exact ⟨⟨hc, rfl⟩, nofun⟩

theorem pollFdTimeoutUmbilical_carries (hc : self.Counted) (state : ChildProcessState)
    (hlt : self.mUmbilical.mCycleCount < self.mUmbilical.mCycleLimit)
    (hopen : (self.pollFdTimeoutUmbilical lap state aPollTime).self.mPollFds.umbilical.armed) :
    self.Carries 0 (self.pollFdTimeoutUmbilical lap state aPollTime) := by
  unfold pollFdTimeoutUmbilical at hopen ⊢
  cases state with
  | running | exited | killed | dumped =>
    dsimp only at hopen ⊢
    split_ifs at hopen ⊢ with hlast
    · exact not_closed _ _ hopen
    · have hnext : self.mUmbilical.mCycleCount + 1 < self.mUmbilical.mCycleLimit :=
        Nat.lt_of_le_of_ne hlt hlast
      exact ⟨⟨hnext.le, hc.positive⟩, by simp [outstanding, hlt, hnext]⟩
  | stopped | trapped =>
    exact ⟨⟨Nat.zero_le _, hc.positive⟩, by simp [outstanding, hlt, hc.positive]⟩
  | echild | failed => exact ⟨hc, rfl⟩

theorem pollFdTimerUmbilical_carries (hc : self.Counted) (state : ChildProcessState)
    (write : WriteResult)
    (hopen : (self.pollFdTimerUmbilical lap state write aPollTime).self.mPollFds.umbilical.armed) :
    self.Carries 0 (self.pollFdTimerUmbilical lap state write aPollTime) := by
  rcases Nat.lt_or_eq_of_le hc.bound with hlt | he
  · rw [pollFdTimerUmbilical_awaiting lap self aPollTime state write hlt] at hopen ⊢
    exact pollFdTimeoutUmbilical_carries lap self aPollTime hc state hlt hopen
  · have hw := (pollFdWriteUmbilical_carries self hc write he).1
    unfold pollFdTimerUmbilical at hopen ⊢
    rw [if_neg (by simp [he])] at hopen ⊢
    cases write with
    | written | failed => exact hw
    | ewouldblock | eintr =>
      simp only [pollFdWriteUmbilical, he, if_true, Outcome.error_self]
      exact ⟨⟨hc.bound, hc.positive⟩, rfl⟩
    | epipe => exact not_closed _ _ hopen

end ChildMonitor

def ChildEvent.reads : ChildEvent → Nat
  | umbilical (.byte _) _ => 1
  | _ => 0

open ChildMonitor

theorem ChildEvent.reply_carries (lap : LapTime) {m : ChildMonitor} (activity : Int)
    {event : ChildEvent} (hc : m.Counted) (hready : event.Ready m)
    (hread : event.reads = 1 → m.mUmbilical.mCycleCount < m.mUmbilical.mCycleLimit)
    (hopen : (event.reply lap m activity).self.mPollFds.umbilical.armed) :
    m.Carries event.reads (event.reply lap m activity) := by
  cases event with
  | tetherActivity _ | tether => exact ⟨⟨hc.bound, hc.positive⟩, rfl⟩
  | umbilical read pollTime =>
    have harmed : m.mPollFds.umbilical.armed := hready
    simp only [reply, pollFdUmbilical, harmed, if_true] at hopen ⊢
    cases read with
    | byte value => exact (pollFdEcho_carries lap m pollTime hc (hread rfl)).1
    | eof | econnreset => exact not_closed _ _ hopen
    | eintr | failed => exact ⟨hc, rfl⟩
  | parent pollTime =>
    have hh := activateFdTimerTermination_spares lap { m with mPollFds.parent := .disarmed }
      pollTime .terminate
    exact Spares.carries ⟨hh.count, hh.limit, hh.entry, hh.pings⟩ hc
  | reapChild enabled flushed pollTime =>
    exact (pollFdReapChildEvent_spares lap m pollTime enabled flushed).carries hc
  | reapUmbilical enabled pollTime =>
    simp only [reply, pollFdReapUmbilicalEvent]
    split_ifs
    · exact (restartFdTimerUmbilical_carries lap m pollTime hc).1
    · exact ⟨⟨hc.bound, hc.positive⟩, rfl⟩
  | cont pollTime =>
    simp only [reply, pollFdContUmbilical]
    split_ifs <;> exact ⟨⟨hc.bound, hc.positive⟩, rfl⟩
  | timerTether laps state pollTime =>
    have hh := pollFdTimerTether_spares lap
      { m with mTimers.tether := m.mTimers.tether.lap laps } pollTime state activity
    exact Spares.carries ⟨hh.count, hh.limit, hh.entry, hh.pings⟩ hc
  | timerUmbilical laps state write pollTime =>
    have hh := pollFdTimerUmbilical_carries lap
      { m with mTimers.umbilical := m.mTimers.umbilical.lap laps } pollTime ⟨hc.bound, hc.positive⟩
      state write hopen
    exact ⟨hh.counted, hh.token⟩
  | timerTermination laps killed pollTime =>
    have hh := pollFdTimerTermination_spares
      { m with mTimers.termination := m.mTimers.termination.lap laps } killed
    exact Spares.carries ⟨hh.count, hh.limit, hh.entry, hh.pings⟩ hc
  | timerChild laps pinged pollTime =>
    simp only [reply, pollFdTimerChild]
    split_ifs <;> exact ⟨⟨hc.bound, hc.positive⟩, rfl⟩

namespace UmbilicalMonitor

/-- The callback reads `reads` pings and writes the echoes of its effects, and
keeps account of both; it leaves the umbilical as it was. -/
structure Carries (m : UmbilicalMonitor) (reads : Nat) (reply : Reply) : Prop where
  token : reply.self.mEchoRequest.toNat + reply.effects.count .echo = m.mEchoRequest.toNat + reads
  entry : reply.self.mFds.umbilical = m.mFds.umbilical

theorem not_closed {self : UmbilicalMonitor} {shutdown : Bool} {P : Prop}
    (hrc : (self.closeFdUmbilical shutdown).rc = .ok)
    (hopen : (self.closeFdUmbilical shutdown).self.mFds.umbilical.armed) : P := by
  unfold closeFdUmbilical at hrc hopen
  split_ifs at hrc hopen <;> simp at hrc hopen

theorem pollFdMessage_carries (lap : LapTime) (self : UmbilicalMonitor) {value : UInt8}
    (latched : Bool) (aPollTime : Int) (hvalue : value ≠ 0) (hlatch : self.mEchoRequest = false)
    (hrc : (self.pollFdMessage lap value latched aPollTime).rc = .ok) :
    self.Carries 1 (self.pollFdMessage lap value latched aPollTime) := by
  unfold pollFdMessage at hrc ⊢
  split_ifs at hrc ⊢
  · cases hrc
  · exact ⟨by simp [restartTimer, hlatch], rfl⟩
  · cases hrc

theorem pollFdEventPipe_carries (self : UmbilicalMonitor) (slept : Bool) {write : WriteResult}
    (hfd : self.mFds.umbilical.fd ≠ -1) (hwrite : write ≠ .epipe)
    (hrc : (self.pollFdEventPipe slept write).rc = .ok) :
    self.Carries 0 (self.pollFdEventPipe slept write) := by
  unfold pollFdEventPipe pollFdSendEcho at hrc ⊢
  cases slept with
  | true => exact ⟨rfl, rfl⟩
  | false =>
    cases hlatch : self.mEchoRequest with
    | false => exact ⟨by simp [hlatch], rfl⟩
    | true =>
      simp only [Bool.false_eq_true, if_false, hlatch, if_true, hfd] at hrc ⊢
      cases write with
      | written => exact ⟨by simp [hlatch], rfl⟩
      | eintr => exact ⟨by simp [hlatch], rfl⟩
      | epipe => exact absurd rfl hwrite
      | ewouldblock | failed => cases hrc

end UmbilicalMonitor

theorem UmbilicalEvent.reply_carries (lap : LapTime) {m : UmbilicalMonitor} {event : UmbilicalEvent}
    (hfd : m.mFds.umbilical.fd ≠ -1) (hread : event.reads = 1 → m.mEchoRequest = false)
    (hvalue : ∀ shutdown latched pollTime,
      event ≠ .umbilical (.byte 0) shutdown latched pollTime)
    (hwrite : ∀ slept, event ≠ .eventPipe slept .epipe) (hrc : (event.reply lap m).rc = .ok)
    (hopen : (event.reply lap m).self.mFds.umbilical.armed) :
    m.Carries event.reads (event.reply lap m) := by
  cases event with
  | umbilical read shutdown latched pollTime =>
    cases read with
    | byte value =>
      have hne : value ≠ 0 := fun h => hvalue shutdown latched pollTime (h ▸ rfl)
      exact UmbilicalMonitor.pollFdMessage_carries lap m latched pollTime hne (hread rfl) hrc
    | eof | econnreset => exact UmbilicalMonitor.not_closed hrc hopen
    | eintr => exact ⟨rfl, rfl⟩
    | failed => cases hrc
  | pidServer euid calls peer fd =>
    simp only [reply, UmbilicalMonitor.pollFdPidServer] at hrc ⊢
    cases hs : m.mPidServer with
    | none => simp [hs] at hrc
    | some server =>
      rcases server.acceptPidServerConnection_cases euid calls peer fd with he | ⟨-, -, -, he⟩
      · simp [hs, he] at hrc
      · simp only [he, Outcome.emit_rc, Outcome.emit_self, Outcome.emit_effects]
        split_ifs <;> exact ⟨by simp [reads, PidServerEffect.umbilical], rfl⟩
  | pidClient gone polled =>
    simp only [reply]
    cases hs : m.mPidServer with
    | none => simp [reply, UmbilicalMonitor.pollFdPidClient, hs] at hrc
    | some server =>
      rw [UmbilicalMonitor.pollFdPidClient_eq hs gone polled rfl]
      exact ⟨rfl, rfl⟩
  | eventPipe slept write =>
    exact UmbilicalMonitor.pollFdEventPipe_carries m slept hfd
      (fun h => hwrite slept (h ▸ rfl)) hrc
  | timerUmbilical laps stopped shutdown pollTime =>
    simp only [reply, UmbilicalMonitor.pollFdTimerUmbilical] at hrc hopen ⊢
    split_ifs at hrc hopen ⊢
    · exact ⟨rfl, rfl⟩
    · exact UmbilicalMonitor.not_closed hrc hopen
    · exact ⟨rfl, rfl⟩
  | completed => exact ⟨rfl, rfl⟩

theorem UmbilicalEvent.reply_entry (lap : LapTime) {m : UmbilicalMonitor} {event : UmbilicalEvent}
    (hopen : (event.reply lap m).self.mFds.umbilical.armed) : m.mFds.umbilical.armed := by
  cases event with
  | umbilical read shutdown latched pollTime =>
    cases read with
    | byte value =>
      simp only [reply, UmbilicalMonitor.pollFdUmbilical, UmbilicalMonitor.pollFdMessage] at hopen
      split_ifs at hopen <;> exact hopen
    | eof | econnreset =>
      simp only [reply, UmbilicalMonitor.pollFdUmbilical, UmbilicalMonitor.closeFdUmbilical] at hopen
      split_ifs at hopen
      · cases hopen
      · exact hopen
    | eintr | failed => exact hopen
  | pidServer euid calls peer fd =>
    simp only [reply, UmbilicalMonitor.pollFdPidServer] at hopen
    cases hs : m.mPidServer with
    | none => simpa [hs] using hopen
    | some server =>
      rcases server.acceptPidServerConnection_cases euid calls peer fd with he | ⟨-, -, -, he⟩
      · simpa [hs, he] using hopen
      · simp only [hs, he, Outcome.emit_rc, Outcome.emit_self] at hopen
        split_ifs at hopen <;> exact hopen
  | pidClient gone polled =>
    cases hs : m.mPidServer with
    | none => simpa [reply, UmbilicalMonitor.pollFdPidClient, hs] using hopen
    | some server => simpa [reply, UmbilicalMonitor.pollFdPidClient_eq hs gone polled rfl] using hopen
  | eventPipe slept write =>
    simp only [reply, UmbilicalMonitor.pollFdEventPipe, UmbilicalMonitor.pollFdSendEcho] at hopen
    split_ifs at hopen
    · exact hopen
    · exact hopen
    · cases write <;> exact hopen
    · exact hopen
  | timerUmbilical laps stopped shutdown pollTime =>
    simp only [reply, UmbilicalMonitor.pollFdTimerUmbilical,
      UmbilicalMonitor.closeFdUmbilical] at hopen
    split_ifs at hopen
    · exact hopen
    · cases hopen
    · exact hopen
    · exact hopen
  | completed => exact hopen

/-- The two processes, the messages under way between them, and whether the
sentry has closed its end or asked for the other end to be closed. -/
structure PingEcho where
  sentry : ChildRun
  umbilical : UmbilicalRun
  pings : Nat
  echoes : Nat
  stopped : Bool
  deriving DecidableEq, Repr

inductive PingEchoEvent
  | sentry (event : ChildEvent)
  | umbilical (event : UmbilicalEvent)
  | stop
  deriving DecidableEq, Repr

namespace PingEcho

/-- The umbilical process has neither ended nor closed its end. -/
def Listens (s : PingEcho) : Prop :=
  s.umbilical.monitor.mFds.umbilical.armed ∧
    (s.umbilical.phase = .synchronising ∨ s.umbilical.phase = .looping)

instance (s : PingEcho) : Decidable s.Listens := inferInstanceAs (Decidable (_ ∧ _))

/-- Neither end has closed the umbilical. -/
def Open (s : PingEcho) : Prop :=
  s.stopped = false ∧ s.sentry.monitor.mPollFds.umbilical.armed ∧ s.Listens

instance (s : PingEcho) : Decidable s.Open := inferInstanceAs (Decidable (_ ∧ _))

/-- What a stream socket lets the two ends see of each other: bytes that have
been written, and the end of the stream or EPIPE only once the other end is
closed. The sentry writes a zero byte only to ask for a close. -/
def Permits (s : PingEcho) : PingEchoEvent → Prop
  | .sentry event =>
    s.stopped = false ∧
      match event with
      | .umbilical (.byte _) _ => 0 < s.echoes
      | .umbilical .eof _ | .umbilical .econnreset _ | .timerUmbilical _ _ .epipe _ => ¬ s.Listens
      | _ => True
  | .umbilical event =>
    match event with
    | .umbilical (.byte value) .. => if value = 0 then s.stopped = true else 0 < s.pings
    | .umbilical .eof .. | .umbilical .econnreset .. | .eventPipe _ .epipe => s.stopped = true
    | _ => True
  | .stop => True

instance (s : PingEcho) : (event : PingEchoEvent) → Decidable (s.Permits event)
  | .sentry (.umbilical (.byte _) _) => inferInstanceAs (Decidable (s.stopped = false ∧ 0 < s.echoes))
  | .sentry (.umbilical .eof _) | .sentry (.umbilical .econnreset _)
  | .sentry (.timerUmbilical _ _ .epipe _) =>
    inferInstanceAs (Decidable (s.stopped = false ∧ ¬ s.Listens))
  | .sentry (.umbilical .eintr _) | .sentry (.umbilical .failed _)
  | .sentry (.timerUmbilical _ _ .written _) | .sentry (.timerUmbilical _ _ .eintr _)
  | .sentry (.timerUmbilical _ _ .ewouldblock _) | .sentry (.timerUmbilical _ _ .failed _)
  | .sentry (.tetherActivity _) | .sentry .tether | .sentry (.parent _) | .sentry (.reapChild ..)
  | .sentry (.reapUmbilical ..) | .sentry (.cont _) | .sentry (.timerTether ..)
  | .sentry (.timerTermination ..) | .sentry (.timerChild ..) =>
    inferInstanceAs (Decidable (s.stopped = false ∧ True))
  | .umbilical (.umbilical (.byte value) ..) =>
    inferInstanceAs (Decidable (if value = 0 then s.stopped = true else 0 < s.pings))
  | .umbilical (.umbilical .eof ..) | .umbilical (.umbilical .econnreset ..)
  | .umbilical (.eventPipe _ .epipe) => inferInstanceAs (Decidable (s.stopped = true))
  | .umbilical (.umbilical .eintr ..) | .umbilical (.umbilical .failed ..)
  | .umbilical (.eventPipe _ .written) | .umbilical (.eventPipe _ .eintr)
  | .umbilical (.eventPipe _ .ewouldblock) | .umbilical (.eventPipe _ .failed)
  | .umbilical (.pidServer ..) | .umbilical (.pidClient ..) | .umbilical (.timerUmbilical ..)
  | .umbilical .completed | .stop => .isTrue trivial

def next (lap : LapTime) (s : PingEcho) (event : PingEchoEvent) : Option PingEcho :=
  if s.Permits event then
    match event with
    | .sentry event => (s.sentry.next lap event).map fun sentry => { s with
        sentry := sentry
        echoes := s.echoes - event.reads
        pings := s.pings +
          (event.reply lap s.sentry.monitor s.sentry.activity).effects.count .ping }
    | .umbilical event => (s.umbilical.next lap event).map fun umbilical => { s with
        umbilical := umbilical
        pings := s.pings - event.reads
        echoes := s.echoes + (event.reply lap s.umbilical.monitor).effects.count .echo }
    | .stop => some { s with stopped := true }
  else none

def Start (lap : LapTime) (options : ServerOptions) (s : PingEcho) : Prop :=
  ∃ sentry umbilical, ChildRun.Start lap options sentry ∧
    UmbilicalRun.Start options.mUmbilical_s umbilical ∧ s = ⟨sentry, umbilical, 0, 0, false⟩

def system (lap : LapTime) (options : ServerOptions) : System PingEcho PingEchoEvent :=
  .ofNext (Start lap options) (next lap)

/-- Pings in transit, the posted echo request, and echoes in transit. -/
def tokens (s : PingEcho) : Nat :=
  s.pings + s.umbilical.monitor.mEchoRequest.toNat + s.echoes

/-- The one token is out exactly when the sentry awaits an echo. -/
structure Conserved (s : PingEcho) : Prop where
  counted : s.sentry.monitor.Counted
  tokens : s.tokens = s.sentry.monitor.outstanding
  fd : s.umbilical.monitor.mFds.umbilical.fd ≠ -1

theorem sentry_reachable {lap : LapTime} {options : ServerOptions} {s : PingEcho}
    (hs : (system lap options).Reachable s) : (ChildRun.system lap options).Reachable s.sentry := by
  refine System.Reachable.project PingEcho.sentry ?_ ?_ hs
  · rintro s ⟨sentry, umbilical, hsentry, -, rfl⟩
    exact hsentry
  · intro s event t _ hstep
    have hnext : s.next lap event = some t := hstep
    unfold next at hnext
    split_ifs at hnext
    cases event with
    | sentry event =>
      obtain ⟨sentry, hs, rfl⟩ := Option.map_eq_some_iff.mp hnext
      exact .inr ⟨event, hs⟩
    | umbilical event =>
      obtain ⟨umbilical, -, rfl⟩ := Option.map_eq_some_iff.mp hnext
      exact .inl rfl
    | stop =>
      obtain rfl := Option.some.inj hnext
      exact .inl rfl

theorem Open.of_sentry {lap : LapTime} {s t : PingEcho} {event : ChildEvent}
    (h : s.next lap (.sentry event) = some t) (ht : t.Open) :
    s.Open ∧ event.Ready s.sentry.monitor ∧ t.sentry = s.sentry.after lap event ∧
      t.umbilical = s.umbilical ∧ t.echoes = s.echoes - event.reads ∧
      t.pings = s.pings +
        (event.reply lap s.sentry.monitor s.sentry.activity).effects.count .ping ∧
      s.Permits (.sentry event) := by
  unfold next at h
  split_ifs at h with hp
  obtain ⟨sentry, hs, rfl⟩ := Option.map_eq_some_iff.mp h
  obtain ⟨⟨-, hready⟩, rfl⟩ := ChildRun.next_eq_some.mp hs
  obtain ⟨hstop, harmed, hlistens⟩ := ht
  exact ⟨⟨hstop, (event.reply_open lap s.sentry.activity harmed).1, hlistens⟩, hready, rfl, rfl, rfl,
    rfl, hp⟩

theorem Open.of_umbilical {lap : LapTime} {s t : PingEcho} {event : UmbilicalEvent}
    (h : s.next lap (.umbilical event) = some t) (ht : t.Open) :
    s.Open ∧ (event.reply lap s.umbilical.monitor).rc = .ok ∧
      (event.reply lap s.umbilical.monitor).self.mFds.umbilical.armed ∧
      t = { s with
        umbilical := s.umbilical.after lap event
        pings := s.pings - event.reads
        echoes := s.echoes + (event.reply lap s.umbilical.monitor).effects.count .echo } ∧
      s.Permits (.umbilical event) := by
  unfold next at h
  split_ifs at h with hp
  obtain ⟨umbilical, hu, rfl⟩ := Option.map_eq_some_iff.mp h
  obtain ⟨hready, rfl⟩ := UmbilicalRun.next_eq_some.mp hu
  obtain ⟨hstop, hsentry, harmed, hphase⟩ := ht
  have hbefore : s.umbilical.phase = .synchronising ∨ s.umbilical.phase = .looping := by
    cases event with
    | umbilical => exact hready.1
    | eventPipe => exact .inr hready
    | pidServer | pidClient | timerUmbilical | completed => exact .inr hready.1
  refine ⟨⟨hstop, hsentry, event.reply_entry lap harmed, hbefore⟩, ?_, harmed, rfl, hp⟩
  simp only [UmbilicalRun.after] at hphase
  cases hrc : (event.reply lap s.umbilical.monitor).rc with
  | ok => rfl
  | error | abort => simp [hrc] at hphase

theorem Conserved.sentry {lap : LapTime} {s t : PingEcho} {event : ChildEvent}
    (hi : s.Conserved) (h : s.next lap (.sentry event) = some t) (ht : t.Open) : t.Conserved := by
  obtain ⟨ho, hready, hsentry, humbilical, hechoes, hpings, hp⟩ := Open.of_sentry h ht
  have htok := hi.tokens
  have hread : event.reads = 1 → 0 < s.echoes := by
    intro hr
    unfold ChildEvent.reads at hr
    split at hr
    · exact hp.2
    · cases hr
  have hle : event.reads ≤ 1 := by unfold ChildEvent.reads; split <;> omega
  have hwait : event.reads = 1 →
      s.sentry.monitor.mUmbilical.mCycleCount < s.sentry.monitor.mUmbilical.mCycleLimit := by
    intro hr
    have hpos := hread hr
    by_contra hn
    simp only [PingEcho.tokens, ChildMonitor.outstanding, hn, if_false] at htok
    omega
  have harmed : (event.reply lap s.sentry.monitor s.sentry.activity).self.mPollFds.umbilical.armed := by
    have := ht.2.1
    rwa [hsentry] at this
  have hc := event.reply_carries lap s.sentry.activity hi.counted hready hwait harmed
  refine ⟨by rw [hsentry]; exact hc.counted, ?_, by rw [humbilical]; exact hi.fd⟩
  have htoken := hc.token
  have hout : t.sentry.monitor.outstanding =
      (event.reply lap s.sentry.monitor s.sentry.activity).self.outstanding := by rw [hsentry]; rfl
  simp only [PingEcho.tokens] at htok ⊢
  rw [humbilical, hechoes, hpings, hout]
  by_cases hr : event.reads = 1
  · have := hread hr
    omega
  · omega

theorem Conserved.umbilical {lap : LapTime} {s t : PingEcho} {event : UmbilicalEvent}
    (hi : s.Conserved) (h : s.next lap (.umbilical event) = some t) (ht : t.Open) :
    t.Conserved := by
  obtain ⟨ho, hrc, harmed, rfl, hp⟩ := Open.of_umbilical h ht
  have htok := hi.tokens
  have hstop : s.stopped = false := ho.1
  have hout : s.sentry.monitor.outstanding ≤ 1 := by
    unfold ChildMonitor.outstanding; split <;> omega
  have hvalue : ∀ shutdown latched pollTime,
      event ≠ .umbilical (.byte 0) shutdown latched pollTime := by
    rintro shutdown latched pollTime rfl
    simp [Permits, hstop] at hp
  have hwrite : ∀ slept, event ≠ .eventPipe slept .epipe := by
    rintro slept rfl
    simp [Permits, hstop] at hp
  have hread : event.reads = 1 → 0 < s.pings := by
    intro hr
    unfold UmbilicalEvent.reads at hr
    split at hr
    · simp only [Permits] at hp
      split at hp
      · simp [hstop] at hp
      · exact hp
    · cases hr
  have hle : event.reads ≤ 1 := by unfold UmbilicalEvent.reads; split <;> omega
  have hlatch : event.reads = 1 → s.umbilical.monitor.mEchoRequest = false := by
    intro hr
    have hpos := hread hr
    by_contra hn
    simp only [PingEcho.tokens, Bool.eq_true_of_not_eq_false hn, Bool.toNat_true] at htok
    omega
  have hc := event.reply_carries lap hi.fd hlatch hvalue hwrite hrc harmed
  have htoken := hc.token
  refine ⟨hi.counted, ?_, by simp only [UmbilicalRun.after, hc.entry]; exact hi.fd⟩
  simp only [PingEcho.tokens, UmbilicalRun.after] at htok ⊢
  by_cases hr : event.reads = 1
  · have := hread hr
    omega
  · omega

theorem conserved_of_open {lap : LapTime} {options : ServerOptions} {s : PingEcho}
    (hs : (system lap options).Reachable s) (ho : s.Open) : s.Conserved := by
  refine System.Reachable.invariant (P := fun s => s.Open → s.Conserved) ?_ ?_ hs ho
  · rintro s ⟨sentry, umbilical, ⟨childPid, umbilicalPid, tetherFd, umbilicalFd, parentFd, start,
      activity, rfl⟩, ⟨sentryPid, pidServer, start', -, rfl⟩, rfl⟩ -
    exact ⟨⟨Nat.le_refl _, Nat.two_pos⟩, rfl, by simp [UmbilicalRun.enter,
      UmbilicalMonitor.create, UmbilicalMonitor.STDIN_FILENO]⟩
  · intro s event t _ hi hstep ht
    cases event with
    | sentry event => exact (hi (Open.of_sentry hstep ht).1).sentry hstep ht
    | umbilical event => exact (hi (Open.of_umbilical hstep ht).1).umbilical hstep ht
    | stop =>
      obtain rfl : { s with stopped := true } = t := Option.some.inj hstep
      cases ht.1

/-- At most one token is about, and it is about exactly while an echo is
awaited; a ping never finds a request posted already; and the assertions that
the callbacks of the sentry make of its count hold. -/
structure OneToken (lap : LapTime) (s : PingEcho) : Prop where
  one : s.tokens ≤ 1
  awaited : s.tokens = 1 ↔
    s.sentry.monitor.mUmbilical.mCycleCount < s.sentry.monitor.mUmbilical.mCycleLimit
  uncoalesced : 0 < s.pings → s.umbilical.monitor.mEchoRequest = false
  restart : ∀ pollTime, (s.sentry.monitor.restartFdTimerUmbilical lap pollTime).rc ≠ .abort
  echo : 0 < s.echoes → ∀ value pollTime,
    (s.sentry.monitor.pollFdUmbilical lap (.byte value) pollTime).rc ≠ .abort
  write : s.sentry.monitor.mUmbilical.mCycleCount = s.sentry.monitor.mUmbilical.mCycleLimit →
    ∀ write, (s.sentry.monitor.pollFdWriteUmbilical write).rc ≠ .abort
  timer : s.sentry.monitor.mUmbilical.mCycleCount ≠ s.sentry.monitor.mUmbilical.mCycleLimit →
    ∀ state write pollTime, s.sentry.monitor.pollFdTimerUmbilical lap state write pollTime =
      s.sentry.monitor.pollFdTimeoutUmbilical lap state pollTime

/-- While neither end has closed the umbilical, one token goes round. -/
theorem token_conserved (lap : LapTime) (options : ServerOptions) {s : PingEcho}
    (hs : (system lap options).Reachable s) (ho : s.Open) : s.OneToken lap := by
  have hi := conserved_of_open hs ho
  have htok := hi.tokens
  have hbound := hi.counted.bound
  constructor
  case one =>
    rw [htok]
    unfold ChildMonitor.outstanding
    split <;> omega
  case awaited =>
    rw [htok]
    unfold ChildMonitor.outstanding
    split <;> simp_all
  case uncoalesced =>
    intro hpos
    by_contra hn
    have hout : s.sentry.monitor.outstanding ≤ 1 := by
      unfold ChildMonitor.outstanding; split <;> omega
    simp only [tokens, Bool.eq_true_of_not_eq_false hn, Bool.toNat_true] at htok
    omega
  case restart =>
    intro pollTime
    rw [(restartFdTimerUmbilical_carries lap s.sentry.monitor pollTime hi.counted).2]
    nofun
  case echo =>
    intro hpos value pollTime
    have hlt : s.sentry.monitor.mUmbilical.mCycleCount <
        s.sentry.monitor.mUmbilical.mCycleLimit := by
      by_contra hn
      simp only [tokens, ChildMonitor.outstanding, hn, if_false] at htok
      omega
    simp only [pollFdUmbilical, ho.2.1, if_true]
    rw [(pollFdEcho_carries lap s.sentry.monitor pollTime hi.counted hlt).2]
    nofun
  case write =>
    exact fun he write => (pollFdWriteUmbilical_carries s.sentry.monitor hi.counted write he).2
  case timer =>
    exact fun hne state write pollTime => pollFdTimerUmbilical_awaiting lap s.sentry.monitor
      pollTime state write (Nat.lt_of_le_of_ne hbound hne)

theorem token_conserved_echoing :
    ∃ s, [PingEchoEvent.sentry (.timerUmbilical 1 .running .written 0), .sentry (.cont 1),
        .umbilical (.umbilical (.byte 46) true true 1), .umbilical (.eventPipe false .eintr),
        .sentry (.reapUmbilical true 2), .umbilical (.eventPipe false .written)].foldlM
          (next .monotonic) ⟨.enter .monotonic ⟨true, 30, 30, 30⟩ 2 3 4 5 none 0 0,
            .enter 30 1 none 0, 0, 0, false⟩ = some s ∧
      s.echoes = 1 ∧ s.OneToken .monotonic :=
  ⟨_, rfl, rfl, token_conserved .monotonic ⟨true, 30, 30, 30⟩
    (.of_foldlM (.of_init ⟨_, _, ⟨2, 3, 4, 5, none, 0, 0, rfl⟩, ⟨1, none, 0, nofun, rfl⟩, rfl⟩)
      [.sentry (.timerUmbilical 1 .running .written 0), .sentry (.cont 1),
        .umbilical (.umbilical (.byte 46) true true 1), .umbilical (.eventPipe false .eintr),
        .sentry (.reapUmbilical true 2), .umbilical (.eventPipe false .written)] rfl)
    (by decide)⟩

end PingEcho

end PidSentry
