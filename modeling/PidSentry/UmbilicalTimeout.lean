import PidSentry.ChildRun

/-! The umbilical timeout: which firings of the umbilical timer come by the lapse
of its period, and what SIGCONT does to the count of them. -/

namespace PidSentry

namespace ChildMonitor

variable (lap : LapTime) (self : ChildMonitor) (aPollTime : Int)

@[simp] theorem pollFdCloseUmbilical_mUmbilical :
    (self.pollFdCloseUmbilical lap aPollTime).self.mUmbilical = self.mUmbilical := by
  simp [pollFdCloseUmbilical]

/-- The callback has nothing to do with the umbilical. -/
structure Spares (m : ChildMonitor) (reply : Reply) : Prop where
  count : reply.self.mUmbilical.mCycleCount = m.mUmbilical.mCycleCount
  limit : reply.self.mUmbilical.mCycleLimit = m.mUmbilical.mCycleLimit
  entry : reply.self.mPollFds.umbilical = m.mPollFds.umbilical
  pings : reply.effects.count .ping = 0

theorem activateFdTimerTermination_spares (aAction : ChildTerminationAction) :
    self.Spares (self.activateFdTimerTermination lap aAction aPollTime) :=
  ⟨by simp, by simp, by simp, by simp⟩

theorem pollFdTimerTermination_spares (killed : Bool) :
    self.Spares (self.pollFdTimerTermination killed) := by
  unfold pollFdTimerTermination
  split
  · dsimp only
    split_ifs <;> exact ⟨rfl, rfl, rfl, rfl⟩
  · exact ⟨rfl, rfl, rfl, rfl⟩

theorem pollFdTimerTether_spares (state : ChildProcessState) (since : Int) :
    self.Spares (self.pollFdTimerTether lap state since aPollTime) := by
  unfold pollFdTimerTether
  cases state with
  | running | exited | killed | dumped =>
    dsimp only
    split_ifs
    · exact ⟨rfl, rfl, rfl, rfl⟩
    · exact ⟨rfl, rfl, rfl, rfl⟩
    · have hh := activateFdTimerTermination_spares lap
        { self with mTether.mCycleCount := self.mTether.mCycleLimit } aPollTime .abort
      exact ⟨hh.count, hh.limit, hh.entry, hh.pings⟩
  | stopped | trapped | failed => exact ⟨rfl, rfl, rfl, rfl⟩
  | echild => exact activateFdTimerTermination_spares lap self aPollTime .abort

theorem pollFdReapChildEvent_spares (enabled flushed : Bool) :
    self.Spares (self.pollFdReapChildEvent lap enabled flushed aPollTime) := by
  unfold pollFdReapChildEvent restartFdTimerTether
  dsimp only
  split_ifs <;> exact ⟨rfl, rfl, rfl, rfl⟩

/-- The count of umbilical periods is left alone, started over, or set to its
limit; the limit stays. -/
structure Recounts (m n : ChildMonitor) : Prop where
  limit : n.mUmbilical.mCycleLimit = m.mUmbilical.mCycleLimit
  count : n.mUmbilical.mCycleCount = m.mUmbilical.mCycleCount ∨ n.mUmbilical.mCycleCount = 0 ∨
    n.mUmbilical.mCycleCount = m.mUmbilical.mCycleLimit

theorem Recounts.of_eq {m n : ChildMonitor} (h : n.mUmbilical = m.mUmbilical) : Recounts m n :=
  ⟨by rw [h], .inl (by rw [h])⟩

theorem Spares.recounts {m : ChildMonitor} {reply : Reply} (h : m.Spares reply) :
    m.Recounts reply.self := ⟨h.limit, .inl h.count⟩

theorem pollFdUmbilical_recounts (read : ReadResult) :
    self.Recounts (self.pollFdUmbilical lap read aPollTime).self := by
  unfold pollFdUmbilical
  split_ifs
  · cases read with
    | byte value =>
      simp only [pollFdEcho]
      split_ifs
      · exact ⟨rfl, .inr (.inr rfl)⟩
      · exact ⟨rfl, .inr (.inr rfl)⟩
      · exact .of_eq rfl
    | eof | eintr | econnreset | failed => exact .of_eq (by simp)
  · exact .of_eq rfl

theorem restartFdTimerUmbilical_recounts :
    self.Recounts (self.restartFdTimerUmbilical lap aPollTime).self := by
  unfold restartFdTimerUmbilical
  split_ifs
  · exact ⟨rfl, .inr (.inl rfl)⟩
  · exact .of_eq rfl
  · exact .of_eq rfl

/-- Waiting for an echo, the timer counts a period, or starts over if the
umbilical is stopped; it declares a timeout when the count meets its limit. -/
theorem pollFdTimeoutUmbilical_count (state : ChildProcessState) :
    (self.pollFdTimeoutUmbilical lap state aPollTime).self.mUmbilical.mCycleLimit =
        self.mUmbilical.mCycleLimit ∧
      ((self.pollFdTimeoutUmbilical lap state aPollTime).self.mUmbilical.mCycleCount =
          self.mUmbilical.mCycleCount ∨
        (self.pollFdTimeoutUmbilical lap state aPollTime).self.mUmbilical.mCycleCount = 0 ∨
        (self.pollFdTimeoutUmbilical lap state aPollTime).self.mUmbilical.mCycleCount =
          self.mUmbilical.mCycleCount + 1) := by
  unfold pollFdTimeoutUmbilical
  cases state with
  | running | exited | killed | dumped =>
    dsimp only
    split_ifs <;> simp
  | stopped | trapped | echild | failed => simp

theorem pollFdTimerUmbilical_awaiting (state : ChildProcessState) (write : WriteResult)
    (h : self.mUmbilical.mCycleCount < self.mUmbilical.mCycleLimit) :
    self.pollFdTimerUmbilical lap state write aPollTime =
      self.pollFdTimeoutUmbilical lap state aPollTime := by
  simp only [pollFdTimerUmbilical, ne_eq, Nat.ne_of_lt h, not_false_eq_true, h, if_true]

theorem pollFdWriteUmbilical_recounts (write : WriteResult) :
    self.Recounts (self.pollFdWriteUmbilical write).self := by
  unfold pollFdWriteUmbilical
  split_ifs
  · cases write with
    | written => exact ⟨rfl, .inr (.inl rfl)⟩
    | epipe | eintr | ewouldblock | failed => exact .of_eq rfl
  · exact .of_eq rfl

theorem pollFdTimerUmbilical_recounts (state : ChildProcessState) (write : WriteResult)
    (h : ¬ self.mUmbilical.mCycleCount < self.mUmbilical.mCycleLimit) :
    self.Recounts (self.pollFdTimerUmbilical lap state write aPollTime).self := by
  unfold pollFdTimerUmbilical
  split_ifs
  · exact .of_eq rfl
  · have hw := pollFdWriteUmbilical_recounts self write
    cases write with
    | written | eintr | ewouldblock | failed => exact ⟨hw.limit, hw.count⟩
    | epipe => exact ⟨by simp [hw.limit], by simpa using hw.count⟩

end ChildMonitor

open ChildMonitor

theorem ChildEvent.reply_recounts (lap : LapTime) (m : ChildMonitor) (activity : Int)
    (event : ChildEvent)
    (h : ∀ laps state write pollTime, event = .timerUmbilical laps state write pollTime →
      ¬ m.mUmbilical.mCycleCount < m.mUmbilical.mCycleLimit) :
    m.Recounts (event.reply lap m activity).self := by
  cases event with
  | tetherActivity _ | tether => exact .of_eq rfl
  | umbilical read pollTime => exact pollFdUmbilical_recounts lap m pollTime read
  | parent pollTime => exact .of_eq (by simp [reply, pollFdParent])
  | reapChild enabled flushed pollTime =>
    exact (pollFdReapChildEvent_spares lap m pollTime enabled flushed).recounts
  | reapUmbilical enabled pollTime =>
    simp only [reply, pollFdReapUmbilicalEvent]
    split_ifs
    · exact restartFdTimerUmbilical_recounts lap m pollTime
    · exact .of_eq rfl
  | cont pollTime =>
    simp only [reply, pollFdContUmbilical]
    split_ifs <;> exact ⟨rfl, .inl rfl⟩
  | timerTether laps state pollTime =>
    have hh := pollFdTimerTether_spares lap
      { m with mTimers.tether := m.mTimers.tether.lap laps } pollTime state activity
    exact ⟨hh.limit, .inl hh.count⟩
  | timerUmbilical laps state write pollTime =>
    have hh := pollFdTimerUmbilical_recounts lap
      { m with mTimers.umbilical := m.mTimers.umbilical.lap laps } pollTime state write
      (h laps state write pollTime rfl)
    exact ⟨hh.limit, hh.count⟩
  | timerTermination laps killed pollTime =>
    have hh := pollFdTimerTermination_spares
      { m with mTimers.termination := m.mTimers.termination.lap laps } killed
    exact ⟨hh.limit, .inl hh.count⟩
  | timerChild laps pinged pollTime =>
    simp only [reply, pollFdTimerChild]
    split_ifs <;> exact .of_eq rfl

theorem ChildEvent.reply_counts (lap : LapTime) (m : ChildMonitor) (activity : Int) (laps : Nat)
    (state : ChildProcessState) (write : WriteResult) (pollTime : Int)
    (h : m.mUmbilical.mCycleCount < m.mUmbilical.mCycleLimit) :
    let n := ((timerUmbilical laps state write pollTime).reply lap m activity).self
    n.mUmbilical.mCycleLimit = m.mUmbilical.mCycleLimit ∧
      (n.mUmbilical.mCycleCount = m.mUmbilical.mCycleCount ∨ n.mUmbilical.mCycleCount = 0 ∨
        n.mUmbilical.mCycleCount = m.mUmbilical.mCycleCount + 1) := by
  intro n
  have hh := pollFdTimeoutUmbilical_count lap
    { m with mTimers.umbilical := m.mTimers.umbilical.lap laps } pollTime state
  rw [← pollFdTimerUmbilical_awaiting lap
    { m with mTimers.umbilical := m.mTimers.umbilical.lap laps } pollTime state write h] at hh
  exact hh

/-- A run with what its umbilical timer has been through: the start of the
period that is running, had SIGCONT not moved it, and the periods that have
lapsed since the last ping was written or the count last started over. -/
structure TimedRun where
  child : ChildRun
  start : Int
  lapses : Nat
  deriving DecidableEq, Repr

namespace TimedRun

/-- A firing that comes at least a period after the start of the period. -/
def Lapsed (s : TimedRun) : ChildEvent → Prop
  | .timerUmbilical _ _ _ pollTime =>
    s.start + s.child.monitor.mTimers.umbilical.mPeriod ≤ pollTime
  | _ => False

instance (s : TimedRun) : (event : ChildEvent) → Decidable (s.Lapsed event)
  | .timerUmbilical _ _ _ pollTime =>
    inferInstanceAs (Decidable (s.start + s.child.monitor.mTimers.umbilical.mPeriod ≤ pollTime))
  | .tetherActivity _ | .tether | .umbilical .. | .parent _ | .reapChild .. | .reapUmbilical ..
  | .cont _ | .timerTether .. | .timerTermination .. | .timerChild .. => .isFalse id

def DueAt (s : TimedRun) : ChildEvent → Prop
  | .cont pollTime => s.child.monitor.mTimers.umbilical.Due pollTime
  | _ => True

instance (s : TimedRun) : (event : ChildEvent) → Decidable (s.DueAt event)
  | .cont pollTime =>
    inferInstanceAs (Decidable (s.child.monitor.mTimers.umbilical.Due pollTime))
  | .tetherActivity _ | .tether | .umbilical .. | .parent _ | .reapChild .. | .reapUmbilical ..
  | .timerTether .. | .timerUmbilical .. | .timerTermination .. | .timerChild .. => .isTrue trivial

def Awaits (s : TimedRun) : Prop :=
  s.child.monitor.mUmbilical.mCycleCount < s.child.monitor.mUmbilical.mCycleLimit

instance (s : TimedRun) : Decidable s.Awaits := inferInstanceAs (Decidable (_ < _))

def after (s : TimedRun) (event : ChildEvent) (child : ChildRun) : TimedRun where
  child := child
  start :=
    if child.monitor.mTimers.umbilical.mSince ≠ s.child.monitor.mTimers.umbilical.mSince ∧
        s.DueAt event then child.monitor.mTimers.umbilical.mSince
    else s.start
  lapses :=
    if child.monitor.mUmbilical.mCycleCount = 0 then 0
    else if s.Awaits ∧ s.Lapsed event then s.lapses + 1
    else s.lapses

def next (lap : LapTime) (s : TimedRun) (event : ChildEvent) : Option TimedRun :=
  (s.child.next lap event).map (s.after event)

def enter (child : ChildRun) : TimedRun :=
  ⟨child, child.monitor.mTimers.umbilical.mSince, 0⟩

def Start (lap : LapTime) (options : ServerOptions) (s : TimedRun) : Prop :=
  ∃ child, ChildRun.Start lap options child ∧ s = enter child

def system (lap : LapTime) (options : ServerOptions) : System TimedRun ChildEvent :=
  .ofNext (Start lap options) (next lap)

/-- The timer declares the umbilical timed out only after as many lapses of its
period as the limit asks for. -/
def TimesOutLapsed (s : TimedRun) (event : ChildEvent) (t : TimedRun) : Prop :=
  ∀ laps state write pollTime, event = .timerUmbilical laps state write pollTime → s.Awaits →
    t.child.monitor.mUmbilical.mCycleCount = t.child.monitor.mUmbilical.mCycleLimit →
    t.child.monitor.mUmbilical.mCycleLimit ≤ t.lapses

/-- SIGCONT is processed while no echo is awaited, or once the timer is due. -/
def ContinuesIdle (s : TimedRun) (event : ChildEvent) : Prop :=
  ¬ s.Awaits ∨ s.DueAt event

instance (s : TimedRun) (event : ChildEvent) : Decidable (s.ContinuesIdle event) :=
  inferInstanceAs (Decidable (_ ∨ _))

/-- The timer has not been moved by SIGCONT, and each period counted against a
ping has lapsed. -/
structure Punctual (s : TimedRun) : Prop where
  start : s.start = s.child.monitor.mTimers.umbilical.mSince
  bound : s.child.monitor.mUmbilical.mCycleCount ≤ s.child.monitor.mUmbilical.mCycleLimit
  lapses : s.Awaits → s.child.monitor.mUmbilical.mCycleCount ≤ s.lapses

theorem Punctual.after_start {lap : LapTime} {s : TimedRun} {event : ChildEvent}
    (hi : s.Punctual) (hidle : s.ContinuesIdle event) :
    (s.after event (s.child.after lap event)).start =
      (s.child.after lap event).monitor.mTimers.umbilical.mSince := by
  simp only [after]
  split_ifs with hmoved
  · rfl
  · rw [hi.start]
    by_contra hne
    have hdue : ¬ s.DueAt event := fun hd => hmoved ⟨Ne.symm hne, hd⟩
    cases event with
    | cont pollTime =>
      have hlimit : s.child.monitor.mUmbilical.mCycleCount =
          s.child.monitor.mUmbilical.mCycleLimit :=
        Nat.le_antisymm hi.bound (Nat.le_of_not_lt (hidle.resolve_right hdue))
      exact hne (by simp [ChildRun.after, ChildEvent.reply, pollFdContUmbilical, hlimit])
    | _ => exact hdue trivial

/-- Away from a firing that awaits an echo, the periods counted stay within
those that have lapsed. -/
theorem Punctual.of_recounts {s : TimedRun} {event : ChildEvent} {child : ChildRun}
    (hi : s.Punctual) (h : s.child.monitor.Recounts child.monitor)
    (hstart : (s.after event child).start = child.monitor.mTimers.umbilical.mSince) :
    (s.after event child).Punctual := by
  have hb := hi.bound
  have hlimit := h.limit
  have hcount := h.count
  refine ⟨hstart, by simp only [after]; omega, fun hawaits => ?_⟩
  by_cases hzero : child.monitor.mUmbilical.mCycleCount = 0
  · exact hzero ▸ Nat.zero_le _
  · have hsame : child.monitor.mUmbilical.mCycleCount = s.child.monitor.mUmbilical.mCycleCount := by
      have hlt : child.monitor.mUmbilical.mCycleCount < child.monitor.mUmbilical.mCycleLimit :=
        hawaits
      omega
    have hl : child.monitor.mUmbilical.mCycleCount ≤ s.lapses := by
      rw [hsame]
      refine hi.lapses ?_
      have hlt : child.monitor.mUmbilical.mCycleCount < child.monitor.mUmbilical.mCycleLimit :=
        hawaits
      rwa [hsame, hlimit] at hlt
    simp only [after, hzero, if_false]
    split_ifs
    · exact Nat.le_succ_of_le hl
    · exact hl

theorem Punctual.of_firing {lap : LapTime} {s : TimedRun} {laps : Nat}
    {state : ChildProcessState} {write : WriteResult} {pollTime : Int} (hi : s.Punctual)
    (hawaits : s.Awaits)
    (hready : (ChildEvent.timerUmbilical laps state write pollTime).Ready s.child.monitor)
    {child : ChildRun}
    (hc : s.child.after lap (.timerUmbilical laps state write pollTime) = child)
    (hstart : (s.after (.timerUmbilical laps state write pollTime) child).start =
      child.monitor.mTimers.umbilical.mSince) :
    (s.after (.timerUmbilical laps state write pollTime) child).Punctual ∧
      child.monitor.mUmbilical.mCycleCount ≤
        (s.after (.timerUmbilical laps state write pollTime) child).lapses := by
  have hlapsed : s.Lapsed (.timerUmbilical laps state write pollTime) := by
    have hdue := hready.1.2
    rwa [← hi.start] at hdue
  have hl := hi.lapses hawaits
  have hlt : s.child.monitor.mUmbilical.mCycleCount < s.child.monitor.mUmbilical.mCycleLimit :=
    hawaits
  obtain ⟨hlimit, hcount⟩ := ChildEvent.reply_counts lap s.child.monitor s.child.activity laps
    state write pollTime hlt
  have hreply : child.monitor = ((ChildEvent.timerUmbilical laps state write pollTime).reply lap
      s.child.monitor s.child.activity).self := hc ▸ rfl
  rw [← hreply] at hlimit hcount
  have hle : child.monitor.mUmbilical.mCycleCount ≤
      (s.after (.timerUmbilical laps state write pollTime) child).lapses := by
    simp only [after, hawaits, hlapsed, and_self, if_true]
    split_ifs <;> omega
  exact ⟨⟨hstart, by simp only [after]; omega, fun _ => hle⟩, hle⟩

/-- One step of a run that continues idle keeps the timer punctual, and times
the umbilical out only on lapses of its period. -/
theorem Punctual.step {lap : LapTime} {s t : TimedRun} {event : ChildEvent} (hi : s.Punctual)
    (hstep : s.next lap event = some t) (hidle : s.ContinuesIdle event) :
    s.TimesOutLapsed event t ∧ t.Punctual := by
  obtain ⟨child, hchild, rfl⟩ := Option.map_eq_some_iff.mp hstep
  obtain ⟨⟨-, hready⟩, rfl⟩ := ChildRun.next_eq_some.mp hchild
  have hstart : (s.after event (s.child.after lap event)).start = _ := hi.after_start hidle
  by_cases hfiring : (∃ laps state write pollTime,
      event = .timerUmbilical laps state write pollTime) ∧ s.Awaits
  · obtain ⟨⟨laps, state, write, pollTime, rfl⟩, hawaits⟩ := hfiring
    obtain ⟨hp, hle⟩ := hi.of_firing hawaits hready rfl hstart
    exact ⟨fun _ _ _ _ _ _ he => he ▸ hle, hp⟩
  · refine ⟨fun laps state write pollTime he ha => absurd ⟨⟨laps, state, write, pollTime, he⟩, ha⟩
      hfiring, hi.of_recounts ?_ hstart⟩
    exact event.reply_recounts lap s.child.monitor s.child.activity
      fun laps state write pollTime he ha => hfiring ⟨⟨laps, state, write, pollTime, he⟩, ha⟩

theorem Start.punctual {lap : LapTime} {options : ServerOptions} {s : TimedRun}
    (hs : Start lap options s) : s.Punctual := by
  obtain ⟨child, ⟨childPid, umbilicalPid, tetherFd, umbilicalFd, parentFd, start, activity, rfl⟩,
    rfl⟩ := hs
  exact ⟨rfl, Nat.le_refl _, fun h => absurd h (Nat.lt_irrefl _)⟩

/-- In a run whose continuations are all idle, the umbilical is declared timed
out only after its timer has lapsed as often as the limit asks for. -/
theorem times_out_lapsed (lap : LapTime) (options : ServerOptions) {s : TimedRun}
    (hs : Start lap options s) {run : List (ChildEvent × TimedRun)}
    (hr : (system lap options).IsRun s run)
    (hc : System.Throughout (fun s event _ => ContinuesIdle s event) s run) :
    System.Throughout TimesOutLapsed s run :=
  System.IsRun.throughout_of_condition
    (fun _ _ _ _ hi hstep hidle => hi.step hstep hidle) (.of_init hs) hs.punctual hr hc

/-- A ping is written, and the process is stopped and continued twice within
the second: the umbilical is declared timed out without a single lapse. -/
theorem times_out_early :
    ¬ ∀ lap : LapTime, lap.Lawful → ∀ options : ServerOptions, 0 < options.mUmbilical_s →
      ∀ s run, Start lap options s → (system lap options).IsRun s run →
        System.Throughout TimesOutLapsed s run := by
  intro h
  let run := System.run (next .monotonic)
    (enter (.enter .monotonic ⟨true, 30, 30, 30⟩ 2 3 4 5 none 0 0))
    [.timerUmbilical 1 .running .written 0, .cont 400000000,
      .timerUmbilical 1 .running .written 400000000, .cont 800000000,
      .timerUmbilical 1 .running .written 800000000]
  have hh := h .monotonic LapTime.monotonic_lawful ⟨true, 30, 30, 30⟩ (by decide) _ run
    ⟨_, ⟨2, 3, 4, 5, none, 0, 0, rfl⟩, rfl⟩ (System.isRun_run _ _ _ _)
  exact absurd (hh.2.2.2.2.1 1 .running .written 800000000 rfl (by decide) rfl) (by decide)

theorem times_out_lapsed_silent :
    System.Throughout TimesOutLapsed
      (enter (.enter .monotonic ⟨true, 30, 30, 30⟩ 2 3 4 5 none 0 0))
      (System.run (next .monotonic)
        (enter (.enter .monotonic ⟨true, 30, 30, 30⟩ 2 3 4 5 none 0 0))
        [.cont 0, .timerUmbilical 1 .running .written 0,
          .timerUmbilical 1 .running .written 15000000000,
          .timerUmbilical 1 .running .written 30000000000]) :=
  times_out_lapsed .monotonic ⟨true, 30, 30, 30⟩ ⟨_, ⟨2, 3, 4, 5, none, 0, 0, rfl⟩, rfl⟩
    (System.isRun_run _ _ _ _)
    (by decide)

end TimedRun

end PidSentry
