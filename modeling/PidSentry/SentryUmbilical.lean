import PidSentry.UmbilicalTimeout

/-! The sentry's side of the umbilical: the callbacks that leave it alone, and
when a firing of its timer writes a ping. -/

namespace PidSentry

def ChildEvent.ofUmbilical : ChildEvent → Bool
  | umbilical .. | reapUmbilical .. | cont _ | timerUmbilical .. => true
  | _ => false

namespace ChildMonitor

structure SameUmbilical (m n : ChildMonitor) : Prop where
  umbilical : n.mUmbilical = m.mUmbilical
  entry : n.mPollFds.umbilical = m.mPollFds.umbilical
  timer : n.mTimers.umbilical = m.mTimers.umbilical

variable (lap : LapTime) (self : ChildMonitor) (aPollTime : Int)

theorem activateFdTimerTermination_sameUmbilical (aAction : ChildTerminationAction) :
    self.SameUmbilical (self.activateFdTimerTermination lap aAction aPollTime).self :=
  ⟨by simp, by simp, by simp⟩

theorem pollFdTimerTermination_sameUmbilical (killed : Bool) :
    self.SameUmbilical (self.pollFdTimerTermination killed).self := by
  unfold pollFdTimerTermination
  split
  · dsimp only
    split_ifs <;> exact ⟨rfl, rfl, rfl⟩
  · exact ⟨rfl, rfl, rfl⟩

theorem pollFdTimerTether_sameUmbilical (state : ChildProcessState) (since : Int) :
    self.SameUmbilical (self.pollFdTimerTether lap state since aPollTime).self := by
  unfold pollFdTimerTether
  cases state with
  | running | exited | killed | dumped =>
    dsimp only
    split_ifs
    · exact ⟨rfl, rfl, rfl⟩
    · exact ⟨rfl, rfl, rfl⟩
    · have hh := activateFdTimerTermination_sameUmbilical lap
        { self with mTether.mCycleCount := self.mTether.mCycleLimit } aPollTime .abort
      exact ⟨hh.umbilical, hh.entry, hh.timer⟩
  | stopped | trapped | failed => exact ⟨rfl, rfl, rfl⟩
  | echild => exact activateFdTimerTermination_sameUmbilical lap self aPollTime .abort

theorem pollFdReapChildEvent_sameUmbilical (enabled flushed : Bool) :
    self.SameUmbilical (self.pollFdReapChildEvent lap enabled flushed aPollTime).self := by
  unfold pollFdReapChildEvent restartFdTimerTether
  dsimp only
  split_ifs <;> exact ⟨rfl, rfl, rfl⟩

/-- An echo is awaited. -/
def Awaits (self : ChildMonitor) : Prop := self.mUmbilical.mCycleCount < self.mUmbilical.mCycleLimit

instance (self : ChildMonitor) : Decidable self.Awaits := inferInstanceAs (Decidable (_ < _))

/-- A timer pass at this time finds the next ping to be written. -/
def PingsAt (self : ChildMonitor) (pollTime : Int) : Prop :=
  self.mUmbilical.mCycleCount = self.mUmbilical.mCycleLimit ∧
    self.mTimers.umbilical.Due pollTime

instance (self : ChildMonitor) (pollTime : Int) : Decidable (self.PingsAt pollTime) :=
  inferInstanceAs (Decidable (_ ∧ _))

end ChildMonitor

open ChildMonitor

theorem ChildEvent.reply_sameUmbilical (lap : LapTime) (m : ChildMonitor) (activity : Int)
    {event : ChildEvent} (h : event.ofUmbilical = false) :
    m.SameUmbilical (event.reply lap m activity).self ∧
      (event.reply lap m activity).effects.count .ping = 0 := by
  cases event with
  | umbilical | reapUmbilical | cont | timerUmbilical => cases h
  | tetherActivity _ | tether => exact ⟨⟨rfl, rfl, rfl⟩, rfl⟩
  | parent pollTime =>
    have hh := activateFdTimerTermination_sameUmbilical lap
      { m with mPollFds.parent := .disarmed } pollTime .terminate
    have hp := activateFdTimerTermination_spares lap
      { m with mPollFds.parent := .disarmed } pollTime .terminate
    exact ⟨⟨hh.umbilical, hh.entry, hh.timer⟩, hp.pings⟩
  | reapChild enabled flushed pollTime =>
    have hh := pollFdReapChildEvent_sameUmbilical lap m pollTime enabled flushed
    have hp := pollFdReapChildEvent_spares lap m pollTime enabled flushed
    exact ⟨⟨hh.umbilical, hh.entry, hh.timer⟩, hp.pings⟩
  | timerTether laps state pollTime =>
    have hh := pollFdTimerTether_sameUmbilical lap
      { m with mTimers.tether := m.mTimers.tether.lap laps } pollTime state activity
    have hp := pollFdTimerTether_spares lap
      { m with mTimers.tether := m.mTimers.tether.lap laps } pollTime state activity
    exact ⟨⟨hh.umbilical, hh.entry, hh.timer⟩, hp.pings⟩
  | timerTermination laps killed pollTime =>
    have hh := pollFdTimerTermination_sameUmbilical
      { m with mTimers.termination := m.mTimers.termination.lap laps } killed
    have hp := pollFdTimerTermination_spares
      { m with mTimers.termination := m.mTimers.termination.lap laps } killed
    exact ⟨⟨hh.umbilical, hh.entry, hh.timer⟩, hp.pings⟩
  | timerChild laps pinged pollTime =>
    simp only [reply, pollFdTimerChild]
    split_ifs <;> exact ⟨⟨rfl, rfl, rfl⟩, rfl⟩

namespace ChildMonitor

variable (lap : LapTime) (self : ChildMonitor)

/-- The firing that `PingsAt` promises takes place at that time, and writes. -/
theorem PingsAt.writes {self : ChildMonitor} {pollTime : Int} (h : self.PingsAt pollTime)
    (activity : Int) (state : ChildProcessState) :
    (ChildEvent.timerUmbilical 1 state .written pollTime).Ready self ∧
      .ping ∈ ((ChildEvent.timerUmbilical 1 state .written pollTime).reply lap self
        activity).effects := by
  obtain ⟨hcount, hdue⟩ := h
  constructor
  · refine ⟨hdue, Nat.le_refl 1, ?_⟩
    have hle := hdue.2
    omega
  · simp [ChildEvent.reply, pollFdTimerUmbilical, pollFdWriteUmbilical, hcount]

theorem pollFdUmbilical_effects (read : ReadResult) (aPollTime : Int) :
    (self.pollFdUmbilical lap read aPollTime).effects = [] := by
  unfold pollFdUmbilical
  split_ifs
  · cases read with
    | byte value =>
      simp only [pollFdEcho]
      split_ifs <;> rfl
    | eof | econnreset => simp [pollFdCloseUmbilical]
    | eintr | failed => rfl
  · rfl

theorem restartFdTimerUmbilical_effects (aPollTime : Int) :
    (self.restartFdTimerUmbilical lap aPollTime).effects = [] := by
  unfold restartFdTimerUmbilical
  split_ifs <;> rfl

theorem ping_mem {lap : LapTime} {m : ChildMonitor} {activity : Int} {event : ChildEvent}
    (h : .ping ∈ (event.reply lap m activity).effects) :
    ∃ laps state write pollTime, event = .timerUmbilical laps state write pollTime := by
  have hno : (event.reply lap m activity).effects ≠ [] := List.ne_nil_of_mem h
  cases hof : event.ofUmbilical with
  | false =>
    have hp := (ChildEvent.reply_sameUmbilical lap m activity hof).2
    exact absurd h (List.count_eq_zero.mp hp)
  | true =>
    cases event with
    | timerUmbilical laps state write pollTime => exact ⟨laps, state, write, pollTime, rfl⟩
    | umbilical read pollTime => exact absurd (pollFdUmbilical_effects lap m read pollTime) hno
    | reapUmbilical enabled pollTime =>
      have hr := restartFdTimerUmbilical_effects lap m pollTime
      simp only [ChildEvent.reply, pollFdReapUmbilicalEvent] at hno
      split_ifs at hno
      · exact absurd hr hno
      · exact absurd rfl hno
    | cont pollTime =>
      simp only [ChildEvent.reply, pollFdContUmbilical] at hno
      split_ifs at hno <;> exact absurd rfl hno
    | _ => cases hof

theorem pollFdCloseUmbilical_entry (aPollTime : Int) :
    (self.pollFdCloseUmbilical lap aPollTime).self.mPollFds.umbilical = .disarmed := by
  simp [pollFdCloseUmbilical]

theorem not_closed {aPollTime : Int} {P : Prop}
    (h : (self.pollFdCloseUmbilical lap aPollTime).self.mPollFds.umbilical.armed) : P := by
  rw [pollFdCloseUmbilical_entry] at h
  cases h

/-- The umbilical was open before, and its timer runs at the same period. -/
structure StaysOpen (m n : ChildMonitor) : Prop where
  entry : m.mPollFds.umbilical.armed
  period : n.mTimers.umbilical.mPeriod = m.mTimers.umbilical.mPeriod

theorem pollFdUmbilical_open (read : ReadResult) (aPollTime : Int)
    (hopen : (self.pollFdUmbilical lap read aPollTime).self.mPollFds.umbilical.armed) :
    self.StaysOpen (self.pollFdUmbilical lap read aPollTime).self := by
  unfold pollFdUmbilical at hopen ⊢
  split_ifs at hopen ⊢ with harmed
  · cases read with
    | byte value =>
      simp only [pollFdEcho]
      split_ifs <;> exact ⟨harmed, rfl⟩
    | eof | econnreset => exact not_closed lap self hopen
    | eintr | failed => exact ⟨harmed, rfl⟩
  · exact ⟨hopen, rfl⟩

theorem pollFdTimeoutUmbilical_open (state : ChildProcessState) (aPollTime : Int)
    (hopen : (self.pollFdTimeoutUmbilical lap state aPollTime).self.mPollFds.umbilical.armed) :
    self.StaysOpen (self.pollFdTimeoutUmbilical lap state aPollTime).self := by
  unfold pollFdTimeoutUmbilical at hopen ⊢
  cases state with
  | running | exited | killed | dumped =>
    dsimp only at hopen ⊢
    split_ifs at hopen ⊢
    · exact not_closed lap _ hopen
    · exact ⟨hopen, rfl⟩
  | stopped | trapped | echild | failed => exact ⟨hopen, rfl⟩

theorem pollFdTimerUmbilical_open (state : ChildProcessState) (write : WriteResult)
    (aPollTime : Int)
    (hopen : (self.pollFdTimerUmbilical lap state write aPollTime).self.mPollFds.umbilical.armed) :
    self.StaysOpen (self.pollFdTimerUmbilical lap state write aPollTime).self := by
  unfold pollFdTimerUmbilical at hopen ⊢
  split_ifs at hopen ⊢ with hne
  · exact pollFdTimeoutUmbilical_open lap self state aPollTime hopen
  · exact ⟨hopen, rfl⟩
  · have he := Decidable.not_not.mp hne
    simp only [pollFdWriteUmbilical, he, if_true] at hopen ⊢
    cases write with
    | written | eintr | ewouldblock | failed => exact ⟨hopen, rfl⟩
    | epipe => exact not_closed lap _ hopen

end ChildMonitor

theorem ChildEvent.reply_open (lap : LapTime) {m : ChildMonitor} (activity : Int)
    {event : ChildEvent}
    (hopen : (event.reply lap m activity).self.mPollFds.umbilical.armed) :
    m.StaysOpen (event.reply lap m activity).self := by
  cases hof : event.ofUmbilical with
  | false =>
    have hsame := (reply_sameUmbilical lap m activity hof).1
    exact ⟨hsame.entry ▸ hopen, by rw [hsame.timer]⟩
  | true =>
    cases event with
    | umbilical read pollTime => exact pollFdUmbilical_open lap m read pollTime hopen
    | reapUmbilical enabled pollTime =>
      simp only [reply, pollFdReapUmbilicalEvent, restartFdTimerUmbilical] at hopen ⊢
      split_ifs at hopen ⊢ <;> exact ⟨hopen, rfl⟩
    | cont pollTime =>
      simp only [reply, pollFdContUmbilical] at hopen ⊢
      split_ifs at hopen ⊢ <;> exact ⟨hopen, rfl⟩
    | timerUmbilical laps state write pollTime =>
      have hh := pollFdTimerUmbilical_open lap
        { m with mTimers.umbilical := m.mTimers.umbilical.lap laps } state write pollTime hopen
      exact ⟨hh.entry, hh.period⟩
    | _ => cases hof

theorem ChildEvent.reply_bound (lap : LapTime) {m : ChildMonitor} (activity : Int)
    (event : ChildEvent) (hb : m.mUmbilical.mCycleCount ≤ m.mUmbilical.mCycleLimit) :
    (event.reply lap m activity).self.mUmbilical.mCycleLimit = m.mUmbilical.mCycleLimit ∧
      (event.reply lap m activity).self.mUmbilical.mCycleCount ≤ m.mUmbilical.mCycleLimit := by
  by_cases hfiring : (∃ laps state write pollTime,
      event = .timerUmbilical laps state write pollTime) ∧ m.Awaits
  · obtain ⟨⟨laps, state, write, pollTime, rfl⟩, hlt⟩ := hfiring
    have hh := reply_counts lap m activity laps state write pollTime hlt
    have hlt' : m.mUmbilical.mCycleCount < m.mUmbilical.mCycleLimit := hlt
    refine ⟨hh.1, ?_⟩
    have hcount := hh.2
    omega
  · have hh := event.reply_recounts lap m activity fun laps state write pollTime he hlt =>
      hfiring ⟨⟨laps, state, write, pollTime, he⟩, hlt⟩
    refine ⟨hh.limit, ?_⟩
    have hcount := hh.count
    omega

/-- With no ping out, only SIGCONT, the timer and the other end change anything. -/
theorem ChildEvent.reply_idle (lap : LapTime) {m : ChildMonitor} (activity : Int)
    {event : ChildEvent} (hidle : ¬ m.Awaits)
    (hread : ∀ read pollTime, event = .umbilical read pollTime → read = .eintr ∨ read = .failed)
    (hcont : ∀ pollTime, event ≠ .cont pollTime)
    (hfired : ∀ laps state write pollTime, event ≠ .timerUmbilical laps state write pollTime) :
    m.SameUmbilical (event.reply lap m activity).self := by
  cases hof : event.ofUmbilical with
  | false => exact (event.reply_sameUmbilical lap m activity hof).1
  | true =>
    cases event with
    | umbilical read pollTime =>
      have hkept : (m.pollFdUmbilical lap read pollTime).self = m := by
        unfold pollFdUmbilical
        split_ifs
        · rcases hread read pollTime rfl with rfl | rfl <;> rfl
        · rfl
      simp only [reply, hkept]
      exact ⟨rfl, rfl, rfl⟩
    | reapUmbilical enabled pollTime =>
      simp only [reply, pollFdReapUmbilicalEvent, restartFdTimerUmbilical]
      split_ifs with _ _ hlt
      · exact absurd hlt hidle
      all_goals exact ⟨rfl, rfl, rfl⟩
    | cont pollTime => exact absurd rfl (hcont pollTime)
    | timerUmbilical laps state write pollTime => exact absurd rfl (hfired laps state write pollTime)
    | _ => cases hof

/-- Only SIGCONT asks for the next ping to be preempted. -/
theorem ChildEvent.reply_preempt (lap : LapTime) {m : ChildMonitor} (activity : Int)
    {event : ChildEvent} (hcont : ∀ pollTime, event ≠ .cont pollTime)
    (h : m.mUmbilical.mPreempt = false) :
    (event.reply lap m activity).self.mUmbilical.mPreempt = false := by
  cases hof : event.ofUmbilical with
  | false => rw [(event.reply_sameUmbilical lap m activity hof).1.umbilical, h]
  | true =>
    cases event with
    | umbilical read pollTime =>
      simp only [reply, pollFdUmbilical]
      split_ifs
      · cases read with
        | byte value =>
          simp only [pollFdEcho]
          split_ifs <;> exact h
        | eof | econnreset => simp [h]
        | eintr | failed => exact h
      · exact h
    | reapUmbilical enabled pollTime =>
      simp only [reply, pollFdReapUmbilicalEvent, restartFdTimerUmbilical]
      split_ifs <;> exact h
    | cont pollTime => exact absurd rfl (hcont pollTime)
    | timerUmbilical laps state write pollTime =>
      simp only [reply, pollFdTimerUmbilical]
      split_ifs
      · unfold pollFdTimeoutUmbilical
        cases state with
        | running | exited | killed | dumped =>
          dsimp only
          split_ifs
          · simp [h]
          · exact h
        | stopped | trapped | echild | failed => exact h
      · exact h
      · have hkept : (pollFdWriteUmbilical
            { m with mTimers.umbilical := m.mTimers.umbilical.lap laps } write).self.mUmbilical.mPreempt =
            false := by
          unfold pollFdWriteUmbilical
          split_ifs
          · cases write <;> exact h
          · exact h
        cases write with
        | written | failed | ewouldblock | eintr => exact hkept
        | epipe => simp [hkept]
    | _ => cases hof

namespace ChildRun

/-- What the options fix of the umbilical for as long as it is open. -/
structure Configured (options : ServerOptions) (s : ChildRun) : Prop where
  limit : s.monitor.mUmbilical.mCycleLimit = timeoutCycles
  bound : s.monitor.mUmbilical.mCycleCount ≤ s.monitor.mUmbilical.mCycleLimit
  period : s.monitor.mPollFds.umbilical.armed →
    s.monitor.mTimers.umbilical.mPeriod = nsecs options.mUmbilical_s / 2

theorem configured_of_reachable {lap : LapTime} {options : ServerOptions} {s : ChildRun}
    (hs : (system lap options).Reachable s) : s.Configured options := by
  refine System.Reachable.invariant (P := Configured options) ?_ ?_ hs
  · rintro s ⟨childPid, umbilicalPid, tetherFd, umbilicalFd, parentFd, start, activity, rfl⟩
    exact ⟨rfl, Nat.le_refl _, fun _ => rfl⟩
  · intro s event t _ hi hstep
    obtain ⟨-, rfl⟩ := next_eq_some.mp hstep
    have hb := event.reply_bound lap s.activity hi.bound
    refine ⟨hb.1.trans hi.limit, ?_, fun hopen => ?_⟩
    · have hle := hb.2
      rwa [← hb.1] at hle
    · have ho := event.reply_open lap s.activity hopen
      exact ho.period.trans (hi.period ho.entry)

end ChildRun

end PidSentry
