import PidSentry.Escalation

/-! The tether timeout. It is counted in two periods of half the timeout each,
and a firing compares the last activity with one period only. -/

namespace PidSentry

/-- The process exists and is neither stopped nor trapped. -/
def ChildProcessState.counted (state : ChildProcessState) : Prop :=
  state.exists ∧ state ≠ .stopped ∧ state ≠ .trapped

theorem ChildProcessState.of_not_counted {state : ChildProcessState} (h : ¬ state.counted) :
    state = .stopped ∨ state = .trapped ∨ state = .echild ∨ state = .failed := by
  cases state <;> simp_all [counted, ChildProcessState.exists]

namespace ChildMonitor

variable (lap : LapTime) (self : ChildMonitor) (aPollTime : Int)

/-- The count of tether periods and the start of the one that is running are
left alone. -/
structure SameTether (m n : ChildMonitor) : Prop where
  cycles : n.mTether = m.mTether
  since : n.mTimers.tether.mSince = m.mTimers.tether.mSince

theorem activateFdTimerTermination_sameTether (aAction : ChildTerminationAction) :
    self.SameTether (self.activateFdTimerTermination lap aAction aPollTime).self := by
  unfold activateFdTimerTermination
  dsimp only
  split_ifs <;> exact ⟨rfl, rfl⟩

theorem pollFdCloseUmbilical_sameTether :
    self.SameTether (self.pollFdCloseUmbilical lap aPollTime).self :=
  have hh := activateFdTimerTermination_sameTether lap
    { self with mPollFds.umbilical := .disarmed, mTimers.umbilical.mPeriod := 0 } aPollTime .terminate
  ⟨hh.cycles, hh.since⟩

theorem pollFdTimerTermination_tether (killed : Bool) :
    (self.pollFdTimerTermination killed).self.mTether = self.mTether ∧
      (self.pollFdTimerTermination killed).self.mTimers.tether = self.mTimers.tether := by
  unfold pollFdTimerTermination
  split
  · dsimp only
    split_ifs <;> exact ⟨rfl, rfl⟩
  · exact ⟨rfl, rfl⟩

theorem restartFdTimerUmbilical_sameTether :
    self.SameTether (self.restartFdTimerUmbilical lap aPollTime).self := by
  unfold restartFdTimerUmbilical
  split_ifs <;> exact ⟨rfl, rfl⟩

theorem pollFdEcho_sameTether : self.SameTether (self.pollFdEcho lap aPollTime).self := by
  unfold pollFdEcho
  split_ifs <;> exact ⟨rfl, rfl⟩

theorem pollFdUmbilical_sameTether (read : ReadResult) :
    self.SameTether (self.pollFdUmbilical lap read aPollTime).self := by
  unfold pollFdUmbilical
  split_ifs
  · cases read with
    | failed | eintr => exact ⟨rfl, rfl⟩
    | eof | econnreset => exact pollFdCloseUmbilical_sameTether lap self aPollTime
    | byte _ => exact pollFdEcho_sameTether lap self aPollTime
  · exact ⟨rfl, rfl⟩

theorem pollFdWriteUmbilical_sameTether (write : WriteResult) :
    self.SameTether (self.pollFdWriteUmbilical write).self := by
  unfold pollFdWriteUmbilical
  split_ifs
  · cases write <;> exact ⟨rfl, rfl⟩
  · exact ⟨rfl, rfl⟩

theorem pollFdTimeoutUmbilical_sameTether (state : ChildProcessState) :
    self.SameTether (self.pollFdTimeoutUmbilical lap state aPollTime).self := by
  unfold pollFdTimeoutUmbilical
  cases state with
  | running | exited | killed | dumped =>
    dsimp only
    split_ifs
    · have hh := pollFdCloseUmbilical_sameTether lap
        { self with mUmbilical.mCycleCount := self.mUmbilical.mCycleCount + 1 } aPollTime
      exact ⟨hh.cycles, hh.since⟩
    · exact ⟨rfl, rfl⟩
  | stopped | trapped | echild | failed => exact ⟨rfl, rfl⟩

theorem pollFdTimerUmbilical_sameTether (state : ChildProcessState) (write : WriteResult) :
    self.SameTether (self.pollFdTimerUmbilical lap state write aPollTime).self := by
  unfold pollFdTimerUmbilical
  split_ifs
  · exact pollFdTimeoutUmbilical_sameTether lap self aPollTime state
  · exact ⟨rfl, rfl⟩
  · have hw := pollFdWriteUmbilical_sameTether self write
    cases write with
    | written | failed | ewouldblock | eintr => exact ⟨hw.cycles, hw.since⟩
    | epipe =>
      have hh := pollFdCloseUmbilical_sameTether lap (self.pollFdWriteUmbilical .epipe).self aPollTime
      exact ⟨hh.cycles.trans hw.cycles, hh.since.trans hw.since⟩

theorem pollFdTimerTether_counted {state : ChildProcessState} (hs : state.counted) (since : Int) :
    self.pollFdTimerTether lap state since aPollTime =
      if aPollTime < since + self.mTimers.tether.mPeriod then
        .ok { self with
          mTimers.tether.mSince := lap.restart self.mTimers.tether.mSince since
          mTether.mCycleCount := 0 }
      else if self.mTether.mCycleCount + 1 < self.mTether.mCycleLimit then
        .ok { self with mTether.mCycleCount := self.mTether.mCycleCount + 1 }
      else
        activateFdTimerTermination lap
          { self with mTether.mCycleCount := self.mTether.mCycleLimit } .abort aPollTime := by
  cases state with
  | running | exited | killed | dumped => rfl
  | stopped => exact absurd rfl hs.2.1
  | trapped => exact absurd rfl hs.2.2
  | echild => exact absurd rfl hs.1.1
  | failed => exact absurd rfl hs.1.2

end ChildMonitor

theorem ChildEvent.reply_sameTether (lap : LapTime) (m : ChildMonitor) (activity : Int)
    {event : ChildEvent}
    (htimer : ∀ laps state pollTime, event ≠ .timerTether laps state pollTime)
    (hreap : ∀ flushed pollTime, event ≠ .reapChild true flushed pollTime) :
    m.SameTether (event.reply lap m activity).self := by
  cases event with
  | timerTether laps state pollTime => exact absurd rfl (htimer laps state pollTime)
  | reapChild enabled flushed pollTime =>
    cases enabled with
    | true => exact absurd rfl (hreap flushed pollTime)
    | false =>
      simp only [reply, ChildMonitor.pollFdReapChildEvent, Bool.false_eq_true, if_false]
      split_ifs <;> exact ⟨rfl, rfl⟩
  | tetherActivity _ | tether => exact ⟨rfl, rfl⟩
  | umbilical read pollTime => exact ChildMonitor.pollFdUmbilical_sameTether lap m pollTime read
  | parent pollTime =>
    have hh := ChildMonitor.activateFdTimerTermination_sameTether lap
      { m with mPollFds.parent := .disarmed } pollTime .terminate
    exact ⟨hh.cycles, hh.since⟩
  | reapUmbilical enabled pollTime =>
    simp only [reply, ChildMonitor.pollFdReapUmbilicalEvent]
    split_ifs
    · exact ChildMonitor.restartFdTimerUmbilical_sameTether lap m pollTime
    · exact ⟨rfl, rfl⟩
  | cont pollTime =>
    simp only [reply, ChildMonitor.pollFdContUmbilical]
    split_ifs <;> exact ⟨rfl, rfl⟩
  | timerUmbilical laps state write pollTime =>
    have hh := ChildMonitor.pollFdTimerUmbilical_sameTether lap
      { m with mTimers.umbilical := m.mTimers.umbilical.lap laps } pollTime state write
    exact ⟨hh.cycles, hh.since⟩
  | timerTermination laps killed pollTime =>
    have hh := ChildMonitor.pollFdTimerTermination_tether
      { m with mTimers.termination := m.mTimers.termination.lap laps } killed
    exact ⟨hh.1, congrArg _ hh.2⟩
  | timerChild laps pinged pollTime =>
    simp only [reply, ChildMonitor.pollFdTimerChild]
    split_ifs <;> exact ⟨rfl, rfl⟩

/-- No callback raises the count of periods to its limit without turning the
tether timer off. -/
theorem ChildEvent.reply_cycles (lap : LapTime) (m : ChildMonitor) (activity : Int)
    (event : ChildEvent) (hpos : 0 < m.mTether.mCycleLimit) :
    (event.reply lap m activity).self.mTether.mCycleLimit = m.mTether.mCycleLimit ∧
      (m.mTether.mCycleCount < m.mTether.mCycleLimit →
        (event.reply lap m activity).self.mTimers.tether.mPeriod ≠ 0 →
        (event.reply lap m activity).self.mTether.mCycleCount < m.mTether.mCycleLimit) := by
  by_cases htimer : ∃ laps state pollTime, event = .timerTether laps state pollTime
  · obtain ⟨laps, state, pollTime, rfl⟩ := htimer
    by_cases hs : state.counted
    · simp only [reply, ChildMonitor.pollFdTimerTether_counted lap _ pollTime hs]
      split_ifs with hnew hcount
      · exact ⟨rfl, fun _ _ => hpos⟩
      · exact ⟨rfl, fun _ _ => hcount⟩
      · refine ⟨by simp, fun _ hp => absurd ?_ hp⟩
        exact ChildMonitor.activateFdTimerTermination_tether lap _ .abort pollTime
    · rcases ChildProcessState.of_not_counted hs with rfl | rfl | rfl | rfl
      · exact ⟨rfl, fun _ _ => hpos⟩
      · exact ⟨rfl, fun _ _ => hpos⟩
      · refine ⟨by simp [reply, ChildMonitor.pollFdTimerTether], fun _ hp => absurd ?_ hp⟩
        exact ChildMonitor.activateFdTimerTermination_tether lap _ .abort pollTime
      · exact ⟨rfl, fun hc _ => hc⟩
  · by_cases hreap : ∃ flushed pollTime, event = .reapChild true flushed pollTime
    · obtain ⟨flushed, pollTime, rfl⟩ := hreap
      simp only [reply, ChildMonitor.pollFdReapChildEvent, ChildMonitor.restartFdTimerTether, if_true]
      split_ifs
      · exact ⟨rfl, fun _ _ => hpos⟩
      · exact ⟨rfl, fun hc _ => hc⟩
    · have hh := reply_sameTether lap m activity
        (fun laps state pollTime he => htimer ⟨laps, state, pollTime, he⟩)
        (fun flushed pollTime he => hreap ⟨flushed, pollTime, he⟩)
      rw [hh.cycles]
      exact ⟨rfl, fun hc _ => hc⟩

open ChildMonitor

namespace ChildRun

/-- While the tether timer is on, the count is below its limit and nothing has
activated termination; its period is then half of the timeout. -/
structure TetherCounts (options : ServerOptions) (s : ChildRun) : Prop where
  limit : s.monitor.mTether.mCycleLimit = timeoutCycles
  idle : s.monitor.mTimers.tether.mPeriod ≠ 0 →
    s.monitor.mTimers.tether.mPeriod = nsecs options.mTether_s / timeoutCycles ∧
    s.monitor.mTether.mCycleCount < s.monitor.mTether.mCycleLimit ∧
    s.monitor.mTermination.mSignalPlan = none ∧
    s.monitor.mTimers.termination.mPeriod = 0 ∧ s.cause = none

theorem TetherCounts.of_ignored {lap : LapTime} {options : ServerOptions} {s : ChildRun}
    {event : ChildEvent} (hi : s.TetherCounts options)
    (h : s.monitor.SameTermination (event.reply lap s.monitor s.activity).self) :
    (s.after lap event).TetherCounts options := by
  have hcycles := event.reply_cycles lap s.monitor s.activity (hi.limit ▸ Nat.two_pos)
  refine ⟨hcycles.1.trans hi.limit, fun hp => ?_⟩
  have hperiod : (s.after lap event).monitor.mTimers.tether.mPeriod = _ := h.tether
  have hterm : (s.after lap event).monitor.mTermination = s.monitor.mTermination := h.termination
  have htimer : (s.after lap event).monitor.mTimers.termination = s.monitor.mTimers.termination :=
    h.timer
  obtain ⟨hhalf, hc, hplan, ht, hcause⟩ := hi.idle (hperiod ▸ hp)
  refine ⟨hperiod.trans hhalf, hcycles.1 ▸ hcycles.2 hc hp,
    by rw [hterm, hplan], by rw [htimer, ht], ?_⟩
  simp only [after, h.termination, hplan, ne_eq, not_true_eq_false, and_false, if_false, hcause]

theorem TetherCounts.of_off {lap : LapTime} {options : ServerOptions} {s : ChildRun}
    {event : ChildEvent} (hi : s.TetherCounts options)
    (h : (event.reply lap s.monitor s.activity).self.mTimers.tether.mPeriod = 0) :
    (s.after lap event).TetherCounts options := by
  have hcycles := event.reply_cycles lap s.monitor s.activity (hi.limit ▸ Nat.two_pos)
  exact ⟨hcycles.1.trans hi.limit, fun hp => absurd h hp⟩

theorem tetherCounts_of_reachable {lap : LapTime} {options : ServerOptions} {s : ChildRun}
    (hs : (system lap options).Reachable s) : s.TetherCounts options := by
  refine System.Reachable.invariant ?_ ?_ hs
  · rintro s ⟨childPid, umbilicalPid, tetherFd, umbilicalFd, parentFd, start, activity, rfl⟩
    refine ⟨rfl, fun hp => ⟨?_, Nat.two_pos, rfl, rfl, rfl⟩⟩
    cases hm : options.mTether <;> simp_all [enter, create, nsecs]
  · rintro s event t - hi hstep
    obtain ⟨⟨-, hready⟩, rfl⟩ := next_eq_some.mp hstep
    by_cases hterm : ∃ laps killed pollTime, event = .timerTermination laps killed pollTime
    · obtain ⟨laps, killed, pollTime, rfl⟩ := hterm
      refine hi.of_off ?_
      have hoff : s.monitor.mTimers.tether.mPeriod = 0 := by
        by_contra hp
        exact hready.1.1 (hi.idle hp).2.2.2.1
      simp only [ChildEvent.reply, (pollFdTimerTermination_tether _ killed).2, hoff]
    · rcases event.reply_termination lap s.monitor s.activity
        (fun laps killed pollTime he => hterm ⟨laps, killed, pollTime, he⟩) with
        h | ⟨cause, -, other, pollTime, -, he⟩
      · exact hi.of_ignored h.1
      · exact hi.of_off (by rw [he, activateFdTimerTermination_tether])

/-- What a firing of the tether timer must show before it aborts a child that
still exists: the child is not stopped, and the last activity recorded is
older than the whole timeout. -/
def TetherExpired (options : ServerOptions) (s : ChildRun) (event : ChildEvent) (t : ChildRun) :
    Prop :=
  ∀ laps state pollTime, event = .timerTether laps state pollTime → state.exists →
    s.cause = none → t.cause = some .tether →
    state ≠ .stopped ∧ state ≠ .trapped ∧ s.activity + nsecs options.mTether_s ≤ pollTime

/-- The firing that would complete the count finds the last activity either
within one period, or older than the timeout. -/
def TetherAligned (options : ServerOptions) (s : ChildRun) (event : ChildEvent) : Prop :=
  ∀ laps state pollTime, event = .timerTether laps state pollTime → state.counted →
    s.monitor.mTether.mCycleCount + 1 = s.monitor.mTether.mCycleLimit →
    pollTime < s.activity + s.monitor.mTimers.tether.mPeriod ∨
      s.activity + nsecs options.mTether_s ≤ pollTime

theorem after_cause_of_idle {lap : LapTime} {s : ChildRun} {event : ChildEvent}
    (hplan : s.monitor.mTermination.mSignalPlan = none) (hcause : s.cause = none) :
    (s.after lap event).cause =
      if (event.reply lap s.monitor s.activity).self.mTermination.mSignalPlan = none then none
      else event.cause := by
  simp only [after, hplan, hcause, true_and, ne_eq, ite_not]

theorem after_timerTether_cause {lap : LapTime} {options : ServerOptions} {s : ChildRun}
    (hi : s.TetherCounts options) {laps : Nat} {state : ChildProcessState} {pollTime : Int}
    (hready : (ChildEvent.timerTether laps state pollTime).Ready s.monitor)
    (hstate : state.exists) :
    (s.after lap (.timerTether laps state pollTime)).cause = some .tether ↔
      state.counted ∧ ¬ pollTime < s.activity + s.monitor.mTimers.tether.mPeriod ∧
        s.monitor.mTether.mCycleCount + 1 = s.monitor.mTether.mCycleLimit := by
  obtain ⟨-, hc, hplan, hterm, hcause⟩ := hi.idle hready.1.1
  rw [after_cause_of_idle hplan hcause]
  by_cases hs : state.counted
  · simp only [ChildEvent.reply, pollFdTimerTether_counted lap _ pollTime hs,
      PollFdTimerAction.lap_mPeriod]
    by_cases hnew : pollTime < s.activity + s.monitor.mTimers.tether.mPeriod
    · simp [hnew, hplan]
    by_cases hcount : s.monitor.mTether.mCycleCount + 1 < s.monitor.mTether.mCycleLimit
    · simp [hnew, hcount, hplan, Nat.ne_of_lt hcount]
    · have hlast : s.monitor.mTether.mCycleCount + 1 = s.monitor.mTether.mCycleLimit := by omega
      rw [if_neg hnew, if_neg hcount, activateFdTimerTermination_idle]
      · simp [ChildEvent.cause, hs, hnew, hlast]
      · exact hterm
      · exact hplan
  · rcases ChildProcessState.of_not_counted hs with rfl | rfl | rfl | rfl
    · simp [ChildEvent.reply, pollFdTimerTether, hplan, hs]
    · simp [ChildEvent.reply, pollFdTimerTether, hplan, hs]
    · exact absurd rfl hstate.1
    · exact absurd rfl hstate.2

/-- A run aborts the child only on an expired tether exactly if each firing
that would complete the count is aligned with the last activity. -/
theorem tether_expired_iff (lap : LapTime) (options : ServerOptions) {s : ChildRun}
    (hs : Start lap options s) {run : List (ChildEvent × ChildRun)}
    (hr : (system lap options).IsRun s run) :
    System.Throughout (TetherExpired options) s run ↔
      System.Throughout (fun s event _ => TetherAligned options s event) s run := by
  refine System.IsRun.throughout_iff ?_ (.of_init hs) hr
  intro s event t hreach hstep
  have hi := tetherCounts_of_reachable hreach
  obtain ⟨⟨-, hready⟩, rfl⟩ := next_eq_some.mp hstep
  constructor
  · intro h laps state pollTime he hstate hlast
    subst he
    by_contra hn
    have hold : ¬ pollTime < s.activity + s.monitor.mTimers.tether.mPeriod := fun hc => hn (.inl hc)
    have habort : (s.after lap _).cause = _ :=
      (after_timerTether_cause hi hready hstate.1).mpr ⟨hstate, hold, hlast⟩
    exact hn (.inr (h laps state pollTime rfl hstate.1 (hi.idle hready.1.1).2.2.2.2 habort).2.2)
  · intro h laps state pollTime he hstate _ habort
    subst he
    obtain ⟨hcounted, hold, hlast⟩ := (after_timerTether_cause hi hready hstate).mp habort
    exact ⟨hcounted.2.1, hcounted.2.2,
      (h laps state pollTime rfl hcounted hlast).resolve_left hold⟩

/-- Thirty seconds of timeout, the timer punctual throughout, and activity
recorded just after its first firing: the second one aborts the child, which
has been silent for fifteen seconds. -/
theorem tether_expired_early :
    ¬ ∀ lap : LapTime, lap.Lawful → ∀ options : ServerOptions,
      options.mTether = true → 0 < options.mTether_s → ∀ s run, Start lap options s →
        (system lap options).IsRun s run → System.Throughout (TetherExpired options) s run := by
  intro h
  let run := System.run (next .monotonic) (enter .monotonic ⟨true, 30, 30, 30⟩ 2 3 4 5 none 0 0)
    [.timerTether 1 .running 15000000000, .tetherActivity 15000000000,
      .timerTether 1 .running 30000000000]
  have hh := h .monotonic LapTime.monotonic_lawful ⟨true, 30, 30, 30⟩ rfl (by decide) _ run
    ⟨2, 3, 4, 5, none, 0, 0, rfl⟩ (System.isRun_run _ _ _ _)
  have hlast := hh.2.2.1 1 .running 30000000000 rfl (by decide) rfl rfl
  exact absurd hlast.2.2 (by decide)

theorem tether_expired_iff_silent :
    System.Throughout (TetherExpired ⟨true, 30, 30, 30⟩)
        (enter .monotonic ⟨true, 30, 30, 30⟩ 2 3 4 5 none 0 0)
        (System.run (next .monotonic) (enter .monotonic ⟨true, 30, 30, 30⟩ 2 3 4 5 none 0 0)
          [.timerTether 1 .running 15000000000, .timerTether 1 .running 30000000000]) ↔
      System.Throughout (fun s event _ => TetherAligned ⟨true, 30, 30, 30⟩ s event)
        (enter .monotonic ⟨true, 30, 30, 30⟩ 2 3 4 5 none 0 0)
        (System.run (next .monotonic) (enter .monotonic ⟨true, 30, 30, 30⟩ 2 3 4 5 none 0 0)
          [.timerTether 1 .running 15000000000, .timerTether 1 .running 30000000000]) :=
  tether_expired_iff .monotonic ⟨true, 30, 30, 30⟩ ⟨2, 3, 4, 5, none, 0, 0, rfl⟩
    (System.isRun_run _ _ _ _)

end ChildRun

end PidSentry
