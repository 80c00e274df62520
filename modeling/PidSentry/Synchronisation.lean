import PidSentry.Options
import PidSentry.PingEcho

/-! The first byte on the umbilical: the umbilical process serves nobody until it
has read one, and the sentry writes one only when its umbilical timer fires. -/

namespace PidSentry

open ChildMonitor

namespace PingEcho

/-- Some step that the sentry's loop can take writes a ping. -/
def CanPing (lap : LapTime) (s : PingEcho) : Prop :=
  ∃ event : ChildEvent, event.Ready s.sentry.monitor ∧
    .ping ∈ (event.reply lap s.sentry.monitor s.sentry.activity).effects

/-- The sentry is in its loop, and the umbilical process waits for a byte that is
neither under way nor ever to be written. -/
def Stalled (lap : LapTime) (s : PingEcho) : Prop :=
  s.sentry.rc = .ok ∧ s.stopped = false ∧ s.umbilical.phase = .synchronising ∧ s.pings = 0 ∧
    ¬ s.CanPing lap

/-- Until the first ping is written, the sentry's timer is as it was set up. -/
structure Starting (options : ServerOptions) (s : PingEcho) : Prop where
  listens : s.Listens
  echoes : s.echoes = 0
  entry : s.pings = 0 → s.sentry.monitor.mPollFds.umbilical.armed
  period : s.pings = 0 →
    s.sentry.monitor.mTimers.umbilical.mPeriod = nsecs options.mUmbilical_s / 2
  unwritten : s.pings = 0 →
    s.sentry.monitor.mUmbilical.mCycleCount = s.sentry.monitor.mUmbilical.mCycleLimit

end PingEcho

/-- The umbilical is as it was, and the next ping is still to be written. -/
structure ChildMonitor.Unwritten (m n : ChildMonitor) : Prop where
  entry : n.mPollFds.umbilical = m.mPollFds.umbilical
  period : n.mTimers.umbilical.mPeriod = m.mTimers.umbilical.mPeriod
  count : n.mUmbilical.mCycleCount = n.mUmbilical.mCycleLimit

/-- With no ping out, an event that neither writes one nor finds the other end
closed leaves the next ping to be written. -/
theorem ChildEvent.reply_unwritten (lap : LapTime) {m : ChildMonitor} (activity : Int)
    {event : ChildEvent} (hcount : m.mUmbilical.mCycleCount = m.mUmbilical.mCycleLimit)
    (hread : ∀ read pollTime, event = .umbilical read pollTime → read = .eintr ∨ read = .failed)
    (hepipe : ∀ laps state pollTime, event ≠ .timerUmbilical laps state .epipe pollTime)
    (hping : (event.reply lap m activity).effects.count .ping = 0) :
    m.Unwritten (event.reply lap m activity).self := by
  by_cases hcont : ∃ pollTime, event = .cont pollTime
  · obtain ⟨pollTime, rfl⟩ := hcont
    simp only [reply, pollFdContUmbilical, if_neg (not_not.mpr hcount)]
    exact ⟨rfl, rfl, hcount⟩
  · by_cases hfired : ∃ laps state write pollTime, event = .timerUmbilical laps state write pollTime
    · obtain ⟨laps, state, write, pollTime, rfl⟩ := hfired
      simp only [reply, pollFdTimerUmbilical, pollFdWriteUmbilical, if_neg (not_not.mpr hcount),
        if_pos hcount] at hping ⊢
      cases write with
      | written => simp at hping
      | epipe => exact absurd rfl (hepipe laps state pollTime)
      | eintr | ewouldblock | failed => exact ⟨rfl, rfl, hcount⟩
    · have hsame := event.reply_idle lap activity (Nat.not_lt.mpr hcount.ge) hread
        (fun pollTime he => hcont ⟨pollTime, he⟩)
        (fun laps state write pollTime he => hfired ⟨laps, state, write, pollTime, he⟩)
      exact ⟨hsame.entry, by rw [hsame.timer], by rw [hsame.umbilical, hcount]⟩

namespace PingEcho

theorem Starting.sentry {lap : LapTime} {options : ServerOptions} {s t : PingEcho}
    {event : ChildEvent} (hi : s.Starting options) (h : s.next lap (.sentry event) = some t) :
    t.Starting options := by
  unfold next at h
  split_ifs at h with hp
  obtain ⟨sentry, hs, rfl⟩ := Option.map_eq_some_iff.mp h
  obtain ⟨-, rfl⟩ := ChildRun.next_eq_some.mp hs
  have hechoes := hi.echoes
  have hnone : s.pings + (event.reply lap s.sentry.monitor s.sentry.activity).effects.count .ping = 0 →
      s.sentry.monitor.Unwritten (event.reply lap s.sentry.monitor s.sentry.activity).self := by
    intro hzero
    have hpings : s.pings = 0 := by omega
    refine event.reply_unwritten lap s.sentry.activity (hi.unwritten hpings) ?_ ?_ (by omega)
    · rintro read pollTime rfl
      cases read with
      | byte value => exact absurd hp.2 (by simp [hechoes])
      | eof | econnreset => exact absurd hi.listens hp.2
      | eintr => exact .inl rfl
      | failed => exact .inr rfl
    · rintro laps state pollTime rfl
      exact hp.2 hi.listens
  refine ⟨hi.listens, by simp [hechoes], fun hzero => ?_, fun hzero => ?_, fun hzero => ?_⟩
  · have hpings : s.pings = 0 := Nat.eq_zero_of_add_eq_zero_right hzero
    have harmed := hi.entry hpings
    rwa [← (hnone hzero).entry] at harmed
  · have hpings : s.pings = 0 := Nat.eq_zero_of_add_eq_zero_right hzero
    exact (hnone hzero).period.trans (hi.period hpings)
  · exact (hnone hzero).count

/-- The first event of the umbilical process is the last that it waits for. -/
theorem synchronised_after {lap : LapTime} {s : UmbilicalRun} {event : UmbilicalEvent} :
    (s.after lap event).phase ≠ .synchronising := by
  simp only [UmbilicalRun.after]
  split
  · split_ifs <;> exact UmbilicalPhase.noConfusion
  · exact UmbilicalPhase.noConfusion
  · exact UmbilicalPhase.noConfusion

theorem starting_of_reachable {lap : LapTime} {options : ServerOptions} {s : PingEcho}
    (hs : (system lap options).Reachable s) (hphase : s.umbilical.phase = .synchronising)
    (hstopped : s.stopped = false) : s.Starting options := by
  refine System.Reachable.invariant
    (P := fun s => s.umbilical.phase = .synchronising → s.stopped = false → s.Starting options)
    ?_ ?_ hs hphase hstopped
  · rintro s ⟨sentry, umbilical, ⟨childPid, umbilicalPid, tetherFd, umbilicalFd, parentFd, start,
      activity, rfl⟩, ⟨sentryPid, pidServer, start', -, rfl⟩, rfl⟩ - -
    exact ⟨⟨rfl, .inl rfl⟩, rfl, fun _ => rfl, fun _ => rfl, fun _ => rfl⟩
  · intro s event t _ hi hstep hphase hstopped
    cases event with
    | sentry event =>
      have hkept : t.umbilical = s.umbilical ∧ t.stopped = s.stopped := by
        have hnext : s.next lap (.sentry event) = some t := hstep
        unfold next at hnext
        split_ifs at hnext
        obtain ⟨sentry, -, rfl⟩ := Option.map_eq_some_iff.mp hnext
        exact ⟨rfl, rfl⟩
      rw [hkept.1] at hphase
      rw [hkept.2] at hstopped
      exact (hi hphase hstopped).sentry hstep
    | umbilical event =>
      have hnext : s.next lap (.umbilical event) = some t := hstep
      unfold next at hnext
      split_ifs at hnext
      obtain ⟨umbilical, hu, rfl⟩ := Option.map_eq_some_iff.mp hnext
      obtain ⟨-, rfl⟩ := UmbilicalRun.next_eq_some.mp hu
      exact absurd hphase synchronised_after
    | stop =>
      obtain rfl : { s with stopped := true } = t := Option.some.inj hstep
      cases hstopped

/-- The composition gets past its first byte exactly when the umbilical timer of
the sentry has a period. -/
theorem stalled_iff (lap : LapTime) (options : ServerOptions) :
    (∃ s, (system lap options).Reachable s ∧ s.Stalled lap) ↔ options.mUmbilical_s = 0 := by
  constructor
  · rintro ⟨s, hs, -, hstopped, hphase, hpings, hnot⟩
    have hi := starting_of_reachable hs hphase hstopped
    by_contra hne
    have hperiod : s.sentry.monitor.mTimers.umbilical.mPeriod ≠ 0 := by
      rw [hi.period hpings]
      unfold nsecs
      omega
    let timer := s.sentry.monitor.mTimers.umbilical
    have hwrites : s.sentry.monitor.PingsAt (timer.mSince + timer.mPeriod) :=
      ⟨hi.unwritten hpings, hperiod, Int.le_refl _⟩
    exact hnot ⟨_, hwrites.writes lap s.sentry.activity .running⟩
  · intro hzero
    have hstart : Start lap options ⟨.enter lap options 2 3 4 5 none 0 0,
        .enter options.mUmbilical_s 1 none 0, 0, 0, false⟩ :=
      ⟨_, _, ⟨2, 3, 4, 5, none, 0, 0, rfl⟩, ⟨1, none, 0, nofun, rfl⟩, rfl⟩
    refine ⟨_, .of_init hstart, rfl, rfl, rfl, rfl, ?_⟩
    rintro ⟨event, hready, hping⟩
    obtain ⟨laps, state, write, pollTime, rfl⟩ := ping_mem hping
    refine hready.1.1 ?_
    simp [ChildRun.enter, ChildMonitor.create, hzero, nsecs]

/-- After an accepted timeout list, no reachable state stalls exactly when the list
gives the umbilical a timeout, or leaves it one, that is not zero. -/
theorem synchronises_iff (lap : LapTime) (parser : OptionParser) (options : Options)
    {aArg : String} {mTimeout : Timeout}
    (h : processTimeoutOption parser aArg options.mServer.mTimeout = .ok mTimeout) :
    (∀ s, (system lap { options with mServer.mTimeout := mTimeout }.monitored).Reachable s →
        ¬ s.Stalled lap) ↔
      (umbilicalTimeout parser aArg).getD options.mServer.mTimeout.mUmbilical_s ≠ 0 := by
  rw [← processTimeoutOption_umbilical parser h]
  have hstalled := stalled_iff lap { options with mServer.mTimeout := mTimeout }.monitored
  constructor
  · intro hnone hzero
    obtain ⟨s, hs, hstall⟩ := hstalled.mpr hzero
    exact hnone s hs hstall
  · intro hne s hs hstall
    exact hne (hstalled.mp ⟨s, hs, hstall⟩)

/-- Disabling the umbilical timeout leaves the umbilical process waiting. -/
theorem synchronises_disabled :
    ¬ ∀ lap : LapTime, lap.Lawful → ∀ (parser : OptionParser) (options : Options) (aArg : String)
      (mTimeout : Timeout),
      processTimeoutOption parser aArg options.mServer.mTimeout = .ok mTimeout →
      ∀ s, (system lap { options with mServer.mTimeout := mTimeout }.monitored).Reachable s →
        ¬ s.Stalled lap := by
  intro h
  have hnone := h .monotonic LapTime.monotonic_lawful .decimal (initOptions gOptions 0o400) "30,0"
    ⟨30, 0, 30, 30⟩ (by decide)
  obtain ⟨s, hs, hstall⟩ := (stalled_iff .monotonic { initOptions gOptions 0o400 with
    mServer.mTimeout := ⟨30, 0, 30, 30⟩ }.monitored).mpr rfl
  exact hnone s hs hstall

theorem synchronises_shortened :
    (∀ s, (system .monotonic { initOptions gOptions 0o400 with
      mServer.mTimeout := ⟨10, 5, 30, 30⟩ }.monitored).Reachable s → ¬ s.Stalled .monotonic) ↔
      (umbilicalTimeout .decimal "10,5").getD 30 ≠ 0 :=
  synchronises_iff .monotonic .decimal (initOptions gOptions 0o400) (by decide)

end PingEcho

end PidSentry
