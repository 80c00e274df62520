import PidSentry.PingEcho

/-! A handshake that holds up the event loop of the umbilical process, against the
timeout of the ping that it keeps the loop from answering. -/

namespace PidSentry

open ChildMonitor

/-- The local of `acceptPidServerConnection`. -/
def pidSignatureTimeout : Nat := nsecs 30

/-- How long `acceptPidServerConnection` takes over a client that sends its
signature after the given time, or never sends it. -/
def acceptTime : Option Nat → Nat
  | some delay => min delay pidSignatureTimeout
  | none => pidSignatureTimeout

namespace ChildMonitor

/-- An echo is awaited since the given time: each period counted has lapsed, and
the count has not met its limit. -/
structure Counting (since : Int) (period : Nat) (m : ChildMonitor) : Prop where
  entry : m.mPollFds.umbilical.armed
  awaits : m.Awaits
  limit : m.mUmbilical.mCycleLimit = timeoutCycles
  mPeriod : m.mTimers.umbilical.mPeriod = period
  lapsed : since + (m.mUmbilical.mCycleCount * period : Nat) ≤ m.mTimers.umbilical.mSince

variable {lap : LapTime} {since : Int} {period : Nat} {m n : ChildMonitor}

theorem Counting.of_same (hi : m.Counting since period) (h : m.SameUmbilical n) :
    n.Counting since period := by
  refine ⟨?_, ?_, ?_, ?_, ?_⟩
  · rw [h.entry]
    exact hi.entry
  · have hlt := hi.awaits
    rwa [Awaits, ← h.umbilical] at hlt
  · rw [h.umbilical]
    exact hi.limit
  · rw [h.timer]
    exact hi.mPeriod
  · rw [h.umbilical, h.timer]
    exact hi.lapsed

theorem Counting.of_restart (hi : m.Counting since period)
    (humbilical : n.mUmbilical = { m.mUmbilical with mCycleCount := 0 })
    (hentry : n.mPollFds.umbilical = m.mPollFds.umbilical)
    (hperiod : n.mTimers.umbilical.mPeriod = m.mTimers.umbilical.mPeriod)
    (hsince : since ≤ n.mTimers.umbilical.mSince) : n.Counting since period := by
  refine ⟨?_, ?_, ?_, ?_, ?_⟩
  · rw [hentry]
    exact hi.entry
  · rw [Awaits, humbilical, hi.limit]
    exact Nat.two_pos
  · rw [humbilical]
    exact hi.limit
  · rw [hperiod]
    exact hi.mPeriod
  · rw [humbilical]
    simpa using hsince

/-- A firing counts one more period that has lapsed, as long as it comes before
the last of them. -/
theorem Counting.firing (hi : m.Counting since period) {laps : Nat} {pollTime : Int}
    (hready : m.mTimers.umbilical.Laps laps pollTime)
    (htime : pollTime < since + (timeoutCycles * period : Nat)) (state : ChildProcessState)
    (write : WriteResult) :
    (pollFdTimerUmbilical lap { m with mTimers.umbilical := m.mTimers.umbilical.lap laps } state
      write pollTime).self.Counting since period := by
  obtain ⟨⟨-, hdue⟩, hlaps, -⟩ := hready
  have hlapsed := hi.lapsed
  have hlimit := hi.limit
  have hawaits : m.mUmbilical.mCycleCount < m.mUmbilical.mCycleLimit := hi.awaits
  have hmul : period ≤ laps * period := Nat.le_mul_of_pos_left period hlaps
  rw [hi.mPeriod] at hdue
  have hsince : (m.mTimers.umbilical.lap laps).mSince =
      m.mTimers.umbilical.mSince + (laps * period : Nat) := by
    simp [PollFdTimerAction.lap, hi.mPeriod]
  have hnext : m.mUmbilical.mCycleCount + 1 < m.mUmbilical.mCycleLimit := by
    by_contra hlast
    have hcount : m.mUmbilical.mCycleCount = 1 := by
      rw [hlimit] at hawaits hlast
      unfold timeoutCycles at hawaits hlast
      omega
    rw [hcount] at hlapsed
    unfold timeoutCycles at htime
    omega
  rw [pollFdTimerUmbilical_awaiting lap
    { m with mTimers.umbilical := m.mTimers.umbilical.lap laps } pollTime state write hawaits]
  have hkept : (since : Int) + (m.mUmbilical.mCycleCount * period : Nat) ≤
      (m.mTimers.umbilical.lap laps).mSince := by omega
  unfold pollFdTimeoutUmbilical
  cases state with
  | running | exited | killed | dumped =>
    dsimp only
    rw [if_neg (Nat.ne_of_lt hnext)]
    refine ⟨hi.entry, hnext, hlimit, hi.mPeriod, ?_⟩
    have hsucc : (m.mUmbilical.mCycleCount + 1) * period =
        m.mUmbilical.mCycleCount * period + period := Nat.succ_mul _ _
    simp only [Outcome.ok_self, hsucc, hsince]
    omega
  | stopped | trapped =>
    have hstart : since ≤ (m.mTimers.umbilical.lap laps).mSince := by omega
    exact hi.of_restart rfl rfl rfl hstart
  | echild | failed => exact ⟨hi.entry, hawaits, hlimit, hi.mPeriod, hkept⟩

/-- Between a ping and the last of its periods, an event that reads nothing and
does not continue the process leaves the count short of its limit. -/
theorem Counting.reply (hlap : lap.Lawful) (hi : m.Counting since period) {event : ChildEvent}
    (hready : event.Ready m)
    (hread : ∀ read pollTime, event = .umbilical read pollTime → read = .eintr ∨ read = .failed)
    (hcont : ∀ pollTime, event ≠ .cont pollTime)
    (htime : ∀ pollTime ∈ event.pollTime,
      since ≤ pollTime ∧ pollTime < since + (timeoutCycles * period : Nat)) (activity : Int) :
    (event.reply lap m activity).self.Counting since period := by
  cases hof : event.ofUmbilical with
  | false => exact hi.of_same (event.reply_sameUmbilical lap m activity hof).1
  | true =>
    cases event with
    | umbilical read pollTime =>
      have harmed := hi.entry
      simp only [ChildEvent.reply, pollFdUmbilical, harmed, if_true]
      rcases hread read pollTime rfl with rfl | rfl <;> exact hi
    | reapUmbilical enabled pollTime =>
      simp only [ChildEvent.reply, pollFdReapUmbilicalEvent, restartFdTimerUmbilical]
      split_ifs
      · refine hi.of_restart rfl rfl rfl ?_
        simp only [Outcome.ok_self, hlap.restart_eq]
        exact (htime pollTime rfl).1
      all_goals exact hi.of_same ⟨rfl, rfl, rfl⟩
    | cont pollTime => exact absurd rfl (hcont pollTime)
    | timerUmbilical laps state write pollTime =>
      exact hi.firing hready (htime pollTime rfl).2 state write
    | _ => cases hof

/-- One more period has lapsed, and counts. -/
def counted (self : ChildMonitor) : ChildMonitor :=
  { self with
    mTimers.umbilical := self.mTimers.umbilical.lap 1
    mUmbilical.mCycleCount := self.mUmbilical.mCycleCount + 1 }

theorem firing_running (activity pollTime : Int) (h : m.Awaits) :
    (ChildEvent.timerUmbilical 1 .running .written pollTime).reply lap m activity =
      if m.mUmbilical.mCycleCount + 1 = m.mUmbilical.mCycleLimit then
        m.counted.pollFdCloseUmbilical lap pollTime
      else .ok m.counted :=
  pollFdTimerUmbilical_awaiting lap { m with mTimers.umbilical := m.mTimers.umbilical.lap 1 }
    pollTime .running .written h

end ChildMonitor

namespace PingEcho

/-- The umbilical timer of the sentry gives up the echo that is awaited. -/
def TimesOut (s : PingEcho) (event : PingEchoEvent) (t : PingEcho) : Prop :=
  ∃ laps state write pollTime, event = .sentry (.timerUmbilical laps state write pollTime) ∧
    s.sentry.monitor.Awaits ∧ ¬ t.sentry.monitor.Awaits

/-- An event of the sentry within the given time, but for SIGCONT, while the
umbilical process is held up. -/
def HeldUp (first last : Int) : PingEchoEvent → Prop
  | .sentry event => (∀ pollTime, event ≠ .cont pollTime) ∧
    ∀ pollTime ∈ event.pollTime, first ≤ pollTime ∧ pollTime ≤ last
  | .umbilical _ | .stop => False

/-- The umbilical process is held up with a ping to be read. -/
structure Unanswered (since : Int) (period : Nat) (s : PingEcho) : Prop where
  stopped : s.stopped = false
  listens : s.Listens
  echoes : s.echoes = 0
  counting : s.sentry.monitor.Counting since period

theorem Unanswered.step {lap : LapTime} (hlap : lap.Lawful) {since first last : Int} {period : Nat}
    {s t : PingEcho} {event : PingEchoEvent} (hi : s.Unanswered since period)
    (h : s.next lap event = some t) (hfirst : since ≤ first)
    (hlast : last < since + (timeoutCycles * period : Nat)) (hheld : HeldUp first last event) :
    ¬ s.TimesOut event t ∧ t.Unanswered since period := by
  cases event with
  | umbilical event => cases hheld
  | stop => cases hheld
  | sentry event =>
    unfold next at h
    split_ifs at h with hp
    obtain ⟨sentry, hs, rfl⟩ := Option.map_eq_some_iff.mp h
    obtain ⟨⟨-, hready⟩, rfl⟩ := ChildRun.next_eq_some.mp hs
    have hechoes := hi.echoes
    have hcounting := hi.counting.reply hlap hready ?_ hheld.1
      (fun pollTime hmem => ⟨hfirst.trans (hheld.2 pollTime hmem).1,
        lt_of_le_of_lt (hheld.2 pollTime hmem).2 hlast⟩) s.sentry.activity
    · refine ⟨?_, hi.stopped, hi.listens, by simp [hechoes], hcounting⟩
      rintro ⟨-, -, -, -, -, -, hnot⟩
      exact hnot hcounting.awaits
    · rintro read pollTime rfl
      cases read with
      | byte value => exact absurd hp.2 (by simp [hechoes])
      | eof | econnreset => exact absurd hi.listens hp.2
      | eintr => exact .inl rfl
      | failed => exact .inr rfl

theorem Unanswered.of_ping {lap : LapTime} {options : ServerOptions} {s t : PingEcho}
    (hs : (system lap options).Reachable s) {laps : Nat} {state : ChildProcessState}
    {pollTime : Int}
    (h : s.next lap (.sentry (.timerUmbilical laps state .written pollTime)) = some t)
    (hidle : ¬ s.sentry.monitor.Awaits) (ht : t.Open) :
    t.Unanswered t.sentry.monitor.mTimers.umbilical.mSince (nsecs options.mUmbilical_s / 2) ∧
      nsecs options.mUmbilical_s / 2 ≠ 0 ∧ t.sentry.rc = .ok ∧
      t.sentry.monitor.mTimers.umbilical.mSince ≤ pollTime ∧
      t.sentry.monitor.mUmbilical.mCycleCount = 0 := by
  obtain ⟨ho, hready, hsentry, humbilical, hechoes, hpings, -⟩ := Open.of_sentry h ht
  have hconfigured := ChildRun.configured_of_reachable (sentry_reachable hs)
  have he : s.sentry.monitor.mUmbilical.mCycleCount = s.sentry.monitor.mUmbilical.mCycleLimit :=
    Nat.le_antisymm hconfigured.bound (Nat.le_of_not_lt hidle)
  have hreply : (ChildEvent.timerUmbilical laps state .written pollTime).reply lap
      s.sentry.monitor s.sentry.activity = .emit { s.sentry.monitor with
        mTimers.umbilical := s.sentry.monitor.mTimers.umbilical.lap laps
        mUmbilical.mCycleCount := 0 } .ping := by
    simp [ChildEvent.reply, pollFdTimerUmbilical, pollFdWriteUmbilical, he]
  have htokens := (conserved_of_open (hs.tail h) ht).tokens
  have hout : t.sentry.monitor.outstanding ≤ 1 := by
    unfold ChildMonitor.outstanding
    split <;> omega
  have hnone : t.echoes = 0 := by
    rw [hreply] at hpings
    simp only [Outcome.emit_effects, List.count_singleton_self] at hpings
    unfold tokens at htokens
    omega
  have hmonitor : t.sentry.monitor = { s.sentry.monitor with
      mTimers.umbilical := s.sentry.monitor.mTimers.umbilical.lap laps
      mUmbilical.mCycleCount := 0 } := by
    rw [hsentry, ChildRun.after, hreply]
    rfl
  refine ⟨⟨ht.1, ht.2.2, hnone, ?_⟩, ?_, by rw [hsentry, ChildRun.after, hreply]; rfl, ?_,
    by rw [hmonitor]⟩
  · rw [hmonitor]
    refine ⟨ho.2.1, ?_, hconfigured.limit, hconfigured.period ho.2.1, by simp⟩
    rw [Awaits, hconfigured.limit]
    exact Nat.two_pos
  · rw [← hconfigured.period ho.2.1]
    exact hready.1.1
  · rw [hmonitor]
    exact hready.2.2

theorem next_firing (lap : LapTime) {s : PingEcho} (hstopped : s.stopped = false)
    (hrc : s.sentry.rc = .ok) {pollTime : Int}
    (hready : s.sentry.monitor.mTimers.umbilical.Laps 1 pollTime) :
    ∃ t, s.next lap (.sentry (.timerUmbilical 1 .running .written pollTime)) = some t ∧
      t.stopped = false ∧
      t.sentry = s.sentry.after lap (.timerUmbilical 1 .running .written pollTime) := by
  have hp : s.Permits (.sentry (.timerUmbilical 1 .running .written pollTime)) := ⟨hstopped, trivial⟩
  have hs : s.sentry.next lap (.timerUmbilical 1 .running .written pollTime) = some _ :=
    ChildRun.next_eq_some.mpr ⟨⟨hrc, hready⟩, rfl⟩
  unfold next
  rw [if_pos hp]
  simp only [hs]
  exact ⟨_, rfl, hstopped, rfl⟩

/-- Two firings, each as soon as it can be, give up the echo. -/
theorem Unanswered.times_out {lap : LapTime} {since : Int} {period : Nat} {s : PingEcho}
    (hi : s.Unanswered since period) (hrc : s.sentry.rc = .ok)
    (hsince : s.sentry.monitor.mTimers.umbilical.mSince = since)
    (hcount : s.sentry.monitor.mUmbilical.mCycleCount = 0) (hperiod : period ≠ 0)
    {first last : Int} (hfirst : first ≤ last)
    (hlast : since + (timeoutCycles * period : Nat) ≤ last) (options : ServerOptions) :
    ∃ run, (system lap options).IsRun s run ∧
      System.Throughout (fun _ event _ => HeldUp first last event) s run ∧
      ¬ System.Throughout (fun s event t => ¬ s.TimesOut event t) s run := by
  obtain ⟨hstopped, -, -, hcounting⟩ := hi
  have hmPeriod := hcounting.mPeriod
  have hlimit := hcounting.limit
  unfold timeoutCycles at hlast hlimit
  let one := max first (since + period)
  let two := max first (since + (2 * period : Nat))
  have hready : s.sentry.monitor.mTimers.umbilical.Laps 1 one := by
    refine ⟨⟨by rw [hmPeriod]; exact hperiod, ?_⟩, Nat.le_refl 1, ?_⟩
    · rw [hsince, hmPeriod]
      exact le_max_right _ _
    · rw [hsince, hmPeriod, Nat.cast_one, one_mul]
      exact le_max_right _ _
  obtain ⟨t, ht, htstopped, htsentry⟩ := next_firing lap hstopped hrc hready
  have hfired := @firing_running lap s.sentry.monitor s.sentry.activity one hcounting.awaits
  rw [hcount, hlimit, if_neg (by decide)] at hfired
  have hmonitor : t.sentry.monitor = s.sentry.monitor.counted := by
    rw [htsentry, ChildRun.after, hfired]
    rfl
  have htcount : t.sentry.monitor.mUmbilical.mCycleCount = 1 := by
    rw [hmonitor, counted, hcount]
  have htlimit : t.sentry.monitor.mUmbilical.mCycleLimit = 2 := by
    rw [hmonitor]
    exact hlimit
  have htrc : t.sentry.rc = .ok := by
    rw [htsentry, ChildRun.after, hfired]
    rfl
  have htready : t.sentry.monitor.mTimers.umbilical.Laps 1 two := by
    have htwo : since + (2 * period : Nat) ≤ two := le_max_right _ _
    rw [hmonitor]
    simp only [counted, PollFdTimerAction.Laps, PollFdTimerAction.Due, PollFdTimerAction.lap,
      hsince, hmPeriod]
    refine ⟨⟨hperiod, ?_⟩, Nat.le_refl 1, ?_⟩ <;> omega
  have htawaits : t.sentry.monitor.Awaits := by
    rw [Awaits, htcount, htlimit]
    decide
  obtain ⟨u, hu, -, husentry⟩ := next_firing lap htstopped htrc htready
  refine ⟨[(_, t), (_, u)], ⟨ht, hu, trivial⟩, ⟨⟨?_, ?_⟩, ⟨?_, ?_⟩, trivial⟩, ?_⟩
  · intro pollTime he
    cases he
  · intro pollTime hmem
    cases hmem
    exact ⟨le_max_left _ _, max_le hfirst (by omega)⟩
  · intro pollTime he
    cases he
  · intro pollTime hmem
    cases hmem
    exact ⟨le_max_left _ _, max_le hfirst hlast⟩
  · rintro ⟨-, hnot, -⟩
    refine hnot ⟨_, _, _, _, rfl, htawaits, ?_⟩
    have hclosed := @firing_running lap t.sentry.monitor t.sentry.activity two htawaits
    rw [htcount, htlimit, if_pos rfl] at hclosed
    rw [husentry, ChildRun.after, hclosed, Awaits, pollFdCloseUmbilical_mUmbilical]
    simp only [counted, htcount, htlimit]
    decide

/-- Nothing that happens in the given time, while the umbilical process is held
up, makes the sentry give up the echo. -/
def Patient (lap : LapTime) (options : ServerOptions) (first last : Int) (s : PingEcho) : Prop :=
  ∀ run, (system lap options).IsRun s run →
    System.Throughout (fun _ event _ => HeldUp first last event) s run →
    System.Throughout (fun s event t => ¬ s.TimesOut event t) s run

/-- While a handshake that began at `since` holds up the umbilical process, the
sentry does not give up a ping exactly when the handshake is over within the
timeout of the period that the ping was written in. -/
theorem patient_iff {lap : LapTime} (hlap : lap.Lawful) (options : ServerOptions)
    {s t : PingEcho} (hs : (system lap options).Reachable s) {laps : Nat}
    {state : ChildProcessState} {pollTime : Int}
    (h : s.next lap (.sentry (.timerUmbilical laps state .written pollTime)) = some t)
    (hidle : ¬ s.sentry.monitor.Awaits) (ht : t.Open) (since : Int) (client : Option Nat)
    (hduring : pollTime ≤ since + acceptTime client) :
    t.Patient lap options pollTime (since + acceptTime client) ↔
      since + acceptTime client <
        t.sentry.monitor.mTimers.umbilical.mSince + nsecs options.mUmbilical_s := by
  obtain ⟨hi, hperiod, hrc, hsince, hcount⟩ := Unanswered.of_ping hs h hidle ht
  have htwice : timeoutCycles * (nsecs options.mUmbilical_s / 2) = nsecs options.mUmbilical_s := by
    unfold timeoutCycles nsecs
    omega
  constructor
  · intro hpatient
    by_contra hlong
    have hends : ∃ run, (system lap options).IsRun t run ∧
        System.Throughout (fun _ event _ => HeldUp pollTime (since + acceptTime client) event) t run ∧
        ¬ System.Throughout (fun s event t => ¬ s.TimesOut event t) t run :=
      hi.times_out hrc rfl hcount hperiod hduring (by rw [htwice]; exact Int.not_lt.mp hlong) options
    obtain ⟨run, hr, hheld, hnot⟩ := hends
    exact hnot (hpatient run hr hheld)
  · intro hshort run hr hheld
    exact System.IsRun.throughout_of_condition
      (fun _ _ _ _ hi hstep hheld => hi.step hlap hstep hsince (by rw [htwice]; exact hshort) hheld)
      (hs.tail h) hi hr hheld

section silentClient

/-- The first ping has been answered, and the second one is due at 16 s. -/
def answered : PingEcho where
  sentry := { ChildRun.enter .monotonic ⟨true, 30, 30, 30⟩ 2 3 4 5 none 0 0 with
    monitor.mTimers.umbilical := ⟨1000000000, 15000000000⟩ }
  umbilical := { UmbilicalRun.enter 30 1 (some ⟨5, 6, ⟨7, [1]⟩, []⟩) 0 with
    phase := .looping
    monitor.mTimer := ⟨-7500000000, 15000000000⟩ }
  pings := 0
  echoes := 0
  stopped := false

theorem answered_reachable : (system .monotonic ⟨true, 30, 30, 30⟩).Reachable answered :=
  .of_foldlM (.of_init ⟨_, _, ⟨2, 3, 4, 5, none, 0, 0, rfl⟩,
      ⟨1, some ⟨5, 6, ⟨7, [1]⟩, []⟩, 0, by simp, rfl⟩, rfl⟩)
    [.sentry (.timerUmbilical 1 .running .written 0), .umbilical (.umbilical (.byte 46) true true 0),
      .umbilical (.eventPipe false .written), .sentry (.umbilical (.byte 46) 1000000000)] rfl

def pinged : PingEcho :=
  { answered with
    sentry.monitor.mTimers.umbilical := ⟨16000000000, 15000000000⟩
    sentry.monitor.mUmbilical.mCycleCount := 0
    pings := 1 }

/-- A client that connects as a ping is written and stays silent outlasts the
default timeout of the umbilical. -/
theorem not_patient_silent :
    ¬ ∀ lap : LapTime, lap.Lawful → ∀ options : ServerOptions, options.mUmbilical_s ≠ 0 →
      ∀ s t, (system lap options).Reachable s → ∀ laps state pollTime,
        s.next lap (.sentry (.timerUmbilical laps state .written pollTime)) = some t →
        ¬ s.sentry.monitor.Awaits → t.Open → ∀ (since : Int) (client : Option Nat),
          pollTime ≤ since + acceptTime client →
          t.Patient lap options pollTime (since + acceptTime client) := by
  intro h
  have hpatient := h .monotonic LapTime.monotonic_lawful ⟨true, 30, 30, 30⟩ (by decide) _ pinged
    answered_reachable 1 .running 16000000000 rfl (by decide) (by decide) 16000000000 none
    (by decide)
  let run := System.run (next .monotonic) pinged
    [.sentry (.timerUmbilical 1 .running .written 31000000000),
      .sentry (.timerUmbilical 1 .running .written 46000000000)]
  have hheld : ∀ laps (pollTime : Int), 16000000000 ≤ pollTime → pollTime ≤ 46000000000 →
      HeldUp 16000000000 46000000000 (.sentry (.timerUmbilical laps .running .written pollTime)) := by
    refine fun laps pollTime hfirst hlast => ⟨fun _ he => ?_, fun _ hmem => ?_⟩
    · cases he
    · cases hmem
      exact ⟨hfirst, hlast⟩
  have hnever := hpatient run (System.isRun_run _ _ _ _)
    ⟨hheld 1 _ (by decide) (by decide), hheld 1 _ (by decide) (by decide), trivial⟩
  exact hnever.2.1 ⟨1, .running, .written, 46000000000, rfl, by decide, by decide⟩

theorem patient_prompt :
    pinged.Patient .monotonic ⟨true, 30, 30, 30⟩ 16000000000 (16000000000 + acceptTime (some 5)) ↔
      (16000000000 : Int) + acceptTime (some 5) < 16000000000 + nsecs 30 :=
  have hping : answered.next .monotonic (.sentry (.timerUmbilical 1 .running .written 16000000000)) =
      some pinged := rfl
  patient_iff LapTime.monotonic_lawful ⟨true, 30, 30, 30⟩ answered_reachable hping (by decide)
    (by decide) 16000000000 (some 5) (by decide)

end silentClient

end PingEcho

end PidSentry
