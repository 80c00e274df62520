import PidSentry.PingEcho

/-! Rounds of the umbilical: from one ping that the umbilical process reads to the
next, and the timer that it keeps half a period out of phase with them. -/

namespace PidSentry

open ChildMonitor

/-- Triggering a timer moves its start back by exactly a period. -/
structure LapTime.Exact (lap : LapTime) : Prop extends lap.Lawful where
  trigger_eq : ∀ since period now, lap.trigger since period now = now - (period : Nat)

theorem LapTime.monotonic_exact : LapTime.monotonic.Exact :=
  { LapTime.monotonic_lawful with trigger_eq := fun _ _ _ => rfl }

/-- Where the round that is under way has come to, with the poll times at which
the umbilical process read its ping, the sentry read the echo, and the sentry
wrote the next ping, and how late that was. -/
inductive Round
  | unread
  | echoing (read : Int)
  | resting (read echoed : Int)
  | pinging (read echoed late written : Int)
  deriving DecidableEq, Repr

/-- The echo's way to the sentry, the lateness of the next ping, and the way of
that ping to the umbilical process. -/
def roundTime (read echoed late written next : Int) : Int :=
  (echoed - read) + late + (next - written)

namespace Round

def read? : Round → Option Int
  | unread => none
  | echoing read | resting read _ | pinging read _ _ _ => some read

/-- A round has begun, and can still come to less than half a period if its next
ping is read at `now` or later. With an echo under way the next ping is due a
period after it is read, with none under way at `due`. -/
def Brisk (period : Nat) (due now : Int) : Round → Prop
  | unread => False
  | echoing read => ∃ echoed late next, now ≤ next ∧
      2 * roundTime read echoed late (echoed + period + late) next < period
  | resting read echoed => ∃ late next, now ≤ next ∧
      2 * roundTime read echoed late (due + late) next < period
  | pinging read echoed late written => ∃ next, now ≤ next ∧
      2 * roundTime read echoed late written next < period

end Round

/-- The sentry and the umbilical process with the round that is under way. -/
structure RoundRun where
  link : PingEcho
  round : Round
  deriving DecidableEq, Repr

namespace RoundRun

/-- When the sentry's umbilical timer is due. -/
def due (s : RoundRun) : Int :=
  s.link.sentry.monitor.mTimers.umbilical.mSince + s.link.sentry.monitor.mTimers.umbilical.mPeriod

def roundAfter (s : RoundRun) (event : PingEchoEvent) : Round :=
  match event, s.round with
  | .umbilical (.umbilical (.byte _) _ _ pollTime), _ => .echoing pollTime
  | .sentry (.umbilical (.byte _) pollTime), .echoing read => .resting read pollTime
  | .sentry (.timerUmbilical _ _ .written pollTime), .resting read echoed =>
    .pinging read echoed (pollTime - s.due) pollTime
  | _, round => round

def next (lap : LapTime) (s : RoundRun) (event : PingEchoEvent) : Option RoundRun :=
  (s.link.next lap event).map fun link => ⟨link, s.roundAfter event⟩

def Start (lap : LapTime) (options : ServerOptions) (s : RoundRun) : Prop :=
  ∃ link, PingEcho.Start lap options link ∧ s = ⟨link, .unread⟩

def system (lap : LapTime) (options : ServerOptions) : System RoundRun PingEchoEvent :=
  .ofNext (Start lap options) (next lap)

/-- The sentry keeps the connection open, is not continued, and writes its pings,
and a brisk round is under way whenever the timer of the umbilical process fires:
its loop reads what is ready before it comes to its timer. -/
structure Steady (s : RoundRun) (event : PingEchoEvent) (t : RoundRun) : Prop where
  unstopped : event ≠ .stop
  opened : t.link.sentry.monitor.mPollFds.umbilical.armed
  uncontinued : ∀ pollTime, event ≠ .sentry (.cont pollTime)
  written : ∀ laps state write pollTime,
    event = .sentry (.timerUmbilical laps state write pollTime) →
    ¬ s.link.sentry.monitor.Awaits → write = .written
  brisk : ∀ laps stopped shutdown pollTime,
    event = .umbilical (.timerUmbilical laps stopped shutdown pollTime) →
    s.round.Brisk s.link.umbilical.monitor.mTimer.mPeriod s.due pollTime

/-- The count of umbilical periods is short of its limit. -/
def Unalarmed (s : RoundRun) : Prop :=
  s.link.umbilical.monitor.mUmbilical.mCycleCount < s.link.umbilical.monitor.mUmbilical.mCycleLimit

end RoundRun

namespace Round

/-- Where the token is in each part of a round. -/
def Fits (period : Nat) (s : PingEcho) : Round → Prop
  | unread => s.pings = s.tokens
  | echoing _ => s.pings = 0 ∧ s.sentry.monitor.Awaits
  | resting _ echoed => ¬ s.sentry.monitor.Awaits ∧
      s.sentry.monitor.mTimers.umbilical.mSince = echoed
  | pinging _ echoed late written => s.pings = 1 ∧ written = echoed + period + late

end Round

/-- Each period counted has lapsed since half a period before `read`. -/
structure UmbilicalMonitor.Lapsing (period : Nat) (read? : Option Int) (m : UmbilicalMonitor) :
    Prop where
  limit : m.mUmbilical.mCycleLimit = cycleLimit
  mPeriod : m.mTimer.mPeriod = period
  lapsed : ∀ read ∈ read?,
    read - period + (period / 2 : Nat) + (m.mUmbilical.mCycleCount * period : Nat) ≤ m.mTimer.mSince

namespace RoundRun

/-- The invariant of a steady run for as long as the umbilical process runs. -/
structure Timed (options : ServerOptions) (s : RoundRun) : Prop where
  opened : s.link.Open
  preempt : s.link.sentry.monitor.mUmbilical.mPreempt = false
  fits : s.round.Fits (nsecs options.mUmbilical_s / 2) s.link
  lapsing : s.link.umbilical.monitor.Lapsing (nsecs options.mUmbilical_s / 2) s.round.read?

end RoundRun

namespace UmbilicalMonitor

variable {lap : LapTime} {period : Nat} {read? : Option Int} {m n : UmbilicalMonitor}

theorem Lapsing.of_same (hi : m.Lapsing period read?) (h : m.SameTimer n) :
    n.Lapsing period read? := by
  refine ⟨?_, ?_, ?_⟩
  · rw [h.umbilical]
    exact hi.limit
  · rw [h.timer]
    exact hi.mPeriod
  · rw [h.umbilical, h.timer]
    exact hi.lapsed

/-- A ping that is read puts the timer half a period out of phase with it. -/
theorem Lapsing.restart (hlap : lap.Exact) (hi : m.Lapsing period read?) (pollTime : Int) :
    (m.restartTimer lap pollTime).Lapsing period (some pollTime) ∧
      (m.restartTimer lap pollTime).mUmbilical.mCycleCount = 0 := by
  refine ⟨⟨hi.limit, hi.mPeriod, ?_⟩, rfl⟩
  intro read hread
  cases hread
  simp [restartTimer, hlap.delay_eq, hlap.trigger_eq, hi.mPeriod]

/-- A firing counts one more period that has lapsed, or starts the count over. -/
theorem Lapsing.firing (hi : m.Lapsing period read?) {laps : Nat} {pollTime : Int}
    (hready : m.mTimer.Laps laps pollTime)
    (hnext : m.mUmbilical.mCycleCount + 1 < cycleLimit) (stopped shutdown : Bool) :
    (pollFdTimerUmbilical { m with mTimer := m.mTimer.lap laps } stopped shutdown).self.Lapsing
        period read? ∧
      (pollFdTimerUmbilical { m with mTimer := m.mTimer.lap laps } stopped
        shutdown).self.mUmbilical.mCycleCount < cycleLimit ∧
      (pollFdTimerUmbilical { m with mTimer := m.mTimer.lap laps } stopped
        shutdown).self.mFds = m.mFds := by
  have hmul : period ≤ laps * period := Nat.le_mul_of_pos_left period hready.2.1
  have hsince : (m.mTimer.lap laps).mSince = m.mTimer.mSince + (laps * period : Nat) := by
    simp [PollFdTimerAction.lap, hi.mPeriod]
  unfold pollFdTimerUmbilical
  cases stopped with
  | true =>
    refine ⟨⟨hi.limit, hi.mPeriod, fun read hread => ?_⟩, Nat.two_pos, rfl⟩
    have hlapsed := hi.lapsed read hread
    simp only [if_true, Outcome.ok_self, hsince, Nat.zero_mul]
    omega
  | false =>
    have hlimit : ¬ m.mUmbilical.mCycleLimit ≤ m.mUmbilical.mCycleCount + 1 := by
      rw [hi.limit]
      omega
    simp only [Bool.false_eq_true, if_false, if_neg hlimit]
    refine ⟨⟨hi.limit, hi.mPeriod, fun read hread => ?_⟩, hnext, rfl⟩
    have hlapsed := hi.lapsed read hread
    have hsucc : (m.mUmbilical.mCycleCount + 1) * period =
        m.mUmbilical.mCycleCount * period + period := Nat.succ_mul _ _
    simp only [Outcome.ok_self, hsince, hsucc]
    omega

end UmbilicalMonitor

section reply

variable {m : UmbilicalMonitor} {value : UInt8} {latched : Bool}

theorem UmbilicalEvent.reply_posted (lap : LapTime) (hvalue : value ≠ 0)
    (hclosed : m.mUmbilical.mClosed = false) (shutdown : Bool) (pollTime : Int) :
    (UmbilicalEvent.umbilical (.byte value) shutdown true pollTime).reply lap m =
      .ok ({ m with mEchoRequest := true }.restartTimer lap pollTime) := by
  simp [UmbilicalEvent.reply, UmbilicalMonitor.pollFdUmbilical, UmbilicalMonitor.pollFdMessage,
    hclosed, hvalue]

theorem UmbilicalEvent.reply_unposted (lap : LapTime) (hvalue : value ≠ 0)
    (hnot : ¬ (m.mUmbilical.mClosed = false ∧ latched = true)) (shutdown : Bool) (pollTime : Int) :
    (UmbilicalEvent.umbilical (.byte value) shutdown latched pollTime).reply lap m = .abort m ∨
      (UmbilicalEvent.umbilical (.byte value) shutdown latched pollTime).reply lap m = .error m := by
  simp only [UmbilicalEvent.reply, UmbilicalMonitor.pollFdUmbilical,
    UmbilicalMonitor.pollFdMessage]
  split_ifs with hclosed hlatched
  · exact .inl rfl
  · exact absurd ⟨Bool.eq_false_iff.mpr hclosed, hlatched⟩ hnot
  · exact .inr rfl

end reply

/-- A round that is brisk at a firing is in its first period. -/
theorem Round.Brisk.first {options : ServerOptions} {s : PingEcho} {round : Round} {due now : Int}
    {m : UmbilicalMonitor} (hfits : round.Fits (nsecs options.mUmbilical_s / 2) s)
    (hlapsing : m.Lapsing (nsecs options.mUmbilical_s / 2) round.read?)
    (hbound : m.mUmbilical.mCycleCount < m.mUmbilical.mCycleLimit)
    (hdue : ∀ read echoed, round = .resting read echoed →
      due = echoed + (nsecs options.mUmbilical_s / 2 : Nat))
    (hnow : m.mTimer.mSince + m.mTimer.mPeriod ≤ now)
    (hbrisk : round.Brisk m.mTimer.mPeriod due now) :
    m.mUmbilical.mCycleCount + 1 < UmbilicalMonitor.cycleLimit := by
  rw [hlapsing.mPeriod] at hnow hbrisk
  have hlimit := hlapsing.limit
  -- the three times add up to the time between the two readings, less a period
  have htotal : ∀ read ∈ round.read?, ∃ next, now ≤ next ∧
      2 * (next - read - (nsecs options.mUmbilical_s / 2 : Nat)) <
        (nsecs options.mUmbilical_s / 2 : Nat) := by
    intro read hread
    cases round with
    | unread => cases hbrisk
    | echoing read' =>
      cases hread
      obtain ⟨echoed, late, next, hnext, hlt⟩ := hbrisk
      unfold roundTime at hlt
      exact ⟨next, hnext, by omega⟩
    | resting read' echoed =>
      cases hread
      obtain ⟨late, next, hnext, hlt⟩ := hbrisk
      have he := hdue read echoed rfl
      unfold roundTime at hlt
      exact ⟨next, hnext, by omega⟩
    | pinging read' echoed late written =>
      cases hread
      obtain ⟨next, hnext, hlt⟩ := hbrisk
      have he := hfits.2
      unfold roundTime at hlt
      exact ⟨next, hnext, by omega⟩
  by_contra hlast
  have hcount : m.mUmbilical.mCycleCount = 1 := by
    rw [hlimit] at hbound
    unfold UmbilicalMonitor.cycleLimit at hbound hlast
    omega
  cases hround : round.read? with
  | none =>
    cases round with
    | unread => cases hbrisk
    | echoing | resting | pinging => cases hround
  | some read =>
    obtain ⟨next, hnext, hlt⟩ := htotal read hround
    have hlapsed := hlapsing.lapsed read hround
    rw [hcount, Nat.one_mul] at hlapsed
    unfold nsecs at *
    omega

namespace RoundRun

theorem roundAfter_sentry_read? (s : RoundRun) (event : ChildEvent) :
    (s.roundAfter (.sentry event)).read? = s.round.read? := by
  unfold roundAfter
  split
  · rename_i h
    cases h
  · rename_i hround
    rw [hround]
    rfl
  · rename_i hround
    rw [hround]
    rfl
  · rfl

theorem roundAfter_other (s : RoundRun) {event : ChildEvent}
    (hread : ∀ value pollTime, event ≠ .umbilical (.byte value) pollTime)
    (hfired : ∀ laps state write pollTime, event ≠ .timerUmbilical laps state write pollTime) :
    s.roundAfter (.sentry event) = s.round := by
  unfold roundAfter
  split
  · rename_i h
    cases h
  · rename_i h _
    cases h
    exact absurd rfl (hread _ _)
  · rename_i h _
    cases h
    exact absurd rfl (hfired _ _ _ _)
  · rfl

end RoundRun

theorem ChildMonitor.pollFdTimeoutUmbilical_effects (lap : LapTime) (self : ChildMonitor)
    (state : ChildProcessState) (aPollTime : Int) :
    (self.pollFdTimeoutUmbilical lap state aPollTime).effects = [] := by
  unfold pollFdTimeoutUmbilical
  cases state with
  | running | exited | killed | dumped =>
    dsimp only
    split_ifs
    · simp [pollFdCloseUmbilical]
    · rfl
  | stopped | trapped | echild | failed => rfl

theorem PingEcho.Conserved.awaits {s : PingEcho} (hi : s.Conserved) :
    (s.sentry.monitor.Awaits → s.tokens = 1) ∧ (¬ s.sentry.monitor.Awaits → s.tokens = 0) :=
  ⟨fun h => hi.tokens.trans (if_pos h), fun h => hi.tokens.trans (if_neg h)⟩

theorem PingEcho.Conserved.single {s : PingEcho} (hi : s.Conserved) (hpings : 0 < s.pings) :
    s.sentry.monitor.Awaits ∧ s.pings = 1 := by
  have hawaits : s.sentry.monitor.Awaits := by
    by_contra hnot
    have hzero := hi.awaits.2 hnot
    unfold PingEcho.tokens at hzero
    omega
  have hone := hi.awaits.1 hawaits
  unfold PingEcho.tokens at hone
  exact ⟨hawaits, by omega⟩

/-- The round goes on as it is while no message is written or read. -/
theorem Round.Fits.quiet {period : Nat} {round : Round} {s t : PingEcho} (hfits : round.Fits period s)
    (hc : s.Conserved) (hc' : t.Conserved) (hpings : t.pings = s.pings) (htokens : t.tokens = s.tokens)
    (hsince : ¬ s.sentry.monitor.Awaits → t.sentry.monitor.mTimers.umbilical.mSince =
      s.sentry.monitor.mTimers.umbilical.mSince) : round.Fits period t := by
  have hawaits : t.sentry.monitor.Awaits ↔ s.sentry.monitor.Awaits := by
    constructor
    · intro h
      by_contra hnot
      have hone := hc'.awaits.1 h
      have hzero := hc.awaits.2 hnot
      omega
    · intro h
      by_contra hnot
      have hone := hc.awaits.1 h
      have hzero := hc'.awaits.2 hnot
      omega
  cases round with
  | unread => exact (hpings.trans hfits).trans htokens.symm
  | echoing read => exact ⟨hpings.trans hfits.1, hawaits.mpr hfits.2⟩
  | resting read echoed =>
    exact ⟨fun h => hfits.1 (hawaits.mp h), (hsince hfits.1).trans hfits.2⟩
  | pinging read echoed late written => exact ⟨hpings.trans hfits.1, hfits.2⟩

namespace RoundRun

variable {lap : LapTime} {options : ServerOptions} {s : RoundRun}

theorem Timed.fits_other (hi : s.Timed options) (hc : s.link.Conserved) {event : ChildEvent}
    (hready : event.Ready s.link.sentry.monitor) (hp : s.link.Permits (.sentry event))
    (hcont : ∀ pollTime, event ≠ .cont pollTime)
    (hread : ∀ value pollTime, event ≠ .umbilical (.byte value) pollTime)
    (hfired : ∀ laps state write pollTime, event ≠ .timerUmbilical laps state write pollTime)
    {link : PingEcho} (hlink : link = { s.link with
      sentry := s.link.sentry.after lap event
      echoes := s.link.echoes - event.reads
      pings := s.link.pings + (event.reply lap s.link.sentry.monitor
        s.link.sentry.activity).effects.count .ping })
    (hc' : link.Conserved) :
    s.round.Fits (nsecs options.mUmbilical_s / 2) link := by
  have hreads : event.reads = 0 := by
    unfold ChildEvent.reads
    split
    · exact absurd rfl (hread _ _)
    · rfl
  have hpings : (event.reply lap s.link.sentry.monitor
      s.link.sentry.activity).effects.count .ping = 0 := by
    rw [List.count_eq_zero]
    intro hmem
    obtain ⟨laps, state, write, pollTime, he⟩ := ping_mem hmem
    exact hfired laps state write pollTime he
  have hsame : link.pings = s.link.pings := by
    rw [hlink, hpings]
    rfl
  have htokens : link.tokens = s.link.tokens := by
    rw [hlink]
    simp [PingEcho.tokens, hreads, hpings]
  refine hi.fits.quiet hc hc' hsame htokens fun hawaits => ?_
  have hidle := event.reply_idle lap s.link.sentry.activity hawaits (fun read pollTime he => ?_)
    hcont hfired
  · rw [hlink]
    simp only [ChildRun.after, hidle.timer]
  · cases read with
    | byte value => exact absurd he (hread value pollTime)
    | eof | econnreset =>
      subst he
      exact absurd hi.opened.2.2 hp.2
    | eintr => exact .inl rfl
    | failed => exact .inr rfl

/-- A firing writes the next ping, or counts a period against the last one. -/
theorem Timed.fits_firing (hi : s.Timed options) (hc : s.link.Conserved)
    (hconfigured : s.link.sentry.Configured options) {laps : Nat} {state : ChildProcessState}
    {write : WriteResult} {pollTime : Int}
    (hwritten : ¬ s.link.sentry.monitor.Awaits → write = .written)
    {link : PingEcho} (hlink : link = { s.link with
      sentry := s.link.sentry.after lap (.timerUmbilical laps state write pollTime)
      echoes := s.link.echoes - (ChildEvent.timerUmbilical laps state write pollTime).reads
      pings := s.link.pings + ((ChildEvent.timerUmbilical laps state write pollTime).reply lap
        s.link.sentry.monitor s.link.sentry.activity).effects.count .ping })
    (hc' : link.Conserved) :
    (s.roundAfter (.sentry (.timerUmbilical laps state write pollTime))).Fits
      (nsecs options.mUmbilical_s / 2) link := by
  have hfits := hi.fits
  by_cases hawaits : s.link.sentry.monitor.Awaits
  · have hpings : ((ChildEvent.timerUmbilical laps state write pollTime).reply lap
        s.link.sentry.monitor s.link.sentry.activity).effects = [] := by
      have hreply := pollFdTimerUmbilical_awaiting lap { s.link.sentry.monitor with
        mTimers.umbilical := s.link.sentry.monitor.mTimers.umbilical.lap laps } pollTime state write
        hawaits
      exact (congrArg Outcome.effects hreply).trans (pollFdTimeoutUmbilical_effects lap _ _ _)
    have hround : s.roundAfter (.sentry (.timerUmbilical laps state write pollTime)) = s.round := by
      unfold roundAfter
      split
      · rename_i h
        cases h
      · rename_i h _
        cases h
      · rename_i hresting
        rw [hresting] at hfits
        exact absurd hawaits hfits.1
      · rfl
    have hsame : link.pings = s.link.pings := by
      rw [hlink, hpings]
      rfl
    have htokens : link.tokens = s.link.tokens := by
      rw [hlink, hpings]
      rfl
    rw [hround]
    exact hfits.quiet hc hc' hsame htokens fun hnot => absurd hawaits hnot
  · obtain rfl := hwritten hawaits
    have hzero := hc.awaits.2 hawaits
    have hpings : s.link.pings = 0 := by
      unfold PingEcho.tokens at hzero
      omega
    have he : s.link.sentry.monitor.mUmbilical.mCycleCount =
        s.link.sentry.monitor.mUmbilical.mCycleLimit :=
      Nat.le_antisymm hconfigured.bound (Nat.le_of_not_lt hawaits)
    have hreply : ((ChildEvent.timerUmbilical laps state .written pollTime).reply lap
        s.link.sentry.monitor s.link.sentry.activity).effects = [.ping] := by
      simp [ChildEvent.reply, pollFdTimerUmbilical, pollFdWriteUmbilical, he]
    cases hcase : s.round with
    | unread =>
      rw [hcase] at hfits
      simp only [roundAfter, hcase]
      have hnone : s.link.umbilical.monitor.mEchoRequest.toNat + s.link.echoes = 0 := by
        unfold PingEcho.tokens at hzero
        omega
      rw [hlink]
      simp only [Round.Fits, PingEcho.tokens, hreply, ChildEvent.reads, Nat.sub_zero]
      omega
    | echoing read =>
      rw [hcase] at hfits
      exact absurd hfits.2 hawaits
    | resting read echoed =>
      rw [hcase] at hfits
      simp only [roundAfter, hcase]
      refine ⟨by rw [hlink, hreply, hpings]; rfl, ?_⟩
      have hperiod := hconfigured.period hi.opened.2.1
      have hsince := hfits.2
      unfold due
      omega
    | pinging read echoed late written =>
      rw [hcase] at hfits
      have hone := hfits.1
      omega

/-- An echo is read in the round of its ping, and starts a new period. -/
theorem Timed.fits_echo (hlap : lap.Exact) (hi : s.Timed options) (hc : s.link.Conserved)
    {value : UInt8} {pollTime : Int} (hechoes : 0 < s.link.echoes) {link : PingEcho}
    (hlink : link.sentry = s.link.sentry.after lap (.umbilical (.byte value) pollTime)) :
    (s.roundAfter (.sentry (.umbilical (.byte value) pollTime))).Fits
      (nsecs options.mUmbilical_s / 2) link := by
  have hfits := hi.fits
  have hpreempt := hi.preempt
  have harmed := hi.opened.2.1
  cases hcase : s.round with
  | unread =>
    rw [hcase] at hfits
    have hall : s.link.pings = s.link.tokens := hfits
    unfold PingEcho.tokens at hall
    omega
  | echoing read =>
    rw [hcase] at hfits
    have hlt : s.link.sentry.monitor.mUmbilical.mCycleCount <
        s.link.sentry.monitor.mUmbilical.mCycleLimit := hfits.2
    simp only [roundAfter, hcase]
    have hmonitor : link.sentry.monitor = { s.link.sentry.monitor with
        mUmbilical.mCycleCount := s.link.sentry.monitor.mUmbilical.mCycleLimit
        mTimers.umbilical.mSince := lap.restart s.link.sentry.monitor.mTimers.umbilical.mSince
          pollTime } := by
      rw [hlink]
      simp [ChildRun.after, ChildEvent.reply, pollFdUmbilical, pollFdEcho, harmed, hlt, hpreempt]
    refine ⟨?_, ?_⟩
    · rw [hmonitor]
      exact Nat.lt_irrefl _
    · rw [hmonitor]
      exact hlap.restart_eq _ _
  | resting read echoed =>
    rw [hcase] at hfits
    have hzero := hc.awaits.2 hfits.1
    unfold PingEcho.tokens at hzero
    omega
  | pinging read echoed late written =>
    rw [hcase] at hfits
    have hone := hfits.1
    have hle : s.link.tokens ≤ 1 := by
      by_cases hawaits : s.link.sentry.monitor.Awaits
      · exact (hc.awaits.1 hawaits).le
      · rw [hc.awaits.2 hawaits]
        exact Nat.zero_le _
    unfold PingEcho.tokens at hle
    omega

theorem Timed.sentry (hlap : lap.Exact) (hs : (PingEcho.system lap options).Reachable s.link)
    (hi : s.Timed options) {event : ChildEvent} {link : PingEcho}
    (h : s.link.next lap (.sentry event) = some link)
    (hsteady : s.Steady (.sentry event) ⟨link, s.roundAfter (.sentry event)⟩) :
    Timed options ⟨link, s.roundAfter (.sentry event)⟩ := by
  have hopen : link.Open := by
    have hnext := h
    unfold PingEcho.next at hnext
    split_ifs at hnext
    obtain ⟨sentry, -, rfl⟩ := Option.map_eq_some_iff.mp hnext
    exact ⟨hi.opened.1, hsteady.opened, hi.opened.2.2⟩
  have hc := PingEcho.conserved_of_open hs hi.opened
  have hc' := PingEcho.conserved_of_open (hs.tail h) hopen
  have hconfigured := ChildRun.configured_of_reachable (PingEcho.sentry_reachable hs)
  have hcont : ∀ pollTime, event ≠ .cont pollTime :=
    fun pollTime he => hsteady.uncontinued pollTime (congrArg _ he)
  have hnext := h
  unfold PingEcho.next at hnext
  split_ifs at hnext with hp
  obtain ⟨sentry, hsentry, hlink⟩ := Option.map_eq_some_iff.mp hnext
  obtain ⟨⟨-, hready⟩, rfl⟩ := ChildRun.next_eq_some.mp hsentry
  refine ⟨hopen, ?_, ?_, ?_⟩
  · rw [← hlink]
    exact event.reply_preempt lap s.link.sentry.activity hcont hi.preempt
  · by_cases hread : ∃ value pollTime, event = .umbilical (.byte value) pollTime
    · obtain ⟨value, pollTime, rfl⟩ := hread
      exact hi.fits_echo hlap hc hp.2 (by rw [← hlink])
    · by_cases hfired : ∃ laps state write pollTime,
          event = .timerUmbilical laps state write pollTime
      · obtain ⟨laps, state, write, pollTime, rfl⟩ := hfired
        exact hi.fits_firing hc hconfigured (hsteady.written laps state write pollTime rfl)
          hlink.symm hc'
      · have hread' : ∀ value pollTime, event ≠ .umbilical (.byte value) pollTime :=
          fun value pollTime he => hread ⟨value, pollTime, he⟩
        have hfired' : ∀ laps state write pollTime,
            event ≠ .timerUmbilical laps state write pollTime :=
          fun laps state write pollTime he => hfired ⟨laps, state, write, pollTime, he⟩
        simp only [s.roundAfter_other hread' hfired']
        exact hi.fits_other hc hready hp hcont hread' hfired' hlink.symm hc'
  · rw [roundAfter_sentry_read?, ← hlink]
    exact hi.lapsing

/-- Callbacks of the loop that read nothing leave the round as it is. -/
theorem Timed.of_unread (hi : s.Timed options) (hc : s.link.Conserved) {event : UmbilicalEvent}
    (hreads : event.reads = 0) {link : PingEcho}
    (hlink : link = { s.link with
      umbilical := s.link.umbilical.after lap event
      pings := s.link.pings - event.reads
      echoes := s.link.echoes + (event.reply lap s.link.umbilical.monitor).effects.count .echo })
    (hentry : (event.reply lap s.link.umbilical.monitor).self.mFds.umbilical =
      s.link.umbilical.monitor.mFds.umbilical)
    (hlapsing : (event.reply lap s.link.umbilical.monitor).self.Lapsing
      (nsecs options.mUmbilical_s / 2) s.round.read?)
    (hc' : link.Open → link.Conserved)
    (hactive : link.umbilical.phase = .synchronising ∨ link.umbilical.phase = .looping) :
    Timed options ⟨link, s.roundAfter (.umbilical event)⟩ := by
  have hround : s.roundAfter (.umbilical event) = s.round := by
    unfold roundAfter
    split
    · rename_i h
      cases h
      cases hreads
    · rename_i h _
      cases h
    · rename_i h _
      cases h
    · rfl
  have hsentry : link.sentry = s.link.sentry := by rw [hlink]
  have hopen : link.Open := by
    refine ⟨?_, ?_, ?_, hactive⟩
    · rw [hlink]
      exact hi.opened.1
    · rw [hsentry]
      exact hi.opened.2.1
    · have harmed := hi.opened.2.2.1
      rw [hlink]
      simp only [UmbilicalRun.after, hentry]
      exact harmed
  rw [hround]
  refine ⟨hopen, ?_, ?_, ?_⟩
  · rw [hsentry]
    exact hi.preempt
  · have htokens : link.tokens = s.link.tokens := by
      rw [(hc' hopen).tokens, hc.tokens, hsentry]
    have hpings : link.pings = s.link.pings := by
      rw [hlink, hreads]
      rfl
    exact hi.fits.quiet hc (hc' hopen) hpings htokens fun _ => by rw [hsentry]
  · rw [hlink]
    exact hlapsing

theorem Timed.of_ping (hlap : lap.Exact) (hi : s.Timed options) (hu : s.Unalarmed)
    (hc : s.link.Conserved) {value : UInt8} {shutdown latched : Bool} {pollTime : Int}
    (hvalue : value ≠ 0) (hpings : 0 < s.link.pings) {link : PingEcho}
    (hlink : link = { s.link with
      umbilical := s.link.umbilical.after lap (.umbilical (.byte value) shutdown latched pollTime)
      pings := s.link.pings - 1
      echoes := s.link.echoes + ((UmbilicalEvent.umbilical (.byte value) shutdown latched
        pollTime).reply lap s.link.umbilical.monitor).effects.count .echo }) :
    Unalarmed ⟨link, .echoing pollTime⟩ ∧
      (link.umbilical.phase = .synchronising ∨ link.umbilical.phase = .looping →
        Timed options ⟨link, .echoing pollTime⟩) := by
  obtain ⟨hawaits, hone⟩ := hc.single hpings
  by_cases hok : s.link.umbilical.monitor.mUmbilical.mClosed = false ∧ latched = true
  · obtain ⟨hclosed, rfl⟩ := hok
    have hreply := UmbilicalEvent.reply_posted lap hvalue hclosed shutdown pollTime
    have hposted : { s.link.umbilical.monitor with mEchoRequest := true }.Lapsing
        (nsecs options.mUmbilical_s / 2) s.round.read? :=
      ⟨hi.lapsing.limit, hi.lapsing.mPeriod, hi.lapsing.lapsed⟩
    obtain ⟨hlapsing, hcount⟩ := hposted.restart hlap pollTime
    rw [hreply] at hlink
    have hmonitor : link.umbilical.monitor = { s.link.umbilical.monitor with
        mEchoRequest := true }.restartTimer lap pollTime := by
      rw [hlink, UmbilicalRun.after, hreply]
      rfl
    have hphase : link.umbilical.phase = .looping := by
      rw [hlink]
      simp [UmbilicalRun.after, hreply]
    refine ⟨?_, fun _ => ⟨⟨?_, ?_, ?_, .inr hphase⟩, ?_, ⟨?_, ?_⟩, ?_⟩⟩
    · unfold Unalarmed
      rw [hmonitor, hcount, hlapsing.limit]
      exact Nat.two_pos
    · rw [hlink]
      exact hi.opened.1
    · rw [hlink]
      exact hi.opened.2.1
    · rw [hmonitor]
      exact hi.opened.2.2.1
    · rw [hlink]
      exact hi.preempt
    · rw [hlink, hone]
    · rw [hlink]
      exact hawaits
    · rw [hmonitor]
      exact hlapsing
  · have hfailed := UmbilicalEvent.reply_unposted lap hvalue hok shutdown pollTime
    refine ⟨?_, fun hactive => ?_⟩
    · have hkept : link.umbilical.monitor = s.link.umbilical.monitor := by
        rw [hlink]
        rcases hfailed with he | he <;> simp [UmbilicalRun.after, he]
      unfold Unalarmed
      rw [hkept]
      exact hu
    · rw [hlink] at hactive
      rcases hfailed with he | he <;> simp [UmbilicalRun.after, he] at hactive

theorem Timed.umbilical (hlap : lap.Exact) (hs : (PingEcho.system lap options).Reachable s.link)
    (hi : s.Timed options) (hu : s.Unalarmed) {event : UmbilicalEvent} {link : PingEcho}
    (h : s.link.next lap (.umbilical event) = some link)
    (hsteady : s.Steady (.umbilical event) ⟨link, s.roundAfter (.umbilical event)⟩) :
    Unalarmed ⟨link, s.roundAfter (.umbilical event)⟩ ∧
      (link.umbilical.phase = .synchronising ∨ link.umbilical.phase = .looping →
        Timed options ⟨link, s.roundAfter (.umbilical event)⟩) := by
  have hc := PingEcho.conserved_of_open hs hi.opened
  have hc' := PingEcho.conserved_of_open (hs.tail h)
  have hconfigured := ChildRun.configured_of_reachable (PingEcho.sentry_reachable hs)
  unfold PingEcho.next at h
  split_ifs at h with hp
  obtain ⟨umbilical, humbilical, hlink⟩ := Option.map_eq_some_iff.mp h
  obtain ⟨hready, rfl⟩ := UmbilicalRun.next_eq_some.mp humbilical
  have hstopped := hi.opened.1
  have hmonitor : link.umbilical.monitor = (event.reply lap s.link.umbilical.monitor).self := by
    rw [← hlink]
    rfl
  have hlimit := hi.lapsing.limit
  have hbound : s.link.umbilical.monitor.mUmbilical.mCycleCount <
      s.link.umbilical.monitor.mUmbilical.mCycleLimit := hu
  by_cases hread : ∃ read shutdown latched pollTime,
      event = .umbilical read shutdown latched pollTime
  · obtain ⟨read, shutdown, latched, pollTime, rfl⟩ := hread
    cases read with
    | byte value =>
      have hpings : value ≠ 0 ∧ 0 < s.link.pings := by
        simp only [PingEcho.Permits, hstopped] at hp
        split_ifs at hp with hvalue
        exact ⟨hvalue, hp⟩
      exact hi.of_ping hlap hu hc hpings.1 hpings.2 hlink.symm
    | eof | econnreset =>
      have hclosed : s.link.stopped = true := hp
      rw [hstopped] at hclosed
      cases hclosed
    | eintr =>
      refine ⟨?_, fun hactive => hi.of_unread hc rfl hlink.symm rfl hi.lapsing hc' hactive⟩
      unfold Unalarmed
      rw [hmonitor]
      exact hbound
    | failed =>
      refine ⟨?_, fun hactive => ?_⟩
      · unfold Unalarmed
        rw [hmonitor]
        exact hbound
      · rw [← hlink] at hactive
        rcases hactive with hsync | hloop
        · cases hsync
        · cases hloop
  · by_cases hfired : ∃ laps stopped shutdown pollTime,
        event = .timerUmbilical laps stopped shutdown pollTime
    · obtain ⟨laps, stopped, shutdown, pollTime, rfl⟩ := hfired
      have hfirst := (hsteady.brisk laps stopped shutdown pollTime rfl).first hi.fits hi.lapsing
        hbound ?_ hready.2.1.2
      · obtain ⟨hlapsing, hcount, hfds⟩ := hi.lapsing.firing hready.2 hfirst stopped shutdown
        refine ⟨?_, fun hactive => hi.of_unread hc rfl hlink.symm ?_ hlapsing hc' hactive⟩
        · unfold Unalarmed
          rw [hmonitor]
          exact hcount.trans_eq hlapsing.limit.symm
        · exact congrArg _ hfds
      · intro read echoed hresting
        have hfits := hi.fits
        rw [hresting] at hfits
        have hperiod := hconfigured.period hi.opened.2.1
        have hsince := hfits.2
        unfold due
        omega
    · have hread' : ∀ read shutdown latched pollTime,
          event ≠ .umbilical read shutdown latched pollTime :=
        fun read shutdown latched pollTime he => hread ⟨read, shutdown, latched, pollTime, he⟩
      have hsame := event.reply_sameTimer lap s.link.umbilical.monitor hread'
        fun laps stopped shutdown pollTime he => hfired ⟨laps, stopped, shutdown, pollTime, he⟩
      have hreads : event.reads = 0 := by
        unfold UmbilicalEvent.reads
        split
        · exact absurd rfl (hread' _ _ _ _)
        · rfl
      refine ⟨?_, fun hactive => hi.of_unread hc hreads hlink.symm hsame.entry
        (hi.lapsing.of_same hsame) hc' hactive⟩
      unfold Unalarmed
      rw [hmonitor, hsame.umbilical]
      exact hbound

theorem link_reachable (hs : (system lap options).Reachable s) :
    (PingEcho.system lap options).Reachable s.link := by
  refine System.Reachable.project link ?_ ?_ hs
  · rintro s ⟨link, hlink, rfl⟩
    exact hlink
  · intro s event t _ hstep
    obtain ⟨link, hlink, rfl⟩ := Option.map_eq_some_iff.mp hstep
    exact .inr ⟨event, hlink⟩

/-- What a steady run keeps. -/
structure Kept (options : ServerOptions) (s : RoundRun) : Prop where
  unalarmed : s.Unalarmed
  timed : s.link.umbilical.phase = .synchronising ∨ s.link.umbilical.phase = .looping →
    s.Timed options

theorem Start.kept (hs : Start lap options s) : s.Kept options := by
  obtain ⟨link, ⟨sentry, umbilical, ⟨childPid, umbilicalPid, tetherFd, umbilicalFd, parentFd, start,
    activity, rfl⟩, ⟨sentryPid, pidServer, start', -, rfl⟩, rfl⟩, rfl⟩ := hs
  have hopen : PingEcho.Open ⟨.enter lap options childPid umbilicalPid tetherFd umbilicalFd parentFd
      start activity, .enter options.mUmbilical_s sentryPid pidServer start', 0, 0, false⟩ :=
    ⟨rfl, rfl, rfl, .inl rfl⟩
  refine ⟨Nat.two_pos, fun _ => ⟨hopen, rfl, rfl, ⟨rfl, rfl, ?_⟩⟩⟩
  intro read hread
  cases hread

theorem Kept.step (hlap : lap.Exact) (hs : (system lap options).Reachable s)
    (hi : s.Kept options) {event : PingEchoEvent} {t : RoundRun} (h : s.next lap event = some t)
    (hsteady : s.Steady event t) : t.Kept options := by
  obtain ⟨link, hlink, rfl⟩ := Option.map_eq_some_iff.mp h
  have hreach := link_reachable hs
  cases event with
  | stop => exact absurd rfl hsteady.unstopped
  | sentry event =>
    have hkept : link.umbilical = s.link.umbilical := by
      unfold PingEcho.next at hlink
      split_ifs at hlink
      obtain ⟨sentry, -, rfl⟩ := Option.map_eq_some_iff.mp hlink
      rfl
    refine ⟨?_, fun hactive => ?_⟩
    · unfold Unalarmed
      rw [hkept]
      exact hi.unalarmed
    · rw [hkept] at hactive
      exact (hi.timed hactive).sentry hlap hreach hlink hsteady
  | umbilical event =>
    have hactive : s.link.umbilical.phase = .synchronising ∨
        s.link.umbilical.phase = .looping := by
      have hnext := hlink
      unfold PingEcho.next at hnext
      split_ifs at hnext
      obtain ⟨umbilical, humbilical, -⟩ := Option.map_eq_some_iff.mp hnext
      obtain ⟨hready, -⟩ := UmbilicalRun.next_eq_some.mp humbilical
      cases event with
      | umbilical => exact hready.1
      | eventPipe => exact .inr hready
      | pidServer | pidClient | timerUmbilical | completed => exact .inr hready.1
    obtain ⟨hunalarmed, htimed⟩ :=
      (hi.timed hactive).umbilical hlap hreach hi.unalarmed hlink hsteady
    exact ⟨hunalarmed, htimed⟩

/-- In a steady run the umbilical process never counts its periods to the limit. -/
theorem steady_unalarmed (hlap : lap.Exact) (options : ServerOptions) {s : RoundRun}
    (hs : Start lap options s) {run : List (PingEchoEvent × RoundRun)}
    (hr : (system lap options).IsRun s run) (hc : System.Throughout Steady s run) :
    System.Throughout (fun _ _ t => t.Unalarmed) s run :=
  System.IsRun.throughout_of_condition
    (fun _ _ _ hreach hi hstep hsteady =>
      ⟨(hi.step hlap hreach hstep hsteady).unalarmed, hi.step hlap hreach hstep hsteady⟩)
    (.of_init hs) hs.kept hr hc

/-- A firing half a period after the first ping, then a ping that is 3 s late. -/
def lateRun : List (PingEchoEvent × RoundRun) :=
  System.run (next .monotonic) ⟨⟨.enter .monotonic ⟨true, 30, 30, 30⟩ 2 3 4 5 none 0 0,
      .enter 30 1 none 0, 0, 0, false⟩, .unread⟩
    [.sentry (.timerUmbilical 1 .running .written 0), .umbilical (.umbilical (.byte 46) true true 0),
      .umbilical (.eventPipe false .written), .sentry (.umbilical (.byte 46) 1000000000),
      .umbilical (.timerUmbilical 1 false true 7500000000),
      .sentry (.timerUmbilical 1 .running .written 19000000000),
      .umbilical (.umbilical (.byte 46) true true 20000000000)]

theorem steady_unalarmed_late :
    System.Throughout (fun _ _ t => t.Unalarmed) ⟨⟨.enter .monotonic ⟨true, 30, 30, 30⟩ 2 3 4 5 none 0 0,
      .enter 30 1 none 0, 0, 0, false⟩, .unread⟩ lateRun := by
  refine steady_unalarmed LapTime.monotonic_exact ⟨true, 30, 30, 30⟩
    ⟨_, ⟨_, _, ⟨2, 3, 4, 5, none, 0, 0, rfl⟩, ⟨1, none, 0, nofun, rfl⟩, rfl⟩, rfl⟩
    (System.isRun_run _ _ _ _) ⟨?_, ?_, ?_, ?_, ?_, ?_, ?_, trivial⟩
  case refine_5 =>
    refine ⟨by decide, by decide, by simp, by simp, ?_⟩
    rintro _ _ _ _ ⟨⟩
    exact ⟨0, 16000000000, by decide, by decide⟩
  case refine_1 | refine_6 =>
    refine ⟨by decide, by decide, by simp, ?_, by simp⟩
    rintro _ _ _ _ ⟨⟩ _
    rfl
  all_goals exact ⟨by decide, by decide, by simp, by simp, by simp⟩

end RoundRun

end PidSentry
