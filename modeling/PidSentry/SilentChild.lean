import PidSentry.TetherTimeout

/-! A child that has fallen silent on its tether: how many more firings of the
tether timer it takes until its termination begins, and that this is final. -/

namespace PidSentry

/-- The child exists and goes on without being stopped, and no activity is
recorded. The child being continued is what restarts the timer. -/
structure ChildEvent.Silent (event : ChildEvent) : Prop where
  unrecorded : ∀ time, event ≠ .tetherActivity time
  uncontinued : ∀ flushed pollTime, event ≠ .reapChild true flushed pollTime
  counted : ∀ laps state pollTime, event = .timerTether laps state pollTime → state.counted

def ChildEvent.firesTether : ChildEvent → Bool
  | timerTether .. => true
  | _ => false

/-- The termination timer moves on within its plan, and leaves an entry of it. -/
theorem ChildMonitor.pollFdTimerTermination_plan (self : ChildMonitor) {plan : List ChildSignalPlan}
    (hplan : self.mTermination.mSignalPlan = some plan) (hne : plan ≠ []) (killed : Bool) :
    (∃ rest, (self.pollFdTimerTermination killed).self.mTermination.mSignalPlan = some rest ∧
      rest ≠ [] ∧ rest <:+ plan) ∧
    (self.pollFdTimerTermination killed).self.mChildPid = self.mChildPid ∧
    (self.pollFdTimerTermination killed).self.mTimers = self.mTimers := by
  unfold pollFdTimerTermination
  rw [hplan]
  rcases plan with _ | ⟨first, _ | ⟨next, rest⟩⟩
  · exact absurd rfl hne
  · exact ⟨⟨[first], hplan, hne, List.suffix_rfl⟩, rfl, rfl⟩
  · by_cases hnext : next.mSig ≠ 0
    · simp only [if_pos hnext]
      refine ⟨⟨next :: rest, ?_, List.cons_ne_nil _ _, List.suffix_cons first _⟩, ?_, ?_⟩ <;>
        split_ifs <;> rfl
    · simp only [if_neg hnext]
      refine ⟨⟨first :: next :: rest, ?_, hne, List.suffix_rfl⟩, ?_, ?_⟩ <;> split_ifs <;>
        first | exact hplan | rfl

open ChildMonitor

namespace ChildRun

/-- A termination plan is active: the plan for the cause, from some entry on,
its timer on, and the tether timer off. -/
structure Terminating (cause : TerminationCause) (s : ChildRun) : Prop where
  hcause : s.cause = some cause
  plan : ∃ plan, s.monitor.mTermination.mSignalPlan = some plan ∧ plan ≠ [] ∧
    plan <:+ s.monitor.mSignalPlans cause.action
  timer : s.monitor.mTimers.termination.mPeriod ≠ 0
  tether : s.monitor.mTimers.tether.mPeriod = 0

theorem Terminating.of_ignored {lap : LapTime} {cause : TerminationCause} {s : ChildRun}
    {event : ChildEvent} (hi : s.Terminating cause)
    (h : s.monitor.Ignores (event.reply lap s.monitor s.activity)) :
    (s.after lap event).Terminating cause := by
  obtain ⟨plan, hplan, hne, hsuffix⟩ := hi.plan
  obtain ⟨⟨hpid, hterm, htimer, htether⟩, -⟩ := h
  have hchild : (s.after lap event).monitor.mChildPid = s.monitor.mChildPid := hpid
  refine ⟨?_, ⟨plan, (congrArg _ hterm).trans hplan, hne, ?_⟩, ?_, htether.trans hi.tether⟩
  · simp only [after, hplan, reduceCtorEq, false_and, if_false, hi.hcause]
  · rw [mSignalPlans_action] at hsuffix ⊢
    rwa [hchild]
  · exact fun hz => hi.timer ((congrArg _ htimer).symm.trans hz)

/-- Nothing undoes the termination of the child: other causes find it under way,
and its own timer moves on within the plan. -/
theorem Terminating.step {lap : LapTime} {cause : TerminationCause} {s t : ChildRun}
    {event : ChildEvent} (hi : s.Terminating cause) (h : s.next lap event = some t) :
    t.Terminating cause := by
  obtain ⟨-, rfl⟩ := next_eq_some.mp h
  by_cases hevent : ∃ laps killed pollTime, event = .timerTermination laps killed pollTime
  · obtain ⟨laps, killed, pollTime, rfl⟩ := hevent
    obtain ⟨plan, hplan, hne, hsuffix⟩ := hi.plan
    obtain ⟨⟨rest, hrest, hleft, hwithin⟩, hpid, htimers⟩ := pollFdTimerTermination_plan
      { s.monitor with mTimers.termination := s.monitor.mTimers.termination.lap laps }
      hplan hne killed
    have hchild : (s.after lap (.timerTermination laps killed pollTime)).monitor.mChildPid =
        s.monitor.mChildPid := hpid
    have htimer : (s.after lap (.timerTermination laps killed pollTime)).monitor.mTimers =
        { s.monitor.mTimers with termination := s.monitor.mTimers.termination.lap laps } := htimers
    refine ⟨?_, ⟨rest, hrest, hleft, hwithin.trans ?_⟩, ?_, ?_⟩
    · simp only [after, hplan, reduceCtorEq, false_and, if_false, hi.hcause]
    · rw [mSignalPlans_action] at hsuffix ⊢
      rwa [hchild]
    · rw [htimer]
      exact hi.timer
    · rw [htimer]
      exact hi.tether
  · rcases event.reply_termination lap s.monitor s.activity
      (fun laps killed pollTime he => hevent ⟨laps, killed, pollTime, he⟩) with h | ⟨cause', -, h⟩
    · exact hi.of_ignored h
    · exact hi.of_ignored (h.ignores hi.timer hi.tether)

/-- The tether timer runs, and nothing has activated termination. -/
structure Watching (s : ChildRun) : Prop where
  limit : s.monitor.mTether.mCycleLimit = timeoutCycles
  timer : s.monitor.mTimers.tether.mPeriod ≠ 0
  plan : s.monitor.mTermination.mSignalPlan = none
  idle : s.monitor.mTimers.termination.mPeriod = 0
  signal : s.monitor.mTermination.mSignalPeriod ≠ 0

theorem watching_of_reachable {lap : LapTime} {options : ServerOptions}
    (hsignal : 0 < options.mSignal_s) {s : ChildRun} (hs : (system lap options).Reachable s)
    (htimer : s.monitor.mTimers.tether.mPeriod ≠ 0) : s.Watching := by
  have hi := tetherCounts_of_reachable hs
  obtain ⟨-, -, hplan, hidle, -⟩ := hi.idle htimer
  refine ⟨hi.limit, htimer, hplan, hidle, ?_⟩
  rw [signalPeriod_of_reachable hs]
  unfold nsecs
  omega

theorem Watching.terminating {lap : LapTime} {s : ChildRun} {event : ChildEvent}
    {cause : TerminationCause} (hi : s.Watching) (hevent : event.cause = some cause)
    (h : s.monitor.Activates lap cause (event.reply lap s.monitor s.activity)) :
    (s.after lap event).Terminating cause := by
  obtain ⟨other, pollTime, hs, he⟩ := h
  rw [activateFdTimerTermination_idle lap cause.action pollTime
    (by rw [hs.timer, hi.idle]) (by rw [hs.termination, hi.plan])] at he
  refine ⟨?_, ⟨other.mSignalPlans cause.action, ?_, ?_, ?_⟩, ?_, ?_⟩
  · simp only [after, he, Outcome.ok_self, hi.plan, hevent, ne_eq, reduceCtorEq, not_false_eq_true,
      and_self, if_true]
  · simp only [after, he, Outcome.ok_self]
  · rw [mSignalPlans_action]
    exact List.cons_ne_nil _ _
  · simp only [after, he, Outcome.ok_self, mSignalPlans_action]
    exact List.suffix_rfl
  · simp only [after, he, Outcome.ok_self, hs.termination]
    exact hi.signal
  · simp only [after, he, Outcome.ok_self]

theorem Watching.of_ignored {lap : LapTime} {s : ChildRun} {event : ChildEvent} (hi : s.Watching)
    (h : s.monitor.Ignores (event.reply lap s.monitor s.activity))
    (hlimit : (event.reply lap s.monitor s.activity).self.mTether.mCycleLimit =
      s.monitor.mTether.mCycleLimit) : (s.after lap event).Watching := by
  obtain ⟨⟨-, hterm, htimer, htether⟩, -⟩ := h
  refine ⟨hlimit.trans hi.limit, ?_, (congrArg _ hterm).trans hi.plan,
    (congrArg _ htimer).trans hi.idle, ?_⟩
  · exact fun hz => hi.timer (htether.symm.trans hz)
  · exact fun hz => hi.signal ((congrArg _ hterm).symm.trans hz)

end ChildRun

/-- A run with its clock: the poll times do not go back. -/
structure ClockedRun where
  child : ChildRun
  now : Int
  deriving DecidableEq, Repr

namespace ClockedRun

def next (lap : LapTime) (s : ClockedRun) (event : ChildEvent) : Option ClockedRun :=
  if s.now ≤ event.pollTime.getD s.now then
    (s.child.next lap event).map fun child => ⟨child, event.pollTime.getD s.now⟩
  else none

def Start (lap : LapTime) (options : ServerOptions) (s : ClockedRun) : Prop :=
  ChildRun.Start lap options s.child

def system (lap : LapTime) (options : ServerOptions) : System ClockedRun ChildEvent :=
  .ofNext (Start lap options) (next lap)

theorem next_eq_some {lap : LapTime} {s t : ClockedRun} {event : ChildEvent} :
    s.next lap event = some t ↔ s.now ≤ t.now ∧ t.now = event.pollTime.getD s.now ∧
      s.child.next lap event = some t.child := by
  obtain ⟨child, now⟩ := t
  unfold next
  constructor
  · intro h
    split_ifs at h with hnow
    obtain ⟨child', hchild, he⟩ := Option.map_eq_some_iff.mp h
    cases he
    exact ⟨hnow, rfl, hchild⟩
  · rintro ⟨hnow, rfl, hchild⟩
    simp [hnow, hchild]

/-- From here on a firing finds the last activity a period old: the clock is past
that already, or the period that is running began no earlier. -/
def Aged (s : ClockedRun) : Prop :=
  s.child.activity + s.child.monitor.mTimers.tether.mPeriod ≤ s.now ∨
    s.child.activity ≤ s.child.monitor.mTimers.tether.mSince

/-- No more than `n` firings are left: one to align the timer with the last
activity, unless that has aged, and one for each period not yet counted. -/
structure Left (n : Nat) (s : ClockedRun) : Prop where
  watching : s.child.Watching
  count : timeoutCycles + 1 ≤ n ∨
    s.Aged ∧ timeoutCycles ≤ s.child.monitor.mTether.mCycleCount + n

def Begins (s : ClockedRun) (event : ChildEvent) (t : ClockedRun) : Prop :=
  s.child.monitor.mTermination.mSignalPlan = none ∧
    ∃ cause, event.cause = some cause ∧ t.child.Terminating cause

/-- A firing at which the child is counted aligns the timer with a later activity,
counts one period more, or begins termination. -/
theorem firing_cases {lap : LapTime} (hlap : lap.Lawful) {s t : ClockedRun} {laps : Nat}
    {state : ChildProcessState} {pollTime : Int} (hi : s.child.Watching)
    (h : s.next lap (.timerTether laps state pollTime) = some t) (hcounted : state.counted) :
    s.Begins (.timerTether laps state pollTime) t ∨ t.child.Watching ∧
      (¬ s.Aged ∧ t.child.activity ≤ t.child.monitor.mTimers.tether.mSince ∨
        t.child.activity + t.child.monitor.mTimers.tether.mPeriod ≤ t.now ∧
          t.child.monitor.mTether.mCycleCount = s.child.monitor.mTether.mCycleCount + 1 ∧
          t.child.monitor.mTether.mCycleCount < timeoutCycles) := by
  obtain ⟨hnow, hclock, hchild⟩ := next_eq_some.mp h
  obtain ⟨⟨-, hready⟩, hafter⟩ := ChildRun.next_eq_some.mp hchild
  have hpoll : t.now = pollTime := hclock
  have hactivity : t.child.activity = s.child.activity := by rw [← hafter]; rfl
  have hdue := hready.1.2
  have hlimit := hi.limit
  have hreply : (ChildEvent.timerTether laps state pollTime).reply lap s.child.monitor
      s.child.activity = _ :=
    pollFdTimerTether_counted lap
      { s.child.monitor with mTimers.tether := s.child.monitor.mTimers.tether.lap laps } pollTime
      hcounted s.child.activity
  simp only [PollFdTimerAction.lap_mPeriod] at hreply
  have hmonitor : t.child.monitor = ((ChildEvent.timerTether laps state pollTime).reply lap
      s.child.monitor s.child.activity).self := by
    rw [← hafter]
    rfl
  rw [hreply] at hmonitor
  by_cases hnew : pollTime < s.child.activity + s.child.monitor.mTimers.tether.mPeriod
  · rw [if_pos hnew] at hreply hmonitor
    have hwatching : t.child.Watching := hafter ▸ hi.of_ignored
      (by rw [hreply]; exact ⟨⟨rfl, rfl, rfl, rfl⟩, rfl⟩) (by rw [hreply]; rfl)
    refine .inr ⟨hwatching, .inl ⟨?_, ?_⟩⟩
    · unfold Aged
      omega
    · rw [hactivity, hmonitor]
      exact Int.le_of_eq (hlap.restart_eq _ _).symm
  by_cases hlast : s.child.monitor.mTether.mCycleCount + 1 < s.child.monitor.mTether.mCycleLimit
  · rw [if_neg hnew, if_pos hlast] at hreply hmonitor
    have hwatching : t.child.Watching := hafter ▸ hi.of_ignored
      (by rw [hreply]; exact ⟨⟨rfl, rfl, rfl, rfl⟩, rfl⟩) (by rw [hreply]; rfl)
    refine .inr ⟨hwatching, .inr ?_⟩
    rw [hactivity, hmonitor, hpoll, ← hlimit]
    exact ⟨Int.not_lt.mp hnew, rfl, hlast⟩
  · rw [if_neg hnew, if_neg hlast] at hreply
    refine .inl ⟨hi.plan, .tether, rfl, hafter ▸ hi.terminating rfl ?_⟩
    rw [hreply]
    exact (activateFdTimerTermination_activates lap _ .tether pollTime).of_same
      ⟨rfl, rfl, rfl, rfl⟩

theorem Left.firing {lap : LapTime} (hlap : lap.Lawful) {n : Nat} {s t : ClockedRun} {laps : Nat}
    {state : ChildProcessState} {pollTime : Int} (hi : s.Left (n + 1))
    (h : s.next lap (.timerTether laps state pollTime) = some t) (hcounted : state.counted) :
    s.Begins (.timerTether laps state pollTime) t ∨ n ≠ 0 ∧ t.Left n := by
  have hcount := hi.count
  rcases firing_cases hlap hi.watching h hcounted with
    hbegun | ⟨hwatching, ⟨hfresh, hsince⟩ | ⟨haged, hcycles, hlast⟩⟩
  · exact .inl hbegun
  · -- the timer is aligned with the last activity, which cannot happen again
    have hlong := hcount.resolve_right fun h => hfresh h.1
    have hpos : 0 < timeoutCycles := by decide
    exact .inr ⟨by omega, hwatching, .inr ⟨.inr hsince, by omega⟩⟩
  · exact .inr ⟨by omega, hwatching, .inr ⟨.inl haged, by omega⟩⟩

theorem Left.quiet {lap : LapTime} {n : Nat} {s t : ClockedRun} {event : ChildEvent}
    (hi : s.Left n) (h : s.next lap event = some t) (hsilent : event.Silent)
    (htimer : ∀ laps state pollTime, event ≠ .timerTether laps state pollTime) :
    s.Begins event t ∨ t.Left n := by
  obtain ⟨hnow, -, hchild⟩ := next_eq_some.mp h
  obtain ⟨⟨-, hready⟩, hafter⟩ := ChildRun.next_eq_some.mp hchild
  have hsame := event.reply_sameTether lap s.child.monitor s.child.activity htimer
    hsilent.uncontinued
  have hne : ∀ laps killed pollTime, event ≠ .timerTermination laps killed pollTime := by
    rintro laps killed pollTime rfl
    exact hready.1.1 hi.watching.idle
  rcases event.reply_termination lap s.child.monitor s.child.activity hne with h | ⟨cause, hcause, h⟩
  · have hactivity : t.child.activity = s.child.activity := by
      rw [← hafter]
      cases event with
      | tetherActivity time => exact absurd rfl (hsilent.unrecorded time)
      | _ => rfl
    have hcycles : t.child.monitor.mTether = s.child.monitor.mTether := hafter ▸ hsame.cycles
    have hsince : t.child.monitor.mTimers.tether.mSince = s.child.monitor.mTimers.tether.mSince :=
      hafter ▸ hsame.since
    have hperiod : t.child.monitor.mTimers.tether.mPeriod = s.child.monitor.mTimers.tether.mPeriod :=
      hafter ▸ h.1.tether
    refine .inr ⟨hafter ▸ hi.watching.of_ignored h (congrArg _ hsame.cycles), hi.count.imp id ?_⟩
    rintro ⟨haged, hcount⟩
    refine ⟨?_, hcycles ▸ hcount⟩
    unfold Aged at haged ⊢
    rw [hactivity, hsince, hperiod]
    omega
  · exact .inl ⟨hi.watching.plan, cause, hcause, hafter ▸ hi.watching.terminating hcause h⟩

theorem Left.step {lap : LapTime} (hlap : lap.Lawful) {n : Nat} {s t : ClockedRun}
    {event : ChildEvent} (hi : s.Left (n + 1)) (h : s.next lap event = some t)
    (hsilent : event.Silent) :
    s.Begins event t ∨ if event.firesTether then n ≠ 0 ∧ t.Left n else t.Left (n + 1) := by
  by_cases htimer : ∃ laps state pollTime, event = .timerTether laps state pollTime
  · obtain ⟨laps, state, pollTime, rfl⟩ := htimer
    exact hi.firing hlap h (hsilent.counted laps state pollTime rfl)
  · have hquiet := hi.quiet h hsilent fun laps state pollTime he =>
      htimer ⟨laps, state, pollTime, he⟩
    have hfires : event.firesTether = false := by
      cases event with
      | timerTether laps state pollTime => exact absurd ⟨laps, state, pollTime, rfl⟩ htimer
      | _ => rfl
    rwa [hfires, if_neg Bool.false_ne_true]

/-- In the run, at the latest with the given firing of the tether timer, the plan
for some cause is activated, and it is active in whatever comes later. -/
def TerminatesBy (lap : LapTime) (options : ServerOptions) (firing : Nat) (s : ClockedRun)
    (run : List (ChildEvent × ClockedRun)) : Prop :=
  ∃ pre event t post, run = pre ++ (event, t) :: post ∧
    (pre.countP fun step => step.1.firesTether) < firing ∧
    (System.last s pre).child.monitor.mTermination.mSignalPlan = none ∧
    ∃ cause, event.cause = some cause ∧ ∀ later, (system lap options).IsRun t later →
      (System.last t later).child.Terminating cause

/-- From any state in which the tether timer runs, while the child is silent,
termination begins by the third firing, and nothing that happens later ends it;
until then the tether timer runs. -/
theorem silent_terminates {lap : LapTime} (hlap : lap.Lawful) (options : ServerOptions)
    {s : ClockedRun} (hs : s.child.Watching) {run : List (ChildEvent × ClockedRun)}
    (hr : (system lap options).IsRun s run)
    (hsilent : System.Throughout (fun _ event _ => event.Silent) s run) :
    TerminatesBy lap options 3 s run ∨
      (run.countP fun step => step.1.firesTether) < 3 ∧ (System.last s run).child.Watching := by
  have hleft : s.Left (2 + 1) := ⟨hs, .inl (Nat.le_refl _)⟩
  have hcountdown := hr.countdown (k := ChildEvent.firesTether) (C := fun _ event _ => event.Silent)
    (Q := Begins) (fun n s event t hi hstep hsilent => hi.step hlap hstep hsilent) hleft hsilent
  rcases hcountdown with ⟨pre, event, t, post, rfl, ⟨hplan, cause, hcause, hbegun⟩, hpre⟩ |
    ⟨left, hcount, hi⟩
  · refine .inl ⟨pre, event, t, post, rfl, Nat.lt_succ_of_le hpre, hplan, cause, hcause, ?_⟩
    intro later hlater
    exact hlater.last_of_step (I := fun s => s.child.Terminating cause)
      (fun _ _ _ hi hstep => hi.step (next_eq_some.mp hstep).2.2) hbegun
  · exact .inr ⟨by omega, hi.watching⟩

/-- Activity has gone on for five seconds, of which the first firing takes notice. -/
theorem silent_terminates_aligned :
    ∃ s run, (run : List (ChildEvent × ClockedRun)).length = 3 ∧
      TerminatesBy .monotonic ⟨true, 30, 30, 30⟩ 3 s run := by
  let s : ClockedRun := ⟨.enter .monotonic ⟨true, 30, 30, 30⟩ 2 3 4 5 none 0 5000000000, 0⟩
  let run := System.run (next .monotonic) s [.timerTether 1 .running 15000000000,
    .timerTether 1 .running 20000000000, .timerTether 1 .running 35000000000]
  have hreach : (ChildRun.system .monotonic ⟨true, 30, 30, 30⟩).Reachable s.child :=
    .of_init ⟨2, 3, 4, 5, none, 0, 5000000000, rfl⟩
  have hs : s.child.Watching := ChildRun.watching_of_reachable (by decide) hreach (by decide)
  have hsilent : ∀ pollTime, (ChildEvent.timerTether 1 .running pollTime).Silent := fun _ =>
    ⟨nofun, nofun, fun _ _ _ he => by cases he; exact ⟨by decide, by decide, by decide⟩⟩
  have hrun := silent_terminates LapTime.monotonic_lawful ⟨true, 30, 30, 30⟩ hs
    (System.isRun_run _ _ _ _ : (system .monotonic ⟨true, 30, 30, 30⟩).IsRun s run)
    (System.throughout_run (by simp [hsilent]))
  exact ⟨s, run, by decide, hrun.resolve_right fun h => absurd h.1 (by decide)⟩

end ClockedRun

end PidSentry
