import PidSentry.SentryUmbilical

/-! Continuation of the sentry: what SIGCONT asks of the umbilical timer, and when
the callbacks do as it asks. -/

namespace PidSentry

open ChildMonitor

/-- A run of the sentry's loop, with whether SIGCONT has been processed since the
ping that awaits its echo was written. -/
structure ContinuedRun where
  child : ChildRun
  continued : Bool
  deriving DecidableEq, Repr

namespace ContinuedRun

def Open (s : ContinuedRun) : Prop := s.child.monitor.mPollFds.umbilical.armed

instance (s : ContinuedRun) : Decidable s.Open := inferInstanceAs (Decidable (_ = _))

def continues : ChildEvent → Bool
  | .cont _ => true
  | _ => false

def after (s : ContinuedRun) (event : ChildEvent) (child : ChildRun) : ContinuedRun where
  child := child
  continued := child.monitor.Awaits && (s.continued || continues event)

def next (lap : LapTime) (s : ContinuedRun) (event : ChildEvent) : Option ContinuedRun :=
  (s.child.next lap event).map (s.after event)

def Start (lap : LapTime) (options : ServerOptions) (s : ContinuedRun) : Prop :=
  ∃ child, ChildRun.Start lap options child ∧ s = ⟨child, false⟩

def system (lap : LapTime) (options : ServerOptions) : System ContinuedRun ChildEvent :=
  .ofNext (Start lap options) (next lap)

/-- SIGCONT counts no period and forces none to be counted. With no ping out, it
lets the next timer pass write one; with one out, the echo does, as soon as it
is read. -/
structure Prompt (s : ContinuedRun) (event : ChildEvent) (t : ContinuedRun) : Prop where
  count : ∀ pollTime, event = .cont pollTime →
    t.child.monitor.mUmbilical.mCycleCount = s.child.monitor.mUmbilical.mCycleCount
  idle : ∀ pollTime, event = .cont pollTime → ¬ s.child.monitor.Awaits →
    t.child.monitor.PingsAt pollTime
  unforced : ∀ pollTime, event = .cont pollTime → s.child.monitor.Awaits →
    t.child.monitor.mTimers.umbilical.Due pollTime → s.child.monitor.mTimers.umbilical.Due pollTime
  echoed : ∀ value pollTime, event = .umbilical (.byte value) pollTime → s.continued →
    t.child.monitor.PingsAt pollTime

def ContinuesPromptly (s : ContinuedRun) (event : ChildEvent) (t : ContinuedRun) : Prop :=
  s.Open → s.Prompt event t

/-- SIGCONT finds the timer due already, and an echo read after one finds that
`mPreempt` was set by an earlier one. -/
def ContinuesDue (s : ContinuedRun) : ChildEvent → Prop
  | .cont pollTime => s.child.monitor.mTimers.umbilical.Due pollTime
  | .umbilical (.byte _) _ => s.continued → s.child.monitor.mUmbilical.mPreempt
  | _ => True

instance (s : ContinuedRun) : (event : ChildEvent) → Decidable (s.ContinuesDue event)
  | .cont pollTime =>
    inferInstanceAs (Decidable (s.child.monitor.mTimers.umbilical.Due pollTime))
  | .umbilical (.byte _) _ =>
    inferInstanceAs (Decidable (s.continued → s.child.monitor.mUmbilical.mPreempt))
  | .umbilical .eof _ | .umbilical .eintr _ | .umbilical .econnreset _ | .umbilical .failed _
  | .tetherActivity _ | .tether | .parent _ | .reapChild .. | .reapUmbilical .. | .timerTether ..
  | .timerUmbilical .. | .timerTermination .. | .timerChild .. => .isTrue trivial

/-- While the umbilical is open the count keeps within its limit, and a ping that
is out has been written by the timer. -/
structure Timed (s : ContinuedRun) : Prop where
  bound : s.child.monitor.mUmbilical.mCycleCount ≤ s.child.monitor.mUmbilical.mCycleLimit
  period : s.Open → s.child.monitor.Awaits → s.child.monitor.mTimers.umbilical.mPeriod ≠ 0
  continued : s.continued → s.child.monitor.Awaits

theorem next_eq_some {lap : LapTime} {s t : ContinuedRun} {event : ChildEvent} :
    s.next lap event = some t ↔ (s.child.rc = .ok ∧ event.Ready s.child.monitor) ∧
      s.after event (s.child.after lap event) = t := by
  simp only [next, Option.map_eq_some_iff, ChildRun.next_eq_some]
  constructor
  · rintro ⟨child, ⟨hready, rfl⟩, rfl⟩
    exact ⟨hready, rfl⟩
  · rintro ⟨hready, rfl⟩
    exact ⟨_, ⟨hready, rfl⟩, rfl⟩

/-- A ping comes to be awaited only as the timer fires. -/
theorem awaits_of_unfired {lap : LapTime} {m : ChildMonitor} {activity : Int} {event : ChildEvent}
    (hfired : ∀ laps state write pollTime, event ≠ .timerUmbilical laps state write pollTime)
    (h : (event.reply lap m activity).self.Awaits) : m.Awaits := by
  cases hof : event.ofUmbilical with
  | false =>
    have hsame := (event.reply_sameUmbilical lap m activity hof).1.umbilical
    rwa [ChildMonitor.Awaits, hsame] at h
  | true =>
    cases event with
    | timerUmbilical laps state write pollTime => exact absurd rfl (hfired _ _ _ _)
    | umbilical read pollTime =>
      simp only [ChildEvent.reply, pollFdUmbilical] at h
      split_ifs at h
      · cases read with
        | byte value =>
          simp only [pollFdEcho] at h
          split_ifs at h
          · exact absurd h (Nat.lt_irrefl _)
          · exact absurd h (Nat.lt_irrefl _)
          · exact h
        | eof | econnreset => simpa [ChildMonitor.Awaits] using h
        | eintr | failed => exact h
      · exact h
    | reapUmbilical enabled pollTime =>
      simp only [ChildEvent.reply, pollFdReapUmbilicalEvent, restartFdTimerUmbilical] at h
      split_ifs at h with _ _ hlt
      · exact hlt
      all_goals exact h
    | cont pollTime =>
      simp only [ChildEvent.reply, pollFdContUmbilical] at h
      split_ifs at h <;> exact h
    | _ => cases hof

theorem Timed.step {lap : LapTime} {s t : ContinuedRun} {event : ChildEvent} (hi : s.Timed)
    (h : s.next lap event = some t) : t.Timed := by
  obtain ⟨⟨-, hready⟩, rfl⟩ := next_eq_some.mp h
  have hb := event.reply_bound lap s.child.activity hi.bound
  refine ⟨?_, fun hopen hawaits => ?_, fun hc => ?_⟩
  · have hle := hb.2
    rw [← hb.1] at hle
    exact hle
  · have ho := event.reply_open lap s.child.activity hopen
    have hperiod : s.child.monitor.mTimers.umbilical.mPeriod ≠ 0 := by
      by_cases hfired : ∃ laps state write pollTime, event = .timerUmbilical laps state write pollTime
      · obtain ⟨laps, state, write, pollTime, rfl⟩ := hfired
        exact hready.1.1
      · have hbefore := awaits_of_unfired
          (fun laps state write pollTime he => hfired ⟨laps, state, write, pollTime, he⟩) hawaits
        exact hi.period ho.entry hbefore
    intro hzero
    exact hperiod (ho.period ▸ hzero)
  · have hand := (Bool.and_eq_true _ _).mp hc
    exact of_decide_eq_true hand.1

theorem timed_of_reachable {lap : LapTime} {options : ServerOptions} {s : ContinuedRun}
    (hs : (system lap options).Reachable s) : s.Timed := by
  refine System.Reachable.invariant (P := Timed) ?_ (fun _ _ _ _ hi hstep => hi.step hstep) hs
  rintro s ⟨child, ⟨childPid, umbilicalPid, tetherFd, umbilicalFd, parentFd, start, activity, rfl⟩,
    rfl⟩
  exact ⟨Nat.le_refl _, fun _ h => absurd h (Nat.lt_irrefl _), fun h => Bool.noConfusion h⟩

theorem due_trigger {lap : LapTime} (hlap : lap.Lawful) (since : Int) {period : Nat}
    (h : period ≠ 0) (pollTime : Int) :
    (⟨lap.trigger since period pollTime, period⟩ : PollFdTimerAction).Due pollTime :=
  ⟨h, hlap.trigger_due since period pollTime⟩

theorem prompt_cont_iff {lap : LapTime} (hlap : lap.Lawful) {s : ContinuedRun} (hi : s.Timed)
    (ho : s.Open) (pollTime : Int) :
    s.Prompt (.cont pollTime) (s.after (.cont pollTime) (s.child.after lap (.cont pollTime))) ↔
      s.child.monitor.mTimers.umbilical.Due pollTime := by
  by_cases hawaits : s.child.monitor.Awaits
  · have hne : s.child.monitor.mUmbilical.mCycleCount ≠ s.child.monitor.mUmbilical.mCycleLimit :=
      Nat.ne_of_lt hawaits
    have hreply : ((ChildEvent.cont pollTime).reply lap s.child.monitor s.child.activity).self =
        { s.child.monitor with
          mTimers.umbilical.mSince := lap.trigger s.child.monitor.mTimers.umbilical.mSince
            s.child.monitor.mTimers.umbilical.mPeriod pollTime } := by
      simp [ChildEvent.reply, pollFdContUmbilical, hne]
    constructor
    · intro h
      refine h.unforced pollTime rfl hawaits ?_
      simp only [after, ChildRun.after, hreply]
      exact due_trigger hlap _ (hi.period ho hawaits) pollTime
    · intro hdue
      refine ⟨fun _ _ => ?_, fun _ _ hidle => absurd hawaits hidle, fun _ he _ _ => ?_, ?_⟩
      · simp only [after, ChildRun.after, hreply]
      · cases he
        exact hdue
      · intro value _ he
        cases he
  · have he : s.child.monitor.mUmbilical.mCycleCount = s.child.monitor.mUmbilical.mCycleLimit :=
      Nat.le_antisymm hi.bound (Nat.le_of_not_lt hawaits)
    have hreply : ((ChildEvent.cont pollTime).reply lap s.child.monitor s.child.activity).self =
        { s.child.monitor with mUmbilical.mPreempt := true } := by
      simp [ChildEvent.reply, pollFdContUmbilical, he]
    constructor
    · intro h
      have hpings := (h.idle pollTime rfl hawaits).2
      simp only [after, ChildRun.after, hreply] at hpings
      exact hpings
    · intro hdue
      refine ⟨fun _ _ => ?_, fun _ hp _ => ?_, fun _ _ ha => absurd ha hawaits, ?_⟩
      · simp only [after, ChildRun.after, hreply]
      · cases hp
        simp only [after, ChildRun.after, hreply]
        exact ⟨he, hdue⟩
      · intro value _ he
        cases he

theorem prompt_echo_iff {lap : LapTime} (hlap : lap.Lawful) {s : ContinuedRun} (hi : s.Timed)
    (ho : s.Open) (value : UInt8) (pollTime : Int) :
    s.Prompt (.umbilical (.byte value) pollTime) (s.after (.umbilical (.byte value) pollTime)
        (s.child.after lap (.umbilical (.byte value) pollTime))) ↔
      (s.continued → s.child.monitor.mUmbilical.mPreempt) := by
  have hreply : ((ChildEvent.umbilical (.byte value) pollTime).reply lap s.child.monitor
      s.child.activity) = s.child.monitor.pollFdEcho lap pollTime := by
    have harmed : s.child.monitor.mPollFds.umbilical.armed := ho
    simp [ChildEvent.reply, pollFdUmbilical, harmed]
  constructor
  · intro h hc
    have hpings := (h.echoed value pollTime rfl hc).2
    have hlt : s.child.monitor.mUmbilical.mCycleCount < s.child.monitor.mUmbilical.mCycleLimit :=
      hi.continued hc
    have hperiod := hi.period ho (hi.continued hc)
    by_contra hpreempt
    have hfalse := Bool.eq_false_iff.mpr hpreempt
    simp only [after, ChildRun.after, hreply, pollFdEcho, hlt, hfalse, if_true, Outcome.ok_self,
      hlap.restart_eq] at hpings
    have hdue := hpings.2
    dsimp only at hdue
    omega
  · intro hpreempt
    refine ⟨?_, ?_, ?_, fun _ _ he hc => ?_⟩
    · intro _ he
      cases he
    · intro _ he
      cases he
    · intro _ he
      cases he
    · cases he
      have hlt : s.child.monitor.mUmbilical.mCycleCount < s.child.monitor.mUmbilical.mCycleLimit :=
        hi.continued hc
      have hset := hpreempt hc
      simp only [after, ChildRun.after, hreply, pollFdEcho, hlt, hset, if_true, if_false,
        Bool.true_eq_false]
      exact ⟨rfl, due_trigger hlap _ (hi.period ho (hi.continued hc)) pollTime⟩

theorem continuesPromptly_iff {lap : LapTime} (hlap : lap.Lawful) {s t : ContinuedRun}
    {event : ChildEvent} (hi : s.Timed) (h : s.next lap event = some t) :
    s.ContinuesPromptly event t ↔ (s.Open → s.ContinuesDue event) := by
  obtain ⟨-, rfl⟩ := next_eq_some.mp h
  refine forall_congr' fun ho => ?_
  by_cases hcont : ∃ pollTime, event = .cont pollTime
  · obtain ⟨pollTime, rfl⟩ := hcont
    exact prompt_cont_iff hlap hi ho pollTime
  · by_cases hecho : ∃ value pollTime, event = .umbilical (.byte value) pollTime
    · obtain ⟨value, pollTime, rfl⟩ := hecho
      exact prompt_echo_iff hlap hi ho value pollTime
    · have hdue : s.ContinuesDue event := by
        unfold ContinuesDue
        split
        · exact absurd ⟨_, rfl⟩ hcont
        · exact absurd ⟨_, _, rfl⟩ hecho
        · trivial
      refine iff_of_true ⟨?_, ?_, ?_, ?_⟩ hdue
      · exact fun pollTime he => absurd ⟨pollTime, he⟩ hcont
      · exact fun pollTime he => absurd ⟨pollTime, he⟩ hcont
      · exact fun pollTime he => absurd ⟨pollTime, he⟩ hcont
      · exact fun value pollTime he => absurd ⟨value, pollTime, he⟩ hecho

/-- A run continues promptly exactly when, while the umbilical is open, SIGCONT
finds the timer due and the echo of a ping that it overtook finds `mPreempt`
set already. -/
theorem continues_promptly_iff {lap : LapTime} (hlap : lap.Lawful) (options : ServerOptions)
    {s : ContinuedRun} (hs : Start lap options s) {run : List (ChildEvent × ContinuedRun)}
    (hr : (system lap options).IsRun s run) :
    System.Throughout ContinuesPromptly s run ↔
      System.Throughout (fun s event _ => s.Open → s.ContinuesDue event) s run :=
  System.IsRun.throughout_iff
    (fun _ _ _ hs hstep => continuesPromptly_iff hlap (timed_of_reachable hs) hstep)
    (.of_init hs) hr

/-- The first ping has been answered when SIGCONT comes a second later: the next
one still waits for its period. -/
theorem continues_late :
    ¬ ∀ lap : LapTime, lap.Lawful → ∀ options : ServerOptions, 0 < options.mUmbilical_s →
      ∀ s run, Start lap options s → (system lap options).IsRun s run →
        System.Throughout ContinuesPromptly s run := by
  intro h
  let run := System.run (next .monotonic)
    ⟨.enter .monotonic ⟨true, 30, 30, 30⟩ 2 3 4 5 none 0 0, false⟩
    [.timerUmbilical 1 .running .written 0, .umbilical (.byte 46) 1000000000, .cont 2000000000]
  have hh := h .monotonic LapTime.monotonic_lawful ⟨true, 30, 30, 30⟩ (by decide) _ run
    ⟨_, ⟨2, 3, 4, 5, none, 0, 0, rfl⟩, rfl⟩ (System.isRun_run _ _ _ _)
  have hpings := (hh.2.2.1 (by decide)).idle 2000000000 rfl (by decide)
  exact absurd hpings (by decide)

theorem continues_promptly_due :
    System.Throughout ContinuesPromptly
      ⟨.enter .monotonic ⟨true, 30, 30, 30⟩ 2 3 4 5 none 0 0, false⟩
      (System.run (next .monotonic)
        ⟨.enter .monotonic ⟨true, 30, 30, 30⟩ 2 3 4 5 none 0 0, false⟩
        [.cont 0, .timerUmbilical 1 .running .written 0, .cont 15000000000,
          .umbilical (.byte 46) 15000000000]) :=
  (continues_promptly_iff LapTime.monotonic_lawful ⟨true, 30, 30, 30⟩
    ⟨_, ⟨2, 3, 4, 5, none, 0, 0, rfl⟩, rfl⟩ (System.isRun_run _ _ _ _)).mpr (by decide)

end ContinuedRun

end PidSentry
