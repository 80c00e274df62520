import PidSentry.ChildRun

/-! Signal escalation: whatever makes the sentry give up on its child, one plan
of signals is run from its first entry to its last, which is repeated. -/

namespace PidSentry

namespace ChildMonitor

structure SameTermination (m n : ChildMonitor) : Prop where
  pid : n.mChildPid = m.mChildPid
  termination : n.mTermination = m.mTermination
  timer : n.mTimers.termination = m.mTimers.termination
  tether : n.mTimers.tether.mPeriod = m.mTimers.tether.mPeriod

theorem activateFdTimerTermination_idle (lap : LapTime) {self : ChildMonitor}
    (aAction : ChildTerminationAction) (aPollTime : Int)
    (hp : self.mTimers.termination.mPeriod = 0) (hs : self.mTermination.mSignalPlan = none) :
    self.activateFdTimerTermination lap aAction aPollTime = .ok { self with
      mTimers.tether.mPeriod := 0
      mTermination.mSignalPlan := some (self.mSignalPlans aAction)
      mTimers.termination.mPeriod := self.mTermination.mSignalPeriod
      mTimers.termination.mSince := lap.trigger self.mTimers.termination.mSince
        self.mTermination.mSignalPeriod aPollTime } := by
  simp only [activateFdTimerTermination, hp, hs, if_true]
  rfl

theorem activateFdTimerTermination_active (lap : LapTime) {self : ChildMonitor}
    (aAction : ChildTerminationAction) (aPollTime : Int)
    (hp : self.mTimers.termination.mPeriod ≠ 0) :
    self.activateFdTimerTermination lap aAction aPollTime =
      .ok { self with mTimers.tether.mPeriod := 0 } := by
  simp only [activateFdTimerTermination, hp, if_false]

/-- The callback ends by activating termination, having touched nothing of it. -/
def Activates (lap : LapTime) (self : ChildMonitor) (cause : TerminationCause)
    (reply : Reply) : Prop :=
  ∃ (other : ChildMonitor) (pollTime : Int), self.SameTermination other ∧
    reply = other.activateFdTimerTermination lap cause.action pollTime

/-- The callback has nothing to do with termination: it sends no signal. -/
def Ignores (self : ChildMonitor) (reply : Reply) : Prop :=
  self.SameTermination reply.self ∧ reply.effects.filterMap ChildEffect.signalled = []

theorem activateFdTimerTermination_activates (lap : LapTime) (self : ChildMonitor)
    (cause : TerminationCause) (aPollTime : Int) :
    self.Activates lap cause (self.activateFdTimerTermination lap cause.action aPollTime) :=
  ⟨self, aPollTime, ⟨rfl, rfl, rfl, rfl⟩, rfl⟩

theorem Activates.of_same {lap : LapTime} {self other : ChildMonitor} {cause : TerminationCause}
    {reply : Reply} (h : other.Activates lap cause reply) (hs : self.SameTermination other) :
    self.Activates lap cause reply := by
  obtain ⟨last, pollTime, hl, he⟩ := h
  exact ⟨last, pollTime, ⟨hl.pid.trans hs.pid, hl.termination.trans hs.termination,
    hl.timer.trans hs.timer, hl.tether.trans hs.tether⟩, he⟩

theorem Activates.ignores {lap : LapTime} {self : ChildMonitor} {cause : TerminationCause}
    {reply : Reply} (h : self.Activates lap cause reply)
    (hp : self.mTimers.termination.mPeriod ≠ 0) (ht : self.mTimers.tether.mPeriod = 0) :
    self.Ignores reply := by
  obtain ⟨other, pollTime, hs, rfl⟩ := h
  rw [activateFdTimerTermination_active lap cause.action pollTime (by rw [hs.timer]; exact hp)]
  exact ⟨⟨hs.pid, hs.termination, hs.timer, ht.symm⟩, rfl⟩

theorem pollFdCloseUmbilical_activates (lap : LapTime) (self : ChildMonitor) (aPollTime : Int) :
    self.Activates lap .umbilical (self.pollFdCloseUmbilical lap aPollTime) :=
  (activateFdTimerTermination_activates lap _ .umbilical aPollTime).of_same ⟨rfl, rfl, rfl, rfl⟩

theorem pollFdUmbilical_termination (lap : LapTime) (self : ChildMonitor) (read : ReadResult)
    (aPollTime : Int) :
    self.Ignores (self.pollFdUmbilical lap read aPollTime) ∨
      self.Activates lap .umbilical (self.pollFdUmbilical lap read aPollTime) := by
  unfold pollFdUmbilical
  split_ifs
  · cases read with
    | byte value =>
      left
      simp only [pollFdEcho]
      split_ifs <;> exact ⟨⟨rfl, rfl, rfl, rfl⟩, rfl⟩
    | eof => exact .inr (pollFdCloseUmbilical_activates lap self aPollTime)
    | eintr => exact .inl ⟨⟨rfl, rfl, rfl, rfl⟩, rfl⟩
    | econnreset => exact .inr (pollFdCloseUmbilical_activates lap self aPollTime)
    | failed => exact .inl ⟨⟨rfl, rfl, rfl, rfl⟩, rfl⟩
  · exact .inl ⟨⟨rfl, rfl, rfl, rfl⟩, rfl⟩

theorem pollFdTimeoutUmbilical_termination (lap : LapTime) (self : ChildMonitor)
    (state : ChildProcessState) (aPollTime : Int) :
    self.Ignores (self.pollFdTimeoutUmbilical lap state aPollTime) ∨
      self.Activates lap .umbilical (self.pollFdTimeoutUmbilical lap state aPollTime) := by
  unfold pollFdTimeoutUmbilical
  split
  any_goals exact .inl ⟨⟨rfl, rfl, rfl, rfl⟩, rfl⟩
  all_goals
    dsimp only
    split_ifs
    · exact .inr ((pollFdCloseUmbilical_activates lap _ aPollTime).of_same ⟨rfl, rfl, rfl, rfl⟩)
    · exact .inl ⟨⟨rfl, rfl, rfl, rfl⟩, rfl⟩

theorem pollFdTimerUmbilical_termination (lap : LapTime) (self : ChildMonitor)
    (state : ChildProcessState) (write : WriteResult) (aPollTime : Int) :
    self.Ignores (self.pollFdTimerUmbilical lap state write aPollTime) ∨
      self.Activates lap .umbilical (self.pollFdTimerUmbilical lap state write aPollTime) := by
  unfold pollFdTimerUmbilical
  split_ifs with hne hlt
  · exact pollFdTimeoutUmbilical_termination lap self state aPollTime
  · exact .inl ⟨⟨rfl, rfl, rfl, rfl⟩, rfl⟩
  · have he := Decidable.not_not.mp hne
    cases write with
    | epipe =>
      simp only [pollFdWriteUmbilical, he, if_true]
      exact .inr (pollFdCloseUmbilical_activates lap self aPollTime)
    | written | eintr | ewouldblock | failed =>
      simp only [pollFdWriteUmbilical, he, if_true]
      exact .inl ⟨⟨rfl, rfl, rfl, rfl⟩, rfl⟩

theorem pollFdTimerTether_termination (lap : LapTime) (self : ChildMonitor)
    (state : ChildProcessState) (since aPollTime : Int) :
    self.Ignores (self.pollFdTimerTether lap state since aPollTime) ∨
      self.Activates lap .tether (self.pollFdTimerTether lap state since aPollTime) := by
  unfold pollFdTimerTether
  split
  · exact .inl ⟨⟨rfl, rfl, rfl, rfl⟩, rfl⟩
  · exact .inr (activateFdTimerTermination_activates lap self .tether aPollTime)
  · exact .inl ⟨⟨rfl, rfl, rfl, rfl⟩, rfl⟩
  · exact .inl ⟨⟨rfl, rfl, rfl, rfl⟩, rfl⟩
  all_goals
    split_ifs
    · exact .inl ⟨⟨rfl, rfl, rfl, rfl⟩, rfl⟩
    · exact .inl ⟨⟨rfl, rfl, rfl, rfl⟩, rfl⟩
    · exact .inr ((activateFdTimerTermination_activates lap _ .tether aPollTime).of_same
        ⟨rfl, rfl, rfl, rfl⟩)

end ChildMonitor

open ChildMonitor

theorem ChildEvent.reply_termination (lap : LapTime) (m : ChildMonitor) (activity : Int)
    (event : ChildEvent) (hne : ∀ laps killed pollTime, event ≠ .timerTermination laps killed pollTime) :
    m.Ignores (event.reply lap m activity) ∨
      ∃ cause, event.cause = some cause ∧ m.Activates lap cause (event.reply lap m activity) := by
  cases event with
  | tetherActivity time => exact .inl ⟨⟨rfl, rfl, rfl, rfl⟩, rfl⟩
  | tether => exact .inl ⟨⟨rfl, rfl, rfl, rfl⟩, rfl⟩
  | umbilical read pollTime =>
    exact (pollFdUmbilical_termination lap m read pollTime).imp id fun h => ⟨_, rfl, h⟩
  | parent pollTime =>
    exact .inr ⟨.parent, rfl,
      (activateFdTimerTermination_activates lap _ .parent pollTime).of_same ⟨rfl, rfl, rfl, rfl⟩⟩
  | reapChild enabled flushed pollTime =>
    left
    simp only [reply, pollFdReapChildEvent, restartFdTimerTether]
    split_ifs <;> exact ⟨⟨rfl, rfl, rfl, rfl⟩, rfl⟩
  | reapUmbilical enabled pollTime =>
    left
    simp only [reply, pollFdReapUmbilicalEvent, restartFdTimerUmbilical]
    split_ifs <;> exact ⟨⟨rfl, rfl, rfl, rfl⟩, rfl⟩
  | cont pollTime =>
    left
    simp only [reply, pollFdContUmbilical]
    split_ifs <;> exact ⟨⟨rfl, rfl, rfl, rfl⟩, rfl⟩
  | timerTether laps state pollTime =>
    refine (pollFdTimerTether_termination lap
      { m with mTimers.tether := m.mTimers.tether.lap laps } state activity pollTime).imp ?_ ?_
    · exact fun h => ⟨⟨h.1.pid, h.1.termination, h.1.timer, h.1.tether⟩, h.2⟩
    · exact fun h => ⟨_, rfl, h.of_same ⟨rfl, rfl, rfl, rfl⟩⟩
  | timerUmbilical laps state write pollTime =>
    refine (pollFdTimerUmbilical_termination lap
      { m with mTimers.umbilical := m.mTimers.umbilical.lap laps } state write pollTime).imp ?_ ?_
    · exact fun h => ⟨⟨h.1.pid, h.1.termination, h.1.timer, h.1.tether⟩, h.2⟩
    · exact fun h => ⟨_, rfl, h.of_same ⟨rfl, rfl, rfl, rfl⟩⟩
  | timerTermination laps killed pollTime => exact absurd rfl (hne laps killed pollTime)
  | timerChild laps pinged pollTime =>
    left
    simp only [reply, pollFdTimerChild]
    split_ifs <;> exact ⟨⟨rfl, rfl, rfl, rfl⟩, rfl⟩

def TerminationCause.firstSignal : TerminationCause → Nat
  | .parent | .umbilical => SIGTERM
  | .tether => SIGABRT

theorem TerminationCause.firstSignal_ne_zero (cause : TerminationCause) :
    cause.firstSignal ≠ 0 := by
  cases cause <;> decide

namespace ChildRun

/-- Before the first activation nothing has been sent and the timer is off.
Afterwards the plan stands at its first entry, or past it with that entry's
signal sent and then some number of SIGKILL, unless sending it failed. -/
inductive Escalates (period : Nat) (s : ChildRun) : Prop
  | idle (plan : s.monitor.mTermination.mSignalPlan = none)
      (timer : s.monitor.mTimers.termination.mPeriod = 0)
      (cause : s.cause = none) (signals : s.signals = [])
  | first (cause : TerminationCause) (hcause : s.cause = some cause)
      (plan : s.monitor.mTermination.mSignalPlan = some (s.monitor.mSignalPlans cause.action))
      (timer : s.monitor.mTimers.termination.mPeriod = period)
      (tether : s.monitor.mTimers.tether.mPeriod = 0) (signals : s.signals = [])
  | last (cause : TerminationCause) (hcause : s.cause = some cause)
      (plan : s.monitor.mTermination.mSignalPlan =
        some [⟨s.monitor.mChildPid, SIGKILL⟩, ⟨0, 0⟩])
      (timer : s.monitor.mTimers.termination.mPeriod = period)
      (tether : s.monitor.mTimers.tether.mPeriod = 0)
      (signals : s.rc = .error ∧ s.signals = [] ∨
        ∃ kills, s.signals = cause.firstSignal :: List.replicate kills SIGKILL)

theorem mSignalPlans_action (monitor : ChildMonitor) (cause : TerminationCause) :
    monitor.mSignalPlans cause.action =
      [⟨monitor.mChildPid, cause.firstSignal⟩, ⟨monitor.mChildPid, SIGKILL⟩, ⟨0, 0⟩] := by
  cases cause <;> rfl

theorem Escalates.after_ignored {lap : LapTime} {period : Nat} {s : ChildRun} {event : ChildEvent}
    (hi : s.Escalates period) (hok : s.rc = .ok)
    (h : s.monitor.Ignores (event.reply lap s.monitor s.activity)) :
    (s.after lap event).Escalates period := by
  obtain ⟨⟨hpid, hterm, htimer, htether⟩, heff⟩ := h
  have hsig : (s.after lap event).signals = s.signals := by
    simp only [after, heff, List.append_nil]
  have hcause : (s.after lap event).cause = s.cause := by
    simp only [after, hterm]
    split_ifs with hc
    · exact absurd hc.1 hc.2
    · rfl
  have hplan : (s.after lap event).monitor.mTermination = s.monitor.mTermination := hterm
  have hchild : (s.after lap event).monitor.mChildPid = s.monitor.mChildPid := hpid
  have hperiod : (s.after lap event).monitor.mTimers.termination.mPeriod =
      s.monitor.mTimers.termination.mPeriod := congrArg _ htimer
  cases hi with
  | idle plan timer cause signals =>
    exact .idle (by rw [hplan, plan]) (hperiod.trans timer) (hcause.trans cause)
      (hsig.trans signals)
  | first cause hc plan timer tether signals =>
    refine .first cause (hcause.trans hc) ?_ (hperiod.trans timer) (htether.trans tether)
      (hsig.trans signals)
    rw [hplan, plan, mSignalPlans_action, mSignalPlans_action, hchild]
  | last cause hc plan timer tether signals =>
    refine .last cause (hcause.trans hc) (by rw [hplan, plan, hchild]) (hperiod.trans timer)
      (htether.trans tether) ?_
    · rw [hsig]
      exact signals.imp (fun h => absurd (h.1.symm.trans hok) (by decide)) id

theorem Escalates.after_idle {lap : LapTime} {period : Nat} {s : ChildRun} {event : ChildEvent}
    {cause : TerminationCause} (hperiod : s.monitor.mTermination.mSignalPeriod = period)
    (plan : s.monitor.mTermination.mSignalPlan = none)
    (timer : s.monitor.mTimers.termination.mPeriod = 0) (signals : s.signals = [])
    (hevent : event.cause = some cause)
    (h : s.monitor.Activates lap cause (event.reply lap s.monitor s.activity)) :
    (s.after lap event).Escalates period := by
  obtain ⟨other, pollTime, hs, he⟩ := h
  rw [activateFdTimerTermination_idle lap cause.action pollTime
    (by rw [hs.timer, timer]) (by rw [hs.termination, plan])] at he
  refine .first cause ?_ ?_ ?_ ?_ ?_
  · simp only [after, he, Outcome.ok_self, plan, hevent, ne_eq, reduceCtorEq, not_false_eq_true,
      and_self, if_true]
  · simp only [after, he, Outcome.ok_self, mSignalPlans_action]
  · simp only [after, he, Outcome.ok_self, hs.termination, hperiod]
  · simp only [after, he, Outcome.ok_self]
  · simp only [after, he, Outcome.ok_effects, List.filterMap_nil, List.append_nil, signals]

theorem Escalates.after_terminated {lap : LapTime} {period : Nat} {s : ChildRun} {laps : Nat}
    {killed : Bool} {pollTime : Int} (hi : s.Escalates period) (hok : s.rc = .ok)
    (hready : (ChildEvent.timerTermination laps killed pollTime).Ready s.monitor) :
    (s.after lap (.timerTermination laps killed pollTime)).Escalates period := by
  have hne : s.monitor.mTimers.termination.mPeriod ≠ 0 := hready.1.1
  cases hi with
  | idle plan timer cause signals => exact absurd timer hne
  | first cause hc plan timer tether signals =>
    rw [mSignalPlans_action] at plan
    cases killed with
    | true =>
      refine .last cause ?_ ?_ ?_ ?_ (.inr ⟨0, ?_⟩)
      all_goals simp [after, ChildEvent.reply, pollFdTimerTermination, plan, hc, timer, tether,
        signals, SIGKILL, ChildEffect.signalled]
    | false =>
      refine .last cause ?_ ?_ ?_ ?_ (.inl ?_)
      all_goals simp [after, ChildEvent.reply, pollFdTimerTermination, plan, hc, timer, tether,
        signals, SIGKILL]
  | last cause hc plan timer tether signals =>
    have hsent := signals.resolve_left fun h => absurd (h.1.symm.trans hok) (by decide)
    obtain ⟨kills, hsent⟩ := hsent
    cases killed with
    | true =>
      refine .last cause ?_ ?_ ?_ ?_ (.inr ⟨kills + 1, ?_⟩)
      all_goals simp [after, ChildEvent.reply, pollFdTimerTermination, plan, hc, timer, tether,
        hsent, SIGKILL, ChildEffect.signalled, List.replicate_succ']
    | false =>
      refine .last cause ?_ ?_ ?_ ?_ (.inr ⟨kills, ?_⟩)
      all_goals simp [after, ChildEvent.reply, pollFdTimerTermination, plan, hc, timer, tether,
        hsent, SIGKILL]

theorem after_signalPeriod (lap : LapTime) (s : ChildRun) (event : ChildEvent) :
    (s.after lap event).monitor.mTermination.mSignalPeriod =
      s.monitor.mTermination.mSignalPeriod := by
  by_cases hevent : ∃ laps killed pollTime, event = .timerTermination laps killed pollTime
  · obtain ⟨laps, killed, pollTime, rfl⟩ := hevent
    simp only [after, ChildEvent.reply, pollFdTimerTermination]
    split
    · split_ifs <;> rfl
    · rfl
  · rcases event.reply_termination lap s.monitor s.activity
      (fun laps killed pollTime he => hevent ⟨laps, killed, pollTime, he⟩) with
      h | ⟨cause, -, other, pollTime, hs, he⟩
    · exact congrArg (·.mSignalPeriod) h.1.termination
    · simp only [after, he, activateFdTimerTermination, ← hs.termination]
      split_ifs <;> rfl

theorem signalPeriod_of_reachable {lap : LapTime} {options : ServerOptions} {s : ChildRun}
    (hs : (system lap options).Reachable s) :
    s.monitor.mTermination.mSignalPeriod = nsecs options.mSignal_s := by
  refine hs.invariant (P := fun s => s.monitor.mTermination.mSignalPeriod = nsecs options.mSignal_s)
    ?_ ?_
  · rintro s ⟨childPid, umbilicalPid, tetherFd, umbilicalFd, parentFd, start, activity, rfl⟩
    rfl
  · rintro s event t - hi hstep
    obtain ⟨-, rfl⟩ := next_eq_some.mp hstep
    exact (after_signalPeriod lap s event).trans hi

theorem escalates_of_reachable {lap : LapTime} {options : ServerOptions}
    (hsignal : 0 < options.mSignal_s) {s : ChildRun} (hs : (system lap options).Reachable s) :
    s.Escalates (nsecs options.mSignal_s) := by
  have hpos : nsecs options.mSignal_s ≠ 0 := by unfold nsecs; omega
  refine hs.invariant ?_ ?_
  · rintro s ⟨childPid, umbilicalPid, tetherFd, umbilicalFd, parentFd, start, activity, rfl⟩
    exact .idle rfl rfl rfl rfl
  · rintro s event t hreach hi hstep
    obtain ⟨⟨hok, hready⟩, rfl⟩ := next_eq_some.mp hstep
    by_cases hevent : ∃ laps killed pollTime, event = .timerTermination laps killed pollTime
    · obtain ⟨laps, killed, pollTime, rfl⟩ := hevent
      exact hi.after_terminated hok hready
    · rcases event.reply_termination lap s.monitor s.activity
        (fun laps killed pollTime he => hevent ⟨laps, killed, pollTime, he⟩) with
        h | ⟨cause, hcause, h⟩
      · exact hi.after_ignored hok h
      · cases hi with
        | idle plan timer _ signals =>
          exact Escalates.after_idle (signalPeriod_of_reachable hreach) plan timer signals hcause h
        | first c hc plan timer tether signals =>
          exact Escalates.after_ignored (.first c hc plan timer tether signals) hok
            (h.ignores (timer ▸ hpos) tether)
        | last c hc plan timer tether signals =>
          exact Escalates.after_ignored (.last c hc plan timer tether signals) hok
            (h.ignores (timer ▸ hpos) tether)

/-- An escalation that has begun keeps the tether timer off and its own on. -/
theorem Escalates.begun {period : Nat} {s : ChildRun} (hi : s.Escalates period)
    (hc : s.cause ≠ none) :
    s.monitor.mTimers.termination.mPeriod = period ∧ s.monitor.mTimers.tether.mPeriod = 0 := by
  cases hi with
  | idle _ _ cause _ => exact absurd cause hc
  | first _ _ _ timer tether _ => exact ⟨timer, tether⟩
  | last _ _ _ timer tether _ => exact ⟨timer, tether⟩

theorem Escalates.signals_prefix {period : Nat} {s : ChildRun} (hi : s.Escalates period) :
    (s.cause = none ∧ s.monitor.mTermination.mSignalPlan = none ∧ s.signals = []) ∨
      ∃ cause kills, s.cause = some cause ∧
        s.signals <+: cause.firstSignal :: List.replicate kills SIGKILL := by
  cases hi with
  | idle plan _ cause signals => exact .inl ⟨cause, plan, signals⟩
  | first cause hc _ _ _ signals =>
    exact .inr ⟨cause, 0, hc, signals ▸ List.nil_prefix⟩
  | last cause hc _ _ _ signals =>
    rcases signals with ⟨-, signals⟩ | ⟨kills, signals⟩
    · exact .inr ⟨cause, 0, hc, signals ▸ List.nil_prefix⟩
    · exact .inr ⟨cause, kills, hc, signals ▸ List.prefix_rfl⟩

theorem Escalates.plan_entries {period : Nat} {s : ChildRun} (hi : s.Escalates period)
    (hp : s.monitor.mTimers.termination.mPeriod ≠ 0) :
    ∃ plan next rest, s.monitor.mTermination.mSignalPlan = some (plan :: next :: rest) ∧
      plan.mPid = s.monitor.mChildPid ∧ plan.mSig ≠ 0 := by
  cases hi with
  | idle _ timer _ _ => exact absurd timer hp
  | first cause _ plan _ _ _ =>
    rw [mSignalPlans_action] at plan
    exact ⟨_, _, _, plan, rfl, cause.firstSignal_ne_zero⟩
  | last _ _ plan _ _ _ => exact ⟨_, _, _, plan, rfl, Nat.succ_ne_zero 8⟩

/-- Escalation as seen from one state of a run. The signals sent are an initial
part of the first cause's signal followed by SIGKILL; an activation after the
first one leaves the plan, its position and its timer alone; the tether timer
does not run again; and the timer finds an entry of the plan to send. -/
structure EscalatesOnce (lap : LapTime) (s : ChildRun) : Prop where
  signals_prefix : (s.cause = none ∧ s.monitor.mTermination.mSignalPlan = none ∧ s.signals = []) ∨
    ∃ cause kills, s.cause = some cause ∧
      s.signals <+: cause.firstSignal :: List.replicate kills SIGKILL
  unmoved : ∀ event t, s.next lap event = some t → s.cause ≠ none →
    (∀ laps killed pollTime, event ≠ .timerTermination laps killed pollTime) →
    t.cause = s.cause ∧ t.signals = s.signals ∧
      t.monitor.mTermination = s.monitor.mTermination ∧
      t.monitor.mTimers.termination = s.monitor.mTimers.termination
  tether_off : s.cause ≠ none → ∀ laps state pollTime,
    ¬ (ChildEvent.timerTether laps state pollTime).Ready s.monitor
  entry : ∀ laps killed pollTime,
    (ChildEvent.timerTermination laps killed pollTime).Ready s.monitor →
    ∃ plan next rest, s.monitor.mTermination.mSignalPlan = some (plan :: next :: rest) ∧
      plan.mPid = s.monitor.mChildPid ∧ plan.mSig ≠ 0

/-- Whatever the order of causes, state changes and timer firings, the sentry
escalates once. -/
theorem escalation (lap : LapTime) (options : ServerOptions) (hsignal : 0 < options.mSignal_s)
    {s : ChildRun} (hs : (system lap options).Reachable s) : s.EscalatesOnce lap := by
  have hpos : nsecs options.mSignal_s ≠ 0 := by unfold nsecs; omega
  have hi := escalates_of_reachable hsignal hs
  refine ⟨hi.signals_prefix, ?_, fun hc _ _ _ hready => hready.1.1 (hi.begun hc).2,
    fun _ _ _ hready => hi.plan_entries hready.1.1⟩
  intro event t hstep hc hevent
  obtain ⟨-, rfl⟩ := next_eq_some.mp hstep
  have hh : s.monitor.Ignores (event.reply lap s.monitor s.activity) := by
    rcases event.reply_termination lap s.monitor s.activity hevent with h | ⟨cause, -, h⟩
    · exact h
    · exact h.ignores (by rw [(hi.begun hc).1]; exact hpos) (hi.begun hc).2
  refine ⟨?_, ?_, hh.1.termination, hh.1.timer⟩
  · simp only [after, hh.1.termination]
    split_ifs with hplan
    · exact absurd hplan.1 hplan.2
    · rfl
  · simp only [after, hh.2, List.append_nil]

theorem escalation_parent_then_umbilical :
    ∃ s, [ChildEvent.parent 0, .timerTermination 1 true 0, .umbilical .eof 1,
        .timerTermination 30 true 900000000000].foldlM (next .monotonic)
          (enter .monotonic ⟨true, 30, 30, 30⟩ 2 3 4 5 (some 6) 0 0) = some s ∧
      s.signals = [SIGTERM, SIGKILL] ∧ s.EscalatesOnce .monotonic :=
  ⟨_, rfl, by decide, escalation .monotonic ⟨true, 30, 30, 30⟩ (by decide)
    (.of_foldlM (.of_init ⟨2, 3, 4, 5, some 6, 0, 0, rfl⟩)
      [.parent 0, .timerTermination 1 true 0, .umbilical .eof 1,
        .timerTermination 30 true 900000000000] rfl)⟩

end ChildRun

end PidSentry
