import PidSentry.AgentWorld
import PidSentry.Escalation

/-! What ties the agent to the watchdog and the watchdog to its parent: whom the watchers
of the watchdog signal, when the parent pipe is hung up, and what the sentry makes of it. -/

namespace PidSentry

open ChildMonitor

theorem ChildMonitor.pollFdCloseUmbilical_parent (lap : LapTime) (self : ChildMonitor) (aPollTime : Int) :
    (self.pollFdCloseUmbilical lap aPollTime).self.mPollFds.parent = self.mPollFds.parent := by
  simp [pollFdCloseUmbilical]

/-- Only `pollFdParent_` itself disarms its poll entry. -/
theorem ChildEvent.reply_parent (lap : LapTime) (m : ChildMonitor) (activity : Int) {event : ChildEvent}
    (h : event.isParent = false) : (event.reply lap m activity).self.mPollFds.parent = m.mPollFds.parent := by
  cases event with
  | parent pollTime => cases h
  | tetherActivity time => rfl
  | tether => rfl
  | umbilical read pollTime =>
    simp only [reply, pollFdUmbilical]
    split_ifs
    · cases read with
      | byte value =>
        simp only [pollFdEcho]
        split_ifs <;> rfl
      | eof | econnreset => exact pollFdCloseUmbilical_parent lap m pollTime
      | eintr | failed => rfl
    · rfl
  | reapChild enabled flushed pollTime =>
    simp only [reply, pollFdReapChildEvent, restartFdTimerTether]
    split_ifs <;> rfl
  | reapUmbilical enabled pollTime =>
    simp only [reply, pollFdReapUmbilicalEvent, restartFdTimerUmbilical]
    split_ifs <;> rfl
  | cont pollTime =>
    simp only [reply, pollFdContUmbilical]
    split_ifs <;> rfl
  | timerTether laps state pollTime =>
    simp only [reply, pollFdTimerTether]
    split
    any_goals rfl
    · simp
    all_goals split_ifs
    any_goals rfl
    all_goals simp
  | timerUmbilical laps state write pollTime =>
    simp only [reply, pollFdTimerUmbilical]
    split_ifs
    · simp only [pollFdTimeoutUmbilical]
      split
      any_goals rfl
      all_goals split_ifs
      any_goals rfl
      all_goals exact pollFdCloseUmbilical_parent lap _ pollTime
    · rfl
    · cases write <;> simp only [pollFdWriteUmbilical] <;> split_ifs
      any_goals rfl
      all_goals exact pollFdCloseUmbilical_parent lap _ pollTime
  | timerTermination laps killed pollTime =>
    simp only [reply, pollFdTimerTermination]
    split
    · split_ifs <;> rfl
    · rfl
  | timerChild laps pinged pollTime =>
    simp only [reply, pollFdTimerChild]
    split_ifs <;> rfl

namespace ChildRun

/-- The sentry hears of its parent unless it is terminating its child already. -/
def HearsParent (s : ChildRun) : Prop := s.cause = none → s.monitor.mPollFds.parent.armed = true

variable {lap : LapTime} {options : ServerOptions} {s t : ChildRun} {event : ChildEvent}

theorem cause_of_next (hs : (system lap options).Reachable s) (hsignal : 0 < options.mSignal_s)
    (h : s.next lap event = some t) : t.cause = s.cause ∨ s.cause = none ∧ t.cause = event.cause := by
  obtain ⟨-, rfl⟩ := next_eq_some.mp h
  simp only [after]
  split_ifs with hplan
  · refine .inr ⟨?_, rfl⟩
    cases escalates_of_reachable hsignal hs with
    | idle plan timer cause signals => exact cause
    | first cause hcause plan | last cause hcause plan =>
      rw [hplan.1] at plan
      cases plan
  · exact .inl rfl

/-- A sentry that hears of its parent begins to terminate its child. -/
theorem next_parent (hs : (system lap options).Reachable s) (hsignal : 0 < options.mSignal_s)
    (hears : s.HearsParent) (hok : s.rc = .ok) (hcause : s.cause = none) (pollTime : Int) :
    ∃ t, s.next lap (.parent pollTime) = some t ∧ t.rc = .ok ∧ t.cause = some .parent ∧
      t.monitor.mTimers.termination.mPeriod ≠ 0 := by
  refine ⟨s.after lap (.parent pollTime), next_eq_some.mpr ⟨⟨hok, hears hcause⟩, rfl⟩, ?_⟩
  have hpos : nsecs options.mSignal_s ≠ 0 := by unfold nsecs; omega
  have hperiod := signalPeriod_of_reachable hs
  cases escalates_of_reachable hsignal hs with
  | idle plan timer =>
    have hreply : (ChildEvent.parent pollTime).reply lap s.monitor s.activity = _ :=
      @activateFdTimerTermination_idle lap { s.monitor with mPollFds.parent := .disarmed } .terminate
        pollTime timer plan
    simp [after, hreply, plan, hperiod, hpos, ChildEvent.cause]
  | first cause hc | last cause hc =>
    rw [hcause] at hc
    cases hc

theorem HearsParent.next (hi : s.HearsParent) (hs : (system lap options).Reachable s)
    (hsignal : 0 < options.mSignal_s) (h : s.next lap event = some t) : t.HearsParent := by
  intro hcause
  have hnone : s.cause = none := by
    rcases cause_of_next hs hsignal h with he | ⟨he, -⟩
    · exact he.symm.trans hcause
    · exact he
  cases hparent : event.isParent with
  | true =>
    cases event with
    | parent pollTime =>
      obtain ⟨⟨hok, -⟩, -⟩ := next_eq_some.mp h
      obtain ⟨u, hu, -, hcause', -⟩ := next_parent hs hsignal hi hok hnone pollTime
      obtain rfl := Option.some.inj (hu.symm.trans h)
      rw [hcause] at hcause'
      cases hcause'
    | _ => cases hparent
  | false =>
    obtain ⟨-, rfl⟩ := next_eq_some.mp h
    exact (congrArg PollFd.armed (ChildEvent.reply_parent lap s.monitor s.activity hparent)).trans (hi hnone)

end ChildRun

namespace AgentWorld

open AgentRun

variable {lap : LapTime} {server : ServerOptions} {mOrphaned : Bool} {s t : AgentWorld} {event : AgentEvent}
  {agent : AgentProcess} {a : ProcessAct Pid} {table : ProcessTable Pid}

/-- The agent, which is the watchdog's to reap. -/
structure Tends (s : AgentWorld) (agent : AgentProcess) : Prop where
  pid : 1 < agent.self.pid
  recorded : s.run.data.agentPid = agent.self.pid
  ne : agent.self.self ≠ s.watchdog.self
  ward : s.watchdogAlive → s.run.data.reaped = false →
    s.table.Ward agent.self.pid agent.self.self s.watchdog.self

structure Guarded (mOrphaned : Bool) (s : AgentWorld) : Prop where
  table : s.table.Consistent
  tracks : s.table.Tracks s.watchdog.pid s.watchdog.self
  within : s.run.Within (runAgentProcess mOrphaned) closeAgentProcess
  meets : s.run.Meets AgentCall.perform Ready Leaves (fun _ => Closes)
  agent : ∀ agent, s.agent = some agent → s.Tends agent
  unforked : s.agent = none → s.run.data.agentPid = 0
  heirs : ∀ self ∈ s.heirs, ∃ agent, s.agent = some agent ∧ agent.posted = false ∧ self = agent.self.self

theorem Tends.ne_zero (h : s.Tends agent) : s.run.data.agentPid ≠ 0 := by
  intro he
  have hpid := h.pid
  rw [← h.recorded, he] at hpid
  revert hpid
  decide

theorem Guarded.act (hi : s.Guarded mOrphaned) (h : s.table.act a = some table)
    (hreap : ∀ agent, s.agent = some agent → s.watchdogAlive → s.run.data.reaped = false →
      a ≠ .reap agent.self.pid) : Guarded mOrphaned { s with table } where
  table := hi.table.act h
  tracks := hi.tracks.act h
  within := hi.within
  meets := hi.meets
  agent agent he := by
    obtain ⟨hpid, hrecorded, hne, hward⟩ := hi.agent agent he
    refine ⟨hpid, hrecorded, hne, fun halive hreaped => ?_⟩
    have halive' : s.watchdogAlive := ProcessTable.Alive.of_act halive h hi.tracks.1
    exact (hward halive' hreaped).act hi.table h (hreap agent he halive' hreaped) hi.tracks.1 halive
  unforked := hi.unforked
  heirs := hi.heirs

/-- What the next call of the watchdog relies on, unless it is one of the cleanup. -/
theorem Guarded.ready (hi : s.Guarded mOrphaned) (hstage : s.run.stage ≠ .aborted) {call : AgentCall}
    {calls : List AgentCall} (htodo : s.run.todo = call :: calls) (hcall : call ∉ closeAgentProcess) :
    Ready (call :: calls) s.run.data := by
  have hmeets := hi.meets
  unfold Course.Meets at hmeets
  cases he : s.run.stage with
  | working =>
    rw [he] at hmeets
    exact htodo ▸ hmeets.2.here
  | closing =>
    have hsubset := (hi.within.closing he).1.subset
    rw [htodo] at hsubset
    exact absurd (hsubset List.mem_cons_self) hcall
  | aborted => exact absurd he hstage

theorem Guarded.next (hi : s.Guarded mOrphaned) {result : AgentResult} {run : AgentRun}
    (h : Course.next AgentCall.perform closeAgentProcess s.run result = some run) :
    run.Within (runAgentProcess mOrphaned) closeAgentProcess ∧
      run.Meets AgentCall.perform Ready Leaves (fun _ => Closes) := by
  refine ⟨hi.within.next h, hi.meets.next (fun d hd => ?_) (fun left d hd => ?_) h⟩
  · have hleaves : Leaves [] d := ⟨hd.watched, hd.pipe⟩
    exact closeAgentProcess_outline hleaves
  · exact closeAgentProcess_outline hd

/-- A call other than the fork has to do with the same agent. -/
theorem Guarded.sameAgent (hi : s.Guarded mOrphaned) {result : AgentResult} {run : AgentRun} {call : AgentCall}
    {calls : List AgentCall} (htodo : s.run.todo = call :: calls)
    (h : Course.next AgentCall.perform closeAgentProcess s.run result = some run)
    (hforks : ∀ pid, call = .forkProcess → result ≠ .forked pid) :
    run.data.agentPid = s.run.data.agentPid ∧ (run.data.reaped = false → s.run.data.reaped = false ∧
      (call = .reapProcessChild → result ≠ .ok)) := by
  have hstage := Course.unaborted_of_next h
  have hperform : ∃ ending, call.perform result s.run.data = some (ending, run.data) := by
    rw [Course.next_cons hstage htodo] at h
    obtain ⟨⟨ending, data⟩, hcall, rfl⟩ := Option.map_eq_some_iff.mp h
    refine ⟨ending, ?_⟩
    cases ending <;> cases he : s.run.stage <;> simpa [Course.after, he] using hcall
  obtain ⟨ending, hperform⟩ := hperform
  refine ⟨agentPid_of_perform hperform hforks fun hcall => ?_, reaped_of_perform hperform⟩
  have hcloses : call ∉ closeAgentProcess := by
    rw [hcall]
    decide
  exact (hi.ready hstage htodo hcloses).clears (by rw [hcall]; rfl)

theorem callTable_cases {call : AgentCall} {result : AgentResult} (h : s.callTable call result = some table) :
    table = s.table ∨ call = .reapProcessChild ∧ result = .ok ∧
      s.table.act (.reap s.run.data.agentPid) = some table := by
  cases call with
  | createParentProcess =>
    cases result with
    | parent parentPid mThread =>
      obtain ⟨-, h⟩ := Option.ite_none_right_eq_some.mp h
      exact .inl (Option.some.inj h).symm
    | _ => exact .inl (Option.some.inj h).symm
  | waitProcessChild =>
    cases result with
    | ok | dumped =>
      obtain ⟨-, h⟩ := Option.ite_none_right_eq_some.mp h
      exact .inl (Option.some.inj h).symm
    | _ => exact .inl (Option.some.inj h).symm
  | reapProcessChild =>
    cases result with
    | ok =>
      obtain ⟨-, h⟩ := Option.ite_none_right_eq_some.mp h
      exact .inr ⟨rfl, rfl, h⟩
    | _ => exact .inl (Option.some.inj h).symm
  | _ => exact .inl (Option.some.inj h).symm

theorem Guarded.call (hi : s.Guarded mOrphaned) {result : AgentResult} {run : AgentRun} {call : AgentCall}
    {calls : List AgentCall} (htodo : s.run.todo = call :: calls)
    (hrun : Course.next AgentCall.perform closeAgentProcess s.run result = some run)
    (hforks : ∀ pid, call = .forkProcess → result ≠ .forked pid)
    (htable : s.callTable call result = some table) : Guarded mOrphaned { s with table, run } := by
  obtain ⟨hwithin, hmeets⟩ := hi.next hrun
  obtain ⟨hagentPid, hreaped⟩ := hi.sameAgent htodo hrun hforks
  have htable' : table.Consistent ∧ table.Tracks s.watchdog.pid s.watchdog.self := by
    rcases callTable_cases htable with rfl | ⟨-, -, hact⟩
    · exact ⟨hi.table, hi.tracks⟩
    · exact ⟨hi.table.act hact, hi.tracks.act hact⟩
  refine ⟨htable'.1, htable'.2, hwithin, hmeets, fun agent he => ?_, fun hnone => ?_, hi.heirs⟩
  · obtain ⟨hpid, hrecorded, hne, hward⟩ := hi.agent agent he
    refine ⟨hpid, hagentPid.trans hrecorded, hne, fun halive hunreaped => ?_⟩
    obtain ⟨hunreaped', hnot⟩ := hreaped hunreaped
    rcases callTable_cases htable with rfl | ⟨hcall, hresult, -⟩
    · exact hward halive hunreaped'
    · exact absurd hresult (hnot hcall)
  · exact hagentPid.trans (hi.unforked hnone)

/-- A watchdog that comes to fork the agent has none. -/
theorem Guarded.unforked_of_head (hi : s.Guarded mOrphaned) (hstage : s.run.stage ≠ .aborted) {call : AgentCall}
    {calls : List AgentCall} (htodo : s.run.todo = call :: calls) (hcall : call.forks = true) :
    Unforked s.run.data ∧ s.agent = none := by
  have hcloses : call ∉ closeAgentProcess := fun hmem => by
    have hcleanup : ∀ call ∈ closeAgentProcess, call.forks = false := by decide
    rw [hcleanup call hmem] at hcall
    cases hcall
  have hd := (hi.ready hstage htodo hcloses).forks call rfl hcall
  refine ⟨hd, ?_⟩
  by_contra hne
  obtain ⟨agent, he⟩ := Option.ne_none_iff_exists'.mp hne
  exact (hi.agent agent he).ne_zero hd.agentPid

theorem Guarded.fork (hi : s.Guarded mOrphaned) {pid : Pid} {run : AgentRun} {calls : List AgentCall}
    (halive : s.watchdogAlive) (htodo : s.run.todo = .forkProcess :: calls)
    (hrun : Course.next AgentCall.perform closeAgentProcess s.run (.forked pid) = some run) (hpid : 1 < pid)
    (htable : s.table.act (.fork s.watchdog.pid pid) = some table) : Guarded mOrphaned { s with
      table
      run
      agent := some ⟨⟨pid, s.table.next⟩, false, none⟩
      heirs := if holdsPipe s.run.data then s.table.next :: s.heirs else s.heirs } := by
  have hstage := Course.unaborted_of_next hrun
  obtain ⟨hwithin, hmeets⟩ := hi.next hrun
  obtain ⟨hd, hnone⟩ := hi.unforked_of_head hstage htodo rfl
  obtain ⟨-, hward, -⟩ := ProcessTable.ward_of_fork htable hi.table hi.tracks halive
  have hheirs : s.heirs = [] := by
    refine List.eq_nil_iff_forall_not_mem.mpr fun self hself => ?_
    obtain ⟨agent, he, -⟩ := hi.heirs self hself
    rw [hnone] at he
    cases he
  have hagentPid : run.data.agentPid = pid := by
    rw [Course.next_cons hstage htodo] at hrun
    obtain ⟨⟨ending, data⟩, hcall, rfl⟩ := Option.map_eq_some_iff.mp hrun
    obtain ⟨-, hcall⟩ := Option.ite_none_right_eq_some.mp hcall
    cases hcall
    rfl
  refine ⟨hi.table.act htable, hi.tracks.act htable, hwithin, hmeets, fun agent he => ?_, by simp,
    fun self hself => ⟨_, rfl, rfl, ?_⟩⟩
  · obtain rfl := Option.some.inj he
    exact ⟨hpid, hagentPid, Nat.ne_of_gt hi.tracks.1, fun _ _ => hward⟩
  · rw [hheirs] at hself
    split_ifs at hself
    · exact List.mem_singleton.mp hself
    · cases hself

/-- What the others do concerns neither the agent nor the parent pipe. -/
theorem Guarded.other (hi : s.Guarded mOrphaned) (hpermits : s.permits a = true)
    (h : s.table.act a = some table) : s.inherits a = s.heirs ∧ Guarded mOrphaned { s with table } := by
  constructor
  · cases a with
    | fork parent number =>
      refine if_neg fun hany => ?_
      obtain ⟨x, hx, hheir⟩ := (Option.any_eq_true _ _).mp hany
      obtain ⟨agent, he, hposted, hself⟩ := hi.heirs x.self (of_decide_eq_true hheir)
      have hpermits := (Bool.and_eq_true_iff.mp hpermits).2
      simp [hx, he, hposted, hself] at hpermits
    | setpgid | exit | reap => rfl
  · refine hi.act h fun agent he halive hreaped hact => ?_
    subst hact
    obtain ⟨x, hx, hnumber, -, hparent⟩ := (hi.agent agent he).ward halive hreaped
    have hpermits : (s.table.entry agent.self.pid).all (fun x => x.parent ≠ some s.watchdog.self) = true :=
      hpermits
    rw [← hnumber, hi.table.entry hx] at hpermits
    simp [hparent] at hpermits

theorem Guarded.step (hi : s.Guarded mOrphaned) (h : Steps lap server s event t) : t.Guarded mOrphaned := by
  cases h with
  | call halive htodo hrun hforked htable => exact hi.call htodo hrun hforked htable
  | forks halive htodo hrun hpid htable => exact hi.fork halive htodo hrun hpid htable
  | returns halive htodo hrun =>
    obtain ⟨hwithin, hmeets⟩ := hi.next hrun
    have hdata : _ = s.run.data := (Course.data_of_next hrun).resolve_right (by simp [htodo])
    refine ⟨hi.table, hi.tracks, hwithin, hmeets, fun agent he => ?_, fun hnone => ?_, hi.heirs⟩
    · obtain ⟨hpid, hrecorded, hne, hward⟩ := hi.agent agent he
      refine ⟨hpid, ?_, hne, fun halive hreaped => hward halive ?_⟩
      · exact (congrArg AgentData.agentPid hdata).trans hrecorded
      · exact (congrArg AgentData.reaped hdata).symm.trans hreaped
    · exact (congrArg AgentData.agentPid hdata).trans (hi.unforked hnone)
  | callback halive hstage hwatched =>
    split_ifs
    · exact hi
    · refine ⟨hi.table, hi.tracks, ⟨by simp, by simp⟩, trivial, fun agent he => ?_, hi.unforked, hi.heirs⟩
      obtain ⟨hpid, hrecorded, hne, hward⟩ := hi.agent agent he
      exact ⟨hpid, hrecorded, hne, hward⟩
  | wakes halive hparent => exact hi
  | exits halive hparent htable => exact hi.act htable fun _ _ _ _ => by simp
  | @posts agent hagent halive hposted =>
    refine ⟨hi.table, hi.tracks, hi.within, hi.meets, fun other he => ?_, by simp, fun self hself => ?_⟩
    · obtain rfl := Option.some.inj he
      obtain ⟨hpid, hrecorded, hne, hward⟩ := hi.agent agent hagent
      exact ⟨hpid, hrecorded, hne, hward⟩
    · obtain ⟨hmem, hne⟩ := List.mem_filter.mp hself
      obtain ⟨other, he, -, rfl⟩ := hi.heirs self hmem
      obtain rfl := Option.some.inj (hagent.symm.trans he)
      exact absurd rfl (of_decide_eq_true hne)
  | enters hagent _ _ | monitors hagent _ _ _ _ =>
    refine ⟨hi.table, hi.tracks, hi.within, hi.meets, fun other he => ?_, by simp, fun self hself => ?_⟩
    · obtain rfl := Option.some.inj he
      obtain ⟨hpid, hrecorded, hne, hward⟩ := hi.agent _ hagent
      exact ⟨hpid, hrecorded, hne, hward⟩
    · obtain ⟨other, he, hposted, hself⟩ := hi.heirs self hself
      obtain rfl := Option.some.inj (hagent.symm.trans he)
      exact ⟨_, rfl, hposted, hself⟩
  | other hpermits htable =>
    obtain ⟨hheirs, hi'⟩ := hi.other hpermits htable
    rw [hheirs]
    exact hi'

theorem guarded_of_reachable (hs : (system lap server mOrphaned).Reachable s) : s.Guarded mOrphaned := by
  refine hs.invariant (fun s hi => ?_) fun s event t _ hi h => hi.step (steps_of_next h)
  obtain ⟨htable, -, -, ⟨x, hx, hnumber, hself⟩, hrun, hagent, hheirs⟩ := hi
  refine ⟨htable, ⟨?_, fun y hy hy' => ?_⟩, ?_, ?_, ?_, fun _ => ?_, ?_⟩
  · rw [← hself]
    exact (htable.next x hx).1
  · rw [← hnumber, htable.eq_of_self hy hx (hy'.trans hself.symm)]
  · rw [hrun]
    exact ⟨fun _ => ⟨List.suffix_rfl, rfl⟩, Stage.noConfusion⟩
  · rw [hrun]
    exact ⟨rfl, runAgentProcess_outline mOrphaned⟩
  · simp [hagent]
  · rw [hrun]
    rfl
  · simp [hheirs]

theorem Guarded.watched (hi : s.Guarded mOrphaned) (hstage : s.run.stage ≠ .aborted)
    (hwatched : s.run.data.watched ≠ []) : RecordsAgent s.run.data := by
  have hmeets := hi.meets
  unfold Course.Meets at hmeets
  cases he : s.run.stage with
  | working =>
    rw [he] at hmeets
    exact hmeets.2.here.watched hwatched
  | closing =>
    rw [he] at hmeets
    exact hmeets.here.watched hwatched
  | aborted => exact absurd he hstage

/-- The watchers of the watchdog never fail their assertion, and they signal the agent, or
the zombie that is left of it, and nobody else. -/
theorem raiseAgent_reaches (hs : (system lap server mOrphaned).Reachable s) {callback : AgentCallback}
    (h : s.next lap server (.callback callback) = some t) :
    t = s ∧ ∃ agent aSigNum, s.agent = some agent ∧
      callback.raises s.run.data = some (agent.self.pid, aSigNum) ∧ agent.self.pid ≠ 0 ∧
      (∃ x ∈ s.table.processes, x.number = agent.self.pid ∧ x.self = agent.self.self) ∧
      ∀ x ∈ s.table.processes, x.number = agent.self.pid → x.self = agent.self.self := by
  have hi := guarded_of_reachable hs
  obtain ⟨⟨halive, hstage, hwatched⟩, h⟩ := Option.ite_none_right_eq_some.mp h
  have hrecorded := hi.watched hstage (List.ne_nil_of_mem hwatched)
  obtain ⟨aSigNum, hraises⟩ := callback.raises_eq s.run.data
  rw [raiseAgent, if_pos hrecorded.mAgentPid] at hraises
  rw [hraises, Option.isSome_some, if_pos rfl] at h
  have hagent : s.agent ≠ none := fun hnone =>
    hrecorded.mAgentPid (hrecorded.agentPid.symm.trans (hi.unforked hnone))
  obtain ⟨agent, he⟩ := Option.ne_none_iff_exists'.mp hagent
  have htends := hi.agent agent he
  have hpid : s.run.data.mAgentPid = agent.self.pid := hrecorded.agentPid.symm.trans htends.recorded
  obtain ⟨x, hx, hnumber, hself, -⟩ := htends.ward halive hrecorded.reaped
  refine ⟨(Option.some.inj h).symm, agent, aSigNum, he, hpid ▸ hraises, hpid ▸ hrecorded.mAgentPid,
    ⟨x, hx, hnumber, hself⟩, fun y hy hy' => ?_⟩
  rw [hi.table.eq_of_number hy hx (hy'.trans hnumber.symm), hself]

/-- A watchdog as pid 5, with pid 3 for its parent, and how it comes to wait for its agent. -/
def started : AgentWorld where
  table := ⟨[⟨5, 1, some 0, 3, 0, false⟩, ⟨3, 0, none, 3, 0, false⟩], 2⟩
  watchdog := ⟨5, 1⟩
  run := AgentRun.start true
  agent := none
  heirs := []

theorem started_begins : Begins true started := by
  refine ⟨⟨by decide, by decide, ?_, ?_, ?_⟩, ?_, by decide, ⟨_, List.mem_cons_self, rfl, rfl⟩, rfl, rfl, rfl⟩
  · decide
  · decide
  · decide
  · simp [ProcessTable.Parented, ProcessTable.Alive, started]

def thirty : ServerOptions := ⟨true, 30, 30, 30⟩

def waiting : List AgentEvent :=
  [.call .ok, .call (.parent 3 true), .call .ok, .call .ok, .call .ok, .call (.forked 7), .closePipeWriter,
    .call .ok, .call .ok, .call .ok, .call .ok]

theorem raiseAgent_reaches_stopped : ∃ s t, waiting.foldlM (next .monotonic thirty) started = some s ∧
    s.next .monotonic thirty (.callback .raiseAgentStop) = some t ∧ t = s := by
  obtain ⟨s, hs⟩ := Option.isSome_iff_exists.mp
    (show (waiting.foldlM (next .monotonic thirty) started).isSome by decide)
  obtain ⟨t, ht⟩ := Option.isSome_iff_exists.mp (show ((waiting.foldlM (next .monotonic thirty) started).bind
    (next .monotonic thirty · (.callback .raiseAgentStop))).isSome by decide)
  rw [hs, Option.bind_some] at ht
  have hreachable := System.Reachable.of_foldlM (.of_init started_begins) waiting hs
  exact ⟨s, t, hs, ht, (raiseAgent_reaches hreachable ht).1⟩

/-- Once the agent has closed its write end there is none but that of the watchdog. -/
theorem Guarded.hungUp_iff (hi : s.Guarded mOrphaned) (hagent : s.agent = some agent)
    (hposted : agent.posted = true) : s.HungUp ↔ ¬ (s.watchdogAlive ∧ holdsPipe s.run.data = true) := by
  refine and_iff_left fun self hself => ?_
  obtain ⟨other, he, hunposted, -⟩ := hi.heirs self hself
  obtain rfl := Option.some.inj (hagent.symm.trans he)
  rw [hposted] at hunposted
  cases hunposted

theorem table_of_steps (h : Steps lap server s event t) : t.watchdog = s.watchdog ∧ (t.table = s.table ∨
    ∃ a, s.table.act a = some t.table ∧ ∀ parent number, a = .fork parent number → 1 < number) := by
  cases h with
  | call halive htodo hrun hforked htable =>
    rcases callTable_cases htable with rfl | ⟨-, -, hact⟩
    · exact ⟨rfl, .inl rfl⟩
    · exact ⟨rfl, .inr ⟨_, hact, by simp⟩⟩
  | forks halive htodo hrun hpid htable =>
    refine ⟨rfl, .inr ⟨_, htable, fun parent number he => ?_⟩⟩
    obtain ⟨-, rfl⟩ := ProcessAct.fork.inj he
    exact hpid
  | exits halive hparent htable => exact ⟨rfl, .inr ⟨_, htable, by simp⟩⟩
  | other hpermits htable =>
    refine ⟨rfl, .inr ⟨_, htable, fun parent number he => ?_⟩⟩
    subst he
    exact of_decide_eq_true (Bool.and_eq_true_iff.mp hpermits).1
  | callback => split_ifs <;> exact ⟨rfl, .inl rfl⟩
  | _ => exact ⟨rfl, .inl rfl⟩

theorem Guarded.alive_of_step (hi : s.Guarded mOrphaned) (h : Steps lap server s event t)
    (ht : t.watchdogAlive) : s.watchdogAlive := by
  obtain ⟨hwatchdog, htable | ⟨a, hact, -⟩⟩ := table_of_steps h
  · unfold watchdogAlive at ht ⊢
    rwa [hwatchdog, htable] at ht
  · refine ProcessTable.Alive.of_act ?_ hact hi.tracks.1
    rw [← hwatchdog]
    exact ht

/-- The watchdog of an agent opens the parent pipe no more. -/
theorem Guarded.holds_of_step (hi : s.Guarded mOrphaned) (hagent : s.agent ≠ none)
    (h : Steps lap server s event t) (ht : holdsPipe t.run.data = true) : holdsPipe s.run.data = true := by
  have hcall : ∀ {result run}, Course.next AgentCall.perform closeAgentProcess s.run result = some run →
      holdsPipe run.data = true → holdsPipe s.run.data = true := by
    intro result run hrun hholds
    rcases Course.data_of_next hrun with he | ⟨call, calls, ending, htodo, hperform⟩
    · rwa [he] at hholds
    · refine holdsPipe_of_perform hperform (fun hcreate => hagent ?_) hholds
      exact (hi.unforked_of_head (Course.unaborted_of_next hrun) htodo (by rw [hcreate]; rfl)).2
  cases h with
  | call halive htodo hrun hforked htable => exact hcall hrun ht
  | forks halive htodo hrun hpid htable => exact hcall hrun ht
  | returns halive htodo hrun => exact hcall hrun ht
  | callback =>
    split_ifs at ht
    · exact ht
    · exact ht
  | _ => exact ht

/-- What the sentry in the agent has made of the parent pipe. -/
structure Told (lap : LapTime) (server : ServerOptions) (s : AgentWorld) (agent : AgentProcess) (m : ChildRun) :
    Prop where
  posted : agent.posted = true
  reachable : (ChildRun.system lap server).Reachable m
  hears : m.HearsParent
  hungUp : m.cause = some .parent → s.HungUp

/-- A hang-up is for good. -/
theorem Guarded.hungUp_of_step (hi : s.Guarded mOrphaned) (ht : t.Guarded mOrphaned)
    (h : Steps lap server s event t) {agent' : AgentProcess} (hagent : s.agent = some agent)
    (hposted : agent.posted = true) (hagent' : t.agent = some agent') (hposted' : agent'.posted = true)
    (hs : s.HungUp) : t.HungUp := by
  refine (ht.hungUp_iff hagent' hposted').mpr fun ⟨halive, hholds⟩ => ?_
  have hne : s.agent ≠ none := by simp [hagent]
  exact (hi.hungUp_iff hagent hposted).mp hs ⟨hi.alive_of_step h halive, hi.holds_of_step hne h hholds⟩

/-- The agent of a step, unless it has just been forked, is the one before the step. -/
theorem Guarded.agent_of_step (hi : s.Guarded mOrphaned) (h : Steps lap server s event t)
    (hagent : s.agent = some agent) : ∃ agent', t.agent = some agent' ∧ agent'.self = agent.self ∧
      (agent.posted = true → agent'.posted = true) ∧ (agent'.monitor = agent.monitor ∨
        (∃ childPid umbilicalPid tetherFd umbilicalFd parentFd start activity, agent.posted = true ∧
          agent'.monitor = some (.enter lap server childPid umbilicalPid tetherFd umbilicalFd
            (some parentFd) start activity)) ∨
        ∃ event m m', (event.isParent = true → s.HungUp) ∧ agent.monitor = some m ∧
          m.next lap event = some m' ∧ agent'.monitor = some m') := by
  cases h with
  | forks halive htodo hrun hpid htable =>
    rw [(hi.unforked_of_head (Course.unaborted_of_next hrun) htodo rfl).2] at hagent
    cases hagent
  | posts he halive hposted =>
    obtain rfl := Option.some.inj (he.symm.trans hagent)
    exact ⟨_, rfl, rfl, fun _ => rfl, .inl rfl⟩
  | enters he hposted hnone =>
    obtain rfl := Option.some.inj (he.symm.trans hagent)
    exact ⟨_, rfl, rfl, id, .inr (.inl ⟨_, _, _, _, _, _, _, hposted, rfl⟩)⟩
  | monitors he halive hparent hmonitor hnext =>
    obtain rfl := Option.some.inj (he.symm.trans hagent)
    exact ⟨_, rfl, rfl, id, .inr (.inr ⟨_, _, _, hparent, hmonitor, hnext, rfl⟩)⟩
  | callback =>
    split_ifs
    · exact ⟨agent, hagent, rfl, id, .inl rfl⟩
    · exact ⟨agent, hagent, rfl, id, .inl rfl⟩
  | _ => exact ⟨agent, hagent, rfl, id, .inl rfl⟩

theorem unmonitored_of_step (h : Steps lap server s event t) (hnone : s.agent = none) {agent' : AgentProcess}
    (hagent' : t.agent = some agent') : agent'.monitor = none := by
  have hsame : t.agent = s.agent ∨ ∃ self, t.agent = some ⟨self, false, none⟩ := by
    cases h with
    | forks => exact .inr ⟨_, rfl⟩
    | posts he | enters he | monitors he =>
      rw [hnone] at he
      cases he
    | callback =>
      split_ifs
      · exact .inl rfl
      · exact .inl rfl
    | _ => exact .inl rfl
  rcases hsame with he | ⟨self, he⟩
  · rw [he, hnone] at hagent'
    cases hagent'
  · obtain rfl := Option.some.inj (he.symm.trans hagent')
    rfl

theorem told_of_reachable (hsignal : 0 < server.mSignal_s) (hs : (system lap server mOrphaned).Reachable s) :
    ∀ agent m, s.agent = some agent → agent.monitor = some m → s.Told lap server agent m := by
  refine hs.invariant
    (P := fun s => ∀ agent m, s.agent = some agent → agent.monitor = some m → s.Told lap server agent m)
    (fun s hi agent m he => ?_) fun s event t hs hi h agent' m' he' hm' => ?_
  · rw [hi.agent] at he
    cases he
  have hguarded := guarded_of_reachable hs
  have hguarded' := guarded_of_reachable (hs.tail h)
  have hsteps := steps_of_next h
  cases hagent : s.agent with
  | none =>
    rw [unmonitored_of_step hsteps hagent he'] at hm'
    cases hm'
  | some agent =>
    obtain ⟨other, hother, -, hposted, hmonitor⟩ := hguarded.agent_of_step hsteps hagent
    obtain rfl := Option.some.inj (hother.symm.trans he')
    rcases hmonitor with he | ⟨childPid, umbilicalPid, tetherFd, umbilicalFd, parentFd, start, activity,
      hposted', he⟩ | ⟨event, m, m'', hparent, hm, hnext, he⟩
    · rw [he] at hm'
      obtain ⟨hposted', hreachable, hears, hhungUp⟩ := hi agent m' hagent hm'
      exact ⟨hposted hposted', hreachable, hears, fun hcause =>
        hguarded.hungUp_of_step hguarded' hsteps hagent hposted' he' (hposted hposted') (hhungUp hcause)⟩
    · rw [he] at hm'
      obtain rfl := Option.some.inj hm'
      exact ⟨hposted hposted', .of_init ⟨_, _, _, _, _, _, _, rfl⟩, fun _ => rfl, by simp [ChildRun.enter]⟩
    · obtain rfl := Option.some.inj (he.symm.trans hm')
      obtain ⟨hposted', hreachable, hears, hhungUp⟩ := hi agent m hagent hm
      refine ⟨hposted hposted', hreachable.tail hnext, hears.next hreachable hsignal hnext, fun hcause => ?_⟩
      refine hguarded.hungUp_of_step hguarded' hsteps hagent hposted' he' (hposted hposted') ?_
      rcases ChildRun.cause_of_next hreachable hsignal hnext with hsame | ⟨-, hevent⟩
      · exact hhungUp (hsame.symm.trans hcause)
      · refine hparent ?_
        rw [hcause] at hevent
        cases event with
        | parent pollTime => rfl
        | umbilical | timerUmbilical | timerTether => cases hevent
        | _ => cases hevent

/-- Nobody but init has the number of init, which is the parent of orphans. -/
structure Rooted (t : ProcessTable Pid) : Prop where
  parented : t.Parented
  numbers : ∀ x ∈ t.processes, 1 < x.number

theorem rooted_of_reachable (hs : (system lap server mOrphaned).Reachable s) : Rooted s.table := by
  refine hs.invariant (P := fun s => Rooted s.table) ?_ ?_
  · intro s hi
    exact ⟨hi.parented, hi.numbers⟩
  · intro s event t hs hi h
    obtain ⟨-, htable | ⟨a, hact, hfork⟩⟩ := table_of_steps (steps_of_next h)
    · exact htable ▸ hi
    · refine ⟨hi.parented.act (guarded_of_reachable hs).table hact, fun y hy => ?_⟩
      rcases (ProcessTable.acts_of_act hact).origin hy with ⟨x, hx, hkept⟩ | ⟨x, -, he, -⟩
      · rw [hkept.number]
        exact hi.numbers x hx
      · exact hfork _ _ he

theorem Rooted.parentId_iff {x : Process Pid} (ht : Rooted table) (hx : x ∈ table.processes) :
    parentId table x = 1 ↔ x.parent = none := by
  unfold parentId
  cases hparent : x.parent with
  | none => simp
  | some parent =>
    obtain ⟨-, y, hy, hself, -⟩ := ht.parented x hx parent hparent
    have hsome : (table.processes.find? fun y => y.self = parent).isSome :=
      List.find?_isSome.mpr ⟨y, hy, decide_eq_true hself⟩
    obtain ⟨z, hz⟩ := Option.isSome_iff_exists.mp hsome
    have hnumber := ht.numbers z (List.mem_of_find?_eq_some hz)
    simp only [Option.bind_some, hz, Option.elim_some, reduceCtorEq, iff_false]
    intro he
    rw [he] at hnumber
    exact absurd hnumber (by decide)

/-- The parent of the watchdog is gone. -/
def Orphaned (s : AgentWorld) : Prop :=
  ∀ x ∈ s.table.processes, x.self = s.watchdog.self → x.parent = none

instance (s : AgentWorld) : Decidable s.Orphaned := inferInstanceAs (Decidable (∀ x ∈ s.table.processes, _))

/-- The sentry in the agent is terminating its child, or it can hear of its parent and
begins to. -/
def Terminates (lap : LapTime) (server : ServerOptions) (s : AgentWorld) (agent : AgentProcess) : Prop :=
  ∀ m, agent.monitor = some m → m.rc = .ok → s.table.Alive agent.self.self → m.cause ≠ none ∨
    ∀ pollTime, ∃ m', s.next lap server (.monitor (.parent pollTime)) =
        some { s with agent := some { agent with monitor := some m' } } ∧
      m'.rc = .ok ∧ m'.cause = some .parent ∧ m'.monitor.mTimers.termination.mPeriod ≠ 0

theorem Told.terminates (hsignal : 0 < server.mSignal_s) (hagent : s.agent = some agent) (hhungUp : s.HungUp)
    (ht : ∀ m, agent.monitor = some m → s.Told lap server agent m) : s.Terminates lap server agent := by
  intro m hm hok halive
  refine or_iff_not_imp_left.mpr fun hcause pollTime => ?_
  have hcause : m.cause = none := not_not.mp hcause
  have htold := ht m hm
  obtain ⟨m', hnext, hok', hcause', hperiod⟩ :=
    ChildRun.next_parent htold.reachable hsignal htold.hears hok hcause pollTime
  refine ⟨m', ?_, hok', hcause', hperiod⟩
  simp [AgentWorld.next, hagent, halive, hhungUp, hm, hnext]

/-- The agent that runs the sentry finds the parent pipe hung up if and only if the watchdog
is gone, by whatever way, or has given the agent up, and its sentry does not terminate the
child for its parent's sake before. -/
theorem parentPipe_hungUp_iff (hsignal : 0 < server.mSignal_s) (hs : (system lap server mOrphaned).Reachable s)
    (hagent : s.agent = some agent) (hposted : agent.posted = true) :
    (s.run.stage ≠ .aborted → (s.HungUp ↔ ¬ s.watchdogAlive ∨
      s.run.stage = .closing ∧ .closeAgentChildProcess ∉ s.run.todo)) ∧
    ∀ m, agent.monitor = some m → m.cause = some .parent → s.HungUp := by
  have hi := guarded_of_reachable hs
  refine ⟨fun hstage => ?_, fun m hm hcause => (told_of_reachable hsignal hs agent m hagent hm).hungUp hcause⟩
  rw [hi.hungUp_iff hagent hposted, not_and_or, Bool.not_eq_true]
  refine or_congr_right ?_
  have hforked := (hi.agent agent hagent).ne_zero
  have hmeets := hi.meets
  unfold Course.Meets at hmeets
  cases he : s.run.stage with
  | working =>
    rw [he] at hmeets
    simp [hmeets.2.here.pipe hforked]
  | closing =>
    rw [he] at hmeets
    have hcloses : Closes s.run.todo s.run.data := hmeets.here
    by_cases htodo : .closeAgentChildProcess ∈ s.run.todo
    · simp [hcloses.pipe htodo hforked, htodo]
    · simp [hcloses.closed htodo, htodo]
  | aborted => exact absurd he hstage

/-- The watchdog is killed while the agent runs its sentry. -/
def forsaken : List AgentEvent :=
  waiting ++ [.monitorChildProcess 9 8 3 4 6 0 0, .other (.exit 5), .monitor (.parent 1)]

theorem parentPipe_hungUp_forsaken : ∃ s agent m, forsaken.foldlM (next .monotonic thirty) started = some s ∧
    s.agent = some agent ∧ agent.monitor = some m ∧ m.cause = some .parent ∧ s.HungUp := by
  obtain ⟨s, hs⟩ := Option.isSome_iff_exists.mp
    (show (forsaken.foldlM (next .monotonic thirty) started).isSome by decide)
  have htold : ((forsaken.foldlM (next .monotonic thirty) started).bind AgentWorld.agent).any
      (fun agent => agent.posted ∧ agent.monitor.any fun m => m.cause = some .parent) = true := by decide
  rw [hs, Option.bind_some] at htold
  obtain ⟨agent, hagent, htold⟩ := (Option.any_eq_true _ _).mp htold
  obtain ⟨hposted, htold⟩ := of_decide_eq_true htold
  obtain ⟨m, hm, hcause⟩ := (Option.any_eq_true _ _).mp htold
  have hreachable := System.Reachable.of_foldlM (.of_init started_begins) forsaken hs
  exact ⟨s, agent, m, hs, hagent, hm, of_decide_eq_true hcause,
    (parentPipe_hungUp_iff (by decide) hreachable hagent hposted).2 m hm (of_decide_eq_true hcause)⟩

/-- The parent of the watchdog is killed while the agent runs its sentry. -/
def orphaned : List AgentEvent := waiting ++ [.monitorChildProcess 9 8 3 4 6 0 0, .other (.exit 3)]

end AgentWorld

end PidSentry
