import PidSentry.Supervision

/-! What the event loop of the sentry is told of its child and of the umbilical process:
never that either has terminated before it has, and in the end whatever becomes of them. -/

namespace PidSentry

namespace SentryCall

variable {call : SentryCall} {result : CallResult} {d d' : SentryData}

theorem failure_ne_goesOn (call : SentryCall) (d : SentryData) : call.failure d ≠ some .goesOn := by
  cases call with
  | ifRecorded call =>
    unfold failure
    split_ifs
    · simp
    · simp
  | announceSentryPidFile | destroyPidFile =>
    unfold failure
    split_ifs <;> simp
  | _ => simp [failure]

theorem ok_of_goesOn (h : call.perform result d = some (.goesOn, d')) :
    result = .ok ∧ d' = call.effect d ∨
      call = .forkProcessChild ∧
        ∃ childPid, result = .forked childPid ∧ d' = { d with child := .forked childPid } := by
  cases result with
  | ok =>
    refine .inl ⟨rfl, ?_⟩
    cases call <;> first | exact (congrArg Prod.snd (Option.some.inj h)).symm | cases h
  | forked childPid =>
    refine .inr ?_
    by_cases hfork : call = .forkProcessChild
    · subst hfork
      obtain ⟨-, h⟩ := Option.ite_none_right_eq_some.mp h
      exact ⟨rfl, childPid, rfl, (congrArg Prod.snd (Option.some.inj h)).symm⟩
    · cases call <;> first | exact absurd rfl hfork | cases h
  | failed =>
    exfalso
    by_cases hwatch : ∃ watcher, call = .watchJobControl watcher
    · obtain ⟨watcher, rfl⟩ := hwatch
      cases h
    · have hfailure : (call.failure d).map (fun ending => (ending, d)) = some (.goesOn, d') := by
        cases call <;> first | exact h | exact absurd ⟨_, rfl⟩ hwatch
      obtain ⟨ending, hending, he⟩ := Option.map_eq_some_iff.mp hfailure
      cases he
      exact failure_ne_goesOn call d hending

/-- Whether a watcher may be removed. -/
def unwatches : SentryCall → Bool
  | unwatchJobControl _ | closeJobControl | ifRecorded _ => true
  | _ => false

theorem effect_keeps_watched (h : call.unwatches = false) {watcher : Watcher}
    (hwatched : watcher ∈ d.watched) : watcher ∈ (call.effect d).watched := by
  cases call with
  | unwatchJobControl | closeJobControl | ifRecorded => cases h
  | watchJobControl other => exact List.mem_cons_of_mem other hwatched
  | reapProcessChild =>
    unfold effect
    split_ifs <;> exact hwatched
  | _ => exact hwatched

theorem effect_keeps_mUmbilicalProcess (call : SentryCall) (h : d.mUmbilicalProcess = true) :
    (call.effect d).mUmbilicalProcess = true := by
  induction call with
  | createUmbilicalProcess => rfl
  | ifRecorded call ih =>
    unfold effect
    split_ifs
    · exact ih
    · exact h
  | reapProcessChild =>
    unfold effect
    split_ifs <;> exact h
  | _ => exact h

end SentryCall

namespace SentryRun

section order

variable (options : SentryOptions)

theorem forkProcessChild_once :
    .forkProcessChild ∉ callsAfter .forkProcessChild (runAgentSentry options) := by
  rcases options with ⟨⟨⟩, ⟨⟩, ⟨⟩, ⟨⟩, ⟨⟩⟩ <;> decide

theorem recordPid_once : .recordPid ∉ callsAfter .recordPid (runAgentSentry options) ∧
    .superviseChildProcess ∈ callsAfter .recordPid (runAgentSentry options) ∧
    .superviseChildProcess ∉ callsBefore .recordPid (runAgentSentry options) := by
  rcases options with ⟨⟨⟩, ⟨⟩, ⟨⟩, ⟨⟩, ⟨⟩⟩ <;> decide

theorem createUmbilicalProcess_once :
    .createUmbilicalProcess ∉ callsAfter .createUmbilicalProcess (runAgentSentry options) ∧
    .reapSentry ∈ callsAfter .createUmbilicalProcess (runAgentSentry options) ∧
    .reapSentry ∉ callsBefore .createUmbilicalProcess (runAgentSentry options) := by
  rcases options with ⟨⟨⟩, ⟨⟩, ⟨⟩, ⟨⟩, ⟨⟩⟩ <;> decide

theorem monitorChildProcess_once :
    .monitorChildProcess ∉ callsAfter .monitorChildProcess (runAgentSentry options) ∧
    .reapProcessChild ∉ callsBefore .monitorChildProcess (runAgentSentry options) ∧
    ∀ call ∈ callsBefore .monitorChildProcess (runAgentSentry options), call.unwatches = false := by
  rcases options with ⟨⟨⟩, ⟨⟩, ⟨⟩, ⟨⟩, ⟨⟩⟩ <;> decide

theorem forced_once : .superviseChildProcess ∉ callsAfter .superviseChildProcess (runAgentSentry options) ∧
    .monitorChildProcess ∈ callsAfter .superviseChildProcess (runAgentSentry options) ∧
    .monitorChildProcess ∉ callsBefore .superviseChildProcess (runAgentSentry options) ∧
    .reapSentry ∉ callsAfter .reapSentry (runAgentSentry options) ∧
    .monitorChildProcess ∈ callsAfter .reapSentry (runAgentSentry options) ∧
    .monitorChildProcess ∉ callsBefore .reapSentry (runAgentSentry options) := by
  rcases options with ⟨⟨⟩, ⟨⟩, ⟨⟩, ⟨⟩, ⟨⟩⟩ <;> decide

theorem made_once : .monitorChildProcess ∈ callsAfter .recordPid (runAgentSentry options) ∧
    .monitorChildProcess ∉ callsBefore .recordPid (runAgentSentry options) ∧
    .monitorChildProcess ∈ callsAfter .createUmbilicalProcess (runAgentSentry options) ∧
    .monitorChildProcess ∉ callsBefore .createUmbilicalProcess (runAgentSentry options) ∧
    .monitorChildProcess ∈ callsAfter .forkProcessChild (runAgentSentry options) ∧
    .monitorChildProcess ∉ callsBefore .forkProcessChild (runAgentSentry options) := by
  rcases options with ⟨⟨⟩, ⟨⟩, ⟨⟩, ⟨⟩, ⟨⟩⟩ <;> decide

theorem watchJobControl_once :
    .watchJobControl .done ∉ callsAfter (.watchJobControl .done) (runAgentSentry options) ∧
    .recordPid ∈ callsAfter (.watchJobControl .done) (runAgentSentry options) ∧
    .monitorChildProcess ∈ callsAfter (.watchJobControl .done) (runAgentSentry options) ∧
    .monitorChildProcess ∉ callsBefore (.watchJobControl .done) (runAgentSentry options) := by
  rcases options with ⟨⟨⟩, ⟨⟩, ⟨⟩, ⟨⟩, ⟨⟩⟩ <;> decide

end order

variable {options : SentryOptions} {s t : SentryRun} {call : SentryCall} {calls : List SentryCall}
  {result : CallResult}

/-- How a sentry that goes on by a call has made it. -/
theorem goesOn_of_next (h : s.next (.call result) = some t) (hstage : t.stage = .working) :
    ∃ call calls, s.todo = call :: calls ∧ t.todo = calls ∧ s.stage = .working ∧
      (result = .ok ∧ t.data = call.effect s.data ∨ call = .forkProcessChild ∧ ∃ childPid,
        result = .forked childPid ∧ t.data = { s.data with child := .forked childPid }) := by
  cases Course.steps_of_next (show Course.next SentryCall.perform closeSentry s result = some t from h) with
  | returns left data => cases hstage
  | @goesOn call calls left stage data data' hworks hcall =>
    exact ⟨call, calls, rfl, rfl, hstage, SentryCall.ok_of_goesOn hcall⟩
  | fails hcall => cases hstage
  | aborts hworks hcall => cases hstage

theorem suffix_of_reachable (hs : (system options).Reachable s) (hstage : s.stage = .working) :
    s.todo <:+ runAgentSentry options :=
  ((within_of_reachable hs).working hstage).1

/-- The umbilical process is recorded before it is supervised. -/
theorem umbilical_recorded (hs : (system options).Reachable s) (hstage : s.stage = .working) :
    .createUmbilicalProcess ∈ s.todo ∨ s.data.mUmbilicalProcess = true := by
  refine invariant_of_reachable (P := fun s => s.stage = .working →
    .createUmbilicalProcess ∈ s.todo ∨ s.data.mUmbilicalProcess = true)
    (fun _ => .inl ?_) (fun s result t hi h hstage => ?_) hs hstage
  · simp [start, Course.start, runAgentSentry, runSentry]
  · obtain ⟨call, calls, htodo, rfl, hworking, hmade⟩ := goesOn_of_next h hstage
    have hi := hi hworking
    rw [htodo] at hi
    rcases hi with hmem | hrecorded
    · rcases List.mem_cons.mp hmem with rfl | hmem
      · refine .inr ?_
        rw [(hmade.resolve_right fun hfork => SentryCall.noConfusion hfork.1).2]
        rfl
      · exact .inl hmem
    · refine .inr ?_
      rcases hmade with ⟨-, hdata⟩ | ⟨-, childPid, -, hdata⟩
      · rw [hdata]
        exact call.effect_keeps_mUmbilicalProcess hrecorded
      · rw [hdata]
        exact hrecorded

/-- From the time that it is installed `reapSentry_` is called back for as long as there
is `monitorChildProcess` to come. -/
theorem done_watched (hs : (system options).Reachable s) (hstage : s.stage = .working)
    (hmonitor : .monitorChildProcess ∈ s.todo) :
    .watchJobControl .done ∈ s.todo ∨ .done ∈ s.data.watched := by
  have hinv : s.Within (runAgentSentry options) closeSentry ∧
      (s.stage = .working → .monitorChildProcess ∈ s.todo →
        .watchJobControl .done ∈ s.todo ∨ .done ∈ s.data.watched) := by
    refine invariant_of_reachable (P := fun s => s.Within (runAgentSentry options) closeSentry ∧
      (s.stage = .working → .monitorChildProcess ∈ s.todo →
        .watchJobControl .done ∈ s.todo ∨ .done ∈ s.data.watched)) ⟨?_, fun _ _ => .inl ?_⟩ ?_ hs
    · exact within_of_reachable (.of_init rfl)
    · simp [start, Course.start, runAgentSentry, createSentry]
    · rintro s result t ⟨hwithin, hi⟩ h
      refine ⟨hwithin.next h, fun hstage hmonitor => ?_⟩
      obtain ⟨call, calls, htodo, rfl, hworking, hmade⟩ := goesOn_of_next h hstage
      have hsuffix := (hwithin.working hworking).1
      have hi := hi hworking (by rw [htodo]; exact List.mem_cons_of_mem _ hmonitor)
      rw [htodo] at hi hsuffix
      have hkeeps := (monitorChildProcess_once options).2.2 call
        (mem_callsBefore_of_suffix hsuffix (monitorChildProcess_once options).1 hmonitor)
      rcases hi with hmem | hwatched
      · rcases List.mem_cons.mp hmem with rfl | hmem
        · refine .inr ?_
          rw [(hmade.resolve_right fun hfork => SentryCall.noConfusion hfork.1).2]
          exact List.mem_cons_self
        · exact .inl hmem
      · refine .inr ?_
        rcases hmade with ⟨-, hdata⟩ | ⟨-, childPid, -, hdata⟩
        · rw [hdata]
          exact SentryCall.effect_keeps_watched hkeeps hwatched
        · rw [hdata]
          exact hwatched
  exact hinv.2 hstage hmonitor

theorem recordPid_mem (hs : (system options).Reachable s) (hstage : s.stage = .working)
    (hmonitor : .monitorChildProcess ∈ s.todo) (hpid : s.data.mPid = 0) : .recordPid ∈ s.todo := by
  have hwithin := (within_of_reachable hs).working hstage
  rcases done_watched hs hstage hmonitor with hmem | hwatched
  · have hafter := callsAfter_of_suffix hwithin.1 (watchJobControl_once options).1 hmem
    exact hafter.subset (List.mem_cons_of_mem _ (watchJobControl_once options).2.1)
  · have hunmade : s.Unmade .recordPid :=
      ((watched_of_reachable hs (by simp [hstage])).done hwatched).1.mpr hpid
    exact hunmade.resolve_right (by simp [hwithin.2])

end SentryRun

/-- Only the callback of its latch has the event loop take the child for terminated. -/
theorem MonitorRun.mChildLatchDisabled_of_next {lap : LapTime} {mDrain_s : Nat} {m m' : MonitorRun}
    {event : MonitorEvent} (h : m.next lap mDrain_s event = some m') :
    m'.child.monitor.mEvent.mChildLatchDisabled = true ↔
      m.child.monitor.mEvent.mChildLatchDisabled = true ∨ event.latched = some (.child, false) := by
  cases steps_of_next h with
  | @child event child hphase hpermits hchild =>
    obtain ⟨-, rfl⟩ := ChildRun.next_eq_some.mp hchild
    by_cases hreap : ∃ flushed pollTime, event = .reapChild false flushed pollTime
    · obtain ⟨flushed, pollTime, rfl⟩ := hreap
      cases flushed <;> exact iff_of_true rfl (.inr rfl)
    · have hlatched : (MonitorEvent.child event).latched ≠ some (.child, false) := by
        intro he
        cases event with
        | reapChild aEnabled flushed pollTime =>
          cases aEnabled with
          | false => exact hreap ⟨flushed, pollTime, rfl⟩
          | true => cases he
        | _ => cases he
      rw [or_iff_left hlatched]
      by_cases htether : event = .tether
      · subst htether
        exact Iff.rfl
      · have hsame := event.reply_undisturbed lap m.child.monitor m.child.activity htether
          fun flushed pollTime he => hreap ⟨flushed, pollTime, he⟩
        exact (congrArg (· = true) hsame.latch).to_iff
  | _ => simp [MonitorEvent.latched]

namespace Overseen

/-- A report that the event loop has to be told of, as things are. -/
def Tells (self : Overseen) (report : ProcessReport) : Prop :=
  report.suspended = false ∧ (self.terminated = true → report.terminated = true)

/-- The latch has what is owed to the event loop. -/
def Covered (self : Overseen) : Prop :=
  self.latch ≠ .off ∧ (self.terminated = true → self.latch = .disabled)

end Overseen

namespace Supervision

variable {lap : LapTime} {options : SentryOptions} {server : ServerOptions} {mDrain_s : Nat}
  {useReadWrite : Bool} {s t : Supervision} {event : SupervisionEvent}

theorem sentry_of_steps (h : Steps lap server mDrain_s useReadWrite s event t) :
    t.sentry = s.sentry ∨ ∃ result, s.sentry.next (.call result) = some t.sentry := by
  cases h with
  | returns htodo hnext => exact .inr ⟨_, hnext⟩
  | call htodo hpermits hnext => exact .inr ⟨_, hnext⟩
  | _ => exact .inl rfl

theorem sentry_of_reachable (hs : (system lap options server mDrain_s useReadWrite).Reachable s) :
    (SentryRun.system options).Reachable s.sentry := by
  refine System.Reachable.project Supervision.sentry ?_ (fun s event t _ h => ?_) hs
  · rintro s rfl
    rfl
  · rcases sentry_of_steps (steps_of_next h) with he | ⟨result, hnext⟩
    · exact .inl he
    · exact .inr ⟨_, hnext⟩

theorem monitor_of_reachable (hs : (system lap options server mDrain_s useReadWrite).Reachable s)
    {m : MonitorRun} (hm : s.monitor = some m) :
    (MonitorRun.system lap server mDrain_s useReadWrite).Reachable m := by
  refine System.Reachable.invariant (P := fun s => ∀ m, s.monitor = some m →
    (MonitorRun.system lap server mDrain_s useReadWrite).Reachable m) ?_ ?_ hs m hm
  · rintro s rfl m hm
    cases hm
  · intro s event t _ hi h m hm
    cases steps_of_next h with
    | monitorChildProcess hnone =>
      obtain rfl := Option.some.inj hm
      exact .of_init ⟨_, _, _, _, _, _, _, rfl⟩
    | monitor hs hnext _ | told hs hnext _ _ =>
      obtain rfl := Option.some.inj hm
      exact (hi _ hs).tail hnext
    | _ => exact hi m hm

theorem latch_cases (s : Supervision) (ok : Bool) (x : Supervising) : s.latch ok x = s.overseen ∨
    ∃ role report, x = .latching role report ∧ ok = true ∧
      s.latch ok x = Function.update s.overseen role ((s.overseen role).supervised report) := by
  unfold latch
  split
  · split_ifs with hok
    · exact .inr ⟨_, _, rfl, hok, rfl⟩
    · exact .inl rfl
  · exact .inl rfl

@[simp] theorem latch_process (s : Supervision) (ok : Bool) (x : Supervising) (role : Role) :
    (s.latch ok x role).process = (s.overseen role).process := by
  rcases latch_cases s ok x with he | ⟨other, report, -, -, he⟩
  · rw [he]
  · rw [he, Function.update_apply]
    split_ifs with hrole
    · rw [hrole]
      rfl
    · rfl

theorem polled_process {x y : Overseen} {aEnabled : Bool} (h : x.polled aEnabled = some y) :
    y.process = x.process := by
  unfold Overseen.polled at h
  split_ifs at h <;> exact (congrArg Overseen.process (Option.some.inj h)).symm

/-- Until it is forked there is no child to become of anything. -/
theorem unforked_of_reachable (hs : (system lap options server mDrain_s useReadWrite).Reachable s)
    (hstage : s.sentry.stage = .working) (hfork : .forkProcessChild ∈ s.sentry.todo) :
    (s.overseen .child).process = none := by
  refine System.Reachable.invariant (P := fun s => s.sentry.stage = .working →
    .forkProcessChild ∈ s.sentry.todo → (s.overseen .child).process = none) ?_ ?_ hs hstage hfork
  · rintro s rfl _ _
    rfl
  · intro s event t hs hi h hstage hfork
    have hsentry := sentry_of_reachable hs
    cases steps_of_next h with
    | @returns result sentry htodo hnext =>
      obtain ⟨call, calls, hcall, -⟩ := SentryRun.goesOn_of_next hnext hstage
      rw [htodo] at hcall
      cases hcall
    | @call result call calls sentry htodo hpermits hnext =>
      obtain ⟨other, rest, hother, rfl, hworking, -⟩ := SentryRun.goesOn_of_next hnext hstage
      obtain ⟨rfl, rfl⟩ := List.cons.inj (htodo.symm.trans hother)
      have hsuffix := SentryRun.suffix_of_reachable hsentry hworking
      rw [htodo] at hsuffix
      have hne := ne_of_suffix hsuffix (SentryRun.forkProcessChild_once options) hfork
      have hkeep : s.called call result = s.overseen := if_neg fun h => hne h.1
      dsimp only
      rw [hkeep]
      exact hi hworking (by rw [htodo]; exact List.mem_cons_of_mem _ hfork)
    | forkUmbilical hcall hprocess => exact hi hstage hfork
    | supervise hcall hadvance | handle hlive hhandler hadvance => simpa using hi hstage hfork
    | @told event m m' role aEnabled x hm hnext hlatched hx =>
      have hnone := hi hstage hfork
      dsimp only
      rw [Function.update_apply]
      split_ifs with hrole
      · rw [polled_process hx, ← hrole]
        exact hnone
      · exact hnone
    | @becomes role report hprocess halive =>
      have hnone := hi hstage hfork
      dsimp only
      rw [Function.update_apply]
      split_ifs with hrole
      · rw [← hrole] at hprocess
        exact absurd hnone hprocess
      · exact hnone
    | _ => exact hi hstage hfork

/-- A process that has terminated stays as it is. -/
theorem process_of_step (hs : (system lap options server mDrain_s useReadWrite).Reachable s)
    (h : s.next lap server mDrain_s useReadWrite event = some t) {role : Role} {report : ProcessReport}
    (hprocess : (s.overseen role).process = some report) (hterminated : report.terminated = true) :
    (t.overseen role).process = some report := by
  cases steps_of_next h with
  | @call result call calls sentry htodo hpermits hnext =>
    dsimp only
    unfold called
    split_ifs with hfork
    · obtain ⟨rfl, -⟩ := hfork
      have hwithin := SentryRun.within_of_reachable (sentry_of_reachable hs)
      have hnone : (s.overseen .child).process = none := by
        cases hstage : s.sentry.stage with
        | working => exact unforked_of_reachable hs hstage (by rw [htodo]; exact List.mem_cons_self)
        | closing =>
          have hclose := (hwithin.closing hstage).1.subset (by rw [htodo]; exact List.mem_cons_self)
          exact absurd hclose (by decide)
        | aborted =>
          have hcourse : Course.next SentryCall.perform closeSentry s.sentry result = some sentry := hnext
          exact absurd hstage (Course.unaborted_of_next hcourse)
      rw [Function.update_apply]
      split_ifs with hrole
      · rw [hrole, hnone] at hprocess
        cases hprocess
      · exact hprocess
    · exact hprocess
  | forkUmbilical hcall hnone =>
    dsimp only
    rw [Function.update_apply]
    split_ifs with hrole
    · rw [hrole, hnone] at hprocess
      cases hprocess
    · exact hprocess
  | supervise hcall hadvance | handle hlive hhandler hadvance => simpa using hprocess
  | @told event m m' other aEnabled x hm hnext hlatched hx =>
    dsimp only
    rw [Function.update_apply]
    split_ifs with hrole
    · rw [polled_process hx, ← hrole]
      exact hprocess
    · exact hprocess
  | @becomes other report' hthere halive =>
    dsimp only
    rw [Function.update_apply]
    split_ifs with hrole
    · rw [← hrole, Overseen.terminated, hprocess] at halive
      exact absurd hterminated (by simpa using halive)
    · exact hprocess
  | _ => exact hprocess

def Quits (s : Supervision) : Prop :=
  ∃ report, (s.overseen .child).process = some report ∧ report.quits = true

/-- A report of a termination is never wrong. -/
def Reports (s : Supervision) : Supervising → Prop
  | .latching role report => report.terminated = true → (s.overseen role).process = some report
  | .quitting => s.Quits
  | .monitoring _ | .returned _ => True

theorem Reports.advance {ok : Bool} {x y : Supervising} (hx : s.Reports x) (h : s.advance ok x = some y) :
    s.Reports y := by
  cases x with
  | monitoring role =>
    simp only [Supervision.advance] at h
    split_ifs at h with hok hrecorded
    · obtain rfl := Option.some.inj h
      exact trivial
    · obtain ⟨report, hprocess, rfl⟩ := Option.map_eq_some_iff.mp h
      exact fun _ => hprocess
  | latching role report =>
    simp only [Supervision.advance] at h
    split_ifs at h with hok hrole hquits
    · obtain rfl := Option.some.inj h
      exact trivial
    · obtain rfl := Option.some.inj h
      exact trivial
    · obtain rfl := Option.some.inj h
      have hchild : role = .child := by
        cases role with
        | umbilical => exact absurd rfl hrole
        | child => rfl
      subst hchild
      exact ⟨report, hx (ProcessReport.terminated_of_quits hquits), hquits⟩
    · obtain rfl := Option.some.inj h
      exact trivial
  | quitting | returned => cases h

theorem Quits.keep (hs : (system lap options server mDrain_s useReadWrite).Reachable s)
    (h : s.next lap server mDrain_s useReadWrite event = some t) (hi : s.Quits) : t.Quits := by
  obtain ⟨report, hprocess, hquits⟩ := hi
  exact ⟨report, process_of_step hs h hprocess (ProcessReport.terminated_of_quits hquits), hquits⟩

theorem Reports.keep (hs : (system lap options server mDrain_s useReadWrite).Reachable s)
    (h : s.next lap server mDrain_s useReadWrite event = some t) {x : Supervising} (hi : s.Reports x) :
    t.Reports x := by
  cases x with
  | latching role report =>
    exact fun hterminated => process_of_step hs h (hi hterminated) hterminated
  | quitting => exact Quits.keep hs h hi
  | monitoring | returned => exact trivial

theorem terminated_of_step (hs : (system lap options server mDrain_s useReadWrite).Reachable s)
    (h : s.next lap server mDrain_s useReadWrite event = some t) {role : Role}
    (hi : (s.overseen role).terminated = true) : (t.overseen role).terminated = true := by
  obtain ⟨report, hprocess, hterminated⟩ := Overseen.terminated_iff.mp hi
  exact Overseen.terminated_iff.mpr ⟨report, process_of_step hs h hprocess hterminated, hterminated⟩

/-- What the sentry takes for terminated has terminated. -/
structure Truthful (s : Supervision) : Prop where
  latch : ∀ role, (s.overseen role).latch = .disabled → (s.overseen role).terminated = true
  handler : ∀ x, s.handler = some x → s.Reports x
  call : ∀ x, s.call = some x → s.Reports x
  quit : s.quit = true → s.Quits
  told : ∀ m, s.monitor = some m → m.child.monitor.mEvent.mChildLatchDisabled = true →
    (s.overseen .child).terminated = true
  passed : s.sentry.stage = .working → .monitorChildProcess ∉ s.sentry.todo →
    (s.overseen .child).terminated = true

theorem start_truthful (options : SentryOptions) : (start options).Truthful := by
  refine ⟨fun role h => ?_, fun x h => ?_, fun x h => ?_, fun h => ?_, fun m h => ?_, fun _ hpassed => ?_⟩
  · cases h
  · cases h
  · cases h
  · cases h
  · cases h
  · refine absurd ?_ hpassed
    simp [start, SentryRun.start, Course.start, runAgentSentry, runSentry]

theorem latch_disabled {ok : Bool} {x : Supervising} (hx : s.Reports x) {role : Role}
    (h : (s.latch ok x role).latch = .disabled) :
    (s.overseen role).latch = .disabled ∨ (s.overseen role).terminated = true := by
  rcases latch_cases s ok x with he | ⟨other, report, rfl, -, he⟩
  · rw [he] at h
    exact .inl h
  · rw [he, Function.update_apply] at h
    split_ifs at h with hrole
    · subst hrole
      refine (LatchSetting.supervised_eq_disabled h).imp_right fun hterminated => ?_
      exact Overseen.terminated_iff.mpr ⟨report, hx hterminated, hterminated⟩
    · exact .inl h

theorem polled_disabled {x y : Overseen} {aEnabled : Bool} (h : x.polled aEnabled = some y) :
    (y.latch = .disabled → x.latch = .disabled) ∧ (aEnabled = false → x.latch = .disabled) := by
  unfold Overseen.polled at h
  split_ifs at h with henabled hon hdisabled
  · obtain rfl := Option.some.inj h
    refine ⟨fun hlatch => ?_, fun hfalse => ?_⟩
    · cases hlatch
    · rw [henabled] at hfalse
      cases hfalse
  · exact ⟨fun _ => hdisabled, fun _ => hdisabled⟩

theorem Truthful.latched (hi : s.Truthful) (hs : (system lap options server mDrain_s useReadWrite).Reachable s)
    (h : s.next lap server mDrain_s useReadWrite event = some t) {role : Role}
    (hlatch : (s.overseen role).latch = .disabled ∨ (s.overseen role).terminated = true) :
    (t.overseen role).terminated = true :=
  terminated_of_step hs h (hlatch.elim (hi.latch role) id)

theorem latch_of_steps (hi : s.Truthful) (h : Steps lap server mDrain_s useReadWrite s event t)
    {role : Role} (hlatch : (t.overseen role).latch = .disabled) :
    (s.overseen role).latch = .disabled ∨ (s.overseen role).terminated = true := by
  cases h with
  | call htodo hpermits hnext =>
    refine .inl (hlatch.symm.trans ?_).symm
    dsimp only
    unfold called
    split_ifs with hfork
    · rw [Function.update_apply]
      split_ifs with hrole
      · rw [hrole]
        rfl
      · rfl
    · rfl
  | forkUmbilical hcall hnone =>
    refine .inl (hlatch.symm.trans ?_).symm
    dsimp only
    rw [Function.update_apply]
    split_ifs with hrole
    · rw [hrole]
      rfl
    · rfl
  | supervise hcall hadvance => exact latch_disabled (hi.call _ hcall) hlatch
  | handle hlive hhandler hadvance => exact latch_disabled (hi.handler _ hhandler) hlatch
  | @told event m m' other aEnabled x hm hnext hlatched hx =>
    dsimp only at hlatch
    rw [Function.update_apply] at hlatch
    split_ifs at hlatch with hrole
    · rw [hrole]
      exact .inl ((polled_disabled hx).1 hlatch)
    · exact .inl hlatch
  | @becomes other report hthere halive =>
    refine .inl (hlatch.symm.trans ?_).symm
    dsimp only
    rw [Function.update_apply]
    split_ifs with hrole
    · rw [hrole]
      rfl
    · rfl
  | _ => exact .inl hlatch

theorem pending_eq_some {x y : Supervising} (h : x.pending = some y) : x = y := by
  cases x with
  | returned ok => cases h
  | monitoring | latching | quitting => exact Option.some.inj h

theorem Truthful.step (hi : s.Truthful) (hs : (system lap options server mDrain_s useReadWrite).Reachable s)
    (h : s.next lap server mDrain_s useReadWrite event = some t) : t.Truthful := by
  have hsteps := steps_of_next h
  refine ⟨fun role hlatch => hi.latched hs h (latch_of_steps hi hsteps hlatch), fun x hx => ?_,
    fun x hx => ?_, fun hquit => ?_, fun m hm hlatch => ?_, fun hstage hpassed => ?_⟩
  · refine Reports.keep hs h ?_
    cases hsteps with
    | sigchld hlive hhandler hwatched =>
      obtain rfl := Option.some.inj hx
      exact trivial
    | handle hlive hhandler hadvance =>
      obtain rfl := pending_eq_some hx
      exact (hi.handler _ hhandler).advance hadvance
    | _ => exact hi.handler x hx
  · refine Reports.keep hs h ?_
    cases hsteps with
    | call htodo hpermits hnext => cases hx
    | @enter call y hcall hhead hy =>
      obtain rfl := Option.some.inj hx
      unfold supervising at hy
      split at hy
      · obtain rfl := Option.some.inj hy
        exact trivial
      · obtain rfl := Option.some.inj hy
        exact trivial
      · cases hy
    | supervise hcall hadvance =>
      obtain rfl := Option.some.inj hx
      exact (hi.call _ hcall).advance hadvance
    | _ => exact hi.call x hx
  · refine Quits.keep hs h ?_
    cases hsteps with
    | quitProcess hquitting => exact hquitting.elim (hi.handler .quitting) (hi.call .quitting)
    | _ => exact hi.quit hquit
  · cases hsteps with
    | monitorChildProcess hnone =>
      obtain rfl := Option.some.inj hm
      cases hlatch
    | monitor hmonitor hnext hlatched =>
      obtain rfl := Option.some.inj hm
      refine terminated_of_step hs h (hi.told _ hmonitor ?_)
      refine ((MonitorRun.mChildLatchDisabled_of_next hnext).mp hlatch).resolve_right fun he => ?_
      rw [hlatched] at he
      cases he
    | told hmonitor hnext hlatched hpolled =>
      obtain rfl := Option.some.inj hm
      rcases (MonitorRun.mChildLatchDisabled_of_next hnext).mp hlatch with hbefore | he
      · exact terminated_of_step hs h (hi.told _ hmonitor hbefore)
      · rw [hlatched] at he
        cases he
        exact hi.latched hs h (.inl ((polled_disabled hpolled).2 rfl))
    | _ => exact terminated_of_step hs h (hi.told m hm hlatch)
  · refine terminated_of_step hs h ?_
    cases hsteps with
    | returns htodo hnext =>
      obtain ⟨call, calls, hcall, -⟩ := SentryRun.goesOn_of_next hnext hstage
      rw [htodo] at hcall
      cases hcall
    | @call result call calls sentry htodo hpermits hnext =>
      obtain ⟨other, rest, hother, hrest, hworking, hmade⟩ := SentryRun.goesOn_of_next hnext hstage
      obtain ⟨rfl, rfl⟩ := List.cons.inj (htodo.symm.trans hother)
      by_cases hcall : call = .monitorChildProcess
      · subst hcall
        obtain ⟨rfl, -⟩ := hmade.resolve_right fun hfork => SentryCall.noConfusion hfork.1
        obtain ⟨m, hm, hphase⟩ := Option.map_eq_some_iff.mp (hpermits.monitors rfl)
        have hsound := MonitorRun.sound_of_reachable (monitor_of_reachable hs hm)
        have hcompletion := (hsound.flushes.left (.inr (.inr hphase))).2
        exact hi.told m hm (Bool.and_eq_true_iff.mp hcompletion).1
      · refine hi.passed hworking fun hmem => ?_
        rw [htodo] at hmem
        dsimp only at hpassed
        rw [hrest] at hpassed
        exact hpassed ((List.mem_cons.mp hmem).resolve_left (Ne.symm hcall))
    | _ => exact hi.passed hstage hpassed

theorem truthful_of_reachable (hs : (system lap options server mDrain_s useReadWrite).Reachable s) :
    s.Truthful := by
  refine System.Reachable.invariant (P := Truthful) ?_ (fun s event t hs hi h => hi.step hs h) hs
  rintro s rfl
  exact start_truthful options

/-- A supervision that will still come to the latch of a process with how it is. -/
def Minds (s : Supervision) (role : Role) : Supervising → Prop
  | .monitoring other => other = role ∨ role = .child
  | .latching other report =>
    other = role ∧ (s.overseen role).Tells report ∨ other = .umbilical ∧ role = .child
  | .quitting | .returned _ => False

/-- The supervision that the sentry is to make for the sake of a process that it has just
recorded. -/
def forcedBy : Role → SentryCall
  | .child => .superviseChildProcess
  | .umbilical => .reapSentry

def Forced (s : Supervision) (role : Role) : Prop :=
  forcedBy role ∈ s.sentry.todo ∧ (s.sentry.todo.head? = some (forcedBy role) → s.call = none)

/-- What keeps that which is owed to the event loop from being lost. -/
inductive Due (s : Supervision) (role : Role) : Prop
  | pending (h : s.sigchld = true)
  | handler {x : Supervising} (hx : s.handler = some x) (h : s.Minds role x)
  | call {x : Supervising} (hx : s.call = some x) (h : s.Minds role x)
  | latch (h : (s.overseen role).Covered)
  | forced (h : s.Forced role)

theorem Minds.congr {role : Role} {x : Supervising} (h : s.Minds role x)
    (hsame : (t.overseen role).terminated = (s.overseen role).terminated) : t.Minds role x := by
  cases x with
  | latching other report =>
    refine h.imp_left fun ⟨hrole, hsuspended, hterminated⟩ => ⟨hrole, hsuspended, fun ht => ?_⟩
    exact hterminated (hsame.symm.trans ht)
  | monitoring | quitting | returned => exact h

@[simp] theorem latch_terminated (s : Supervision) (ok : Bool) (x : Supervising) (role : Role) :
    (s.latch ok x role).terminated = (s.overseen role).terminated := by
  simp [Overseen.terminated]

theorem covered_latch {role : Role} (h : (s.overseen role).Covered) (ok : Bool) (x : Supervising) :
    (s.latch ok x role).Covered := by
  refine ⟨?_, fun hterminated => ?_⟩
  · rcases latch_cases s ok x with he | ⟨other, report, -, -, he⟩
    · rw [he]
      exact h.1
    · rw [he, Function.update_apply]
      split_ifs with hrole
      · rw [← hrole]
        exact LatchSetting.supervised_ne_off (.inl h.1)
      · exact h.1
  · rw [latch_terminated] at hterminated
    have hdisabled := h.2 hterminated
    rcases latch_cases s ok x with he | ⟨other, report, -, -, he⟩
    · rw [he]
      exact hdisabled
    · rw [he, Function.update_apply]
      split_ifs with hrole
      · rw [← hrole]
        show (s.overseen role).latch.supervised report = .disabled
        rw [hdisabled]
        exact LatchSetting.supervised_disabled report
      · exact hdisabled

/-- A supervision that minds a process goes on to mind it, or has set the latch. -/
theorem Minds.advance {role : Role} {x y : Supervising} (hx : s.Minds role x)
    (h : s.advance true x = some y)
    (hsuspended : ∀ report, (s.overseen role).process = some report → report.suspended = false) :
    s.Minds role y ∨ (s.latch true x role).Covered := by
  cases x with
  | monitoring other =>
    obtain ⟨-, h⟩ := Option.ite_none_right_eq_some.mp h
    obtain ⟨report, hprocess, rfl⟩ := Option.map_eq_some_iff.mp h
    by_cases hrole : other = role
    · subst hrole
      refine .inl (.inl ⟨rfl, hsuspended report hprocess, fun hterminated => ?_⟩)
      obtain ⟨report', hprocess', hterminated⟩ := Overseen.terminated_iff.mp hterminated
      obtain rfl := Option.some.inj (hprocess.symm.trans hprocess')
      exact hterminated
    · have hchild : role = .child := hx.resolve_left hrole
      refine .inl (.inr ⟨?_, hchild⟩)
      cases other with
      | umbilical => rfl
      | child => exact absurd hchild.symm hrole
  | latching other report =>
    rcases hx with ⟨rfl, hreport, hterminated⟩ | ⟨rfl, rfl⟩
    · refine .inr ?_
      have he : s.latch true (.latching other report) other = (s.overseen other).supervised report := by
        simp [Supervision.latch]
      rw [he]
      refine ⟨LatchSetting.supervised_ne_off (.inr hreport), fun ht => ?_⟩
      exact LatchSetting.supervised_of_terminated _ (hterminated ht)
    · obtain rfl := Option.some.inj h
      exact .inl (.inr rfl)
  | quitting | returned => exact hx.elim

theorem call_of_reachable (hs : (system lap options server mDrain_s useReadWrite).Reachable s)
    (hcall : s.call ≠ none) : s.sentry.todo.head? = some .superviseChildProcess ∨
      s.sentry.todo.head? = some .reapSentry := by
  refine System.Reachable.invariant (P := fun s => s.call ≠ none →
    s.sentry.todo.head? = some .superviseChildProcess ∨ s.sentry.todo.head? = some .reapSentry)
    ?_ (fun s event t _ hi h hcall => ?_) hs hcall
  · rintro s rfl h
    exact absurd rfl h
  · cases steps_of_next h with
    | @returns result sentry htodo hnext =>
      have hhead := hi hcall
      rw [htodo] at hhead
      rcases hhead with hhead | hhead <;> cases hhead
    | call htodo hpermits hnext => exact absurd rfl hcall
    | @enter call x hnone hhead hx =>
      unfold supervising at hx
      split at hx
      · exact .inl hhead
      · exact .inr hhead
      · cases hx
    | supervise hsome hadvance => exact hi (by rw [hsome]; exact Option.some_ne_none _)
    | _ => exact hi hcall

@[simp] theorem latch_owed (s : Supervision) (ok : Bool) (x : Supervising) (role : Role) :
    (s.latch ok x role).owed = (s.overseen role).owed := by
  rcases latch_cases s ok x with he | ⟨other, report, -, -, he⟩
  · rw [he]
  · rw [he, Function.update_apply]
    split_ifs with hrole
    · rw [hrole]
      rfl
    · rfl

theorem polled_owed {x y : Overseen} {aEnabled : Bool} (h : x.polled aEnabled = some y)
    (howed : y.owed = true) : x.owed = true ∧ y.terminated = true ∧ x.latch = .on := by
  unfold Overseen.polled at h
  split_ifs at h with henabled hon hdisabled
  · obtain rfl := Option.some.inj h
    obtain ⟨howed, hterminated⟩ := Bool.and_eq_true_iff.mp howed
    exact ⟨howed, hterminated, hon⟩
  · obtain rfl := Option.some.inj h
    cases howed

theorem unsuspended_of_reachable (hs : (system lap options server mDrain_s useReadWrite).Reachable s)
    {role : Role} (howed : (s.overseen role).owed = true) (report : ProcessReport)
    (hprocess : (s.overseen role).process = some report) : report.suspended = false := by
  have hrunning : ∀ {x : Overseen} {report : ProcessReport}, x.forked.process = some report →
      report.suspended = false := by
    intro x report h
    obtain rfl := Option.some.inj h
    rfl
  refine System.Reachable.invariant (P := fun s => ∀ role report, (s.overseen role).owed = true →
    (s.overseen role).process = some report → report.suspended = false) ?_
    (fun s event t _ hi h role report howed hprocess => ?_) hs role report howed hprocess
  · rintro s rfl role report howed
    cases howed
  · cases steps_of_next h with
    | @call result call calls sentry htodo hpermits hnext =>
      dsimp only at howed hprocess
      unfold called at howed hprocess
      split_ifs at howed hprocess with hfork
      · rw [Function.update_apply] at howed hprocess
        split_ifs at howed hprocess with hrole
        · exact hrunning hprocess
        · exact hi role report howed hprocess
      · exact hi role report howed hprocess
    | forkUmbilical hcall hnone =>
      dsimp only at howed hprocess
      rw [Function.update_apply] at howed hprocess
      split_ifs at howed hprocess with hrole
      · exact hrunning hprocess
      · exact hi role report howed hprocess
    | supervise hcall hadvance | handle hlive hhandler hadvance =>
      exact hi role report (by simpa using howed) (by simpa using hprocess)
    | @told event m m' other aEnabled x hm hnext hlatched hx =>
      dsimp only at howed hprocess
      rw [Function.update_apply] at howed hprocess
      split_ifs at howed hprocess with hrole
      · subst hrole
        rw [polled_process hx] at hprocess
        exact hi role report (polled_owed hx howed).1 hprocess
      · exact hi role report howed hprocess
    | @becomes other report' hthere halive =>
      dsimp only at howed hprocess
      rw [Function.update_apply] at howed hprocess
      split_ifs at howed hprocess with hrole
      · obtain rfl := Option.some.inj hprocess
        simpa [Overseen.becomes] using howed
      · exact hi role report howed hprocess
    | _ => exact hi role report howed hprocess

theorem forced_child (hs : (system lap options server mDrain_s useReadWrite).Reachable s)
    (hstage : s.sentry.stage = .working) (hmonitor : .monitorChildProcess ∈ s.sentry.todo)
    (hpid : s.sentry.data.mPid = 0) : s.Forced .child := by
  have hsentry := sentry_of_reachable hs
  obtain ⟨honce, hafter, hbefore⟩ := SentryRun.recordPid_once options
  have hlater := later_of_suffix (SentryRun.suffix_of_reachable hsentry hstage) honce
    (SentryRun.recordPid_mem hsentry hstage hmonitor hpid) hafter hbefore
  exact ⟨hlater.1, fun hhead => absurd hhead hlater.2⟩

theorem forced_umbilical (hs : (system lap options server mDrain_s useReadWrite).Reachable s)
    (hstage : s.sentry.stage = .working) (hnone : s.sentry.data.mUmbilicalProcess = false) :
    s.Forced .umbilical ∧ s.sentry.todo.head? ≠ some .reapSentry := by
  have hsentry := sentry_of_reachable hs
  obtain ⟨honce, hafter, hbefore⟩ := SentryRun.createUmbilicalProcess_once options
  have hmem := (SentryRun.umbilical_recorded hsentry hstage).resolve_right (by simp [hnone])
  have hlater := later_of_suffix (SentryRun.suffix_of_reachable hsentry hstage) honce hmem hafter hbefore
  exact ⟨⟨hlater.1, fun hhead => absurd hhead hlater.2⟩, hlater.2⟩

/-- Until `monitorChildProcess` returns, whatever is owed to its event loop is due. -/
def Owes (s : Supervision) : Prop :=
  s.sentry.stage = .working → .monitorChildProcess ∈ s.sentry.todo → s.call ≠ some (.returned false) →
    ∀ role, (s.overseen role).owed = true → s.Due role

theorem reapSentry_minds {role : Role}
    (hrecorded : role = .umbilical → s.sentry.data.mUmbilicalProcess = true) : s.Minds role s.reapSentry := by
  cases role with
  | child => exact .inr rfl
  | umbilical =>
    refine .inl ?_
    simp [recorded, hrecorded rfl]

theorem advance_false {x y : Supervising} (h : s.advance false x = some y) : y = .returned false := by
  cases x with
  | monitoring role | latching role report => exact (Option.some.inj h).symm
  | quitting | returned ok => cases h

/-- A process that is forked leaves all else as it is. -/
theorem forked_congr (s : Supervision) {other : Role} (hnone : (s.overseen other).process = none)
    (role : Role) :
    (Function.update s.overseen other (s.overseen other).forked role).latch = (s.overseen role).latch ∧
      (Function.update s.overseen other (s.overseen other).forked role).owed = (s.overseen role).owed ∧
      (Function.update s.overseen other (s.overseen other).forked role).terminated =
        (s.overseen role).terminated := by
  rw [Function.update_apply]
  split_ifs with hrole
  · subst hrole
    refine ⟨rfl, rfl, ?_⟩
    simp [Overseen.terminated, hnone, Overseen.forked, ProcessReport.terminated, ProcessReport.running]
  · exact ⟨rfl, rfl, rfl⟩

theorem called_congr (s : Supervision) {call : SentryCall} (result : CallResult)
    (hfork : call = .forkProcessChild → (s.overseen .child).process = none) (role : Role) :
    (s.called call result role).latch = (s.overseen role).latch ∧
      (s.called call result role).owed = (s.overseen role).owed ∧
      (s.called call result role).terminated = (s.overseen role).terminated := by
  unfold called
  split_ifs with h
  · exact forked_congr s (hfork h.1) role
  · exact ⟨rfl, rfl, rfl⟩

/-- What is due depends on no more than this. -/
theorem Due.congr {role : Role} (hi : s.Due role) (hsentry : t.sentry = s.sentry)
    (hsigchld : t.sigchld = s.sigchld) (hhandler : t.handler = s.handler) (hcall : t.call = s.call)
    (hlatch : (t.overseen role).latch = (s.overseen role).latch)
    (hterminated : (t.overseen role).terminated = (s.overseen role).terminated) : t.Due role := by
  cases hi with
  | pending h => exact .pending (hsigchld.trans h)
  | handler hx h => exact .handler (hhandler.trans hx) (h.congr hterminated)
  | call hx h => exact .call (hcall.trans hx) (h.congr hterminated)
  | latch h =>
    refine .latch ⟨fun hoff => h.1 (hlatch.symm.trans hoff), fun ht => ?_⟩
    exact hlatch.trans (h.2 (hterminated.symm.trans ht))
  | forced h =>
    refine .forced ?_
    unfold Forced
    rw [hsentry, hcall]
    exact h

theorem Due.call_step {role : Role} (hi : s.Due role) {result : CallResult} {call : SentryCall}
    {calls : List SentryCall} {sentry : SentryRun} (htodo : s.sentry.todo = call :: calls)
    (hcalls : sentry.todo = calls) (hpermits : s.Permits call result)
    (hfork : call = .forkProcessChild → (s.overseen .child).process = none)
    (hcall : s.call ≠ none → call = .superviseChildProcess ∨ call = .reapSentry) :
    Due { s with sentry, overseen := s.called call result, call := none } role := by
  obtain ⟨hlatch, -, hterminated⟩ := called_congr s result hfork role
  cases hi with
  | pending h => exact .pending h
  | handler hx h => exact .handler hx (h.congr hterminated)
  | call hx h =>
    have hreturned := hpermits.supervises (hcall (by rw [hx]; exact Option.some_ne_none _))
    obtain rfl := Option.some.inj (hx.symm.trans hreturned)
    exact h.elim
  | latch h =>
    refine .latch ⟨fun hoff => h.1 (hlatch.symm.trans hoff), fun ht => ?_⟩
    exact hlatch.trans (h.2 (hterminated.symm.trans ht))
  | forced h =>
    obtain ⟨hmem, hhead⟩ := h
    have hne : forcedBy role ≠ call := by
      rintro rfl
      have hnone := hhead (by rw [htodo]; rfl)
      have hreturned := hpermits.supervises (by cases role <;> simp [forcedBy])
      rw [hnone] at hreturned
      cases hreturned
    rw [htodo] at hmem
    refine .forced ⟨?_, fun _ => rfl⟩
    rw [← hcalls] at hmem
    exact (List.mem_cons.mp hmem).resolve_left hne

theorem Due.enter_step {role : Role} (hi : s.Due role)
    (hs : (system lap options server mDrain_s useReadWrite).Reachable s) (hstage : s.sentry.stage = .working)
    {call : SentryCall} {x : Supervising} (hnone : s.call = none) (hhead : s.sentry.todo.head? = some call)
    (hx : s.supervising call = some x) : Due { s with call := some x } role := by
  cases hi with
  | pending h => exact .pending h
  | handler hy h => exact .handler hy (h.congr rfl)
  | call hy h =>
    rw [hnone] at hy
    cases hy
  | latch h => exact .latch h
  | forced h =>
    by_cases hforced : call = forcedBy role
    · refine .call rfl (Minds.congr (s := s) ?_ rfl)
      cases role with
      | child =>
        subst hforced
        obtain rfl := Option.some.inj hx
        exact .inl rfl
      | umbilical =>
        subst hforced
        obtain rfl := Option.some.inj hx
        refine reapSentry_minds fun _ => ?_
        by_contra hrecorded
        exact (forced_umbilical hs hstage (by simpa using hrecorded)).2 hhead
    · refine .forced ⟨h.1, fun he => absurd (Option.some.inj (hhead.symm.trans he)) hforced⟩

/-- A supervision under way keeps what it minds, and leaves all else due. -/
theorem Due.latch_step {role : Role} (hi : s.Due role) (ok : Bool) (x : Supervising) {t : Supervision}
    (hsentry : t.sentry = s.sentry) (hsigchld : t.sigchld = s.sigchld) (hoverseen : t.overseen = s.latch ok x)
    (hhandler : ∀ y, s.handler = some y → s.Minds role y → t.handler = some y ∨ t.Due role)
    (hcall : ∀ y, s.call = some y → s.Minds role y → t.call = some y ∨ t.Due role)
    (hnone : s.call = none → t.call = none) : t.Due role := by
  have hsame : (t.overseen role).terminated = (s.overseen role).terminated := by simp [hoverseen]
  cases hi with
  | pending h => exact .pending (hsigchld.trans h)
  | handler hy h => exact (hhandler _ hy h).elim (fun hy => .handler hy (h.congr hsame)) id
  | call hy h => exact (hcall _ hy h).elim (fun hy => .call hy (h.congr hsame)) id
  | latch h =>
    refine .latch ?_
    rw [hoverseen]
    exact covered_latch h ok x
  | forced h =>
    refine .forced ⟨?_, fun hhead => hnone (h.2 ?_)⟩
    · rw [hsentry]
      exact h.1
    · rw [← hsentry]
      exact hhead

theorem Owes.step (hi : s.Owes) (hs : (system lap options server mDrain_s useReadWrite).Reachable s)
    (hreliable : s.Reliable event) (h : s.next lap server mDrain_s useReadWrite event = some t) :
    t.Owes := by
  intro hstage hmonitor hcall role howed
  have hsuspended : (s.overseen role).owed = true → ∀ report, (s.overseen role).process = some report →
      report.suspended = false := unsuspended_of_reachable hs
  cases steps_of_next h with
  | returns htodo hnext =>
    obtain ⟨call, calls, hcalls, -⟩ := SentryRun.goesOn_of_next hnext hstage
    rw [htodo] at hcalls
    cases hcalls
  | @call result call calls sentry htodo hpermits hnext =>
    obtain ⟨other, rest, hother, hrest, hworking, hmade⟩ := SentryRun.goesOn_of_next hnext hstage
    obtain ⟨rfl, rfl⟩ := List.cons.inj (htodo.symm.trans hother)
    have hfork : call = .forkProcessChild → (s.overseen .child).process = none := by
      rintro rfl
      exact unforked_of_reachable hs hworking (by rw [htodo]; exact List.mem_cons_self)
    have hsupervises : s.call ≠ none → call = .superviseChildProcess ∨ call = .reapSentry := by
      intro hne
      simpa [htodo] using call_of_reachable hs hne
    have hmonitor' : .monitorChildProcess ∈ s.sentry.todo := by
      rw [htodo, ← hrest]
      exact List.mem_cons_of_mem call hmonitor
    have hreturned : s.call ≠ some (.returned false) := by
      intro hfalse
      have hpermitted := hpermits.supervises (hsupervises (by rw [hfalse]; exact Option.some_ne_none _))
      have hok : result = .ok := by
        refine (hmade.resolve_right fun h => ?_).1
        rcases hsupervises (by rw [hfalse]; exact Option.some_ne_none _) with he | he <;>
          rw [he] at h <;> exact SentryCall.noConfusion h.1
      rw [hfalse] at hpermitted
      simp [hok] at hpermitted
    have hdue := hi hworking hmonitor' hreturned role
      ((called_congr s result hfork role).2.1.symm.trans howed)
    exact hdue.call_step htodo hrest hpermits hfork hsupervises
  | forkUmbilical hat hnone =>
    obtain ⟨hlatch, howed', hterminated⟩ := forked_congr s hnone role
    exact (hi hstage hmonitor hcall role (howed'.symm.trans howed)).congr rfl rfl rfl rfl hlatch hterminated
  | @enter call x hnone hhead hx =>
    exact (hi hstage hmonitor (by rw [hnone]; exact nofun) role howed).enter_step hs hstage hnone hhead hx
  | @supervise ok x y hx hadvance =>
    cases ok with
    | false =>
      obtain rfl := advance_false hadvance
      exact absurd rfl hcall
    | true =>
      rw [latch_owed] at howed
      have hreturned : s.call ≠ some (.returned false) := by
        rw [hx]
        rintro he
        obtain rfl := Option.some.inj he
        cases hadvance
      refine (hi hstage hmonitor hreturned role howed).latch_step true x rfl rfl rfl
        (fun z hz _ => .inl hz) (fun z hz hminds => .inr ?_) fun hnone => ?_
      · obtain rfl := Option.some.inj (hx.symm.trans hz)
        rcases hminds.advance hadvance (fun report => hsuspended howed report) with hnext | hcovered
        · exact .call rfl (hnext.congr (latch_terminated s true x role))
        · exact .latch hcovered
      · rw [hnone] at hx
        cases hx
  | sigchld hlive hhandler hwatched =>
    cases role with
    | child => exact .handler rfl (Minds.congr (s := s) (reapSentry_minds nofun) rfl)
    | umbilical =>
      cases hrecorded : s.sentry.data.mUmbilicalProcess with
      | true => exact .handler rfl (Minds.congr (s := s) (reapSentry_minds fun _ => hrecorded) rfl)
      | false => exact .forced (forced_umbilical hs hstage hrecorded).1
  | @handle ok x y hlive hhandler hadvance =>
    rw [latch_owed] at howed
    refine (hi hstage hmonitor hcall role howed).latch_step ok x rfl rfl rfl
      (fun z hz hminds => .inr ?_) (fun z hz _ => .inl hz) id
    obtain rfl := Option.some.inj (hhandler.symm.trans hz)
    cases ok with
    | true =>
      rcases hminds.advance hadvance (fun report => hsuspended howed report) with hnext | hcovered
      · refine .handler ?_ (hnext.congr (latch_terminated s true x role))
        cases y with
        | returned => exact hnext.elim
        | monitoring | latching | quitting => rfl
      · exact .latch hcovered
    | false =>
      obtain ⟨hx, hpid⟩ := hreliable rfl
      obtain rfl := Option.some.inj (hhandler.symm.trans hx)
      have hchild : role = .child := hminds.elim Eq.symm id
      subst hchild
      have hforced : s.Forced .child := forced_child hs hstage hmonitor hpid
      exact .forced hforced
  | quitProcess hquitting | monitorChildProcess hnone | monitor hm hnext hlatched =>
    exact (hi hstage hmonitor hcall role howed).congr rfl rfl rfl rfl rfl rfl
  | @told event m m' other aEnabled x hm hnext hlatched hx =>
    have hdue := hi hstage hmonitor hcall role
    dsimp only at howed
    rw [Function.update_apply] at howed
    by_cases hrole : role = other
    · subst hrole
      rw [if_pos rfl] at howed
      obtain ⟨howed, hterminated, hon⟩ := polled_owed hx howed
      have hsame : x.terminated = (s.overseen role).terminated := by
        simp [Overseen.terminated, polled_process hx]
      cases hdue howed with
      | pending h => exact .pending h
      | handler hy h => exact .handler hy (h.congr (by simpa using hsame))
      | call hy h => exact .call hy (h.congr (by simpa using hsame))
      | latch h =>
        have hdisabled := h.2 (hsame.symm.trans hterminated)
        rw [hon] at hdisabled
        cases hdisabled
      | forced h => exact .forced h
    · rw [if_neg hrole] at howed
      exact (hdue howed).congr rfl rfl rfl rfl (by simp [hrole]) (by simp [hrole])
  | becomes hprocess halive => exact .pending rfl
  | adopted => exact .pending rfl

theorem reachable_of_reliable (hs : (reliable lap options server mDrain_s useReadWrite).Reachable s) :
    (system lap options server mDrain_s useReadWrite).Reachable s := by
  refine System.Reachable.project (M := reliable lap options server mDrain_s useReadWrite)
    (N := system lap options server mDrain_s useReadWrite) (fun s => s) (fun s h => h)
    (fun s event t _ h => .inr ⟨event, ?_⟩) hs
  exact (Option.ite_none_right_eq_some.mp h).2

theorem owes_of_reachable (hs : (reliable lap options server mDrain_s useReadWrite).Reachable s) : s.Owes := by
  refine System.Reachable.invariant (P := Owes) ?_ (fun s event t hs hi h => ?_) hs
  · rintro s rfl _ _ _ role howed
    cases howed
  · obtain ⟨hreliable, h⟩ := Option.ite_none_right_eq_some.mp h
    exact hi.step (reachable_of_reliable hs) hreliable h

theorem process_ne_none_of_step (h : s.next lap server mDrain_s useReadWrite event = some t) {role : Role}
    (hprocess : (s.overseen role).process ≠ none) : (t.overseen role).process ≠ none := by
  cases steps_of_next h with
  | call htodo hpermits hnext =>
    dsimp only
    unfold called
    split_ifs with hfork
    · rw [Function.update_apply]
      split_ifs with hrole
      · exact Option.some_ne_none _
      · exact hprocess
    · exact hprocess
  | forkUmbilical hcall hnone =>
    dsimp only
    rw [Function.update_apply]
    split_ifs with hrole
    · exact Option.some_ne_none _
    · exact hprocess
  | supervise hcall hadvance | handle hlive hhandler hadvance => simpa using hprocess
  | @told event m m' other aEnabled x hm hnext hlatched hx =>
    dsimp only
    rw [Function.update_apply]
    split_ifs with hrole
    · rw [polled_process hx, ← hrole]
      exact hprocess
    · exact hprocess
  | becomes hthere halive =>
    dsimp only
    rw [Function.update_apply]
    split_ifs with hrole
    · exact Option.some_ne_none _
    · exact hprocess
  | _ => exact hprocess

def forkedBy : Role → SentryCall
  | .child => .forkProcessChild
  | .umbilical => .createUmbilicalProcess

/-- The sentry has the process that it has forked. -/
theorem process_of_forked (hs : (system lap options server mDrain_s useReadWrite).Reachable s)
    (hstage : s.sentry.stage = .working) (role : Role) (hforked : forkedBy role ∉ s.sentry.todo) :
    (s.overseen role).process ≠ none := by
  refine System.Reachable.invariant (P := fun s => s.sentry.stage = .working → ∀ role,
    forkedBy role ∉ s.sentry.todo → (s.overseen role).process ≠ none) ?_
    (fun s event t _ hi h hstage role hforked => ?_) hs hstage role hforked
  · rintro s rfl _ role hforked
    refine absurd ?_ hforked
    cases role <;> simp [start, SentryRun.start, Course.start, runAgentSentry, createSentry, runSentry,
      forkedBy, forkChildProcess]
  · by_cases hbefore : s.sentry.stage = .working ∧ forkedBy role ∉ s.sentry.todo
    · exact process_ne_none_of_step h (hi hbefore.1 role hbefore.2)
    · cases steps_of_next h with
      | returns htodo hnext =>
        obtain ⟨call, calls, hcalls, -⟩ := SentryRun.goesOn_of_next hnext hstage
        rw [htodo] at hcalls
        cases hcalls
      | @call result call calls sentry htodo hpermits hnext =>
        obtain ⟨other, rest, hother, hrest, hworking, hmade⟩ := SentryRun.goesOn_of_next hnext hstage
        obtain ⟨rfl, rfl⟩ := List.cons.inj (htodo.symm.trans hother)
        have hcall : forkedBy role = call := by
          by_contra hne
          refine hbefore ⟨hworking, fun hmem => hforked ?_⟩
          rw [htodo] at hmem
          exact hrest.symm ▸ (List.mem_cons.mp hmem).resolve_left hne
        cases role with
        | child =>
          subst hcall
          have hresult : result ≠ .failed := by
            rcases hmade with ⟨rfl, -⟩ | ⟨-, childPid, rfl, -⟩ <;> exact CallResult.noConfusion
          simp [called, forkedBy, hresult, Overseen.forked]
        | umbilical =>
          subst hcall
          have hok := (hmade.resolve_right fun h => SentryCall.noConfusion h.1).1
          have hthere := hpermits.forks rfl hok
          simpa [called, forkedBy] using hthere
      | _ => exact absurd ⟨hstage, hforked⟩ hbefore

/-- The sentry is in the event loop of `monitorChildProcess`. -/
structure Looping (s : Supervision) : Prop where
  call : s.AtCall .monitorChildProcess
  loop : ∃ m, s.monitor = some m ∧ m.phase = .looping ∧ m.child.rc = .ok
  recorded : ∀ role, s.recorded role = true
  process : ∀ role, (s.overseen role).process ≠ none
  watched : .done ∈ s.sentry.data.watched

theorem Looping.congr (hi : s.Looping) (hsentry : t.sentry = s.sentry) (hquit : t.quit = s.quit)
    (hmonitor : t.monitor = s.monitor)
    (hprocess : ∀ role, (t.overseen role).process = (s.overseen role).process) : t.Looping := by
  obtain ⟨⟨⟨hlive, hstage⟩, hhead⟩, hloop, hrecorded, hthere, hwatched⟩ := hi
  refine ⟨⟨⟨hquit.trans hlive, ?_⟩, ?_⟩, ?_, fun role => ?_, fun role => ?_, ?_⟩
  · rwa [hsentry]
  · rwa [hsentry]
  · rwa [hmonitor]
  · have hsame : t.recorded role = s.recorded role := by
      cases role <;> simp [Supervision.recorded, hsentry]
    rw [hsame]
    exact hrecorded role
  · rw [hprocess]
    exact hthere role
  · rwa [hsentry]

theorem working_of_call (hs : (system lap options server mDrain_s useReadWrite).Reachable s)
    (hcall : s.AtCall .monitorChildProcess) : s.sentry.stage = .working := by
  have hmem := List.mem_of_mem_head? hcall.2
  cases hstage : s.sentry.stage with
  | working => rfl
  | closing =>
    have hwithin := SentryRun.within_of_reachable (sentry_of_reachable hs)
    exact absurd ((hwithin.closing hstage).1.subset hmem) (by decide)
  | aborted => exact absurd hstage hcall.1.2

theorem looping_of_reachable (hs : (system lap options server mDrain_s useReadWrite).Reachable s)
    (hcall : s.AtCall .monitorChildProcess) {m : MonitorRun} (hm : s.monitor = some m)
    (hphase : m.phase = .looping) (hrc : m.child.rc = .ok) : s.Looping := by
  have hstage := working_of_call hs hcall
  have hsentry := sentry_of_reachable hs
  have hsuffix := SentryRun.suffix_of_reachable hsentry hstage
  have hmade : ∀ {call : SentryCall}, call ∉ callsAfter call (runAgentSentry options) →
      .monitorChildProcess ∈ callsAfter call (runAgentSentry options) →
      .monitorChildProcess ∉ callsBefore call (runAgentSentry options) → call ∉ s.sentry.todo :=
    fun honce hafter hbefore hmem => (later_of_suffix hsuffix honce hmem hafter hbefore).2 hcall.2
  obtain ⟨hrecord, hrecord', humbilical, humbilical', hfork, hfork'⟩ := SentryRun.made_once options
  refine ⟨hcall, ⟨m, hm, hphase, hrc⟩, fun role => ?_, fun role => process_of_forked hs hstage role ?_, ?_⟩
  · cases role with
    | umbilical =>
      refine (SentryRun.umbilical_recorded hsentry hstage).resolve_left ?_
      exact hmade (SentryRun.createUmbilicalProcess_once options).1 humbilical humbilical'
    | child =>
      refine decide_eq_true fun hpid => ?_
      refine hmade (SentryRun.recordPid_once options).1 hrecord hrecord' ?_
      exact SentryRun.recordPid_mem hsentry hstage (List.mem_of_mem_head? hcall.2) hpid
  · cases role with
    | umbilical => exact hmade (SentryRun.createUmbilicalProcess_once options).1 humbilical humbilical'
    | child => exact hmade (SentryRun.forkProcessChild_once options) hfork hfork'
  · obtain ⟨honce, -, hafter, hbefore⟩ := SentryRun.watchJobControl_once options
    have hwatched := SentryRun.done_watched hsentry hstage (List.mem_of_mem_head? hcall.2)
    exact hwatched.resolve_left (hmade honce hafter hbefore)

/-- What has the event loop told of a process. -/
def tells : SupervisionEvent → Bool
  | .sigchld | .handle true | .quitProcess => true
  | .monitor event => event.latched.isSome
  | _ => false

/-- The event loop knows of the process whatever it has been owed. -/
def Told (s : Supervision) (role : Role) : Prop :=
  (s.overseen role).owed = false ∧ (role = .child → (s.overseen role).terminated = true →
    ∃ m, s.monitor = some m ∧ m.child.monitor.mEvent.mChildLatchDisabled = true)

/-- Within a number of steps, of the handler and the event loop alone, it is told. -/
def Tellable (lap : LapTime) (server : ServerOptions) (mDrain_s : Nat) (useReadWrite : Bool) (n : Nat)
    (s : Supervision) (role : Role) : Prop :=
  ∃ events : List SupervisionEvent, events.length ≤ n ∧ (∀ event ∈ events, tells event = true) ∧
    ∃ t, events.foldlM (next lap server mDrain_s useReadWrite) s = some t ∧
      (t.overseen role).process = (s.overseen role).process ∧ (t.quit = true ∨ t.Told role)

theorem Tellable.step {n : Nat} {role : Role} (h : s.next lap server mDrain_s useReadWrite event = some t)
    (htells : tells event = true) (hsame : (t.overseen role).process = (s.overseen role).process)
    (ht : Tellable lap server mDrain_s useReadWrite n t role) :
    Tellable lap server mDrain_s useReadWrite (n + 1) s role := by
  obtain ⟨events, hlength, hall, u, hrun, hprocess, htold⟩ := ht
  refine ⟨event :: events, Nat.succ_le_succ hlength, List.forall_mem_cons.mpr ⟨htells, hall⟩, u, ?_,
    hprocess.trans hsame, htold⟩
  rw [List.foldlM_cons, h]
  exact hrun

theorem Tellable.of_told {role : Role} (h : s.quit = true ∨ s.Told role) :
    Tellable lap server mDrain_s useReadWrite 0 s role :=
  ⟨[], le_rfl, List.forall_mem_nil _, s, rfl, rfl, h⟩

theorem Tellable.mono {n n' : Nat} {role : Role} (h : Tellable lap server mDrain_s useReadWrite n s role)
    (hn : n ≤ n') : Tellable lap server mDrain_s useReadWrite n' s role := by
  obtain ⟨events, hlength, h⟩ := h
  exact ⟨events, hlength.trans hn, h⟩

theorem polled_of_covered {x : Overseen} (h : x.Covered) : ∃ y, x.polled (decide (x.latch = .on)) = some y ∧
    y.owed = false ∧ y.process = x.process ∧ (x.terminated = true → x.latch ≠ .on) := by
  obtain ⟨hoff, hterminated⟩ := h
  cases hlatch : x.latch with
  | off => exact absurd hlatch hoff
  | on =>
    have hnot : x.terminated = false := by
      by_contra ht
      rw [hterminated (by simpa using ht)] at hlatch
      cases hlatch
    refine ⟨{ x with latch := .off, owed := x.owed && x.terminated }, ?_, ?_, rfl, fun ht => ?_⟩
    · simp [Overseen.polled, hlatch]
    · simp [hnot]
    · rw [hnot] at ht
      cases ht
  | disabled =>
    refine ⟨{ x with owed := false }, ?_, rfl, rfl, fun _ => LatchSetting.noConfusion⟩
    simp [Overseen.polled, hlatch]

/-- The event loop polls the latch. -/
theorem Looping.tellable_of_covered (hi : s.Looping) {role : Role} (h : (s.overseen role).Covered) :
    Tellable lap server mDrain_s useReadWrite 1 s role := by
  obtain ⟨m, hm, hphase, hrc⟩ := hi.loop
  obtain ⟨x, hx, howed, hprocess, hterminated⟩ := polled_of_covered h
  have hpoll : ∀ {event : MonitorEvent} {m' : MonitorRun}, m.next lap mDrain_s event = some m' →
      event.latched = some (role, decide ((s.overseen role).latch = .on)) →
      s.next lap server mDrain_s useReadWrite (.monitor event) =
        some { s with monitor := some m', overseen := Function.update s.overseen role x } := by
    intro event m' hnext hlatched
    simp [next, hi.call, hm, hnext, hlatched, hx]
  have hsame : (Function.update s.overseen role x role).process = (s.overseen role).process := by
    simpa using hprocess
  cases role with
  | umbilical =>
    let event : ChildEvent := .reapUmbilical (decide ((s.overseen .umbilical).latch = .on)) 0
    have hnext : m.next lap mDrain_s (.child event) =
        some { m with child := m.child.after lap event, thread := MonitorRun.told m.thread event } := by
      simp [MonitorRun.next, hphase, MonitorRun.permitsChild, ChildRun.next, hrc, ChildEvent.Ready, event]
    refine .step (hpoll hnext rfl) rfl hsame (.of_told (.inr ⟨?_, Role.noConfusion⟩))
    simpa using howed
  | child =>
    let event : ChildEvent := .reapChild (decide ((s.overseen .child).latch = .on)) true 0
    have hnext : m.next lap mDrain_s (.child event) =
        some { m with child := m.child.after lap event, thread := MonitorRun.told m.thread event } := by
      simp [MonitorRun.next, hphase, MonitorRun.permitsChild, ChildRun.next, hrc, ChildEvent.Ready, event]
    refine .step (hpoll hnext rfl) rfl hsame (.of_told (.inr ⟨?_, fun _ ht => ⟨_, rfl, ?_⟩⟩))
    · simpa using howed
    · have hdead : (s.overseen .child).terminated = true := by
        simpa [Overseen.terminated, hprocess] using ht
      have hevent : event = .reapChild false true 0 := by simp [event, hterminated hdead]
      rw [hevent]
      rfl

/-- How much `superviseChildProcess` has left to do. -/
def left : Supervising → Nat
  | .monitoring .umbilical => 4
  | .latching .umbilical _ => 3
  | .monitoring .child => 2
  | .latching .child _ => 1
  | .quitting | .returned _ => 0

theorem left_le (x : Supervising) : left x ≤ 4 := by
  cases x with
  | monitoring other | latching other => cases other <;> simp [left]
  | quitting | returned => simp [left]

/-- The handler goes on, and comes closer to its end. -/
theorem Looping.handles (hi : s.Looping) {x : Supervising} (hx : s.handler = some x) (hleft : left x ≠ 0) :
    ∃ y, s.advance true x = some y ∧ left y < left x := by
  cases x with
  | monitoring role =>
    obtain ⟨report, hprocess⟩ := Option.ne_none_iff_exists'.mp (hi.process role)
    refine ⟨.latching role report, by simp [advance, hi.recorded role, hprocess], ?_⟩
    cases role <;> simp [left]
  | latching role report =>
    cases role with
    | umbilical => exact ⟨.monitoring .child, rfl, by simp [left]⟩
    | child =>
      by_cases hquits : report.quits = true
      · exact ⟨.quitting, by simp [advance, hquits], by simp [left]⟩
      · exact ⟨.returned true, by simp [advance, hquits], by simp [left]⟩
  | quitting | returned => exact absurd rfl hleft

theorem next_handle (hlive : s.Live) {x y : Supervising} (hx : s.handler = some x)
    (hadvance : s.advance true x = some y) : s.next lap server mDrain_s useReadWrite (.handle true) =
      some { s with handler := y.pending, overseen := s.latch true x } := by
  simp [next, hlive, hx, hadvance]

theorem Looping.tellable_of_minds {n : Nat} {role : Role} (hi : s.Looping) {x : Supervising}
    (hx : s.handler = some x) (hleft : left x ≤ n) (hminds : s.Minds role x)
    (hsuspended : ∀ report, (s.overseen role).process = some report → report.suspended = false) :
    Tellable lap server mDrain_s useReadWrite (n + 1) s role := by
  have hbusy : left x ≠ 0 := by
    cases x with
    | monitoring other => cases other <;> simp [left]
    | latching other report => cases other <;> simp [left]
    | quitting | returned => exact hminds.elim
  induction n generalizing s x with
  | zero => exact absurd (Nat.le_zero.mp hleft) hbusy
  | succ n ih =>
    obtain ⟨y, hadvance, hless⟩ := hi.handles hx hbusy
    have hloop : Looping { s with handler := y.pending, overseen := s.latch true x } :=
      hi.congr rfl rfl rfl (latch_process s true x)
    refine .step (next_handle hi.call.1 hx hadvance) rfl (latch_process s true x role) ?_
    rcases hminds.advance hadvance hsuspended with hnext | hcovered
    · have hpending : y.pending = some y := by
        cases y with
        | returned => exact hnext.elim
        | monitoring | latching | quitting => rfl
      refine ih hloop hpending (by omega) (hnext.congr (latch_terminated s true x role)) ?_ ?_
      · simpa using hsuspended
      · cases y with
        | monitoring other => cases other <;> simp [left]
        | latching other report => cases other <;> simp [left]
        | quitting | returned => exact hnext.elim
    · exact (hloop.tellable_of_covered hcovered).mono (by omega)

theorem Looping.tellable_of_sigchld {role : Role} (hi : s.Looping) (hsigchld : s.sigchld = true)
    (hnone : s.handler = none)
    (hsuspended : ∀ report, (s.overseen role).process = some report → report.suspended = false) :
    Tellable lap server mDrain_s useReadWrite 6 s role := by
  have hloop : Looping { s with sigchld := false, handler := some s.reapSentry } :=
    hi.congr rfl rfl rfl fun _ => rfl
  have hminds : s.Minds role s.reapSentry := reapSentry_minds fun _ => hi.recorded .umbilical
  refine .step (t := { s with sigchld := false, handler := some s.reapSentry })
    (show s.next lap server mDrain_s useReadWrite .sigchld = _ from ?_) rfl rfl
    (hloop.tellable_of_minds rfl ?_ (hminds.congr rfl) hsuspended)
  · simp [next, hi.call.1, hsigchld, hnone, hi.watched]
  · simp [reapSentry, hi.recorded .umbilical, left]

/-- A handler under way comes to its end first, or to that of the sentry. -/
theorem Looping.tellable_of_pending {n : Nat} {role : Role} (hi : s.Looping) (hsigchld : s.sigchld = true)
    {x : Supervising} (hx : s.handler = some x) (hreturned : ∀ ok, x ≠ .returned ok) (hleft : left x ≤ n)
    (hsuspended : ∀ report, (s.overseen role).process = some report → report.suspended = false) :
    Tellable lap server mDrain_s useReadWrite (n + 6) s role := by
  induction n generalizing s x with
  | zero =>
    have hquitting : x = .quitting := by
      cases x with
      | monitoring other => cases other <;> simp [left] at hleft
      | latching other report => cases other <;> simp [left] at hleft
      | quitting => rfl
      | returned ok => exact absurd rfl (hreturned ok)
    subst hquitting
    have hquit : Tellable lap server mDrain_s useReadWrite 1 s role := by
      refine .step (t := { s with quit := true })
        (show s.next lap server mDrain_s useReadWrite .quitProcess = _ from ?_) rfl rfl (.of_told (.inl rfl))
      simp [next, hi.call.1, hx]
    exact hquit.mono (by omega)
  | succ n ih =>
    by_cases hbusy : left x = 0
    · exact (ih hi hsigchld hx hreturned (by omega) hsuspended).mono (by omega)
    · obtain ⟨y, hadvance, hless⟩ := hi.handles hx hbusy
      have hsame := latch_process s true x
      refine .step (next_handle hi.call.1 hx hadvance) rfl (hsame role) ?_
      cases hpending : y.pending with
      | none =>
        have hloop : Looping { s with handler := none, overseen := s.latch true x } :=
          hi.congr rfl rfl rfl hsame
        exact (hloop.tellable_of_sigchld hsigchld rfl (by simpa using hsuspended)).mono (Nat.le_add_left 6 n)
      | some z =>
        obtain rfl := pending_eq_some hpending
        have hloop : Looping { s with handler := some y, overseen := s.latch true x } :=
          hi.congr rfl rfl rfl hsame
        refine ih hloop hsigchld rfl (fun ok he => ?_) (by omega) (by simpa using hsuspended)
        rw [he] at hpending
        cases hpending

theorem unreturned_of_reachable (hs : (system lap options server mDrain_s useReadWrite).Reachable s)
    {x : Supervising} (hx : s.handler = some x) (ok : Bool) : x ≠ .returned ok := by
  refine System.Reachable.invariant (P := fun s => ∀ x, s.handler = some x → x ≠ .returned ok) ?_
    (fun s event t _ hi h x hx => ?_) hs x hx
  · rintro s rfl x hx
    cases hx
  · cases steps_of_next h with
    | sigchld hlive hnone hwatched =>
      obtain rfl := Option.some.inj hx
      exact Supervising.noConfusion
    | @handle ok x y hlive hhandler hadvance =>
      rintro rfl
      obtain rfl := pending_eq_some hx
      cases hx
    | _ => exact hi x hx

/-- A termination that is no more owed to the event loop is known to it. -/
theorem informed_of_reachable (hs : (system lap options server mDrain_s useReadWrite).Reachable s)
    (hterminated : (s.overseen .child).terminated = true) : (s.overseen .child).owed = true ∨
      ∃ m, s.monitor = some m ∧ m.child.monitor.mEvent.mChildLatchDisabled = true := by
  refine System.Reachable.invariant (P := fun s => (s.overseen .child).terminated = true →
    (s.overseen .child).owed = true ∨
      ∃ m, s.monitor = some m ∧ m.child.monitor.mEvent.mChildLatchDisabled = true) ?_ ?_ hs hterminated
  · rintro s rfl h
    cases h
  · intro s event t hs hi h hterminated
    cases steps_of_next h with
    | call htodo hpermits hnext =>
      dsimp only at hterminated ⊢
      unfold called at hterminated ⊢
      split_ifs at hterminated ⊢ with hfork
      · simp [Overseen.terminated, Overseen.forked, ProcessReport.terminated,
          ProcessReport.running] at hterminated
      · exact hi hterminated
    | forkUmbilical hcall hnone => exact hi hterminated
    | supervise hcall hadvance | handle hlive hhandler hadvance => simpa using hi (by simpa using hterminated)
    | monitorChildProcess hnone =>
      refine .inl ((hi hterminated).resolve_right ?_)
      rintro ⟨m, hm, -⟩
      rw [hnone] at hm
      cases hm
    | monitor hm hnext hlatched =>
      refine (hi hterminated).imp_right ?_
      rintro ⟨m, hm', hlatch⟩
      obtain rfl := Option.some.inj (hm.symm.trans hm')
      exact ⟨_, rfl, (MonitorRun.mChildLatchDisabled_of_next hnext).mpr (.inl hlatch)⟩
    | @told event m m' role aEnabled x hm hnext hlatched hx =>
      have hflag := MonitorRun.mChildLatchDisabled_of_next hnext
      by_cases htold : event.latched = some (.child, false)
      · exact .inr ⟨m', rfl, hflag.mpr (.inr htold)⟩
      have hkeep : (Function.update s.overseen role x .child).terminated = (s.overseen .child).terminated ∧
          ((s.overseen .child).owed = true → (s.overseen .child).terminated = true →
            (Function.update s.overseen role x .child).owed = true) := by
        cases role with
        | umbilical => exact ⟨rfl, fun h _ => h⟩
        | child =>
          cases aEnabled with
          | false => exact absurd hlatched htold
          | true =>
            obtain ⟨-, h⟩ := Option.ite_none_right_eq_some.mp (show
              (if (s.overseen .child).latch = .on then some _ else none) = some x from hx)
            obtain rfl := Option.some.inj h
            exact ⟨rfl, fun howed h => Bool.and_eq_true_iff.mpr ⟨howed, h⟩⟩
      have hbefore := hkeep.1.symm.trans hterminated
      refine (hi hbefore).imp (fun howed => hkeep.2 howed hbefore) ?_
      rintro ⟨n, hn, hlatch⟩
      obtain rfl := Option.some.inj (hm.symm.trans hn)
      exact ⟨m', rfl, hflag.mpr (.inl hlatch)⟩
    | @becomes role report hthere halive =>
      cases role with
      | umbilical => exact hi hterminated
      | child =>
        refine .inl ?_
        have hreport : report.terminated = true := hterminated
        simp [Overseen.becomes, ProcessReport.unsuspended_of_terminated hreport]
    | _ => exact hi hterminated

/-- A child that exits before its pid has been recorded, up to the event loop of the
sentry. -/
def exiting : List SupervisionEvent :=
  [.call .ok, .call .ok, .call .ok, .call .ok, .call .ok, .call .ok, .call (.forked 7),
    .becomes .child ⟨.exited, 0, by decide⟩, .sigchld, .handle false, .call .ok, .call .ok,
    .superviseChildProcess, .supervise true, .supervise true, .call .ok, .call .ok, .call .ok, .call .ok,
    .call .ok, .call .ok, .call .ok, .call .ok, .call .ok, .forkUmbilical, .call .ok,
    .superviseChildProcess, .supervise true, .supervise true, .supervise true, .supervise true, .call .ok,
    .call .ok, .call .ok, .call .ok, .call .ok, .call .ok, .call .ok, .call .ok, .call .ok,
    .monitorChildProcess 8 3 4 none 0 0, .monitor (.createThread true), .monitor .threadStarts,
    .monitor .threadCreated, .monitor (.createMonitor true)]

/-- From there to the call that reaps the child. -/
def reaping : List SupervisionEvent :=
  [.monitor (.child (.reapChild false true 1)), .monitor (.thread .closeWriters),
    .monitor (.thread (.poll ⟨true, true, true⟩)), .monitor (.thread (.control true)),
    .monitor (.thread (.drain .input ⟨true, .eintr, .eintr, .eintr, true⟩ 2)), .monitor .threadEmptied,
    .monitor (.child .tether), .monitor .completes, .monitor .closeTetherThread, .monitor .threadReturns,
    .monitor .threadJoined, .call .ok, .call .ok, .call .ok, .call .ok, .call .ok, .call .ok, .call .ok,
    .call .ok]

/-- Nothing that becomes of the child or of the umbilical process is lost on the event
loop. While it runs, within ten steps that are the handler's and its own it can be told
of a termination, and of a continuation that has not been followed by another stop. -/
theorem monitorChildProcess_told (hs : (reliable lap options server mDrain_s useReadWrite).Reachable s)
    (hcall : s.AtCall .monitorChildProcess) {m : MonitorRun} (hm : s.monitor = some m)
    (hphase : m.phase = .looping) (hrc : m.child.rc = .ok) (role : Role) :
    ∃ events : List SupervisionEvent, events.length ≤ 10 ∧ (∀ event ∈ events, tells event = true) ∧
      ∃ t, events.foldlM (next lap server mDrain_s useReadWrite) s = some t ∧
        (t.overseen role).process = (s.overseen role).process ∧ (t.quit = true ∨ t.Told role) := by
  have hreach := reachable_of_reliable hs
  have hloop := looping_of_reachable hreach hcall hm hphase hrc
  have hstage := working_of_call hreach hcall
  have hsuffix := SentryRun.suffix_of_reachable (sentry_of_reachable hreach) hstage
  show Tellable lap server mDrain_s useReadWrite 10 s role
  by_cases howed : (s.overseen role).owed = true
  · have hsuspended := unsuspended_of_reachable hreach howed
    have hnone : s.call = none := by
      by_contra hne
      rcases call_of_reachable hreach hne with hhead | hhead <;> rw [hcall.2] at hhead <;> cases hhead
    have hdue := owes_of_reachable hs hstage (List.mem_of_mem_head? hcall.2)
      (by rw [hnone]; exact nofun) role howed
    cases hdue with
    | pending h =>
      cases hhandler : s.handler with
      | none => exact (hloop.tellable_of_sigchld h hhandler hsuspended).mono (by omega)
      | some x =>
        exact hloop.tellable_of_pending h hhandler (unreturned_of_reachable hreach hhandler) (left_le x)
          hsuspended
    | handler hx h => exact (hloop.tellable_of_minds hx (left_le _) h hsuspended).mono (by omega)
    | call hx h =>
      rw [hnone] at hx
      cases hx
    | latch h => exact (hloop.tellable_of_covered h).mono (by omega)
    | forced h =>
      obtain ⟨honce, hafter, hbefore, honce', hafter', hbefore'⟩ := SentryRun.forced_once options
      cases role with
      | child => exact absurd hcall.2 (later_of_suffix hsuffix honce h.1 hafter hbefore).2
      | umbilical => exact absurd hcall.2 (later_of_suffix hsuffix honce' h.1 hafter' hbefore').2
  · refine (Tellable.of_told (.inr ⟨by simpa using howed, fun hrole hterminated => ?_⟩)).mono (Nat.zero_le _)
    subst hrole
    exact (informed_of_reachable hreach hterminated).resolve_left howed

theorem monitorChildProcess_told_exiting : ∃ s, exiting.foldlM (fun s event =>
      if s.Reliable event then s.next .monotonic ⟨true, 60, 10, 5⟩ 30 true event else none)
      (start ⟨false, false, false, false, false⟩) = some s ∧ (s.overseen .child).owed = true ∧
    ∃ events : List SupervisionEvent, events.length ≤ 10 ∧ (∀ event ∈ events, tells event = true) ∧
      ∃ t, events.foldlM (next .monotonic ⟨true, 60, 10, 5⟩ 30 true) s = some t ∧
        (t.overseen .child).process = (s.overseen .child).process ∧ (t.quit = true ∨ t.Told .child) :=
  ⟨_, rfl, rfl, monitorChildProcess_told
    (show (reliable .monotonic ⟨false, false, false, false, false⟩ ⟨true, 60, 10, 5⟩ 30 true).Reachable _
      from .of_foldlM (.of_init rfl) exiting rfl) (by decide) rfl rfl rfl .child⟩

/-- What the sentry takes for the end of its child is one, and it comes to reap the child
in the ordinary course of things only when there is nothing left to wait for. -/
theorem sentry_informed (hs : (system lap options server mDrain_s useReadWrite).Reachable s) :
    (∀ m, s.monitor = some m → m.child.monitor.mEvent.mChildLatchDisabled = true →
      (s.overseen .child).terminated = true) ∧
    (s.sentry.stage = .working → .monitorChildProcess ∉ s.sentry.todo →
      (s.overseen .child).terminated = true) ∧
    (s.sentry.stage = .working → s.sentry.todo.head? = some .reapProcessChild →
      s.Permits .reapProcessChild .ok) ∧
    (s.quit = true → s.Quits) := by
  have htruthful := truthful_of_reachable hs
  refine ⟨htruthful.told, htruthful.passed, fun hstage hhead => ?_, htruthful.quit⟩
  have hpassed : .monitorChildProcess ∉ s.sentry.todo := by
    intro hmonitor
    obtain ⟨rest, htodo⟩ := List.head?_eq_some_iff.mp hhead
    have hsuffix := SentryRun.suffix_of_reachable (sentry_of_reachable hs) hstage
    rw [htodo] at hsuffix hmonitor
    have hmem := (List.mem_cons.mp hmonitor).resolve_left SentryCall.noConfusion
    obtain ⟨honce, hafter, -⟩ := SentryRun.monitorChildProcess_once options
    exact hafter (mem_callsBefore_of_suffix hsuffix honce hmem)
  have hterminated := htruthful.passed hstage hpassed
  refine ⟨fun h => ?_, nofun, nofun, fun h => ?_, fun _ _ => hterminated⟩
  · rcases h with h | h <;> cases h
  · rcases h with h | h <;> cases h

theorem sentry_informed_reaping : ∃ s,
    (exiting ++ reaping).foldlM (next .monotonic ⟨true, 60, 10, 5⟩ 30 true)
      (start ⟨false, false, false, false, false⟩) = some s ∧
    s.sentry.todo.head? = some .reapProcessChild ∧
    (∀ m, s.monitor = some m → m.child.monitor.mEvent.mChildLatchDisabled = true →
      (s.overseen .child).terminated = true) ∧
    (s.sentry.stage = .working → .monitorChildProcess ∉ s.sentry.todo →
      (s.overseen .child).terminated = true) ∧
    (s.sentry.stage = .working → s.sentry.todo.head? = some .reapProcessChild →
      s.Permits .reapProcessChild .ok) ∧
    (s.quit = true → s.Quits) :=
  ⟨_, rfl, rfl, sentry_informed
    (show (system .monotonic ⟨false, false, false, false, false⟩ ⟨true, 60, 10, 5⟩ 30 true).Reachable _
      from .of_foldlM (.of_init rfl) (exiting ++ reaping) rfl)⟩

end Supervision

end PidSentry
