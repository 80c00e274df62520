import PidSentry.BellSync
import PidSentry.PidFileWorld

/-! A sentry that announces its pid file and then lets its child go, among all
other users of the pid file. -/

namespace PidSentry

structure Launch (π ν : Type*) where
  sync : BellSync
  world : World π ν

inductive LaunchEvent (π ν : Type*)
  | sync (event : BellEvent)
  | world (event : WorldEvent π ν)

/-- Where the sentry makes calls on its pid file: in `createPidFile`, and when it
comes to its end. -/
def SentryPhase.UsesPidFile {ν : Type*} : SentryPhase → Phase ν → Prop
  | announcing, .generate _ | announcing, .create _ => True
  | monitoring, _ | closing, _ | closed, _ => True
  | _, _ => False

namespace Launch

variable {π ν : Type*} (record : π → PidFileRecord) (options : LaunchOptions) (me : π)

/-- What `announceSentryPidFile` returns. -/
def Announces (s : Launch π ν) : BellEvent → Prop
  | .announce pid =>
    if options.mPidFile then
      match s.world.phase me with
      | .created _ => pid = 0
      | .generate _ | .create _ => False
      | _ => pid ≠ 0
    else pid = 0
  | _ => True

def ends (s : Launch π ν) : BellEvent → Bool
  | .crash => true
  | .work _ => s.sync.sentry == .closed
  | _ => false

def Permits (s : Launch π ν) : WorldEvent π ν → Prop
  | .call i call => i = me → options.mPidFile = true ∧
      s.sync.sentry.UsesPidFile (s.world.phase me) ∧ call ≠ .crash ∧
      (call = .reap → s.sync.child = .exited)
  | .process .. => True

variable [DecidableEq π] [DecidableEq ν]

/-- A sentry that comes to its end closes its files. -/
def worldAfter (s : Launch π ν) (event : BellEvent) : World π ν :=
  if s.ends event = true ∧ s.world.phase me ≠ .gone then s.world.after record me .crash .gone
  else s.world

def Step (parser : PidParser) (s : Launch π ν) : LaunchEvent π ν → Launch π ν → Prop
  | .sync event, t => s.Announces options me event ∧ s.sync.next options event = some t.sync ∧
      t.world = s.worldAfter record me event
  | .world event, t => s.Permits options me event ∧
      s.world.Step record parser event t.world ∧ t.sync = s.sync

/-- The sentry has just forked its child. -/
def Start (parser : PidParser) (s : Launch π ν) : Prop :=
  s.sync = .start ∧ (World.system record parser).Reachable s.world ∧
    s.world.phase me = if options.mPidFile then .generate .opening else .idle

def system (parser : PidParser) : System (Launch π ν) (LaunchEvent π ν) :=
  ⟨Start record options me parser, Step record options me parser⟩

variable {record options me} {parser : PidParser} {s : Launch π ν}

theorem sync_of_reachable (hs : (system record options me parser).Reachable s) :
    (BellSync.system options).Reachable s.sync := by
  refine hs.project Launch.sync (fun s (hs : Start record options me parser s) => hs.1) ?_
  rintro s (event | event) t - hstep
  · exact .inr ⟨event, hstep.2.1⟩
  · exact .inl hstep.2.2

theorem world_of_reachable (hs : (system record options me parser).Reachable s) :
    (World.system record parser).Reachable s.world := by
  refine hs.invariant (P := fun s => (World.system record parser).Reachable s.world)
    (fun s (hs : Start record options me parser s) => hs.2.1) ?_
  rintro s (event | event) t - hw hstep
  · rw [hstep.2.2, worldAfter]
    split_ifs with hends
    · refine World.reachable_call hw me .crash trivial ?_
      cases hp : s.world.phase me <;> first | exact absurd hp hends.2 | rfl
    · exact hw
  · exact hw.tail hstep.2.1

/-- The pid file of the sentry is complete, and the sentry does not hold its lock. -/
def Complete (record : π → PidFileRecord) (me : π) (w : World π ν) : Prop :=
  ∃ f, w.phase me = .created f ∧ w.files.entry = some f ∧ w.files.descriptor me = .opened f none ∧
    w.files.content f = (record me).text

theorem complete_of_created {w : World π ν} (hw : (World.system record parser).Reachable w)
    (hcreated : ∃ f, w.phase me = .created f) : Complete record me w := by
  obtain ⟨f, hf⟩ := hcreated
  exact ⟨f, hf, (World.createPidFile_exclusive hw).1 me f hf⟩

omit [DecidableEq π] [DecidableEq ν] in
theorem created_of_announces (h : s.Announces options me (.announce 0))
    (hfile : options.mPidFile = true) : ∃ f, s.world.phase me = .created f := by
  simp only [Announces, hfile, if_true] at h
  split at h
  · exact ⟨_, ‹_›⟩
  · cases h
  · cases h
  · exact absurd rfl h

omit [DecidableEq π] [DecidableEq ν] in
theorem gone_of_ends {event : BellEvent} {sync : BellSync} (hends : s.ends event = true)
    (hnext : s.sync.next options event = some sync) : sync.sentry = .gone := by
  cases event with
  | crash =>
    obtain ⟨-, h⟩ := Option.ite_none_left_eq_some.mp hnext
    obtain rfl := Option.some.inj h
    rfl
  | work ok =>
    have hclosed : s.sync.sentry = .closed := by simpa [ends] using hends
    obtain ⟨⟨q, done⟩, hq, rfl⟩ := Option.map_eq_some_iff.mp hnext
    rw [hclosed] at hq
    cases ok <;> cases hq <;> rfl
  | _ => cases hends

/-- The sentry does not go back on its pid file while it guards the child. -/
theorem created_of_guards (hs : (system record options me parser).Reachable s)
    (hfile : options.mPidFile = true) (hg : s.sync.sentry.guards = true) :
    ∃ f, s.world.phase me = .created f := by
  revert hg
  refine hs.invariant (P := fun s => s.sync.sentry.guards = true → ∃ f, s.world.phase me = .created f)
    (fun s (hs : Start record options me parser s) hg => by rw [hs.1] at hg; cases hg) ?_
  rintro s (event | event) t - hi hstep hg
  · obtain ⟨hannounce, hnext, hworld⟩ := hstep
    have hcreated : ∃ f, s.world.phase me = .created f := by
      rcases BellSync.guards_next hnext hg with hg | rfl
      · exact hi hg
      · exact created_of_announces hannounce hfile
    have hends : s.ends event ≠ true := by
      intro hends
      rw [gone_of_ends hends hnext] at hg
      cases hg
    rw [hworld, worldAfter, if_neg (fun h => hends h.1)]
    exact hcreated
  · obtain ⟨hpermits, hworld, hsync⟩ := hstep
    rw [hsync] at hg
    obtain ⟨f, hf⟩ := hi hg
    refine ⟨f, ?_⟩
    cases event with
    | process pid signature =>
      obtain ⟨-, hworld⟩ := hworld
      rw [hworld]
      exact hf
    | call i call =>
      obtain ⟨-, q, -, hworld⟩ := hworld
      have hne : me ≠ i := by
        rintro rfl
        have huses := (hpermits rfl).2.1
        rw [hf] at huses
        revert huses hg
        cases s.sync.sentry <;> simp [SentryPhase.UsesPidFile, SentryPhase.guards]
      rw [hworld, World.after_phase_of_ne hne]
      exact hf

omit [DecidableEq π] [DecidableEq ν] in
theorem milestones_of_executing (hi : s.sync.Synchronised options)
    (hc : s.sync.child = .executing ∨ s.sync.child = .running) :
    .announced ∈ s.sync.log ∧ .umbilical ∈ s.sync.log ∧
      (options.mIdentify = true → .identified ∈ s.sync.log) ∧
      (options.mAnnounce = true → .started ∈ s.sync.log) := by
  have hrings := hi.rings_of_taken hc
  have honce := hi.once (Nat.lt_of_succ_lt hrings)
  have htwice := hi.twice hrings
  refine ⟨honce (by simp), honce (by simp), fun h => htwice ?_, fun h => htwice ?_⟩
  · simp [LaunchOptions.named, h]
  · simp [LaunchOptions.named, h]

theorem step_ofChild {event : BellEvent} {sync : BellSync} (hevent : event.ofChild = true)
    (hnext : s.sync.next options event = some sync) :
    s.Step record options me parser (.sync event) ⟨sync, s.worldAfter record me event⟩ := by
  refine ⟨?_, hnext, rfl⟩
  cases event <;> trivial

theorem reachable_sync (hs : (system record options me parser).Reachable s) (event : BellEvent)
    (hannounce : s.Announces options me event) {sync : BellSync}
    (hnext : s.sync.next options event = some sync) :
    (system record options me parser).Reachable ⟨sync, s.worldAfter record me event⟩ :=
  hs.tail (show (system record options me parser).step s (.sync event) _ from
    ⟨hannounce, hnext, rfl⟩)

theorem reachable_call (hs : (system record options me parser).Reachable s) (i : π)
    (call : PidFileCall ν) {q : Phase ν} (hpermits : s.Permits options me (.call i call))
    (hallows : s.world.Allows record i call)
    (hnext : (s.world.phase i).next parser (record i) call = some q) :
    (system record options me parser).Reachable ⟨s.sync, s.world.after record i call q⟩ :=
  hs.tail (show (system record options me parser).step s (.world (.call i call)) _ from
    ⟨hpermits, ⟨hallows, q, hnext, rfl⟩, rfl⟩)

/-- The program of the child runs only once it is guarded: the pid file has been
announced (and is complete and unlocked then, and as long as the sentry is on its
way to monitoring the child), the umbilical process is there, and the child pid
is announced as asked for. If the sentry ends before its second ring, the child
comes to its end without its program. The two never wait for each other's bells,
and there is no bell for the last wait of the sentry. -/
theorem child_guarded (hs : (system record options me parser).Reachable s) :
    (s.sync.child = .executing ∨ s.sync.child = .running →
      .announced ∈ s.sync.log ∧ .umbilical ∈ s.sync.log ∧
        (options.mIdentify = true → .identified ∈ s.sync.log) ∧
        (options.mAnnounce = true → .started ∈ s.sync.log)) ∧
    (options.mPidFile = true →
      (∀ t, s.Step record options me parser (.sync (.announce 0)) t → Complete record me s.world) ∧
      (s.sync.sentry.guards = true → Complete record me s.world)) ∧
    (s.sync.sentry = .gone → s.sync.rings < 2 →
      s.sync.child ≠ .executing ∧ s.sync.child ≠ .running ∧
      (s.sync.child ≠ .exited → ∃ event t, event.ofChild = true ∧
        s.Step record options me parser (.sync event) t) ∧
      ∀ event t, event.ofChild = true → s.Step record options me parser (.sync event) t →
        t.sync.sentry = .gone ∧ t.sync.rings < 2 ∧ t.sync.child.rank < s.sync.child.rank) ∧
    (s.sync.sentry.waits = true → s.sync.child.waits = true →
      0 < s.sync.toChild ∨ 0 < s.sync.toParent) ∧
    (s.sync.sentry = .waitingAgain → ∀ t,
      ¬ s.Step record options me parser (.sync (.waitParent .ok)) t) := by
  have hi := BellSync.synchronised_of_reachable (sync_of_reachable hs)
  have hw := world_of_reachable hs
  refine ⟨milestones_of_executing hi, fun hfile => ⟨?_, fun hg => ?_⟩, fun hgone hrings => ?_,
    hi.pending, fun hwaits t hstep => ?_⟩
  · rintro t ⟨hannounce, -⟩
    exact complete_of_created hw (created_of_announces hannounce hfile)
  · exact complete_of_created hw (created_of_guards hs hfile hg)
  · have hnot : ∀ c, c = .executing ∨ c = .running → s.sync.child ≠ c := by
      rintro c hc rfl
      exact absurd (hi.rings_of_taken hc) (Nat.not_lt.mpr (Nat.le_of_lt_succ hrings))
    refine ⟨hnot _ (.inl rfl), hnot _ (.inr rfl), fun hc => ?_, fun event t hevent hstep => ?_⟩
    · obtain ⟨event, hevent, hmoves⟩ := hi.child_moves hgone hrings hc
      obtain ⟨sync, hnext⟩ := Option.isSome_iff_exists.mp hmoves
      exact ⟨event, _, hevent, step_ofChild hevent hnext⟩
    · obtain ⟨hsentry, hsame⟩ := BellSync.next_ofChild hevent hstep.2.1
      exact ⟨hsentry.trans hgone, hsame ▸ hrings, BellSync.rank_lt hevent hstep.2.1⟩
  · obtain ⟨hpending, -⟩ := Option.ite_none_right_eq_some.mp hstep.2.1
    exact Nat.ne_of_gt hpending (hi.silent hwaits)

theorem child_guarded_executing : ∃ (record : Unit → PidFileRecord) (s : Launch Unit Nat),
    (system record ⟨true, true, true⟩ () .unsigned).Reachable s ∧
    s.sync.sentry = .waitingAgain ∧ s.sync.child = .executing ∧
    .announced ∈ s.sync.log ∧ .umbilical ∈ s.sync.log ∧ .identified ∈ s.sync.log ∧
    .started ∈ s.sync.log ∧ Complete record () s.world ∧
    ∀ t, ¬ s.Step record ⟨true, true, true⟩ () .unsigned (.sync (.waitParent .ok)) t := by
  let record (_ : Unit) : PidFileRecord :=
    ⟨7, [97], ⟨[120], nofun, by decide, by decide, by decide⟩, by decide, nofun, by decide, by decide⟩
  have hidle : (World.system record .unsigned).Reachable
      (⟨⟨none, fun _ => [], fun _ => .closed⟩, fun _ => none, fun _ => .idle⟩ : World Unit Nat) :=
    .of_init ⟨fun _ => rfl, fun _ => .inl rfl⟩
  have hforked := World.reachable_call hidle () .fork rfl rfl
  have h₀ : (system record ⟨true, true, true⟩ () .unsigned).Reachable ⟨.start, _⟩ :=
    .of_init ⟨rfl, hforked, rfl⟩
  have h₁ := reachable_sync h₀ (.work true) trivial rfl
  have h₂ := reachable_call h₁ () (.file .absent) (fun _ => ⟨rfl, trivial, nofun, nofun⟩) rfl rfl
  have h₃ := reachable_call h₂ () (.file (.createExclusive 0))
    (fun _ => ⟨rfl, trivial, nofun, nofun⟩) ⟨rfl, nofun⟩ rfl
  have h₄ := reachable_call h₃ () (.file (.flock .exclusive))
    (fun _ => ⟨rfl, trivial, nofun, nofun⟩) (fun _ _ j hj => absurd rfl hj) rfl
  have h₅ := reachable_call h₄ () (.file (.lstat (some 0)))
    (fun _ => ⟨rfl, trivial, nofun, nofun⟩) rfl rfl
  have h₆ := reachable_call h₅ () (.fetch 7 (.signature [97]))
    (fun _ => ⟨rfl, trivial, nofun, nofun⟩) (.inr rfl) rfl
  have h₇ := reachable_call h₆ () (.file (.write 0 [55, 10, 10, 97, 10, 120, 10]))
    (fun _ => ⟨rfl, trivial, nofun, nofun⟩) nofun rfl
  have h₈ := reachable_call h₇ () (.file .unlock)
    (fun _ => ⟨rfl, trivial, nofun, nofun⟩) trivial rfl
  have h₉ := reachable_sync h₈ (.announce 0) rfl rfl
  have h₁₀ := reachable_sync h₉ (.work true) trivial rfl
  have h₁₁ := reachable_sync h₁₀ (.work true) trivial rfl
  have h₁₂ := reachable_sync h₁₁ (.work true) trivial rfl
  have h₁₃ := reachable_sync h₁₂ (.childWork true) trivial rfl
  have h₁₄ := reachable_sync h₁₃ (.ringParent .ok) trivial rfl
  have h₁₅ := reachable_sync h₁₄ (.waitChild .ok) trivial rfl
  have h₁₆ := reachable_sync h₁₅ (.ringChild .ok) trivial rfl
  have h₁₇ := reachable_sync h₁₆ (.waitParent .ok) trivial rfl
  have h₁₈ := reachable_sync h₁₇ (.work true) trivial rfl
  have h₁₉ := reachable_sync h₁₈ (.childWork true) trivial rfl
  have h₂₀ := reachable_sync h₁₉ (.ringParent .ok) trivial rfl
  have h₂₁ := reachable_sync h₂₀ (.waitChild .ok) trivial rfl
  have h₂₂ := reachable_sync h₂₁ (.work true) trivial rfl
  obtain ⟨hlog, hfile, -, -, hsilent⟩ := child_guarded h₂₂
  have hlog := hlog (.inl rfl)
  exact ⟨record, _, h₂₂, rfl, rfl, hlog.1, hlog.2.1, hlog.2.2.1 rfl, hlog.2.2.2 rfl,
    (hfile rfl).2 rfl, hsilent rfl⟩

end Launch

end PidSentry
