import PidSentry.Retirement

/-! The clients that have verified the child before the sentry reaps it. -/

namespace PidSentry

namespace Retirement

variable {π ν : Type*} [DecidableEq π] [DecidableEq ν]

section

variable {record : π → PidFileRecord} {options : SentryOptions} {me : π} {mFile : ν}
  {parser : PidParser} {s : Retirement π ν}

/-- Behind `ftruncate`, or at the end. -/
def empties : Phase ν → Bool
  | .close (.detecting _) | .close (.unlinking _) | .close (.closing _) | .closed | .gone => true
  | _ => false

/-- The pid file is closed, or about to be closed, as it is. -/
def Given (p : Phase ν) : Prop := (∃ f locked, p = .leaving f locked) ∨ p = .closed ∨ p = .gone

/-- Clients that have verified the child hold off a sentry that comes to the lock,
and no file that it has emptied is filled again. -/
structure Sheltering (me : π) (mFile : ν) (s : Retirement π ν) : Prop where
  reading : ∀ i ∈ s.verified, s.world.phase i = .view (.locked mFile)
  verified : ∀ i ∈ s.verified, (s.world.phase me).publishedFile = some mFile ∨
    s.sentry.Unmade .acquirePidFileWriteLock ∧ Given (s.world.phase me)
  owned : s.renewed = false → ∀ i, i ≠ me → (s.world.phase i).ownFile ≠ some mFile
  emptied : s.renewed = false → ¬ s.sentry.Unmade .acquirePidFileWriteLock →
    empties (s.world.phase me) = true → s.world.files.content mFile = []

omit [DecidableEq π] [DecidableEq ν] in
theorem Tally.not_view {calls : List (PidFileCall ν)} {unmade locking : Prop} {p : Phase ν}
    (ht : Tally mFile calls unmade locking p) (phase : Viewing ν) : p ≠ .view phase := by
  rintro rfl
  exact ht

/-- The lock is acquired, or is as it was. -/
theorem Sound.unmade_call (hi : Sound record options me mFile parser s) {result : CallResult}
    {sentry : SentryRun} (hagrees : s.Agrees me (.call result))
    (h : s.sentry.next (.call result) = some sentry) (hstage : sentry.stage ≠ .aborted) :
    (sentry.Unmade .acquirePidFileWriteLock ↔ s.sentry.Unmade .acquirePidFileWriteLock) ∨
      ∃ f, s.world.phase me = .close (.truncating f) := by
  have hlock : SentryCall.acquirePidFileWriteLock ∉ closeSentry := by decide
  rcases hi.within.unmade hlock h hstage with hunmade | ⟨rest, data, htodo, -⟩
  · exact .inl hunmade
  · have hbefore := Course.unaborted_of_next h
    have hresults := hagrees .acquirePidFileWriteLock (by rw [htodo]; rfl)
    have htally := (hi.phased hbefore).tally
    have htally' := (hi.tally_lock hbefore htodo hagrees h).2
    cases hphase : s.world.phase me with
    | close phase =>
      rw [hphase] at hresults
      cases phase with
      | truncating f => exact .inr ⟨f, rfl⟩
      | locking | detecting | unlinking | closing => cases hresults
    | leaving f locked =>
      rw [hphase] at htally htally'
      exact .inl (iff_of_true htally'.1 htally.1)
    | _ =>
      rw [hphase] at hresults
      cases hresults

theorem Sheltering.call (hi : Sound record options me mFile parser s) (hs : s.Sheltering me mFile)
    {result : CallResult} {sentry : SentryRun} (hagrees : s.Agrees me (.call result))
    (h : s.sentry.next (.call result) = some sentry) (hstage : sentry.stage ≠ .aborted) :
    Sheltering me mFile { s with sentry := sentry, world := s.worldAfter record me sentry } := by
  have hphased := hi.phased (Course.unaborted_of_next h)
  have hphase : (s.worldAfter record me sentry).phase me =
      if s.sentry.Reaps sentry then .gone else s.world.phase me := phase_worldAfter hstage
  have hothers : ∀ i, i ≠ me → (s.worldAfter record me sentry).phase i = s.world.phase i := by
    intro i hne
    unfold worldAfter
    split_ifs
    · exact World.after_phase_of_ne hne _
    · exact World.after_phase_of_ne hne _
    · rfl
  have hcontent : (s.worldAfter record me sentry).files.content = s.world.files.content := by
    unfold worldAfter
    split_ifs with hreaps habort
    · rfl
    · exact absurd habort.1 hstage
    · rfl
  have hunmade := hi.unmade_call hagrees h hstage
  refine ⟨fun i hverified => ?_, fun i hverified => ?_, fun hrenewed i hne => ?_,
    fun hrenewed hmade hempties => ?_⟩
  · have hreading := hs.reading i hverified
    have hne : i ≠ me := by
      rintro rfl
      exact hphased.tally.not_view _ hreading
    exact (hothers i hne).trans hreading
  · dsimp only
    rw [hphase]
    rcases hs.verified i hverified with hpublished | ⟨hleft, hgiven⟩
    · split_ifs with hreaps
      · rw [hi.closed_of_reaps h hreaps] at hpublished
        cases hpublished
      · exact .inl hpublished
    · have hleft' : sentry.Unmade .acquirePidFileWriteLock := by
        rcases hunmade with hunmade | ⟨f, hf⟩
        · exact hunmade.mpr hleft
        · rw [hf] at hgiven
          rcases hgiven with ⟨g, locked, he⟩ | he | he <;> cases he
      refine .inr ⟨hleft', ?_⟩
      split_ifs
      · exact .inr (.inr rfl)
      · exact hgiven
  · dsimp only
    rw [hothers i hne]
    exact hs.owned hrenewed i hne
  · dsimp only at hempties ⊢
    rw [hcontent]
    rw [hphase] at hempties
    have hempties' : empties (s.world.phase me) = true := by
      split_ifs at hempties with hreaps
      · rw [hi.closed_of_reaps h hreaps]
        rfl
      · exact hempties
    rcases hunmade with hunmade | ⟨f, hf⟩
    · exact hs.emptied hrenewed (fun hleft => hmade (hunmade.mpr hleft)) hempties'
    · rw [hf] at hempties'
      cases hempties'

theorem mem_verifiedAfter {event : WorldEvent π ν} {i : π}
    (h : i ∈ s.verifiedAfter record me mFile event) :
    i ∈ s.verified ∧ (∀ call, event = .call i call → call ≠ .file .close ∧ call ≠ .crash) ∨
      ∃ content, event = .call i (.file (.read content)) ∧ s.world.phase i = .view (.locked mFile) ∧
        content = (record me).text ∧ s.renewed = false := by
  unfold verifiedAfter at h
  split at h
  · split_ifs at h with hreads
    · rcases List.mem_cons.mp h with rfl | h
      · exact .inr ⟨_, rfl, hreads⟩
      · refine .inl ⟨h, fun call he => ?_⟩
        cases he
        simp
    · refine .inl ⟨h, fun call he => ?_⟩
      cases he
      simp
  · obtain ⟨hmem, hne⟩ := List.mem_filter.mp h
    refine .inl ⟨hmem, fun call he => ?_⟩
    cases he
    exact absurd rfl (of_decide_eq_true hne)
  · obtain ⟨hmem, hne⟩ := List.mem_filter.mp h
    refine .inl ⟨hmem, fun call he => ?_⟩
    cases he
    exact absurd rfl (of_decide_eq_true hne)
  · rename_i hread hclose hcrash
    refine .inl ⟨h, fun call he => ⟨?_, ?_⟩⟩
    · rintro rfl
      exact hclose i he
    · rintro rfl
      exact hcrash i he

omit [DecidableEq π] in
theorem renewedAfter_eq_false {event : WorldEvent π ν} (h : s.renewedAfter mFile event = false) :
    s.renewed = false ∧ ∀ i, event ≠ .call i (.file (.createExclusive mFile)) := by
  unfold renewedAfter at h
  split at h
  · obtain ⟨hrenewed, hne⟩ := Bool.or_eq_false_iff.mp h
    refine ⟨hrenewed, fun i he => ?_⟩
    cases he
    exact of_decide_eq_false hne rfl
  · rename_i hnot
    exact ⟨h, fun i he => hnot i mFile he⟩

/-- A client that holds its lock on the pid file keeps the sentry from its own. -/
theorem Sound.excludes (hi : Sound record options me mFile parser s) {i : π}
    (hreading : s.world.phase i = .view (.locked mFile)) :
    (s.world.phase me).descriptor ≠ .opened mFile (some .exclusive) := by
  intro hlocked
  have htracked := World.tracked_of_reachable hi.world
  have hshared : s.world.files.descriptor i = .opened mFile (some .shared) := by
    rw [htracked.descriptor, hreading]
    rfl
  rw [← htracked.descriptor] at hlocked
  obtain rfl := htracked.exclusive me i mFile .shared hlocked hshared
  rw [hlocked] at hshared
  cases hshared

omit [DecidableEq π] in
/-- What lies behind `ftruncate` is reached by it, or by calls that leave the content. -/
theorem next_empties {p : Closing ν} {call : PidFileCall ν} {q : Phase ν}
    (hbehind : ∀ f, p ≠ .locking f) (hnext : p.next call = some q) (hempties : empties q = true) :
    (∃ f, p = .truncating f ∧ call = .file .truncate) ∨ empties (.close p) = true ∧
      call.revises = false ∧ ∀ f, call ≠ .file (.createExclusive f) := by
  unfold Closing.next at hnext
  split at hnext
  · exact absurd rfl (hbehind _)
  · exact absurd rfl (hbehind _)
  · exact .inl ⟨_, rfl, rfl⟩
  · cases hnext
    cases hempties
  · exact .inr ⟨rfl, rfl, by simp⟩
  · cases hnext
    cases hempties
  · exact .inr ⟨rfl, rfl, by simp⟩
  · exact .inr ⟨rfl, rfl, by simp⟩
  · cases hnext
    cases hempties
  · exact .inr ⟨rfl, rfl, by simp⟩
  · cases hnext

/-- A step of the sentry on its pid file leaves verified clients what they rely on. -/
theorem Sheltering.holds (hi : Sound record options me mFile parser s) (hs : s.Sheltering me mFile)
    (hstage : s.sentry.stage ≠ .aborted) {made : SentryCall} {call : PidFileCall ν} {q : Phase ν}
    (hallows : s.world.Allows record me call) (hgives : Gives made (s.world.phase me) call q) {i : π}
    (hne : i ≠ me) (hverified : i ∈ s.verified) : q.publishedFile = some mFile ∨
      s.sentry.Unmade .acquirePidFileWriteLock ∧ Given q := by
  have htally := (hi.phased hstage).tally
  have hbefore := hs.verified i hverified
  have htracked := World.tracked_of_reachable hi.world
  generalize hphase : s.world.phase me = p at hgives htally hbefore
  cases hgives with
  | retires f => exact .inl (congrArg some htally.1)
  | locks f =>
    have hfile : (s.world.files.descriptor me).file = some f := by
      rw [htracked.descriptor, hphase]
      rfl
    have hshared : s.world.files.descriptor i = .opened f (some .shared) := by
      rw [htracked.descriptor, hs.reading i hverified, htally.1]
      rfl
    exact absurd hshared (hallows f hfile i hne .shared)
  | failsToLock f => exact .inr ⟨htally.2.1, .inl ⟨f, false, rfl⟩⟩
  | givesUp f => exact .inr ⟨htally.2.1, .inl ⟨f, false, rfl⟩⟩
  | @closes phase call q hbehind hnext =>
    rcases hbefore with hpublished | ⟨-, hgiven⟩
    · cases phase with
      | locking f => exact absurd rfl (hbehind f)
      | truncating | detecting | unlinking | closing => cases hpublished
    · rcases hgiven with ⟨f, locked, he⟩ | he | he <;> cases he
  | leaves f locked => exact .inr ⟨htally.1, .inr (.inl rfl)⟩

theorem Sheltering.empties_mine (hi : Sound record options me mFile parser s)
    (hs : s.Sheltering me mFile) (hstage : s.sentry.stage ≠ .aborted) {made : SentryCall}
    {call : PidFileCall ν} {q : Phase ν} (hgives : Gives made (s.world.phase me) call q)
    (hrenewed : s.renewed = false) (hmade : ¬ s.sentry.Unmade .acquirePidFileWriteLock)
    (hempties : empties q = true) : (s.world.filesAfter me call).content mFile = [] := by
  have htally := (hi.phased hstage).tally
  have hbefore := hs.emptied hrenewed hmade
  have htracked := World.tracked_of_reachable hi.world
  generalize hphase : s.world.phase me = p at hgives htally hbefore
  cases hgives with
  | closes hbehind hnext =>
    rcases next_empties hbehind hnext hempties with ⟨f, rfl, rfl⟩ | ⟨hbehind, hrevises, hcreate⟩
    · have hfile : (s.world.files.descriptor me).file = some mFile := by
        rw [htracked.descriptor, hphase, ← htally.1]
        rfl
      exact World.filesAfter_content_self hfile rfl
    · have hkept : call.revises = true → (s.world.files.descriptor me).file ≠ some mFile := by
        intro h
        rw [hrevises] at h
        cases h
      rw [World.filesAfter_content_of_ne (hcreate mFile) hkept]
      exact hbefore hbehind
  | leaves f locked => exact absurd htally.1 hmade
  | retires | locks | failsToLock | givesUp => cases hempties

theorem Sheltering.mine (hi : Sound record options me mFile parser s) (hs : s.Sheltering me mFile)
    (hstage : s.sentry.stage ≠ .aborted) {made : SentryCall} {call : PidFileCall ν} {q : Phase ν}
    (hallows : s.world.Allows record me call) (hgives : Gives made (s.world.phase me) call q) :
    Sheltering me mFile
      { s with
        world := s.world.after record me call q
        calls := s.callsAfter me (.call me call)
        renewed := s.renewedAfter mFile (.call me call)
        verified := s.verifiedAfter record me mFile (.call me call) } := by
  have htally := (hi.phased hstage).tally
  have hold : ∀ i ∈ s.verifiedAfter record me mFile (.call me call), i ≠ me ∧ i ∈ s.verified := by
    intro i hmem
    rcases mem_verifiedAfter hmem with ⟨hverified, -⟩ | ⟨content, he, hreading, -⟩
    · refine ⟨?_, hverified⟩
      rintro rfl
      exact htally.not_view _ (hs.reading i hverified)
    · cases he
      exact absurd hreading (htally.not_view _)
  refine ⟨fun i hmem => ?_, fun i hmem => ?_, fun hrenewed i hne => ?_,
    fun hrenewed hmade hempties => ?_⟩
  · obtain ⟨hne, hverified⟩ := hold i hmem
    exact (World.after_phase_of_ne hne q).trans (hs.reading i hverified)
  · obtain ⟨hne, hverified⟩ := hold i hmem
    dsimp only
    rw [World.after_phase_self]
    exact hs.holds hi hstage hallows hgives hne hverified
  · dsimp only
    rw [World.after_phase_of_ne hne]
    exact hs.owned (renewedAfter_eq_false hrenewed).1 i hne
  · dsimp only at hempties
    rw [World.after_phase_self] at hempties
    exact hs.empties_mine hi hstage hgives (renewedAfter_eq_false hrenewed).1 hmade hempties

theorem text_ne_nil (own : PidFileRecord) : own.text ≠ [] := by
  rw [PidFileRecord.text_eq]
  simp

/-- A client finds the record of the child while the sentry has not emptied the
file, or if it has given the file up as it is. -/
theorem Sheltering.reads (hi : Sound record options me mFile parser s) (hs : s.Sheltering me mFile)
    (hstage : s.sentry.stage ≠ .aborted) {i : π} (hreading : s.world.phase i = .view (.locked mFile))
    (hrenewed : s.renewed = false) (hcontent : s.world.files.content mFile = (record me).text) :
    (s.world.phase me).publishedFile = some mFile ∨
      s.sentry.Unmade .acquirePidFileWriteLock ∧ Given (s.world.phase me) := by
  have htally := (hi.phased hstage).tally
  have hexcludes := hi.excludes hreading
  have hemptied := hs.emptied hrenewed
  cases hphase : s.world.phase me with
  | created f =>
    rw [hphase] at htally
    exact .inl (congrArg some htally.1)
  | close phase =>
    rw [hphase] at htally hexcludes
    cases phase with
    | locking f => exact .inl (congrArg some htally.1)
    | truncating f | detecting f | unlinking f | closing f =>
      rw [← htally.1] at hexcludes
      exact absurd rfl hexcludes
  | aborting f =>
    rw [hphase] at htally hexcludes
    obtain rfl : f = mFile := htally
    exact absurd rfl hexcludes
  | leaving f locked =>
    rw [hphase] at htally
    exact .inr ⟨htally.1, .inl ⟨f, locked, rfl⟩⟩
  | closed | gone =>
    rw [hphase] at htally hemptied
    rcases htally with ⟨hleft, -⟩ | ⟨hmade, -⟩
    · exact .inr ⟨hleft, .inr (by simp)⟩
    · have hnil := hemptied hmade rfl
      rw [hcontent] at hnil
      exact absurd hnil (text_ne_nil (record me))
  | idle | generate | create | view =>
    rw [hphase] at htally
    cases htally

omit [DecidableEq π] in
theorem next_locked {own : PidFileRecord} {call : PidFileCall ν} {q : Phase ν}
    (hclose : call ≠ .file .close) (hcrash : call ≠ .crash)
    (h : (Phase.view (.locked mFile)).next parser own call = some q) : q = .view (.locked mFile) := by
  cases call with
  | file call =>
    cases call with
    | read bytes => exact (Option.some.inj h).symm
    | close => exact absurd rfl hclose
    | _ => cases h
  | crash => exact absurd rfl hcrash
  | _ => cases h

theorem Sheltering.others (hi : Sound record options me mFile parser s) (hs : s.Sheltering me mFile)
    (hstage : s.sentry.stage ≠ .aborted) {event : WorldEvent π ν} {world : World π ν}
    (hothers : ∀ call, event ≠ .call me call) (h : s.world.Step record parser event world) :
    Sheltering me mFile
      { s with
        world := world
        calls := s.callsAfter me event
        renewed := s.renewedAfter mFile event
        verified := s.verifiedAfter record me mFile event } := by
  have hphase : world.phase me = s.world.phase me := World.phase_of_others h hothers
  refine ⟨fun i hmem => ?_, fun i hmem => ?_, fun hrenewed i hne => ?_,
    fun hrenewed hmade hempties => ?_⟩
  · dsimp only
    by_cases hmine : ∃ call, event = .call i call
    · obtain ⟨call, rfl⟩ := hmine
      obtain ⟨-, q, hnext, rfl⟩ := h
      rw [World.after_phase_self]
      rcases mem_verifiedAfter hmem with ⟨hverified, hkeeps⟩ | ⟨content, he, hreading, -⟩
      · obtain ⟨hclose, hcrash⟩ := hkeeps call rfl
        rw [hs.reading i hverified] at hnext
        exact next_locked hclose hcrash hnext
      · cases he
        rw [hreading] at hnext
        exact (Option.some.inj hnext).symm
    · rw [World.phase_of_others h fun call he => hmine ⟨call, he⟩]
      rcases mem_verifiedAfter hmem with ⟨hverified, -⟩ | ⟨content, he, -⟩
      · exact hs.reading i hverified
      · exact absurd ⟨_, he⟩ hmine
  · dsimp only
    rw [hphase]
    rcases mem_verifiedAfter hmem with ⟨hverified, -⟩ | ⟨content, rfl, hreading, hcontent, hrenewed⟩
    · exact hs.verified i hverified
    · obtain ⟨⟨f, hfile, hread⟩, -⟩ := h
      rw [(World.tracked_of_reachable hi.world).descriptor, hreading] at hfile
      obtain rfl : mFile = f := Option.some.inj hfile
      exact hs.reads hi hstage hreading hrenewed (hread.trans hcontent)
  · obtain ⟨hbefore, hcreate⟩ := renewedAfter_eq_false hrenewed
    dsimp only
    by_cases hmine : ∃ call, event = .call i call
    · obtain ⟨call, rfl⟩ := hmine
      obtain ⟨-, q, hnext, rfl⟩ := h
      rw [World.after_phase_self]
      intro hown
      rcases (Phase.follows hnext).ownFile mFile hown with hown | rfl
      · exact hs.owned hbefore i hne hown
      · exact hcreate i rfl
    · rw [World.phase_of_others h fun call he => hmine ⟨call, he⟩]
      exact hs.owned hbefore i hne
  · obtain ⟨hbefore, hcreate⟩ := renewedAfter_eq_false hrenewed
    dsimp only at hempties
    rw [hphase] at hempties
    have hemptied := hs.emptied hbefore hmade hempties
    cases event with
    | process pid signature =>
      obtain ⟨-, rfl⟩ := h
      exact hemptied
    | call i call =>
      obtain ⟨-, q, hnext, rfl⟩ := h
      have hkept : call.revises = true → (s.world.files.descriptor i).file ≠ some mFile := by
        intro hrevises hfile
        obtain ⟨f, hown, hopen⟩ := (Phase.follows hnext).revises hrevises
        rw [(World.tracked_of_reachable hi.world).descriptor, hopen] at hfile
        obtain rfl : f = mFile := Option.some.inj hfile
        exact hs.owned hbefore i (fun he => hothers call (by rw [he])) hown
      have hcontent := World.filesAfter_content_of_ne (w := s.world)
        (fun he => hcreate i (congrArg (WorldEvent.call i) he)) hkept
      exact hcontent.trans hemptied

theorem Start.sheltering (hs : Start record options me mFile parser s) : s.Sheltering me mFile := by
  refine ⟨fun i hmem => ?_, fun i hmem => ?_, fun _ i hne hown => ?_, fun _ _ hempties => ?_⟩
  · rw [hs.verified] at hmem
    cases hmem
  · rw [hs.verified] at hmem
    cases hmem
  · have hmine : (s.world.phase me).ownFile = some mFile := by
      rw [hs.created]
      rfl
    exact hne ((World.tracked_of_reachable hs.world).owner i me mFile hown hmine)
  · rw [hs.created] at hempties
    cases hempties

theorem unaborted_of_step {event : RetirementEvent π ν} {t : Retirement π ν}
    (h : s.Step record me mFile parser event t) (hstage : t.sentry.stage ≠ .aborted) :
    s.sentry.stage ≠ .aborted := by
  cases event with
  | sentry event =>
    obtain ⟨-, sentry, hnext, rfl⟩ := h
    cases event with
    | call result => exact Course.unaborted_of_next hnext
    | callback callback => exact (SentryRun.next_callback.mp hnext).1
  | world event =>
    obtain ⟨-, world, -, rfl⟩ := h
    exact hstage

theorem Sheltering.step (hi : Sound record options me mFile parser s) (hs : s.Sheltering me mFile)
    {event : RetirementEvent π ν} {t : Retirement π ν} (h : s.Step record me mFile parser event t)
    (hstage : t.sentry.stage ≠ .aborted) : t.Sheltering me mFile := by
  have hbefore := unaborted_of_step h hstage
  cases event with
  | sentry event =>
    obtain ⟨hagrees, sentry, hnext, rfl⟩ := h
    cases event with
    | call result => exact hs.call hi hagrees hnext hstage
    | callback callback =>
      obtain ⟨-, -, rfl⟩ := SentryRun.next_callback.mp hnext
      rw [worldAfter_of_child rfl hbefore]
      exact hs
  | world event =>
    obtain ⟨hpermits, world, hworld, rfl⟩ := h
    by_cases hmine : ∃ call, event = .call me call
    · obtain ⟨call, rfl⟩ := hmine
      obtain ⟨hcrash, made, -, hmakes⟩ := hpermits rfl
      obtain ⟨hallows, q, hnext, rfl⟩ := hworld
      exact hs.mine hi hbefore hallows (gives_of_makes hcrash hmakes hnext)
    · exact hs.others hi hbefore (fun call he => hmine ⟨call, he⟩) hworld

theorem sheltering_of_reachable (hs : (system record options me mFile parser).Reachable s)
    (hstage : s.sentry.stage ≠ .aborted) : s.Sheltering me mFile := by
  revert hstage
  refine System.Reachable.invariant
    (P := fun s => s.sentry.stage ≠ .aborted → s.Sheltering me mFile)
    (fun s (hs : Start record options me mFile parser s) _ => hs.sheltering)
    (fun s event t hs hi hstep hstage => ?_) hs
  exact (hi (unaborted_of_step hstep hstage)).step (sound_of_reachable hs) hstep hstage

theorem Sound.closed_of_step (hi : Sound record options me mFile parser s)
    {event : RetirementEvent π ν} {t : Retirement π ν} (h : s.Step record me mFile parser event t)
    (hreaps : s.sentry.Reaps t.sentry) :
    s.sentry.stage ≠ .aborted ∧ s.world.phase me = .closed := by
  cases event with
  | sentry event =>
    obtain ⟨-, sentry, hnext, rfl⟩ := h
    cases event with
    | call result => exact ⟨Course.unaborted_of_next hnext, hi.closed_of_reaps hnext hreaps⟩
    | callback callback =>
      obtain ⟨-, -, rfl⟩ := SentryRun.next_callback.mp hnext
      exact absurd hreaps.2 hreaps.1
  | world event =>
    obtain ⟨-, world, -, rfl⟩ := h
    exact absurd hreaps.2 hreaps.1

theorem Sound.reapsEmptied_iff (hi : Sound record options me mFile parser s)
    {event : RetirementEvent π ν} {t : Retirement π ν} (h : s.Step record me mFile parser event t) :
    s.ReapsEmptied event t ↔ s.ReapsInOrder event t := by
  refine imp_congr_right fun hreaps => ?_
  obtain ⟨hstage, hclosed⟩ := hi.closed_of_step h hreaps
  have htally := (hi.phased hstage).tally
  rw [hclosed] at htally
  rcases htally with ⟨hleft, hunlocked⟩ | ⟨hmade, hemptied⟩
  · exact iff_of_false (fun hemptied => hunlocked hemptied.1) (fun hmade => hmade hleft)
  · exact iff_of_true hemptied hmade

/-- The child has been reaped only in order. -/
def InOrder (me : π) (s : Retirement π ν) : Prop := s.sentry.stage ≠ .aborted →
  s.world.phase me = .gone → ¬ s.sentry.Unmade .acquirePidFileWriteLock

theorem InOrder.step (hi : Sound record options me mFile parser s) (hs : s.InOrder me)
    {event : RetirementEvent π ν} {t : Retirement π ν} (h : s.Step record me mFile parser event t)
    (hc : s.ReapsInOrder event t) : t.InOrder me := by
  intro hstage hgone
  have hbefore := unaborted_of_step h hstage
  cases event with
  | sentry event =>
    obtain ⟨hagrees, sentry, hnext, rfl⟩ := h
    cases event with
    | call result =>
      have hphase : (s.worldAfter record me sentry).phase me =
          if s.sentry.Reaps sentry then .gone else s.world.phase me := phase_worldAfter hstage
      dsimp only at hgone
      rw [hphase] at hgone
      have hmade : ¬ s.sentry.Unmade .acquirePidFileWriteLock ∧
          ∀ f, s.world.phase me ≠ .close (.truncating f) := by
        split_ifs at hgone with hreaps
        · refine ⟨hc hreaps, fun f hf => ?_⟩
          rw [hi.closed_of_reaps hnext hreaps] at hf
          cases hf
        · refine ⟨hs hbefore hgone, fun f hf => ?_⟩
          rw [hgone] at hf
          cases hf
      rcases hi.unmade_call hagrees hnext hstage with hunmade | ⟨f, hf⟩
      · exact fun hleft => hmade.1 (hunmade.mp hleft)
      · exact absurd hf (hmade.2 f)
    | callback callback =>
      obtain ⟨-, -, rfl⟩ := SentryRun.next_callback.mp hnext
      dsimp only at hgone
      rw [worldAfter_of_child rfl hbefore] at hgone
      exact hs hbefore hgone
  | world event =>
    obtain ⟨hpermits, world, hworld, rfl⟩ := h
    dsimp only at hgone
    by_cases hmine : ∃ call, event = .call me call
    · obtain ⟨call, rfl⟩ := hmine
      obtain ⟨hcrash, made, -, hmakes⟩ := hpermits rfl
      obtain ⟨-, q, hnext, rfl⟩ := hworld
      rw [World.after_phase_self] at hgone
      exact absurd hgone (gives_of_makes hcrash hmakes hnext).unended.2.2
    · rw [World.phase_of_others hworld fun call he => hmine ⟨call, he⟩] at hgone
      exact hs hbefore hgone

theorem Sheltering.shelters (hi : Sound record options me mFile parser s)
    (hs : s.sentry.stage ≠ .aborted → s.Sheltering me mFile) (ho : s.InOrder me) :
    s.Shelters record me := by
  intro hstage i hverified
  have htends : (s.world.phase me).tends = true ∧ s.world.phase me ≠ .gone := by
    rcases (hs hstage).verified i hverified with hpublished | ⟨hleft, hgiven⟩
    · refine ⟨Phase.tends_of_ownFile (Phase.ownFile_of_publishedFile hpublished), fun hgone => ?_⟩
      rw [hgone] at hpublished
      cases hpublished
    · rcases hgiven with ⟨f, locked, he⟩ | he | he
      · rw [he]
        exact ⟨rfl, by simp⟩
      · rw [he]
        exact ⟨rfl, by simp⟩
      · exact absurd hleft (ho hstage he)
  refine ⟨fun hreaped => htends.2 ((hi.phased hstage).reaped.mp hreaped), ?_⟩
  exact (World.tracked_of_reachable hi.world).process me htends.1

theorem Sound.left_of_disorder (hi : Sound record options me mFile parser s)
    {event : RetirementEvent π ν} {t : Retirement π ν} (h : s.Step record me mFile parser event t)
    (hdisorder : ¬ s.ReapsInOrder event t) : .acquirePidFileWriteLock ∈ s.sentry.left := by
  obtain ⟨hreaps, hunmade⟩ := Classical.not_imp.mp hdisorder
  refine (not_not.mp hunmade).resolve_left fun hlock => ?_
  have hstage := (hi.closed_of_step h hreaps).1
  cases event with
  | world event =>
    obtain ⟨-, world, -, rfl⟩ := h
    exact hreaps.1 hreaps.2
  | sentry event =>
    obtain ⟨-, sentry, hnext, rfl⟩ := h
    cases event with
    | callback callback =>
      obtain ⟨-, -, rfl⟩ := SentryRun.next_callback.mp hnext
      exact hreaps.1 hreaps.2
    | call result =>
      rcases Course.data_of_next hnext with he | ⟨call, calls, ending, htodo, hcall⟩
      · exact hreaps.1 (he ▸ hreaps.2)
      · have hmem : call ∈ s.sentry.todo := by
          rw [htodo]
          exact List.mem_cons_self
        cases he : s.sentry.stage with
        | working =>
          have hsuffix := (hi.within.working he).1
          have hforks := (SentryRun.of_mem_runSentry hi.file (hsuffix.subset hmem)).1
          rw [htodo] at hsuffix hlock
          have hspares := SentryRun.reaps_of_lock hi.file hsuffix hlock
          rcases SentryCall.perform_child hforks hcall with hsame | ⟨hreaped, -⟩
          · exact hreaps.1 (hsame.symm.trans hreaps.2)
          · rw [hspares] at hreaped
            cases hreaped
        | closing => exact (SentryRun.of_mem_closeSentry ((hi.within.closing he).1.subset hlock)).2.1 rfl
        | aborted => exact hstage he

/-- If the child is reaped out of order, a call of `runSentry` up to the lock has failed. -/
theorem failed_of_disorder (hs : Start record options me mFile parser s)
    {run : List (RetirementEvent π ν × Retirement π ν)}
    (hr : (system record options me mFile parser).IsRun s run)
    {event : RetirementEvent π ν} {t : Retirement π ν}
    (h : (System.last s run).Step record me mFile parser event t)
    (hdisorder : ¬ (System.last s run).ReapsInOrder event t) :
    ∃ pre result u post call calls data, run = pre ++ (.sentry (.call result), u) :: post ∧
      (System.last s pre).sentry.todo = call :: calls ∧ .acquirePidFileWriteLock ∈ call :: calls ∧
      call.perform result (System.last s pre).sentry.data = some (.fails, data) := by
  have hreachable := hr.last_of_step (I := (system record options me mFile parser).Reachable)
    (fun _ _ _ hi hstep => hi.tail hstep) (.of_init hs)
  have hleft := (sound_of_reachable hreachable).left_of_disorder h hdisorder
  have hstart : .acquirePidFileWriteLock ∉ s.sentry.left := by
    rw [((SentryRun.within_of_reachable hs.sentry).working hs.working).2]
    exact List.not_mem_nil
  obtain ⟨pre, a, u, post, rfl, hstep, hpre, hu⟩ :=
    hr.exists_step (P := fun s => .acquirePidFileWriteLock ∈ s.sentry.left) hstart hleft
  cases a with
  | world event =>
    obtain ⟨-, world, -, rfl⟩ := hstep
    exact absurd hu hpre
  | sentry event =>
    obtain ⟨-, sentry, hnext, rfl⟩ := hstep
    cases event with
    | callback callback =>
      obtain ⟨-, -, rfl⟩ := SentryRun.next_callback.mp hnext
      exact absurd hu hpre
    | call result =>
      rcases Course.left_of_next hnext with he | ⟨call, calls, data, htodo, he, hcall⟩
      · exact absurd (he ▸ hu) hpre
      · exact ⟨pre, result, _, post, call, calls, data, rfl, htodo, he ▸ hu, hcall⟩

end

/-- The child is reaped only after the pid file has been locked and emptied,
exactly when no call of `runSentry` up to the lock has failed; and then it is not
reaped under a client that has verified it. -/
theorem reaps_emptied_iff (record : π → PidFileRecord) (options : SentryOptions) (me : π) (mFile : ν)
    (parser : PidParser) {s : Retirement π ν} (hs : Start record options me mFile parser s)
    {run : List (RetirementEvent π ν × Retirement π ν)}
    (hr : (system record options me mFile parser).IsRun s run) :
    (System.Throughout ReapsEmptied s run ↔ System.Throughout ReapsInOrder s run) ∧
      (System.Throughout ReapsInOrder s run →
        System.Throughout (fun _ _ t => t.Shelters record me) s run) := by
  refine ⟨System.IsRun.throughout_iff (fun s event t hs hstep => ?_) (.of_init hs) hr, fun hc => ?_⟩
  · exact (sound_of_reachable hs).reapsEmptied_iff hstep
  · refine System.IsRun.throughout_of_condition (I := InOrder me) (C := ReapsInOrder)
      (fun s event t hs hi hstep hc => ?_) (.of_init hs) (fun _ hgone => ?_) hr hc
    · have ho := hi.step (sound_of_reachable hs) hstep hc
      have ht := hs.tail hstep
      exact ⟨Sheltering.shelters (sound_of_reachable ht) (sheltering_of_reachable ht) ho, ho⟩
    · rw [hs.created] at hgone
      cases hgone

section

variable {record : π → PidFileRecord} {options : SentryOptions} {me : π} {mFile : ν}
  {parser : PidParser} {s : Retirement π ν}

theorem reachable_sentry (hs : (system record options me mFile parser).Reachable s)
    (event : SentryEvent) {sentry : SentryRun} (hagrees : s.Agrees me event)
    (hnext : s.sentry.next event = some sentry) : (system record options me mFile parser).Reachable
      { s with sentry := sentry, world := s.worldAfter record me sentry } :=
  hs.tail (show (system record options me mFile parser).step s (.sentry event) _ from
    ⟨hagrees, sentry, hnext, rfl⟩)

theorem reachable_mine (hs : (system record options me mFile parser).Reachable s)
    (call : PidFileCall ν) {q : Phase ν} (hcrash : call ≠ .crash)
    (hmakes : ∃ made ∈ s.sentry.todo.head?, made.Makes (s.world.phase me) call)
    (hallows : s.world.Allows record me call)
    (hnext : (s.world.phase me).next parser (record me) call = some q) :
    (system record options me mFile parser).Reachable
      { s with
        world := s.world.after record me call q
        calls := s.callsAfter me (.call me call)
        renewed := s.renewedAfter mFile (.call me call)
        verified := s.verifiedAfter record me mFile (.call me call) } :=
  hs.tail (show (system record options me mFile parser).step s (.world (.call me call)) _ from
    ⟨fun _ => ⟨hcrash, hmakes⟩, _, ⟨hallows, q, hnext, rfl⟩, rfl⟩)

/-- Calls that leave the child and its pid file alone can succeed one after another. -/
theorem reachable_calls (hs : (system record options me mFile parser).Reachable s)
    {calls rest : List SentryCall} (hstage : s.sentry.stage ≠ .aborted)
    (htodo : s.sentry.todo = calls ++ rest) (hcalls : ∀ call ∈ calls, call.aside = true) :
    (system record options me mFile parser).Reachable { s with
      sentry := ⟨rest, s.sentry.left, s.sentry.stage, calls.foldl SentryCall.effect s.sentry.data⟩ } := by
  induction calls generalizing s with
  | nil =>
    obtain ⟨⟨todo, left, stage, data⟩, world, made, renewed, verified⟩ := s
    obtain rfl : todo = rest := htodo
    exact hs
  | cons call calls ih =>
    have haside := hcalls call List.mem_cons_self
    let sentry : SentryRun :=
      ⟨calls ++ rest, s.sentry.left, s.sentry.stage, call.effect s.sentry.data⟩
    have hnext : s.sentry.next (.call .ok) = some sentry := by
      have hcons : Course.next SentryCall.perform closeSentry s.sentry CallResult.ok = _ :=
        Course.next_cons hstage htodo _
      rw [SentryCall.perform_aside haside] at hcons
      exact hcons
    have hagrees : s.Agrees me (.call .ok) := by
      intro made hmade
      rw [htodo] at hmade
      obtain rfl := Option.some.inj hmade
      exact SentryCall.results_aside haside
    have hworld : s.worldAfter record me sentry = s.world :=
      worldAfter_of_child (SentryCall.effect_child_aside haside) hstage
    have hstep := reachable_sentry hs (.call .ok) hagrees hnext
    rw [hworld] at hstep
    exact ih hstep hstage rfl fun made hmade => hcalls made (List.mem_cons_of_mem _ hmade)

end

/-- A sentry that has announced its pid file. -/
theorem exists_start : ∃ (record : Unit → PidFileRecord) (world : World Unit Nat),
    world.phase () = .created 0 ∧ (∀ i, world.files.descriptor i = .opened 0 none) ∧
    Start record ⟨true, false, false, false, false⟩ () 0 .unsigned
      ⟨⟨runSentry ⟨true, false, false, false, false⟩, [], .working,
        ⟨true, 7, 7, true, false, [.cont, .stop, .signals, .done], .forked 7⟩⟩, world, [], false, []⟩ := by
  let record (_ : Unit) : PidFileRecord :=
    ⟨7, [97], ⟨[120], nofun, by decide, by decide, by decide⟩, by decide, nofun, by decide, by decide⟩
  have hidle : (World.system record .unsigned).Reachable
      (⟨⟨none, fun _ => [], fun _ => .closed⟩, fun _ => none, fun _ => .idle⟩ : World Unit Nat) :=
    .of_init ⟨fun _ => rfl, fun _ => .inl rfl⟩
  have h₁ := World.reachable_call hidle () .fork rfl rfl
  have h₂ := World.reachable_call h₁ () (.file .absent) rfl rfl
  have h₃ := World.reachable_call h₂ () (.file (.createExclusive 0)) ⟨rfl, nofun⟩ rfl
  have h₄ := World.reachable_call h₃ () (.file (.flock .exclusive)) (fun _ _ j hj => absurd rfl hj) rfl
  have h₅ := World.reachable_call h₄ () (.file (.lstat (some 0))) rfl rfl
  have h₆ := World.reachable_call h₅ () (.fetch 7 (.signature [97])) (.inr rfl) rfl
  have h₇ := World.reachable_call h₆ () (.file (.write 0 [55, 10, 10, 97, 10, 120, 10])) nofun rfl
  have h₈ := World.reachable_call h₇ () (.file .unlock) trivial rfl
  have hsentry : (SentryRun.system ⟨true, false, false, false, false⟩).Reachable
      ⟨runSentry ⟨true, false, false, false, false⟩, [], .working,
        ⟨true, 7, 7, true, false, [.cont, .stop, .signals, .done], .forked 7⟩⟩ :=
    .of_foldlM (.of_init rfl) [.call .ok, .call .ok, .call .ok, .call .ok, .call .ok, .call .ok,
      .call (.forked 7), .call .ok, .call .ok, .call .ok, .call .ok, .call .ok, .call .ok, .call .ok,
      .call .ok, .call .ok, .call .ok, .call .ok, .call .ok, .call .ok] rfl
  exact ⟨record, _, rfl, fun _ => rfl, ⟨hsentry, rfl, rfl, ⟨rfl, rfl⟩, rfl, h₈, rfl, rfl, rfl, rfl⟩⟩

/-- `reapSentry_` fails in `runSentry`, and `closeSentry` closes the pid file as it
is before it reaps the child. -/
theorem reaps_unlocked :
    ¬ ∀ (record : Unit → PidFileRecord) (options : SentryOptions) (me : Unit) (mFile : Nat)
      (parser : PidParser) (s : Retirement Unit Nat)
      (run : List (RetirementEvent Unit Nat × Retirement Unit Nat)),
      Start record options me mFile parser s →
      (system record options me mFile parser).IsRun s run → System.Throughout ReapsEmptied s run := by
  intro h
  obtain ⟨record, world, hcreated, -, hstart⟩ := exists_start
  have hall := h record ⟨true, false, false, false, false⟩ () 0 .unsigned
  have h₀ : (system record ⟨true, false, false, false, false⟩ () 0 .unsigned).Reachable _ :=
    .of_init hstart
  have h₁ := reachable_sentry h₀ (.call .ok) (fun _ he => by cases he; trivial) rfl
  have h₂ := reachable_sentry h₁ (.call .failed) (fun _ he => by cases he; trivial) rfl
  have h₃ := reachable_sentry h₂ (.call .ok) (fun _ he => by cases he; trivial) rfl
  have hmakes : SentryCall.Makes .destroyPidFile (world.phase ()) (.retire false) := by
    rw [hcreated]
    rfl
  have hleaves : (world.phase ()).next .unsigned (record ()) (.retire false) =
      some (.leaving 0 false) := by
    rw [hcreated]
    rfl
  have h₄ := reachable_mine h₃ (.retire false) nofun ⟨.destroyPidFile, rfl, hmakes⟩ trivial hleaves
  have h₅ := reachable_mine h₄ (.file .close) nofun ⟨.destroyPidFile, rfl, trivial⟩ trivial rfl
  have h₆ := reachable_sentry h₅ (.call .ok) (fun _ he => by cases he; rfl) rfl
  have h₇ := reachable_sentry h₆ (.call .ok) (fun _ he => by cases he; trivial) rfl
  have h₈ := reachable_sentry h₇ (.call .ok) (fun _ he => by cases he; trivial) rfl
  have h₉ := reachable_sentry h₈ (.call .ok) (fun _ he => by cases he; trivial) rfl
  have hreaps := System.Reachable.of_throughout (P := ReapsEmptied) hall h₉
    (a := .sentry (.call .ok)) ⟨fun _ he => by cases he; trivial, _, rfl, rfl⟩
  have hunreaped : SentryChild.forked 7 ≠ .reaped := by decide
  have hlocked : .file (.flock .exclusive) ∈ ([.retire false, .file .close] : List (PidFileCall Nat)) :=
    (hreaps ⟨hunreaped, rfl⟩).1
  revert hlocked
  decide

/-- A run that comes to its end, with the child reaped in order. -/
theorem reaps_emptied_orderly : ∃ (record : Unit → PidFileRecord) (s : Retirement Unit Nat)
    (run : List (RetirementEvent Unit Nat × Retirement Unit Nat)),
    Start record ⟨true, false, false, false, false⟩ () 0 .unsigned s ∧
    (System.last s run).sentry.data.child = .reaped ∧
    (System.last s run).calls = [.retire true, .file (.flock .exclusive), .file .truncate,
      .file (.lstat (some 0)), .file .unlink, .file .close] ∧
    (System.Throughout ReapsEmptied s run ↔ System.Throughout ReapsInOrder s run) ∧
      (System.Throughout ReapsInOrder s run →
        System.Throughout (fun _ _ t => t.Shelters record ()) s run) := by
  obtain ⟨record, world, hcreated, hdesc, hstart⟩ := exists_start
  have hopen : ((world.files.descriptor ()).after (.flock .exclusive)).file ≠ none := by
    rw [hdesc]
    simp
  have hentry : world.files.entry = some 0 :=
    World.named_of_reachable hstart.world () 0 (by rw [hcreated]; rfl)
  have hnamed : world.files.entry ≠ none := by
    rw [hentry]
    simp
  have h₀ : (system record ⟨true, false, false, false, false⟩ () 0 .unsigned).Reachable _ :=
    .of_init hstart
  have hsplit := @SentryRun.runSentry_eq ⟨true, false, false, false, false⟩ rfl
  have h₁ := reachable_calls h₀ Stage.noConfusion hsplit (by decide)
  have hmakes : SentryCall.Makes .acquirePidFileWriteLock (world.phase ()) (.retire true) := by
    rw [hcreated]
    rfl
  have hretires : (world.phase ()).next .unsigned (record ()) (.retire true) =
      some (.close (.locking 0)) := by
    rw [hcreated]
    rfl
  have h₂ := reachable_mine h₁ (.retire true) nofun ⟨.acquirePidFileWriteLock, rfl, hmakes⟩
    trivial hretires
  have h₃ := reachable_mine h₂ (.file (.flock .exclusive)) nofun
    ⟨.acquirePidFileWriteLock, rfl, trivial⟩ (fun _ _ j hj => absurd rfl hj) rfl
  have h₄ := reachable_sentry h₃ (.call .ok) (fun _ he => by cases he; rfl) rfl
  have h₅ := reachable_mine h₄ (.file .truncate) nofun ⟨.destroyPidFile, rfl, trivial⟩ hopen rfl
  have h₆ := reachable_mine h₅ (.file (.lstat (some 0))) nofun ⟨.destroyPidFile, rfl, trivial⟩ hentry rfl
  have h₇ := reachable_mine h₆ (.file .unlink) nofun ⟨.destroyPidFile, rfl, trivial⟩ hnamed rfl
  have h₈ := reachable_mine h₇ (.file .close) nofun ⟨.destroyPidFile, rfl, trivial⟩ trivial rfl
  have h₉ := reachable_sentry h₈ (.call .ok) (fun _ he => by cases he; rfl) rfl
  have hreaped : SentryRun.afterDestroy ⟨true, false, false, false, false⟩ =
      SentryRun.unwatched.map .unwatchJobControl ++ .reapProcessChild :: .clearPid :: closeChildProcess :=
    rfl
  have h₁₀ := reachable_calls h₉ Stage.noConfusion hreaped (by decide)
  have h₁₁ := reachable_sentry h₁₀ (.call .ok) (fun _ he => by cases he; trivial) rfl
  obtain ⟨s, run, hs, hr, hlast⟩ := h₁₁.exists_run
  refine ⟨record, s, run, hs, ?_, ?_, reaps_emptied_iff record _ () 0 .unsigned hs hr⟩
  · rw [hlast]
    rfl
  · rw [hlast]
    rfl

end Retirement

end PidSentry
