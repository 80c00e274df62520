import PidSentry.PidFileWorld
import PidSentry.Reaping

/-! A sentry whose pid file has been announced, up to the end of `closeSentry`,
among all other users of the pid file. -/

namespace PidSentry

/-- `calls` has the calls of the sentry on its pid file since `createPidFile`,
`renewed` is whether someone has made the file anew, and `verified` lists the
clients that have read the record of the child under the lock that they hold. -/
structure Retirement (π ν : Type*) where
  sentry : SentryRun
  world : World π ν
  calls : List (PidFileCall ν)
  renewed : Bool
  verified : List π

inductive RetirementEvent (π ν : Type*)
  | sentry (event : SentryEvent)
  | world (event : WorldEvent π ν)

namespace SentryCall

variable {ν : Type*}

/-- The calls on the pid file that a call of the sentry is made of. -/
def Makes : SentryCall → Phase ν → PidFileCall ν → Prop
  | acquirePidFileWriteLock, .created _, call => call = .retire true
  | acquirePidFileWriteLock, .close (.locking _), _ => True
  | destroyPidFile, .created _, call => call = .retire false
  | destroyPidFile, .close (.locking _), _ => False
  | destroyPidFile, .close _, _ | destroyPidFile, .leaving _ _, _ => True
  | _, _, _ => False

/-- What these calls have come to is the result of the call. -/
def Results (d : SentryData) : SentryCall → Phase ν → CallResult → Prop
  | acquirePidFileWriteLock, .close (.truncating _), result => result = .ok
  | acquirePidFileWriteLock, .leaving _ _, result => result = .failed
  | acquirePidFileWriteLock, _, _ => False
  | destroyPidFile, .closed, result => result = .ok
  | destroyPidFile, .aborting _, result => result = .failed
  | destroyPidFile, _, _ => d.mPidFile = false
  | _, _, _ => True

theorem results_aside {d : SentryData} {call : SentryCall} (h : call.aside = true) {phase : Phase ν}
    {result : CallResult} : call.Results d phase result := by
  cases call with
  | acquirePidFileWriteLock | destroyPidFile => cases h
  | _ => trivial

end SentryCall

namespace Retirement

variable {π ν : Type*} (record : π → PidFileRecord) (options : SentryOptions) (me : π) (mFile : ν)

def Agrees (s : Retirement π ν) : SentryEvent → Prop
  | .call result => ∀ call ∈ s.sentry.todo.head?, call.Results s.sentry.data (s.world.phase me) result
  | .callback _ => True

def Permits (s : Retirement π ν) : WorldEvent π ν → Prop
  | .call i call => i = me → call ≠ .crash ∧
      ∃ made ∈ s.sentry.todo.head?, made.Makes (s.world.phase me) call
  | .process .. => True

variable [DecidableEq π] [DecidableEq ν]

/-- A process that aborts closes its files. -/
def worldAfter (s : Retirement π ν) (sentry : SentryRun) : World π ν :=
  if s.sentry.Reaps sentry then s.world.after record me .reap .gone
  else if sentry.stage = .aborted ∧ s.world.phase me ≠ .gone then s.world.after record me .crash .gone
  else s.world

def callsAfter (s : Retirement π ν) : WorldEvent π ν → List (PidFileCall ν)
  | .call i call => if i = me then s.calls ++ [call] else s.calls
  | .process .. => s.calls

def renewedAfter (s : Retirement π ν) : WorldEvent π ν → Bool
  | .call _ (.file (.createExclusive f)) => s.renewed || f = mFile
  | _ => s.renewed

def verifiedAfter (s : Retirement π ν) : WorldEvent π ν → List π
  | .call i (.file (.read content)) =>
    if s.world.phase i = .view (.locked mFile) ∧ content = (record me).text ∧ s.renewed = false then
      i :: s.verified
    else s.verified
  | .call i (.file .close) | .call i .crash => s.verified.filter (· ≠ i)
  | _ => s.verified

def Step (parser : PidParser) (s : Retirement π ν) : RetirementEvent π ν → Retirement π ν → Prop
  | .sentry event, t => s.Agrees me event ∧ ∃ sentry, s.sentry.next event = some sentry ∧
      t = { s with sentry := sentry, world := s.worldAfter record me sentry }
  | .world event, t => s.Permits me event ∧ ∃ world, s.world.Step record parser event world ∧
      t = { s with
        world := world
        calls := s.callsAfter me event
        renewed := s.renewedAfter mFile event
        verified := s.verifiedAfter record me mFile event }

/-- `createPidFile` has returned `Ert_Pid(0)`, and the sentry enters `runSentry`. -/
structure Start (parser : PidParser) (s : Retirement π ν) : Prop where
  sentry : (SentryRun.system options).Reachable s.sentry
  todo : s.sentry.todo = runSentry options
  working : s.sentry.stage = .working
  mPidFile : options.mPidFile = true ∧ s.sentry.data.mPidFile = true
  child : s.sentry.data.child = .forked (record me).pid
  world : (World.system record parser).Reachable s.world
  created : s.world.phase me = .created mFile
  calls : s.calls = []
  renewed : s.renewed = false
  verified : s.verified = []

def system (parser : PidParser) : System (Retirement π ν) (RetirementEvent π ν) :=
  ⟨Start record options me mFile parser, Step record me mFile parser⟩

/-- The child is reaped only after the pid file has been locked and emptied. -/
def ReapsEmptied (s : Retirement π ν) (_ : RetirementEvent π ν) (t : Retirement π ν) : Prop :=
  s.sentry.Reaps t.sentry → .file (.flock .exclusive) ∈ s.calls ∧ .file .truncate ∈ s.calls

/-- The child is reaped only if no call of `runSentry` has failed up to the lock. -/
def ReapsInOrder (s : Retirement π ν) (_ : RetirementEvent π ν) (t : Retirement π ν) : Prop :=
  s.sentry.Reaps t.sentry → ¬ s.sentry.Unmade .acquirePidFileWriteLock

/-- Clients that have verified the child under their lock find it unreaped. -/
def Shelters (s : Retirement π ν) : Prop :=
  s.sentry.stage ≠ .aborted → ∀ i ∈ s.verified, s.sentry.data.child ≠ .reaped ∧
    s.world.processes (record me).pid = some (record me).signature

/-- What the calls so far amount to, by where the sentry is with its pid file:
`unmade` is whether the lock is still to be acquired or has been left, and
`locking` whether the sentry is at it. -/
def Tally (mFile : ν) (calls : List (PidFileCall ν)) (unmade locking : Prop) : Phase ν → Prop
  | .created f | .close (.locking f) => f = mFile ∧ unmade ∧ .file (.flock .exclusive) ∉ calls
  | .leaving _ _ => unmade ∧ .file (.flock .exclusive) ∉ calls
  | .close (.truncating f) => f = mFile ∧ (unmade → locking) ∧ .file (.flock .exclusive) ∈ calls
  | .close (.detecting f) | .close (.unlinking f) | .close (.closing f) =>
    f = mFile ∧ ¬ unmade ∧ .file (.flock .exclusive) ∈ calls ∧ .file .truncate ∈ calls
  | .closed | .gone => unmade ∧ .file (.flock .exclusive) ∉ calls ∨
    ¬ unmade ∧ .file (.flock .exclusive) ∈ calls ∧ .file .truncate ∈ calls
  | .aborting f => f = mFile
  | _ => False

section

variable {record options me mFile}

omit [DecidableEq π] in
/-- The calls of `closePidFile` behind the lock. -/
theorem Tally.closing {calls : List (PidFileCall ν)} {unmade locking : Prop} {call : PidFileCall ν}
    {p : Closing ν} {q : Phase ν} (hlocking : ¬ locking) (hp : ∀ f, p ≠ .locking f)
    (h : p.next call = some q) (ht : Tally mFile calls unmade locking (.close p)) :
    Tally mFile (calls ++ [call]) unmade locking q := by
  have hold : ∀ {made : PidFileCall ν}, made ∈ calls → made ∈ calls ++ [call] :=
    fun hmade => List.mem_append_left _ hmade
  unfold Closing.next at h
  split at h
  · exact absurd rfl (hp _)
  · exact absurd rfl (hp _)
  · cases h
    obtain ⟨rfl, hunmade, hlock⟩ := ht
    exact ⟨rfl, fun h => hlocking (hunmade h), hold hlock, List.mem_append_right _ List.mem_cons_self⟩
  · cases h
    exact ht.1
  · obtain ⟨rfl, hunmade, hlock, htruncate⟩ := ht
    split_ifs at h
    · cases h
      exact ⟨rfl, hunmade, hold hlock, hold htruncate⟩
    · cases h
      rfl
  · cases h
    exact ht.1
  · cases h
    obtain ⟨rfl, hunmade, hlock, htruncate⟩ := ht
    exact ⟨rfl, hunmade, hold hlock, hold htruncate⟩
  · cases h
    obtain ⟨rfl, hunmade, hlock, htruncate⟩ := ht
    exact ⟨rfl, hunmade, hold hlock, hold htruncate⟩
  · cases h
    exact ht.1
  · cases h
    exact .inr ⟨ht.2.1, hold ht.2.2.1, hold ht.2.2.2⟩
  · cases h

/-- Everything that a call on the pid file can be, once that has been announced. -/
inductive Gives : SentryCall → Phase ν → PidFileCall ν → Phase ν → Prop
  | retires (f : ν) :
    Gives .acquirePidFileWriteLock (.created f) (.retire true) (.close (.locking f))
  | locks (f : ν) : Gives .acquirePidFileWriteLock (.close (.locking f))
    (.file (.flock .exclusive)) (.close (.truncating f))
  | failsToLock (f : ν) :
    Gives .acquirePidFileWriteLock (.close (.locking f)) .failed (.leaving f false)
  | givesUp (f : ν) : Gives .destroyPidFile (.created f) (.retire false) (.leaving f false)
  | closes {phase : Closing ν} {call : PidFileCall ν} {q : Phase ν} (hbehind : ∀ f, phase ≠ .locking f)
    (hnext : phase.next call = some q) : Gives .destroyPidFile (.close phase) call q
  | leaves (f : ν) (locked : Bool) :
    Gives .destroyPidFile (.leaving f locked) (.file .close) .closed

omit [DecidableEq π] in
theorem gives_of_makes {parser : PidParser} {own : PidFileRecord} {made : SentryCall}
    {call : PidFileCall ν} {p q : Phase ν} (hcrash : call ≠ .crash) (hmakes : made.Makes p call)
    (h : p.next parser own call = some q) : Gives made p call q := by
  have hclose : ∀ phase : Closing ν, p = .close phase → phase.next call = some q := by
    rintro phase rfl
    exact (Phase.next_closing hcrash phase).symm.trans h
  cases made with
  | acquirePidFileWriteLock =>
    cases p with
    | created f =>
      obtain rfl : call = .retire true := hmakes
      cases h
      exact .retires f
    | close phase =>
      have hnext := hclose phase rfl
      cases phase with
      | locking f =>
        have hcases : call = .file (.flock .exclusive) ∧ q = .close (.truncating f) ∨
            call = .failed ∧ q = .leaving f false := by
          unfold Closing.next at hnext
          split at hnext <;> simp_all
        rcases hcases with ⟨rfl, rfl⟩ | ⟨rfl, rfl⟩
        · exact .locks f
        · exact .failsToLock f
      | _ => cases hmakes
    | _ => cases hmakes
  | destroyPidFile =>
    cases p with
    | created f =>
      obtain rfl : call = .retire false := hmakes
      cases h
      exact .givesUp f
    | close phase =>
      have hnext := hclose phase rfl
      cases phase with
      | locking f => cases hmakes
      | truncating | detecting | unlinking | closing => exact .closes (fun f he => by cases he) hnext
    | leaving f locked =>
      obtain rfl : call = .file .close := by
        unfold Phase.next at h
        split at h <;> simp_all
      cases h
      exact .leaves f locked
    | _ => cases hmakes
  | _ => cases hmakes

omit [DecidableEq π] in
theorem Gives.unended {made : SentryCall} {call : PidFileCall ν} {p q : Phase ν}
    (h : Gives made p call q) : p ≠ .closed ∧ p ≠ .gone ∧ q ≠ .gone := by
  cases h with
  | closes hbehind hnext =>
    refine ⟨by simp, by simp, ?_⟩
    rintro rfl
    unfold Closing.next at hnext
    split at hnext <;> try cases hnext
    split_ifs at hnext <;> cases hnext
  | retires | locks | failsToLock | givesUp | leaves => simp

omit [DecidableEq π] in
theorem Tally.next {calls : List (PidFileCall ν)} {unmade locking : Prop} {made : SentryCall}
    {call : PidFileCall ν} {p q : Phase ν} (hlocking : locking ↔ made = .acquirePidFileWriteLock)
    (h : Gives made p call q) (ht : Tally mFile calls unmade locking p) :
    Tally mFile (calls ++ [call]) unmade locking q := by
  have hnew : call ≠ .file (.flock .exclusive) → .file (.flock .exclusive) ∉ calls →
      .file (.flock .exclusive) ∉ calls ++ [call] := by
    intro hne hnot hmem
    rcases List.mem_append.mp hmem with hmem | hmem
    · exact hnot hmem
    · exact hne (List.mem_singleton.mp hmem).symm
  cases h with
  | retires f => exact ⟨ht.1, ht.2.1, hnew (fun he => by cases he) ht.2.2⟩
  | locks f => exact ⟨ht.1, fun _ => hlocking.mpr rfl, List.mem_append_right _ List.mem_cons_self⟩
  | failsToLock f => exact ⟨ht.2.1, hnew (fun he => by cases he) ht.2.2⟩
  | givesUp f => exact ⟨ht.2.1, hnew (fun he => by cases he) ht.2.2⟩
  | closes hbehind hnext =>
    exact ht.closing (fun h => SentryCall.noConfusion (hlocking.mp h)) hbehind hnext
  | leaves f locked => exact .inl ⟨ht.1, hnew (fun he => by cases he) ht.2⟩

/-- The pid file of the sentry, by what the sentry has made of it. -/
structure Phased (me : π) (mFile : ν) (s : Retirement π ν) : Prop where
  released : s.sentry.data.mPidFile = false → s.world.phase me = .closed ∨ s.world.phase me = .gone
  reaped : s.sentry.data.child = .reaped ↔ s.world.phase me = .gone
  tally : Tally mFile s.calls (s.sentry.Unmade .acquirePidFileWriteLock)
    (s.sentry.todo.head? = some .acquirePidFileWriteLock) (s.world.phase me)

/-- What holds in every state of the sentry and the users of the pid file. -/
structure Sound (record : π → PidFileRecord) (options : SentryOptions) (me : π) (mFile : ν)
    (parser : PidParser) (s : Retirement π ν) : Prop where
  file : options.mPidFile = true
  world : (World.system record parser).Reachable s.world
  within : s.sentry.Within (runSentry options) closeSentry
  meets : s.sentry.Meets SentryCall.perform SentryRun.Reaping (fun _ _ => True)
    (fun _ => SentryRun.Reaping)
  phased : s.sentry.stage ≠ .aborted → s.Phased me mFile

variable {parser : PidParser} {s : Retirement π ν}

theorem Start.sound (hs : Start record options me mFile parser s) :
    Sound record options me mFile parser s := by
  have hleft : s.sentry.left = [] := ((SentryRun.within_of_reachable hs.sentry).working hs.working).2
  have hsplit := SentryRun.runSentry_eq hs.mPidFile.1
  refine ⟨hs.mPidFile.1, hs.world, ⟨fun _ => ⟨?_, hleft⟩, fun hclosing => ?_⟩, ?_,
    fun _ => ⟨fun h => ?_, ?_, ?_⟩⟩
  · rw [hs.todo]
  · rw [hs.working] at hclosing
    cases hclosing
  · unfold Course.Meets
    rw [hs.working, hs.todo]
    exact ⟨hleft, SentryRun.runSentry_outline hs.mPidFile.1 _⟩
  · rw [hs.mPidFile.2] at h
    cases h
  · rw [hs.child, hs.created]
    exact iff_of_false SentryChild.noConfusion (fun he => by cases he)
  · have hunmade : s.sentry.Unmade .acquirePidFileWriteLock := by
      refine .inl ?_
      rw [hs.todo, hsplit]
      exact List.mem_append_right _ List.mem_cons_self
    rw [hs.created, hs.calls]
    exact ⟨rfl, hunmade, List.not_mem_nil⟩

/-- What a call of the sentry does to the child and to its record of the pid file. -/
theorem Sound.call_cases (hi : Sound record options me mFile parser s) {result : CallResult}
    {sentry : SentryRun} (h : s.sentry.next (.call result) = some sentry) :
    (sentry.data.child = s.sentry.data.child ∨
      sentry.data.child = .reaped ∧ s.sentry.data.mPidFile = false) ∧
    (sentry.data.mPidFile = s.sentry.data.mPidFile ∨ s.sentry.todo.head? = some .destroyPidFile) := by
  have hstage := Course.unaborted_of_next h
  rcases Course.data_of_next h with he | ⟨call, calls, ending, htodo, hcall⟩
  · rw [he]
    exact ⟨.inl rfl, .inl rfl⟩
  · have hmem : call ≠ .forkProcessChild ∧ (call.files = true → call = .destroyPidFile) := by
      have hhead : call ∈ s.sentry.todo := by
        rw [htodo]
        exact List.mem_cons_self
      rcases hi.within.mem hstage hhead with hmem | hmem
      · exact SentryRun.of_mem_runSentry hi.file hmem
      · exact ⟨(SentryRun.of_mem_closeSentry hmem).1, (SentryRun.of_mem_closeSentry hmem).2.2⟩
    constructor
    · refine (SentryCall.perform_child hmem.1 hcall).imp_right fun ⟨hreaps, hreaped⟩ => ⟨hreaped, ?_⟩
      have hreaping := hi.meets.here hstage
      rw [htodo] at hreaping
      exact hreaping call rfl hreaps
    · cases hfiles : call.files with
      | false => exact .inl (SentryCall.perform_mPidFile hfiles hcall)
      | true =>
        rw [htodo, hmem.2 hfiles]
        exact .inr rfl

theorem Sound.closed_of_reaps (hi : Sound record options me mFile parser s) {result : CallResult}
    {sentry : SentryRun} (h : s.sentry.next (.call result) = some sentry)
    (hreaps : s.sentry.Reaps sentry) : s.world.phase me = .closed := by
  have hphased := hi.phased (Course.unaborted_of_next h)
  rcases (hi.call_cases h).1 with he | ⟨-, hfile⟩
  · exact absurd (he.symm.trans hreaps.2) hreaps.1
  · refine (hphased.released hfile).resolve_right fun hgone => hreaps.1 (hphased.reaped.mpr hgone)

omit [DecidableEq π] [DecidableEq ν] in
theorem Tally.unlocked {calls : List (PidFileCall ν)} {unmade unmade' locking locking' : Prop}
    {p : Phase ν} (hlocking : ¬ locking) (hunmade : unmade' ↔ unmade)
    (ht : Tally mFile calls unmade locking p) : Tally mFile calls unmade' locking' p := by
  cases p with
  | close phase =>
    cases phase with
    | truncating f => exact ⟨ht.1, fun h => absurd (ht.2.1 (hunmade.mp h)) hlocking, ht.2.2⟩
    | locking | detecting | unlinking | closing =>
      unfold Tally at ht ⊢
      rwa [hunmade]
  | created | leaving | closed | gone =>
    unfold Tally at ht ⊢
    rwa [hunmade]
  | aborting f => exact ht
  | idle | generate | create | view => cases ht

theorem worldAfter_of_child {sentry : SentryRun} (hchild : sentry.data.child = s.sentry.data.child)
    (hstage : sentry.stage ≠ .aborted) : s.worldAfter record me sentry = s.world := by
  have hreaps : ¬ s.sentry.Reaps sentry := fun h => h.1 (hchild.symm.trans h.2)
  rw [worldAfter, if_neg hreaps, if_neg fun h => hstage h.1]

theorem phase_worldAfter {sentry : SentryRun} (hstage : sentry.stage ≠ .aborted) :
    (s.worldAfter record me sentry).phase me =
      if s.sentry.Reaps sentry then .gone else s.world.phase me := by
  unfold worldAfter
  split_ifs with hreaps habort
  · exact World.after_phase_self _
  · exact absurd habort.1 hstage
  · rfl

omit [DecidableEq π] in
theorem next_crash {p : Phase ν} {own : PidFileRecord} (h : p ≠ .gone) :
    p.next parser own .crash = some .gone := by
  cases p <;> first | exact absurd rfl h | rfl

theorem Sound.world_call (hi : Sound record options me mFile parser s) {result : CallResult}
    {sentry : SentryRun} (h : s.sentry.next (.call result) = some sentry) :
    (World.system record parser).Reachable (s.worldAfter record me sentry) := by
  unfold worldAfter
  split_ifs with hreaps habort
  · refine World.reachable_call hi.world me .reap trivial ?_
    rw [hi.closed_of_reaps h hreaps]
    rfl
  · exact World.reachable_call hi.world me .crash trivial (next_crash habort.2)
  · exact hi.world

theorem Sound.tally_lock (hi : Sound record options me mFile parser s) {result : CallResult}
    {sentry : SentryRun} {rest : List SentryCall} (hstage : s.sentry.stage ≠ .aborted)
    (htodo : s.sentry.todo = .acquirePidFileWriteLock :: rest) (hagrees : s.Agrees me (.call result))
    (h : s.sentry.next (.call result) = some sentry) :
    sentry.data = s.sentry.data ∧ Tally mFile s.calls (sentry.Unmade .acquirePidFileWriteLock)
      (sentry.todo.head? = some .acquirePidFileWriteLock) (s.world.phase me) := by
  have hhead : .acquirePidFileWriteLock ∈ s.sentry.todo.head? := by
    rw [htodo]
    exact rfl
  have hresults := hagrees _ hhead
  have htally := (hi.phased hstage).tally
  have hworking : s.sentry.stage = .working := by
    cases he : s.sentry.stage with
    | working => rfl
    | closing =>
      have hsuffix := (hi.within.closing he).1
      rw [htodo] at hsuffix
      exact absurd rfl (SentryRun.of_mem_closeSentry (hsuffix.subset List.mem_cons_self)).2.1
    | aborted => exact absurd he hstage
  obtain ⟨hsuffix, hleft⟩ := hi.within.working hworking
  rw [htodo] at hsuffix
  have hnext : Course.next SentryCall.perform closeSentry s.sentry result = some sentry := h
  rw [Course.next_cons hstage htodo] at hnext
  cases hphase : s.world.phase me with
  | close phase =>
    rw [hphase] at hresults htally
    cases phase with
    | truncating f =>
      obtain rfl : result = .ok := hresults
      obtain rfl := Option.some.inj hnext
      refine ⟨rfl, htally.1, fun hunmade => ?_, htally.2.2⟩
      rcases hunmade with hmem | hmem
      · exact absurd hmem (SentryRun.lock_notMem hi.file hsuffix)
      · have hmem : .acquirePidFileWriteLock ∈ s.sentry.left := hmem
        rw [hleft] at hmem
        cases hmem
    | locking | detecting | unlinking | closing => cases hresults
  | leaving f locked =>
    rw [hphase] at hresults htally
    obtain rfl : result = .failed := hresults
    obtain rfl := Option.some.inj hnext
    simp only [Course.after, hworking]
    exact ⟨trivial, .inr List.mem_cons_self, htally.2⟩
  | _ =>
    rw [hphase] at hresults
    cases hresults

/-- The pid file is given up once it is closed. -/
theorem Sound.released_call (hi : Sound record options me mFile parser s) {result : CallResult}
    {sentry : SentryRun} (hagrees : s.Agrees me (.call result))
    (h : s.sentry.next (.call result) = some sentry) (hstage : sentry.stage ≠ .aborted)
    (hfile : sentry.data.mPidFile = false) : s.world.phase me = .closed ∨ s.world.phase me = .gone := by
  have hbefore := Course.unaborted_of_next h
  have hphased := hi.phased hbefore
  rcases (hi.call_cases h).2 with he | hhead
  · exact hphased.released (he.symm.trans hfile)
  · have hresults := hagrees .destroyPidFile hhead
    cases hmPidFile : s.sentry.data.mPidFile with
    | false => exact hphased.released hmPidFile
    | true =>
      cases hphase : s.world.phase me with
      | closed => exact .inl rfl
      | aborting f =>
        rw [hphase] at hresults
        obtain rfl : result = .failed := hresults
        obtain ⟨rest, htodo⟩ := List.head?_eq_some_iff.mp hhead
        have hnext : Course.next SentryCall.perform closeSentry s.sentry .failed = some sentry := h
        rw [Course.next_cons hbefore htodo] at hnext
        simp only [SentryCall.perform, SentryCall.failure, hmPidFile, if_true, Option.map_some,
          Option.some.injEq] at hnext
        obtain rfl := hnext
        exact absurd rfl hstage
      | _ =>
        rw [hphase] at hresults
        exact absurd (hmPidFile.symm.trans hresults) Bool.noConfusion

theorem Sound.phased_call (hi : Sound record options me mFile parser s) {result : CallResult}
    {sentry : SentryRun} (hagrees : s.Agrees me (.call result))
    (h : s.sentry.next (.call result) = some sentry) (hstage : sentry.stage ≠ .aborted) :
    Phased me mFile { s with sentry := sentry, world := s.worldAfter record me sentry } := by
  have hbefore := Course.unaborted_of_next h
  have hphased := hi.phased hbefore
  have hphase : (s.worldAfter record me sentry).phase me =
      if s.sentry.Reaps sentry then .gone else s.world.phase me := phase_worldAfter hstage
  refine ⟨fun hfile => ?_, ?_, ?_⟩
  · dsimp only
    rw [hphase]
    split_ifs
    · exact .inr rfl
    · exact hi.released_call hagrees h hstage hfile
  · dsimp only
    rw [hphase]
    split_ifs with hreaps
    · exact iff_of_true hreaps.2 rfl
    · rw [← hphased.reaped]
      constructor
      · intro hreaped
        by_contra hunreaped
        exact hreaps ⟨hunreaped, hreaped⟩
      · intro hreaped
        rcases (hi.call_cases h).1 with he | ⟨he, -⟩
        · rw [he]
          exact hreaped
        · exact he
  · dsimp only
    rw [hphase]
    by_cases hhead : s.sentry.todo.head? = some .acquirePidFileWriteLock
    · obtain ⟨rest, htodo⟩ := List.head?_eq_some_iff.mp hhead
      obtain ⟨hdata, htally⟩ := hi.tally_lock hbefore htodo hagrees h
      have hreaps : ¬ s.sentry.Reaps sentry := by
        rintro ⟨hunreaped, hreaped⟩
        rw [hdata] at hreaped
        exact hunreaped hreaped
      rw [if_neg hreaps]
      exact htally
    · have hlock : SentryCall.acquirePidFileWriteLock ∉ closeSentry := by decide
      rcases hi.within.unmade hlock h hstage with hunmade | ⟨rest, data, htodo, -⟩
      · have htally : Tally mFile s.calls (sentry.Unmade .acquirePidFileWriteLock)
            (sentry.todo.head? = some .acquirePidFileWriteLock) (s.world.phase me) :=
          hphased.tally.unlocked hhead hunmade
        split_ifs with hreaps
        · rw [hi.closed_of_reaps h hreaps] at htally
          exact htally
        · exact htally
      · exact absurd (by rw [htodo]; rfl) hhead

theorem Sound.sentry_step (hi : Sound record options me mFile parser s) {event : SentryEvent}
    {sentry : SentryRun} (hagrees : s.Agrees me event) (h : s.sentry.next event = some sentry) :
    Sound record options me mFile parser
      { s with sentry := sentry, world := s.worldAfter record me sentry } := by
  cases event with
  | call result =>
    exact ⟨hi.file, hi.world_call h, hi.within.next h,
      hi.meets.next (fun d _ => SentryRun.closeSentry_reaping d)
        (fun _ d _ => SentryRun.closeSentry_reaping d) h,
      hi.phased_call hagrees h⟩
  | callback callback =>
    obtain ⟨hstage, -, rfl⟩ := SentryRun.next_callback.mp h
    rw [worldAfter_of_child rfl hstage]
    exact hi

theorem Sound.world_step (hi : Sound record options me mFile parser s) {event : WorldEvent π ν}
    {world : World π ν} (hpermits : s.Permits me event) (h : s.world.Step record parser event world) :
    Sound record options me mFile parser
      { s with
        world := world
        calls := s.callsAfter me event
        renewed := s.renewedAfter mFile event
        verified := s.verifiedAfter record me mFile event } := by
  refine ⟨hi.file, hi.world.tail h, hi.within, hi.meets, fun hstage => ?_⟩
  have hphased := hi.phased hstage
  by_cases hmine : ∃ call, event = .call me call
  · obtain ⟨call, rfl⟩ := hmine
    obtain ⟨hcrash, made, hmade, hmakes⟩ := hpermits rfl
    obtain ⟨-, q, hnext, rfl⟩ := h
    have hgives := gives_of_makes hcrash hmakes hnext
    obtain ⟨hclosed, hgone, hq⟩ := hgives.unended
    have hcalls : s.callsAfter me (.call me call) = s.calls ++ [call] := if_pos rfl
    refine ⟨fun hfile => ?_, ?_, ?_⟩
    · exact absurd (hphased.released hfile) (not_or.mpr ⟨hclosed, hgone⟩)
    · dsimp only
      rw [World.after_phase_self]
      exact iff_of_false (fun hreaped => hgone (hphased.reaped.mp hreaped)) hq
    · dsimp only
      rw [World.after_phase_self, hcalls]
      refine hphased.tally.next ?_ hgives
      rw [Option.mem_def.mp hmade]
      exact Option.some_inj
  · have hothers : ∀ call, event ≠ .call me call := fun call he => hmine ⟨call, he⟩
    have hphase : world.phase me = s.world.phase me := World.phase_of_others h hothers
    have hcalls : s.callsAfter me event = s.calls := by
      cases event with
      | call i call => exact if_neg fun he => hothers call (by rw [he])
      | process => rfl
    refine ⟨?_, ?_, ?_⟩
    · dsimp only
      rw [hphase]
      exact hphased.released
    · dsimp only
      rw [hphase]
      exact hphased.reaped
    · dsimp only
      rw [hphase, hcalls]
      exact hphased.tally

theorem sound_of_reachable (hs : (system record options me mFile parser).Reachable s) :
    Sound record options me mFile parser s := by
  refine System.Reachable.invariant (P := Sound record options me mFile parser)
    (fun _ => Start.sound) ?_ hs
  rintro s (event | event) t - hi ⟨hpermits, u, hstep, rfl⟩
  · exact hi.sentry_step hpermits hstep
  · exact hi.world_step hpermits hstep

end

end Retirement

end PidSentry
