import PidSentry.PidFileWorld

/-! A pid file whose directory is open to outsiders: they can remove the entry or
let it name another file, between any two calls of a sentry that closes its own. -/

namespace PidSentry

inductive ExposedEvent (π ν : Type*)
  | user (event : WorldEvent π ν)
  | outsider (entry : Option ν)

def Closing.remaining {ν : Type*} : Closing ν → Nat
  | locking _ => 5
  | truncating _ => 4
  | detecting _ => 3
  | unlinking _ => 2
  | closing _ => 1

/-- The file that is held with the write lock. -/
def Closing.held {ν : Type*} : Closing ν → Option ν
  | locking _ => none
  | truncating mFile | detecting mFile | unlinking mFile | closing mFile => some mFile

def Closing.emptied {ν : Type*} : Closing ν → Option ν
  | locking _ | truncating _ => none
  | detecting mFile | unlinking mFile | closing mFile => some mFile

theorem Closing.held_of_emptied {ν : Type*} {phase : Closing ν} {f : ν} (h : phase.emptied = some f) :
    phase.held = some f := by
  cases phase <;> first | exact h | cases h

/-- Everything that a call of `closePidFile` under the write lock can lead to. -/
inductive Closing.Leads {ν : Type*} (f : ν) : Closing ν → PidFileCall ν → Phase ν → Prop
  | truncated : Leads f (truncating f) (.file .truncate) (.close (detecting f))
  | named : Leads f (detecting f) (.file (.lstat (some f))) (.close (unlinking f))
  | zombie {entry : Option ν} (hentry : entry ≠ some f) :
    Leads f (detecting f) (.file (.lstat entry)) (.aborting f)
  | unlinked : Leads f (unlinking f) (.file .unlink) (.close (closing f))
  | absent : Leads f (unlinking f) (.file .absent) (.close (closing f))
  | closed : Leads f (closing f) (.file .close) .closed
  | failed (phase : Closing ν) : Leads f phase .failed (.aborting f)
  | crashed (phase : Closing ν) : Leads f phase .crash .gone

theorem Closing.leads {ν : Type*} [DecidableEq ν] {parser : PidParser} {record : PidFileRecord}
    {phase : Closing ν} {f : ν} (hheld : phase.held = some f) {call : PidFileCall ν} {q : Phase ν}
    (h : (Phase.close phase).next parser record call = some q) : Leads f phase call q := by
  by_cases hcrash : call = .crash
  · subst hcrash
    obtain rfl := Option.some.inj h
    exact .crashed phase
  · rw [Phase.next_closing hcrash] at h
    unfold Closing.next at h
    split at h
    · cases hheld
    · cases hheld
    · obtain rfl := Option.some.inj hheld
      obtain rfl := Option.some.inj h
      exact .truncated
    · obtain rfl := Option.some.inj hheld
      obtain rfl := Option.some.inj h
      exact .failed _
    · obtain rfl := Option.some.inj hheld
      split_ifs at h with hentry
      · subst hentry
        obtain rfl := Option.some.inj h
        exact .named
      · obtain rfl := Option.some.inj h
        exact .zombie hentry
    · obtain rfl := Option.some.inj hheld
      obtain rfl := Option.some.inj h
      exact .failed _
    · obtain rfl := Option.some.inj hheld
      obtain rfl := Option.some.inj h
      exact .unlinked
    · obtain rfl := Option.some.inj hheld
      obtain rfl := Option.some.inj h
      exact .absent
    · obtain rfl := Option.some.inj hheld
      obtain rfl := Option.some.inj h
      exact .failed _
    · obtain rfl := Option.some.inj hheld
      obtain rfl := Option.some.inj h
      exact .closed
    · cases h

theorem Creating.next_close {ν : Type*} [DecidableEq ν] {record : PidFileRecord} {p : Creating ν}
    {call : PidFileCall ν} {phase : Closing ν} (h : p.next record call = some (.close phase)) :
    phase.emptied = none := by
  unfold Creating.next at h
  split at h
  all_goals try (cases h <;> rfl)
  · split_ifs at h <;> cases h
  · obtain ⟨-, hnext⟩ := Option.ite_none_right_eq_some.mp h
    unfold fetched at hnext
    split at hnext
    · dsimp only at hnext
      split_ifs at hnext <;> cases hnext
      rfl
    · cases hnext
      rfl
    · cases hnext
      rfl
  · obtain ⟨-, hnext⟩ := Option.ite_none_right_eq_some.mp h
    split_ifs at hnext <;> cases hnext

theorem Generating.next_ne_close {ν : Type*} [DecidableEq ν] {parser : PidParser} {p : Generating ν}
    {call : PidFileCall ν} {phase : Closing ν} : p.next parser call ≠ some (.close phase) := by
  intro h
  unfold Generating.next at h
  split at h
  all_goals try (cases h)
  · cases hread : readPidFile parser _ <;> rw [hread] at h <;> cases h
  · obtain ⟨-, hnext⟩ := Option.ite_none_right_eq_some.mp h
    unfold matched at hnext
    split at hnext
    · split_ifs at hnext <;> cases hnext
    · cases hnext
    · cases hnext
  · split_ifs at h <;> cases h

/-- Only `closePidFile` itself goes on with a file that it has emptied. -/
theorem Phase.exists_close_of_next {ν : Type*} [DecidableEq ν] {parser : PidParser}
    {record : PidFileRecord} {p : Phase ν} {call : PidFileCall ν} {phase : Closing ν} {f : ν}
    (h : p.next parser record call = some (.close phase)) (hemptied : phase.emptied = some f) :
    ∃ before, p = .close before ∧ before.held = some f := by
  by_cases hcrash : call = .crash
  · subst hcrash
    cases p <;> cases h
  · cases p with
    | generate p =>
      rw [Phase.next_generating hcrash] at h
      exact absurd h Generating.next_ne_close
    | create p =>
      rw [Phase.next_creating hcrash] at h
      rw [Creating.next_close h] at hemptied
      cases hemptied
    | close before =>
      rw [Phase.next_closing hcrash] at h
      refine ⟨before, rfl, ?_⟩
      unfold Closing.next at h
      split at h
      all_goals try (cases h <;> exact hemptied)
      split_ifs at h
      · cases h
        exact hemptied
      · cases h
    | view p =>
      rcases Phase.next_view h with ⟨v, he⟩ | he <;> cases he
    | created mFile =>
      cases call with
      | retire orderly =>
        cases orderly <;> cases h
        cases hemptied
      | crash => exact absurd rfl hcrash
      | file | failed | fork | fetch | reap => cases h
    | leaving mFile locked =>
      cases call with
      | file call => cases call <;> cases h
      | crash => exact absurd rfl hcrash
      | failed | fork | fetch | reap | retire => cases h
    | idle | aborting | closed | gone => cases call <;> cases h

namespace World

variable {π ν : Type*} [DecidableEq π] [DecidableEq ν] (record : π → PidFileRecord)

def ExposedStep (parser : PidParser) (w : World π ν) : ExposedEvent π ν → World π ν → Prop
  | .user event, w' => w.Step record parser event w'
  | .outsider entry, w' => w' = { w with files := { w.files with entry := entry } }

def exposed (parser : PidParser) : System (World π ν) (ExposedEvent π ν) :=
  ⟨Start, ExposedStep record parser⟩

variable {record} {parser : PidParser} {w w' : World π ν} {event : ExposedEvent π ν}

theorem Tracked.exposedStep (hw : w.Tracked record) (hstep : w.ExposedStep record parser event w') :
    w'.Tracked record := by
  cases event with
  | user event => exact hw.step hstep
  | outsider entry =>
    obtain rfl := hstep
    exact ⟨hw.descriptor, hw.exclusive, hw.owner, hw.process, hw.parent, hw.formatted, hw.contents⟩

theorem tracked_of_exposed (hw : (exposed record parser).Reachable w) : w.Tracked record :=
  System.Reachable.invariant (P := fun w => w.Tracked record) (fun _ => Start.tracked)
    (fun _ _ _ _ hi hs => hi.exposedStep hs) hw

/-- A file that has been emptied stays so until it is closed. -/
def Emptied (w : World π ν) : Prop :=
  ∀ i phase f, w.phase i = .close phase → phase.emptied = some f → w.files.content f = []

/-- A call of `closePidFile` with the write lock that is survived: it gets on, or
releases a file that is empty, and removes no name of another file. -/
structure Survives (w : World π ν) (i : π) (phase : Closing ν) (f : ν) (call : PidFileCall ν)
    (w' : World π ν) : Prop where
  proceeds : call ≠ .crash →
    (∃ later, w'.phase i = .close later ∧ later.held = some f ∧ later.remaining < phase.remaining) ∨
      w'.phase i = .closed
  empties : call = .file .truncate → w'.files.content f = []
  unlinks : call = .file .unlink → w.files.entry = some f
  releases : w'.phase i = .closed →
    w'.files.descriptor i = .closed ∧ w'.files.content f = []

/-- Whatever step is taken, if it is one of `closePidFile`, it is survived. -/
def ClosesSafely (w : World π ν) (event : ExposedEvent π ν) (w' : World π ν) : Prop :=
  ∀ i phase f call, event = .user (.call i call) → w.phase i = .close phase →
    phase.held = some f → w.Survives i phase f call w'

/-- No call of `closePidFile` fails, and its file has its name when it looks for it
and also when it removes the name. -/
def Undisturbed (w : World π ν) (event : ExposedEvent π ν) : Prop :=
  ∀ i phase f call, event = .user (.call i call) → w.phase i = .close phase →
    phase.held = some f → call ≠ .failed ∧
      ((∃ entry, call = .file (.lstat entry)) ∨ call = .file .unlink → w.files.entry = some f)

omit [DecidableEq π] [DecidableEq ν] in
theorem file_of_held (hw : w.Tracked record) {i : π} {phase : Closing ν} {f : ν}
    (hphase : w.phase i = .close phase) (hheld : phase.held = some f) :
    w.files.descriptor i = .opened f (some .exclusive) := by
  rw [hw.descriptor, hphase]
  cases phase <;> cases hheld <;> rfl

theorem content_of_truncate (hw : w.Tracked record) {i : π} {phase : Closing ν} {f : ν}
    (hphase : w.phase i = .close phase) (hheld : phase.held = some f) (q : Phase ν) :
    (w.after record i (.file .truncate) q).files.content f = [] := by
  have hfile : (w.files.descriptor i).file = some f := by
    rw [file_of_held hw hphase hheld]
    rfl
  exact FileSystem.perform_content_self hfile rfl

theorem content_of_steps (hw : w.Tracked record) {i : π} {phase : Closing ν} {f : ν}
    (hphase : w.phase i = .close phase) (hheld : phase.held = some f) {call : PidFileCall ν}
    (hallows : w.Allows record i call) (hrevises : call.revises = false) (q : Phase ν) :
    (w.after record i call q).files.content f = w.files.content f := by
  have hfile : (w.files.descriptor i).file = some f := by
    rw [file_of_held hw hphase hheld]
    rfl
  refine filesAfter_content hallows hfile fun hrevised => ?_
  rw [hrevises] at hrevised
  cases hrevised

theorem Emptied.step (hi : w.Emptied) (hw : w.Tracked record)
    (hstep : w.ExposedStep record parser event w') : w'.Emptied := by
  intro i phase f hphase hemptied
  cases event with
  | outsider entry =>
    obtain rfl := hstep
    exact hi i phase f hphase hemptied
  | user event =>
    by_cases hown : ∃ call, event = .call i call
    · obtain ⟨call, rfl⟩ := hown
      obtain ⟨hallows, q, hnext, rfl⟩ := hstep
      rw [after_phase_self] at hphase
      subst hphase
      obtain ⟨before, hbefore, hheld⟩ := Phase.exists_close_of_next hnext hemptied
      rw [hbefore] at hnext
      cases Closing.leads hheld hnext with
      | truncated => exact content_of_truncate hw hbefore hheld _
      | named | unlinked | absent =>
        rw [content_of_steps hw hbefore hheld hallows rfl]
        exact hi i _ f hbefore rfl
    · have hsame := phase_of_others hstep fun call he => hown ⟨call, he⟩
      rw [hsame] at hphase
      have hheld := Closing.held_of_emptied hemptied
      have hlock := file_of_held hw hphase hheld
      rw [hw.descriptor] at hlock
      rw [hw.content_of_locked hstep (fun call he => hown ⟨call, he⟩) hlock]
      exact hi i phase f hphase hemptied

theorem emptied_of_exposed (hw : (exposed record parser).Reachable w) : w.Emptied := by
  refine System.Reachable.invariant (P := fun w => w.Emptied) ?_ ?_ hw
  · intro w hw i phase f hphase
    rcases hw.2 i with he | he <;> rw [he] at hphase <;> cases hphase
  · exact fun w event w' hr hi hstep => hi.step (tracked_of_exposed hr) hstep

theorem closesSafely_iff (hw : (exposed record parser).Reachable w)
    (hstep : w.ExposedStep record parser event w') :
    w.ClosesSafely event w' ↔ w.Undisturbed event := by
  have htracked := tracked_of_exposed hw
  constructor
  · rintro hsafe i phase f call rfl hphase hheld
    have hsurvives := hsafe i phase f call rfl hphase hheld
    obtain ⟨hallows, q, hnext, rfl⟩ := hstep
    rw [hphase] at hnext
    have hproceeds := hsurvives.proceeds
    rw [after_phase_self] at hproceeds
    cases Closing.leads hheld hnext with
    | failed =>
      rcases hproceeds (by simp) with ⟨_, he, -⟩ | he <;> cases he
    | zombie hentry =>
      rcases hproceeds (by simp) with ⟨_, he, -⟩ | he <;> cases he
    | named => exact ⟨by simp, fun _ => hallows⟩
    | unlinked => exact ⟨by simp, fun _ => hsurvives.unlinks rfl⟩
    | truncated | absent | closed | crashed => simp
  · rintro hundisturbed i phase f call rfl hphase hheld
    obtain ⟨hsucceeds, hentry⟩ := hundisturbed i phase f call rfl hphase hheld
    obtain ⟨hallows, q, hnext, rfl⟩ := hstep
    rw [hphase] at hnext
    have hemptied : ∀ g, phase.emptied = some g → w.files.content g = [] := fun g =>
      emptied_of_exposed hw i phase g hphase
    cases Closing.leads hheld hnext with
    | failed => exact absurd rfl hsucceeds
    | zombie hother => exact absurd (hallows.symm.trans (hentry (.inl ⟨_, rfl⟩))) hother
    | truncated =>
      refine ⟨fun _ => .inl ⟨_, after_phase_self _, rfl, Nat.lt_succ_self _⟩,
        fun _ => content_of_truncate htracked hphase hheld _, by simp, fun he => ?_⟩
      rw [after_phase_self] at he
      cases he
    | named =>
      refine ⟨fun _ => .inl ⟨_, after_phase_self _, rfl, Nat.lt_succ_self _⟩, by simp, by simp, fun he => ?_⟩
      rw [after_phase_self] at he
      cases he
    | unlinked | absent =>
      refine ⟨fun _ => .inl ⟨_, after_phase_self _, rfl, Nat.lt_succ_self _⟩, by simp, ?_, fun he => ?_⟩
      · exact fun he => hentry (.inr he)
      · rw [after_phase_self] at he
        cases he
    | closed =>
      refine ⟨fun _ => .inr (after_phase_self _), by simp, by simp, fun _ => ⟨?_, ?_⟩⟩
      · have hdescriptor : (w.filesAfter i (.file .close)).descriptor i = _ :=
          filesAfter_descriptor_self
        refine hdescriptor.trans ?_
        cases w.files.descriptor i <;> rfl
      · rw [content_of_steps htracked hphase hheld hallows rfl]
        exact hemptied f rfl
    | crashed =>
      refine ⟨fun he => absurd rfl he, by simp, by simp, fun he => ?_⟩
      rw [after_phase_self] at he
      cases he

/-- Whatever an outsider has done, `closePidFile` can make its next call. -/
theorem exists_closing_step (hw : w.Tracked record) {i : π} {phase : Closing ν} {f : ν}
    (hphase : w.phase i = .close phase) (hheld : phase.held = some f) :
    ∃ call w', w.ExposedStep record parser (.user (.call i call)) w' ∧ call ≠ .crash ∧
      call ≠ .failed := by
  have hstep : ∀ call q, w.Allows record i call → (Phase.close phase).next parser (record i) call = some q →
      w.ExposedStep record parser (.user (.call i call)) (w.after record i call q) :=
    fun call q hallows hnext => ⟨hallows, q, hphase ▸ hnext, rfl⟩
  have hopen := file_of_held hw hphase hheld
  cases phase with
  | locking g => cases hheld
  | truncating g =>
    have hallows : w.Allows record i (.file .truncate) := by simp [Allows, FileSystem.Allows, hopen]
    exact ⟨_, _, hstep (.file .truncate) _ hallows rfl, by simp, by simp⟩
  | detecting g =>
    by_cases hentry : w.files.entry = some g
    · exact ⟨_, _, hstep (.file (.lstat (some g))) (.close (.unlinking g)) hentry
        (by simp [Phase.next, Closing.next]), by simp, by simp⟩
    · exact ⟨_, _, hstep (.file (.lstat w.files.entry)) (.aborting g) rfl
        (by simp [Phase.next, Closing.next, hentry]), by simp, by simp⟩
  | unlinking g =>
    by_cases hentry : w.files.entry = none
    · exact ⟨_, _, hstep (.file .absent) _ hentry rfl, by simp, by simp⟩
    · exact ⟨_, _, hstep (.file .unlink) _ hentry rfl, by simp, by simp⟩
  | closing g => exact ⟨_, _, hstep (.file .close) _ trivial rfl, by simp, by simp⟩

/-- With outsiders at work, every call of `closePidFile` under the write lock is
survived exactly if none fails and the file has its name whenever it is looked for
or unlinked; and there always is a next call to make. -/
theorem closePidFile_survives_iff (parser : PidParser) (hw : (exposed record parser).Reachable w)
    {run : List (ExposedEvent π ν × World π ν)} (hr : (exposed record parser).IsRun w run) :
    (System.Throughout (fun w event w' => w.ClosesSafely event w') w run ↔
      System.Throughout (fun w event _ => w.Undisturbed event) w run) ∧
    ∀ w : World π ν, (exposed record parser).Reachable w → ∀ i phase f,
      w.phase i = .close phase → phase.held = some f →
        ∃ call w', w.ExposedStep record parser (.user (.call i call)) w' ∧ call ≠ .crash ∧ call ≠ .failed := by
  constructor
  · refine System.IsRun.throughout_iff ?_ hw hr
    exact fun w event w' hs hstep => closesSafely_iff hs hstep
  · intro w hs i phase f hphase hheld
    have htracked : w.Tracked record := tracked_of_exposed hs
    exact exists_closing_step htracked hphase hheld

theorem exposed_call (hw : (exposed record parser).Reachable w) (i : π) (call : PidFileCall ν)
    {q : Phase ν} (hallows : w.Allows record i call)
    (hnext : (w.phase i).next parser (record i) call = some q) :
    (exposed record parser).Reachable (w.after record i call q) :=
  hw.tail (show (exposed record parser).step w (.user (.call i call)) _ from
    ⟨hallows, q, hnext, rfl⟩)

section

def lonelyRecord : PidFileRecord :=
  ⟨7, [97], ⟨[120], by decide, by decide, by decide, by decide⟩, by decide, by decide, by decide,
    by decide⟩

def vacant : World Unit Nat := ⟨⟨none, fun _ => [], fun _ => .closed⟩, fun _ => none, fun _ => .idle⟩

theorem vacant_reachable : (exposed (fun _ => lonelyRecord) .unsigned).Reachable vacant :=
  .of_init ⟨fun _ => rfl, fun _ => .inl rfl⟩

/-- The run of the only sentry that makes these calls. -/
def lonelyRun (w : World Unit Nat) : List (PidFileCall Nat) → List (ExposedEvent Unit Nat × World Unit Nat)
  | [] => []
  | call :: calls =>
    match (w.phase ()).next .unsigned lonelyRecord call with
    | none => []
    | some q =>
      let w' := w.after (fun _ => lonelyRecord) () call q
      (.user (.call () call), w') :: lonelyRun w' calls

/-- The sentry has created its pid file. -/
def created : World Unit Nat := System.last vacant (lonelyRun vacant
  [.fork, .file .absent, .file (.createExclusive 0), .file (.flock .exclusive), .file (.lstat (some 0)),
    .fetch 7 (.signature [97]), .file (.write 0 [55, 10, 10, 97, 10, 120, 10]), .file .unlock])

theorem created_reachable : (exposed (fun _ => lonelyRecord) .unsigned).Reachable created := by
  have h₁ := exposed_call vacant_reachable () .fork rfl rfl
  have h₂ := exposed_call h₁ () (.file .absent) rfl rfl
  have h₃ := exposed_call h₂ () (.file (.createExclusive 0)) ⟨rfl, by decide⟩ rfl
  have h₄ := exposed_call h₃ () (.file (.flock .exclusive)) (fun _ _ _ hj => absurd rfl hj) rfl
  have h₅ := exposed_call h₄ () (.file (.lstat (some 0))) rfl rfl
  have h₆ := exposed_call h₅ () (.fetch 7 (.signature [97])) (.inr rfl) rfl
  have h₇ := exposed_call h₆ () (.file (.write 0 [55, 10, 10, 97, 10, 120, 10]))
    (Option.some_ne_none 0) rfl
  exact exposed_call h₇ () (.file .unlock) trivial rfl

def renamed (entry : Option Nat) : World Unit Nat :=
  { created with files := { created.files with entry := entry } }

/-- Someone else renames the pid file and names it back, and then the sentry closes it. -/
def renamedRun : List (ExposedEvent Unit Nat × World Unit Nat) :=
  (.outsider none, renamed none) :: (.outsider (some 0), renamed (some 0)) :: lonelyRun (renamed (some 0))
    [.retire true, .file (.flock .exclusive), .file .truncate, .file (.lstat (some 0)), .file .unlink,
      .file .close]

theorem closePidFile_survives_renamed : created.files.content 0 ≠ [] ∧
    System.Throughout (fun w event w' => w.ClosesSafely event w') created renamedRun ∧
    (System.last created renamedRun).phase () = .closed ∧
    (System.last created renamedRun).files.entry = none ∧
    (System.last created renamedRun).files.content 0 = [] := by
  have hrun : (exposed (fun _ => lonelyRecord) .unsigned).IsRun created renamedRun :=
    ⟨rfl, rfl, ⟨trivial, _, rfl, rfl⟩, ⟨fun _ _ _ hj => absurd rfl hj, _, rfl, rfl⟩,
      ⟨Option.some_ne_none 0, _, rfl, rfl⟩, ⟨rfl, _, rfl, rfl⟩, ⟨Option.some_ne_none 0, _, rfl, rfl⟩,
      ⟨trivial, _, rfl, rfl⟩, trivial⟩
  have hsafe := (closePidFile_survives_iff .unsigned created_reachable hrun).1.mpr ?_
  · exact ⟨by decide, hsafe, rfl, rfl, rfl⟩
  · refine ⟨nofun, nofun, ?_, ?_, ?_, ?_, ?_, ?_, trivial⟩
    all_goals
      rintro _ phase f _ ⟨⟩ hphase hheld
      cases hphase
    · cases hheld
    · exact ⟨nofun, by simp⟩
    · cases hheld
      exact ⟨nofun, fun _ => rfl⟩
    · cases hheld
      exact ⟨nofun, fun _ => rfl⟩
    · exact ⟨nofun, by simp⟩

/-- A sentry that has emptied its pid file, when someone else has removed it. -/
theorem exists_removed : ∃ w : World Unit Nat,
    (exposed (fun _ => lonelyRecord) .unsigned).Reachable w ∧
      w.phase () = .close (.detecting 0) ∧ w.files.entry = none := by
  have h₁ := exposed_call created_reachable () (.retire true) trivial rfl
  have h₂ := exposed_call h₁ () (.file (.flock .exclusive)) (fun _ _ _ hj => absurd rfl hj) rfl
  have h₃ := exposed_call h₂ () (.file .truncate) (Option.some_ne_none 0) rfl
  have h₄ := h₃.tail (show (exposed _ _).step _ (.outsider none) _ from rfl)
  exact ⟨_, h₄, rfl, rfl⟩

/-- `closePidFile` aborts if its file is gone. -/
theorem closePidFile_aborts_removed : ¬ ∀ (w w' : World Unit Nat) (event : ExposedEvent Unit Nat),
    (exposed (fun _ => lonelyRecord) .unsigned).Reachable w →
      w.ExposedStep (fun _ => lonelyRecord) .unsigned event w' → w.ClosesSafely event w' := by
  intro h
  obtain ⟨w, hw, hphase, hentry⟩ := exists_removed
  have hstep : w.ExposedStep (fun _ => lonelyRecord) .unsigned
      (.user (.call () (.file (.lstat none)))) (w.after _ () (.file (.lstat none)) (.aborting 0)) :=
    ⟨hentry, .aborting 0, by rw [hphase]; rfl, rfl⟩
  rcases (h w _ _ hw hstep () (.detecting 0) 0 _ rfl hphase rfl).proceeds (by simp) with
    ⟨_, he, -⟩ | he <;> rw [after_phase_self] at he <;> cases he

end

end World

end PidSentry
