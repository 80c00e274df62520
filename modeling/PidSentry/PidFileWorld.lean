import PidSentry.CreatePidFile
import PidSentry.Transition

/-! Any number of users of one pid file, whose calls interleave in any way. -/

namespace PidSentry

structure World (π ν : Type*) where
  files : FileSystem π ν
  /-- The signatures of the processes that there are. -/
  processes : Pid → Option CString
  phase : π → Phase ν

inductive WorldEvent (π ν : Type*)
  | call (i : π) (call : PidFileCall ν)
  /-- Some process starts or goes away. -/
  | process (pid : Pid) (signature : Option CString)

namespace World

variable {π ν : Type*} (record : π → PidFileRecord)

def Allows (w : World π ν) (i : π) : PidFileCall ν → Prop
  | .file call => w.files.Allows i call
  | .fork => w.processes (record i).pid = none
  | .fetch pid fetched =>
    fetched = .failed ∨ fetched = (w.processes pid).elim .absent .signature
  | _ => True

variable [DecidableEq π] [DecidableEq ν]

def filesAfter (w : World π ν) (i : π) : PidFileCall ν → FileSystem π ν
  | .file call => w.files.perform i call
  | .crash => w.files.perform i .close
  | _ => w.files

omit [DecidableEq π] [DecidableEq ν] in
def processesAfter (w : World π ν) (i : π) : PidFileCall ν → Pid → Option CString
  | .fork => Function.update w.processes (record i).pid (some (record i).signature)
  | .reap => Function.update w.processes (record i).pid none
  | _ => w.processes

def after (w : World π ν) (i : π) (call : PidFileCall ν) (phase : Phase ν) : World π ν where
  files := w.filesAfter i call
  processes := w.processesAfter record i call
  phase := Function.update w.phase i phase

/-- The child of a sentry that is alive stays until it is reaped. -/
def Step (parser : PidParser) (w : World π ν) : WorldEvent π ν → World π ν → Prop
  | .call i call, w' => w.Allows record i call ∧
      ∃ q, (w.phase i).next parser (record i) call = some q ∧ w' = w.after record i call q
  | .process pid signature, w' =>
    (∀ i, (w.phase i).tends = true → (record i).pid ≠ pid) ∧
      w' = { w with processes := Function.update w.processes pid signature }

/-- Any file may be there at the start, with any content. -/
def Start (w : World π ν) : Prop :=
  (∀ i, w.files.descriptor i = .closed) ∧ ∀ i, w.phase i = .idle ∨ w.phase i = .view .opening

def system (parser : PidParser) : System (World π ν) (WorldEvent π ν) :=
  ⟨Start, Step record parser⟩

section

variable {record} {w : World π ν} {i j : π} {call : PidFileCall ν} {f : ν}

@[simp] theorem after_phase_self (q : Phase ν) : (w.after record i call q).phase i = q :=
  Function.update_self ..

@[simp] theorem after_phase_of_ne (h : j ≠ i) (q : Phase ν) :
    (w.after record i call q).phase j = w.phase j := Function.update_of_ne h ..

theorem phase_of_others {parser : PidParser} {event : WorldEvent π ν} {w' : World π ν}
    (hstep : w.Step record parser event w') (hj : ∀ call, event ≠ .call j call) :
    w'.phase j = w.phase j := by
  cases event with
  | process pid signature =>
    obtain ⟨-, rfl⟩ := hstep
    rfl
  | call i call =>
    obtain ⟨-, q, -, rfl⟩ := hstep
    exact after_phase_of_ne (by rintro rfl; exact hj call rfl) q

theorem filesAfter_descriptor_self :
    (w.filesAfter i call).descriptor i = call.descriptor (w.files.descriptor i) := by
  cases call <;> simp [filesAfter]

theorem filesAfter_descriptor_of_ne (h : j ≠ i) :
    (w.filesAfter i call).descriptor j = w.files.descriptor j := by
  cases call <;> simp [filesAfter, h]

theorem filesAfter_exclusive (hw : w.files.Exclusive) (hallows : w.Allows record i call) :
    (w.filesAfter i call).Exclusive := by
  cases call with
  | file call => exact hw.perform hallows
  | crash => exact hw.perform (show w.files.Allows i .close from trivial)
  | _ => exact hw

theorem filesAfter_entry (h : call.relinks = false) :
    (w.filesAfter i call).entry = w.files.entry := by
  cases call with
  | file call => exact FileSystem.perform_entry h
  | _ => rfl

theorem filesAfter_content_self (hi : (w.files.descriptor i).file = some f)
    (hlink : call.relinks = false) :
    (w.filesAfter i call).content f = call.revise (w.files.content f) := by
  cases call with
  | file call => exact FileSystem.perform_content_self hi hlink
  | crash => exact FileSystem.perform_content_self hi (show FileCall.close.relinks = false from rfl)
  | _ => rfl

theorem filesAfter_content_of_ne (hcreate : call ≠ .file (.createExclusive f))
    (hi : call.revises = true → (w.files.descriptor i).file ≠ some f) :
    (w.filesAfter i call).content f = w.files.content f := by
  cases call with
  | file call =>
    exact FileSystem.perform_content_of_ne (fun he => hcreate (congrArg PidFileCall.file he)) hi
  | crash => exact FileSystem.perform_content_of_ne (fun he => by cases he) (fun he => by cases he)
  | _ => rfl

theorem filesAfter_content (hallows : w.Allows record i call)
    (hj : (w.files.descriptor j).file = some f)
    (hi : call.revises = true → (w.files.descriptor i).file ≠ some f) :
    (w.filesAfter i call).content f = w.files.content f := by
  refine filesAfter_content_of_ne ?_ hi
  rintro rfl
  exact hallows.2 j hj

end

/-- What is known of the users: what they hold open, whose file and whose child
is whose, and what the files contain. -/
structure Tracked (record : π → PidFileRecord) (w : World π ν) : Prop where
  descriptor : ∀ i, w.files.descriptor i = (w.phase i).descriptor
  exclusive : w.files.Exclusive
  owner : ∀ i j f, (w.phase i).ownFile = some f → (w.phase j).ownFile = some f → i = j
  process : ∀ i, (w.phase i).tends = true →
    w.processes (record i).pid = some (record i).signature
  parent : ∀ i j, (w.phase i).tends = true → (w.phase j).tends = true →
    (record i).pid = (record j).pid → i = j
  formatted : ∀ i, (w.phase i).Formatted (record i)
  contents : ∀ i f content, (w.phase i).contents (record i) = some (f, content) →
    w.files.content f = content

namespace Tracked

variable {record} {parser : PidParser} {w : World π ν} {i : π} {call : PidFileCall ν} {q : Phase ν}

omit [DecidableEq π] [DecidableEq ν] in
theorem file_of_ownFile (hw : w.Tracked record) {j : π} {f : ν}
    (h : (w.phase j).ownFile = some f) : (w.files.descriptor j).file = some f := by
  rw [hw.descriptor]
  exact Phase.file_of_ownFile h

omit [DecidableEq π] [DecidableEq ν] in
theorem not_created (hw : w.Tracked record) {j : π} {f : ν}
    (hallows : w.Allows record i (.file (.createExclusive f))) :
    (w.phase j).ownFile ≠ some f := fun h => hallows.2 j (hw.file_of_ownFile h)

theorem descriptor_after (hw : w.Tracked record)
    (hq : Follows parser (record i) (w.phase i) call q) (j : π) :
    (w.after record i call q).files.descriptor j =
      ((w.after record i call q).phase j).descriptor := by
  by_cases hj : j = i
  · subst hj
    rw [after_phase_self, hq.descriptor, ← hw.descriptor]
    exact filesAfter_descriptor_self
  · rw [after_phase_of_ne hj, ← hw.descriptor]
    exact filesAfter_descriptor_of_ne hj

theorem owner_after (hw : w.Tracked record) (hallows : w.Allows record i call)
    (hq : Follows parser (record i) (w.phase i) call q) {j k : π} {f : ν}
    (hj : ((w.after record i call q).phase j).ownFile = some f)
    (hk : ((w.after record i call q).phase k).ownFile = some f) : j = k := by
  have hnew : ∀ k, k ≠ i → q.ownFile = some f → (w.phase k).ownFile ≠ some f := by
    intro k hk hown hkown
    rcases hq.ownFile f hown with hp | rfl
    · exact hk (hw.owner k i f hkown hp)
    · exact hw.not_created hallows hkown
  by_cases hji : j = i <;> by_cases hki : k = i
  · rw [hji, hki]
  · subst hji
    simp only [after_phase_self, after_phase_of_ne hki] at hj hk
    exact absurd hk (hnew k hki hj)
  · subst hki
    simp only [after_phase_self, after_phase_of_ne hji] at hj hk
    exact absurd hj (hnew j hji hk)
  · rw [after_phase_of_ne hji] at hj
    rw [after_phase_of_ne hki] at hk
    exact hw.owner j k f hj hk

theorem process_after (hw : w.Tracked record) (hallows : w.Allows record i call)
    (hq : Follows parser (record i) (w.phase i) call q) {j : π}
    (hj : ((w.after record i call q).phase j).tends = true) :
    (w.after record i call q).processes (record j).pid = some (record j).signature := by
  by_cases hji : j = i
  · subst hji
    rw [after_phase_self] at hj
    obtain ⟨hp, hreap⟩ := hq.tends hj
    cases call with
    | fork => exact Function.update_self ..
    | reap => exact absurd rfl hreap
    | _ => exact hw.process j (hp.resolve_right nofun)
  · rw [after_phase_of_ne hji] at hj
    have hprocess := hw.process j hj
    cases call with
    | fork =>
      have hne : (record j).pid ≠ (record i).pid := by
        intro he
        rw [he, show w.processes (record i).pid = none from hallows] at hprocess
        cases hprocess
      exact (Function.update_of_ne hne ..).trans hprocess
    | reap =>
      have hne : (record j).pid ≠ (record i).pid := fun he =>
        hji (hw.parent j i hj (hq.reaps rfl) he)
      exact (Function.update_of_ne hne ..).trans hprocess
    | _ => exact hprocess

theorem parent_after (hw : w.Tracked record) (hallows : w.Allows record i call)
    (hq : Follows parser (record i) (w.phase i) call q) {j k : π}
    (hj : ((w.after record i call q).phase j).tends = true)
    (hk : ((w.after record i call q).phase k).tends = true)
    (hpid : (record j).pid = (record k).pid) : j = k := by
  have hnew : ∀ k, k ≠ i → q.tends = true → (w.phase k).tends = true →
      (record k).pid ≠ (record i).pid := by
    intro k hki hqt hkt he
    rcases (hq.tends hqt).1 with hp | rfl
    · exact hki (hw.parent k i hkt hp he)
    · have hprocess := hw.process k hkt
      rw [he, show w.processes (record i).pid = none from hallows] at hprocess
      cases hprocess
  by_cases hji : j = i <;> by_cases hki : k = i
  · rw [hji, hki]
  · subst hji
    simp only [after_phase_self, after_phase_of_ne hki] at hj hk
    exact absurd hpid.symm (hnew k hki hj hk)
  · subst hki
    simp only [after_phase_self, after_phase_of_ne hji] at hj hk
    exact absurd hpid (hnew j hji hk hj)
  · rw [after_phase_of_ne hji] at hj
    rw [after_phase_of_ne hki] at hk
    exact hw.parent j k hj hk hpid

theorem formatted_after (hw : w.Tracked record) (hallows : w.Allows record i call)
    (hq : Follows parser (record i) (w.phase i) call q) (j : π) :
    ((w.after record i call q).phase j).Formatted (record j) := by
  by_cases hj : j = i
  · subst hj
    rw [after_phase_self]
    refine hq.formatted ?_ (hw.formatted j)
    rintro signature rfl
    have hprocess := hw.process j (hq.fetches _ _ rfl)
    rcases hallows with he | he
    · cases he
    · simpa [hprocess] using he
  · rw [after_phase_of_ne hj]
    exact hw.formatted j

theorem contents_after (hw : w.Tracked record) (hallows : w.Allows record i call)
    (hq : Follows parser (record i) (w.phase i) call q) {j : π} {f : ν} {content : List UInt8}
    (hj : ((w.after record i call q).phase j).contents (record j) = some (f, content)) :
    (w.after record i call q).files.content f = content := by
  by_cases hji : j = i
  · subst hji
    rw [after_phase_self] at hj
    rcases hq.contents f content (hw.formatted j) hj with
      ⟨rfl, rfl⟩ | ⟨hlink, before, hbefore, rfl⟩
    · exact Function.update_self ..
    · rw [← hw.contents j f before hbefore]
      exact filesAfter_content_self (hw.file_of_ownFile (Phase.ownFile_of_contents hbefore)) hlink
  · rw [after_phase_of_ne hji] at hj
    have hown := Phase.ownFile_of_contents hj
    rw [← hw.contents j f content hj]
    refine filesAfter_content hallows (hw.file_of_ownFile hown) fun hrevises hfile => ?_
    obtain ⟨g, hg, hopen⟩ := hq.revises hrevises
    rw [hw.descriptor, hopen] at hfile
    obtain rfl := Option.some.inj hfile
    exact hji (hw.owner j i g hown hg)

theorem step (hw : w.Tracked record) {event : WorldEvent π ν} {w' : World π ν}
    (hstep : w.Step record parser event w') : w'.Tracked record := by
  cases event with
  | call i call =>
    obtain ⟨hallows, q, hnext, rfl⟩ := hstep
    have hq := Phase.follows hnext
    exact ⟨hw.descriptor_after hq, filesAfter_exclusive hw.exclusive hallows,
      fun _ _ _ => hw.owner_after hallows hq, fun _ => hw.process_after hallows hq,
      fun _ _ => hw.parent_after hallows hq, hw.formatted_after hallows hq,
      fun _ _ _ => hw.contents_after hallows hq⟩
  | process pid signature =>
    obtain ⟨hfree, rfl⟩ := hstep
    refine ⟨hw.descriptor, hw.exclusive, hw.owner, fun i hi => ?_, hw.parent, hw.formatted,
      hw.contents⟩
    exact (Function.update_of_ne (hfree i hi) ..).trans (hw.process i hi)

/-- No one changes a file that someone else holds a lock on. -/
theorem content_of_locked (hw : w.Tracked record) {event : WorldEvent π ν} {w' : World π ν}
    (hstep : w.Step record parser event w') {j : π} (hj : ∀ call, event ≠ .call j call) {f : ν}
    {mode : FlockMode} (hlock : (w.phase j).descriptor = .opened f (some mode)) :
    w'.files.content f = w.files.content f := by
  cases event with
  | process pid signature =>
    obtain ⟨-, rfl⟩ := hstep
    rfl
  | call i call =>
    obtain ⟨hallows, q, hnext, rfl⟩ := hstep
    rw [← hw.descriptor] at hlock
    refine filesAfter_content hallows (by rw [hlock]; rfl) fun hrevises hfile => ?_
    obtain ⟨g, -, hopen⟩ := (Phase.follows hnext).revises hrevises
    rw [← hw.descriptor] at hopen
    rw [hopen] at hfile
    obtain rfl := Option.some.inj hfile
    obtain rfl := hw.exclusive i j g mode hopen hlock
    exact hj call rfl

end Tracked

variable {record} {parser : PidParser} {w : World π ν}

omit [DecidableEq π] [DecidableEq ν] in
theorem Start.tracked (hw : w.Start) : w.Tracked record := by
  have hphase : ∀ i, w.phase i = .idle ∨ w.phase i = .view .opening := hw.2
  refine ⟨fun i => ?_, fun i j f mode h => ?_, fun i j f h => ?_, fun i h => ?_, fun i j h => ?_,
    fun i => ?_, fun i f content h => ?_⟩
  · rcases hphase i with he | he <;> simp [he, hw.1]
  · simp [hw.1] at h
  all_goals rcases hphase i with he | he <;> simp_all

theorem tracked_of_reachable (hw : (system record parser).Reachable w) : w.Tracked record :=
  System.Reachable.invariant (P := fun w => w.Tracked record) (fun _ => Start.tracked)
    (fun _ _ _ _ hi hs => hi.step hs) hw

/-- What a sentry has found about a file under its lock stays true: another
sentry that has published the file is the one that it names. -/
def Found (record : π → PidFileRecord) (w : World π ν) : Prop :=
  ∀ i j f found, (w.phase i).finding = some (f, found) → (w.phase j).publishedFile = some f →
    found = .process (record j).pid (record j).signature

omit [DecidableEq π] [DecidableEq ν] in
theorem Tracked.found (hw : w.Tracked record) (hfound : w.Found record) {i j : π} {f : ν}
    {call : PidFileCall ν} (hallows : w.Allows record i call) {found : Phase.Finding}
    (hopen : (w.phase i).descriptor = .opened f (some .exclusive))
    (hfinds : call.Finds parser f (w.phase i).finding found)
    (hj : (w.phase j).publishedFile = some f) :
    found = .process (record j).pid (record j).signature := by
  have hcontent := hw.contents j f _ (Phase.contents_of_publishedFile (record j) hj)
  have hread : readPidFile parser (record j).text =
      .process (record j).pid (record j).signature (sunPath (record j).address.name) := by
    rw [readPidFile, if_pos (Phase.formatted_of_publishedFile hj (hw.formatted j))]
    exact (record j).scanPidFile_text parser
  have hreads : ∀ bytes, w.Allows record i (.file (.read bytes)) → bytes = (record j).text := by
    rintro bytes ⟨g, hg, rfl⟩
    rw [hw.descriptor, hopen] at hg
    rw [← Option.some.inj hg, hcontent]
  cases call with
  | file call =>
    cases call with
    | read bytes =>
      obtain rfl := hreads bytes hallows
      cases found with
      | process pid signature =>
        obtain ⟨path, hpath⟩ := hfinds
        rw [hread] at hpath
        cases hpath
        rfl
      | stale => simp [PidFileCall.Finds, hread] at hfinds
    | _ => simp [PidFileCall.Finds] at hfinds
  | fetch pid fetched =>
    cases found with
    | process => simp [PidFileCall.Finds] at hfinds
    | stale =>
      obtain ⟨signature, hbefore, hfailed, hstale⟩ := hfinds
      obtain ⟨rfl, rfl⟩ : pid = (record j).pid ∧ signature = (record j).signature := by
        simpa using hfound i j f _ hbefore hj
      have hprocess := hw.process j
        (Phase.tends_of_ownFile (Phase.ownFile_of_publishedFile hj))
      rcases hallows with he | he
      · exact absurd he hfailed
      · exact absurd (by simpa [hprocess] using he) (hstale (record j).pid_pos)
  | _ => simp [PidFileCall.Finds] at hfinds

theorem Found.step (hfound : w.Found record) (hw : w.Tracked record)
    {event : WorldEvent π ν} {w' : World π ν} (hstep : w.Step record parser event w') :
    w'.Found record := by
  cases event with
  | process pid signature =>
    obtain ⟨-, rfl⟩ := hstep
    exact hfound
  | call i call =>
    obtain ⟨hallows, q, hnext, rfl⟩ := hstep
    have hq := Phase.follows hnext
    intro j k f found hj hk
    by_cases hji : j = i <;> by_cases hki : k = i
    · subst hji
      subst hki
      rw [after_phase_self] at hj hk
      exact absurd hk (Phase.not_publishedFile_of_finding hj)
    · subst hji
      rw [after_phase_self] at hj
      rw [after_phase_of_ne hki] at hk
      rcases hq.finding f found hj with hp | ⟨hopen, hfinds⟩
      · exact hfound j k f found hp hk
      · exact hw.found hfound hallows hopen hfinds hk
    · subst hki
      rw [after_phase_of_ne hji] at hj
      rw [after_phase_self] at hk
      rcases hq.publishedFile f hk with hp | hopen
      · exact hfound j k f found hj hp
      · rw [← hw.descriptor] at hopen
        have hopen' := Phase.descriptor_of_finding hj
        rw [← hw.descriptor] at hopen'
        exact absurd (hw.exclusive j k f _ hopen' hopen) hji
    · rw [after_phase_of_ne hji] at hj
      rw [after_phase_of_ne hki] at hk
      exact hfound j k f found hj hk

omit [DecidableEq π] [DecidableEq ν] in
theorem Start.found (hw : w.Start) : w.Found record := by
  intro i j f found h
  rcases hw.2 i with hi | hi <;> simp [hi] at h

theorem found_of_reachable (hw : (system record parser).Reachable w) : w.Found record :=
  System.Reachable.invariant (P := fun w => w.Found record) (fun _ => Start.found)
    (fun _ _ _ hr hi hs => hi.step (tracked_of_reachable hr) hs) hw

/-- The path names the file of every sentry that relies on it. -/
def Named (w : World π ν) : Prop := ∀ i f, (w.phase i).namedFile = some f → w.files.entry = some f

omit [DecidableEq π] [DecidableEq ν] in
/-- Whoever removes the entry holds the lock on the file that it names, and no
other sentry keeps that file. -/
theorem Named.unlinks (hnamed : w.Named) (hw : w.Tracked record) (hfound : w.Found record)
    {i j : π} {q : Phase ν} (hq : Follows parser (record i) (w.phase i) (.file .unlink) q)
    (hji : j ≠ i) {f : ν}
    (hj : (w.phase j).descriptor = .opened f (some .exclusive) ∨
      (w.phase j).publishedFile = some f) : w.files.entry ≠ some f := by
  intro hentry
  obtain ⟨g, hg, hopen, hi⟩ := hq.unlinks rfl
  obtain rfl : g = f := Option.some.inj ((hnamed i g hg).symm.trans hentry)
  rcases hj with hj | hj
  · rw [← hw.descriptor] at hopen hj
    exact hji (hw.exclusive j i g _ hj hopen)
  · rcases hi with hi | hi
    · cases hfound i j g _ hi hj
    · exact hji (hw.owner j i g (Phase.ownFile_of_publishedFile hj) hi)

theorem Named.step (hnamed : w.Named) (hw : w.Tracked record) (hfound : w.Found record)
    {event : WorldEvent π ν} {w' : World π ν} (hstep : w.Step record parser event w') :
    w'.Named := by
  cases event with
  | process pid signature =>
    obtain ⟨-, rfl⟩ := hstep
    exact hnamed
  | call i call =>
    obtain ⟨hallows, q, hnext, rfl⟩ := hstep
    have hq := Phase.follows hnext
    intro j f hj
    by_cases hji : j = i
    · subst hji
      rw [after_phase_self] at hj
      rcases hq.namedFile f hj with rfl | ⟨hp, hlink⟩
      · exact hallows
      · exact (filesAfter_entry hlink).trans (hnamed j f hp)
    · rw [after_phase_of_ne hji] at hj
      have hentry := hnamed j f hj
      by_cases hunlink : call = .file .unlink
      · subst hunlink
        exact absurd hentry
          (hnamed.unlinks hw hfound hq hji (Phase.descriptor_of_namedFile hj))
      by_cases hcreate : ∃ g, call = .file (.createExclusive g)
      · obtain ⟨g, rfl⟩ := hcreate
        rw [hallows.1] at hentry
        cases hentry
      have hlink : call.relinks = false := by
        cases call with
        | file call => cases call <;> simp_all
        | _ => rfl
      exact (filesAfter_entry hlink).trans hentry

omit [DecidableEq π] [DecidableEq ν] in
theorem Start.named (hw : w.Start) : w.Named := by
  intro i f h
  rcases hw.2 i with hi | hi <;> simp [hi] at h

theorem named_of_reachable (hw : (system record parser).Reachable w) : w.Named :=
  System.Reachable.invariant (P := fun w => w.Named) (fun _ => Start.named)
    (fun _ _ _ hr hi hs => hi.step (tracked_of_reachable hr) (found_of_reachable hr) hs) hw

/-- While a sentry that `createPidFile` has succeeded for goes on, the path names
the file it holds open, with the whole record of its child; no two sentries
have this at once; and no one removes an entry for a file that another one
keeps. -/
theorem createPidFile_exclusive (hw : (system record parser).Reachable w) :
    (∀ i f, w.phase i = .created f → w.files.entry = some f ∧
      w.files.descriptor i = .opened f none ∧ w.files.content f = (record i).text) ∧
    (∀ i j f g, w.phase i = .created f → w.phase j = .created g → i = j) ∧
    ∀ i w', w.Step record parser (.call i (.file .unlink)) w' →
      ∀ j, j ≠ i → ∀ f, (w.phase j).keptFile = some f → w.files.entry ≠ some f := by
  have htracked := tracked_of_reachable hw
  have hnamed := named_of_reachable hw
  refine ⟨fun i f hi => ⟨?_, ?_, ?_⟩, fun i j f g hi hj => ?_, ?_⟩
  · exact hnamed i f (by rw [hi]; rfl)
  · rw [htracked.descriptor, hi]
    rfl
  · exact htracked.contents i f _ (by rw [hi]; rfl)
  · have hf := hnamed i f (by rw [hi]; rfl)
    have hg := hnamed j g (by rw [hj]; rfl)
    obtain rfl := Option.some.inj (hf.symm.trans hg)
    exact htracked.owner i j f (by rw [hi]; rfl) (by rw [hj]; rfl)
  · rintro i w' ⟨-, q, hnext, -⟩ j hji f hj
    exact hnamed.unlinks htracked (found_of_reachable hw) (Phase.follows hnext) hji
      (Phase.descriptor_of_keptFile hj)

theorem reachable_call (hw : (system record parser).Reachable w) (i : π) (call : PidFileCall ν)
    {q : Phase ν} (hallows : w.Allows record i call)
    (hnext : (w.phase i).next parser (record i) call = some q) :
    (system record parser).Reachable (w.after record i call q) :=
  hw.tail (show (system record parser).step w (.call i call) _ from ⟨hallows, q, hnext, rfl⟩)

/-- Two sentries, of which one has created the file. -/
theorem createPidFile_exclusive_created : ∃ (record : Bool → PidFileRecord) (w : World Bool Nat),
    (system record .unsigned).Reachable w ∧ w.phase true = .created 0 ∧
    (∀ i f, w.phase i = .created f → w.files.entry = some f ∧
      w.files.descriptor i = .opened f none ∧ w.files.content f = (record i).text) ∧
    (∀ i j f g, w.phase i = .created f → w.phase j = .created g → i = j) ∧
    ∀ i w', w.Step record .unsigned (.call i (.file .unlink)) w' →
      ∀ j, j ≠ i → ∀ f, (w.phase j).keptFile = some f → w.files.entry ≠ some f := by
  let child (pid : Pid) (hpid : 0 < pid) : PidFileRecord :=
    ⟨pid, [97], ⟨[120], by decide, by decide, by decide, by decide⟩, hpid, by decide, by decide,
      by decide⟩
  let record (i : Bool) : PidFileRecord := if i then child 7 (by decide) else child 8 (by decide)
  let start : World Bool Nat :=
    ⟨⟨none, fun _ => [], fun _ => .closed⟩, fun _ => none, fun _ => .idle⟩
  have h₀ : (system record .unsigned).Reachable start := .of_init ⟨fun _ => rfl, fun _ => .inl rfl⟩
  have h₁ := reachable_call h₀ true .fork rfl rfl
  have h₂ := reachable_call h₁ true (.file .absent) rfl rfl
  have h₃ := reachable_call h₂ true (.file (.createExclusive 0)) ⟨rfl, by decide⟩ rfl
  have h₄ := reachable_call h₃ true (.file (.flock .exclusive))
    (by rintro f - j hj mode; cases j <;> simp_all [start, after, filesAfter]) rfl
  have h₅ := reachable_call h₄ true (.file (.lstat (some 0))) rfl rfl
  have h₆ := reachable_call h₅ true (.fetch 7 (.signature [97])) (.inr rfl) rfl
  have h₇ := reachable_call h₆ true (.file (.write 0 [55, 10, 10, 97, 10, 120, 10]))
    (Option.some_ne_none 0) rfl
  have h₈ := reachable_call h₇ true (.file .unlock) trivial rfl
  exact ⟨record, _, h₈, rfl, createPidFile_exclusive h₈⟩

end World

end PidSentry
