import PidSentry.Flock
import PidSentry.PidFile

/-! The users of a pid file, call by call: sentries that create it with
`createPidFile` and remove it with `closePidFile`, and clients that read it. -/

namespace PidSentry

inductive PidFileCall (ν : Type*)
  | file (call : FileCall ν)
  /-- A call on the file system fails for another reason. -/
  | failed
  | fork
  | fetch (pid : Pid) (fetched : Fetched)
  /-- The sentry is done monitoring its child, or gives up on the way. -/
  | retire (orderly : Bool)
  | reap
  | crash
  deriving DecidableEq, Repr

/-- `generatePidFile_`, with `unlinkPidFile_`, on whatever file is there. -/
inductive Generating (ν : Type*)
  | opening
  | locking (mFile : ν)
  | reading (mFile : ν)
  | checking (mFile : ν) (parsedPid : Pid) (pidSignature : CString)
  | detecting (mFile : ν)
  | unlinking (mFile : ν)
  | unlocking (mFile : ν)
  | closing (mFile : ν)
  | creating
  deriving DecidableEq, Repr

/-- `createPidFile` on the file that `generatePidFile_` has made for it. -/
inductive Creating (ν : Type*)
  | locking (mFile : ν)
  | detecting (mFile : ν)
  | unlockingZombie (mFile : ν)
  | closingZombie (mFile : ν)
  | fetching (mFile : ν)
  | writing (mFile : ν) (buf : List UInt8) (written : Nat)
  | unlocking (mFile : ν)
  deriving DecidableEq, Repr

/-- `acquirePidFileWriteLock` and `closePidFile` -/
inductive Closing (ν : Type*)
  | locking (mFile : ν)
  | truncating (mFile : ν)
  | detecting (mFile : ν)
  | unlinking (mFile : ν)
  | closing (mFile : ν)
  deriving DecidableEq, Repr

/-- `openPidFile` and `acquirePidFileReadLock` -/
inductive Viewing (ν : Type*)
  | opening
  | locking (mFile : ν)
  | locked (mFile : ν)
  deriving DecidableEq, Repr

inductive Phase (ν : Type*)
  | idle
  | generate (phase : Generating ν)
  | create (phase : Creating ν)
  /-- `createPidFile` has returned `Ert_Pid(0)`. -/
  | created (mFile : ν)
  | close (phase : Closing ν)
  /-- About to close the file as it is. -/
  | leaving (mFile : ν) (locked : Bool)
  /-- At a failed assertion or a null pointer. -/
  | aborting (mFile : ν)
  | closed
  | view (phase : Viewing ν)
  | gone
  deriving DecidableEq, Repr

section

variable {ν : Type*}

/-- The verdict on the content of an existing file, up to the lookup of the
process that it names. -/
def Generating.scanned (mFile : ν) : PidFileText → Phase ν
  | .malformed => .generate (.detecting mFile)
  | .unaddressable => .leaving mFile true
  | .process parsedPid pidSignature _ => .generate (.checking mFile parsedPid pidSignature)

/-- The verdict once the process is looked up: with a valid one the name is
already taken. -/
def Generating.matched (mFile : ν) : PidFileReading → Phase ν
  | .signature pidSignature =>
    if pidSignature.mPid ≠ 0 ∧ pidSignature.mPid ≠ -1 then .leaving mFile true
    else .generate (.detecting mFile)
  | .failed => .leaving mFile true
  | .fault => .aborting mFile

/-- `createPidFile_` with the signature of the child. -/
def Creating.fetched (record : PidFileRecord) (mFile : ν) : Fetched → Phase ν
  | .signature mSignature =>
    let buf := formatPidFile record.pid mSignature (sunPath record.address.name)
    if pidFileSize + 1 ≤ buf.length then .close (.truncating mFile)
    else .create (.writing mFile buf 0)
  | .absent | .failed => .close (.truncating mFile)

variable [DecidableEq ν]

def Generating.next (parser : PidParser) : Generating ν → PidFileCall ν → Option (Phase ν)
  | opening, .file (.openExisting mFile) => some (.generate (locking mFile))
  | opening, .file .absent => some (.generate creating)
  | opening, .failed => some .closed
  | locking mFile, .file (.flock .exclusive) => some (.generate (reading mFile))
  | locking mFile, .failed => some (.leaving mFile false)
  | reading mFile, .file (.read content) => some (scanned mFile (readPidFile parser content))
  | reading mFile, .failed => some (.leaving mFile true)
  | checking mFile parsedPid pidSignature, .fetch pid fetched =>
    if pid = parsedPid then some (matched mFile (matchPidFile parsedPid pidSignature fetched))
    else none
  | detecting mFile, .file (.lstat entry) =>
    if entry = some mFile then some (.generate (unlinking mFile))
    else some (.generate (unlocking mFile))
  | detecting mFile, .failed => some (.leaving mFile true)
  | unlinking mFile, .file .unlink => some (.generate (unlocking mFile))
  | unlinking mFile, .file .absent => some (.generate (unlocking mFile))
  | unlinking mFile, .failed => some (.leaving mFile true)
  | unlocking mFile, .file .unlock => some (.generate (closing mFile))
  | unlocking mFile, .failed => some (.leaving mFile true)
  | closing _, .file .close => some (.generate creating)
  | creating, .file (.createExclusive mFile) => some (.create (.locking mFile))
  | creating, .file .present => some (.generate opening)
  | creating, .failed => some .closed
  | _, _ => none

/-- A sentry that fails while it holds the lock goes on to `closePidFile`. -/
def Creating.next (record : PidFileRecord) : Creating ν → PidFileCall ν → Option (Phase ν)
  | locking mFile, .file (.flock .exclusive) => some (.create (detecting mFile))
  | locking mFile, .failed => some (.leaving mFile false)
  | detecting mFile, .file (.lstat entry) =>
    if entry = some mFile then some (.create (fetching mFile))
    else some (.create (unlockingZombie mFile))
  | detecting mFile, .failed => some (.close (.truncating mFile))
  | unlockingZombie mFile, .file .unlock => some (.create (closingZombie mFile))
  | unlockingZombie mFile, .failed => some (.close (.truncating mFile))
  | closingZombie _, .file .close => some (.generate .opening)
  | fetching mFile, .fetch pid fetched =>
    if pid = record.pid then some (Creating.fetched record mFile fetched) else none
  | writing mFile buf written, .file (.write offset bytes) =>
    if offset = written ∧ bytes ≠ [] ∧ bytes <+: buf.drop written then
      if written + bytes.length < buf.length then
        some (.create (writing mFile buf (written + bytes.length)))
      else some (.create (unlocking mFile))
    else none
  | writing mFile _ _, .failed => some (.close (.truncating mFile))
  | unlocking mFile, .file .unlock => some (.created mFile)
  | unlocking mFile, .failed => some (.close (.truncating mFile))
  | _, _ => none

def Closing.next : Closing ν → PidFileCall ν → Option (Phase ν)
  | locking mFile, .file (.flock .exclusive) => some (.close (truncating mFile))
  | locking mFile, .failed => some (.leaving mFile false)
  | truncating mFile, .file .truncate => some (.close (detecting mFile))
  | truncating mFile, .failed => some (.aborting mFile)
  | detecting mFile, .file (.lstat entry) =>
    if entry = some mFile then some (.close (unlinking mFile)) else some (.aborting mFile)
  | detecting mFile, .failed => some (.aborting mFile)
  | unlinking mFile, .file .unlink => some (.close (closing mFile))
  | unlinking mFile, .file .absent => some (.close (closing mFile))
  | unlinking mFile, .failed => some (.aborting mFile)
  | closing _, .file .close => some .closed
  | _, _ => none

omit [DecidableEq ν] in
def Viewing.next : Viewing ν → PidFileCall ν → Option (Phase ν)
  | opening, .file (.openExisting mFile) => some (.view (locking mFile))
  | opening, .file .absent | opening, .failed => some .gone
  | locking mFile, .file (.flock .shared) => some (.view (locked mFile))
  | locked mFile, .file (.read _) => some (.view (locked mFile))
  | locking _, .file .close | locked _, .file .close => some .gone
  | _, _ => none

/-- A sentry that fails after `createPidFile` closes the file without its lock;
either way it reaps the child once the file is closed. -/
def Phase.next (parser : PidParser) (record : PidFileRecord) :
    Phase ν → PidFileCall ν → Option (Phase ν)
  | gone, _ => none
  | _, .crash => some gone
  | idle, .fork => some (generate .opening)
  | generate phase, call => phase.next parser call
  | create phase, call => phase.next record call
  | created mFile, .retire true => some (close (.locking mFile))
  | created mFile, .retire false => some (leaving mFile false)
  | close phase, call => phase.next call
  | leaving _ _, .file .close => some closed
  | closed, .reap => some gone
  | view phase, call => phase.next call
  | _, _ => none

end

namespace Phase

variable {ν : Type*}

/-- `mFile` and `mLock` of the `PidFile`. -/
@[simp] def descriptor : Phase ν → Descriptor ν
  | idle | closed | gone | generate .opening | generate .creating | view .opening => .closed
  | generate (.locking f) | generate (.closing f) | create (.locking f)
  | create (.closingZombie f) | created f | close (.locking f) | view (.locking f) =>
    .opened f none
  | generate (.reading f) | generate (.checking f _ _) | generate (.detecting f)
  | generate (.unlinking f) | generate (.unlocking f) | create (.detecting f)
  | create (.unlockingZombie f) | create (.fetching f) | create (.writing f _ _)
  | create (.unlocking f) | close (.truncating f) | close (.detecting f) | close (.unlinking f)
  | close (.closing f) | aborting f => .opened f (some .exclusive)
  | view (.locked f) => .opened f (some .shared)
  | leaving f locked => .opened f (if locked then some .exclusive else none)

/-- The file that a sentry has created for itself. -/
@[simp] def ownFile : Phase ν → Option ν
  | create (.locking f) | create (.detecting f) | create (.unlockingZombie f)
  | create (.closingZombie f) | create (.fetching f) | create (.writing f _ _)
  | create (.unlocking f) | created f | close (.locking f) | close (.truncating f)
  | close (.detecting f) | close (.unlinking f) | close (.closing f) => some f
  | _ => none

/-- The file that a sentry relies on the path to name. -/
@[simp] def namedFile : Phase ν → Option ν
  | generate (.unlinking f) | create (.fetching f) | create (.writing f _ _)
  | create (.unlocking f) | created f | close (.locking f) | close (.unlinking f) => some f
  | _ => none

/-- The file that a sentry has filled and not locked again. -/
@[simp] def publishedFile : Phase ν → Option ν
  | created f | close (.locking f) => some f
  | _ => none

/-- The file that a sentry has created, until it closes it, unless that was
replaced before the sentry could lock it. -/
@[simp] def keptFile : Phase ν → Option ν
  | create (.detecting f) | create (.fetching f) | create (.writing f _ _) | create (.unlocking f)
  | created f | close (.locking f) | close (.truncating f) | close (.detecting f)
  | close (.unlinking f) | close (.closing f) => some f
  | _ => none

@[simp] def tends : Phase ν → Bool
  | idle | view _ | gone => false
  | _ => true

/-- What a sentry knows to be in its own file. -/
@[simp] def contents (record : PidFileRecord) : Phase ν → Option (ν × List UInt8)
  | create (.locking f) | create (.detecting f) | create (.fetching f) => some (f, [])
  | create (.writing f buf written) => some (f, buf.take written)
  | create (.unlocking f) | created f | close (.locking f) => some (f, record.text)
  | _ => none

/-- The record fits the buffer that a sentry formats it in. -/
@[simp] def Formatted (record : PidFileRecord) : Phase ν → Prop
  | create (.writing _ buf written) =>
    buf = record.text ∧ buf.length ≤ pidFileSize ∧ written ≤ buf.length
  | create (.unlocking _) | created _ | close (.locking _) => record.text.length ≤ pidFileSize
  | _ => True

/-- What a sentry has found in another file: the process it names, or that no
process holds on to it. -/
inductive Finding
  | process (parsedPid : Pid) (pidSignature : CString)
  | stale
  deriving DecidableEq, Repr

@[simp] def finding : Phase ν → Option (ν × Finding)
  | generate (.checking f parsedPid pidSignature) => some (f, .process parsedPid pidSignature)
  | generate (.detecting f) | generate (.unlinking f) => some (f, .stale)
  | _ => none

end Phase

namespace PidFileCall

variable {ν : Type*}

@[simp] def descriptor (before : Descriptor ν) : PidFileCall ν → Descriptor ν
  | file call => before.after call
  | crash => .closed
  | _ => before

@[simp] def revise (content : List UInt8) : PidFileCall ν → List UInt8
  | file call => call.revise content
  | _ => content

@[simp] def revises : PidFileCall ν → Bool
  | file call => call.revises
  | _ => false

@[simp] def relinks : PidFileCall ν → Bool
  | file call => call.relinks
  | _ => false

/-- How a call leads a sentry to a finding about the file. -/
def Finds (parser : PidParser) (f : ν) (before : Option (ν × Phase.Finding)) :
    PidFileCall ν → Phase.Finding → Prop
  | file (.read content), .process pid signature =>
    ∃ sun_path, readPidFile parser content = .process pid signature sun_path
  | file (.read content), .stale => readPidFile parser content = .malformed
  | fetch pid fetched, .stale => ∃ signature, before = some (f, .process pid signature) ∧
      fetched ≠ .failed ∧ (0 < pid → fetched ≠ .signature signature)
  | _, _ => False

end PidFileCall

/-- What a step of a user can do, and from where. -/
structure Follows {ν : Type*} (parser : PidParser) (record : PidFileRecord) (p : Phase ν)
    (call : PidFileCall ν) (q : Phase ν) : Prop where
  descriptor : q.descriptor = call.descriptor p.descriptor
  ownFile : ∀ f, q.ownFile = some f → p.ownFile = some f ∨ call = .file (.createExclusive f)
  revises : call.revises = true → ∃ f, p.ownFile = some f ∧
    p.descriptor = .opened f (some .exclusive)
  namedFile : ∀ f, q.namedFile = some f →
    call = .file (.lstat (some f)) ∨ p.namedFile = some f ∧ call.relinks = false
  unlinks : call = .file .unlink → ∃ f, p.namedFile = some f ∧
    p.descriptor = .opened f (some .exclusive) ∧
    (p.finding = some (f, .stale) ∨ p.ownFile = some f)
  publishedFile : ∀ f, q.publishedFile = some f →
    p.publishedFile = some f ∨ p.descriptor = .opened f (some .exclusive)
  finding : ∀ f found, q.finding = some (f, found) → p.finding = some (f, found) ∨
    p.descriptor = .opened f (some .exclusive) ∧ call.Finds parser f p.finding found
  contents : ∀ f content, p.Formatted record → q.contents record = some (f, content) →
    call = .file (.createExclusive f) ∧ content = [] ∨ call.relinks = false ∧
      ∃ before, p.contents record = some (f, before) ∧ content = call.revise before
  formatted : (∀ signature, call = .fetch record.pid (.signature signature) →
    signature = record.signature) → p.Formatted record → q.Formatted record
  tends : q.tends = true → (p.tends = true ∨ call = .fork) ∧ call ≠ .reap
  forks : call = .fork → p.tends = false
  reaps : call = .reap → p.tends = true
  fetches : ∀ pid fetched, call = .fetch pid fetched → p.tends = true

section

variable {ν : Type*} [DecidableEq ν] {parser : PidParser} {record : PidFileRecord}
  {q : Phase ν} {call : PidFileCall ν}

omit [DecidableEq ν] in
theorem Generating.scanned_follows (f : ν) (content : List UInt8) :
    Follows parser record (.generate (reading f)) (.file (.read content))
      (scanned f (readPidFile parser content)) := by
  cases hread : readPidFile parser content with
  | malformed | unaddressable | process =>
    constructor <;> simp [scanned, PidFileCall.Finds, hread]

omit [DecidableEq ν] in
/-- A file is found stale only if its process has no signature like the one
in the file. -/
theorem Generating.matched_follows (f : ν) (pid : Pid) (signature : CString) (fetched : Fetched) :
    Follows parser record (.generate (checking f pid signature)) (.fetch pid fetched)
      (matched f (matchPidFile pid signature fetched)) := by
  have hleaves : Follows parser record (.generate (checking f pid signature))
      (.fetch pid fetched) (.leaving f true) := by constructor <;> simp
  have hrejects (hfetched : fetched ≠ .failed) (hstale : 0 < pid → fetched ≠ .signature signature) :
      Follows parser record (.generate (checking f pid signature)) (.fetch pid fetched)
        (.generate (detecting f)) := by
    constructor <;> simp [PidFileCall.Finds]
    exact ⟨hfetched, hstale⟩
  unfold matchPidFile
  by_cases hpid : pid = -1
  · rw [if_pos hpid]
    constructor <;> simp [matched]
  rw [if_neg hpid]
  cases fetched with
  | failed => exact hleaves
  | absent => exact hrejects nofun fun _ => nofun
  | signature mSignature =>
    dsimp only
    by_cases hs : strcmp signature mSignature = 0
    · rw [if_pos hs]
      by_cases hzero : pid = 0
      · have hpos : ¬ 0 < pid := by simp [hzero]
        simpa [matched, hzero] using hrejects nofun fun h => absurd h hpos
      · simpa [matched, hpid, hzero] using hleaves
    · rw [if_neg hs]
      have hne : Fetched.signature mSignature ≠ .signature signature := fun he =>
        hs (strcmp_eq_zero_iff.mpr (Fetched.signature.inj he).symm)
      exact hrejects nofun fun _ => hne

theorem Generating.follows {p : Generating ν} (h : p.next parser call = some q) :
    Follows parser record (.generate p) call q := by
  unfold Generating.next at h
  split at h
  all_goals try (cases h <;> constructor <;> simp; done)
  · exact (Option.some.inj h) ▸ scanned_follows ..
  · obtain ⟨hpid, hnext⟩ := Option.ite_none_right_eq_some.mp h
    subst hpid
    exact (Option.some.inj hnext) ▸ matched_follows ..
  · split_ifs at h <;> cases h <;> constructor <;> simp_all [PidFileCall.Finds]

theorem Closing.follows {p : Closing ν} (h : p.next call = some q) :
    Follows parser record (.close p) call q := by
  unfold Closing.next at h
  split at h
  all_goals try (cases h <;> constructor <;> simp)
  split_ifs at h <;> cases h <;> constructor <;> simp_all

omit [DecidableEq ν] in
theorem Creating.fetched_follows (f : ν) (found : Fetched) :
    Follows parser record (.create (fetching f)) (.fetch record.pid found)
      (fetched record f found) := by
  cases found with
  | absent | failed => constructor <;> simp [fetched]
  | signature mSignature =>
    unfold fetched
    dsimp only
    split_ifs with hsize
    · constructor <;> simp
    · constructor <;> simp [PidFileRecord.text]
      rintro rfl
      exact ⟨rfl, by omega⟩

omit [DecidableEq ν] in
theorem Creating.writing_follows (f : ν) {buf bytes : List UInt8} {written : Nat}
    (hbytes : bytes <+: buf.drop written) (hmore : written + bytes.length < buf.length) :
    Follows parser record (.create (writing f buf written)) (.file (.write written bytes))
      (.create (writing f buf (written + bytes.length))) := by
  constructor
  case contents =>
    rintro f content ⟨rfl, -, hle⟩ hcontent
    simp only [Phase.contents, Option.some.injEq, Prod.mk.injEq] at hcontent
    obtain ⟨rfl, rfl⟩ := hcontent
    exact .inr ⟨rfl, _, rfl, (overwrite_take hle hbytes).symm⟩
  case formatted => exact fun _ hbuf => ⟨hbuf.1, hbuf.2.1, hmore.le⟩
  all_goals simp

omit [DecidableEq ν] in
theorem Creating.written_follows (f : ν) {buf bytes : List UInt8} {written : Nat}
    (hbytes : bytes <+: buf.drop written) (hmore : ¬ written + bytes.length < buf.length) :
    Follows parser record (.create (writing f buf written)) (.file (.write written bytes))
      (.create (unlocking f)) := by
  constructor
  case contents =>
    rintro f content ⟨rfl, -, hle⟩ hcontent
    simp only [Phase.contents, Option.some.injEq, Prod.mk.injEq] at hcontent
    obtain ⟨rfl, rfl⟩ := hcontent
    refine .inr ⟨rfl, _, rfl, ?_⟩
    simp only [PidFileCall.revise, FileCall.revise, overwrite_take hle hbytes]
    exact (List.take_of_length_le (Nat.not_lt.mp hmore)).symm
  case formatted =>
    rintro - ⟨rfl, hsize, -⟩
    exact hsize
  all_goals simp

theorem Creating.follows {p : Creating ν} (h : p.next record call = some q) :
    Follows parser record (.create p) call q := by
  unfold Creating.next at h
  split at h
  all_goals try (cases h <;> constructor <;> simp)
  · split_ifs at h <;> cases h <;> constructor <;> simp_all
  · obtain ⟨hpid, hnext⟩ := Option.ite_none_right_eq_some.mp h
    subst hpid
    exact (Option.some.inj hnext) ▸ fetched_follows ..
  · obtain ⟨⟨hoffset, -, hbytes⟩, hnext⟩ := Option.ite_none_right_eq_some.mp h
    subst hoffset
    split_ifs at hnext with hmore
    · exact (Option.some.inj hnext) ▸ writing_follows _ hbytes hmore
    · exact (Option.some.inj hnext) ▸ written_follows _ hbytes hmore

omit [DecidableEq ν] in
theorem Viewing.follows {p : Viewing ν} (h : p.next call = some q) :
    Follows parser record (.view p) call q := by
  unfold Viewing.next at h
  split at h <;> cases h <;> constructor <;> simp [PidFileCall.Finds]

omit [DecidableEq ν] in
theorem Viewing.next_cases {v : Viewing ν} (h : v.next call = some q) :
    (∃ v', q = .view v') ∨ q = .gone := by
  unfold Viewing.next at h
  split at h <;> cases h <;> first | exact .inl ⟨_, rfl⟩ | exact .inr rfl

omit [DecidableEq ν] in
theorem Viewing.next_read {v : Viewing ν} {content : List UInt8}
    (h : v.next (.file (.read content)) = some q) : ∃ f, v = .locked f ∧ q = .view (.locked f) := by
  cases v with
  | locked f =>
    cases h
    exact ⟨f, rfl, rfl⟩
  | opening | locking => cases h

theorem Phase.follows {p : Phase ν} (h : p.next parser record call = some q) :
    Follows parser record p call q := by
  unfold Phase.next at h
  split at h
  all_goals try (cases h <;> constructor <;> simp)
  · exact Generating.follows h
  · exact Creating.follows h
  · exact Closing.follows h
  · exact Viewing.follows h

theorem Phase.next_generating (hcrash : call ≠ .crash) (phase : Generating ν) :
    (generate phase).next parser record call = phase.next parser call := by
  cases call <;> first | rfl | exact absurd rfl hcrash

theorem Phase.next_creating (hcrash : call ≠ .crash) (phase : Creating ν) :
    (create phase).next parser record call = phase.next record call := by
  cases call <;> first | rfl | exact absurd rfl hcrash

theorem Phase.next_closing (hcrash : call ≠ .crash) (phase : Closing ν) :
    (close phase).next parser record call = phase.next call := by
  cases call <;> first | rfl | exact absurd rfl hcrash

theorem Phase.next_view {v : Viewing ν} (h : (view v).next parser record call = some q) :
    (∃ v', q = .view v') ∨ q = .gone := by
  cases call with
  | crash =>
    cases h
    exact .inr rfl
  | _ => exact Viewing.next_cases (v := v) h

end

namespace Phase

variable {ν : Type*} {p : Phase ν} {f : ν}

theorem file_of_ownFile (h : p.ownFile = some f) : p.descriptor.file = some f := by
  unfold ownFile at h
  split at h <;> first | exact h | cases h

theorem tends_of_ownFile (h : p.ownFile = some f) : p.tends = true := by
  unfold ownFile at h
  split at h <;> first | rfl | cases h

theorem ownFile_of_contents {record : PidFileRecord} {content : List UInt8}
    (h : p.contents record = some (f, content)) : p.ownFile = some f := by
  unfold contents at h
  split at h <;> simp_all

theorem contents_of_publishedFile (record : PidFileRecord) (h : p.publishedFile = some f) :
    p.contents record = some (f, record.text) := by
  unfold publishedFile at h
  split at h <;> simp_all

theorem descriptor_of_finding {found : Finding} (h : p.finding = some (f, found)) :
    p.descriptor = .opened f (some .exclusive) := by
  unfold finding at h
  split at h <;> simp_all

theorem not_publishedFile_of_finding {g : ν} {found : Finding} (h : p.finding = some (f, found)) :
    p.publishedFile ≠ some g := by
  unfold finding at h
  split at h <;> simp_all

theorem ownFile_of_publishedFile (h : p.publishedFile = some f) : p.ownFile = some f := by
  unfold publishedFile at h
  split at h <;> simp_all

theorem formatted_of_publishedFile {record : PidFileRecord} (h : p.publishedFile = some f)
    (hformatted : p.Formatted record) : record.text.length ≤ pidFileSize := by
  unfold publishedFile at h
  split at h <;> simp_all

theorem descriptor_of_keptFile (h : p.keptFile = some f) :
    p.descriptor = .opened f (some .exclusive) ∨ p.publishedFile = some f := by
  unfold keptFile at h
  split at h <;> simp_all

theorem descriptor_of_namedFile (h : p.namedFile = some f) :
    p.descriptor = .opened f (some .exclusive) ∨ p.publishedFile = some f := by
  unfold namedFile at h
  split at h <;> simp_all

end Phase

end PidSentry
