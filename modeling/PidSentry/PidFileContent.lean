import PidSentry.Command
import PidSentry.PidFileWorld
import PidSentry.ReadPidFile

/-! What the users of a pid file make of any content: records that are torn, lines
that do not fit, and processes that cannot be looked up. -/

namespace PidSentry

/-- The bytes of a pid file that is read in one go, as lines. -/
structure PidFileLines (buf pid blank pidSignature pidKeeperAddr : List UInt8) : Prop where
  text : cstring buf = pid ++ newline :: (blank ++ newline ::
    (pidSignature ++ newline :: (pidKeeperAddr ++ [newline])))
  pid : newline ∉ pid
  blank : newline ∉ blank
  pidSignature : newline ∉ pidSignature

section

variable {parser : PidParser} {buf pid blank pidSignature pidKeeperAddr : List UInt8}

theorem PidFileLines.scanPidFile (h : PidFileLines buf pid blank pidSignature pidKeeperAddr)
    {parsedPid : Pid} (hpid : parser.parsePid pid = some parsedPid) (hzero : parsedPid ≠ 0) :
    scanPidFile parser buf =
      if sunPathSize < pidKeeperAddr.length + 2 then .unaddressable
      else .process parsedPid pidSignature (sunPath pidKeeperAddr) := by
  have hlast : (cstring buf).getLast? = some newline := by
    rw [h.text]
    simp [List.getLast?_cons]
  unfold PidSentry.scanPidFile
  dsimp only
  rw [hlast, h.text, cut_append h.pid]
  simp [cut_append h.blank, cut_append h.pidSignature, hpid, hzero]

/-- Whatever is not malformed has these lines, and the first one is a pid. -/
theorem PidFileLines.of_scanPidFile (h : PidSentry.scanPidFile parser buf ≠ .malformed) :
    ∃ pid blank pidSignature pidKeeperAddr parsedPid,
      PidFileLines buf pid blank pidSignature pidKeeperAddr ∧
        parser.parsePid pid = some parsedPid ∧ parsedPid ≠ 0 := by
  unfold PidSentry.scanPidFile at h
  dsimp only at h
  cases hcut₁ : cut newline (cstring buf) with
  | none => simp [hcut₁] at h
  | some line₁ =>
    cases hcut₂ : cut newline line₁.2 with
    | none => simp [hcut₁, hcut₂] at h
    | some line₂ =>
      cases hcut₃ : cut newline line₂.2 with
      | none => simp [hcut₁, hcut₂, hcut₃] at h
      | some line₃ =>
        simp only [hcut₁, hcut₂, hcut₃] at h
        obtain ⟨htext₁, hpid⟩ := cut_eq_some hcut₁
        obtain ⟨htext₂, hblank⟩ := cut_eq_some hcut₂
        obtain ⟨htext₃, hsignature⟩ := cut_eq_some hcut₃
        have hrest : line₃.2 ≠ [] := fun he => by simp [he] at h
        have hlast : (cstring buf).getLast? = some newline := by
          by_contra hlast
          simp [hlast] at h
        have hend : line₃.2.dropLast ++ [newline] = line₃.2 := by
          apply List.dropLast_append_getLast?
          obtain ⟨b, hb⟩ := Option.ne_none_iff_exists'.mp fun he => hrest (List.getLast?_eq_none_iff.mp he)
          rw [htext₁, htext₂, htext₃] at hlast
          simpa [List.getLast?_cons, List.getLast?_append, hb] using hlast
        cases hparse : parser.parsePid line₁.1 with
        | none => simp [hparse] at h
        | some parsedPid =>
          have hzero : parsedPid ≠ 0 := fun he => by simp [hparse, he] at h
          refine ⟨_, _, _, line₃.2.dropLast, parsedPid, ⟨?_, hpid, hblank, hsignature⟩, hparse, hzero⟩
          rw [hend, ← htext₃, ← htext₂, ← htext₁]

end

/-- A process that could be looked up either is the one that the file was written
for, or stands for no process. -/
theorem matchPidFile_eq {parsedPid : Pid} (hpid : parsedPid ≠ -1) {fetched : Fetched}
    (hfetched : fetched ≠ .failed) (pidSignature : CString) :
    matchPidFile parsedPid pidSignature fetched =
      if fetched = .signature pidSignature then .signature ⟨parsedPid, pidSignature⟩
      else .signature ⟨0, []⟩ := by
  unfold matchPidFile
  rw [if_neg hpid]
  cases fetched with
  | failed => exact absurd rfl hfetched
  | absent => simp
  | signature mSignature =>
    by_cases he : mSignature = pidSignature
    · simp [he, strcmp_eq_zero_iff]
    · simp [he, strcmp_eq_zero_iff, Ne.symm he]

/-- The process that a reader of the text goes on to look up. -/
def PidFileText.lookups (fetch : Pid → Fetched) : PidFileText → List (Pid × Fetched)
  | .process parsedPid _ _ => [(parsedPid, fetch parsedPid)]
  | .malformed | .unaddressable => []

section

variable (parser : PidParser) (content : List UInt8) (fetch : Pid → Fetched)

/-- The content names a process that is there with the signature it gives. -/
def NamesLive (pidSignature : PidSignature) : Prop :=
  (∃ sun_path, readPidFile parser content =
    .process pidSignature.mPid pidSignature.mSignature sun_path) ∧
    fetch pidSignature.mPid = .signature pidSignature.mSignature

/-- What the content says, once the process that it names has been looked up. -/
def Classified : PidFileReading → Prop
  | .signature pidSignature =>
    readPidFile parser content = .malformed ∧ pidSignature = ⟨-1, []⟩ ∨
      NamesLive parser content fetch pidSignature ∨
      (∃ parsedPid signature sun_path, readPidFile parser content =
        .process parsedPid signature sun_path ∧ fetch parsedPid ≠ .signature signature) ∧
        pidSignature = ⟨0, []⟩
  | .failed | .fault => False

/-- The calls by which a sentry examines an existing pid file. -/
def Generating.examine {ν : Type*} : List (PidFileCall ν) :=
  .file (.read content) :: ((readPidFile parser content).lookups fetch).map fun l => .fetch l.1 l.2

/-- The calls by which a client examines it. -/
def CommandPhase.examine {ν κ : Type*} : List (CommandCall ν κ) :=
  .readPidFile content ::
    ((readPidFile parser content).lookups fetch).map fun l => .createPidSignature l.1 l.2

/-- From here `generatePidFile_` removes the file, if its name is still there, and
goes on to create its own. -/
def Phase.Supplants {ν : Type*} [DecidableEq ν] (record : PidFileRecord) (mFile : ν)
    (q : Phase ν) : Prop :=
  [.file (.lstat (some mFile)), .file .unlink, .file .unlock, .file .close].foldlM
    (Phase.next parser record) q = some (.generate .creating)

/-- No user of the file fails over its content, if the system does not fail it. -/
structure Unblocked (ν κ : Type*) [DecidableEq ν] : Prop where
  reading : Classified parser content fetch (readPidFileSignature parser content fetch).1
  generating : ∀ (record : PidFileRecord) (mFile : ν), ∃ q,
    (Generating.examine parser content fetch).foldlM (Phase.next parser record)
      (.generate (.reading mFile)) = some q ∧
      ((∃ pidSignature, NamesLive parser content fetch pidSignature) ∧ q = .leaving mFile true ∨
        q.Supplants parser record mFile)
  command : ∀ mRelaxed, ∃ q,
    (CommandPhase.examine parser content fetch (ν := ν) (κ := κ)).foldlM
      (CommandPhase.next parser mRelaxed) .reading = some q ∧
      ((∃ pidSignature sun_path, NamesLive parser content fetch pidSignature ∧
          q = .connecting pidSignature sun_path) ∨
        q = .settled mRelaxed .zombiePidFile 0 ∨ q = .settled mRelaxed .malformedPidFile 0)

end

/-- No line of the content leads a reader astray: the address fits, and the pid
is not the one that stands for a malformed file. -/
def Admissible (parser : PidParser) (content : List UInt8) : Prop :=
  ∀ pid blank pidSignature pidKeeperAddr parsedPid, content.length ≤ pidFileSize →
    PidFileLines content pid blank pidSignature pidKeeperAddr →
    parser.parsePid pid = some parsedPid → parsedPid ≠ 0 →
    parsedPid ≠ -1 ∧ pidKeeperAddr.length + 2 ≤ sunPathSize

section

variable {parser : PidParser} {content : List UInt8} {fetch : Pid → Fetched}

theorem Admissible.readPidFile_cases (h : Admissible parser content) :
    readPidFile parser content = .malformed ∨
      ∃ parsedPid pidSignature sun_path, parsedPid ≠ -1 ∧ parsedPid ≠ 0 ∧
        readPidFile parser content = .process parsedPid pidSignature sun_path := by
  by_cases hmalformed : readPidFile parser content = .malformed
  · exact .inl hmalformed
  · by_cases hsize : content.length ≤ pidFileSize
    · have hread : readPidFile parser content = scanPidFile parser content := by
        rw [readPidFile, if_pos hsize]
      rw [hread] at hmalformed ⊢
      obtain ⟨pid, blank, pidSignature, pidKeeperAddr, parsedPid, hlines, hparse, hzero⟩ :=
        PidFileLines.of_scanPidFile hmalformed
      obtain ⟨hpid, hfits⟩ := h _ _ _ _ _ hsize hlines hparse hzero
      refine .inr ⟨parsedPid, pidSignature, sunPath pidKeeperAddr, hpid, hzero, ?_⟩
      rw [hlines.scanPidFile hparse hzero, if_neg (Nat.not_lt.mpr hfits)]
    · refine absurd ?_ hmalformed
      rw [readPidFile, if_neg hsize]
      rfl

theorem Classified.admissible
    (h : Classified parser content fetch (readPidFileSignature parser content fetch).1) :
    Admissible parser content := by
  intro pid blank pidSignature pidKeeperAddr parsedPid hsize hlines hparse hzero
  have hread : readPidFile parser content =
      if sunPathSize < pidKeeperAddr.length + 2 then .unaddressable
      else .process parsedPid pidSignature (sunPath pidKeeperAddr) := by
    rw [readPidFile, if_pos hsize, hlines.scanPidFile hparse hzero]
  by_cases hfits : sunPathSize < pidKeeperAddr.length + 2
  · rw [if_pos hfits] at hread
    simp [readPidFileSignature, hread, Classified] at h
  · rw [if_neg hfits] at hread
    refine ⟨fun hpid => ?_, by omega⟩
    simp [readPidFileSignature, hread, matchPidFile, hpid, Classified] at h

theorem Phase.supplants_detecting {ν : Type*} [DecidableEq ν] (record : PidFileRecord) (mFile : ν) :
    (Phase.generate (.detecting mFile)).Supplants parser record mFile := by
  simp [Supplants, Phase.next, Generating.next]

/-- The calls of a sentry lead to its verdict on the content. -/
theorem Generating.foldlM_examine {ν : Type*} [DecidableEq ν] (record : PidFileRecord) (mFile : ν) :
    (examine parser content fetch).foldlM (Phase.next parser record)
        (.generate (.reading mFile)) =
      some (match readPidFile parser content with
        | .process parsedPid pidSignature _ =>
          matched mFile (matchPidFile parsedPid pidSignature (fetch parsedPid))
        | text => scanned mFile text) := by
  cases hread : readPidFile parser content <;>
    simp [examine, PidFileText.lookups, Phase.next, Generating.next, scanned, hread]

theorem CommandPhase.foldlM_examine {ν κ : Type*} (mRelaxed : Bool) :
    (examine parser content fetch (ν := ν) (κ := κ)).foldlM (CommandPhase.next parser mRelaxed)
        .reading =
      some (match readPidFile parser content with
        | .process parsedPid pidSignature sun_path =>
          matched mRelaxed sun_path (matchPidFile parsedPid pidSignature (fetch parsedPid))
        | text => scanned mRelaxed text) := by
  cases hread : readPidFile parser content <;>
    simp [examine, PidFileText.lookups, CommandPhase.next, scanned, hread]

theorem unblocked_of_malformed (hread : readPidFile parser content = .malformed)
    (ν κ : Type*) [DecidableEq ν] : Unblocked parser content fetch ν κ := by
  refine ⟨?_, fun record mFile => ⟨_, Generating.foldlM_examine record mFile, .inr ?_⟩,
    fun mRelaxed => ⟨_, CommandPhase.foldlM_examine mRelaxed, .inr (.inr ?_)⟩⟩
  · simp [readPidFileSignature, hread, Classified]
  · rw [hread]
    exact Phase.supplants_detecting record mFile
  · rw [hread]
    rfl

theorem Admissible.unblocked (h : Admissible parser content) (hfetch : ∀ pid, fetch pid ≠ .failed)
    (ν κ : Type*) [DecidableEq ν] : Unblocked parser content fetch ν κ := by
  rcases h.readPidFile_cases with hread | ⟨parsedPid, signature, sun_path, hpid, hzero, hread⟩
  · exact unblocked_of_malformed hread ν κ
  · have hmatch := matchPidFile_eq hpid (hfetch parsedPid) signature
    by_cases hlive : fetch parsedPid = .signature signature
    · rw [if_pos hlive] at hmatch
      have hnames : NamesLive parser content fetch ⟨parsedPid, signature⟩ :=
        ⟨⟨sun_path, hread⟩, hlive⟩
      refine ⟨?_, fun record mFile => ⟨_, Generating.foldlM_examine record mFile, .inl ⟨⟨_, hnames⟩, ?_⟩⟩,
        fun mRelaxed => ⟨_, CommandPhase.foldlM_examine mRelaxed, .inl ⟨_, sun_path, hnames, ?_⟩⟩⟩
      · simpa [readPidFileSignature, hread, hmatch, Classified] using .inl hnames
      · simp [hread, hmatch, Generating.matched, hpid, hzero]
      · simp [hread, hmatch, CommandPhase.matched, hpid, hzero]
    · rw [if_neg hlive] at hmatch
      refine ⟨?_, fun record mFile => ⟨_, Generating.foldlM_examine record mFile, .inr ?_⟩,
        fun mRelaxed => ⟨_, CommandPhase.foldlM_examine mRelaxed, .inr (.inl ?_)⟩⟩
      · simp only [readPidFileSignature, hread, hmatch]
        exact .inr (.inr ⟨⟨parsedPid, signature, sun_path, hread, hlive⟩, rfl⟩)
      · rw [hread]
        simpa [hmatch, Generating.matched] using Phase.supplants_detecting record mFile
      · simp [hread, hmatch, CommandPhase.matched]

/-- Content blocks no user of the file exactly if none of its lines leads astray. -/
theorem unblocked_iff (parser : PidParser) (content : List UInt8) (ν κ : Type*) [DecidableEq ν] :
    (∀ fetch : Pid → Fetched, (∀ pid, fetch pid ≠ .failed) →
        Unblocked parser content fetch ν κ) ↔
      Admissible parser content := by
  constructor
  · intro h
    have hh := h (fun _ => .absent) fun _ => Fetched.noConfusion
    exact hh.reading.admissible
  · exact fun h fetch hfetch => h.unblocked hfetch ν κ

/-- A pid file whose address is longer than any that a socket can have. -/
theorem blocked_by_address : ¬ ∀ (parser : PidParser) (content : List UInt8) (fetch : Pid → Fetched),
    (∀ pid, fetch pid ≠ .failed) → Unblocked parser content fetch Unit Unit := by
  intro h
  have hh := h .unsigned ([55, 10, 10, 97, 10] ++ List.replicate 107 120 ++ [10]) (fun _ => .absent)
    fun _ => Fetched.noConfusion
  have hlines : PidFileLines ([55, 10, 10, 97, 10] ++ List.replicate 107 120 ++ [10]) [55] [] [97]
      (List.replicate 107 120) := ⟨by decide, by decide, by decide, by decide⟩
  have hparse : PidParser.unsigned.parsePid [55] = some 7 := by decide
  exact absurd (hh.reading.admissible _ _ _ _ 7 (by decide) hlines hparse (by decide)).2 (by decide)

/-- The text of a record, but for the newline at its end. -/
def formatPidFileInit (pid : Pid) (signature : CString) (sun_path : List UInt8) : List UInt8 :=
  decimal pid.toNatClampNeg ++ newline :: newline :: (signature ++ newline :: cstring sun_path.tail)

theorem formatPidFile_eq (pid : Pid) (signature : CString) (sun_path : List UInt8) :
    formatPidFile pid signature sun_path = formatPidFileInit pid signature sun_path ++ [newline] := by
  simp [formatPidFile, formatPidFileInit]

theorem count_newline_formatPidFileInit {signature : CString} {sun_path : List UInt8}
    (hsignature : newline ∉ signature) (hname : newline ∉ cstring sun_path.tail) (pid : Pid) :
    (formatPidFileInit pid signature sun_path).count newline = 3 := by
  have hpid : newline ∉ decimal pid.toNatClampNeg := decimal_not_mem (by decide)
  simp [formatPidFileInit, List.count_eq_zero_of_not_mem hpid,
    List.count_eq_zero_of_not_mem hsignature, List.count_eq_zero_of_not_mem hname]

/-- A reader gets past the lines of a file only at its fourth newline. -/
theorem PidFileLines.count_newline {buf pid blank pidSignature pidKeeperAddr : List UInt8}
    (h : PidFileLines buf pid blank pidSignature pidKeeperAddr) : 4 ≤ buf.count newline := by
  have hcount : 4 ≤ (cstring buf).count newline := by
    rw [h.text]
    simp only [List.count_append, List.count_cons_self, List.count_nil]
    omega
  exact hcount.trans ((List.takeWhile_sublist _).count_le newline)

/-- However much of a record is missing at its end, what is left is malformed. -/
theorem readPidFile_torn {aPid : Pid} {mSignature : CString} {sun_path torn : List UInt8}
    (hsignature : newline ∉ mSignature) (hname : newline ∉ cstring sun_path.tail)
    (htorn : torn <+: formatPidFile aPid mSignature sun_path)
    (hne : torn ≠ formatPidFile aPid mSignature sun_path) :
    readPidFile parser torn = .malformed := by
  rw [formatPidFile_eq] at htorn hne
  have hinit : torn <+: formatPidFileInit aPid mSignature sun_path :=
    (List.prefix_concat_iff.mp htorn).resolve_left hne
  have hcount : torn.count newline ≤ 3 := by
    rw [← count_newline_formatPidFileInit hsignature hname aPid]
    exact hinit.sublist.count_le newline
  have hscan : ∀ buf : List UInt8, buf.count newline ≤ 3 → scanPidFile parser buf = .malformed := by
    intro buf hbuf
    by_contra hscan
    obtain ⟨_, _, _, _, _, hlines, -⟩ := PidFileLines.of_scanPidFile hscan
    have := hlines.count_newline
    omega
  rw [readPidFile]
  split_ifs
  · exact hscan torn hcount
  · exact hscan [] (by simp)

end

/-- Whatever part of its record a sentry gets to write, a reader finds no pid in
it, the next sentry replaces the file and no client accepts it. -/
theorem createPidFile_torn (parser : PidParser) {aPid : Pid} {mSignature : CString}
    {sun_path torn : List UInt8} (hsignature : newline ∉ mSignature)
    (hname : newline ∉ cstring sun_path.tail)
    (htorn : torn <+: formatPidFile aPid mSignature sun_path)
    (hne : torn ≠ formatPidFile aPid mSignature sun_path) :
    (∀ fetch, readPidFileSignature parser torn fetch = (.signature ⟨-1, []⟩, none)) ∧
      (∀ {ν : Type} [DecidableEq ν] (record : PidFileRecord) (mFile : ν), ∃ q,
        (Phase.generate (.reading mFile)).next parser record (.file (.read torn)) = some q ∧
          q.Supplants parser record mFile) ∧
      ∀ {ν κ : Type} (mRelaxed : Bool),
        CommandPhase.reading.next parser mRelaxed (.readPidFile torn : CommandCall ν κ) =
          some (.finishing .malformedPidFile 0) := by
  have hread : readPidFile parser torn = .malformed := readPidFile_torn hsignature hname htorn hne
  refine ⟨fun fetch => ?_, fun record mFile => ⟨.generate (.detecting mFile), ?_, ?_⟩,
    fun mRelaxed => ?_⟩
  · simp [readPidFileSignature, hread]
  · simp [Phase.next, Generating.next, Generating.scanned, hread]
  · exact Phase.supplants_detecting record mFile
  · simp [CommandPhase.next, CommandPhase.scanned, CommandPhase.settled, hread]

/-- The writing stops right after the signature. -/
theorem createPidFile_torn_at_newline :
    (∀ fetch, readPidFileSignature .unsigned [55, 10, 10, 97, 10] fetch =
        (.signature ⟨-1, []⟩, none)) ∧
      (∀ {ν : Type} [DecidableEq ν] (record : PidFileRecord) (mFile : ν), ∃ q,
        (Phase.generate (.reading mFile)).next .unsigned record
            (.file (.read [55, 10, 10, 97, 10])) = some q ∧ q.Supplants .unsigned record mFile) ∧
      ∀ {ν κ : Type} (mRelaxed : Bool),
        CommandPhase.reading.next .unsigned mRelaxed
          (.readPidFile [55, 10, 10, 97, 10] : CommandCall ν κ) =
            some (.finishing .malformedPidFile 0) :=
  @createPidFile_torn .unsigned 7 [97] (0 :: 120 :: List.replicate 106 0) [55, 10, 10, 97, 10]
    (by decide) (by decide) (by decide) (by decide)

/-- A sentry that has begun to write its record has not written all of it. -/
def Phase.Unfinished {ν : Type*} : Phase ν → Prop
  | .create (.writing _ buf written) => written < buf.length
  | _ => True

section

variable {ν : Type*} [DecidableEq ν] {parser : PidParser} {record : PidFileRecord} {q : Phase ν}
  {call : PidFileCall ν}

theorem Generating.next_unfinished {p : Generating ν} (h : p.next parser call = some q) :
    q.Unfinished := by
  unfold Generating.next at h
  split at h
  all_goals try (cases h <;> exact trivial)
  · obtain rfl := Option.some.inj h
    cases readPidFile parser _ <;> exact trivial
  · obtain ⟨-, hnext⟩ := Option.ite_none_right_eq_some.mp h
    obtain rfl := Option.some.inj hnext
    unfold matched
    split
    · split_ifs <;> exact trivial
    · exact trivial
    · exact trivial
  · split_ifs at h <;> cases h <;> exact trivial

theorem Creating.next_unfinished {p : Creating ν} (h : p.next record call = some q) :
    q.Unfinished := by
  unfold Creating.next at h
  split at h
  all_goals try (cases h <;> exact trivial)
  · split_ifs at h <;> cases h <;> exact trivial
  · obtain ⟨-, hnext⟩ := Option.ite_none_right_eq_some.mp h
    obtain rfl := Option.some.inj hnext
    unfold fetched
    split
    · dsimp only
      split_ifs
      · exact trivial
      · simp [Phase.Unfinished, formatPidFile]
    · exact trivial
    · exact trivial
  · obtain ⟨-, hnext⟩ := Option.ite_none_right_eq_some.mp h
    split_ifs at hnext with hmore
    · obtain rfl := Option.some.inj hnext
      exact hmore
    · obtain rfl := Option.some.inj hnext
      exact trivial

theorem Phase.next_unfinished {p : Phase ν} (h : p.next parser record call = some q) :
    q.Unfinished := by
  unfold Phase.next at h
  split at h
  all_goals try (cases h <;> exact trivial)
  · exact Generating.next_unfinished h
  · exact Creating.next_unfinished h
  · unfold Closing.next at h
    split at h
    all_goals try (cases h <;> exact trivial)
    split_ifs at h <;> cases h <;> exact trivial
  · rcases Viewing.next_cases h with ⟨v, rfl⟩ | rfl <;> exact trivial

end

namespace World

variable {π ν : Type*} [DecidableEq π] [DecidableEq ν] {record : π → PidFileRecord}
  {parser : PidParser} {w : World π ν}

theorem unfinished_of_reachable (hw : (system record parser).Reachable w) (i : π) :
    (w.phase i).Unfinished := by
  refine System.Reachable.invariant (P := fun w => (w.phase i).Unfinished) ?_ ?_ hw
  · intro w hw
    rcases hw.2 i with he | he <;> rw [he] <;> exact trivial
  · intro w event w' _ hi hstep
    cases event with
    | process pid signature =>
      obtain ⟨-, rfl⟩ := hstep
      exact hi
    | call j call =>
      obtain ⟨-, q, hnext, rfl⟩ := hstep
      by_cases hij : i = j
      · subst hij
        rw [after_phase_self]
        exact Phase.next_unfinished hnext
      · rw [after_phase_of_ne hij]
        exact hi

/-- From its creation until the last byte is written the file of a sentry names
no process, wherever its sentry should die. -/
theorem malformed_of_writing (hw : (system record parser).Reachable w) {i : π} {phase : Creating ν}
    (hphase : w.phase i = .create phase) {f : ν} {content : List UInt8}
    (hcontents : (w.phase i).contents (record i) = some (f, content))
    (hlocked : phase ≠ .unlocking f) : readPidFile parser (w.files.content f) = .malformed := by
  have hi := tracked_of_reachable hw
  have hunfinished := unfinished_of_reachable hw i
  have hformatted := hi.formatted i
  have htail : cstring (sunPath (record i).address.name).tail = (record i).address.name :=
    (record i).cstring_sunPath
  rw [hi.contents i f content hcontents]
  rw [hphase] at hcontents hunfinished hformatted
  have htorn : ∀ written, written < (record i).text.length →
      readPidFile parser ((record i).text.take written) = .malformed := by
    intro written hlt
    refine readPidFile_torn (record i).newline_not_mem ?_ (List.take_prefix written _) ?_
    · rw [htail]
      exact (record i).address.newline_not_mem
    · intro he
      have hlength := congrArg List.length he
      rw [List.length_take] at hlength
      have : (record i).text.length ≤ written := by
        rw [PidFileRecord.text] at hlt ⊢
        omega
      omega
  have hempty : readPidFile parser [] = .malformed := by
    have hpos : 0 < (record i).text.length := by simp [PidFileRecord.text_eq]
    simpa using htorn 0 hpos
  cases phase with
  | writing g buf written =>
    obtain ⟨rfl, -, -⟩ := hformatted
    simp only [Phase.contents, Option.some.injEq, Prod.mk.injEq] at hcontents
    rw [← hcontents.2]
    exact htorn written hunfinished
  | unlocking g =>
    simp only [Phase.contents, Option.some.injEq, Prod.mk.injEq] at hcontents
    exact absurd (congrArg Creating.unlocking hcontents.1) hlocked
  | locking g | detecting g | fetching g =>
    simp only [Phase.contents, Option.some.injEq, Prod.mk.injEq] at hcontents
    rw [← hcontents.2]
    exact hempty
  | unlockingZombie g | closingZombie g => cases hcontents

end World

end PidSentry
