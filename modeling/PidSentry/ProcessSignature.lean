import PidSentry.PidFile
import PidSentry.Words

/-! The signature of a process, from its stat file (pidsignature_.c). -/

namespace PidSentry

inductive Errno
  | ENOENT
  | ESRCH
  | ERANGE
  | other
  deriving DecidableEq, Repr

/-- `isspace` in the C locale -/
def isspace (b : UInt8) : Bool := b = 32 || 9 ≤ b && b ≤ 13

def colon : UInt8 := 58

def rightParen : UInt8 := 41

/-- From the last `c` on. -/
def memrchr (c : UInt8) : List UInt8 → Option (List UInt8)
  | [] => none
  | b :: s =>
    match memrchr c s with
    | some rest => some rest
    | none => if b = c then some (b :: s) else none

/-- `fetchProcessSignature_` with the content of the stat file. -/
def fetchProcessSignature_ (incarnation : CString) (buf : List UInt8) : Except Errno CString :=
  if buf = [] then .error .ERANGE
  else
    match memrchr rightParen buf with
    | none => .error .ERANGE
    | some word =>
      match skipWords isspace (22 - 2) word with
      | none => .error .ERANGE
      | some word =>
        let timestamp := word.takeWhile fun b => ! isspace b
        .ok (incarnation ++ colon :: cstring timestamp)

/-- What `readPidFile_` makes of `createPidSignature`, by its result and errno. -/
def Fetched.ofExcept : Except Errno CString → Fetched
  | .ok mSignature => .signature mSignature
  | .error .ENOENT => .absent
  | .error _ => .failed

theorem memrchr_eq_none_iff {c : UInt8} {s : List UInt8} : memrchr c s = none ↔ c ∉ s := by
  induction s with
  | nil => simp [memrchr]
  | cons b s ih =>
    cases hrest : memrchr c s with
    | some rest =>
      have hmem : c ∈ s := by
        by_contra hmem
        simp [ih.mpr hmem] at hrest
      simp [memrchr, hrest, hmem]
    | none =>
      by_cases hb : b = c
      · simp [memrchr, hrest, hb]
      · simp [memrchr, hrest, hb, ih.mp hrest, Ne.symm hb]

theorem memrchr_append {c : UInt8} {post : List UInt8} (h : c ∉ post) (pre : List UInt8) :
    memrchr c (pre ++ c :: post) = some (c :: post) := by
  induction pre with
  | nil => simp [memrchr, memrchr_eq_none_iff.mpr h]
  | cons b pre ih => simp [memrchr, ih]

theorem exists_of_memrchr_ne_none {c : UInt8} {s : List UInt8} (h : memrchr c s ≠ none) :
    ∃ pre post, s = pre ++ c :: post ∧ c ∉ post := by
  induction s with
  | nil => exact absurd rfl h
  | cons b s ih =>
    by_cases hrest : memrchr c s = none
    · have hb : b = c := by
        by_contra hb
        simp [memrchr, hrest, hb] at h
      exact ⟨[], s, by rw [hb]; rfl, memrchr_eq_none_iff.mp hrest⟩
    · obtain ⟨pre, post, rfl, hpost⟩ := ih hrest
      exact ⟨b :: pre, post, rfl, hpost⟩

/-- The fields of a stat file after the one in which the name of the command ends. -/
def StatFields (content : List UInt8) (fields : List (List UInt8)) : Prop :=
  ∃ comm post, content = comm ++ rightParen :: post ∧ rightParen ∉ post ∧
    fields = words isspace (post.dropWhile fun b => ! isspace b)

/-- Field 22 of a stat file, in which the name of the command is field 2. -/
def StartTime (content timestamp : List UInt8) : Prop :=
  ∃ fields, StatFields content fields ∧ fields[19]? = some timestamp

/-- The start time becomes the signature, and a content without one is refused. -/
structure ExtractsStartTime (incarnation : CString) (content : List UInt8) : Prop where
  succeeds : ∀ timestamp, StartTime content timestamp →
    fetchProcessSignature_ incarnation content = .ok (incarnation ++ colon :: timestamp)
  fails : (∀ timestamp, ¬ StartTime content timestamp) →
    fetchProcessSignature_ incarnation content = .error .ERANGE

section

variable {incarnation : CString} {content : List UInt8} {fields : List (List UInt8)}

theorem StatFields.unique {other : List (List UInt8)} (h : StatFields content fields)
    (hother : StatFields content other) : fields = other := by
  obtain ⟨comm, post, rfl, hpost, rfl⟩ := h
  obtain ⟨comm', post', he, hpost', rfl⟩ := hother
  have hlast := memrchr_append hpost comm
  rw [he, memrchr_append hpost' comm'] at hlast
  rw [(List.cons.inj (Option.some.inj hlast)).2]

theorem StartTime.unique {timestamp other : List UInt8} (h : StartTime content timestamp)
    (hother : StartTime content other) : timestamp = other := by
  obtain ⟨fields, hfields, htime⟩ := h
  obtain ⟨fields', hfields', htime'⟩ := hother
  rw [hfields.unique hfields'] at htime
  exact Option.some.inj (htime.symm.trans htime')

theorem StartTime.ne_nil {timestamp : List UInt8} (h : StartTime content timestamp) :
    timestamp ≠ [] := by
  obtain ⟨_, ⟨_, _, _, _, rfl⟩, htime⟩ := h
  exact ne_nil_of_mem_words (List.mem_of_getElem? htime)

theorem StartTime.nul_not_mem {timestamp : List UInt8} (h : StartTime content timestamp)
    (hnul : 0 ∉ content) : 0 ∉ timestamp := by
  obtain ⟨_, ⟨comm, post, rfl, _, rfl⟩, htime⟩ := h
  intro hmem
  have hpost := mem_of_mem_words (List.mem_of_getElem? htime) hmem
  apply hnul
  exact List.mem_append_right _ (List.mem_cons_of_mem _ ((List.dropWhile_sublist _).subset hpost))

/-- What the function does with a content whose fields are these. -/
theorem StatFields.fetchProcessSignature_eq (h : StatFields content fields) (hnul : 0 ∉ content) :
    fetchProcessSignature_ incarnation content =
      match fields[19]? with
      | some timestamp => .ok (incarnation ++ colon :: timestamp)
      | none =>
        if fields.length = 19 ∧ content.getLast?.any isspace = true then .ok (incarnation ++ [colon])
        else .error .ERANGE := by
  obtain ⟨comm, post, rfl, hpost, hfields⟩ := h
  have hparen : isspace rightParen = false := by decide
  have hlater : laterWords isspace (rightParen :: post) = fields := by
    rw [hfields, laterWords, List.dropWhile_cons_of_pos (by simp [hparen])]
  have hlast : (comm ++ rightParen :: post).getLast? = (rightParen :: post).getLast? := by
    rw [List.getLast?_append, List.getLast?_cons]
    rfl
  have hscan := skipWords_succ isspace 19 (rightParen :: post)
  rw [hlater, ← hlast] at hscan
  unfold fetchProcessSignature_
  rw [if_neg (by simp), memrchr_append hpost]
  dsimp only
  cases hskip : skipWords isspace (22 - 2) (rightParen :: post) with
  | none =>
    rw [hskip, Option.map_none] at hscan
    cases htime : fields[19]? with
    | some timestamp => simp [htime] at hscan
    | none =>
      rw [htime] at hscan
      split_ifs at hscan with hend
      dsimp only
      rw [if_neg hend]
  | some word =>
    rw [hskip, Option.map_some] at hscan
    cases htime : fields[19]? with
    | some timestamp =>
      rw [htime] at hscan
      have hstart : StartTime (comm ++ rightParen :: post) timestamp :=
        ⟨fields, ⟨comm, post, rfl, hpost, hfields⟩, htime⟩
      dsimp only at hscan ⊢
      rw [Option.some.inj hscan, cstring_eq_self (hstart.nul_not_mem hnul)]
    | none =>
      rw [htime] at hscan
      split_ifs at hscan with hend
      dsimp only
      rw [Option.some.inj hscan, if_pos hend]
      rfl

/-- Without a parenthesis there are no fields. -/
theorem fetchProcessSignature_of_not_mem (h : rightParen ∉ content) :
    fetchProcessSignature_ incarnation content = .error .ERANGE := by
  unfold fetchProcessSignature_
  rw [memrchr_eq_none_iff.mpr h]
  split_ifs <;> rfl

theorem StartTime.fetchProcessSignature_eq {timestamp : List UInt8} (h : StartTime content timestamp)
    (hnul : 0 ∉ content) (incarnation : CString) :
    fetchProcessSignature_ incarnation content = .ok (incarnation ++ colon :: timestamp) := by
  obtain ⟨fields, hfields, htime⟩ := h
  rw [hfields.fetchProcessSignature_eq hnul, htime]

/-- Signatures tell incarnations and start times apart. -/
theorem append_colon_inj {incarnation other timestamp timestamp' : List UInt8}
    (h : colon ∉ timestamp) (h' : colon ∉ timestamp') :
    incarnation ++ colon :: timestamp = other ++ colon :: timestamp' ↔
      incarnation = other ∧ timestamp = timestamp' := by
  constructor
  · intro he
    have hlast := memrchr_append h incarnation
    rw [he, memrchr_append h' other] at hlast
    obtain rfl := (List.cons.inj (Option.some.inj hlast)).2
    exact ⟨List.append_cancel_right he, rfl⟩
  · rintro ⟨rfl, rfl⟩
    rfl

end

/-- The start time is extracted from every content but those that end in white
space after exactly one field less; it is never empty, and with the incarnation
it is what makes signatures equal. -/
theorem fetchProcessSignature_startTime_iff (incarnation : CString) {content : List UInt8}
    (hnul : 0 ∉ content) :
    (ExtractsStartTime incarnation content ↔ ∀ fields, StatFields content fields →
      ¬ (fields.length = 19 ∧ content.getLast?.any isspace = true)) ∧
    (∀ timestamp, StartTime content timestamp → timestamp ≠ []) ∧
    ∀ other content' timestamp timestamp', 0 ∉ content' → StartTime content timestamp →
      StartTime content' timestamp' → colon ∉ timestamp → colon ∉ timestamp' →
      (fetchProcessSignature_ incarnation content = fetchProcessSignature_ other content' ↔
        incarnation = other ∧ timestamp = timestamp') := by
  refine ⟨⟨fun h fields hfields hend => ?_, fun h => ⟨fun timestamp htime => ?_, fun hnone => ?_⟩⟩,
    fun timestamp => StartTime.ne_nil, ?_⟩
  · have htime : fields[19]? = none := List.getElem?_eq_none hend.1.le
    have hfetch := h.fails fun timestamp htimestamp => by
      obtain ⟨fields', hfields', htime'⟩ := htimestamp
      rw [hfields'.unique hfields, htime] at htime'
      cases htime'
    rw [hfields.fetchProcessSignature_eq hnul, htime] at hfetch
    simp [hend] at hfetch
  · exact htime.fetchProcessSignature_eq hnul incarnation
  · by_cases hparen : rightParen ∈ content
    · obtain ⟨comm, post, hcontent, hpost⟩ :=
        exists_of_memrchr_ne_none fun he => memrchr_eq_none_iff.mp he hparen
      have hfields : StatFields content _ := ⟨comm, post, hcontent, hpost, rfl⟩
      rw [hfields.fetchProcessSignature_eq hnul]
      cases htime : (words isspace (post.dropWhile fun b => ! isspace b))[19]? with
      | some timestamp => exact absurd ⟨_, hfields, htime⟩ (hnone timestamp)
      | none => simp only [h _ hfields, if_false]
    · exact fetchProcessSignature_of_not_mem hparen
  · intro other content' timestamp timestamp' hnul' htime htime' hcolon hcolon'
    rw [htime.fetchProcessSignature_eq hnul, htime'.fetchProcessSignature_eq hnul', Except.ok.injEq]
    exact append_colon_inj hcolon hcolon'

/-- A stat file that breaks off right before the start time. -/
theorem fetchProcessSignature_truncated : ¬ ∀ incarnation content, 0 ∉ content →
    ExtractsStartTime incarnation content := by
  intro h
  let content : List UInt8 := [49, 32, 40, 97, 41] ++ (List.replicate 19 [32, 48]).flatten ++ [10]
  have hfields : StatFields content (List.replicate 19 [48]) :=
    ⟨[49, 32, 40, 97], (List.replicate 19 [32, 48]).flatten ++ [10], by decide, by decide, by decide⟩
  have hfails := (h [105] content (by decide)).fails fun timestamp htimestamp => by
    obtain ⟨fields, hother, htime⟩ := htimestamp
    rw [hother.unique hfields] at htime
    cases htime
  have hfetch : fetchProcessSignature_ [105] content = .ok [105, 58] := by decide
  rw [hfetch] at hfails
  cases hfails

theorem fetchProcessSignature_startTime_complete :
    ExtractsStartTime [105] ([49, 32, 40, 97, 41] ++ (List.replicate 20 [32, 48]).flatten ++ [10]) := by
  refine (fetchProcessSignature_startTime_iff [105] (by decide)).1.mpr fun fields hfields hend => ?_
  have hcomplete : StatFields
      ([49, 32, 40, 97, 41] ++ (List.replicate 20 [32, 48]).flatten ++ [10]) (List.replicate 20 [48]) :=
    ⟨[49, 32, 40, 97], (List.replicate 20 [32, 48]).flatten ++ [10], by decide, by decide, by decide⟩
  rw [hfields.unique hcomplete] at hend
  exact absurd hend.1 (by decide)

end PidSentry
