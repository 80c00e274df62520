import PidSentry.PidFile

/-! The record that `createPidFile_` writes, and what `readPidFile` returns for a
file once it has looked up the process that the file names. -/

namespace PidSentry

/-- How `createPidFile_` ends, with what it has put into the file. -/
inductive PidFileWriting
  | written (content : List UInt8)
  | failed (content : List UInt8)
  | abort
  deriving DecidableEq, Repr

/-- `fetched` is the signature of the process, `written` the number of bytes that
`ert_writeFile` reports. -/
def createPidFile_ (aPid : Pid) (sun_path : List UInt8) (fetched : Fetched) (written : Nat) :
    PidFileWriting :=
  if 0 < aPid ∧ sun_path.head? = some 0 ∧ sun_path.getLast? = some 0 ∧
      sun_path.tail.head? ≠ some 0 then
    match fetched with
    | .signature mSignature =>
      let buf := formatPidFile aPid mSignature sun_path
      if pidFileSize + 1 ≤ buf.length then .failed []
      else if written ≠ buf.length then .failed (buf.take written)
      else .written buf
    | .absent | .failed => .failed []
  else .abort

/-- `readPidFile` with the `sun_path` that it stores. A signature of pid -1 stands
for a file that is malformed. -/
def readPidFileSignature (parser : PidParser) (content : List UInt8) (fetch : Pid → Fetched) :
    PidFileReading × Option (List UInt8) :=
  match readPidFile parser content with
  | .malformed => (.signature ⟨-1, []⟩, none)
  | .unaddressable => (.failed, none)
  | .process parsedPid pidSignature sun_path =>
    (matchPidFile parsedPid pidSignature (fetch parsedPid), some sun_path)

/-- An address in the abstract namespace, as a `struct sockaddr_un` holds it. -/
structure AbstractSunPath (sun_path : List UInt8) : Prop where
  length : sun_path.length = sunPathSize
  head : sun_path.head? = some 0
  last : sun_path.getLast? = some 0
  name : cstring sun_path.tail ≠ []
  newline : newline ∉ cstring sun_path.tail
  padding : ∀ b ∈ sun_path.tail.drop (cstring sun_path.tail).length, b = 0

namespace AbstractSunPath

variable {sun_path : List UInt8}

theorem tail_eq (h : AbstractSunPath sun_path) : sun_path.tail = cstring sun_path.tail ++
    List.replicate (sunPathSize - (cstring sun_path.tail).length - 1) 0 := by
  have hsplit : cstring sun_path.tail ++ sun_path.tail.drop (cstring sun_path.tail).length =
      sun_path.tail := List.prefix_iff_eq_append.mp (List.takeWhile_prefix _)
  have hpad := List.eq_replicate_of_mem h.padding
  have hlen : (sun_path.tail.drop (cstring sun_path.tail).length).length =
      sunPathSize - (cstring sun_path.tail).length - 1 := by
    have hl := h.length
    simp only [List.length_drop, List.length_tail]
    omega
  rw [hlen] at hpad
  rw [← hpad]
  exact hsplit.symm

theorem fits (h : AbstractSunPath sun_path) :
    (cstring sun_path.tail).length + 2 ≤ sunPathSize := by
  have hl := h.length
  have hle : (cstring sun_path.tail).length ≤ sun_path.tail.length :=
    (List.takeWhile_sublist _).length_le
  rw [List.length_tail, hl] at hle
  have hne : (cstring sun_path.tail).length ≠ sunPathSize - 1 := by
    intro he
    have htail : sun_path.tail = cstring sun_path.tail := by
      have heq := h.tail_eq
      rw [he] at heq
      simpa [sunPathSize] using heq
    have hlast : sun_path.tail.getLast? = some 0 := by
      have hnil : sun_path.tail ≠ [] := by
        rw [htail]
        exact h.name
      rw [← h.last]
      cases sun_path with
      | nil => exact absurd rfl hnil
      | cons b rest => exact (List.getLast?_cons_of_ne_nil hnil).symm
    rw [htail] at hlast
    exact nul_not_mem_cstring _ (List.mem_of_getLast? hlast)
  simp only [sunPathSize] at hle hne ⊢
  omega

def address (h : AbstractSunPath sun_path) : AbstractAddress where
  name := cstring sun_path.tail
  ne_nil := h.name
  nul_not_mem := nul_not_mem_cstring _
  newline_not_mem := h.newline
  fits := h.fits

/-- The reader puts together again what the address was. -/
theorem sunPath_name (h : AbstractSunPath sun_path) : sunPath (cstring sun_path.tail) = sun_path := by
  rw [sunPath, List.cons_append, ← h.tail_eq]
  have hhead := h.head
  cases sun_path with
  | nil => cases hhead
  | cons b rest =>
    obtain rfl := Option.some.inj hhead
    rfl

end AbstractSunPath

/-- A record written whole is read back as it was written: it names the process
that it was written for as long as that has the same signature, and no process
once it has gone or has another one. -/
theorem readPidFile_createPidFile (parser : PidParser) {aPid : Pid} {mSignature : CString}
    {sun_path content : List UInt8} {written : Nat} (hsignature : mSignature ≠ [])
    (hnewline : newline ∉ mSignature) (hnul : 0 ∉ mSignature) (haddr : AbstractSunPath sun_path)
    (hwrite : createPidFile_ aPid sun_path (.signature mSignature) written = .written content) :
    readPidFile parser content = .process aPid mSignature sun_path ∧
      (∀ fetch : Pid → Fetched, fetch aPid = .signature mSignature →
        readPidFileSignature parser content fetch =
          (.signature ⟨aPid, mSignature⟩, some sun_path)) ∧
      ∀ fetch : Pid → Fetched, fetch aPid ≠ .failed → fetch aPid ≠ .signature mSignature →
        readPidFileSignature parser content fetch = (.signature ⟨0, []⟩, some sun_path) := by
  unfold createPidFile_ at hwrite
  split_ifs at hwrite with hensure
  dsimp only at hwrite
  split_ifs at hwrite with hsize
  obtain rfl := PidFileWriting.written.inj hwrite
  let record : PidFileRecord :=
    ⟨aPid, mSignature, haddr.address, hensure.1, hsignature, hnul, hnewline⟩
  have htext : record.text = formatPidFile aPid mSignature sun_path := by
    rw [PidFileRecord.text]
    exact congrArg (formatPidFile aPid mSignature) haddr.sunPath_name
  have hread : readPidFile parser (formatPidFile aPid mSignature sun_path) =
      .process aPid mSignature sun_path := by
    have hle : (formatPidFile aPid mSignature sun_path).length ≤ pidFileSize := by omega
    have hscan := record.scanPidFile_text parser
    rw [readPidFile, if_pos hle, ← htext, hscan]
    exact congrArg (PidFileText.process aPid mSignature) haddr.sunPath_name
  have hne : aPid ≠ -1 := by
    rintro rfl
    exact absurd hensure.1 (by decide)
  refine ⟨hread, fun fetch hf => ?_, fun fetch hfailed hother => ?_⟩
  · have hsame := strcmp_eq_zero_iff.mpr (rfl : mSignature = mSignature)
    simp only [readPidFileSignature, hread, matchPidFile, hne, if_false, hf, hsame, if_true]
  · simp only [readPidFileSignature, hread, matchPidFile, hne, if_false]
    cases hf : fetch aPid with
    | failed => exact absurd hf hfailed
    | absent => rfl
    | signature other =>
      have hdiffers : strcmp mSignature other ≠ 0 := by
        intro he
        rw [strcmp_eq_zero_iff.mp he] at hother
        exact hother hf
      simp only [hdiffers, if_false]

theorem readPidFile_createPidFile_recycled :
    let sun_path : List UInt8 := 0 :: 120 :: List.replicate 106 0
    let content : List UInt8 := [55, 10, 10, 97, 10, 120, 10]
    readPidFile .unsigned content = .process 7 [97] sun_path ∧
      readPidFileSignature .unsigned content (fun _ => .signature [97]) =
        (.signature ⟨7, [97]⟩, some sun_path) ∧
      readPidFileSignature .unsigned content (fun _ => .signature [98]) =
        (.signature ⟨0, []⟩, some sun_path) := by
  have haddr : AbstractSunPath (0 :: 120 :: List.replicate 106 0) :=
    ⟨by decide, by decide, by decide, by decide, by decide, fun _ hb => List.eq_of_mem_replicate hb⟩
  have h := @readPidFile_createPidFile .unsigned 7 [97] _ [55, 10, 10, 97, 10, 120, 10] 7
    nofun (by decide) (by decide) haddr (by decide)
  exact ⟨h.1, h.2.1 _ rfl, h.2.2 _ nofun (by decide)⟩

end PidSentry
