import PidSentry.PidSignature

/-! The pid file as bytes (pidfile_.c): the record that a sentry writes, and
what a reader makes of any content. -/

namespace PidSentry

/-- `PIDFILE_SIZE_` -/
def pidFileSize : Nat := 1024

/-- `sizeof(sun_path)` -/
def sunPathSize : Nat := 108

def newline : UInt8 := 10

/-- `ert_parsePid` of libert, which is relied on to read back a formatted pid. -/
structure PidParser where
  parsePid : CString → Option Pid
  parsePid_decimal : ∀ pid : Pid, 0 < pid → parsePid (decimal pid.toNatClampNeg) = some pid

def PidParser.unsigned : PidParser where
  parsePid text :=
    if text ≠ [] ∧ text.all (fun b => 48 ≤ b.toNat ∧ b.toNat < 58) ∧ decimalValue text < 2 ^ 31 then
      some (Int32.ofNat (decimalValue text))
    else none
  parsePid_decimal pid hpid := by
    have hpos : 0 < pid.toInt := by simpa using Int32.lt_iff_toInt_lt.mp hpid
    have hclamp : pid.toNatClampNeg = pid.toInt.toNat := rfl
    have hlt : pid.toNatClampNeg < 2 ^ 31 := by have := pid.toInt_lt; omega
    have hdigits : (decimal pid.toNatClampNeg).all fun b => 48 ≤ b.toNat ∧ b.toNat < 58 :=
      List.all_eq_true.mpr fun b hb => decide_eq_true (decimal_mem_bounds hb)
    rw [decimalValue_decimal, if_pos ⟨decimal_ne_nil _, hdigits, hlt⟩]
    congr 1
    apply Int32.toInt_inj.mp
    rw [Int32.toInt_ofNat_of_lt hlt]
    omega

/-- The bytes of `sun_path` for a name in the abstract namespace. -/
def sunPath (name : CString) : List UInt8 :=
  0 :: name ++ List.replicate (sunPathSize - name.length - 1) 0

/-- The text that `createPidFile_` puts in its buffer. -/
def formatPidFile (pid : Pid) (signature : CString) (sun_path : List UInt8) : List UInt8 :=
  decimal pid.toNatClampNeg ++ newline :: newline ::
    (signature ++ newline :: (cstring sun_path.tail ++ [newline]))

/-- What a pid file says before any process is looked up. -/
inductive PidFileText
  | malformed
  /-- The address does not fit (`EADDRNOTAVAIL`). -/
  | unaddressable
  | process (pid : Pid) (signature : CString) (sun_path : List UInt8)
  deriving DecidableEq, Repr

/-- `readPidFile_` up to `createPidSignature`. -/
def scanPidFile (parser : PidParser) (buf : List UInt8) : PidFileText :=
  let aBuf := cstring buf
  match cut newline aBuf with
  | none => .malformed
  | some (pid, rest) =>
    if rest = [] then .malformed
    else
      match cut newline rest with
      | none => .malformed
      | some (_, rest) =>
        if rest = [] then .malformed
        else
          match cut newline rest with
          | none => .malformed
          | some (pidSignature, rest) =>
            if rest = [] then .malformed
            else if aBuf.getLast? ≠ some newline then .malformed
            else
              let pidKeeperAddr := rest.dropLast
              match parser.parsePid pid with
              | none => .malformed
              | some parsedPid =>
                if parsedPid = 0 then .malformed
                else if sunPathSize < pidKeeperAddr.length + 2 then .unaddressable
                else .process parsedPid pidSignature (sunPath pidKeeperAddr)

/-- `readPidFile` on a file with this content: a file that is too large is taken
as empty. -/
def readPidFile (parser : PidParser) (content : List UInt8) : PidFileText :=
  scanPidFile parser (if content.length ≤ pidFileSize then content else [])

theorem scanPidFile_nul {parser : PidParser} {buf : List UInt8} {pid : Pid} {signature : CString}
    {sun_path : List UInt8} (h : scanPidFile parser buf = .process pid signature sun_path) :
    0 ∉ signature := by
  have hmem : ∀ b ∈ signature, b ∈ cstring buf := by
    unfold scanPidFile at h
    cases hcut₁ : cut newline (cstring buf) with
    | none => simp [hcut₁] at h
    | some line₁ =>
      cases hcut₂ : cut newline line₁.2 with
      | none => simp [hcut₁, hcut₂] at h
      | some line₂ =>
        cases hcut₃ : cut newline line₂.2 with
        | none => simp [hcut₁, hcut₂, hcut₃] at h
        | some line₃ =>
          simp only [hcut₁, hcut₂, hcut₃] at h
          repeat' split at h
          all_goals cases h
          intro b hb
          rw [(cut_eq_some hcut₁).1, (cut_eq_some hcut₂).1, (cut_eq_some hcut₃).1]
          simp [hb]
  exact fun hnul => nul_not_mem_cstring buf (hmem 0 hnul)

/-- What `createPidSignature` finds of a process. -/
inductive Fetched
  | signature (signature : CString)
  | absent
  | failed
  deriving DecidableEq, Repr

inductive PidFileReading
  | signature (pidSignature : PidSignature)
  | failed
  /-- A null signature is compared. -/
  | fault
  deriving DecidableEq, Repr

/-- `readPidFile_` from `createPidSignature` on. Pid -1 is given no signature. -/
def matchPidFile (parsedPid : Pid) (pidSignature : CString) (fetched : Fetched) :
    PidFileReading :=
  if parsedPid = -1 then .fault
  else
    match fetched with
    | .failed => .failed
    | .absent => .signature ⟨0, []⟩
    | .signature mSignature =>
      if strcmp pidSignature mSignature = 0 then .signature ⟨parsedPid, mSignature⟩
      else .signature ⟨0, []⟩

/-- A name that a pid server can be bound to. -/
structure AbstractAddress where
  name : CString
  ne_nil : name ≠ []
  nul_not_mem : 0 ∉ name
  newline_not_mem : newline ∉ name
  fits : name.length + 2 ≤ sunPathSize

/-- A child and its pid server, as a pid file records them. -/
structure PidFileRecord where
  pid : Pid
  signature : CString
  address : AbstractAddress
  pid_pos : 0 < pid
  ne_nil : signature ≠ []
  nul_not_mem : 0 ∉ signature
  newline_not_mem : newline ∉ signature

namespace PidFileRecord

variable (record : PidFileRecord)

def text : List UInt8 := formatPidFile record.pid record.signature (sunPath record.address.name)

theorem cstring_sunPath : cstring (sunPath record.address.name).tail = record.address.name := by
  have hfits := record.address.fits
  have hpad : 0 < sunPathSize - record.address.name.length - 1 := by omega
  obtain ⟨n, hn⟩ := Nat.exists_eq_succ_of_ne_zero hpad.ne'
  rw [sunPath, hn, List.replicate_succ, List.cons_append, List.tail_cons]
  exact cstring_append_nul record.address.nul_not_mem _

theorem text_eq : record.text = decimal record.pid.toNatClampNeg ++ newline :: newline ::
    (record.signature ++ newline :: (record.address.name ++ [newline])) := by
  rw [text, formatPidFile, cstring_sunPath]

theorem nul_not_mem_text : 0 ∉ record.text := by
  have hpid : (0 : UInt8) ∉ decimal record.pid.toNatClampNeg := decimal_not_mem (by decide)
  have hnl : (0 : UInt8) ≠ newline := by decide
  simp [text_eq, hpid, hnl, record.nul_not_mem, record.address.nul_not_mem]

/-- A reader of the whole record gets back what it was made from. -/
theorem scanPidFile_text (parser : PidParser) :
    scanPidFile parser record.text =
      .process record.pid record.signature (sunPath record.address.name) := by
  have hpid : newline ∉ decimal record.pid.toNatClampNeg := decimal_not_mem (by decide)
  have hlast : record.text.getLast? = some newline := by
    rw [text_eq]
    simp [List.getLast?_cons]
  have hne : record.pid ≠ 0 := (Int32.ne_of_lt record.pid_pos).symm
  have hfits : ¬ sunPathSize < record.address.name.length + 2 := Nat.not_lt.mpr record.address.fits
  unfold scanPidFile
  dsimp only
  rw [cstring_eq_self record.nul_not_mem_text, hlast, text_eq, cut_append hpid]
  have hblank (rest : List UInt8) : cut newline (newline :: rest) = some ([], rest) := rfl
  simp [hblank, cut_append record.newline_not_mem, parser.parsePid_decimal _ record.pid_pos, hne, hfits]

end PidFileRecord

end PidSentry
