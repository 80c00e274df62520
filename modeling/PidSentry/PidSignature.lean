import PidSentry.ByteString
import PidSentry.PollLoop

/-! Process signatures and the messages that carry them (pidsignature_.c). -/

namespace PidSentry

/-- `mSignature` is empty where the source leaves it null. -/
structure PidSignature where
  mPid : Pid
  mSignature : CString
  deriving DecidableEq, Repr

/-- `sizeof(mSignature)` in `struct MarshalledPidSignature` -/
def marshalledSignatureSize : Nat := 1024 + 1

def sizeofPid : Nat := 4
def sizeofSize : Nat := 8

def rankPidSignature (self other : PidSignature) : Int :=
  if self.mPid < other.mPid then -1
  else if other.mPid < self.mPid then 1
  else strcmp self.mSignature other.mSignature

theorem rankPidSignature_eq_zero_iff {self other : PidSignature} :
    rankPidSignature self other = 0 ↔ self = other := by
  obtain ⟨p, s⟩ := self
  obtain ⟨q, t⟩ := other
  simp only [rankPidSignature, PidSignature.mk.injEq]
  by_cases hpq : p < q
  · simp [hpq, Int32.ne_of_lt hpq]
  · by_cases hqp : q < p
    · simp [hpq, hqp, (Int32.ne_of_lt hqp).symm]
    · have he : p = q := Int32.le_antisymm (Int32.not_lt.mp hqp) (Int32.not_lt.mp hpq)
      simp [he, strcmp_eq_zero_iff]

/-- The bytes that `sendPidSignature` writes, or its refusal of a signature
that does not fit the receiver's buffer. -/
def sendPidSignature (signature : PidSignature) : Option (List UInt8) :=
  if marshalledSignatureSize ≤ signature.mSignature.length then none
  else some (toBytes sizeofPid signature.mPid.toUInt32.toNat ++
    toBytes sizeofSize signature.mSignature.length ++ signature.mSignature)

/-- Decodes a stream that ends where the peer hangs up or the deadline passes,
and returns what is left unread. -/
def recvPidSignature (stream : List UInt8) : Option (PidSignature × List UInt8) := do
  let (pid, stream) ← readExact sizeofPid stream
  let (length, stream) ← readExact sizeofSize stream
  let mSignatureLen := ofBytes length
  if marshalledSignatureSize ≤ mSignatureLen then none
  else
    let (signature, stream) ← readExact mSignatureLen stream
    if strlen (signature ++ [0]) ≠ mSignatureLen then none
    else some (⟨(UInt32.ofNat (ofBytes pid)).toInt32, signature⟩, stream)

theorem recvPidSignature_send {signature : PidSignature} {bytes : List UInt8}
    (hs : sendPidSignature signature = some bytes) (hnul : 0 ∉ signature.mSignature)
    (rest : List UInt8) : recvPidSignature (bytes ++ rest) = some (signature, rest) := by
  unfold sendPidSignature at hs
  split at hs
  · simp at hs
  · have hlen : ¬ marshalledSignatureSize ≤ signature.mSignature.length := ‹_›
    have hlt : signature.mSignature.length < 256 ^ sizeofSize := by
      simp only [marshalledSignatureSize, sizeofSize] at hlen ⊢
      omega
    have hpid : signature.mPid.toUInt32.toNat < 256 ^ sizeofPid :=
      signature.mPid.toUInt32.toNat_lt
    obtain rfl := Option.some.inj hs
    simp only [recvPidSignature, List.append_assoc,
      readExact_append (length_toBytes sizeofPid _), readExact_append (length_toBytes sizeofSize _),
      Option.bind_eq_bind, Option.bind_some, ofBytes_toBytes hlt, hlen, if_false,
      readExact_append rfl, (strlen_terminated signature.mSignature []).mpr hnul, ne_eq,
      not_true_eq_false, ofBytes_toBytes hpid, UInt32.ofNat_toNat,
      Int32.toInt32_toUInt32]

theorem recvPidSignature_eq_some {stream rest : List UInt8} {signature : PidSignature}
    (h : recvPidSignature stream = some (signature, rest)) :
    ∃ bytes, sendPidSignature signature = some bytes ∧ stream = bytes ++ rest ∧
      0 ∉ signature.mSignature := by
  simp only [recvPidSignature, Option.bind_eq_bind, Option.bind_eq_some_iff] at h
  obtain ⟨⟨pid, s₁⟩, h₁, ⟨length, s₂⟩, h₂, h⟩ := h
  simp only at h h₂
  split at h
  · simp at h
  · have hlen : ¬ marshalledSignatureSize ≤ ofBytes length := ‹_›
    rw [Option.bind_eq_some_iff] at h
    obtain ⟨⟨text, s₃⟩, h₃, h⟩ := h
    simp only at h
    split at h
    · simp at h
    · have hstr : strlen (text ++ [0]) = ofBytes length := not_not.mp ‹_›
      obtain ⟨rfl, hp⟩ := readExact_eq_some h₁
      obtain ⟨rfl, hl⟩ := readExact_eq_some h₂
      obtain ⟨rfl, ht⟩ := readExact_eq_some h₃
      simp only [Option.some.injEq, Prod.mk.injEq] at h
      obtain ⟨rfl, rfl⟩ := h
      have hnul : 0 ∉ text := (strlen_terminated text []).mp (by rw [hstr, ht])
      refine ⟨pid ++ length ++ text, ?_, by simp, hnul⟩
      have hpb := toBytes_ofBytes pid
      have hlb := toBytes_ofBytes length
      have hlt : ofBytes pid < 2 ^ 32 := by
        have := ofBytes_lt pid
        rw [hp] at this
        simpa [sizeofPid] using this
      rw [hp] at hpb
      rw [hl] at hlb
      simp only [sendPidSignature, ht, hlen, if_false, UInt32.toUInt32_toInt32,
        UInt32.toNat_ofNat_of_lt' hlt, hpb, hlb]

/-- The members of `struct MarshalledPidSignature`, each of which has a read of its own. -/
inductive MarshalledMember
  | mPid
  | mSignatureLen
  | mSignature
  deriving DecidableEq, Repr

def MarshalledMember.size : MarshalledMember → Nat
  | mPid => sizeofPid
  | mSignatureLen => sizeofSize
  | mSignature => marshalledSignatureSize

/-- What `recvPidSignature` does on its way: the bytes that it asks for, where it
puts the terminator, and what it leaves unread, also when it fails. -/
structure PidSignatureReceipt where
  reads : List (MarshalledMember × Nat)
  terminator : Option Nat
  unread : List UInt8
  pidSignature : Option PidSignature
  deriving DecidableEq, Repr

/-- A read that comes short has used up the stream. -/
def receivePidSignature (stream : List UInt8) : PidSignatureReceipt :=
  match readExact sizeofPid stream with
  | none => ⟨[(.mPid, sizeofPid)], none, [], none⟩
  | some (pid, stream) =>
    match readExact sizeofSize stream with
    | none => ⟨[(.mPid, sizeofPid), (.mSignatureLen, sizeofSize)], none, [], none⟩
    | some (length, stream) =>
      let mSignatureLen := ofBytes length
      if marshalledSignatureSize ≤ mSignatureLen then
        ⟨[(.mPid, sizeofPid), (.mSignatureLen, sizeofSize)], none, stream, none⟩
      else
        let reads := [(.mPid, sizeofPid), (.mSignatureLen, sizeofSize), (.mSignature, mSignatureLen)]
        match readExact mSignatureLen stream with
        | none => ⟨reads, none, [], none⟩
        | some (signature, stream) =>
          if strlen (signature ++ [0]) ≠ mSignatureLen then
            ⟨reads, some mSignatureLen, stream, none⟩
          else
            ⟨reads, some mSignatureLen, stream,
              some ⟨(UInt32.ofNat (ofBytes pid)).toInt32, signature⟩⟩

namespace PidSignatureReceipt

theorem recvPidSignature_eq (stream : List UInt8) : recvPidSignature stream =
    (receivePidSignature stream).pidSignature.map (·, (receivePidSignature stream).unread) := by
  unfold recvPidSignature receivePidSignature
  cases readExact sizeofPid stream with
  | none => rfl
  | some pid =>
    simp only [Option.bind_eq_bind, Option.bind_some]
    cases readExact sizeofSize pid.2 with
    | none => rfl
    | some length =>
      simp only [Option.bind_some]
      split_ifs
      · rfl
      · cases readExact (ofBytes length.1) length.2 with
        | none => rfl
        | some signature =>
          simp only [Option.bind_some]
          split_ifs <;> rfl

/-- Every read, and the terminator, is within the member that it goes to. -/
structure Bounded (receipt : PidSignatureReceipt) : Prop where
  reads : ∀ read ∈ receipt.reads, read.2 ≤ read.1.size
  terminator : ∀ index ∈ receipt.terminator, index < MarshalledMember.mSignature.size

theorem bounded (stream : List UInt8) : (receivePidSignature stream).Bounded := by
  have hheader : ∀ read ∈ [(MarshalledMember.mPid, sizeofPid), (.mSignatureLen, sizeofSize)],
      read.2 ≤ read.1.size := by decide
  have hreads : ∀ mSignatureLen, ¬ marshalledSignatureSize ≤ mSignatureLen →
      ∀ read ∈ [(MarshalledMember.mPid, sizeofPid), (.mSignatureLen, sizeofSize),
        (.mSignature, mSignatureLen)], read.2 ≤ read.1.size := by
    intro mSignatureLen hlength read hread
    rcases List.mem_append.mp (show read ∈ [_, _] ++ [_] from hread) with hread | hread
    · exact hheader read hread
    · obtain rfl := List.mem_singleton.mp hread
      exact (Nat.not_le.mp hlength).le
  unfold receivePidSignature
  split
  · exact ⟨by decide, by simp⟩
  · split
    · exact ⟨hheader, by simp⟩
    · dsimp only
      split_ifs with hlength
      · exact ⟨hheader, by simp⟩
      · have hterminator : ∀ index ∈ some (ofBytes _), index < MarshalledMember.mSignature.size :=
          fun index hindex => Option.some.inj hindex ▸ Nat.not_le.mp hlength
        split
        · exact ⟨hreads _ hlength, by simp⟩
        · split_ifs
          · exact ⟨hreads _ hlength, hterminator⟩
          · exact ⟨hreads _ hlength, hterminator⟩

end PidSignatureReceipt

/-- The receiver turns a signature away by its length, and has read nothing of it. -/
theorem receivePidSignature_oversized {pid length : List UInt8} (hpid : pid.length = sizeofPid)
    (hlength : length.length = sizeofSize) (hsize : marshalledSignatureSize ≤ ofBytes length)
    (rest : List UInt8) : receivePidSignature (pid ++ length ++ rest) =
      ⟨[(.mPid, sizeofPid), (.mSignatureLen, sizeofSize)], none, rest, none⟩ := by
  unfold receivePidSignature
  rw [List.append_assoc, readExact_append hpid]
  dsimp only
  rw [readExact_append hlength]
  dsimp only
  rw [if_pos hsize]

theorem sendPidSignature_eq_none_iff {signature : PidSignature} :
    sendPidSignature signature = none ↔ 1024 < signature.mSignature.length := by
  unfold sendPidSignature
  split_ifs with hlength
  · exact iff_of_true rfl hlength
  · exact iff_of_false (by simp) hlength

/-- What one side sends is what the other one gets, and nothing else; a signature
that is too long for its buffer neither side lets pass. -/
theorem pidSignature_wire :
    (∀ (mPid : Pid) (mSignature : CString), 0 ∉ mSignature → mSignature.length ≤ 1024 →
      ∃ bytes, sendPidSignature ⟨mPid, mSignature⟩ = some bytes ∧
        ∀ rest, recvPidSignature (bytes ++ rest) = some (⟨mPid, mSignature⟩, rest)) ∧
    (∀ stream signature rest, recvPidSignature stream = some (signature, rest) →
      ∃ bytes, sendPidSignature signature = some bytes ∧ stream = bytes ++ rest) ∧
    (∀ signature : PidSignature, 1024 < signature.mSignature.length →
      sendPidSignature signature = none) ∧
    (∀ pid length rest, pid.length = sizeofPid → length.length = sizeofSize →
      1024 < ofBytes length → receivePidSignature (pid ++ length ++ rest) =
        ⟨[(.mPid, sizeofPid), (.mSignatureLen, sizeofSize)], none, rest, none⟩) ∧
    ∀ stream, (receivePidSignature stream).Bounded ∧ recvPidSignature stream =
      (receivePidSignature stream).pidSignature.map (·, (receivePidSignature stream).unread) := by
  refine ⟨fun mPid mSignature hnul hlength => ?_, fun stream signature rest hrecv => ?_,
    fun signature => sendPidSignature_eq_none_iff.mpr, fun pid length rest hpid hlength hsize => ?_,
    fun stream => ?_⟩
  · cases hsend : sendPidSignature ⟨mPid, mSignature⟩ with
    | none => exact absurd (sendPidSignature_eq_none_iff.mp hsend) (Nat.not_lt.mpr hlength)
    | some bytes => exact ⟨bytes, rfl, recvPidSignature_send hsend hnul⟩
  · obtain ⟨bytes, hsend, hstream, -⟩ := recvPidSignature_eq_some hrecv
    exact ⟨bytes, hsend, hstream⟩
  · exact receivePidSignature_oversized hpid hlength hsize rest
  · exact ⟨PidSignatureReceipt.bounded stream, PidSignatureReceipt.recvPidSignature_eq stream⟩

theorem pidSignature_wire_short (rest : List UInt8) :
    recvPidSignature ([7, 0, 0, 0, 1, 0, 0, 0, 0, 0, 0, 0, 97] ++ rest) = some (⟨7, [97]⟩, rest) := by
  obtain ⟨bytes, hsend, hrecv⟩ := pidSignature_wire.1 7 [97] (by decide) (by decide)
  have hbytes : bytes = [7, 0, 0, 0, 1, 0, 0, 0, 0, 0, 0, 0, 97] := by
    have hcomputed : sendPidSignature ⟨7, [97]⟩ =
        some [7, 0, 0, 0, 1, 0, 0, 0, 0, 0, 0, 0, 97] := by decide
    exact Option.some.inj (hsend.symm.trans hcomputed)
  rw [← hbytes]
  exact hrecv rest

end PidSentry
