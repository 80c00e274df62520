import Mathlib.Data.Nat.Digits.Lemmas

/-! Bytes as C programs handle them: strings up to their terminator, fields
separated by a character, decimal numbers, and integers in memory order. -/

namespace PidSentry

/-- The bytes of a string, without the terminator. -/
abbrev CString := List UInt8

def strlen (buf : List UInt8) : Nat := (buf.takeWhile (· ≠ 0)).length

theorem strlen_terminated (s rest : List UInt8) : strlen (s ++ 0 :: rest) = s.length ↔ 0 ∉ s := by
  induction s with
  | nil => simp [strlen]
  | cons b s ih =>
    by_cases hb : b = 0
    · simp [strlen, hb]
    · have hh : strlen (b :: s ++ 0 :: rest) = strlen (s ++ 0 :: rest) + 1 := by
        simp [strlen, hb]
      simp only [hh, List.length_cons, Nat.add_right_cancel_iff, ih, List.mem_cons, not_or]
      exact ⟨fun h => ⟨fun e => hb e.symm, h⟩, fun h => h.2⟩

/-- The string that starts a buffer; without a terminator, all of it. -/
def cstring (buf : List UInt8) : CString := buf.takeWhile (· ≠ 0)

theorem cstring_cons {b : UInt8} (hb : b ≠ 0) (s : List UInt8) :
    cstring (b :: s) = b :: cstring s := by
  simp [cstring, hb]

theorem cstring_eq_self {s : List UInt8} (h : 0 ∉ s) : cstring s = s := by
  induction s with
  | nil => rfl
  | cons b s ih =>
    rw [cstring_cons (fun e => h (by simp [e])), ih fun hm => h (List.mem_cons_of_mem _ hm)]

theorem cstring_append_nul {s : List UInt8} (h : 0 ∉ s) (rest : List UInt8) :
    cstring (s ++ 0 :: rest) = s := by
  induction s with
  | nil => simp [cstring]
  | cons b s ih =>
    rw [List.cons_append, cstring_cons (fun e => h (by simp [e])),
      ih fun hm => h (List.mem_cons_of_mem _ hm)]

theorem nul_not_mem_cstring (buf : List UInt8) : 0 ∉ cstring buf := by
  induction buf with
  | nil => nofun
  | cons b buf ih =>
    by_cases hb : b = 0
    · simp [cstring, hb]
    · rw [cstring_cons hb, List.mem_cons, not_or]
      exact ⟨Ne.symm hb, ih⟩

def strcmp : CString → CString → Int
  | [], [] => 0
  | [], _ :: _ => -1
  | _ :: _, [] => 1
  | a :: s, b :: t => if a < b then -1 else if b < a then 1 else strcmp s t

theorem strcmp_eq_zero_iff {s t : CString} : strcmp s t = 0 ↔ s = t := by
  induction s generalizing t with
  | nil => cases t <;> simp [strcmp]
  | cons a s ih =>
    cases t with
    | nil => simp [strcmp]
    | cons b t =>
      by_cases hab : a < b
      · simp [strcmp, hab, UInt8.ne_of_lt hab]
      · by_cases hba : b < a
        · simp [strcmp, hab, hba, (UInt8.ne_of_lt hba).symm]
        · have he : a = b := UInt8.le_antisymm (UInt8.not_lt.mp hba) (UInt8.not_lt.mp hab)
          simp [strcmp, he, ih]

/-- `strchr` as a cut: what stands before the first `c` and what after it. -/
def cut (c : UInt8) : List UInt8 → Option (List UInt8 × List UInt8)
  | [] => none
  | b :: s => if b = c then some ([], s) else (cut c s).map fun p => (b :: p.1, p.2)

theorem cut_append {c : UInt8} {s : List UInt8} (h : c ∉ s) (rest : List UInt8) :
    cut c (s ++ c :: rest) = some (s, rest) := by
  induction s with
  | nil => simp [cut]
  | cons b s ih =>
    have hb : b ≠ c := fun e => h (by simp [e])
    simp [cut, hb, ih fun hm => h (List.mem_cons_of_mem _ hm)]

theorem cut_eq_some {c : UInt8} {s pre post : List UInt8} (h : cut c s = some (pre, post)) :
    s = pre ++ c :: post ∧ c ∉ pre := by
  induction s generalizing pre with
  | nil => simp [cut] at h
  | cons b s ih =>
    by_cases hb : b = c
    · simp only [cut, hb, if_true, Option.some.injEq, Prod.mk.injEq] at h
      obtain ⟨rfl, rfl⟩ := h
      simp [hb]
    · cases he : cut c s with
      | none => simp [cut, hb, he] at h
      | some p =>
        simp only [cut, hb, if_false, he, Option.map_some, Option.some.injEq, Prod.mk.injEq] at h
        obtain ⟨rfl, rfl⟩ := h
        obtain ⟨hs, hn⟩ := ih he
        exact ⟨by simp [← hs], by simp [hn, Ne.symm hb]⟩

/-- `%d` of a number that is not negative. -/
def decimal (n : Nat) : CString :=
  if n = 0 then [48] else (Nat.digits 10 n).reverse.map fun d => UInt8.ofNat (48 + d)

theorem decimal_ne_nil (n : Nat) : decimal n ≠ [] := by
  unfold decimal
  split
  · simp
  · simpa [Nat.digits_eq_nil_iff_eq_zero] using ‹¬ n = 0›

theorem decimal_mem_bounds {n : Nat} {b : UInt8} (h : b ∈ decimal n) :
    48 ≤ b.toNat ∧ b.toNat < 58 := by
  unfold decimal at h
  split at h
  · simp only [List.mem_singleton] at h
    subst h
    decide
  · simp only [List.map_reverse, List.mem_reverse, List.mem_map] at h
    obtain ⟨d, hd, rfl⟩ := h
    have hlt : d < 10 := Nat.digits_lt_base (by omega) hd
    rw [UInt8.toNat_ofNat_of_lt' (by simp only [UInt8.size]; omega)]
    omega

theorem decimal_not_mem {n : Nat} {c : UInt8} (h : c.toNat < 48) : c ∉ decimal n :=
  fun hc => by have := (decimal_mem_bounds hc).1; omega

def decimalValue (s : CString) : Nat := Nat.ofDigits 10 (s.map fun b => b.toNat - 48).reverse

theorem decimalValue_decimal (n : Nat) : decimalValue (decimal n) = n := by
  unfold decimalValue decimal
  split
  · simp [*]
  · have hdigit : ∀ d ∈ Nat.digits 10 n,
        ((fun b : UInt8 => b.toNat - 48) ∘ fun d => UInt8.ofNat (48 + d)) d = id d := by
      intro d hd
      have hlt : d < 10 := Nat.digits_lt_base (by omega) hd
      rw [Function.comp_apply, UInt8.toNat_ofNat_of_lt' (by simp only [UInt8.size]; omega), id]
      omega
    rw [List.map_reverse, List.map_reverse, List.reverse_reverse, List.map_map,
      List.map_congr_left hdigit, List.map_id, Nat.ofDigits_digits]

/-- The bytes of an unsigned integer of the given width in memory. -/
def toBytes : Nat → Nat → List UInt8
  | 0, _ => []
  | width + 1, n => UInt8.ofNat n :: toBytes width (n / 256)

def ofBytes (bytes : List UInt8) : Nat := Nat.ofDigits 256 (bytes.map UInt8.toNat)

@[simp] theorem length_toBytes (width n : Nat) : (toBytes width n).length = width := by
  induction width generalizing n with
  | zero => rfl
  | succ width ih => simp [toBytes, ih]

theorem ofBytes_toBytes {width n : Nat} (h : n < 256 ^ width) :
    ofBytes (toBytes width n) = n := by
  induction width generalizing n with
  | zero => simp only [pow_zero, Nat.lt_one_iff] at h; simp [h, toBytes, ofBytes]
  | succ width ih =>
    have hlt : n / 256 < 256 ^ width := by
      rw [Nat.div_lt_iff_lt_mul (by omega)]
      simpa [pow_succ] using h
    have hi := ih hlt
    simp only [ofBytes] at hi
    simp only [toBytes, ofBytes, List.map_cons, Nat.ofDigits_cons, hi, UInt8.toNat_ofNat']
    omega

theorem toBytes_ofBytes (bytes : List UInt8) : toBytes bytes.length (ofBytes bytes) = bytes := by
  induction bytes with
  | nil => rfl
  | cons b bytes ih =>
    have hb : b.toNat < 256 := b.toNat_lt
    have he : ofBytes (b :: bytes) = b.toNat + 256 * ofBytes bytes := by
      simp [ofBytes, Nat.ofDigits_cons]
    have hd : (b.toNat + 256 * ofBytes bytes) / 256 = ofBytes bytes := by omega
    simp only [List.length_cons, toBytes, he, hd, ih, List.cons.injEq, and_true]
    apply UInt8.toNat_inj.mp
    rw [UInt8.toNat_ofNat']
    omega

theorem ofBytes_lt (bytes : List UInt8) : ofBytes bytes < 256 ^ bytes.length := by
  have h := Nat.ofDigits_lt_base_pow_length (b := 256) (l := bytes.map UInt8.toNat) (by omega)
    (fun d hd => by
      obtain ⟨b, _, rfl⟩ := List.mem_map.mp hd
      exact b.toNat_lt)
  simpa [ofBytes] using h

def readExact (n : Nat) (stream : List UInt8) : Option (List UInt8 × List UInt8) :=
  if n ≤ stream.length then some (stream.take n, stream.drop n) else none

theorem readExact_append {n : Nat} {s : List UInt8} (h : s.length = n) (rest : List UInt8) :
    readExact n (s ++ rest) = some (s, rest) := by
  subst h
  simp [readExact]

theorem readExact_eq_some {n : Nat} {stream s rest : List UInt8}
    (h : readExact n stream = some (s, rest)) : stream = s ++ rest ∧ s.length = n := by
  unfold readExact at h
  split at h
  · simp only [Option.some.injEq, Prod.mk.injEq] at h
    obtain ⟨rfl, rfl⟩ := h
    exact ⟨(List.take_append_drop n stream).symm, by simpa using ‹n ≤ stream.length›⟩
  · simp at h

end PidSentry
