import Mathlib.Data.List.DropRight
import Mathlib.Data.List.TakeWhile

/-! Words between separators, and the scanning from one word to the next. -/

namespace PidSentry

variable {α : Type*} (sep : α → Bool)

/-- What stands between separators and is not empty. -/
def words (s : List α) : List (List α) := (s.splitOnP sep).filter fun word => ! word.isEmpty

/-- From where a word goes on, or has just ended, to the beginning of the next. -/
def nextWord (s : List α) : Option (List α) :=
  let rest := s.dropWhile fun a => ! sep a
  if rest.isEmpty then none else some (rest.dropWhile sep)

def skipWords : Nat → List α → Option (List α)
  | 0, s => some s
  | n + 1, s => (nextWord sep s).bind (skipWords n)

/-- The words that come after the one that goes on here. -/
def laterWords (s : List α) : List (List α) := words sep (s.dropWhile fun a => ! sep a)

variable {sep}

theorem ne_nil_of_mem_words {s word : List α} (h : word ∈ words sep s) : word ≠ [] := by
  simpa [words] using (List.mem_filter.mp h).2

theorem mem_of_mem_words {s word : List α} (h : word ∈ words sep s) {a : α} (ha : a ∈ word) :
    a ∈ s := by
  have hpiece : ∀ piece ∈ s.splitOnP sep, a ∈ piece → a ∈ s := by
    clear h ha
    induction s with
    | nil => simp [List.splitOnP_nil]
    | cons b s ih =>
      obtain ⟨first, rest, hsplit⟩ := List.exists_cons_of_ne_nil (List.splitOnP_ne_nil sep s)
      rw [hsplit] at ih
      intro piece hmem hpiece
      rw [List.splitOnP_cons_eq_if_modifyHead, hsplit] at hmem
      split_ifs at hmem with hb
      · rcases List.mem_cons.mp hmem with rfl | hmem
        · cases hpiece
        · exact List.mem_cons_of_mem b (ih piece hmem hpiece)
      · rcases List.mem_cons.mp hmem with rfl | hmem
        · rcases List.mem_cons.mp hpiece with rfl | hfirst
          · exact List.mem_cons_self
          · exact List.mem_cons_of_mem b (ih first List.mem_cons_self hfirst)
        · exact List.mem_cons_of_mem b (ih piece (List.mem_cons_of_mem first hmem) hpiece)
  exact hpiece word (List.mem_filter.mp h).1 ha

theorem words_cons_of_sep {a : α} (ha : sep a = true) (s : List α) : words sep (a :: s) = words sep s := by
  simp [words, List.splitOnP_cons_eq_if_modifyHead, ha]

theorem words_dropWhile (s : List α) : words sep (s.dropWhile sep) = words sep s := by
  induction s with
  | nil => rfl
  | cons a s ih =>
    by_cases ha : sep a = true
    · rw [List.dropWhile_cons_of_pos ha, ih, words_cons_of_sep ha]
    · rw [List.dropWhile_cons_of_neg ha]

theorem words_append {word : List α} (hne : word ≠ []) (hword : ∀ a ∈ word, sep a = false)
    {rest : List α} (hrest : ∀ a ∈ rest.head?, sep a = true) :
    words sep (word ++ rest) = word :: words sep rest := by
  cases rest with
  | nil => simp [words, List.splitOnP_eq_singleton hword, List.splitOnP_nil, hne]
  | cons a rest =>
    have ha : sep a = true := hrest a rfl
    rw [words_cons_of_sep ha]
    simp [words, List.splitOnP_append_cons_of_forall_mem hword a ha, hne]

theorem eq_false_of_head?_dropWhile {p : α → Bool} {s : List α} {a : α}
    (h : a ∈ (s.dropWhile p).head?) : p a = false := by
  have hhead := List.head?_dropWhile_not p s
  rwa [Option.mem_def.mp h] at hhead

/-- Where a word begins, it comes first among the words. -/
theorem words_eq_cons {s : List α} (hne : s ≠ []) (hhead : ∀ a ∈ s.head?, sep a = false) :
    words sep s = (s.takeWhile fun a => ! sep a) :: laterWords sep s := by
  have hword : (s.takeWhile fun a => ! sep a) ≠ [] := by
    cases s with
    | nil => exact absurd rfl hne
    | cons a s =>
      have ha : sep a = false := hhead a rfl
      simp [ha]
  have hsplit : words sep ((s.takeWhile fun a => ! sep a) ++ s.dropWhile fun a => ! sep a) = _ :=
    words_append hword (fun a ha => by simpa using List.mem_takeWhile_imp ha)
      (fun a ha => by simpa using eq_false_of_head?_dropWhile ha)
  rwa [List.takeWhile_append_dropWhile] at hsplit

/-- Everything that the scanning to the next word can come to. -/
theorem nextWord_cases (sep : α → Bool) (s : List α) :
    (nextWord sep s = none ∧ laterWords sep s = [] ∧ s.getLast?.any sep = false) ∨
      (nextWord sep s = some [] ∧ laterWords sep s = [] ∧ s.getLast?.any sep = true) ∨
      ∃ rest, nextWord sep s = some rest ∧ rest ≠ [] ∧ rest.getLast? = s.getLast? ∧
        laterWords sep s = (rest.takeWhile fun a => ! sep a) :: laterWords sep rest := by
  have hwhole : (s.takeWhile fun a => ! sep a) ++ (s.dropWhile fun a => ! sep a) = s :=
    List.takeWhile_append_dropWhile
  cases hrest : s.dropWhile fun a => ! sep a with
  | nil =>
    refine .inl ⟨by simp [nextWord, hrest], by simp [laterWords, hrest, words, List.splitOnP_nil], ?_⟩
    cases hlast : s.getLast? with
    | none => rfl
    | some a =>
      have ha : a ∈ s := List.mem_of_getLast? hlast
      rw [hrest, List.append_nil] at hwhole
      rw [← hwhole] at ha
      simpa using List.mem_takeWhile_imp ha
  | cons a rest =>
    have hlast : s.getLast? = (a :: rest).getLast? := by
      rw [← hwhole, hrest, List.getLast?_append, List.getLast?_cons]
      rfl
    have hnext : nextWord sep s = some ((a :: rest).dropWhile sep) := by simp [nextWord, hrest]
    have hlater : laterWords sep s = words sep ((a :: rest).dropWhile sep) := by
      rw [laterWords, hrest, words_dropWhile]
    have hskip : ((a :: rest).takeWhile sep) ++ ((a :: rest).dropWhile sep) = a :: rest :=
      List.takeWhile_append_dropWhile
    by_cases hend : (a :: rest).dropWhile sep = []
    · rw [hend, List.append_nil] at hskip
      refine .inr (.inl ⟨by rw [hnext, hend], by rw [hlater, hend]; rfl, ?_⟩)
      rw [hlast, List.getLast?_eq_some_getLast (List.cons_ne_nil a rest), Option.any_some]
      have hmem : (a :: rest).getLast (List.cons_ne_nil a rest) ∈ (a :: rest).takeWhile sep := by
        rw [hskip]
        exact List.getLast_mem _
      exact List.mem_takeWhile_imp hmem
    · refine .inr (.inr ⟨_, hnext, hend, ?_, ?_⟩)
      · have happend : ((a :: rest).takeWhile sep ++ (a :: rest).dropWhile sep).getLast? = _ :=
          List.getLast?_append
        rw [hskip, List.getLast?_eq_some_getLast hend, Option.some_or] at happend
        rw [hlast, happend, List.getLast?_eq_some_getLast hend]
      · rw [hlater]
        exact words_eq_cons hend fun _ => eq_false_of_head?_dropWhile

/-- The scanning over `n + 1` words reaches the one that it is to end in, or the
end of the text where the separators after the last word but one are the last. -/
theorem skipWords_succ (sep : α → Bool) (n : Nat) (s : List α) :
    (skipWords sep (n + 1) s).map (fun rest => rest.takeWhile fun a => ! sep a) =
      match (laterWords sep s)[n]? with
      | some word => some word
      | none => if (laterWords sep s).length = n ∧ s.getLast?.any sep = true then some [] else none := by
  induction n generalizing s with
  | zero =>
    rcases nextWord_cases sep s with
      ⟨hnext, hlater, hlast⟩ | ⟨hnext, hlater, hlast⟩ | ⟨rest, hnext, -, -, hlater⟩
    · simp [skipWords, hnext, hlater, hlast]
    · simp [skipWords, hnext, hlater, hlast]
    · simp [skipWords, hnext, hlater]
  | succ n ih =>
    rcases nextWord_cases sep s with
      ⟨hnext, hlater, hlast⟩ | ⟨hnext, hlater, hlast⟩ | ⟨rest, hnext, -, hlast, hlater⟩
    · simp [skipWords, hnext, hlater]
    · have hnil := ih []
      simp [laterWords, words, List.splitOnP_nil] at hnil
      rw [skipWords, hnext, Option.bind_some, hlater]
      simp [hnil]
    · rw [skipWords, hnext, Option.bind_some, ih rest, hlater, hlast]
      simp

/-- Between separators, or between the ends of the text, with nothing but
separators after it. -/
def LastWord (sep : α → Bool) (s word : List α) : Prop :=
  ∃ pre post, s = pre ++ word ++ post ∧ word ≠ [] ∧ (∀ a ∈ word, sep a = false) ∧
    (∀ a ∈ pre.getLast?, sep a = true) ∧ ∀ a ∈ post, sep a = true

theorem words_append_sep (s : List α) {a : α} (ha : sep a = true) (t : List α) :
    words sep (s ++ a :: t) = words sep s ++ words sep t := by
  rw [words, List.splitOnP_append_cons s t ha, List.filter_append]
  rfl

theorem words_eq_nil_iff {s : List α} : words sep s = [] ↔ ∀ a ∈ s, sep a = true := by
  constructor
  · intro h
    by_contra hs
    have hne : s.dropWhile sep ≠ [] := by simpa [List.dropWhile_eq_nil_iff] using hs
    rw [← words_dropWhile, words_eq_cons hne fun _ => eq_false_of_head?_dropWhile] at h
    cases h
  · intro h
    rw [← words_dropWhile, List.dropWhile_eq_nil_iff.mpr h]
    rfl

theorem LastWord.getLast?_words {s word : List α} (h : LastWord sep s word) :
    (words sep s).getLast? = some word := by
  obtain ⟨pre, post, rfl, hne, hword, hpre, hpost⟩ := h
  have hlast : words sep (word ++ post) = [word] := by
    rw [words_append hne hword fun a ha => hpost a (List.mem_of_mem_head? ha),
      words_eq_nil_iff.mpr hpost]
  rcases List.eq_nil_or_concat pre with rfl | ⟨pre, a, rfl⟩
  · rw [List.nil_append, hlast]
    rfl
  · have ha : sep a = true := hpre a (by simp)
    rw [List.append_assoc, List.concat_append, words_append_sep pre ha, hlast]
    simp

theorem exists_lastWord {s : List α} (h : ∃ a ∈ s, sep a = false) : ∃ word, LastWord sep s word := by
  have hcore : s.rdropWhile sep ≠ [] := by simpa [List.rdropWhile_eq_nil_iff] using h
  have hsplit : (s.rdropWhile sep).rdropWhile (fun a => ! sep a) ++
      (s.rdropWhile sep).rtakeWhile (fun a => ! sep a) = s.rdropWhile sep :=
    List.rdropWhile_append_rtakeWhile
  refine ⟨(s.rdropWhile sep).rtakeWhile fun a => ! sep a,
    (s.rdropWhile sep).rdropWhile fun a => ! sep a, s.rtakeWhile sep, ?_, ?_, ?_, ?_, ?_⟩
  · rw [hsplit, List.rdropWhile_append_rtakeWhile]
  · intro hnil
    exact List.rdropWhile_last_not _ _ hcore (by simpa using List.rtakeWhile_eq_nil_iff.mp hnil hcore)
  · exact fun a ha => by simpa using List.mem_rtakeWhile_imp ha
  · intro a ha
    obtain ⟨hne, rfl⟩ := List.mem_getLast?_eq_getLast ha
    simpa using List.rdropWhile_last_not _ _ hne
  · exact fun a ha => List.mem_rtakeWhile_imp ha

theorem lastWord_iff {s word : List α} :
    LastWord sep s word ↔ (words sep s).getLast? = some word := by
  refine ⟨LastWord.getLast?_words, fun h => ?_⟩
  have hsome : ∃ a ∈ s, sep a = false := by
    by_contra hall
    have hnil : words sep s = [] := words_eq_nil_iff.mpr (by simpa using hall)
    rw [hnil] at h
    cases h
  obtain ⟨last, hlast⟩ := exists_lastWord hsome
  rwa [Option.some.inj (h.symm.trans hlast.getLast?_words)]

end PidSentry
