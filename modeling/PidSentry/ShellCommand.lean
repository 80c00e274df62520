import PidSentry.ProcessSignature

/-! The command that a process is to run (shellcommand.c), with its name. -/

namespace PidSentry

/-- A pointer into a string, as what it points at up to the end of the array. -/
abbrev Pointer := List UInt8

def slash : UInt8 := 47

def isSlash (b : UInt8) : Bool := b = slash

/-- `while (*ptr && holds(*ptr)) ++ptr`; nothing if `ptr` leaves the array. -/
def skipWhile (holds : UInt8 → Bool) : Pointer → Option Pointer
  | [] => none
  | b :: ptr => if b ≠ 0 ∧ holds b = true then skipWhile holds ptr else some (b :: ptr)

/-- `end - begin`, which is not to be negative. -/
def Pointer.diff (last first : Pointer) : Option Nat :=
  if last.length ≤ first.length then some (first.length - last.length) else none

/-- The outer loop of the scan, with the number of iterations that it may take;
nothing if it takes more, or leaves the array. -/
def scanCommand : Nat → Pointer → Pointer → Pointer → Option (Pointer × Pointer)
  | 0, _, _, _ => none
  | fuel + 1, lastWord, lastSlash, nextWord => do
    if (← nextWord.head?) = 0 then return (lastWord, lastSlash)
    let nextWord ← skipWhile isSlash nextWord
    if (← nextWord.head?) = 0 then return (lastWord, lastSlash)
    let nextSlash ← skipWhile (! isSlash ·) nextWord
    scanCommand fuel nextWord nextSlash nextSlash

/-- `mCmd` of a command that is not run through the shell. -/
def commandName (argv0 : Pointer) : Option CString := do
  let lastSlash ← skipWhile (fun _ => true) argv0
  let (lastWord, lastSlash) ← scanCommand argv0.length argv0 lastSlash argv0
  let cmdLen ← lastSlash.diff lastWord
  return lastWord.take cmdLen

structure ShellCommand where
  mArgList : List CString
  mShell : Bool
  mCmd : CString
  deriving DecidableEq, Repr

inductive ShellCommandError
  | EINVAL
  /-- The scan goes on for ever, or outside of the word. -/
  | overrun
  deriving DecidableEq, Repr

def createShellCommand (aCmd : List CString) : Except ShellCommandError ShellCommand :=
  match aCmd with
  | [] => .error .EINVAL
  | word :: later =>
    if word = [] then .error .EINVAL
    else if later = [] ∧ word.any isspace then .ok ⟨aCmd, true, word⟩
    else
      match commandName (word ++ [0]) with
      | some mCmd => .ok ⟨aCmd, false, mCmd⟩
      | none => .error .overrun

/-- The last maximal run of characters other than slashes; of slashes alone, all. -/
def LastComponent (word name : CString) : Prop :=
  LastWord isSlash word name ∨ (∀ b ∈ word, b = slash) ∧ name = word

theorem skipWhile_terminated (holds : UInt8 → Bool) {s : CString} (hnul : 0 ∉ s) :
    skipWhile holds (s ++ [0]) = some (s.dropWhile holds ++ [0]) := by
  induction s with
  | nil => simp [skipWhile]
  | cons b s ih =>
    have hb : b ≠ 0 := fun he => hnul (by simp [he])
    by_cases hh : holds b = true
    · simp [skipWhile, hb, hh, ih fun hm => hnul (List.mem_cons_of_mem b hm)]
    · simp [skipWhile, hh]

theorem diff_append (name rest : Pointer) : rest.diff (name ++ rest) = some name.length := by
  simp [Pointer.diff]

theorem head?_terminated_eq_zero {s : CString} (hnul : 0 ∉ s) :
    ∃ b, (s ++ [0]).head? = some b ∧ (b = 0 ↔ s = []) := by
  cases s with
  | nil => exact ⟨0, rfl, by simp⟩
  | cons b s => exact ⟨b, rfl, by simpa using fun he : b = 0 => hnul (by simp [he])⟩

theorem scanCommand_succ (fuel : Nat) {s word : CString} (hnul : 0 ∉ s) (lastWord lastSlash : Pointer)
    (hword : s.dropWhile isSlash = word) :
    scanCommand (fuel + 1) lastWord lastSlash (s ++ [0]) =
      if word = [] then some (lastWord, lastSlash)
      else scanCommand fuel (word ++ [0]) (word.dropWhile (! isSlash ·) ++ [0])
        (word.dropWhile (! isSlash ·) ++ [0]) := by
  have hnul' : 0 ∉ word := fun hm => hnul ((List.dropWhile_sublist _).subset (hword ▸ hm))
  obtain ⟨b, hb, hstart⟩ := head?_terminated_eq_zero hnul
  obtain ⟨c, hc, hend⟩ := head?_terminated_eq_zero hnul'
  rw [scanCommand, hb, skipWhile_terminated _ hnul, hword]
  by_cases hs : b = 0
  · have hnil : word = [] := by rw [← hword, hstart.mp hs]; rfl
    simp [hs, hnil]
  · by_cases hw : c = 0
    · simp [hend.mp hw]
    · have hne : word ≠ [] := fun he => hw (hend.mpr he)
      simp [hs, hc, hw, hne, skipWhile_terminated _ hnul']

/-- The scan leaves off with the last word, from its beginning to its end, or
with what it began with where no word is left. -/
theorem scanCommand_spec (fuel : Nat) {s : CString} (hnul : 0 ∉ s) (hfuel : s.length < fuel)
    (name lastSlash : Pointer) :
    ∃ rest, scanCommand fuel (name ++ lastSlash) lastSlash (s ++ [0]) =
      some ((words isSlash s).getLast?.getD name ++ rest, rest) := by
  induction fuel generalizing s name lastSlash with
  | zero => cases hfuel
  | succ fuel ih =>
    obtain ⟨word, hword⟩ : ∃ word, s.dropWhile isSlash = word := ⟨_, rfl⟩
    rw [scanCommand_succ fuel hnul _ _ hword, ← words_dropWhile, hword]
    by_cases hnil : word = []
    · rw [if_pos hnil, hnil]
      exact ⟨lastSlash, rfl⟩
    · have hhead : ∀ b ∈ word.head?, isSlash b = false := fun b hb =>
        eq_false_of_head?_dropWhile (hword ▸ hb)
      have hsplit : word.takeWhile (! isSlash ·) ++ word.dropWhile (! isSlash ·) = word :=
        List.takeWhile_append_dropWhile
      have hword' := words_eq_cons hnil hhead
      have hpos : 0 < (word.takeWhile (! isSlash ·)).length :=
        List.length_pos_iff.mpr (ne_nil_of_mem_words (hword' ▸ List.mem_cons_self))
      have hle : word.length ≤ s.length := hword ▸ List.length_dropWhile_le isSlash s
      have hsum := congrArg List.length hsplit
      rw [List.length_append] at hsum
      have hnul' : 0 ∉ word.dropWhile (! isSlash ·) := fun hm => hnul
        ((List.dropWhile_sublist _).subset (hword ▸ (List.dropWhile_sublist _).subset hm))
      obtain ⟨rest, hrest⟩ := ih hnul' (by omega : (word.dropWhile (! isSlash ·)).length < fuel)
        (word.takeWhile (! isSlash ·)) (word.dropWhile (! isSlash ·) ++ [0])
      rw [← List.append_assoc, hsplit] at hrest
      rw [if_neg hnil, hword', List.getLast?_cons, Option.getD_some]
      exact ⟨rest, hrest⟩

theorem commandName_eq {word : CString} (hnul : 0 ∉ word) :
    commandName (word ++ [0]) = some ((words isSlash word).getLast?.getD word) := by
  have hend := skipWhile_terminated (fun _ => true) hnul
  have hnil : word.dropWhile (fun _ => true) = [] := List.dropWhile_eq_nil_iff.mpr fun _ _ => rfl
  have hlength : word.length < (word ++ [0]).length := by simp
  obtain ⟨rest, hscan⟩ := scanCommand_spec (word ++ [0]).length hnul hlength word [0]
  rw [hnil, List.nil_append] at hend
  simp only [commandName, hend, hscan, Option.bind_eq_bind, Option.bind_some, diff_append,
    List.take_left, Option.pure_def]

theorem lastComponent_iff {word name : CString} :
    LastComponent word name ↔ (words isSlash word).getLast?.getD word = name := by
  unfold LastComponent
  rw [lastWord_iff]
  cases hlast : (words isSlash word).getLast? with
  | none =>
    have hall : ∀ b ∈ word, b = slash := by
      simpa [isSlash] using words_eq_nil_iff.mp (List.getLast?_eq_none_iff.mp hlast)
    simpa [eq_comm] using fun _ => hall
  | some last =>
    have hsome : ¬ ∀ b ∈ word, b = slash := fun hall => by
      rw [words_eq_nil_iff.mpr (by simpa [isSlash] using hall)] at hlast
      cases hlast
    simp [hsome]

/-- The scan ends within the word, and finds its last component. -/
theorem createShellCommand_name (word : CString) (hnul : 0 ∉ word) (hne : word ≠ [])
    (later : List CString) (hshell : ¬ (later = [] ∧ word.any isspace)) :
    ∃ self, createShellCommand (word :: later) = .ok self ∧ self.mShell = false ∧
      self.mArgList = word :: later ∧ ∀ name, self.mCmd = name ↔ LastComponent word name := by
  refine ⟨⟨word :: later, false, (words isSlash word).getLast?.getD word⟩, ?_, rfl, rfl, ?_⟩
  · unfold createShellCommand
    simp only [if_neg hne, if_neg hshell, commandName_eq hnul]
  · exact fun name => lastComponent_iff.symm

/-- `//bin//ls///` -/
theorem createShellCommand_name_trailing :
    ∃ self, createShellCommand [[47, 47, 98, 105, 110, 47, 47, 108, 115, 47, 47, 47]] = .ok self ∧
      self.mCmd = [108, 115] := by
  obtain ⟨self, hself, -, -, hname⟩ := createShellCommand_name
    [47, 47, 98, 105, 110, 47, 47, 108, 115, 47, 47, 47] (by decide) (by decide) [] (by decide)
  refine ⟨self, hself, (hname _).mpr (.inl ?_)⟩
  exact ⟨[47, 47, 98, 105, 110, 47, 47], [47, 47, 47], rfl, by simp, by simp [isSlash, slash],
    by simp [isSlash, slash], by simp [isSlash, slash]⟩

end PidSentry
