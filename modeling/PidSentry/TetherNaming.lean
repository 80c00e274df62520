import PidSentry.ShellCommand
import PidSentry.Substring

/-! The name of the tether: how `runChildProcess_` (childprocess.c) makes its
descriptor known to the program, in the environment or in an argument. -/

namespace PidSentry

/-- `isupper` and `isdigit` in the C locale -/
def isupper (b : UInt8) : Bool := 65 ≤ b && b ≤ 90

def isdigit (b : UInt8) : Bool := 48 ≤ b && b ≤ 57

def underscore : UInt8 := 95

def INT_MAX : Nat := 2 ^ 31 - 1

/-- Why there is no command to execute. -/
inductive NamingError
  | ERANGE
  | EOVERFLOW
  /-- `ert_terminate` with "Unable to find matching argument '%s'" -/
  | unmatched (mName : CString)
  /-- `replacedArg` is written past its end. -/
  | overrun
  | command (error : ShellCommandError)
  deriving DecidableEq, Repr

/-- The loop over the characters of the name after the first. -/
def scanName : Bool → CString → Bool
  | useEnv, [] => useEnv
  | false, _ => false
  | true, ch :: mName => scanName (isupper ch || isdigit ch || ch = underscore) mName

def useEnv : CString → Bool
  | [] => false
  | ch :: mName => scanName (isupper ch) mName

def replacedArgSize (arg mName tetherArg : CString) : Nat :=
  arg.length - mName.length + tetherArg.length + 1

/-- `sprintf` into an array of the given size; its result has to be an `int`. -/
def sprintf (size : Nat) (text : CString) : Except NamingError CString :=
  if size < text.length + 1 then .error .overrun
  else if INT_MAX < text.length then .error .EOVERFLOW
  else .ok text

/-- `matchArg` points into `arg`, and `matchLen` is an `int`. -/
def replaceArg (arg matchArg mName tetherArg : CString) : Except NamingError CString :=
  let matchLen : Int32 := .ofNat (arg.length - matchArg.length)
  if matchLen.toInt = (arg.length - matchArg.length : Nat) then
    sprintf (replacedArgSize arg mName tetherArg)
      (arg.take matchLen.toInt.toNat ++ tetherArg ++ matchArg.drop mName.length)
  else .error .ERANGE

/-- The search through the arguments after the command name. -/
def nameArgument (mName tetherArg : CString) : List CString → Except NamingError (List CString)
  | [] => .error (.unmatched mName)
  | arg :: later =>
    match strstr arg mName with
    | some matchArg => (replaceArg arg matchArg mName tetherArg).map (· :: later)
    | none => (nameArgument mName tetherArg later).map (arg :: ·)

/-- What `setenv` is given, and the command. -/
def nameTether (mName : Option CString) (tetherFd : Nat) (cmd : List CString) :
    Except NamingError (Option (CString × CString) × List CString) :=
  match mName, cmd with
  | none, cmd => .ok (none, cmd)
  | some mName, cmd =>
    if useEnv mName then .ok (some (mName, decimal tetherFd), cmd)
    else
      match cmd with
      | [] => .error (.unmatched mName)
      | command :: arguments =>
        (nameArgument mName (decimal tetherFd) arguments).map fun arguments =>
          (none, command :: arguments)

/-- The command that `execShellCommand` gets, and the addition to its environment. -/
def prepareCommand (mName : Option CString) (tetherFd : Nat) (cmd : List CString) :
    Except NamingError (Option (CString × CString) × ShellCommand) := do
  let (env, cmd) ← nameTether mName tetherFd cmd
  match createShellCommand cmd with
  | .ok shellCommand => return (env, shellCommand)
  | .error error => throw (.command error)

/-- `[A-Z][A-Z0-9_]*` -/
def EnvironmentName (mName : CString) : Prop :=
  ∃ first rest, mName = first :: rest ∧ isupper first ∧
    ∀ ch ∈ rest, isupper ch ∨ isdigit ch ∨ ch = underscore

/-- The first argument after the command name that contains the name is replaced
by what it is with the number in the place of the first occurrence. -/
def Replaces (mName number : CString) (cmd : List CString) (replaced : CString)
    (cmd' : List CString) : Prop :=
  ∃ command before arg after pre post, cmd = command :: before ++ arg :: after ∧
    (∀ arg ∈ before, ¬ mName <:+: arg) ∧ FirstOccurrence mName arg pre post ∧
    replaced = pre ++ number ++ post ∧ cmd' = command :: before ++ replaced :: after

def Executes (prepared : Except NamingError (Option (CString × CString) × ShellCommand))
    (env : Option (CString × CString)) (cmd : List CString) : Prop :=
  ∃ shellCommand, prepared = .ok (env, shellCommand) ∧ shellCommand.mArgList = cmd

/-- The naming of a tether, for replaced arguments of which `fits` holds. -/
structure NamesTether (fits : CString → Prop) (mName : CString) (tetherFd : Nat)
    (cmd : List CString) : Prop where
  environment : EnvironmentName mName →
    Executes (prepareCommand (some mName) tetherFd cmd) (some (mName, decimal tetherFd)) cmd
  argument : ¬ EnvironmentName mName → ∀ replaced cmd',
    Replaces mName (decimal tetherFd) cmd replaced cmd' → fits replaced →
    Executes (prepareCommand (some mName) tetherFd cmd) none cmd'
  stops : (∀ env cmd', ¬ Executes (prepareCommand (some mName) tetherFd cmd) env cmd') ↔
    ¬ EnvironmentName mName ∧ ((∀ arg ∈ cmd.tail, ¬ mName <:+: arg) ∨
      ∃ replaced cmd', Replaces mName (decimal tetherFd) cmd replaced cmd' ∧ ¬ fits replaced)
  size : ∀ arg pre post, FirstOccurrence mName arg pre post →
    replacedArgSize arg mName (decimal tetherFd) = (pre ++ decimal tetherFd ++ post).length + 1
  within : prepareCommand (some mName) tetherFd cmd ≠ .error .overrun

theorem scanName_eq (mName : CString) (first : Bool) :
    scanName first mName =
      (first && mName.all fun ch => isupper ch || isdigit ch || ch = underscore) := by
  induction mName generalizing first with
  | nil => cases first <;> rfl
  | cons ch mName ih =>
    cases first with
    | false => rfl
    | true => rw [scanName, ih, Bool.true_and, List.all_cons]

theorem useEnv_iff {mName : CString} : useEnv mName = true ↔ EnvironmentName mName := by
  cases mName with
  | nil => simp [useEnv, EnvironmentName]
  | cons ch mName => simp [useEnv, scanName_eq, EnvironmentName, or_assoc]

/-- The descriptor is an `int`, so that `tetherArg` holds its number. -/
theorem decimal_fits_tetherArg {tetherFd : Nat} (h : tetherFd ≤ INT_MAX) :
    (decimal tetherFd).length < 4 * 8 + 1 := by
  have hlt : tetherFd < 10 ^ 32 := Nat.lt_of_le_of_lt h (by decide)
  have hdigits : (Nat.digits 10 tetherFd).length ≤ 32 :=
    (Nat.digits_length_le_iff (by decide) tetherFd).mpr hlt
  unfold decimal
  split_ifs
  · decide
  · simpa using Nat.lt_succ_of_le hdigits

section replaceArg

variable {mName arg pre post : CString}

theorem FirstOccurrence.replacedArgSize_eq (h : FirstOccurrence mName arg pre post)
    (tetherArg : CString) :
    replacedArgSize arg mName tetherArg = (pre ++ tetherArg ++ post).length + 1 := by
  have hlength := congrArg List.length h.split
  simp only [List.length_append] at hlength ⊢
  unfold replacedArgSize
  omega

theorem FirstOccurrence.matchLen_eq (h : FirstOccurrence mName arg pre post) :
    arg.length - (mName ++ post).length = pre.length := by
  have hlength := congrArg List.length h.split
  simp only [List.length_append] at hlength ⊢
  omega

theorem FirstOccurrence.replaceArg_eq (h : FirstOccurrence mName arg pre post)
    (tetherArg : CString) :
    replaceArg arg (mName ++ post) mName tetherArg =
      if (pre ++ tetherArg ++ post).length ≤ INT_MAX then .ok (pre ++ tetherArg ++ post)
      else if pre.length ≤ INT_MAX then .error .EOVERFLOW
      else .error .ERANGE := by
  unfold replaceArg
  simp only [h.matchLen_eq]
  by_cases hpre : pre.length ≤ INT_MAX
  · have hint : (Int32.ofNat pre.length).toInt = pre.length :=
      Int32.toInt_ofNat_of_lt (by unfold INT_MAX at hpre; omega)
    have htake : arg.take pre.length = pre := by simp [h.split]
    rw [hint, if_pos rfl, if_pos hpre, Int.toNat_natCast, htake, List.drop_left, sprintf,
      h.replacedArgSize_eq, if_neg (Nat.lt_irrefl _)]
    by_cases hfits : (pre ++ tetherArg ++ post).length ≤ INT_MAX
    · rw [if_neg (Nat.not_lt.mpr hfits), if_pos hfits]
    · rw [if_pos (Nat.not_le.mp hfits), if_neg hfits]
  · have hint : (Int32.ofNat pre.length).toInt ≠ pre.length := by
      have hlt := Int32.toInt_lt (Int32.ofNat pre.length)
      unfold INT_MAX at hpre
      omega
    have hlong : ¬ (pre ++ tetherArg ++ post).length ≤ INT_MAX := by
      simp only [List.length_append]
      omega
    rw [if_neg hint, if_neg hlong, if_neg hpre]

end replaceArg

theorem nameArgument_unmatched {mName : CString} {arguments : List CString}
    (h : ∀ arg ∈ arguments, ¬ mName <:+: arg) (tetherArg : CString) :
    nameArgument mName tetherArg arguments = .error (.unmatched mName) := by
  induction arguments with
  | nil => rfl
  | cons arg later ih =>
    have hnone : strstr arg mName = none := strstr_eq_none_iff.mpr (h arg List.mem_cons_self)
    rw [nameArgument, hnone, ih fun arg hm => h arg (List.mem_cons_of_mem _ hm)]
    rfl

theorem nameArgument_matched {mName arg pre post : CString} {before : List CString}
    (hbefore : ∀ arg ∈ before, ¬ mName <:+: arg) (h : FirstOccurrence mName arg pre post)
    (tetherArg : CString) (after : List CString) :
    nameArgument mName tetherArg (before ++ arg :: after) =
      (replaceArg arg (mName ++ post) mName tetherArg).map fun replaced =>
        before ++ replaced :: after := by
  induction before with
  | nil => rw [List.nil_append, nameArgument, h.strstr_eq]; rfl
  | cons first before ih =>
    have hnone : strstr first mName = none :=
      strstr_eq_none_iff.mpr (hbefore first List.mem_cons_self)
    have hlater := ih fun arg hm => hbefore arg (List.mem_cons_of_mem _ hm)
    rw [List.cons_append, nameArgument, hnone, hlater]
    cases replaceArg arg (mName ++ post) mName tetherArg <;> rfl

theorem exists_firstArgument (mName : CString) (arguments : List CString) :
    (∀ arg ∈ arguments, ¬ mName <:+: arg) ∨
      ∃ before arg after pre post, arguments = before ++ arg :: after ∧
        (∀ arg ∈ before, ¬ mName <:+: arg) ∧ FirstOccurrence mName arg pre post := by
  induction arguments with
  | nil => exact .inl nofun
  | cons arg later ih =>
    rcases strstr_cases arg mName with ⟨-, hnot⟩ | ⟨pre, post, -, hfirst⟩
    · rcases ih with hnone | ⟨before, arg', after, pre, post, rfl, hbefore, hfirst⟩
      · exact .inl (List.forall_mem_cons.mpr ⟨hnot, hnone⟩)
      · exact .inr ⟨arg :: before, arg', after, pre, post, rfl,
          List.forall_mem_cons.mpr ⟨hnot, hbefore⟩, hfirst⟩
    · exact .inr ⟨[], arg, later, pre, post, rfl, nofun, hfirst⟩

section prepareCommand

variable {mName command : CString} {tetherFd : Nat} {arguments : List CString}

/-- Whether a command can be created depends on its arguments only in whether
there are any. -/
theorem createShellCommand_arguments {self : ShellCommand} {named : List CString}
    (h : createShellCommand (command :: arguments) = .ok self)
    (hlength : named.length = arguments.length) :
    ∃ self, createShellCommand (command :: named) = .ok self ∧ self.mArgList = command :: named := by
  have hnil : named = [] ↔ arguments = [] := by
    rw [← List.length_eq_zero_iff, hlength, List.length_eq_zero_iff]
  unfold createShellCommand at h ⊢
  dsimp only at h ⊢
  have hiff := and_congr_left fun _ : command.any isspace = true => hnil
  by_cases hne : command = []
  · rw [if_pos hne] at h
    cases h
  rw [if_neg hne] at h ⊢
  by_cases hshell : arguments = [] ∧ command.any isspace
  · rw [if_pos (hiff.mpr hshell)]
    exact ⟨_, rfl, rfl⟩
  · rw [if_neg hshell] at h
    rw [if_neg (mt hiff.mp hshell)]
    cases hname : commandName (command ++ [0]) with
    | none =>
      rw [hname] at h
      cases h
    | some mCmd => exact ⟨_, rfl, rfl⟩

theorem prepareCommand_environment {self : ShellCommand}
    (hcmd : createShellCommand (command :: arguments) = .ok self) (h : EnvironmentName mName) :
    Executes (prepareCommand (some mName) tetherFd (command :: arguments))
      (some (mName, decimal tetherFd)) (command :: arguments) := by
  obtain ⟨self, hself, hlist⟩ := createShellCommand_arguments hcmd rfl
  refine ⟨self, ?_, hlist⟩
  simp only [prepareCommand, nameTether, if_pos (useEnv_iff.mpr h)]
  simp [hself, bind, Except.bind, pure, Except.pure]

theorem prepareCommand_of_ok (h : ¬ EnvironmentName mName) {named : List CString}
    {self : ShellCommand} (hnamed : nameArgument mName (decimal tetherFd) arguments = .ok named)
    (hself : createShellCommand (command :: named) = .ok self) :
    prepareCommand (some mName) tetherFd (command :: arguments) = .ok (none, self) := by
  simp only [prepareCommand, nameTether, if_neg (mt useEnv_iff.mp h), hnamed, Except.map]
  simp [hself, bind, Except.bind, pure, Except.pure]

theorem prepareCommand_of_error (h : ¬ EnvironmentName mName) {error : NamingError}
    (hnamed : nameArgument mName (decimal tetherFd) arguments = .error error) :
    prepareCommand (some mName) tetherFd (command :: arguments) = .error error := by
  simp only [prepareCommand, nameTether, if_neg (mt useEnv_iff.mp h), hnamed, Except.map]
  rfl

/-- With a matching argument it depends on the length of its replacement alone. -/
theorem Replaces.prepareCommand {self : ShellCommand}
    (hself : createShellCommand (command :: arguments) = .ok self) (h : ¬ EnvironmentName mName)
    {replaced : CString} {cmd' : List CString}
    (hr : Replaces mName (decimal tetherFd) (command :: arguments) replaced cmd') :
    (replaced.length ≤ INT_MAX →
      Executes (prepareCommand (some mName) tetherFd (command :: arguments)) none cmd') ∧
    (¬ replaced.length ≤ INT_MAX →
      prepareCommand (some mName) tetherFd (command :: arguments) = .error .EOVERFLOW ∨
        prepareCommand (some mName) tetherFd (command :: arguments) = .error .ERANGE) := by
  obtain ⟨command', before, arg, after, pre, post, hcmd, hbefore, hfirst, rfl, rfl⟩ := hr
  obtain ⟨rfl, harguments⟩ := List.cons.inj hcmd
  obtain rfl : arguments = before ++ arg :: after := harguments
  have hnamed := nameArgument_matched hbefore hfirst (decimal tetherFd) after
  rw [hfirst.replaceArg_eq] at hnamed
  constructor
  · intro hfits
    rw [if_pos hfits] at hnamed
    have hlength : (before ++ (pre ++ decimal tetherFd ++ post) :: after).length =
        (before ++ arg :: after).length := by simp
    obtain ⟨self, hself, hlist⟩ := createShellCommand_arguments hself hlength
    exact ⟨self, prepareCommand_of_ok h hnamed hself, hlist⟩
  · intro hlong
    rw [if_neg hlong] at hnamed
    by_cases hpre : pre.length ≤ INT_MAX
    · rw [if_pos hpre] at hnamed
      exact .inl (prepareCommand_of_error h hnamed)
    · rw [if_neg hpre] at hnamed
      exact .inr (prepareCommand_of_error h hnamed)

theorem prepareCommand_cases {self : ShellCommand}
    (hcmd : createShellCommand (command :: arguments) = .ok self) (mName : CString) (tetherFd : Nat) :
    (EnvironmentName mName ∧ Executes (prepareCommand (some mName) tetherFd (command :: arguments))
      (some (mName, decimal tetherFd)) (command :: arguments)) ∨
    ¬ EnvironmentName mName ∧
      (prepareCommand (some mName) tetherFd (command :: arguments) = .error (.unmatched mName) ∧
        (∀ arg ∈ arguments, ¬ mName <:+: arg) ∨
      ∃ replaced cmd', Replaces mName (decimal tetherFd) (command :: arguments) replaced cmd' ∧
        (replaced.length ≤ INT_MAX ∧
            Executes (prepareCommand (some mName) tetherFd (command :: arguments)) none cmd' ∨
          ¬ replaced.length ≤ INT_MAX ∧
            (prepareCommand (some mName) tetherFd (command :: arguments) = .error .EOVERFLOW ∨
              prepareCommand (some mName) tetherFd (command :: arguments) = .error .ERANGE))) := by
  by_cases henv : EnvironmentName mName
  · exact .inl ⟨henv, prepareCommand_environment hcmd henv⟩
  refine .inr ⟨henv, ?_⟩
  rcases exists_firstArgument mName arguments with
    hnone | ⟨before, arg, after, pre, post, rfl, hbefore, hfirst⟩
  · exact .inl ⟨prepareCommand_of_error henv (nameArgument_unmatched hnone _), hnone⟩
  · have hr : Replaces mName (decimal tetherFd) (command :: (before ++ arg :: after))
        (pre ++ decimal tetherFd ++ post) _ :=
      ⟨command, before, arg, after, pre, post, rfl, hbefore, hfirst, rfl, rfl⟩
    refine .inr ⟨_, _, hr, ?_⟩
    by_cases hfits : (pre ++ decimal tetherFd ++ post).length ≤ INT_MAX
    · exact .inl ⟨hfits, (hr.prepareCommand hcmd henv).1 hfits⟩
    · exact .inr ⟨hfits, (hr.prepareCommand hcmd henv).2 hfits⟩

end prepareCommand

theorem Executes.ne_error {prepared : Except NamingError (Option (CString × CString) × ShellCommand)}
    {env : Option (CString × CString)} {cmd : List CString} (h : Executes prepared env cmd)
    (error : NamingError) : prepared ≠ .error error := by
  obtain ⟨self, rfl, -⟩ := h
  exact nofun

end PidSentry
