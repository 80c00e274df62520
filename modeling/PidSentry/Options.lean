import PidSentry.ChildMonitor

/-! The command line: options_.c, from the options as `getopt_long` delivers them
to `gOptions`. -/

namespace PidSentry

structure Timeout where
  mTether_s : Nat
  mUmbilical_s : Nat
  mSignal_s : Nat
  mDrain_s : Nat
  deriving DecidableEq, Repr

structure Options.Client where
  mActive : Bool
  mRelaxed : Bool
  mPidFile : Option String
  deriving DecidableEq, Repr

structure Options.Server where
  mActive : Bool
  mName : Option String
  mPidFile : Option String
  mPidFileMode : Nat
  mTetherFd : Int
  /-- Whether the pointer is to `mTetherFd`, or null. -/
  mTether : Bool
  mIdentify : Bool
  mQuiet : Bool
  mOrphaned : Bool
  mAnnounce : Bool
  mTimeout : Timeout
  deriving DecidableEq, Repr

structure Options where
  mClient : Options.Client
  mServer : Options.Server
  deriving DecidableEq, Repr

/-- `gOptions` before anything has been stored in it. -/
def gOptions : Options where
  mClient := ⟨false, false, none⟩
  mServer := ⟨false, none, none, 0, 0, false, false, false, false, false, ⟨0, 0, 0, 0⟩⟩

def Options.monitored (self : Options) : ServerOptions where
  mTether := self.mServer.mTether
  mTether_s := self.mServer.mTimeout.mTether_s
  mUmbilical_s := self.mServer.mTimeout.mUmbilical_s
  mSignal_s := self.mServer.mTimeout.mSignal_s

/-- The parsing functions of libert, which give nothing when they fail. -/
structure OptionParser where
  parseArgListCSV : String → Option (List String)
  parseUInt : String → Option Nat
  parseInt : String → Option Int
  /-- The mode that a symbolic mode is relative to comes first, then the umask. -/
  parseMode : Nat → Nat → String → Option Nat
  fetchProcessUmask : Option Nat

def DEFAULT_TETHER_TIMEOUT_S : Nat := 30
def DEFAULT_UMBILICAL_TIMEOUT_S : Nat := 30
def DEFAULT_SIGNAL_PERIOD_S : Nat := 30
def DEFAULT_DRAIN_TIMEOUT_S : Nat := 30
def DEFAULT_PIDFILE_MODE : String := "u=r"

/-- The default mode is well formed, and a process can find its umask. -/
structure OptionParser.Lawful (parser : OptionParser) : Prop where
  default_mode : (parser.parseMode 0 0 DEFAULT_PIDFILE_MODE).isSome
  umask : parser.fetchProcessUmask.isSome

def STDOUT_FILENO : Int := 1

def initOptions (self : Options) (mPidFileMode : Nat) : Options :=
  { self with
    mServer.mTimeout.mTether_s := DEFAULT_TETHER_TIMEOUT_S
    mServer.mTimeout.mSignal_s := DEFAULT_SIGNAL_PERIOD_S
    mServer.mTimeout.mUmbilical_s := DEFAULT_UMBILICAL_TIMEOUT_S
    mServer.mTimeout.mDrain_s := DEFAULT_DRAIN_TIMEOUT_S
    mServer.mPidFileMode := mPidFileMode
    mServer.mTetherFd := STDOUT_FILENO
    mServer.mTether := true }

section processTimeoutOption

variable (parser : OptionParser)

def parseTimeout (field : String) (self : Timeout) (store : Nat → Timeout) :
    Except Timeout Timeout :=
  match parser.parseUInt field with
  | some value => .ok (store value)
  | none => .error self

/-- A field after the first may be absent or empty. -/
def parseLaterTimeout (field : Option String) (self : Timeout) (store : Nat → Timeout) :
    Except Timeout Timeout :=
  match field with
  | some field => if field ≠ "" then parseTimeout parser field self store else .ok self
  | none => .ok self

/-- A delay between signals has to be positive, if it is given. -/
def parseSignalPeriod (field : Option String) (self : Timeout) : Except Timeout Timeout := do
  let self ← parseLaterTimeout parser field self fun value => { self with mSignal_s := value }
  match field with
  | some field => if field ≠ "" ∧ self.mSignal_s = 0 then .error self else .ok self
  | none => .ok self

/-- The timeouts after the list has been processed, or after it has failed. -/
def processTimeoutOption (aArg : String) (self : Timeout) : Except Timeout Timeout :=
  match parser.parseArgListCSV aArg with
  | none | some [] => .error self
  | some (tether :: later) =>
    if later.length < 4 then do
      let self ← parseTimeout parser tether self fun value => { self with mTether_s := value }
      let self ← parseLaterTimeout parser later[0]? self fun value =>
        { self with mUmbilical_s := value }
      let self ← parseSignalPeriod parser later[1]? self
      parseLaterTimeout parser later[2]? self fun value => { self with mDrain_s := value }
    else .error self

/-- A field that is present and not empty is a number, and one that `holds` of. -/
def acceptsLater (field : Option String) (holds : Nat → Bool) : Bool :=
  field.all fun field => field = "" || (parser.parseUInt field).any holds

/-- The lists that are processed, whatever the timeouts are beforehand. -/
def acceptsTimeouts (aArg : String) : Bool :=
  match parser.parseArgListCSV aArg with
  | none | some [] => false
  | some (tether :: later) =>
    later.length < 4 && (parser.parseUInt tether).isSome && acceptsLater parser later[0]? (fun _ => true)
      && acceptsLater parser later[1]? (· ≠ 0) && acceptsLater parser later[2]? fun _ => true

theorem parseLaterTimeout_isOk (field : Option String) (self : Timeout) (store : Nat → Timeout) :
    (parseLaterTimeout parser field self store).isOk = acceptsLater parser field fun _ => true := by
  cases field with
  | none => rfl
  | some field =>
    by_cases hfield : field = ""
    · simp [parseLaterTimeout, acceptsLater, hfield, Except.isOk, Except.toBool]
    · cases hvalue : parser.parseUInt field <;>
        simp [parseLaterTimeout, parseTimeout, acceptsLater, hfield, hvalue, Except.isOk,
          Except.toBool]

theorem parseSignalPeriod_isOk (field : Option String) (self : Timeout) :
    (parseSignalPeriod parser field self).isOk = acceptsLater parser field (· ≠ 0) := by
  cases field with
  | none => rfl
  | some field =>
    by_cases hfield : field = ""
    · simp [parseSignalPeriod, parseLaterTimeout, acceptsLater, hfield, bind, Except.bind,
        Except.isOk, Except.toBool]
    · cases hvalue : parser.parseUInt field with
      | none =>
        simp [parseSignalPeriod, parseLaterTimeout, parseTimeout, acceptsLater, hfield, hvalue, bind,
          Except.bind, Except.isOk, Except.toBool]
      | some value =>
        by_cases hzero : value = 0 <;>
          simp [parseSignalPeriod, parseLaterTimeout, parseTimeout, acceptsLater, hfield, hvalue,
            hzero, bind, Except.bind, Except.isOk, Except.toBool]

theorem isOk_bind {σ : Type} {e : Except σ σ} {f : σ → Except σ σ} {a b : Bool}
    (ha : e.isOk = a) (hf : ∀ value, (f value).isOk = b) : (e >>= f).isOk = (a && b) := by
  subst ha
  cases e with
  | error value => rfl
  | ok value => exact hf value

theorem processTimeoutOption_isOk (aArg : String) (self : Timeout) :
    (processTimeoutOption parser aArg self).isOk = acceptsTimeouts parser aArg := by
  unfold processTimeoutOption acceptsTimeouts
  cases parser.parseArgListCSV aArg with
  | none => rfl
  | some mArgv =>
    cases mArgv with
    | nil => rfl
    | cons tether later =>
      by_cases hlength : later.length < 4
      · simp only [hlength, if_true, decide_true, Bool.true_and, Bool.and_assoc]
        refine isOk_bind ?_ fun self => isOk_bind (parseLaterTimeout_isOk parser _ self _) fun self =>
          isOk_bind (parseSignalPeriod_isOk parser _ self) fun self =>
            parseLaterTimeout_isOk parser _ self _
        unfold parseTimeout
        cases parser.parseUInt tether <;> rfl
      · simp [hlength, Except.isOk, Except.toBool]

/-- The umbilical timeout that a list gives, if it gives one. -/
def umbilicalTimeout (aArg : String) : Option Nat :=
  match parser.parseArgListCSV aArg with
  | some (_ :: field :: _) => if field ≠ "" then parser.parseUInt field else none
  | _ => none

theorem parseLaterTimeout_ok {field : Option String} {self next : Timeout}
    {store : Nat → Timeout} (h : parseLaterTimeout parser field self store = .ok next) :
    next = self ∨ ∃ value, next = store value := by
  unfold parseLaterTimeout parseTimeout at h
  split at h
  · split_ifs at h
    · split at h
      · exact .inr ⟨_, (Except.ok.inj h).symm⟩
      · cases h
    · exact .inl (Except.ok.inj h).symm
  · exact .inl (Except.ok.inj h).symm

theorem bind_ok {ε α β : Type} {e : Except ε α} {f : α → Except ε β} {next : β}
    (h : e >>= f = .ok next) : ∃ value, e = .ok value ∧ f value = .ok next := by
  cases e with
  | error value => cases h
  | ok value => exact ⟨value, rfl, h⟩

theorem parseSignalPeriod_umbilical {field : Option String} {self next : Timeout}
    (h : parseSignalPeriod parser field self = .ok next) :
    next.mUmbilical_s = self.mUmbilical_s := by
  obtain ⟨stored, hstored, hchecked⟩ := bind_ok h
  have hnext : next = stored := by
    split at hchecked
    · split_ifs at hchecked
      exact (Except.ok.inj hchecked).symm
    · exact (Except.ok.inj hchecked).symm
  rcases parseLaterTimeout_ok parser hstored with he | ⟨value, he⟩ <;> rw [hnext, he]

theorem parseLaterTimeout_umbilical {tether : String} {later : List String} {aArg : String}
    (hlist : parser.parseArgListCSV aArg = some (tether :: later)) {self next : Timeout}
    (h : parseLaterTimeout parser later[0]? self
      (fun value => { self with mUmbilical_s := value }) = .ok next) :
    next.mUmbilical_s = (umbilicalTimeout parser aArg).getD self.mUmbilical_s := by
  unfold umbilicalTimeout
  rw [hlist]
  cases later with
  | nil =>
    obtain rfl := Except.ok.inj h
    rfl
  | cons field later =>
    simp only [List.getElem?_cons_zero, parseLaterTimeout, parseTimeout] at h ⊢
    split_ifs at h ⊢
    · cases hvalue : parser.parseUInt field with
      | none => simp [hvalue] at h
      | some value =>
        simp only [hvalue] at h
        obtain rfl := Except.ok.inj h
        rfl
    · obtain rfl := Except.ok.inj h
      rfl

theorem processTimeoutOption_umbilical {aArg : String} {self next : Timeout}
    (h : processTimeoutOption parser aArg self = .ok next) :
    next.mUmbilical_s = (umbilicalTimeout parser aArg).getD self.mUmbilical_s := by
  unfold processTimeoutOption at h
  split at h
  · cases h
  · cases h
  · rename_i tether later hlist
    split_ifs at h
    obtain ⟨tethered, htether, h⟩ := bind_ok h
    obtain ⟨umbilical, humbilical, h⟩ := bind_ok h
    obtain ⟨signalled, hsignal, hdrain⟩ := bind_ok h
    have hsame : tethered.mUmbilical_s = self.mUmbilical_s := by
      unfold parseTimeout at htether
      split at htether
      · obtain rfl := Except.ok.inj htether
        rfl
      · cases htether
    rw [← hsame, ← parseLaterTimeout_umbilical parser hlist humbilical,
      ← parseSignalPeriod_umbilical parser hsignal]
    rcases parseLaterTimeout_ok parser hdrain with he | ⟨value, he⟩ <;> rw [he]

end processTimeoutOption

inductive OptionMode
  | error
  | unknown
  | monitorChild
  | runCommand
  deriving DecidableEq, Repr

/-- What `getopt_long` returns: an option of the two tables with its argument, or
`'?'`. -/
inductive CommandOption
  | announce
  | client
  | debug
  | fd (optarg : String)
  | relaxed
  | identify
  | pidfilemode (optarg : String)
  | name (optarg : String)
  | orphaned
  | pidfile (optarg : String)
  | quiet
  | server
  | test (optarg : String)
  | timeout (optarg : String)
  | untethered
  | unrecognised
  deriving DecidableEq, Repr

namespace CommandOption

/-- The name in `longOptions_`. -/
def longOption : CommandOption → Option String
  | announce => some "announce"
  | client => some "client"
  | debug => some "debug"
  | fd _ => some "fd"
  | relaxed => some "relaxed"
  | identify => some "identify"
  | pidfilemode _ => some "pidfilemode"
  | name _ => some "name"
  | orphaned => some "orphaned"
  | pidfile _ => some "pidfile"
  | quiet => some "quiet"
  | server => some "server"
  | test _ => some "test"
  | timeout _ => some "timeout"
  | untethered => some "untethered"
  | unrecognised => none

/-- The letter in `shortOptions_`, or the value of `OptionTest`. -/
def shortOption : CommandOption → Char
  | announce => 'a'
  | client => 'c'
  | debug => 'd'
  | fd _ => 'f'
  | relaxed => 'R'
  | identify => 'i'
  | pidfilemode _ => 'm'
  | name _ => 'n'
  | orphaned => 'o'
  | pidfile _ => 'p'
  | quiet => 'q'
  | server => 's'
  | test _ => Char.ofNat 128
  | timeout _ => 't'
  | untethered => 'u'
  | unrecognised => '?'

end CommandOption

/-- An option with whether it was given by its long name. -/
structure GivenOption where
  opt : CommandOption
  long : Bool
  deriving DecidableEq, Repr

def GivenOption.longOptName (self : GivenOption) : Option String :=
  if self.long then self.opt.longOption else none

/-- The mode after an option that asks for `aMode`, and what is printed. -/
def setOptionMode (self aMode : OptionMode) (aLongOpt : Option String) (aShortOpt : Char) :
    OptionMode × List String :=
  if self ≠ .error then
    if self = .unknown ∨ aMode = self then (aMode, [])
    else
      match aLongOpt with
      | some aLongOpt => (.error, ["Incompatible option --" ++ aLongOpt])
      | none => (.error, ["Incompatible option -" ++ aShortOpt.toString])
  else (.error, [])

/-- The locals of `processOptions`, and what it has stored and printed so far. -/
structure OptionState where
  mode : OptionMode
  mDebug : Nat
  mTest : Nat
  gOptions : Options
  messages : List String
  deriving DecidableEq, Repr

namespace OptionState

def setMode (self : OptionState) (aMode : OptionMode) (given : GivenOption) : OptionState :=
  let (mode, messages) :=
    setOptionMode self.mode aMode given.longOptName given.opt.shortOption
  { self with mode := mode, messages := self.messages ++ messages }

/-- An option that fails after printing a message. -/
def reject (self : OptionState) (text : String) : Except OptionState OptionState :=
  .error { self with messages := self.messages ++ [text] }

end OptionState

/-- The set-id, sticky and execute bits. -/
def forbiddenMode : Nat := 0o7111

/-- The body of the `switch` over the option. -/
def processOption (parser : OptionParser) (defaultPidFileMode processUmask : Nat)
    (self : OptionState) (given : GivenOption) : Except OptionState OptionState :=
  match given.opt with
  | .unrecognised => .error self
  | .announce => .ok { self.setMode .monitorChild given with gOptions.mServer.mAnnounce := true }
  | .client => .ok { self.setMode .runCommand given with gOptions.mClient.mActive := true }
  | .debug => .ok { self with mDebug := self.mDebug + 1 }
  | .fd optarg =>
    let self := { self.setMode .monitorChild given with gOptions.mServer.mTether := true }
    if optarg = "-" then .ok { self with gOptions.mServer.mTetherFd := -1 }
    else
      match parser.parseInt optarg with
      | some fd =>
        let self := { self with gOptions.mServer.mTetherFd := fd }
        if 0 > fd then self.reject ("Badly formed fd - '" ++ optarg ++ "'") else .ok self
      | none => self.reject ("Badly formed fd - '" ++ optarg ++ "'")
  | .identify => .ok { self.setMode .monitorChild given with gOptions.mServer.mIdentify := true }
  | .orphaned => .ok { self.setMode .monitorChild given with gOptions.mServer.mOrphaned := true }
  | .pidfilemode optarg =>
    let self := self.setMode .monitorChild given
    match parser.parseMode defaultPidFileMode processUmask optarg with
    | some mode =>
      let self := { self with gOptions.mServer.mPidFileMode := mode }
      if mode &&& forbiddenMode ≠ 0 then .error self else .ok self
    | none => .error self
  | .name optarg =>
    let self := self.setMode .monitorChild given
    if optarg = "" then self.reject "Empty environment or argument name"
    else .ok { self with gOptions.mServer.mName := some optarg }
  | .pidfile optarg =>
    let self := self.setMode .monitorChild given
    if optarg = "" then self.reject "Empty pid file name"
    else .ok { self with gOptions.mServer.mPidFile := some optarg }
  | .quiet => .ok { self.setMode .monitorChild given with gOptions.mServer.mQuiet := true }
  | .relaxed => .ok { self.setMode .runCommand given with gOptions.mClient.mRelaxed := true }
  | .server => .ok { self.setMode .monitorChild given with gOptions.mServer.mActive := true }
  | .test optarg =>
    match parser.parseUInt optarg with
    | some mTest =>
      let self := { self with mTest := mTest }
      if mTest = 0 then self.reject "Test level must be non-zero" else .ok self
    | none => self.reject ("Badly formed test level - '" ++ optarg ++ "'")
  | .timeout optarg =>
    let self := self.setMode .monitorChild given
    match processTimeoutOption parser optarg self.gOptions.mServer.mTimeout with
    | .ok mTimeout => .ok { self with gOptions.mServer.mTimeout := mTimeout }
    | .error mTimeout =>
      { self with gOptions.mServer.mTimeout := mTimeout }.reject
        ("Badly formed timeout - '" ++ optarg ++ "'")
  | .untethered => .ok { self.setMode .monitorChild given with gOptions.mServer.mTether := false }

/-- The loop of `processOptions`, which looks at the mode before each option and
once more after the last. -/
def processEachOption (parser : OptionParser) (defaultPidFileMode processUmask : Nat) :
    OptionState → List GivenOption → Except OptionState OptionState
  | self, [] => if self.mode = .error then .error self else .ok self
  | self, given :: rest =>
    if self.mode = .error then .error self
    else
      match processOption parser defaultPidFileMode processUmask self given with
      | .ok self => processEachOption parser defaultPidFileMode processUmask self rest
      | .error self => .error self

/-- `args` as `processOptions` leaves them, next to its state. -/
structure ProcessedOptions where
  state : OptionState
  args : List String
  deriving DecidableEq, Repr

/-- What follows the loop, with the operands that `optind` has come to. -/
def processOperands (self : OptionState) (operands : List String) : Outcome ProcessedOptions Unit :=
  let fail (self : OptionState) (text : String) : Outcome ProcessedOptions Unit :=
    .error ⟨{ self with messages := self.messages ++ [text] }, []⟩
  let command (self : OptionState) (operands : List String) : Outcome ProcessedOptions Unit :=
    if operands = [] then fail self "Missing command for execution" else .ok ⟨self, operands⟩
  match self.mode with
  | .unknown => fail self "Unspecified mode of operation"
  | .error => .abort ⟨self, []⟩
  | .runCommand =>
    if self.gOptions.mClient.mActive ∧ ¬ self.gOptions.mServer.mActive then
      match operands with
      | [] => fail self "Missing pid file for command"
      | mPidFile :: operands =>
        command { self with gOptions.mClient.mPidFile := some mPidFile } operands
    else .abort ⟨self, []⟩
  | .monitorChild =>
    if self.gOptions.mServer.mActive ∧ ¬ self.gOptions.mClient.mActive then command self operands
    else .abort ⟨self, []⟩

def processOptions (parser : OptionParser) (options : List GivenOption) (operands : List String) :
    Outcome ProcessedOptions Unit :=
  match parser.parseMode 0 0 DEFAULT_PIDFILE_MODE, parser.fetchProcessUmask with
  | some defaultPidFileMode, some processUmask =>
    let start : OptionState := ⟨.unknown, 0, 0, initOptions gOptions defaultPidFileMode, []⟩
    match processEachOption parser defaultPidFileMode processUmask start options with
    | .ok self => processOperands self operands
    | .error self => .error ⟨self, []⟩
  | _, _ => .abort ⟨⟨.unknown, 0, 0, gOptions, []⟩, []⟩

namespace CommandOption

/-- The mode that an option asks for; the general options ask for none. -/
def mode : CommandOption → OptionMode
  | client | relaxed => .runCommand
  | debug | test _ | unrecognised => .unknown
  | announce | fd _ | identify | pidfilemode _ | name _ | orphaned | pidfile _ | quiet | server
  | timeout _ | untethered => .monitorChild

/-- The options that set the active flag of their mode. -/
def activates (self : CommandOption) : Prop := self = server ∨ self = client

instance (self : CommandOption) : Decidable self.activates := inferInstanceAs (Decidable (_ ∨ _))

/-- The option is one of the tables and its argument is well formed. -/
def valid (parser : OptionParser) (defaultPidFileMode processUmask : Nat) : CommandOption → Bool
  | fd optarg => optarg = "-" || (parser.parseInt optarg).any (0 ≤ ·)
  | pidfilemode optarg =>
    (parser.parseMode defaultPidFileMode processUmask optarg).any (· &&& forbiddenMode = 0)
  | name optarg | pidfile optarg => optarg ≠ ""
  | test optarg => (parser.parseUInt optarg).any (· ≠ 0)
  | timeout optarg => acceptsTimeouts parser optarg
  | unrecognised => false
  | announce | client | debug | relaxed | identify | orphaned | quiet | server | untethered => true

end CommandOption

def OptionMode.join (self aMode : OptionMode) : OptionMode :=
  if aMode = .unknown ∨ aMode = self then self
  else if self = .unknown then aMode
  else .error

theorem setOptionMode_fst (self aMode : OptionMode) (aLongOpt : Option String) (aShortOpt : Char)
    (h : aMode ≠ .unknown) : (setOptionMode self aMode aLongOpt aShortOpt).1 = self.join aMode := by
  unfold setOptionMode OptionMode.join
  cases self <;> cases aMode <;> cases aLongOpt <;> simp_all

namespace OptionState

variable (parser : OptionParser) (defaultPidFileMode processUmask : Nat)

/-- What an option that is processed does to the mode and to the active flags. -/
structure Follows (s : OptionState) (opt : CommandOption) (next : OptionState) : Prop where
  mode : next.mode = s.mode.join opt.mode
  server : next.gOptions.mServer.mActive = (s.gOptions.mServer.mActive || opt = .server)
  client : next.gOptions.mClient.mActive = (s.gOptions.mClient.mActive || opt = .client)

theorem setMode_follows (self : OptionState) (aMode : OptionMode) (given : GivenOption)
    (h : aMode ≠ .unknown) :
    (self.setMode aMode given).mode = self.mode.join aMode ∧
      (self.setMode aMode given).gOptions = self.gOptions :=
  ⟨setOptionMode_fst self.mode aMode _ _ h, rfl⟩

theorem processOption_spec (self : OptionState) (given : GivenOption) :
    match processOption parser defaultPidFileMode processUmask self given with
    | .ok next => given.opt.valid parser defaultPidFileMode processUmask ∧
      self.Follows given.opt next
    | .error _ => ¬ given.opt.valid parser defaultPidFileMode processUmask := by
  obtain ⟨hmonitor, hmonitored⟩ := self.setMode_follows .monitorChild given (by decide)
  obtain ⟨hrun, hran⟩ := self.setMode_follows .runCommand given (by decide)
  unfold processOption
  cases hopt : given.opt with
  | announce | identify | orphaned | quiet | untethered =>
    exact ⟨rfl, hmonitor, by simp [hmonitored], by simp [hmonitored]⟩
  | server => exact ⟨rfl, hmonitor, by simp, by simp [hmonitored]⟩
  | client => exact ⟨rfl, hrun, by simp [hran], by simp⟩
  | relaxed => exact ⟨rfl, hrun, by simp [hran], by simp [hran]⟩
  | debug => exact ⟨rfl, rfl, by simp, by simp⟩
  | unrecognised => exact Bool.false_ne_true
  | fd optarg =>
    dsimp only
    by_cases hdash : optarg = "-"
    · simp only [hdash, if_true]
      exact ⟨rfl, hmonitor, by simp [hmonitored], by simp [hmonitored]⟩
    · simp only [hdash, if_false]
      cases hfd : parser.parseInt optarg with
      | none => simp [CommandOption.valid, reject, hdash, hfd]
      | some fd =>
        by_cases hneg : 0 > fd
        · simp only [hneg, if_true, reject, CommandOption.valid, hdash, hfd]
          simpa using hneg
        · simp only [hneg, if_false]
          refine ⟨?_, hmonitor, by simp [hmonitored], by simp [hmonitored]⟩
          simpa [CommandOption.valid, hdash, hfd] using Int.not_lt.mp hneg
  | pidfilemode optarg =>
    dsimp only
    cases hmode : parser.parseMode defaultPidFileMode processUmask optarg with
    | none => simp [CommandOption.valid, hmode]
    | some mode =>
      by_cases hbits : mode &&& forbiddenMode = 0
      · simp only [hbits, ne_eq, not_true, if_false]
        refine ⟨?_, hmonitor, by simp [hmonitored], by simp [hmonitored]⟩
        simp [CommandOption.valid, hmode, hbits]
      · simp [CommandOption.valid, hmode, hbits]
  | name optarg | pidfile optarg =>
    dsimp only
    by_cases hempty : optarg = ""
    · simp [hempty, CommandOption.valid, reject]
    · simp only [hempty, if_false]
      refine ⟨?_, hmonitor, by simp [hmonitored], by simp [hmonitored]⟩
      simp [CommandOption.valid, hempty]
  | test optarg =>
    dsimp only
    cases hvalue : parser.parseUInt optarg with
    | none => simp [CommandOption.valid, hvalue, reject]
    | some mTest =>
      by_cases hzero : mTest = 0
      · simp [CommandOption.valid, hvalue, hzero, reject]
      · simp only [hzero, if_false]
        refine ⟨?_, rfl, by simp, by simp⟩
        simp [CommandOption.valid, hvalue, hzero]
  | timeout optarg =>
    dsimp only
    have haccepts := processTimeoutOption_isOk parser optarg
      (self.setMode .monitorChild given).gOptions.mServer.mTimeout
    cases hlist : processTimeoutOption parser optarg
      (self.setMode .monitorChild given).gOptions.mServer.mTimeout with
    | error mTimeout =>
      rw [hlist] at haccepts
      simp [CommandOption.valid, ← haccepts, reject, Except.isOk, Except.toBool]
    | ok mTimeout =>
      rw [hlist] at haccepts
      refine ⟨?_, hmonitor, by simp [hmonitored], by simp [hmonitored]⟩
      simp [CommandOption.valid, ← haccepts, Except.isOk, Except.toBool]

end OptionState

/-- Some option asks for this mode. -/
def Requests (options : List GivenOption) (mode : OptionMode) : Prop :=
  ∃ given ∈ options, given.opt.mode = mode

/-- The mode that the options come to, in whatever order they are given. -/
def OptionMode.Settles (options : List GivenOption) : OptionMode → Prop
  | unknown => ¬ Requests options .monitorChild ∧ ¬ Requests options .runCommand
  | monitorChild => Requests options .monitorChild ∧ ¬ Requests options .runCommand
  | runCommand => Requests options .runCommand ∧ ¬ Requests options .monitorChild
  | error => Requests options .monitorChild ∧ Requests options .runCommand

theorem requests_append (options : List GivenOption) (given : GivenOption) (mode : OptionMode) :
    Requests (options ++ [given]) mode ↔ Requests options mode ∨ given.opt.mode = mode := by
  simp [Requests, or_and_right, exists_or]

theorem CommandOption.mode_ne_error (self : CommandOption) : self.mode ≠ .error := by
  cases self <;> exact OptionMode.noConfusion

theorem OptionMode.Settles.join {options : List GivenOption} {self : OptionMode}
    (h : self.Settles options) (given : GivenOption) :
    (self.join given.opt.mode).Settles (options ++ [given]) := by
  have hne := given.opt.mode_ne_error
  cases hmode : given.opt.mode with
  | error => exact absurd hmode hne
  | unknown | monitorChild | runCommand =>
    cases self <;> simp_all [OptionMode.join, Settles, requests_append]

theorem OptionMode.Settles.append {options : List GivenOption} (h : error.Settles options)
    (rest : List GivenOption) : error.Settles (options ++ rest) := by
  obtain ⟨⟨monitor, hmonitor, hm⟩, ⟨run, hrun, hr⟩⟩ := h
  exact ⟨⟨monitor, List.mem_append_left _ hmonitor, hm⟩, ⟨run, List.mem_append_left _ hrun, hr⟩⟩

namespace OptionState

variable (parser : OptionParser) (defaultPidFileMode processUmask : Nat)

/-- The state says of the options seen so far whether each mode was asked for,
and which of the two options that activate one was there. -/
structure Summarises (options : List GivenOption) (s : OptionState) : Prop where
  valid : ∀ given ∈ options, given.opt.valid parser defaultPidFileMode processUmask
  mode : s.mode.Settles options
  server : s.gOptions.mServer.mActive ↔ ∃ given ∈ options, given.opt = .server
  client : s.gOptions.mClient.mActive ↔ ∃ given ∈ options, given.opt = .client

theorem Summarises.step {options : List GivenOption} {self next : OptionState} {given : GivenOption}
    (hs : Summarises parser defaultPidFileMode processUmask options self)
    (hvalid : given.opt.valid parser defaultPidFileMode processUmask)
    (hf : self.Follows given.opt next) :
    Summarises parser defaultPidFileMode processUmask (options ++ [given]) next := by
  refine ⟨?_, ?_, ?_, ?_⟩
  · intro other hmem
    rcases List.mem_append.mp hmem with hold | hnew
    · exact hs.valid other hold
    · rw [List.mem_singleton.mp hnew]
      exact hvalid
  · rw [hf.mode]
    exact hs.mode.join given
  · rw [hf.server, Bool.or_eq_true, hs.server]
    simp [or_and_right, exists_or]
  · rw [hf.client, Bool.or_eq_true, hs.client]
    simp [or_and_right, exists_or]

/-- The loop ends well with a summary of all of the options in a mode that is not
an error, or because an option is not valid or two ask for different modes. -/
theorem processEachOption_spec {seen : List GivenOption} {self : OptionState}
    (hs : Summarises parser defaultPidFileMode processUmask seen self) (options : List GivenOption) :
    match processEachOption parser defaultPidFileMode processUmask self options with
    | .ok next => Summarises parser defaultPidFileMode processUmask (seen ++ options) next ∧
      next.mode ≠ .error
    | .error _ => (∃ given ∈ seen ++ options,
        ¬ given.opt.valid parser defaultPidFileMode processUmask) ∨
      OptionMode.error.Settles (seen ++ options) := by
  induction options generalizing seen self with
  | nil =>
    unfold processEachOption
    by_cases herror : self.mode = .error
    · simp only [herror, if_true]
      exact .inr ((herror ▸ hs.mode).append [])
    · simp only [herror, if_false, List.append_nil]
      exact ⟨hs, herror⟩
  | cons given rest ih =>
    unfold processEachOption
    by_cases herror : self.mode = .error
    · simp only [herror, if_true]
      exact .inr ((herror ▸ hs.mode).append (given :: rest))
    · simp only [herror, if_false]
      have hspec := processOption_spec parser defaultPidFileMode processUmask self given
      cases hoption : processOption parser defaultPidFileMode processUmask self given with
      | error failed =>
        rw [hoption] at hspec
        exact .inl ⟨given, by simp, hspec⟩
      | ok next =>
        rw [hoption] at hspec
        have hrest := ih (hs.step parser defaultPidFileMode processUmask hspec.1 hspec.2)
        simpa using hrest

end OptionState

theorem Requests.perm {options other : List GivenOption} (h : other.Perm options)
    (mode : OptionMode) : Requests other mode ↔ Requests options mode := by
  simp only [Requests, h.mem_iff]

theorem OptionMode.Settles.unique {options : List GivenOption} {m n : OptionMode}
    (hm : m.Settles options) (hn : n.Settles options) : m = n := by
  cases m <;> cases n <;> simp_all [Settles]

theorem OptionMode.Settles.perm {options other : List GivenOption} (h : other.Perm options)
    {mode : OptionMode} (hs : mode.Settles other) : mode.Settles options := by
  cases mode <;> simpa only [Settles, Requests.perm h] using hs

theorem processOperands_congr {s t : OptionState} (hmode : s.mode = t.mode)
    (hserver : s.gOptions.mServer.mActive = t.gOptions.mServer.mActive)
    (hclient : s.gOptions.mClient.mActive = t.gOptions.mClient.mActive) (operands : List String) :
    (processOperands s operands).rc = (processOperands t operands).rc := by
  unfold processOperands
  rw [hmode, hserver, hclient]
  cases t.mode with
  | unknown | error => rfl
  | monitorChild =>
    dsimp only
    split_ifs <;> rfl
  | runCommand =>
    dsimp only
    split_ifs
    · cases operands with
      | nil => rfl
      | cons mPidFile operands =>
        dsimp only
        split_ifs <;> rfl
    · rfl

/-- The option is valid next to the default mode of the pid file and the umask
that `processOptions` finds. -/
def OptionParser.Valid (parser : OptionParser) (opt : CommandOption) : Prop :=
  ∃ defaultPidFileMode processUmask,
    parser.parseMode 0 0 DEFAULT_PIDFILE_MODE = some defaultPidFileMode ∧
    parser.fetchProcessUmask = some processUmask ∧
    opt.valid parser defaultPidFileMode processUmask

/-- `processOptions` in terms of the state that its loop ends with, if it ends well. -/
theorem processOptions_cases {parser : OptionParser} (hparser : parser.Lawful)
    (options : List GivenOption) (operands : List String) :
    (∃ s, processOptions parser options operands = .error ⟨s, []⟩ ∧
      ((∃ given ∈ options, ¬ parser.Valid given.opt) ∨ OptionMode.error.Settles options)) ∨
    ∃ s, processOptions parser options operands = processOperands s operands ∧
      (∀ given ∈ options, parser.Valid given.opt) ∧ s.mode.Settles options ∧ s.mode ≠ .error ∧
      (s.gOptions.mServer.mActive ↔ ∃ given ∈ options, given.opt = .server) ∧
      (s.gOptions.mClient.mActive ↔ ∃ given ∈ options, given.opt = .client) := by
  obtain ⟨defaultPidFileMode, hmode⟩ := Option.isSome_iff_exists.mp hparser.default_mode
  obtain ⟨processUmask, humask⟩ := Option.isSome_iff_exists.mp hparser.umask
  have hvalid : ∀ opt, parser.Valid opt ↔ opt.valid parser defaultPidFileMode processUmask := by
    intro opt
    simp [OptionParser.Valid, hmode, humask]
  have hstart : OptionState.Summarises parser defaultPidFileMode processUmask []
      ⟨.unknown, 0, 0, initOptions gOptions defaultPidFileMode, []⟩ :=
    ⟨by simp, by simp [OptionMode.Settles, Requests], by simp [initOptions, gOptions],
      by simp [initOptions, gOptions]⟩
  have hspec := OptionState.processEachOption_spec parser defaultPidFileMode processUmask hstart
    options
  simp only [processOptions, hmode, humask]
  cases hloop : processEachOption parser defaultPidFileMode processUmask
      ⟨.unknown, 0, 0, initOptions gOptions defaultPidFileMode, []⟩ options with
  | error s =>
    simp only [hloop, List.nil_append] at hspec
    simp only [hvalid]
    exact .inl ⟨s, rfl, hspec⟩
  | ok s =>
    simp only [hloop, List.nil_append] at hspec
    obtain ⟨hs, hne⟩ := hspec
    simp only [hvalid]
    exact .inr ⟨s, rfl, hs.valid, hs.mode, hne, hs.server, hs.client⟩

/-- No assertion fails: either exactly one mode is active, and no option asked for
the other one, or the command line is refused; and the order of the options
makes no difference to that. -/
structure SettlesMode (parser : OptionParser) (options : List GivenOption)
    (operands : List String) : Prop where
  settled : (processOptions parser options operands).rc = .error ∨
    (processOptions parser options operands).rc = .ok ∧
      let gOptions := (processOptions parser options operands).self.state.gOptions
      (gOptions.mServer.mActive ∧ ¬ gOptions.mClient.mActive ∧ ¬ Requests options .runCommand) ∨
        (gOptions.mClient.mActive ∧ ¬ gOptions.mServer.mActive ∧ ¬ Requests options .monitorChild)
  unordered : ∀ other : List GivenOption, other.Perm options →
    (processOptions parser other operands).rc = (processOptions parser options operands).rc

/-- A mode that is asked for is also activated, or the options are refused anyway. -/
def ActivatesMode (parser : OptionParser) (options : List GivenOption) : Prop :=
  (∃ given ∈ options, given.opt.activates) ∨
    (¬ Requests options .monitorChild ∧ ¬ Requests options .runCommand) ∨
    (Requests options .monitorChild ∧ Requests options .runCommand) ∨
    ∃ given ∈ options, ¬ parser.Valid given.opt

theorem processOptions_unordered {parser : OptionParser} (hparser : parser.Lawful)
    {options other : List GivenOption} (h : other.Perm options) (operands : List String) :
    (processOptions parser other operands).rc = (processOptions parser options operands).rc := by
  have hrefused : ∀ {l m : List GivenOption}, l.Perm m → ∀ mode : OptionMode, mode ≠ .error →
      (∀ given ∈ m, parser.Valid given.opt) → mode.Settles m →
      ¬ ((∃ given ∈ l, ¬ parser.Valid given.opt) ∨ OptionMode.error.Settles l) := by
    rintro l m hp mode hne hvalid hsettles (⟨given, hmem, hinvalid⟩ | herror)
    · exact hinvalid (hvalid given (hp.mem_iff.mp hmem))
    · exact hne (hsettles.unique (herror.perm hp))
  rcases processOptions_cases hparser other operands with ⟨s, hs, hwhy⟩ | ⟨s, hs, hv, hm, hne, hse, hcl⟩
  · rcases processOptions_cases hparser options operands with ⟨t, ht, -⟩ | ⟨t, -, hv, hm, hne, -⟩
    · rw [hs, ht]
      rfl
    · exact absurd hwhy (hrefused h t.mode hne hv hm)
  · rcases processOptions_cases hparser options operands with ⟨t, -, hwhy⟩ | ⟨t, ht, -, hm', -, hse', hcl'⟩
    · exact absurd hwhy (hrefused h.symm s.mode hne hv hm)
    · rw [hs, ht]
      refine processOperands_congr ((hm.perm h).unique hm') ?_ ?_ operands
      · rw [Bool.eq_iff_iff, hse, hse']
        simp only [h.mem_iff]
      · rw [Bool.eq_iff_iff, hcl, hcl']
        simp only [h.mem_iff]

/-- The assertions on the active flags, and what they leave of them. -/
theorem processOperands_monitorChild {s : OptionState} (h : s.mode = .monitorChild)
    (operands : List String) :
    ((processOperands s operands).rc = .abort ↔
      ¬ (s.gOptions.mServer.mActive ∧ ¬ s.gOptions.mClient.mActive)) ∧
      (processOperands s operands).self.state.gOptions = s.gOptions := by
  unfold processOperands
  simp only [h]
  split_ifs with hactive
  · simp [hactive]
  · simp [hactive]
  · exact ⟨iff_of_true rfl hactive, rfl⟩

theorem processOperands_runCommand {s : OptionState} (h : s.mode = .runCommand)
    (operands : List String) :
    ((processOperands s operands).rc = .abort ↔
      ¬ (s.gOptions.mClient.mActive ∧ ¬ s.gOptions.mServer.mActive)) ∧
      (processOperands s operands).self.state.gOptions.mServer = s.gOptions.mServer ∧
      (processOperands s operands).self.state.gOptions.mClient.mActive =
        s.gOptions.mClient.mActive := by
  unfold processOperands
  simp only [h]
  split_ifs with hactive
  · cases operands with
    | nil => simp [hactive]
    | cons mPidFile operands =>
      dsimp only
      split_ifs <;> simp [hactive]
  · exact ⟨iff_of_true rfl hactive, rfl, rfl⟩

section

variable {rc : Rc} {active idle : Bool} {P : Prop}

theorem active_of_settled (habort : rc = .abort ↔ ¬ (active ∧ ¬ idle))
    (h : rc = .error ∨ rc = .ok ∧ P) : active := by
  by_contra hoff
  have hrc := habort.mpr fun h => hoff h.1
  rw [hrc] at h
  rcases h with he | ⟨he, -⟩ <;> cases he

theorem settled_of_active (habort : rc = .abort ↔ ¬ (active ∧ ¬ idle)) (hactive : active)
    (hidle : ¬ idle) (h : P) : rc = .error ∨ rc = .ok ∧ P := by
  have hrc : rc ≠ .abort := fun h => habort.mp h ⟨hactive, hidle⟩
  cases rc with
  | abort => exact absurd rfl hrc
  | error => exact .inl rfl
  | ok => exact .inr ⟨rfl, h⟩

end

/-- The command line is refused or settled in one mode exactly when the mode that
its options ask for, if they ask for one only, is activated among them. -/
theorem processOptions_settlesMode_iff {parser : OptionParser} (hparser : parser.Lawful)
    (options : List GivenOption) (operands : List String) :
    SettlesMode parser options operands ↔ ActivatesMode parser options := by
  have hunordered : ∀ other : List GivenOption, other.Perm options →
      (processOptions parser other operands).rc = (processOptions parser options operands).rc :=
    fun other h => processOptions_unordered hparser h operands
  rcases processOptions_cases hparser options operands with
    ⟨s, hs, hwhy⟩ | ⟨s, hs, hvalid, hmode, hne, hserver, hclient⟩
  · refine iff_of_true ⟨.inl (by rw [hs]; rfl), hunordered⟩ ?_
    exact hwhy.elim (fun h => .inr (.inr (.inr h))) fun h => .inr (.inr (.inl h))
  · have hnot : ¬ ∃ given ∈ options, ¬ parser.Valid given.opt :=
      fun ⟨given, hmem, hinvalid⟩ => hinvalid (hvalid given hmem)
    have hs' : (∃ given ∈ options, given.opt = .server) → Requests options .monitorChild :=
      fun ⟨given, hmem, he⟩ => ⟨given, hmem, by rw [he]; rfl⟩
    have hc' : (∃ given ∈ options, given.opt = .client) → Requests options .runCommand :=
      fun ⟨given, hmem, he⟩ => ⟨given, hmem, by rw [he]; rfl⟩
    have hactive : (∃ given ∈ options, given.opt.activates) ↔
        s.gOptions.mServer.mActive ∨ s.gOptions.mClient.mActive := by
      rw [hserver, hclient]
      simp only [CommandOption.activates, and_or_left, exists_or]
    cases hm : s.mode with
    | error => exact absurd hm hne
    | unknown =>
      have hnone : OptionMode.unknown.Settles options := hm ▸ hmode
      refine iff_of_true ⟨.inl ?_, hunordered⟩ (.inr (.inl hnone))
      rw [hs]
      simp [processOperands, hm]
    | monitorChild =>
      obtain ⟨hmonitor, hrun⟩ : OptionMode.monitorChild.Settles options := hm ▸ hmode
      have hidle : ¬ s.gOptions.mClient.mActive := fun h => hrun (hc' (hclient.mp h))
      obtain ⟨habort, hkept⟩ := processOperands_monitorChild hm operands
      constructor
      · rintro ⟨hsettled, -⟩
        rw [hs] at hsettled
        exact .inl (hactive.mpr (.inl (active_of_settled habort hsettled)))
      · rintro (hany | ⟨hnone, -⟩ | ⟨-, hboth⟩ | hinvalid)
        · have hon := (hactive.mp hany).resolve_right hidle
          refine ⟨?_, hunordered⟩
          rw [hs, hkept]
          exact settled_of_active habort hon hidle (.inl ⟨hon, hidle, hrun⟩)
        · exact absurd hmonitor hnone
        · exact absurd hboth hrun
        · exact absurd hinvalid hnot
    | runCommand =>
      obtain ⟨hrun, hmonitor⟩ : OptionMode.runCommand.Settles options := hm ▸ hmode
      have hidle : ¬ s.gOptions.mServer.mActive := fun h => hmonitor (hs' (hserver.mp h))
      obtain ⟨habort, hkept, hkept'⟩ := processOperands_runCommand hm operands
      constructor
      · rintro ⟨hsettled, -⟩
        rw [hs] at hsettled
        exact .inl (hactive.mpr (.inr (active_of_settled habort hsettled)))
      · rintro (hany | ⟨-, hnone⟩ | ⟨hboth, -⟩ | hinvalid)
        · have hon := (hactive.mp hany).resolve_left hidle
          refine ⟨?_, hunordered⟩
          rw [hs]
          dsimp only
          rw [hkept, hkept']
          exact settled_of_active habort hon hidle (.inr ⟨hon, hidle, hmonitor⟩)
        · exact absurd hrun hnone
        · exact absurd hboth hmonitor
        · exact absurd hinvalid hnot

def parseDigits (digits : List Char) : Option Nat :=
  if digits ≠ [] ∧ digits.all Char.isDigit then
    some (digits.foldl (fun value digit => 10 * value + (digit.toNat - '0'.toNat)) 0)
  else none

/-- Decimal numbers, lists separated by commas, and no mode but the default one. -/
def OptionParser.decimal : OptionParser where
  parseArgListCSV optarg := some ((optarg.toList.splitOnP (· = ',')).map String.ofList)
  parseUInt optarg := parseDigits optarg.toList
  parseInt optarg :=
    match optarg.toList with
    | '-' :: digits => (parseDigits digits).map fun value => -value
    | digits => (parseDigits digits).map Int.ofNat
  parseMode _ _ optarg := if optarg = DEFAULT_PIDFILE_MODE then some 0o400 else none
  fetchProcessUmask := some 0o22

/-- An option of the server without `-s` ends in a failed assertion. -/
theorem processOptions_announce_aborts :
    ¬ ∀ parser : OptionParser, parser.Lawful → ∀ options operands,
      SettlesMode parser options operands := by
  intro h
  have hrc : (processOptions .decimal [⟨.announce, false⟩] ["cmd"]).rc = .abort := by decide
  have hsettled := (h .decimal ⟨rfl, rfl⟩ [⟨.announce, false⟩] ["cmd"]).settled
  rw [hrc] at hsettled
  rcases hsettled with he | ⟨he, -⟩ <;> cases he

theorem processOptions_settlesMode_server :
    SettlesMode .decimal [⟨.announce, false⟩, ⟨.server, false⟩] ["cmd"] :=
  have hlawful : OptionParser.Lawful .decimal := ⟨rfl, rfl⟩
  (processOptions_settlesMode_iff hlawful _ _).mpr (.inl ⟨⟨.server, false⟩, by decide, by decide⟩)

/-- The numbers that `ert_parseUInt` takes: unsigned decimals that fit its type. -/
def unsignedDecimal (field : String) : Option Nat :=
  (parseDigits field.toList).filter fun value => value.ble 4294967295

def commaSeparated (aArg : String) : List String :=
  (aArg.toList.splitOnP (· = ',')).map String.ofList

/-- How libert takes a list apart and reads the numbers in it. -/
structure OptionParser.ReadsLists (parser : OptionParser) : Prop where
  parseArgListCSV : ∀ aArg, parser.parseArgListCSV aArg = some (commaSeparated aArg)
  parseUInt : ∀ field, parser.parseUInt field = unsignedDecimal field

/-- A field that leaves its timeout unchanged, or gives a new one; there is no
delay of zero between signals. -/
def TimeoutField (position : Nat) (field : String) : Prop :=
  field = "" ∨ ∃ value, unsignedDecimal field = some value ∧ (position = 2 → value ≠ 0)

/-- The timeout lists of the usage message. -/
def TimeoutList (fields : List String) : Prop :=
  1 ≤ fields.length ∧ fields.length ≤ 4 ∧
    ∀ position field, fields[position]? = some field → TimeoutField position field

/-- The timeout at a position, which is unchanged where no field gives one. -/
def givenTimeout (fields : List String) (position unchanged : Nat) : Nat :=
  (fields[position]?.bind unsignedDecimal).getD unchanged

def Timeout.updated (self : Timeout) (fields : List String) : Timeout where
  mTether_s := givenTimeout fields 0 self.mTether_s
  mUmbilical_s := givenTimeout fields 1 self.mUmbilical_s
  mSignal_s := givenTimeout fields 2 self.mSignal_s
  mDrain_s := givenTimeout fields 3 self.mDrain_s

/-- The list is processed as the usage message says. -/
structure ProcessesTimeouts (parser : OptionParser) (aArg : String) (mTimeout : Timeout) : Prop where
  accepts : TimeoutList (commaSeparated aArg) →
    processTimeoutOption parser aArg mTimeout = .ok (mTimeout.updated (commaSeparated aArg))
  rejects : ¬ TimeoutList (commaSeparated aArg) →
    (processTimeoutOption parser aArg mTimeout).isOk = false

namespace OptionParser.ReadsLists

variable {parser : OptionParser} (h : parser.ReadsLists)

include h

theorem parseLaterTimeout_eq {field : Option String} {self next : Timeout} {store : Nat → Timeout}
    (hnext : parseLaterTimeout parser field self store = .ok next) :
    next = (field.bind unsignedDecimal).elim self store := by
  cases field with
  | none => exact (Except.ok.inj hnext).symm
  | some field =>
    by_cases hfield : field = ""
    · subst hfield
      exact (Except.ok.inj hnext).symm
    · simp only [parseLaterTimeout, hfield, ne_eq, not_false_eq_true, if_true, parseTimeout,
        h.parseUInt] at hnext
      cases hvalue : unsignedDecimal field with
      | none => simp [hvalue] at hnext
      | some value =>
        rw [hvalue] at hnext
        simpa [hvalue] using (Except.ok.inj hnext).symm

theorem parseSignalPeriod_eq {field : Option String} {self next : Timeout}
    (hnext : parseSignalPeriod parser field self = .ok next) :
    next = (field.bind unsignedDecimal).elim self fun value => { self with mSignal_s := value } := by
  obtain ⟨stored, hstored, hrest⟩ := bind_ok hnext
  rw [← h.parseLaterTimeout_eq hstored]
  cases field with
  | none => exact (Except.ok.inj hrest).symm
  | some field =>
    dsimp only at hrest
    split_ifs at hrest
    exact (Except.ok.inj hrest).symm

theorem processTimeoutOption_eq {aArg : String} {self next : Timeout}
    (hnext : processTimeoutOption parser aArg self = .ok next) :
    next = self.updated (commaSeparated aArg) := by
  unfold processTimeoutOption at hnext
  rw [h.parseArgListCSV] at hnext
  cases hfields : commaSeparated aArg with
  | nil => simp [hfields] at hnext
  | cons tether later =>
    simp only [hfields] at hnext
    split_ifs at hnext
    obtain ⟨self₁, htether, hnext⟩ := bind_ok hnext
    obtain ⟨self₂, humbilical, hnext⟩ := bind_ok hnext
    obtain ⟨self₃, hsignal, hdrain⟩ := bind_ok hnext
    have hvalue : self₁ = { self with mTether_s := givenTimeout (tether :: later) 0 self.mTether_s } := by
      unfold parseTimeout at htether
      rw [h.parseUInt] at htether
      cases hparse : unsignedDecimal tether with
      | none => simp [hparse] at htether
      | some value =>
        rw [hparse] at htether
        simpa [givenTimeout, hparse] using (Except.ok.inj htether).symm
    rw [h.parseLaterTimeout_eq hdrain, h.parseSignalPeriod_eq hsignal,
      h.parseLaterTimeout_eq humbilical, hvalue]
    simp only [Timeout.updated, givenTimeout, List.getElem?_cons_succ]
    cases later[0]?.bind unsignedDecimal <;> cases later[1]?.bind unsignedDecimal <;>
      cases later[2]?.bind unsignedDecimal <;> rfl

theorem acceptsLater_iff {field : Option String} {holds : Nat → Bool} :
    acceptsLater parser field holds = true ↔ ∀ f, field = some f →
      f = "" ∨ ∃ value, unsignedDecimal f = some value ∧ holds value = true := by
  cases field with
  | none => simp [acceptsLater]
  | some f => simp [acceptsLater, h.parseUInt, Option.any_eq_true]

/-- The first field of a list is the one that has to be given. -/
theorem acceptsTimeouts_iff (aArg : String) : acceptsTimeouts parser aArg = true ↔
    TimeoutList (commaSeparated aArg) ∧ (commaSeparated aArg).head? ≠ some "" := by
  unfold acceptsTimeouts
  rw [h.parseArgListCSV]
  cases commaSeparated aArg with
  | nil => simp [TimeoutList]
  | cons tether later =>
    have hempty : unsignedDecimal "" = none := rfl
    simp only [Bool.and_eq_true, decide_eq_true_eq, h.acceptsLater_iff, h.parseUInt, and_assoc]
    constructor
    · rintro ⟨hlength, htether, humbilical, hsignal, hdrain⟩
      obtain ⟨value, hvalue⟩ := Option.isSome_iff_exists.mp htether
      refine ⟨⟨by simp, by simp; omega, fun position field hfield => ?_⟩, fun hhead => ?_⟩
      · rcases position with _ | _ | _ | _ | position
        · obtain rfl := Option.some.inj hfield
          exact .inr ⟨value, hvalue, fun he => absurd he (by decide)⟩
        · rcases humbilical field hfield with he | ⟨v, hv, -⟩
          · exact .inl he
          · exact .inr ⟨v, hv, fun he => absurd he (by decide)⟩
        · rcases hsignal field hfield with he | ⟨v, hv, hpos⟩
          · exact .inl he
          · exact .inr ⟨v, hv, fun _ => hpos⟩
        · rcases hdrain field hfield with he | ⟨v, hv, -⟩
          · exact .inl he
          · exact .inr ⟨v, hv, fun he => absurd he (by decide)⟩
        · have hlt := (List.getElem?_eq_some_iff.mp hfield).1
          simp only [List.length_cons] at hlt
          omega
      · rw [Option.some.inj hhead, hempty] at hvalue
        cases hvalue
    · rintro ⟨⟨-, hlength, hfields⟩, hhead⟩
      have hlater : ∀ position field, later[position]? = some field →
          TimeoutField (position + 1) field := fun position field hfield =>
        hfields (position + 1) field hfield
      refine ⟨Nat.lt_of_succ_le hlength, ?_, fun field hfield => ?_, fun field hfield => ?_,
        fun field hfield => ?_⟩
      · have hne : tether ≠ "" := fun he => hhead (by rw [he, List.head?_cons])
        obtain ⟨value, hvalue, -⟩ := (hfields 0 tether rfl).resolve_left hne
        rw [hvalue]
        rfl
      · rcases hlater 0 field hfield with he | ⟨v, hv, -⟩
        · exact .inl he
        · exact .inr ⟨v, hv, trivial⟩
      · rcases hlater 1 field hfield with he | ⟨v, hv, hpos⟩
        · exact .inl he
        · exact .inr ⟨v, hv, by simpa using hpos⟩
      · rcases hlater 2 field hfield with he | ⟨v, hv, -⟩
        · exact .inl he
        · exact .inr ⟨v, hv, trivial⟩

end OptionParser.ReadsLists

/-- A list is processed as the usage message says exactly if its first field is
not empty, or it is no timeout list anyway. -/
theorem processesTimeouts_iff {parser : OptionParser} (h : parser.ReadsLists) (aArg : String)
    (self : Timeout) : ProcessesTimeouts parser aArg self ↔
      (TimeoutList (commaSeparated aArg) → (commaSeparated aArg).head? ≠ some "") := by
  have hok := processTimeoutOption_isOk parser aArg self
  constructor
  · intro hprocesses hlist
    rw [hprocesses.accepts hlist] at hok
    exact ((h.acceptsTimeouts_iff aArg).mp hok.symm).2
  · intro hhead
    refine ⟨fun hlist => ?_, fun hlist => ?_⟩
    · rw [(h.acceptsTimeouts_iff aArg).mpr ⟨hlist, hhead hlist⟩] at hok
      cases hresult : processTimeoutOption parser aArg self with
      | error failed =>
        rw [hresult] at hok
        cases hok
      | ok next => rw [h.processTimeoutOption_eq hresult]
    · rw [hok]
      exact Bool.eq_false_iff.mpr fun haccepts => hlist ((h.acceptsTimeouts_iff aArg).mp haccepts).1

def OptionParser.unsigned : OptionParser :=
  { OptionParser.decimal with parseUInt := unsignedDecimal }

theorem OptionParser.unsigned_readsLists : OptionParser.ReadsLists .unsigned :=
  ⟨fun _ => rfl, fun _ => rfl⟩

/-- Only the timeout of the umbilical is given. -/
theorem processTimeoutOption_rejects_unchanged :
    ¬ ∀ (parser : OptionParser), parser.ReadsLists → ∀ aArg self,
      ProcessesTimeouts parser aArg self := by
  intro h
  have hlist : TimeoutList (commaSeparated ",5") := by
    have hfields : commaSeparated ",5" = ["", "5"] := by decide
    rw [hfields]
    refine ⟨by decide, by decide, fun position field hfield => ?_⟩
    rcases position with _ | _ | position
    · exact .inl (Option.some.inj hfield).symm
    · obtain rfl := Option.some.inj hfield
      exact .inr ⟨5, by decide, by decide⟩
    · cases hfield
  have hh := (h .unsigned OptionParser.unsigned_readsLists ",5" ⟨30, 30, 30, 30⟩).accepts hlist
  have hok : (processTimeoutOption .unsigned ",5" ⟨30, 30, 30, 30⟩).isOk = false := by decide
  rw [hh] at hok
  cases hok

theorem processesTimeouts_drain : ProcessesTimeouts .unsigned "10,,,5" ⟨30, 30, 30, 30⟩ :=
  (processesTimeouts_iff OptionParser.unsigned_readsLists "10,,,5" ⟨30, 30, 30, 30⟩).mpr
    fun _ => by decide

end PidSentry
