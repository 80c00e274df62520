import PidSentry.BellSync
import PidSentry.DescriptorTable
import PidSentry.Options
import PidSentry.TetherNaming

/-! The descriptor of the tether: what `runChildProcess_` (childprocess.c) does to
the descriptors of the child on its way to the program. -/

namespace PidSentry

structure SocketPair where
  mParentSocket : Nat
  mChildSocket : Nat
  deriving DecidableEq, Repr

structure Pipe where
  mRdFile : Nat
  mWrFile : Nat
  deriving DecidableEq, Repr

inductive ChildFile (φ : Type)
  | umbilicalParent
  | umbilicalChild
  | tetherReader
  | tetherWriter
  | syncParent
  | syncChild
  | inherited (file : φ)
  deriving DecidableEq, Repr

/-- The numbers of the descriptors that `createSentry` has opened. -/
structure ForkChildProcess where
  mTetherPipe : Pipe
  mSyncSocket : SocketPair
  mUmbilicalSocket : SocketPair
  deriving DecidableEq, Repr

def ForkChildProcess.numbers (self : ForkChildProcess) : List Nat :=
  [self.mUmbilicalSocket.mParentSocket, self.mUmbilicalSocket.mChildSocket,
    self.mTetherPipe.mRdFile, self.mTetherPipe.mWrFile,
    self.mSyncSocket.mParentSocket, self.mSyncSocket.mChildSocket]

/-- A child right after the fork; all that it has open besides is inherited. -/
structure ForkedChild (φ : Type) extends ForkChildProcess where
  inherited : DescriptorTable φ
  limit : Nat
  distinct : toForkChildProcess.numbers.Nodup
  lt_limit : ∀ fd ∈ toForkChildProcess.numbers, fd < limit

/-- Why the child does not get to its program. -/
inductive ChildFailure
  /-- The sentry is gone, or a call has failed. -/
  | exits
  | naming (error : NamingError)
  /-- A bell is expected on something else than the sync socket. -/
  | astray
  /-- `ert_ensure` of the sync socket's close-on-exec flag -/
  | ensure
  deriving DecidableEq, Repr

/-- How the calls on the child's bell end. -/
structure ChildBells where
  wait : BellResult
  ring : BellResult
  waitAgain : BellResult
  deriving DecidableEq, Repr

/-- `*gOptions.mServer.mTether`, unless the pointer is null -/
def Options.Server.tether (self : Options.Server) : Option Int :=
  if self.mTether then some self.mTetherFd else none

theorem bind_error {ε α β : Type} {e : Except ε α} {f : α → Except ε β} {error : ε}
    (h : e >>= f = .error error) :
    e = .error error ∨ ∃ value, e = .ok value ∧ f value = .error error := by
  cases e with
  | error failure =>
    cases h
    exact .inl rfl
  | ok value => exact .inr ⟨value, rfl, h⟩

namespace ForkedChild

variable {φ : Type} (self : ForkedChild φ)

/-- Of what `createSentry` opens only the writer of the tether outlasts `exec`. -/
def table : DescriptorTable (ChildFile φ) :=
  (self.inherited.map .inherited)
    |>.place self.mUmbilicalSocket.mParentSocket ⟨.umbilicalParent, true⟩
    |>.place self.mUmbilicalSocket.mChildSocket ⟨.umbilicalChild, true⟩
    |>.place self.mTetherPipe.mRdFile ⟨.tetherReader, true⟩
    |>.place self.mTetherPipe.mWrFile ⟨.tetherWriter, false⟩
    |>.place self.mSyncSocket.mParentSocket ⟨.syncParent, true⟩
    |>.place self.mSyncSocket.mChildSocket ⟨.syncChild, true⟩

/-- With the umbilical and the parent's end of the sync socket closed. -/
def synchronising : DescriptorTable (ChildFile φ) :=
  self.table
    |>.close self.mUmbilicalSocket.mParentSocket
    |>.close self.mUmbilicalSocket.mChildSocket
    |>.close self.mSyncSocket.mParentSocket

def tetherFd (mTetherFd : Int) : Nat :=
  if 0 > mTetherFd then self.mTetherPipe.mWrFile else mTetherFd.toNat

/-- The flag of a duplicate is up to `ert_duplicateFd`. -/
def putTether (flag : Bool → Bool) (mTether : Option Int) :
    Except ChildFailure (DescriptorTable (ChildFile φ)) :=
  let table := self.synchronising.close self.mTetherPipe.mRdFile
  match mTether with
  | none => .ok (table.close self.mTetherPipe.mWrFile)
  | some mTetherFd =>
    if self.tetherFd mTetherFd = self.mTetherPipe.mWrFile then .ok table
    else
      match table.duplicate self.limit flag self.mTetherPipe.mWrFile (self.tetherFd mTetherFd) with
      | some table => .ok (table.close self.mTetherPipe.mWrFile)
      | none => .error .exits

def giveName (mTether : Option Int) (mName : Option CString) (cmd : List CString) :
    Except ChildFailure (Option (CString × CString) × List CString) :=
  match mTether with
  | none => .ok (none, cmd)
  | some mTetherFd => (nameTether mName (self.tetherFd mTetherFd) cmd).mapError .naming

/-- A call on the child's end of the sync socket. -/
def useBell (table : DescriptorTable (ChildFile φ)) (result : BellResult) :
    Except ChildFailure Unit :=
  match table self.mSyncSocket.mChildSocket with
  | some ⟨.syncChild, _⟩ => if result = .ok then .ok () else .error .exits
  | _ => .error .astray

def ensureCloseOnExec (table : DescriptorTable (ChildFile φ)) : Except ChildFailure Unit :=
  if table.closesOnExec self.mSyncSocket.mChildSocket then .ok () else .error .ensure

/-- What `execShellCommand` is called with, and the descriptors at that time. -/
def runChildProcess (flag : Bool → Bool) (mTether : Option Int) (mName : Option CString)
    (cmd : List CString) (bells : ChildBells) :
    Except ChildFailure
      (Option (CString × CString) × ShellCommand × DescriptorTable (ChildFile φ)) := do
  self.useBell self.synchronising bells.wait
  self.useBell self.synchronising bells.ring
  let (env, cmd) ← self.giveName mTether mName cmd
  let table ← self.putTether flag mTether
  let shellCommand ← (createShellCommand cmd).mapError fun error => .naming (.command error)
  self.useBell table bells.waitAgain
  self.ensureCloseOnExec table
  return (env, shellCommand, table)

/-- The descriptors in each phase; those of a phase of work are from before it. -/
def tableIn (flag : Bool → Bool) (mTether : Option Int) :
    ChildPhase → Except ChildFailure (DescriptorTable (ChildFile φ))
  | .starting => .ok self.table
  | .waiting | .ringing | .preparing => .ok self.synchronising
  | .waitingAgain | .executing => self.putTether flag mTether
  | .running => (self.putTether flag mTether).map (·.exec)
  | .exited => .ok fun _ => none

/-- The sync socket is as it was with the tether in its place, and the child and
the sentry can rely on it until the program runs. -/
structure SyncSurvives (child : ForkedChild φ) (flag : Bool → Bool) (mTether : Option Int) :
    Prop where
  refers : ∀ table, child.putTether flag mTether = .ok table →
    table child.mSyncSocket.mChildSocket = some ⟨.syncChild, true⟩
  waits : ∀ mName cmd bells,
    child.runChildProcess flag mTether mName cmd bells ≠ .error .astray ∧
      child.runChildProcess flag mTether mName cmd bells ≠ .error .ensure
  held : ∀ phase table, child.tableIn flag mTether phase = .ok table →
    (table.Holds .syncChild ↔ phase.holdsChild = true)

theorem syncChild_ne : self.mSyncSocket.mChildSocket ≠ self.mUmbilicalSocket.mParentSocket ∧
    self.mSyncSocket.mChildSocket ≠ self.mUmbilicalSocket.mChildSocket ∧
    self.mSyncSocket.mChildSocket ≠ self.mTetherPipe.mRdFile ∧
    self.mSyncSocket.mChildSocket ≠ self.mTetherPipe.mWrFile ∧
    self.mSyncSocket.mChildSocket ≠ self.mSyncSocket.mParentSocket := by
  have h := self.distinct
  simp only [ForkChildProcess.numbers, List.nodup_cons, List.mem_cons, List.not_mem_nil] at h
  omega

theorem tetherWriter_ne : self.mTetherPipe.mWrFile ≠ self.mUmbilicalSocket.mParentSocket ∧
    self.mTetherPipe.mWrFile ≠ self.mUmbilicalSocket.mChildSocket ∧
    self.mTetherPipe.mWrFile ≠ self.mTetherPipe.mRdFile ∧
    self.mTetherPipe.mWrFile ≠ self.mSyncSocket.mParentSocket := by
  have h := self.distinct
  simp only [ForkChildProcess.numbers, List.nodup_cons, List.mem_cons, List.not_mem_nil] at h
  omega

theorem table_syncChild :
    self.table self.mSyncSocket.mChildSocket = some ⟨.syncChild, true⟩ := by
  simp [table]

theorem synchronising_syncChild :
    self.synchronising self.mSyncSocket.mChildSocket = some ⟨.syncChild, true⟩ := by
  obtain ⟨hp, hc, -, -, hs⟩ := self.syncChild_ne
  rw [synchronising, DescriptorTable.close_of_ne hs, DescriptorTable.close_of_ne hc,
    DescriptorTable.close_of_ne hp, table_syncChild]

theorem synchronising_tetherWriter :
    self.synchronising self.mTetherPipe.mWrFile = some ⟨.tetherWriter, false⟩ := by
  obtain ⟨hp, hc, -, hs⟩ := self.tetherWriter_ne
  obtain ⟨-, -, -, hw, -⟩ := self.syncChild_ne
  rw [synchronising, DescriptorTable.close_of_ne hs, DescriptorTable.close_of_ne hc,
    DescriptorTable.close_of_ne hp, table, DescriptorTable.place_of_ne (Ne.symm hw),
    DescriptorTable.place_of_ne hs, DescriptorTable.place_self]

theorem table_sole : self.table.Sole .syncChild self.mSyncSocket.mChildSocket := by
  unfold table
  refine .place (.place (.place (.place (.place (.place (.map _ nofun _) ?_) ?_) ?_) ?_) ?_) ?_
  all_goals
    intro h
    first | rfl | cases h

theorem synchronising_sole : self.synchronising.Sole .syncChild self.mSyncSocket.mChildSocket :=
  self.table_sole |>.close _ |>.close _ |>.close _

variable {self} {flag : Bool → Bool} {mTether : Option Int} {table : DescriptorTable (ChildFile φ)}

/-- The writer, where it is not left in its place, is duplicated and then closed. -/
theorem putTether_cases (h : self.putTether flag mTether = .ok table) :
    table = (self.synchronising.close self.mTetherPipe.mRdFile) ∨
    mTether = none ∧
      table = (self.synchronising.close self.mTetherPipe.mRdFile).close self.mTetherPipe.mWrFile ∨
    ∃ mTetherFd duplicated, mTether = some mTetherFd ∧
      self.tetherFd mTetherFd ≠ self.mTetherPipe.mWrFile ∧
      (self.synchronising.close self.mTetherPipe.mRdFile).duplicate self.limit flag
        self.mTetherPipe.mWrFile (self.tetherFd mTetherFd) = some duplicated ∧
      table = duplicated.close self.mTetherPipe.mWrFile := by
  unfold putTether at h
  cases mTether with
  | none => exact .inr (.inl ⟨rfl, (Except.ok.inj h).symm⟩)
  | some mTetherFd =>
    dsimp only at h
    split_ifs at h with hsame
    · exact .inl (Except.ok.inj h).symm
    · cases hdup : (self.synchronising.close self.mTetherPipe.mRdFile).duplicate self.limit flag
          self.mTetherPipe.mWrFile (self.tetherFd mTetherFd) with
      | none =>
        rw [hdup] at h
        cases h
      | some duplicated =>
        rw [hdup] at h
        exact .inr (.inr ⟨mTetherFd, duplicated, rfl, hsame, hdup, (Except.ok.inj h).symm⟩)

theorem tetherFd_eq_syncChild {mTetherFd : Int}
    (h : self.tetherFd mTetherFd = self.mSyncSocket.mChildSocket) :
    mTetherFd = self.mSyncSocket.mChildSocket := by
  have hne := self.syncChild_ne
  unfold tetherFd at h
  split_ifs at h <;> omega

/-- Put anywhere else, the tether leaves the sync socket alone. -/
theorem putTether_syncChild (h : self.putTether flag mTether = .ok table)
    (hne : mTether ≠ some (self.mSyncSocket.mChildSocket : Int)) :
    table self.mSyncSocket.mChildSocket = some ⟨.syncChild, true⟩ := by
  obtain ⟨-, -, hr, hw, -⟩ := self.syncChild_ne
  have hbefore : self.synchronising.close self.mTetherPipe.mRdFile self.mSyncSocket.mChildSocket =
      some ⟨.syncChild, true⟩ := by
    rw [DescriptorTable.close_of_ne hr, synchronising_syncChild]
  rcases putTether_cases h with rfl | ⟨-, rfl⟩ | ⟨mTetherFd, duplicated, rfl, -, hdup, rfl⟩
  · exact hbefore
  · rw [DescriptorTable.close_of_ne hw, hbefore]
  · have hfd : self.mSyncSocket.mChildSocket ≠ self.tetherFd mTetherFd := fun he =>
      hne (by rw [tetherFd_eq_syncChild he.symm])
    rw [DescriptorTable.close_of_ne hw, DescriptorTable.duplicate_of_ne hdup hfd, hbefore]

theorem putTether_sole (h : self.putTether flag mTether = .ok table) :
    table.Sole .syncChild self.mSyncSocket.mChildSocket := by
  obtain ⟨-, -, -, hw, -⟩ := self.syncChild_ne
  have hbefore := self.synchronising_sole.close self.mTetherPipe.mRdFile
  rcases putTether_cases h with rfl | ⟨-, rfl⟩ | ⟨mTetherFd, duplicated, -, -, hdup, rfl⟩
  · exact hbefore
  · exact hbefore.close _
  · exact (hbefore.duplicate (Ne.symm hw) hdup).close _

/-- Put on the number of the sync socket, the tether takes its place. -/
theorem putTether_displaces (self : ForkedChild φ) (flag : Bool → Bool) :
    ∃ table, self.putTether flag (some (self.mSyncSocket.mChildSocket : Int)) = .ok table ∧
      table self.mSyncSocket.mChildSocket = some ⟨.tetherWriter, flag false⟩ ∧
      ¬ table.Holds .syncChild := by
  obtain ⟨-, -, -, hw, -⟩ := self.syncChild_ne
  obtain ⟨-, -, hr, -⟩ := self.tetherWriter_ne
  have hfd : self.tetherFd self.mSyncSocket.mChildSocket = self.mSyncSocket.mChildSocket := by
    simp [tetherFd]
  have hlimit := self.lt_limit self.mSyncSocket.mChildSocket (by simp [ForkChildProcess.numbers])
  have hwriter : self.synchronising.close self.mTetherPipe.mRdFile self.mTetherPipe.mWrFile =
      some ⟨.tetherWriter, false⟩ := by
    rw [DescriptorTable.close_of_ne hr, synchronising_tetherWriter]
  obtain ⟨table, htable⟩ : ∃ table, table = ((self.synchronising.close
      self.mTetherPipe.mRdFile).place self.mSyncSocket.mChildSocket
      ⟨.tetherWriter, flag false⟩).close self.mTetherPipe.mWrFile := ⟨_, rfl⟩
  have hput : self.putTether flag (some (self.mSyncSocket.mChildSocket : Int)) = .ok table := by
    simp only [putTether, hfd, if_neg hw, DescriptorTable.duplicate_eq_place hwriter hw hlimit, htable]
  have htether : table self.mSyncSocket.mChildSocket = some ⟨.tetherWriter, flag false⟩ := by
    rw [htable, DescriptorTable.close_of_ne hw, DescriptorTable.place_self]
  refine ⟨table, hput, htether, fun hheld => ?_⟩
  obtain ⟨closeOnExec, hsync⟩ := (putTether_sole hput).holds_iff.mp hheld
  cases hsync.symm.trans htether

section runChildProcess

variable {mName : Option CString} {cmd : List CString} {bells : ChildBells} {error : ChildFailure}

theorem useBell_error {result : BellResult}
    (htable : table self.mSyncSocket.mChildSocket = some ⟨.syncChild, true⟩)
    (h : self.useBell table result = .error error) : error = .exits := by
  simp only [useBell, htable] at h
  split_ifs at h
  exact (Except.error.inj h).symm

theorem giveName_error (h : self.giveName mTether mName cmd = .error error) :
    ∃ naming, error = .naming naming := by
  unfold giveName at h
  cases mTether with
  | none => cases h
  | some mTetherFd =>
    dsimp only at h
    cases hname : nameTether mName (self.tetherFd mTetherFd) cmd with
    | ok named =>
      rw [hname] at h
      cases h
    | error naming =>
      rw [hname] at h
      exact ⟨naming, (Except.error.inj h).symm⟩

theorem putTether_error (h : self.putTether flag mTether = .error error) : error = .exits := by
  unfold putTether at h
  cases mTether with
  | none => cases h
  | some mTetherFd =>
    dsimp only at h
    split_ifs at h
    split at h
    · cases h
    · exact (Except.error.inj h).symm

/-- With its end of the sync socket the child stops for the sentry and its own
calls alone. -/
theorem runChildProcess_error
    (hrefers : ∀ table, self.putTether flag mTether = .ok table →
      table self.mSyncSocket.mChildSocket = some ⟨.syncChild, true⟩)
    (h : self.runChildProcess flag mTether mName cmd bells = .error error) :
    error = .exits ∨ ∃ naming, error = .naming naming := by
  rcases bind_error h with h | ⟨-, -, h⟩
  · exact .inl (useBell_error self.synchronising_syncChild h)
  rcases bind_error h with h | ⟨-, -, h⟩
  · exact .inl (useBell_error self.synchronising_syncChild h)
  rcases bind_error h with h | ⟨⟨env, named⟩, -, h⟩
  · exact .inr (giveName_error h)
  rcases bind_error h with h | ⟨table, htable, h⟩
  · exact .inl (putTether_error h)
  have hsync := hrefers table htable
  rcases bind_error h with h | ⟨shellCommand, -, h⟩
  · cases hcmd : createShellCommand named with
    | ok shellCommand =>
      rw [hcmd] at h
      cases h
    | error naming =>
      rw [hcmd] at h
      exact .inr ⟨.command naming, (Except.error.inj h).symm⟩
  rcases bind_error h with h | ⟨-, -, h⟩
  · exact .inl (useBell_error hsync h)
  rcases bind_error h with h | ⟨-, -, h⟩
  · rw [ensureCloseOnExec, DescriptorTable.closesOnExec_of_eq hsync] at h
    cases h
  · cases h

theorem runChildProcess_ok {env : Option (CString × CString)} {shellCommand : ShellCommand}
    (h : self.runChildProcess flag mTether mName cmd bells = .ok (env, shellCommand, table)) :
    self.putTether flag mTether = .ok table ∧
      ∃ closeOnExec, table self.mSyncSocket.mChildSocket = some ⟨.syncChild, closeOnExec⟩ := by
  obtain ⟨-, -, h⟩ := bind_ok h
  obtain ⟨-, -, h⟩ := bind_ok h
  obtain ⟨named, -, h⟩ := bind_ok h
  obtain ⟨before, htable, h⟩ := bind_ok h
  obtain ⟨prepared, -, h⟩ := bind_ok h
  obtain ⟨_, hbell, h⟩ := bind_ok h
  obtain ⟨-, -, h⟩ := bind_ok h
  cases h
  refine ⟨htable, ?_⟩
  unfold useBell at hbell
  split at hbell
  · exact ⟨_, ‹_›⟩
  · cases hbell

/-- A child whose tether has taken the place of the sync socket never executes
its program. -/
theorem runChildProcess_displaced (self : ForkedChild φ) (flag : Bool → Bool)
    (mName : Option CString) (cmd : List CString) (bells : ChildBells)
    (prepared : Option (CString × CString) × ShellCommand × DescriptorTable (ChildFile φ)) :
    self.runChildProcess flag (some (self.mSyncSocket.mChildSocket : Int)) mName cmd bells ≠
      .ok prepared := by
  intro h
  obtain ⟨env, shellCommand, table⟩ := prepared
  obtain ⟨htable, closeOnExec, hsync⟩ := runChildProcess_ok h
  obtain ⟨displaced, hput, htether, -⟩ := self.putTether_displaces flag
  rw [Except.ok.inj (hput.symm.trans htable)] at htether
  cases hsync.symm.trans htether

end runChildProcess

theorem putTether_held (h : self.putTether flag mTether = .ok table)
    (hne : mTether ≠ some (self.mSyncSocket.mChildSocket : Int)) :
    table.Holds .syncChild ∧ ¬ table.exec.Holds .syncChild := by
  have hsync := putTether_syncChild h hne
  refine ⟨⟨_, true, hsync⟩, fun hheld => ?_⟩
  obtain ⟨closeOnExec, hexec⟩ := (putTether_sole h).exec.holds_iff.mp hheld
  obtain ⟨hbefore, hfalse⟩ := DescriptorTable.exec_eq_some_iff.mp hexec
  rw [hsync] at hbefore
  cases hbefore
  cases hfalse

theorem not_syncSurvives (self : ForkedChild φ) (flag : Bool → Bool) :
    ¬ self.SyncSurvives flag (some (self.mSyncSocket.mChildSocket : Int)) := by
  intro h
  obtain ⟨table, hput, htether, -⟩ := self.putTether_displaces flag
  cases (h.refers table hput).symm.trans htether

/-- The tether is kept off the sync socket exactly when another number is asked for. -/
theorem syncSurvives_iff (self : ForkedChild φ) (flag : Bool → Bool) (mTether : Option Int) :
    self.SyncSurvives flag mTether ↔ mTether ≠ some (self.mSyncSocket.mChildSocket : Int) := by
  constructor
  · rintro h rfl
    exact self.not_syncSurvives flag h
  · intro hne
    have hrefers : ∀ table, self.putTether flag mTether = .ok table →
        table self.mSyncSocket.mChildSocket = some ⟨.syncChild, true⟩ :=
      fun table h => putTether_syncChild h hne
    refine ⟨hrefers, fun mName cmd bells => ⟨fun h => ?_, fun h => ?_⟩, fun phase table h => ?_⟩
    · rcases runChildProcess_error hrefers h with he | ⟨naming, he⟩ <;> cases he
    · rcases runChildProcess_error hrefers h with he | ⟨naming, he⟩ <;> cases he
    · cases phase with
      | starting =>
        obtain rfl := Except.ok.inj h
        exact iff_of_true ⟨_, true, self.table_syncChild⟩ rfl
      | waiting | ringing | preparing =>
        obtain rfl := Except.ok.inj h
        exact iff_of_true ⟨_, true, self.synchronising_syncChild⟩ rfl
      | waitingAgain | executing => exact iff_of_true (putTether_held h hne).1 rfl
      | running =>
        cases hput : self.putTether flag mTether with
        | error error =>
          rw [tableIn, hput] at h
          cases h
        | ok before =>
          rw [tableIn, hput] at h
          obtain rfl := Except.ok.inj h
          exact iff_of_false (putTether_held hput hne).2 Bool.false_ne_true
      | exited =>
        obtain rfl := Except.ok.inj h
        refine iff_of_false ?_ Bool.false_ne_true
        rintro ⟨fd, closeOnExec, hfd⟩
        cases hfd

/-- With standard streams only, and everything else opened in turn. -/
def ofStreams : ForkedChild Unit where
  mTetherPipe := ⟨5, 6⟩
  mSyncSocket := ⟨7, 8⟩
  mUmbilicalSocket := ⟨3, 4⟩
  inherited := fun fd => if fd < 3 then some ⟨(), false⟩ else none
  limit := 1024
  distinct := by decide
  lt_limit := by decide

/-- The tether takes the number of the sync socket in `pidsentry -s --fd 8 -- cmd`. -/
theorem processOptions_not_syncSurvives :
    ¬ ∀ parser : OptionParser, parser.Lawful → ∀ options operands,
      (processOptions parser options operands).rc = .ok → ∀ (child : ForkedChild Unit) flag,
        child.SyncSurvives flag
          (processOptions parser options operands).self.state.gOptions.mServer.tether := by
  intro h
  have hrc : (processOptions .decimal [⟨.server, false⟩, ⟨.fd "8", true⟩] ["cmd"]).rc = .ok := by
    decide
  have htether : (processOptions .decimal [⟨.server, false⟩, ⟨.fd "8", true⟩]
      ["cmd"]).self.state.gOptions.mServer.tether = some 8 := by decide
  have hsurvives := h .decimal ⟨rfl, rfl⟩ _ _ hrc ofStreams id
  rw [htether] at hsurvives
  exact ofStreams.not_syncSurvives id hsurvives

end ForkedChild

end PidSentry
