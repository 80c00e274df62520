import PidSentry.ProcessTable
import PidSentry.SentryRun

/-! The sentry, its child, the umbilical process and the anchors that it leaves in the
process groups of both (umbilical.c), among all the other processes of the system. Any
of them can be killed at any time, and whoever is reaped gives its pid back. -/

namespace PidSentry

/-- What the fork of a process gave its parent: the pid, and the process itself. -/
structure Forked where
  pid : Pid
  self : Nat
  deriving DecidableEq, Repr

/-- The process groups that the umbilical process joins. -/
inductive Anchor
  | child
  | sentry
  deriving DecidableEq, Repr

/-- `ert_forkProcessChild` puts the process that it forks into a process group. -/
inductive UmbilicalCall
  | setOwnProcessGroup
  | forkProcess (anchor : Anchor)
  | setProcessGroup (anchor : Anchor)
  deriving DecidableEq, Repr

def postUmbilicalProcessChild : List UmbilicalCall :=
  [.forkProcess .child, .setProcessGroup .child, .forkProcess .sentry, .setProcessGroup .sentry]

/-- `child` is the child that `mChildProcess` is about, and `mPgid` the process group
that the umbilical process has from there, as its parent had it. -/
structure UmbilicalProcess where
  self : Forked
  child : Forked
  mPgid : Pid
  todo : List UmbilicalCall
  mChildAnchor : Option Forked
  mSentryAnchor : Option Forked
  deriving DecidableEq, Repr

namespace UmbilicalProcess

def anchor (u : UmbilicalProcess) : Anchor → Option Forked
  | .child => u.mChildAnchor
  | .sentry => u.mSentryAnchor

def setAnchor (u : UmbilicalProcess) (forked : Forked) : Anchor → UmbilicalProcess
  | .child => { u with mChildAnchor := some forked }
  | .sentry => { u with mSentryAnchor := some forked }

theorem anchor_setAnchor (u : UmbilicalProcess) (forked : Forked) (anchor other : Anchor) :
    (u.setAnchor forked anchor).anchor other = if other = anchor then some forked else u.anchor other := by
  cases anchor <;> cases other <;> rfl

@[simp] theorem setAnchor_self (u : UmbilicalProcess) (forked : Forked) (anchor : Anchor) :
    (u.setAnchor forked anchor).self = u.self := by
  cases anchor <;> rfl

@[simp] theorem setAnchor_child (u : UmbilicalProcess) (forked : Forked) (anchor : Anchor) :
    (u.setAnchor forked anchor).child = u.child := by
  cases anchor <;> rfl

@[simp] theorem setAnchor_mPgid (u : UmbilicalProcess) (forked : Forked) (anchor : Anchor) :
    (u.setAnchor forked anchor).mPgid = u.mPgid := by
  cases anchor <;> rfl

@[simp] theorem setAnchor_todo (u : UmbilicalProcess) (forked : Forked) (anchor : Anchor) :
    (u.setAnchor forked anchor).todo = u.todo := by
  cases anchor <;> rfl

end UmbilicalProcess

/-- `mSentryPgid` is the process group of the sentry, and `clan` that of its founder. -/
structure ProcessWorld where
  table : ProcessTable Pid
  sentry : Forked
  mSentryPgid : Pid
  clan : Nat
  run : SentryRun
  child : Option Forked
  umbilical : Option UmbilicalProcess
  deriving DecidableEq, Repr

/-- `forkChild` and `groupChild` are made in `ert_forkProcessChild`, `terminate` in
`monitorChildProcess`, `umbilical` in `postUmbilicalProcessChild_` and the signals of
the umbilical process at the end of `runUmbilicalProcessChild_`. -/
inductive ProcessEvent
  | sentry (event : SentryEvent)
  | forkChild (pid : Pid)
  | groupChild
  | terminate
  | forkUmbilical (pid : Pid)
  | umbilical (pid : Pid)
  | killChildProcessGroup
  | killSentryProcessGroup
  | other (act : ProcessAct Pid)
  deriving DecidableEq, Repr

namespace ProcessWorld

/-- Those of which only the sentry and the umbilical process dispose. -/
def household (s : ProcessWorld) : List Nat :=
  s.sentry.self :: match s.umbilical with
    | none => []
    | some u => u.self.self :: (u.mChildAnchor.toList ++ u.mSentryAnchor.toList).map Forked.self

def sentryAlive (s : ProcessWorld) : Prop := s.table.Alive s.sentry.self

instance (s : ProcessWorld) : Decidable s.sentryAlive :=
  inferInstanceAs (Decidable (s.table.Alive _))

/-- The next call of the sentry, if it is still there to make it. -/
def atCall (s : ProcessWorld) (call : SentryCall) : Prop :=
  s.sentryAlive ∧ s.run.stage ≠ .aborted ∧ s.run.todo.head? = some call

instance (s : ProcessWorld) (call : SentryCall) : Decidable (s.atCall call) :=
  inferInstanceAs (Decidable (_ ∧ _))

/-- A process can wait for its own children only. -/
def reapProcessChild (s : ProcessWorld) (pid : Pid) : Option (ProcessTable Pid) :=
  (s.table.entry pid).bind fun x =>
    if x.parent = some s.sentry.self then s.table.act (.reap pid) else none

/-- Whom a call of the sentry reaps. -/
def reaps (s : ProcessWorld) (call : SentryCall) : Option Pid :=
  if call = .reapProcessChild then some s.run.data.mPid
  else if call = .ifRecorded .reapProcessChild ∧ s.run.data.mChildProcess ∧ s.run.data.mPid ≠ 0 then
    some s.run.data.mPid
  else if call = .reapUmbilical then s.umbilical.map fun u => u.self.pid
  else none

/-- What a call of the sentry does to the processes, if it can return as it does:
`ert_forkProcessChild` returns once the child is in its process group and, for the
umbilical process, `postUmbilicalProcessChild_` has been run. -/
def callTable (s : ProcessWorld) (call : SentryCall) : CallResult → Option (ProcessTable Pid)
  | .forked pid => (s.table.entry pid).bind fun x =>
    if s.child = some ⟨pid, x.self⟩ ∧ x.parent = some s.sentry.self ∧ x.group = pid then some s.table
    else none
  | .ok =>
    if call = .createUmbilicalProcess ∧ s.umbilical.map UmbilicalProcess.todo ≠ some [] then none
    else match s.reaps call with
      | some pid => s.reapProcessChild pid
      | none => some s.table
  | .failed => some s.table

def pgid (s : ProcessWorld) (u : UmbilicalProcess) : Anchor → Pid
  | .child => u.mPgid
  | .sentry => s.mSentryPgid

/-- The others are left to themselves: they fork, move to other process groups, exit or
are killed, as any process can be, and are reaped by their parents or by init. -/
def permits (s : ProcessWorld) : ProcessAct Pid → Bool
  | .fork number _ | .setpgid number _ =>
    (s.table.entry number).all fun x => x.self ∉ s.household
  | .exit _ => true
  | .reap number => (s.table.entry number).all fun x => x.parent.all (· ∉ s.household)

def next (s : ProcessWorld) : ProcessEvent → Option ProcessWorld
  | .sentry event =>
    if s.sentryAlive then (s.run.next event).bind fun run => match event, s.run.todo with
      | .call result, call :: _ => (s.callTable call result).map fun table => { s with table, run }
      | _, _ => some { s with run }
    else none
  | .forkChild pid =>
    if s.atCall .forkProcessChild ∧ s.child = none ∧ 0 < pid then
      (s.table.act (.fork s.sentry.pid pid)).map fun table =>
        { s with table, child := some ⟨pid, s.table.next⟩ }
    else none
  | .groupChild => s.child.bind fun child =>
    if s.run.data.child = .unforked ∧ (s.table.entry child.pid).map Process.self = some child.self then
      (s.table.act (.setpgid child.pid child.pid)).map fun table => { s with table }
    else none
  | .terminate => if s.atCall .monitorChildProcess then some s else none
  | .forkUmbilical pid =>
    if s.atCall .createUmbilicalProcess ∧ s.umbilical = none then s.child.bind fun child =>
      (s.table.act (.fork s.sentry.pid pid)).map fun table => { s with
        table
        umbilical := some ⟨⟨pid, s.table.next⟩, child, s.run.data.mPgid,
          .setOwnProcessGroup :: postUmbilicalProcessChild, none, none⟩ }
    else none
  | .umbilical pid => s.umbilical.bind fun u =>
    if s.table.Alive u.self.self then match u.todo with
      | [] => none
      | .setOwnProcessGroup :: todo =>
        (s.table.act (.setpgid u.self.pid u.self.pid)).map fun table =>
        { s with table, umbilical := some { u with todo } }
      | .forkProcess anchor :: todo => (s.table.act (.fork u.self.pid pid)).map fun table =>
        { s with table, umbilical := some ({ u with todo }.setAnchor ⟨pid, s.table.next⟩ anchor) }
      | .setProcessGroup anchor :: todo => (u.anchor anchor).bind fun forked =>
        (s.table.act (.setpgid forked.pid (s.pgid u anchor))).map fun table =>
        { s with table, umbilical := some { u with todo } }
    else none
  | .killChildProcessGroup | .killSentryProcessGroup => s.umbilical.bind fun u =>
    if s.table.Alive u.self.self ∧ u.todo = [] then some s else none
  | .other act => if s.permits act then (s.table.act act).map fun table => { s with table } else none

/-- Everything that a step can be. -/
inductive Steps (s : ProcessWorld) : ProcessEvent → ProcessWorld → Prop
  | call {result : CallResult} {call : SentryCall} {calls : List SentryCall} {run : SentryRun}
    {table : ProcessTable Pid} (halive : s.sentryAlive) (htodo : s.run.todo = call :: calls)
    (hrun : s.run.next (.call result) = some run) (htable : s.callTable call result = some table) :
    Steps s (.sentry (.call result)) { s with table, run }
  | returns {result : CallResult} {run : SentryRun} (halive : s.sentryAlive)
    (htodo : s.run.todo = []) (hrun : s.run.next (.call result) = some run) :
    Steps s (.sentry (.call result)) { s with run }
  | callback {callback : Callback} (halive : s.sentryAlive)
    (hrun : s.run.next (.callback callback) = some s.run) : Steps s (.sentry (.callback callback)) s
  | forkChild {pid : Pid} {table : ProcessTable Pid} (hcall : s.atCall .forkProcessChild)
    (hchild : s.child = none) (hpid : 0 < pid)
    (htable : s.table.act (.fork s.sentry.pid pid) = some table) :
    Steps s (.forkChild pid) { s with table, child := some ⟨pid, s.table.next⟩ }
  | groupChild {child : Forked} {table : ProcessTable Pid} (hchild : s.child = some child)
    (hunforked : s.run.data.child = .unforked)
    (hself : (s.table.entry child.pid).map Process.self = some child.self)
    (htable : s.table.act (.setpgid child.pid child.pid) = some table) :
    Steps s .groupChild { s with table }
  | terminate (hcall : s.atCall .monitorChildProcess) : Steps s .terminate s
  | forkUmbilical {pid : Pid} {child : Forked} {table : ProcessTable Pid}
    (hcall : s.atCall .createUmbilicalProcess) (hnone : s.umbilical = none)
    (hchild : s.child = some child) (htable : s.table.act (.fork s.sentry.pid pid) = some table) :
    Steps s (.forkUmbilical pid) { s with
      table
      umbilical := some ⟨⟨pid, s.table.next⟩, child, s.run.data.mPgid,
        .setOwnProcessGroup :: postUmbilicalProcessChild, none, none⟩ }
  | leads {pid : Pid} {u : UmbilicalProcess} {todo : List UmbilicalCall} {table : ProcessTable Pid}
    (hu : s.umbilical = some u) (halive : s.table.Alive u.self.self)
    (htodo : u.todo = .setOwnProcessGroup :: todo)
    (htable : s.table.act (.setpgid u.self.pid u.self.pid) = some table) :
    Steps s (.umbilical pid) { s with table, umbilical := some { u with todo } }
  | forks {pid : Pid} {u : UmbilicalProcess} {anchor : Anchor} {todo : List UmbilicalCall}
    {table : ProcessTable Pid} (hu : s.umbilical = some u) (halive : s.table.Alive u.self.self)
    (htodo : u.todo = .forkProcess anchor :: todo)
    (htable : s.table.act (.fork u.self.pid pid) = some table) :
    Steps s (.umbilical pid)
      { s with table, umbilical := some ({ u with todo }.setAnchor ⟨pid, s.table.next⟩ anchor) }
  | joins {pid : Pid} {u : UmbilicalProcess} {anchor : Anchor} {todo : List UmbilicalCall}
    {forked : Forked} {table : ProcessTable Pid} (hu : s.umbilical = some u)
    (halive : s.table.Alive u.self.self) (htodo : u.todo = .setProcessGroup anchor :: todo)
    (hanchor : u.anchor anchor = some forked)
    (htable : s.table.act (.setpgid forked.pid (s.pgid u anchor)) = some table) :
    Steps s (.umbilical pid) { s with table, umbilical := some { u with todo } }
  | kills {event : ProcessEvent} {u : UmbilicalProcess}
    (hevent : event = .killChildProcessGroup ∨ event = .killSentryProcessGroup)
    (hu : s.umbilical = some u) (halive : s.table.Alive u.self.self) (htodo : u.todo = []) :
    Steps s event s
  | other {act : ProcessAct Pid} {table : ProcessTable Pid} (hpermits : s.permits act = true)
    (htable : s.table.act act = some table) : Steps s (.other act) { s with table }

/-- Whoever a process is about to signal. -/
inductive SignalTarget
  | child (pid : Pid)
  | childGroup (pgid : Pid)
  | sentryGroup (pgid : Pid)
  deriving DecidableEq, Repr

def SignalTarget.number : SignalTarget → Pid
  | child pid => pid
  | childGroup pgid | sentryGroup pgid => pgid

def SignalTarget.reaches (x : Process Pid) : SignalTarget → Prop
  | child pid => x.number = pid
  | childGroup pgid | sentryGroup pgid => x.group = pgid

/-- The child itself, or what has come into a group that it or the sentry's founder founded. -/
def intends (s : ProcessWorld) (x : Process Pid) : SignalTarget → Prop
  | .child _ => ∃ child, s.child = some child ∧ x.self = child.self
  | .childGroup _ => ∃ child, s.child = some child ∧ x.clan = child.self
  | .sentryGroup _ => x.clan = s.clan

/-- The signals of the watchers, of the calls of the sentry and of the umbilical process. -/
def signals (s : ProcessWorld) : ProcessEvent → Option SignalTarget
  | .sentry (.callback .raiseSentrySignal) | .terminate => some (.child s.run.data.mPid)
  | .sentry (.callback .raiseSentryStop) | .sentry (.callback .raiseSentryResume) =>
    some (.childGroup s.run.data.mPgid)
  | .sentry (.call _) => match s.run.todo with
    | .killChildProcessGroup :: _ => some (.childGroup s.run.data.mPgid)
    | .ifRecorded .killChildProcess :: _ =>
      if s.run.data.mChildProcess ∧ s.run.data.mPid ≠ 0 then some (.child s.run.data.mPid) else none
    | _ => none
  | .killChildProcessGroup => s.umbilical.map fun u => .childGroup u.mPgid
  | .killSentryProcessGroup => some (.sentryGroup s.mSentryPgid)
  | _ => none

/-- The signals that come from the sentry itself. -/
def bySentry : ProcessEvent → Bool
  | .sentry _ | .terminate => true
  | _ => false

/-- The founder of the process group that an anchor is to hold. -/
def founder (s : ProcessWorld) (u : UmbilicalProcess) : Anchor → Nat
  | .child => u.child.self
  | .sentry => s.clan

/-- The umbilical process is about to put an anchor into its process group. -/
def anchoring (s : ProcessWorld) : ProcessEvent → Bool
  | .umbilical _ => s.umbilical.any fun u => match u.todo with
    | .setProcessGroup _ :: _ => true
    | _ => false
  | _ => false

def AnchorsUnderSentry (s : ProcessWorld) (event : ProcessEvent) (_ : ProcessWorld) : Prop :=
  s.anchoring event = true → s.sentryAlive

instance (s : ProcessWorld) (event : ProcessEvent) (t : ProcessWorld) :
    Decidable (AnchorsUnderSentry s event t) :=
  inferInstanceAs (Decidable (_ → _))

/-- A signal reaches nobody but whom it is meant for. -/
def Rightful (s : ProcessWorld) (event : ProcessEvent) (_ : ProcessWorld) : Prop :=
  ∀ target, s.signals event = some target → ∀ x ∈ s.table.processes, target.reaches x → s.intends x target

/-- The anchor that the umbilical process has put into the process group of the child is
there still, if only as a zombie. -/
def anchored (s : ProcessWorld) (u : UmbilicalProcess) : Prop :=
  .setProcessGroup .child ∉ u.todo ∧
    ∃ forked, u.mChildAnchor = some forked ∧ ∃ x ∈ s.table.processes, x.self = forked.self

/-- The sentry starts out in a process group of its own or of those that started it. -/
structure Begins (options : SentryOptions) (s : ProcessWorld) : Prop where
  table : s.table.Consistent
  sentry : ∃ x ∈ s.table.processes, x.number = s.sentry.pid ∧ x.self = s.sentry.self ∧
    x.group = s.mSentryPgid ∧ x.clan = s.clan
  run : s.run = SentryRun.start options
  child : s.child = none
  umbilical : s.umbilical = none

def system (options : SentryOptions) : System ProcessWorld ProcessEvent :=
  .ofNext (Begins options) next

theorem steps_of_next {s t : ProcessWorld} {event : ProcessEvent} (h : s.next event = some t) :
    Steps s event t := by
  cases event with
  | sentry event =>
    obtain ⟨halive, h⟩ := Option.ite_none_right_eq_some.mp h
    obtain ⟨run, hrun, h⟩ := Option.bind_eq_some_iff.mp h
    cases event with
    | callback callback =>
      obtain ⟨-, -, rfl⟩ := SentryRun.next_callback.mp hrun
      obtain rfl := Option.some.inj h
      exact .callback halive hrun
    | call result =>
      cases htodo : s.run.todo with
      | nil =>
        rw [htodo] at h
        obtain rfl := Option.some.inj h
        exact .returns halive htodo hrun
      | cons call calls =>
        rw [htodo] at h
        obtain ⟨table, htable, rfl⟩ := Option.map_eq_some_iff.mp h
        exact .call halive htodo hrun htable
  | forkChild pid =>
    obtain ⟨⟨hcall, hchild, hpid⟩, h⟩ := Option.ite_none_right_eq_some.mp h
    obtain ⟨table, htable, rfl⟩ := Option.map_eq_some_iff.mp h
    exact .forkChild hcall hchild hpid htable
  | groupChild =>
    obtain ⟨child, hchild, h⟩ := Option.bind_eq_some_iff.mp h
    obtain ⟨⟨hunforked, hself⟩, h⟩ := Option.ite_none_right_eq_some.mp h
    obtain ⟨table, htable, rfl⟩ := Option.map_eq_some_iff.mp h
    exact .groupChild hchild hunforked hself htable
  | terminate =>
    obtain ⟨hcall, h⟩ := Option.ite_none_right_eq_some.mp h
    obtain rfl := Option.some.inj h
    exact .terminate hcall
  | forkUmbilical pid =>
    obtain ⟨⟨hcall, hnone⟩, h⟩ := Option.ite_none_right_eq_some.mp h
    obtain ⟨child, hchild, h⟩ := Option.bind_eq_some_iff.mp h
    obtain ⟨table, htable, rfl⟩ := Option.map_eq_some_iff.mp h
    exact .forkUmbilical hcall hnone hchild htable
  | umbilical pid =>
    obtain ⟨u, hu, h⟩ := Option.bind_eq_some_iff.mp h
    obtain ⟨halive, h⟩ := Option.ite_none_right_eq_some.mp h
    cases htodo : u.todo with
    | nil =>
      rw [htodo] at h
      cases h
    | cons call todo =>
      rw [htodo] at h
      cases call with
      | setOwnProcessGroup =>
        obtain ⟨table, htable, rfl⟩ := Option.map_eq_some_iff.mp h
        exact .leads hu halive htodo htable
      | forkProcess anchor =>
        obtain ⟨table, htable, rfl⟩ := Option.map_eq_some_iff.mp h
        exact .forks hu halive htodo htable
      | setProcessGroup anchor =>
        obtain ⟨forked, hanchor, h⟩ := Option.bind_eq_some_iff.mp h
        obtain ⟨table, htable, rfl⟩ := Option.map_eq_some_iff.mp h
        exact .joins hu halive htodo hanchor htable
  | killChildProcessGroup | killSentryProcessGroup =>
    obtain ⟨u, hu, h⟩ := Option.bind_eq_some_iff.mp h
    obtain ⟨⟨halive, htodo⟩, h⟩ := Option.ite_none_right_eq_some.mp h
    obtain rfl := Option.some.inj h
    exact .kills (by simp) hu halive htodo
  | other act =>
    obtain ⟨hpermits, h⟩ := Option.ite_none_right_eq_some.mp h
    obtain ⟨table, htable, rfl⟩ := Option.map_eq_some_iff.mp h
    exact .other hpermits htable

end ProcessWorld

end PidSentry
