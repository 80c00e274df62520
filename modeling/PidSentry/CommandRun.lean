import PidSentry.Command

/-! What `cmdRunCommand` (_pidsentry.c) does with the client that it has created: the
process that `runCommand` forks, the exit code that `reapCommand` takes from it, and the
socket that they both have of the pid server (command.c). -/

namespace PidSentry

/-- The process that is to run the command, with its `PIDSENTRY_PID`. -/
inductive CommandProcess
  /-- With the environment and the socket, if any, of its parent. -/
  | posting (environment : Option Pid) (mKeeperTether : Bool)
  | posted (environment : Option Pid)
  | failing
  | executing (environment : Option Pid)
  /-- As `ert_extractProcessExitStatus` gives it. -/
  | exited (status : Nat)
  deriving DecidableEq, Repr

inductive CommandStage
  | creating
  | forking
  | reaping
  | checking
  | closing (exitCode : Option Nat)
  | returned (exitCode : Option Nat)
  /-- By a signal. -/
  | terminated
  deriving DecidableEq, Repr

/-- `mKeeperTether` is whether the client has its socket open. -/
structure CommandRun where
  stage : CommandStage
  mChildPid : Pid
  mKeeperTether : Bool
  process : Option CommandProcess
  deriving DecidableEq, Repr

/-- The calls of the client and of the process that it forks, with what they return. -/
inductive CommandRunEvent
  | createCommandProcess (ok : Bool)
  | fork (environment : Option Pid)
  | postCommandProcessChild (ok : Bool)
  | execShellCommand (ok : Bool)
  | exit (status : Nat)
  | forkProcessChild (ok : Bool)
  | reapProcessChild (ok : Bool)
  | waitSocketReadReady (rdReady : Option Bool)
  | closeCommand
  | terminate
  deriving DecidableEq, Repr

namespace CommandProcess

def environment : CommandProcess → Option Pid
  | posted environment | executing environment => environment
  | posting .. | failing | exited _ => none

def hasTether : CommandProcess → Bool
  | posting _ mKeeperTether => mKeeperTether
  | _ => false

def hasPosted : CommandProcess → Bool
  | posting .. | failing => false
  | posted _ | executing _ | exited _ => true

def hasExited : CommandProcess → Bool
  | exited _ => true
  | _ => false

end CommandProcess

namespace CommandRun

def EXIT_FAILURE : Nat := 1

/-- `cmdRunCommand` once `createCommand` has returned. -/
def enter (status : CommandStatus) (mChildPid : Pid) : CommandRun :=
  match status with
  | .error => ⟨.returned none, mChildPid, false, none⟩
  | .ok => ⟨.creating, mChildPid, mChildPid ≠ 0, none⟩
  | .unreachablePidFile | .nonexistentPidFile | .inaccessiblePidFile | .zombiePidFile
  | .malformedPidFile => ⟨.returned (some EXIT_FAILURE), mChildPid, false, none⟩

/-- A client that has been killed in `createCommand`. -/
def killed : CommandRun := ⟨.terminated, 0, false, none⟩

/-- What `postCommandProcessChild_` leaves in the environment. -/
def pidSentryPidEnv (s : CommandRun) : Option Pid :=
  if s.mChildPid = 0 then none else some s.mChildPid

/-- The exit code once the socket has been looked at. -/
def checked : Option Bool → Option Nat
  | none => none
  | some rdReady => some (if rdReady then 255 else 0)

def next (s : CommandRun) : CommandRunEvent → Option CommandRun
  | .createCommandProcess ok =>
    if s.stage = .creating then some { s with stage := if ok then .forking else .closing none } else none
  | .fork environment =>
    if s.stage = .forking ∧ s.process = none then
      some { s with process := some (.posting environment s.mKeeperTether) }
    else none
  | .postCommandProcessChild ok =>
    match s.process with
    | some (.posting ..) => some { s with process := some (if ok then .posted s.pidSentryPidEnv else .failing) }
    | _ => none
  | .execShellCommand ok =>
    match s.process with
    | some (.posted environment) =>
      some { s with process := some (if ok then .executing environment else .exited EXIT_FAILURE) }
    | _ => none
  | .exit status =>
    match s.process with
    | none | some (.exited _) => none
    | some _ => some { s with process := some (.exited status) }
  | .forkProcessChild ok =>
    if s.stage = .forking then
      if ok then
        if s.process.any CommandProcess.hasPosted then some { s with stage := .reaping } else none
      else some { s with stage := .closing none }
    else none
  | .reapProcessChild ok =>
    if s.stage = .reaping then
      if ok then
        match s.process with
        | some (.exited status) => some { s with
            stage := if status = 0 ∧ s.mKeeperTether = true then .checking else .closing (some status) }
        | _ => none
      else some { s with stage := .closing none }
    else none
  | .waitSocketReadReady rdReady =>
    if s.stage = .checking then some { s with stage := .closing (checked rdReady) } else none
  | .closeCommand =>
    match s.stage with
    | .closing exitCode => some { s with stage := .returned exitCode, mKeeperTether := false }
    | _ => none
  | .terminate =>
    match s.stage with
    | .returned _ | .terminated => none
    | _ => some { s with stage := .terminated, mKeeperTether := false }

/-- Everything that a step can be. -/
inductive Steps (s : CommandRun) : CommandRunEvent → CommandRun → Prop
  | creates {ok : Bool} (hstage : s.stage = .creating) :
    Steps s (.createCommandProcess ok) { s with stage := if ok then .forking else .closing none }
  | forks {environment : Option Pid} (hstage : s.stage = .forking) (hnone : s.process = none) :
    Steps s (.fork environment) { s with process := some (.posting environment s.mKeeperTether) }
  | posts {environment : Option Pid} {mKeeperTether ok : Bool}
    (hprocess : s.process = some (.posting environment mKeeperTether)) :
    Steps s (.postCommandProcessChild ok)
      { s with process := some (if ok then .posted s.pidSentryPidEnv else .failing) }
  | executes {environment : Option Pid} {ok : Bool} (hprocess : s.process = some (.posted environment)) :
    Steps s (.execShellCommand ok)
      { s with process := some (if ok then .executing environment else .exited EXIT_FAILURE) }
  | exits {p : CommandProcess} {status : Nat} (hprocess : s.process = some p) (hlive : p.hasExited = false) :
    Steps s (.exit status) { s with process := some (.exited status) }
  | forked {p : CommandProcess} (hstage : s.stage = .forking) (hprocess : s.process = some p)
    (hposted : p.hasPosted = true) : Steps s (.forkProcessChild true) { s with stage := .reaping }
  | unforked (hstage : s.stage = .forking) :
    Steps s (.forkProcessChild false) { s with stage := .closing none }
  | reaps {status : Nat} (hstage : s.stage = .reaping) (hprocess : s.process = some (.exited status)) :
    Steps s (.reapProcessChild true) { s with
      stage := if status = 0 ∧ s.mKeeperTether = true then .checking else .closing (some status) }
  | unreaped (hstage : s.stage = .reaping) :
    Steps s (.reapProcessChild false) { s with stage := .closing none }
  | checks {rdReady : Option Bool} (hstage : s.stage = .checking) :
    Steps s (.waitSocketReadReady rdReady) { s with stage := .closing (checked rdReady) }
  | closes {exitCode : Option Nat} (hstage : s.stage = .closing exitCode) :
    Steps s .closeCommand { s with stage := .returned exitCode, mKeeperTether := false }
  | terminates : Steps s .terminate { s with stage := .terminated, mKeeperTether := false }

theorem steps_of_next {s t : CommandRun} {event : CommandRunEvent} (h : s.next event = some t) :
    Steps s event t := by
  cases event with
  | createCommandProcess ok =>
    obtain ⟨hstage, h⟩ := Option.ite_none_right_eq_some.mp h
    obtain rfl := Option.some.inj h
    exact .creates hstage
  | fork environment =>
    obtain ⟨⟨hstage, hnone⟩, h⟩ := Option.ite_none_right_eq_some.mp h
    obtain rfl := Option.some.inj h
    exact .forks hstage hnone
  | postCommandProcessChild ok =>
    simp only [next] at h
    split at h
    · obtain rfl := Option.some.inj h
      exact .posts ‹_›
    · cases h
  | execShellCommand ok =>
    simp only [next] at h
    split at h
    · obtain rfl := Option.some.inj h
      exact .executes ‹_›
    · cases h
  | exit status =>
    simp only [next] at h
    split at h
    · cases h
    · cases h
    · rename_i p hexited hprocess
      obtain rfl := Option.some.inj h
      refine .exits hprocess ?_
      cases p with
      | exited status => exact absurd rfl (hexited status)
      | posting | posted | failing | executing => rfl
  | forkProcessChild ok =>
    obtain ⟨hstage, h⟩ := Option.ite_none_right_eq_some.mp h
    cases ok with
    | true =>
      obtain ⟨hany, h⟩ := Option.ite_none_right_eq_some.mp h
      obtain rfl := Option.some.inj h
      obtain ⟨p, hprocess, hposted⟩ := (Option.any_eq_true _ _).mp hany
      exact .forked hstage hprocess hposted
    | false =>
      obtain rfl := Option.some.inj h
      exact .unforked hstage
  | reapProcessChild ok =>
    obtain ⟨hstage, h⟩ := Option.ite_none_right_eq_some.mp h
    cases ok with
    | true =>
      simp only [if_true] at h
      split at h
      · obtain rfl := Option.some.inj h
        exact .reaps hstage ‹_›
      · cases h
    | false =>
      obtain rfl := Option.some.inj h
      exact .unreaped hstage
  | waitSocketReadReady rdReady =>
    obtain ⟨hstage, h⟩ := Option.ite_none_right_eq_some.mp h
    obtain rfl := Option.some.inj h
    exact .checks hstage
  | closeCommand =>
    simp only [next] at h
    split at h
    · obtain rfl := Option.some.inj h
      exact .closes ‹_›
    · cases h
  | terminate =>
    simp only [next] at h
    split at h
    · cases h
    · cases h
    · obtain rfl := Option.some.inj h
      exact .terminates

/-- The `PIDSENTRY_PID` that the command has while it runs. -/
def environment (s : CommandRun) : Option Pid := s.process.bind CommandProcess.environment

/-- The client or the process that it has forked has the socket open. -/
def hasTether (s : CommandRun) : Bool := s.mKeeperTether || s.process.any CommandProcess.hasTether

/-- The client has yet to close its socket. -/
def holding : CommandStage → Bool
  | .creating | .forking | .reaping | .checking => true
  | _ => false

/-- The command is done with. -/
def ended : CommandStage → Bool
  | .checking | .closing (some _) | .returned (some _) => true
  | _ => false

structure Sound (s : CommandRun) : Prop where
  holding : holding s.stage = true → (s.mKeeperTether = true ↔ s.mChildPid ≠ 0)
  checking : s.stage = .checking → s.mKeeperTether = true
  ended : ended s.stage = true → ∀ p, s.process = some p → p.hasExited = true
  environment : ∀ pid, s.environment = some pid → pid = s.mChildPid ∧ pid ≠ 0

theorem enter_sound (status : CommandStatus) (mChildPid : Pid) : (enter status mChildPid).Sound := by
  cases status with
  | ok => exact ⟨fun _ => by simp [enter], nofun, nofun, nofun⟩
  | _ => exact ⟨nofun, nofun, nofun, nofun⟩

variable {s t : CommandRun} {event : CommandRunEvent}

theorem mChildPid_of_steps (h : Steps s event t) : t.mChildPid = s.mChildPid := by
  cases h <;> rfl

theorem environment_of_process {p : CommandProcess} (h : s.process = some p) :
    s.environment = p.environment := by
  simp [environment, h]

theorem unposted_of_exited {p : CommandProcess} (h : p.hasExited = true) : p.environment = none := by
  cases p with
  | exited => rfl
  | posting | posted | failing | executing => cases h

/-- Until the end of the command there is somebody to take its exit code. -/
theorem Sound.step (hs : s.Sound) (h : Steps s event t) : t.Sound := by
  obtain ⟨hholding, hchecking, hended, henvironment⟩ := hs
  cases h with
  | @creates ok hstage =>
    refine ⟨fun _ => hholding (by rw [hstage]; rfl), fun h => ?_, fun h => ?_, henvironment⟩
    · cases ok <;> cases h
    · cases ok <;> cases h
  | forks hstage hnone =>
    refine ⟨hholding, hchecking, fun h => ?_, nofun⟩
    rw [hstage] at h
    cases h
  | @posts environment mKeeperTether ok hprocess =>
    refine ⟨hholding, hchecking, fun h => ?_, fun pid h => ?_⟩
    · have hexited := hended h _ hprocess
      cases hexited
    · cases ok with
      | false => cases h
      | true =>
        obtain ⟨hpid, h⟩ := Option.ite_none_left_eq_some.mp (show s.pidSentryPidEnv = some pid from h)
        obtain rfl := Option.some.inj h
        exact ⟨rfl, hpid⟩
  | @executes environment ok hprocess =>
    refine ⟨hholding, hchecking, fun h => ?_, fun pid h => ?_⟩
    · have hexited := hended h _ hprocess
      cases hexited
    · cases ok with
      | false => cases h
      | true => exact henvironment pid (by rw [environment_of_process hprocess]; exact h)
  | exits hprocess hlive =>
    refine ⟨hholding, hchecking, fun _ p hp => ?_, nofun⟩
    obtain rfl := Option.some.inj hp
    rfl
  | forked hstage hprocess hposted =>
    exact ⟨fun _ => hholding (by rw [hstage]; rfl), nofun, nofun, henvironment⟩
  | unforked hstage => exact ⟨nofun, nofun, nofun, henvironment⟩
  | unreaped hstage => exact ⟨nofun, nofun, nofun, henvironment⟩
  | @reaps status hstage hprocess =>
    refine ⟨fun _ => hholding (by rw [hstage]; rfl), fun h => ?_, fun _ p hp => ?_, henvironment⟩
    · by_contra htether
      simp [htether] at h
    · obtain rfl := Option.some.inj (hprocess.symm.trans hp)
      rfl
  | @checks rdReady hstage =>
    exact ⟨nofun, nofun, fun _ => hended (by rw [hstage]; rfl), henvironment⟩
  | @closes exitCode hstage =>
    refine ⟨nofun, nofun, fun h => hended ?_, henvironment⟩
    rw [hstage]
    cases exitCode with
    | none => cases h
    | some exitCode => rfl
  | terminates => exact ⟨nofun, nofun, nofun, henvironment⟩

/-- A socket that has been closed stays closed. -/
theorem hasTether_of_steps (h : Steps s event t) (ht : t.hasTether = true) : s.hasTether = true := by
  cases h with
  | forks hstage hnone =>
    simp [hasTether, CommandProcess.hasTether] at ht
    simp [hasTether, ht]
  | @posts environment mKeeperTether ok hprocess =>
    cases ok <;> simp [hasTether, CommandProcess.hasTether] at ht <;> simp [hasTether, ht]
  | @executes environment ok hprocess =>
    cases ok <;> simp [hasTether, CommandProcess.hasTether] at ht <;> simp [hasTether, ht]
  | exits hprocess hlive =>
    simp [hasTether, CommandProcess.hasTether] at ht
    simp [hasTether, ht]
  | closes hstage => exact Bool.or_eq_true_iff.mpr (.inr (by simpa [hasTether] using ht))
  | terminates => exact Bool.or_eq_true_iff.mpr (.inr (by simpa [hasTether] using ht))
  | _ => exact ht

theorem terminated_of_steps (h : Steps s event t) (hs : s.stage = .terminated) : t.stage = .terminated := by
  cases h with
  | creates hstage | forked hstage | unforked hstage | reaps hstage | unreaped hstage | checks hstage
  | closes hstage =>
    rw [hs] at hstage
    cases hstage
  | forks | posts | executes | exits => exact hs
  | terminates => rfl

/-- The client reports success. -/
def succeeds (s : CommandRun) : Prop := s.stage = .closing (some 0) ∨ s.stage = .returned (some 0)

/-- A client with a reference reports success only if its socket has nothing to tell it. -/
theorem succeeds_of_steps (hs : s.Sound) (hpid : s.mChildPid ≠ 0) (h : Steps s event t) (ht : t.succeeds) :
    s.succeeds ∨ s.stage = .checking ∧ event = .waitSocketReadReady (some false) := by
  cases h with
  | @creates ok hstage => cases ok <;> rcases ht with ht | ht <;> cases ht
  | forked hstage | unforked hstage | unreaped hstage | terminates => rcases ht with ht | ht <;> cases ht
  | @reaps status hstage hprocess =>
    have htether := (hs.holding (by rw [hstage]; rfl)).mpr hpid
    by_cases hzero : status = 0 <;> simp [succeeds, htether, hzero] at ht
  | @checks rdReady hstage =>
    rcases ht with ht | ht
    · cases rdReady with
      | none => cases ht
      | some rdReady =>
        cases rdReady with
        | true => cases ht
        | false => exact .inr ⟨hstage, rfl⟩
    · cases ht
  | @closes exitCode hstage =>
    rcases ht with ht | ht
    · cases ht
    · obtain rfl := CommandStage.returned.inj ht
      exact .inl (.inl hstage)
  | forks | posts | executes | exits => exact .inl ht

theorem Sound.environment_of_succeeds (hs : s.Sound) (h : s.succeeds) : s.environment = none := by
  have hended : CommandRun.ended s.stage = true := by
    rcases h with h | h <;> rw [h] <;> rfl
  cases hprocess : s.process with
  | none => simp [CommandRun.environment, hprocess]
  | some p =>
    rw [environment_of_process hprocess]
    exact unposted_of_exited (hs.ended hended p hprocess)

end CommandRun

end PidSentry
