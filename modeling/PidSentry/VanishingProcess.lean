import PidSentry.PidFileContent
import PidSentry.ProcessSignature

/-! A process that can go away while `readPidFile` looks it up: its stat file is
opened by one call and read by another. -/

namespace PidSentry

/-- The stat file of a process, before and after it exits, with the signature that
it has throughout. -/
structure StatFile (incarnation : CString) where
  content : (exited : Bool) → List UInt8
  mSignature : CString
  fetch : ∀ exited, fetchProcessSignature_ incarnation (content exited) = .ok mSignature

/-- A process that has exited stays until it is reaped. -/
structure StatProcess (incarnation : CString) where
  stat : StatFile incarnation
  exited : Bool

/-- `fetchProcessSignature_` of one pid; an open file is that of the process which
was then the latest to have the pid. -/
inductive StatPhase
  | opening
  | reading (latest : Nat)
  | returned (result : Except Errno CString)
  deriving DecidableEq, Repr

inductive StatEvent (incarnation : CString)
  | openFd
  | readFdFully
  | exits
  | reaped
  /-- The pid is given to a new process. -/
  | starts (stat : StatFile incarnation)

structure StatCheck (incarnation : CString) where
  process : Option (StatProcess incarnation)
  /-- The processes that have started with this pid. -/
  latest : Nat
  phase : StatPhase

namespace StatCheck

variable {incarnation : CString}

/-- The process whose stat file is open has gone. -/
def Vanished (s : StatCheck incarnation) : Prop :=
  ∃ latest, s.phase = .reading latest ∧ (s.process.isNone ∨ s.latest ≠ latest)

/-- There is no file to open of a process that has gone, and an open one cannot
be read any more. -/
def next (s : StatCheck incarnation) : StatEvent incarnation → Option (StatCheck incarnation)
  | .openFd =>
    match s.phase, s.process with
    | .opening, some _ => some { s with phase := .reading s.latest }
    | .opening, none => some { s with phase := .returned (.error .ENOENT) }
    | _, _ => none
  | .readFdFully =>
    match s.phase, s.process with
    | .reading latest, some process =>
      if s.latest = latest then
        let buf := process.stat.content process.exited
        some { s with phase := .returned (fetchProcessSignature_ incarnation buf) }
      else some { s with phase := .returned (.error .ESRCH) }
    | .reading _, none => some { s with phase := .returned (.error .ESRCH) }
    | _, _ => none
  | .exits =>
    match s.process with
    | some ⟨stat, false⟩ => some { s with process := some ⟨stat, true⟩ }
    | _ => none
  | .reaped =>
    match s.process with
    | some ⟨_, true⟩ => some { s with process := none }
    | _ => none
  | .starts stat =>
    match s.process with
    | none => some { s with process := some ⟨stat, false⟩, latest := s.latest + 1 }
    | some _ => none

def system (incarnation : CString) : System (StatCheck incarnation) (StatEvent incarnation) :=
  .ofNext (fun s => s.phase = .opening) next

/-- The call that returns from `fetchProcessSignature_`. -/
def Returns (s t : StatCheck incarnation) (result : Except Errno CString) : Prop :=
  s.phase ≠ .returned result ∧ t.phase = .returned result

/-- How the call that returns from `fetchProcessSignature_` can end. -/
theorem next_returns {s t : StatCheck incarnation} {event : StatEvent incarnation}
    (h : s.next event = some t) {result : Except Errno CString} (hreturns : s.Returns t result) :
    (event = .openFd ∧ result = .error .ENOENT) ∨
      event = .readFdFully ∧ ((s.Vanished ∧ result = .error .ESRCH) ∨
        ¬ s.Vanished ∧ ∃ mSignature, result = .ok mSignature) := by
  obtain ⟨hbefore, hafter⟩ := hreturns
  obtain ⟨process, latest, phase⟩ := s
  cases event with
  | openFd =>
    cases phase <;> cases process <;> simp [next] at h
    · subst h
      exact .inl ⟨rfl, (StatPhase.returned.inj hafter).symm⟩
    · subst h
      cases hafter
  | readFdFully =>
    refine .inr ⟨rfl, ?_⟩
    cases phase with
    | opening | returned => cases h
    | reading nth =>
      cases process with
      | none =>
        obtain rfl := Option.some.inj h
        exact .inl ⟨⟨nth, rfl, .inl rfl⟩, (StatPhase.returned.inj hafter).symm⟩
      | some process =>
        simp only [next] at h
        split_ifs at h with hlatest
        · obtain rfl := Option.some.inj h
          refine .inr ⟨?_, process.stat.mSignature, ?_⟩
          · rintro ⟨other, hother, hnone | hne⟩
            · cases hnone
            · exact hne (hlatest.trans (StatPhase.reading.inj hother))
          · rw [← StatPhase.returned.inj hafter]
            exact process.stat.fetch process.exited
        · obtain rfl := Option.some.inj h
          exact .inl ⟨⟨nth, rfl, .inr hlatest⟩, (StatPhase.returned.inj hafter).symm⟩
  | exits | reaped | starts =>
    refine absurd ?_ hbefore
    simp only [next] at h
    split at h <;> cases h
    exact hafter

theorem returns_of_vanished {s t : StatCheck incarnation} (h : s.next .readFdFully = some t)
    (hvanished : s.Vanished) : s.Returns t (.error .ESRCH) := by
  obtain ⟨process, latest, phase⟩ := s
  obtain ⟨nth, hphase, hgone⟩ := hvanished
  obtain rfl : phase = .reading nth := hphase
  refine ⟨StatPhase.noConfusion, ?_⟩
  cases process with
  | none =>
    obtain rfl := Option.some.inj h
    rfl
  | some process =>
    have hne : latest ≠ nth := hgone.resolve_left Bool.false_ne_true
    simp only [next, hne, if_false] at h
    obtain rfl := Option.some.inj h
    rfl

end StatCheck

/-- The users of the file take its process to be gone: a sentry replaces the file,
and a client reports a zombie, or makes do without the process. -/
structure ReportsGone (parser : PidParser) (content : List UInt8) (fetched : Fetched) : Prop where
  reading : (readPidFileSignature parser content fun _ => fetched).1 = .signature ⟨0, []⟩
  sentry : ∀ {ν : Type} [DecidableEq ν] (record : PidFileRecord) (mFile : ν), ∃ q,
    (Generating.examine parser content fun _ => fetched).foldlM (Phase.next parser record)
      (.generate (.reading mFile)) = some q ∧ q.Supplants parser record mFile
  client : ∀ {ν κ : Type} (mRelaxed : Bool),
    (CommandPhase.examine parser content (fun _ => fetched) : List (CommandCall ν κ)).foldlM
      (CommandPhase.next parser mRelaxed) .reading = some (.settled mRelaxed .zombiePidFile 0)

/-- The recorded process with its signature is returned, or that it is gone. -/
def Reports (parser : PidParser) (content : List UInt8) (fetched : Fetched) : Prop :=
  (∃ pidSignature, NamesLive parser content (fun _ => fetched) pidSignature ∧
    (readPidFileSignature parser content fun _ => fetched).1 = .signature pidSignature) ∨
  ReportsGone parser content fetched

section

variable {parser : PidParser} {content : List UInt8} {parsedPid : Pid} {pidSignature : CString}
  {sun_path : List UInt8}

theorem reports_iff (hread : readPidFile parser content = .process parsedPid pidSignature sun_path)
    (hpid : 0 < parsedPid) (fetched : Fetched) :
    Reports parser content fetched ↔ fetched ≠ .failed := by
  have hne : parsedPid ≠ -1 := by
    rintro rfl
    exact absurd hpid (by decide)
  have hreading : (readPidFileSignature parser content fun _ => fetched).1 =
      matchPidFile parsedPid pidSignature fetched := by
    simp only [readPidFileSignature, hread]
  constructor
  · rintro hreports rfl
    have hfailed : matchPidFile parsedPid pidSignature .failed = .failed := by
      simp [matchPidFile, hne]
    rcases hreports with ⟨_, -, hsignature⟩ | hgone
    · rw [hreading, hfailed] at hsignature
      cases hsignature
    · have hsignature := hgone.reading
      rw [hreading, hfailed] at hsignature
      cases hsignature
  · intro hfetched
    have hmatch := matchPidFile_eq hne hfetched pidSignature
    by_cases hlive : fetched = .signature pidSignature
    · rw [if_pos hlive] at hmatch
      exact .inl ⟨⟨parsedPid, pidSignature⟩, ⟨⟨sun_path, hread⟩, hlive⟩, hreading.trans hmatch⟩
    · rw [if_neg hlive] at hmatch
      refine .inr ⟨hreading.trans hmatch, fun record mFile => ⟨.generate (.detecting mFile), ?_, ?_⟩,
        fun mRelaxed => ?_⟩
      · rw [Generating.foldlM_examine]
        simp [hread, hmatch, Generating.matched]
      · exact Phase.supplants_detecting record mFile
      · rw [CommandPhase.foldlM_examine]
        simp [hread, hmatch, CommandPhase.matched]

/-- Whatever the process does meanwhile, a well-formed pid file is reported as that
of its process or of none, exactly if a stat file once opened is read before its
process is gone. -/
theorem reports_vanishing_iff
    (hread : readPidFile parser content = .process parsedPid pidSignature sun_path)
    (hpid : 0 < parsedPid) {incarnation : CString} {s : StatCheck incarnation}
    (hs : s.phase = .opening) {run : List (StatEvent incarnation × StatCheck incarnation)}
    (hr : (StatCheck.system incarnation).IsRun s run) :
    System.Throughout (fun s _ t => ∀ result, s.Returns t result →
        Reports parser content (.ofExcept result)) s run ↔
      System.Throughout (fun s event _ => event = .readFdFully → ¬ s.Vanished) s run := by
  refine System.IsRun.throughout_iff ?_ (.of_init hs) hr
  rintro s event t - hstep
  constructor
  · rintro hreports rfl hvanished
    have hfailed := hreports _ (StatCheck.returns_of_vanished hstep hvanished)
    exact (reports_iff hread hpid _).mp hfailed rfl
  · intro hpresent result hreturns
    rw [reports_iff hread hpid]
    rcases StatCheck.next_returns hstep hreturns with
      ⟨-, rfl⟩ | ⟨hevent, ⟨hvanished, -⟩ | ⟨-, mSignature, rfl⟩⟩
    · exact Fetched.noConfusion
    · exact absurd hvanished (hpresent hevent)
    · exact Fetched.noConfusion

end

def StatFile.zeros : StatFile [105] where
  content _ := [49, 32, 40, 97, 41] ++ (List.replicate 20 [32, 48]).flatten ++ [10]
  mSignature := [105, 58, 48]
  fetch _ := by decide

/-- The process is reaped after its stat file has been opened. -/
theorem reports_vanishing_fails : ¬ ∀ (parser : PidParser) (content : List UInt8) (parsedPid : Pid)
    (pidSignature : CString) (sun_path : List UInt8),
    readPidFile parser content = .process parsedPid pidSignature sun_path → 0 < parsedPid →
    ∀ (incarnation : CString) (s : StatCheck incarnation)
      (run : List (StatEvent incarnation × StatCheck incarnation)), s.phase = .opening →
      (StatCheck.system incarnation).IsRun s run →
      System.Throughout (fun s _ t => ∀ result, s.Returns t result →
        Reports parser content (.ofExcept result)) s run := by
  intro h
  let s : StatCheck [105] := ⟨some ⟨.zeros, true⟩, 1, .opening⟩
  have hread : readPidFile .unsigned [55, 10, 10, 105, 58, 48, 10, 120, 10] =
      .process 7 [105, 58, 48] (sunPath [120]) := by decide
  have hh := h .unsigned _ 7 _ _ hread (by decide) [105] s
    (System.run StatCheck.next s [.openFd, .reaped, .readFdFully]) rfl (System.isRun_run _ _ _ _)
  have hreports := hh.2.2.1 (.error .ESRCH) ⟨StatPhase.noConfusion, rfl⟩
  exact (reports_iff hread (by decide) _).mp hreports rfl

theorem reports_vanishing_early :
    let s : StatCheck [105] := ⟨some ⟨.zeros, false⟩, 1, .opening⟩
    System.Throughout (fun s _ t => ∀ result, s.Returns t result →
        Reports .unsigned [55, 10, 10, 105, 58, 48, 10, 120, 10] (.ofExcept result)) s
      (System.run StatCheck.next s [.exits, .reaped, .openFd]) :=
  have hread : readPidFile .unsigned [55, 10, 10, 105, 58, 48, 10, 120, 10] =
      .process 7 [105, 58, 48] (sunPath [120]) := by decide
  (reports_vanishing_iff hread (by decide) rfl (System.isRun_run _ _ _ _)).mpr
    (by simp [System.run, System.Throughout, StatCheck.next])

end PidSentry
