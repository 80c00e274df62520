import PidSentry.SentryRun

/-! When `runSentry` and `closeSentry` reap the child, and what they have made of
the pid file by then. -/

namespace PidSentry

namespace SentryCall

def reaps : SentryCall → Bool
  | reapProcessChild => true
  | ifRecorded call => call.reaps
  | _ => false

/-- Whether `mPidFile` is set or cleared. -/
def files : SentryCall → Bool
  | initPidFile | destroyPidFile => true
  | ifRecorded call => call.files
  | _ => false

/-- Whether the call leaves the child and its pid file alone. -/
def aside (call : SentryCall) : Bool :=
  !call.reaps && call ≠ .forkProcessChild && call ≠ .acquirePidFileWriteLock && call ≠ .destroyPidFile

variable {call : SentryCall} {result : CallResult} {ending : Ending} {d d' : SentryData}

theorem effect_child (call : SentryCall) (d : SentryData) : (call.effect d).child = d.child ∨
    call.reaps = true ∧ (call.effect d).child = .reaped := by
  induction call with
  | reapProcessChild =>
    unfold effect
    split_ifs
    · exact .inr ⟨rfl, rfl⟩
    · exact .inl rfl
  | ifRecorded call ih =>
    unfold effect
    split_ifs
    · exact ih
    · exact .inl rfl
  | _ => exact .inl rfl

theorem effect_mPidFile (h : call.files = false) : (call.effect d).mPidFile = d.mPidFile := by
  induction call with
  | initPidFile | destroyPidFile => cases h
  | reapProcessChild =>
    unfold effect
    split_ifs <;> rfl
  | ifRecorded call ih =>
    unfold effect
    split_ifs
    · exact ih h
    · rfl
  | _ => rfl

theorem effect_child_aside (h : call.aside = true) : (call.effect d).child = d.child := by
  refine (effect_child call d).resolve_right fun hreaped => ?_
  simp [aside, hreaped.1] at h

theorem perform_aside (h : call.aside = true) :
    call.perform .ok d = some (.goesOn, call.effect d) := by
  cases call <;> first | rfl | cases h

theorem perform_child (hcall : call ≠ .forkProcessChild)
    (h : call.perform result d = some (ending, d')) :
    d'.child = d.child ∨ call.reaps = true ∧ d'.child = .reaped := by
  rcases perform_cases h with rfl | rfl | ⟨rfl, -⟩
  · exact .inl rfl
  · exact effect_child call d
  · exact absurd rfl hcall

theorem perform_mPidFile (hcall : call.files = false)
    (h : call.perform result d = some (ending, d')) : d'.mPidFile = d.mPidFile := by
  rcases perform_cases h with rfl | rfl | ⟨-, childPid, -, rfl⟩
  · rfl
  · exact effect_mPidFile hcall
  · rfl

end SentryCall

namespace SentryRun

open SentryCall

theorem runSentry_eq {options : SentryOptions} (h : options.mPidFile = true) :
    runSentry options = beforeDestroy options ++
      .acquirePidFileWriteLock :: .destroyPidFile :: afterDestroy options := by
  simp [runSentry, beforeDestroy, afterDestroy, unwatched, afterUnwatch, h]

theorem of_mem_beforeDestroy {options : SentryOptions} {call : SentryCall}
    (h : call ∈ beforeDestroy options) : call ≠ .forkProcessChild ∧
      call ≠ .acquirePidFileWriteLock ∧ call.files = false ∧ call.reaps = false := by
  have hall : (beforeDestroy options).all (fun call => call ≠ .forkProcessChild &&
      call ≠ .acquirePidFileWriteLock && !call.files && !call.reaps) = true := by
    obtain ⟨mPidFile, mIdentify, debug, sync, valgrind⟩ := options
    cases mIdentify <;> cases sync <;> rfl
  simpa [and_assoc] using List.all_eq_true.mp hall call h

theorem of_mem_afterDestroy {options : SentryOptions} {call : SentryCall}
    (h : call ∈ afterDestroy options) : call ≠ .forkProcessChild ∧
      call ≠ .acquirePidFileWriteLock ∧ call.files = false := by
  have hall : (afterDestroy options).all (fun call => call ≠ .forkProcessChild &&
      call ≠ .acquirePidFileWriteLock && !call.files) = true := by
    obtain ⟨mPidFile, mIdentify, debug, sync, valgrind⟩ := options
    cases valgrind <;> rfl
  simpa [and_assoc] using List.all_eq_true.mp hall call h

theorem of_mem_closeSentry {call : SentryCall} (h : call ∈ closeSentry) :
    call ≠ .forkProcessChild ∧ call ≠ .acquirePidFileWriteLock ∧
      (call.files = true → call = .destroyPidFile) := by
  revert call
  decide

/-- The child exists already, and its pid file is only given up. -/
theorem of_mem_runSentry {options : SentryOptions} (hfile : options.mPidFile = true)
    {call : SentryCall} (h : call ∈ runSentry options) :
    call ≠ .forkProcessChild ∧ (call.files = true → call = .destroyPidFile) := by
  rw [runSentry_eq hfile] at h
  rcases List.mem_append.mp h with h | h
  · obtain ⟨hfork, -, hfiles, -⟩ := of_mem_beforeDestroy h
    exact ⟨hfork, fun he => by simp [hfiles] at he⟩
  · rcases List.mem_cons.mp h with rfl | h
    · decide
    · rcases List.mem_cons.mp h with rfl | h
      · decide
      · obtain ⟨hfork, -, hfiles⟩ := of_mem_afterDestroy h
        exact ⟨hfork, fun he => by simp [hfiles] at he⟩

theorem lock_notMem {options : SentryOptions} (hfile : options.mPidFile = true)
    {rest : List SentryCall} (h : .acquirePidFileWriteLock :: rest <:+ runSentry options) :
    .acquirePidFileWriteLock ∉ rest := by
  intro hmem
  have hcount := h.sublist.count_le SentryCall.acquirePidFileWriteLock
  have hbefore : (beforeDestroy options).count .acquirePidFileWriteLock = 0 :=
    List.count_eq_zero.mpr fun hmem => (of_mem_beforeDestroy hmem).2.1 rfl
  have hafter : (afterDestroy options).count .acquirePidFileWriteLock = 0 :=
    List.count_eq_zero.mpr fun hmem => (of_mem_afterDestroy hmem).2.1 rfl
  have hrest := List.count_pos_iff.mpr hmem
  rw [runSentry_eq hfile, List.count_append, hbefore, List.count_cons_self, List.count_cons_self,
    List.count_cons_of_ne SentryCall.noConfusion, hafter] at hcount
  omega

/-- Nothing is reaped while the lock is still to be acquired. -/
theorem reaps_of_lock {options : SentryOptions} (hfile : options.mPidFile = true) {call : SentryCall}
    {rest : List SentryCall} (h : call :: rest <:+ runSentry options)
    (hlock : .acquirePidFileWriteLock ∈ call :: rest) : call.reaps = false := by
  rcases List.mem_cons.mp hlock with he | hlock
  · rw [← he]
    rfl
  · have hbefore : callsBefore .acquirePidFileWriteLock (runSentry options) = beforeDestroy options := by
      rw [runSentry_eq hfile, callsBefore, List.takeWhile_append_of_pos]
      · simp
      · intro call hcall
        simpa using (of_mem_beforeDestroy hcall).2.1
    have honce : .acquirePidFileWriteLock ∉ callsAfter .acquirePidFileWriteLock (runSentry options) := by
      have hsuffix : .acquirePidFileWriteLock :: callsAfter .acquirePidFileWriteLock (runSentry options) <:+
          runSentry options :=
        ⟨_, callsBefore_append_callsAfter (h.subset (List.mem_cons_of_mem _ hlock))⟩
      exact lock_notMem hfile hsuffix
    have hcall := mem_callsBefore_of_suffix h honce hlock
    rw [hbefore] at hcall
    exact (of_mem_beforeDestroy hcall).2.2.2

/-- What is to be reaped is reaped when the pid file has been given up. -/
def Reaping (rest : List SentryCall) (d : SentryData) : Prop :=
  ∀ call ∈ rest.head?, call.reaps = true → d.mPidFile = false

theorem Reaping.cons {call : SentryCall} {rest : List SentryCall} {d : SentryData}
    (h : call.reaps = false) : Reaping (call :: rest) d := by
  intro made hmade hreaps
  obtain rfl := Option.some.inj hmade
  rw [h] at hreaps
  cases hreaps

theorem destroy_outline {calls : List SentryCall} {d : SentryData}
    (hcalls : ∀ call ∈ calls, call.files = false) :
    Outline perform Reaping (fun _ _ => True) (.destroyPidFile :: calls) d := by
  refine ⟨.cons rfl, fun result ending d' h => ⟨fun hending => ?_, fun _ => trivial⟩⟩
  have hfile : d'.mPidFile = false := by
    cases result with
    | ok =>
      cases h
      rfl
    | forked childPid => cases h
    | failed =>
      obtain ⟨failure, hfailure, he⟩ := Option.map_eq_some_iff.mp h
      obtain ⟨-, he'⟩ := Option.ite_none_right_eq_some.mp hfailure
      cases he'
      cases he
      cases hending
  refine Outline.of_invariant (J := fun d => d.mPidFile = false) (fun _ _ _ hd _ _ _ => hd)
    (fun _ _ _ _ => trivial) ?_ hfile
  intro call hcall result ending d d' hd h
  rw [perform_mPidFile (hcalls call hcall) h]
  exact hd

theorem runSentry_outline {options : SentryOptions} (hfile : options.mPidFile = true)
    (d : SentryData) : Outline perform Reaping (fun _ _ => True) (runSentry options) d := by
  rw [runSentry_eq hfile]
  refine Outline.append (J := fun _ => True) (fun rest hrest d _ => ?_) (fun _ _ _ _ => trivial)
    (fun _ _ _ _ _ _ _ _ => trivial) (fun d _ => ?_) trivial
  · cases rest with
    | nil => exact .cons rfl
    | cons call rest => exact .cons (of_mem_beforeDestroy (hrest.subset List.mem_cons_self)).2.2.2
  · refine ⟨.cons rfl, fun result ending d' _ => ⟨fun _ => ?_, fun _ => trivial⟩⟩
    exact destroy_outline fun call hcall => (of_mem_afterDestroy hcall).2.2

theorem closeSentry_reaping (d : SentryData) :
    Outline perform Reaping (fun _ _ => True) closeSentry d := by
  refine ⟨.cons rfl, fun result ending d' _ => ⟨fun _ => ?_, fun _ => trivial⟩⟩
  exact destroy_outline (by decide)

/-- The child is reaped between the two states. -/
def Reaps (s t : SentryRun) : Prop := s.data.child ≠ .reaped ∧ t.data.child = .reaped

instance (s t : SentryRun) : Decidable (s.Reaps t) := inferInstanceAs (Decidable (_ ∧ _))

end SentryRun

end PidSentry
