import PidSentry.ProcessWorld

/-! Whom the sentry and the umbilical process signal. Both go by numbers, of the child and
of process groups, that the system gives to others once nothing is left to hold them. -/

namespace PidSentry

namespace SentryCall

/-- The calls that rely on the child being there. -/
def needsChild : SentryCall → Bool
  | createUmbilicalProcess | monitorChildProcess | killChildProcessGroup | reapProcessChild => true
  | _ => false

def needsTied : SentryCall → Bool
  | ifRecorded killChildProcess | ifRecorded reapProcessChild => true
  | _ => false

end SentryCall

namespace SentryRun

open SentryCall

/-- A pid that is recorded is that of the child, which has not been reaped. -/
def Tied (d : SentryData) : Prop := d.mPid ≠ 0 → d.child = .forked d.mPid

def Grounded (rest : List SentryCall) (d : SentryData) : Prop :=
  ∀ call ∈ rest.head?, (call.needsChild = true → Recorded d) ∧ (call.needsTied = true → Tied d)

theorem Recorded.grounded {rest : List SentryCall} {d : SentryData} (hd : Recorded d) : Grounded rest d :=
  fun _ _ => ⟨fun _ => hd, fun _ _ => hd.child⟩

def idle (call : SentryCall) : Bool := !call.needsChild && !call.needsTied

theorem grounded_of_idle {rest : List SentryCall} {d : SentryData} (h : ∀ call ∈ rest.head?, idle call = true) :
    Grounded rest d := by
  intro call hcall
  obtain ⟨hneeds, hkill⟩ := Bool.and_eq_true_iff.mp (h call hcall)
  constructor
  · intro hneeds'
    rw [hneeds'] at hneeds
    cases hneeds
  · intro htied
    rw [htied] at hkill
    cases hkill

theorem Grounded.append {calls more rest : List SentryCall} {call : SentryCall} {d : SentryData}
    (h : ∀ other ∈ calls, idle other = true) (hrest : rest <:+ calls) (hmore : Grounded (call :: more) d) :
    Grounded (rest ++ call :: more) d := by
  cases rest with
  | nil => exact hmore
  | cons other rest =>
    refine grounded_of_idle fun head hhead => h head (hrest.subset ?_)
    obtain rfl := Option.mem_some_iff.mp hhead
    exact List.mem_cons_self

theorem grounded_suffix {calls rest : List SentryCall} {d : SentryData}
    (h : ∀ call ∈ calls, idle call = true) (hrest : rest <:+ calls) : Grounded rest d :=
  grounded_of_idle fun call hcall => h call (hrest.subset (List.mem_of_mem_head? hcall))

/-- Calls that are idle need nothing of the child. -/
theorem idle_outline {calls : List SentryCall} {C : List SentryCall → SentryData → Prop} {d : SentryData}
    (h : ∀ call ∈ calls, idle call = true) (hfails : ∀ rest d, C rest d) :
    Outline perform Grounded C calls d :=
  Outline.of_invariant (J := fun _ => True) (fun _ hrest _ _ => grounded_suffix h hrest)
    (fun rest _ d _ => hfails rest d) (fun _ _ _ _ _ _ _ _ => trivial) trivial

theorem Tied.congr {d d' : SentryData} (hd : Tied d) (h : d.SameChild d') : Tied d' := by
  unfold Tied at hd ⊢
  rw [h.mPid, h.child]
  exact hd

theorem cleanup_outline {d : SentryData} (hd : Tied d) :
    Outline perform Grounded (fun _ _ => True) closeSentry d := by
  have hsplit : closeSentry = [.closePidServer, .destroyPidFile, .closeBellSocketPair, .closeJobControl] ++
      .ifRecorded .killChildProcess :: .ifRecorded .reapProcessChild :: [.ifRecorded .clearPid,
        .freeChildProcess, .closeSocketPair] := rfl
  have htied : ∀ {call rest d}, call.needsChild = false → Tied d → Grounded (call :: rest) d := by
    intro call rest d hneeds hd other hother
    obtain rfl := Option.mem_some_iff.mp hother
    exact ⟨fun h => absurd h (Bool.eq_false_iff.mp hneeds), fun _ => hd⟩
  rw [hsplit]
  refine Outline.append (J := Tied) (fun rest hrest d hd => ?_) (fun _ _ _ _ => trivial) ?_ ?_ hd
  · exact Grounded.append (by decide) hrest (htied rfl hd)
  · intro call hcall result ending d d' hd h
    have hsteady : call.steady = true := by
      clear h
      revert call
      decide
    exact hd.congr (perform_sameChild hsteady h)
  · refine fun d hd => ⟨htied rfl hd, fun result ending d' h => ⟨fun _ => ?_, fun _ => trivial⟩⟩
    have hd' : Tied d' := by
      rcases perform_cases h with rfl | rfl | ⟨he, -⟩
      · exact hd
      · unfold SentryCall.effect
        split_ifs <;> exact hd
      · cases he
    exact ⟨htied rfl hd', fun _ _ _ _ => ⟨fun _ => idle_outline (by decide) fun _ _ => trivial,
      fun _ => trivial⟩⟩

/-- What the sentry leaves to the cleanup at its end is tied as well. -/
def Ended (rest : List SentryCall) (d : SentryData) : Prop := Grounded rest d ∧ (rest = [] → Tied d)

theorem ended_cons {call : SentryCall} {rest : List SentryCall} {d : SentryData}
    (h : idle call = true) : Ended (call :: rest) d := by
  refine ⟨grounded_of_idle fun other hother => ?_, fun he => absurd he (List.cons_ne_nil _ _)⟩
  obtain rfl := Option.mem_some_iff.mp hother
  exact h

theorem Recorded.ended {rest : List SentryCall} {d : SentryData} (hd : Recorded d) : Ended rest d :=
  ⟨hd.grounded, fun _ _ => hd.child⟩

/-- Once the pid is cleared nothing is left to be killed. -/
theorem cleared_outline {calls : List SentryCall} {d : SentryData} (hd : d.mPid = 0)
    (hcalls : ∀ call ∈ calls, call.needsChild = false ∧ call ≠ .forkProcessChild)
    (hkeeps : ∀ call ∈ calls, ∀ d : SentryData, d.mPid = 0 → (call.effect d).mPid = 0) :
    Outline perform Ended (fun _ => Tied) calls d := by
  have htied : ∀ d : SentryData, d.mPid = 0 → Tied d := fun d hd hne => absurd hd hne
  refine Outline.of_invariant (J := fun d => d.mPid = 0) (fun rest hrest d hd => ?_)
    (fun rest _ d hd => htied d hd) ?_ hd
  · refine ⟨fun call hcall => ⟨fun hneeds => ?_, fun _ => htied d hd⟩, fun _ => htied d hd⟩
    rw [(hcalls call (hrest.subset (List.mem_of_mem_head? hcall))).1] at hneeds
    cases hneeds
  · intro call hcall result ending d d' hd h
    rcases perform_cases h with rfl | rfl | ⟨rfl, -⟩
    · exact hd
    · exact hkeeps call hcall d hd
    · exact absurd rfl (hcalls _ hcall).2

/-- The calls once the child is reaped. -/
def afterReap (options : SentryOptions) : List SentryCall :=
  closeChildProcess ++ if options.valgrind then [.reapUmbilical] else []

theorem afterRecord_eq (options : SentryOptions) : afterRecord options =
    (beforeUnwatch options ++ unwatched.map .unwatchJobControl) ++
      .reapProcessChild :: .clearPid :: afterReap options := by
  simp [afterRecord, afterDestroy, afterUnwatch, afterReap]

theorem afterReap_outline {options : SentryOptions} {d : SentryData} (hd : d.mPid = 0) :
    Outline perform Ended (fun _ => Tied) (afterReap options) d := by
  have hmem : ∀ call ∈ afterReap options, call ∈ closeChildProcess ∨ call = .reapUmbilical := by
    intro call hcall
    rcases List.mem_append.mp hcall with hcall | hcall
    · exact .inl hcall
    · split_ifs at hcall
      · exact .inr (List.mem_singleton.mp hcall)
      · exact absurd hcall List.not_mem_nil
  refine cleared_outline hd (fun call hcall => ?_) fun call hcall d hd => ?_
  · rcases hmem call hcall with hcall | rfl
    · have hclose : ∀ call ∈ closeChildProcess, call.needsChild = false ∧ call ≠ .forkProcessChild := by
        decide
      exact hclose call hcall
    · exact ⟨rfl, SentryCall.noConfusion⟩
  · rcases hmem call hcall with hcall | rfl
    · simp only [closeChildProcess, List.mem_cons, List.not_mem_nil, or_false] at hcall
      rcases hcall with rfl | rfl | rfl | rfl <;> simp [SentryCall.effect, hd]
    · exact hd

theorem reap_outline {options : SentryOptions} {d : SentryData} (hd : Recorded d) :
    Outline perform Ended (fun _ => Tied) (.reapProcessChild :: .clearPid :: afterReap options) d := by
  refine ⟨hd.ended, fun result ending d' h => ⟨fun _ => ?_, fun hending => ?_⟩⟩
  · refine ⟨ended_cons rfl, fun result ending d'' h => ⟨fun _ => ?_, fun hending => ?_⟩⟩
    · cases result with
      | ok =>
        cases h
        exact afterReap_outline rfl
      | forked childPid | failed => cases h
    · cases result with
      | ok =>
        cases h
        cases hending
      | forked childPid | failed => cases h
  · cases result with
    | ok =>
      cases h
      cases hending
    | forked childPid => cases h
    | failed =>
      cases h
      exact fun _ => hd.child

theorem recorded_grounded {options : SentryOptions} {d : SentryData} (hd : Recorded d) :
    Outline perform Ended (fun _ => Tied) (afterRecord options) d := by
  rw [afterRecord_eq]
  refine Outline.append (J := Recorded) (fun _ _ _ hd => hd.ended) (fun _ _ _ hd _ => hd.child) ?_
    (fun d hd => reap_outline hd) hd
  intro call hcall result ending d d' hd h
  have hsteady : call.steady = true := by
    rcases List.mem_append.mp hcall with hcall | hcall
    · exact (steady_of_mem hcall).1
    · obtain ⟨watcher, -, rfl⟩ := List.mem_map.mp hcall
      rfl
  exact hd.congr (perform_sameChild hsteady h)

theorem runAgentSentry_grounded (options : SentryOptions) :
    Outline perform Ended (fun _ => Tied) (runAgentSentry options) (start options).data := by
  have htied : ∀ d, Unrecorded d → Tied d := fun d hd hne => absurd hd.mPid hne
  rw [runAgentSentry_eq]
  refine Outline.append (J := Unrecorded) (fun rest hrest d hd => ?_) (fun rest _ d hd => htied d hd) ?_ ?_
    ⟨rfl, List.nil_subset _⟩
  · refine ⟨Grounded.append (by decide) hrest (ended_cons rfl).1, fun he => ?_⟩
    exact absurd he (List.append_ne_nil_of_right_ne_nil _ (List.cons_ne_nil _ _))
  · intro call hcall result ending d d' hd h
    rcases perform_cases h with rfl | rfl | ⟨rfl, -⟩
    · exact hd
    · exact hd.effect hcall
    · simp [beforeFork] at hcall
  · refine fun d hd => ⟨ended_cons rfl, fun result ending d' h => ?_⟩
    cases result with
    | ok => cases h
    | failed =>
      cases h
      exact ⟨Ending.noConfusion, fun _ => htied d hd⟩
    | forked childPid =>
      obtain ⟨hpid, h⟩ := Option.ite_none_right_eq_some.mp h
      cases h
      refine ⟨fun _ => ⟨ended_cons rfl, fun result ending d' h => ?_⟩, Ending.noConfusion⟩
      cases result with
      | forked childPid | failed => cases h
      | ok =>
        cases h
        have hne : childPid ≠ 0 := by
          rintro rfl
          exact absurd hpid (by decide)
        refine ⟨fun _ => ⟨ended_cons rfl, fun result ending d' h => ?_⟩, Ending.noConfusion⟩
        cases result with
        | forked childPid => cases h
        | failed =>
          cases h
          exact ⟨Ending.noConfusion, Ending.noConfusion⟩
        | ok =>
          cases h
          exact ⟨fun _ => recorded_grounded ⟨hne, rfl, rfl⟩, Ending.noConfusion⟩

/-- In every state of a sentry its next call finds the child that it relies on. -/
theorem grounded_of_reachable {options : SentryOptions} {s : SentryRun}
    (hs : (system options).Reachable s) (hstage : s.stage ≠ .aborted) : Grounded s.todo s.data := by
  have hmeets : s.Meets perform Ended (fun _ => Tied) (fun _ => Grounded) := by
    refine invariant_of_reachable (P := fun s => s.Meets perform Ended (fun _ => Tied) (fun _ => Grounded))
      ⟨rfl, runAgentSentry_grounded options⟩ (fun s result t hi h => hi.next ?_ ?_ h) hs
    · exact fun d hd => cleanup_outline (hd.2 rfl)
    · exact fun left d hd => cleanup_outline hd
  unfold Course.Meets at hmeets
  cases he : s.stage with
  | working =>
    rw [he] at hmeets
    exact hmeets.2.here.1
  | closing =>
    rw [he] at hmeets
    exact hmeets.here
  | aborted => exact absurd he hstage

end SentryRun

namespace ProcessWorld

open SentryRun

variable {s t : ProcessWorld} {u : UmbilicalProcess} {a : ProcessAct Pid} {table : ProcessTable Pid}

/-- What the umbilical process and its anchors have to do with the other processes. -/
structure Umbilical (s : ProcessWorld) (u : UmbilicalProcess) : Prop where
  tracks : s.table.Tracks u.self.pid u.self.self
  ne : u.self.self ≠ s.sentry.self
  child : s.child = some u.child ∧ u.child.pid = u.mPgid ∧ u.child.pid ≠ u.self.pid
  waiting : u.todo ≠ [] → SentryRun.Recorded s.run.data ∧
    (s.run.todo.head? = some .createUmbilicalProcess ∨ s.run.stage = .aborted)
  past : s.run.data.child ≠ .unforked
  todo : u.todo <:+ .setOwnProcessGroup :: postUmbilicalProcessChild
  forked : ∀ anchor, (u.anchor anchor).isSome ↔ .forkProcess anchor ∉ u.todo
  anchor : ∀ anchor forked, u.anchor anchor = some forked → forked.self < s.table.next ∧
    forked.self ≠ s.sentry.self ∧ forked.self ≠ u.child.self ∧ forked.self ≠ u.self.self ∧
    (s.table.Alive u.self.self → s.table.Ward forked.pid forked.self u.self.self)
  distinct : ∀ anchor other forked forked', u.anchor anchor = some forked →
    u.anchor other = some forked' → anchor ≠ other → forked.self ≠ forked'.self

structure Tended (s : ProcessWorld) : Prop where
  table : s.table.Consistent
  tracks : s.table.Tracks s.sentry.pid s.sentry.self
  settled : s.table.Settled s.sentry.self s.mSentryPgid s.clan
  child : ∀ child, s.child = some child → child.self < s.table.next ∧ child.self ≠ s.sentry.self
  ward : ∀ child, s.child = some child → s.sentryAlive → s.run.data.child ≠ .reaped →
    s.table.Ward child.pid child.self s.sentry.self
  forked : ∀ pid, s.run.data.child = .forked pid → s.child.map Forked.pid = some pid
  umbilical : ∀ u, s.umbilical = some u → s.Umbilical u

theorem Tended.umbilicalAct (hs : s.Tended) (hu : s.umbilical = some u) (h : s.table.act a = some table)
    (hreap : ∀ anchor forked, u.anchor anchor = some forked → s.table.Alive u.self.self →
      a ≠ .reap forked.pid) :
    Umbilical { s with table } u := by
  obtain ⟨htracks, hne, hchild, hwaiting, hpast, htodo, hforked, hanchor, hdistinct⟩ := hs.umbilical u hu
  refine ⟨htracks.act h, hne, hchild, hwaiting, hpast, htodo, hforked, fun anchor forked he => ?_, hdistinct⟩
  obtain ⟨hlt, hsentry, hchild, hself, hward⟩ := hanchor anchor forked he
  refine ⟨Nat.lt_of_lt_of_le hlt (ProcessTable.next_le_of_act h), hsentry, hchild, hself, fun halive => ?_⟩
  have halive' := halive.of_act h htracks.1
  exact (hward halive').act hs.table h (hreap anchor forked he halive') htracks.1 halive

/-- An act that reaps none of the wards and does not move the sentry. -/
theorem Tended.act (hs : s.Tended) (h : s.table.act a = some table)
    (hset : ∀ x ∈ s.table.processes, x.self = s.sentry.self → ∀ group, a ≠ .setpgid x.number group)
    (hchild : ∀ child, s.child = some child → s.run.data.child ≠ .reaped → s.sentryAlive →
      a ≠ .reap child.pid)
    (hanchor : ∀ u anchor forked, s.umbilical = some u → u.anchor anchor = some forked →
      s.table.Alive u.self.self → a ≠ .reap forked.pid) : Tended { s with table } where
  table := hs.table.act h
  tracks := hs.tracks.act h
  settled := hs.settled.act h hset
  child child he := by
    obtain ⟨hlt, hne⟩ := hs.child child he
    exact ⟨Nat.lt_of_lt_of_le hlt (ProcessTable.next_le_of_act h), hne⟩
  ward child he halive hreaped := by
    have halive' : s.sentryAlive := ProcessTable.Alive.of_act halive h hs.tracks.1
    exact (hs.ward child he halive' hreaped).act hs.table h (hchild child he hreaped halive') hs.tracks.1 halive
  forked := hs.forked
  umbilical u hu := hs.umbilicalAct hu h fun anchor forked he => hanchor u anchor forked hu he

theorem self_mem_household : s.sentry.self ∈ s.household := List.mem_cons_self

theorem umbilical_mem_household (hu : s.umbilical = some u) : u.self.self ∈ s.household := by
  simp [household, hu]

theorem anchor_mem_household (hu : s.umbilical = some u) {anchor : Anchor} {forked : Forked}
    (h : u.anchor anchor = some forked) : forked.self ∈ s.household := by
  cases anchor with
  | child =>
    have h : u.mChildAnchor = some forked := h
    simp [household, hu, h]
  | sentry =>
    have h : u.mSentryAnchor = some forked := h
    simp [household, hu, h]

theorem permits_setpgid (hs : s.table.Consistent) {x : Process Pid} {group : Pid} (hx : x ∈ s.table.processes)
    (h : s.permits (.setpgid x.number group) = true) : x.self ∉ s.household := by
  simpa [permits, hs.entry hx] using h

theorem permits_reap (hs : s.table.Consistent) {number : Pid} {self parent : Nat}
    (hward : s.table.Ward number self parent) (h : s.permits (.reap number) = true) :
    parent ∉ s.household := by
  obtain ⟨x, hx, rfl, -, hparent⟩ := hward
  simpa [permits, hs.entry hx, hparent] using h

theorem Tended.other (hs : s.Tended) (hpermits : s.permits a = true) (h : s.table.act a = some table) :
    Tended { s with table } := by
  refine hs.act h ?_ ?_ ?_
  · rintro x hx hself group rfl
    exact permits_setpgid hs.table hx hpermits (hself ▸ self_mem_household)
  · rintro child hchild hreaped halive rfl
    exact permits_reap hs.table (hs.ward child hchild halive hreaped) hpermits self_mem_household
  · rintro u anchor forked hu hanchor halive rfl
    have hward := ((hs.umbilical u hu).anchor anchor forked hanchor).2.2.2.2 halive
    exact permits_reap hs.table hward hpermits (umbilical_mem_household hu)

/-- The sentry reaps the child only when it is done with it, and no anchor. -/
theorem Tended.reapProcessChild (hs : s.Tended) {pid : Pid} (h : s.reapProcessChild pid = some table)
    (hchild : ∀ child, s.child = some child → s.run.data.child ≠ .reaped → pid ≠ child.pid) :
    Tended { s with table } := by
  obtain ⟨x, hx, h⟩ := Option.bind_eq_some_iff.mp h
  obtain ⟨hparent, h⟩ := Option.ite_none_right_eq_some.mp h
  refine hs.act h (fun _ _ _ _ => by simp) ?_ ?_
  · intro child he hreaped halive hact
    exact hchild child he hreaped (ProcessAct.reap.inj hact)
  · intro u anchor forked hu he halive hact
    obtain ⟨y, hy, hnumber, -, hparent'⟩ := ((hs.umbilical u hu).anchor anchor forked he).2.2.2.2 halive
    obtain ⟨hx, hx'⟩ := ProcessTable.mem_of_entry hx
    obtain rfl := hs.table.eq_of_number hx hy (by rw [hx', hnumber, ProcessAct.reap.inj hact])
    exact (hs.umbilical u hu).ne (Option.some.inj (hparent'.symm.trans hparent))

theorem child_of_effect (call : SentryCall) (d : SentryData) :
    (call.effect d).child = d.child ∨ (call.effect d).child = .reaped := by
  induction call with
  | reapProcessChild =>
    unfold SentryCall.effect
    split_ifs
    · exact .inr rfl
    · exact .inl rfl
  | ifRecorded call ih =>
    unfold SentryCall.effect
    split_ifs
    · exact ih
    · exact .inl rfl
  | _ => exact .inl rfl

theorem child_of_perform {call : SentryCall} {result : CallResult} {ending : Ending} {d d' : SentryData}
    (h : call.perform result d = some (ending, d')) : d'.child = d.child ∨ d'.child = .reaped ∨
      ∃ pid, call = .forkProcessChild ∧ result = .forked pid ∧ d'.child = .forked pid := by
  rcases SentryCall.perform_cases h with rfl | rfl | ⟨rfl, -⟩
  · exact .inl rfl
  · exact (child_of_effect call d).imp_right .inl
  · cases result with
    | ok => cases h
    | failed =>
      cases h
      exact .inl rfl
    | forked pid =>
      obtain ⟨-, h⟩ := Option.ite_none_right_eq_some.mp h
      cases h
      exact .inr (.inr ⟨_, rfl, rfl, rfl⟩)

/-- A sentry that fails to create the umbilical process aborts. -/
theorem waiting_of_call {run run' : SentryRun} {result : CallResult}
    (h : run.next (.call result) = some run') (hdata : SentryRun.Recorded run.data)
    (hwaiting : run.todo.head? = some .createUmbilicalProcess ∨ run.stage = .aborted)
    (hresult : result ≠ .ok) : SentryRun.Recorded run'.data ∧ run'.stage = .aborted := by
  have hstage := Course.unaborted_of_next h
  have hcreate := hwaiting.resolve_right hstage
  cases Course.steps_of_next h with
  | returns left data => cases hcreate
  | @goesOn call calls left stage data data' hstage hcall =>
    obtain rfl : call = .createUmbilicalProcess := Option.some.inj hcreate
    cases result with
    | ok => exact absurd rfl hresult
    | failed | forked childPid => cases hcall
  | @fails call calls left data data' hcall =>
    obtain rfl : call = .createUmbilicalProcess := Option.some.inj hcreate
    cases result with
    | ok => exact absurd rfl hresult
    | failed | forked childPid => cases hcall
  | @aborts call calls left stage data data' ending hstage hcall =>
    obtain rfl : call = .createUmbilicalProcess := Option.some.inj hcreate
    cases result with
    | ok => exact absurd rfl hresult
    | forked childPid => cases hcall
    | failed =>
      cases hcall
      exact ⟨hdata, rfl⟩

theorem Tended.run (hs : s.Tended) {run : SentryRun} {result : CallResult}
    (h : s.run.next (.call result) = some run)
    (hfork : ∀ pid, s.run.todo.head? = some .forkProcessChild → result = .forked pid →
      s.child.map Forked.pid = some pid ∧
        ∀ child, s.child = some child → s.table.Ward child.pid child.self s.sentry.self)
    (hcreate : s.run.todo.head? = some .createUmbilicalProcess → result = .ok →
      ∀ u, s.umbilical = some u → u.todo = []) : Tended { s with run } := by
  have hchange : run.data.child = s.run.data.child ∨ run.data.child = .reaped ∨
      ∃ pid, s.run.todo.head? = some .forkProcessChild ∧ result = .forked pid ∧
        run.data.child = .forked pid := by
    rcases Course.data_of_next h with he | ⟨call, calls, ending, htodo, hcall⟩
    · exact .inl (congrArg SentryData.child he)
    · rcases child_of_perform hcall with he | he | ⟨pid, rfl, he⟩
      · exact .inl he
      · exact .inr (.inl he)
      · refine .inr (.inr ⟨pid, ?_, he⟩)
        rw [htodo]
        rfl
  refine ⟨hs.table, hs.tracks, hs.settled, hs.child, fun child he halive hreaped => ?_, fun pid he => ?_,
    fun u hu => ?_⟩
  · rcases hchange with hsame | hsame | ⟨pid, hcall, hresult, -⟩
    · exact hs.ward child he halive (hsame ▸ hreaped)
    · exact absurd hsame hreaped
    · exact (hfork pid hcall hresult).2 child he
  · rcases hchange with hsame | hsame | ⟨pid', hcall, hresult, hforked⟩
    · exact hs.forked pid (hsame.symm.trans he)
    · exact absurd (he.symm.trans hsame) SentryChild.noConfusion
    · obtain rfl := SentryChild.forked.inj (hforked.symm.trans he)
      exact (hfork _ hcall hresult).1
  · have hi := hs.umbilical u hu
    refine ⟨hi.tracks, hi.ne, hi.child, fun hne => ?_, ?_, hi.todo, hi.forked, hi.anchor, hi.distinct⟩
    · obtain ⟨hrecorded, hwaiting⟩ := hi.waiting hne
      have hstage := Course.unaborted_of_next h
      have hresult : result ≠ .ok := fun hok =>
        hne (hcreate (hwaiting.resolve_right hstage) hok u hu)
      exact (waiting_of_call h hrecorded hwaiting hresult).imp_right .inr
    · rcases hchange with hsame | hsame | ⟨pid, -, -, hforked⟩
      · rw [hsame]
        exact hi.past
      · rw [hsame]
        exact SentryChild.noConfusion
      · rw [hforked]
        exact SentryChild.noConfusion

/-- What of the sentry's calls is of consequence for the other processes. -/
theorem callTable_cases {call : SentryCall} {result : CallResult} (h : s.callTable call result = some table) :
    table = s.table ∨ result = .ok ∧ ∃ pid, s.reaps call = some pid ∧ s.reapProcessChild pid = some table := by
  cases result with
  | forked pid =>
    obtain ⟨x, -, h⟩ := Option.bind_eq_some_iff.mp h
    obtain ⟨-, h⟩ := Option.ite_none_right_eq_some.mp h
    exact .inl (Option.some.inj h).symm
  | failed => exact .inl (Option.some.inj h).symm
  | ok =>
    obtain ⟨-, h⟩ := Option.ite_none_left_eq_some.mp h
    cases hreaps : s.reaps call with
    | none =>
      rw [hreaps] at h
      exact .inl (Option.some.inj h).symm
    | some pid =>
      rw [hreaps] at h
      exact .inr ⟨rfl, pid, rfl, h⟩

theorem reaps_cases {call : SentryCall} {pid : Pid} (h : s.reaps call = some pid) :
    (call = .reapProcessChild ∨ call = .ifRecorded .reapProcessChild ∧ s.run.data.mChildProcess = true ∧
      s.run.data.mPid ≠ 0) ∧ pid = s.run.data.mPid ∨ ∃ u, s.umbilical = some u ∧ pid = u.self.pid := by
  unfold reaps at h
  split_ifs at h with hcall hrecorded
  · exact .inl ⟨.inl hcall, (Option.some.inj h).symm⟩
  · exact .inl ⟨.inr hrecorded, (Option.some.inj h).symm⟩
  · obtain ⟨u, hu, rfl⟩ := Option.map_eq_some_iff.mp h
    exact .inr ⟨u, hu, rfl⟩

theorem fork_of_callTable {call : SentryCall} {pid : Pid} (h : s.callTable call (.forked pid) = some table) :
    s.child.map Forked.pid = some pid ∧
      ∀ child, s.child = some child → s.table.Ward child.pid child.self s.sentry.self := by
  obtain ⟨x, hx, h⟩ := Option.bind_eq_some_iff.mp h
  obtain ⟨⟨hchild, hparent, -⟩, -⟩ := Option.ite_none_right_eq_some.mp h
  obtain ⟨hmem, hnumber⟩ := ProcessTable.mem_of_entry hx
  refine ⟨?_, fun child he => ?_⟩
  · rw [hchild]
    rfl
  · obtain rfl := Option.some.inj (hchild.symm.trans he)
    exact ⟨x, hmem, hnumber, rfl, hparent⟩

theorem create_of_callTable (h : s.callTable .createUmbilicalProcess .ok = some table)
    (hu : s.umbilical = some u) : u.todo = [] := by
  obtain ⟨htodo, -⟩ := Option.ite_none_left_eq_some.mp h
  simpa [hu] using htodo

/-- The sentry has the child recorded when it reaps it, and no more afterwards. -/
theorem reaped_of_call {run run' : SentryRun} {call : SentryCall} {calls : List SentryCall}
    (h : run.next (.call .ok) = some run') (htodo : run.todo = call :: calls)
    (hground : Grounded run.todo run.data) (hcall : call = .reapProcessChild ∨
      call = .ifRecorded .reapProcessChild ∧ run.data.mChildProcess = true ∧ run.data.mPid ≠ 0) :
    run'.data.child = .reaped := by
  have hground := hground call (by rw [htodo]; rfl)
  have hstage := Course.unaborted_of_next h
  have hnext : Course.next SentryCall.perform closeSentry run .ok = some run' := h
  rw [Course.next_cons hstage htodo] at hnext
  rcases hcall with rfl | ⟨rfl, hprocess, hpid⟩
  · obtain rfl := Option.some.inj hnext
    show (SentryCall.effect run.data .reapProcessChild).child = .reaped
    rw [SentryCall.effect, if_pos (hground.1 rfl).child]
  · obtain rfl := Option.some.inj hnext
    show (SentryCall.effect run.data (.ifRecorded .reapProcessChild)).child = .reaped
    rw [SentryCall.effect, if_pos ⟨hprocess, hpid⟩, SentryCall.effect, if_pos (hground.2 rfl hpid)]

theorem Tended.call (hs : s.Tended) {call : SentryCall} {calls : List SentryCall} {result : CallResult}
    {run : SentryRun} (hground : Grounded s.run.todo s.run.data) (htodo : s.run.todo = call :: calls)
    (hrun : s.run.next (.call result) = some run) (htable : s.callTable call result = some table) :
    Tended { s with table, run } := by
  have hhead : ∀ {other}, s.run.todo.head? = some other → call = other := by
    intro other h
    rw [htodo] at h
    exact Option.some.inj h
  have hs' : Tended { s with run } := by
    refine hs.run hrun (fun pid hcall hresult => ?_) fun hcall hresult u hu => ?_
    · obtain rfl := hhead hcall
      obtain rfl := hresult
      exact fork_of_callTable htable
    · obtain rfl := hhead hcall
      obtain rfl := hresult
      exact create_of_callTable htable hu
  rcases callTable_cases htable with rfl | ⟨rfl, pid, hreaps, hreap⟩
  · exact hs'
  · refine hs'.reapProcessChild hreap fun child hchild hreaped => ?_
    rcases reaps_cases hreaps with ⟨hcall, rfl⟩ | ⟨u, hu, rfl⟩
    · exact absurd (reaped_of_call hrun htodo hground hcall) hreaped
    · obtain ⟨he, -, hne⟩ := (hs.umbilical u hu).child
      obtain rfl := Option.some.inj (he.symm.trans hchild)
      exact hne.symm

theorem Tended.forkChild (hs : s.Tended) {pid : Pid} (halive : s.sentryAlive) (hnone : s.child = none)
    (h : s.table.act (.fork s.sentry.pid pid) = some table) :
    Tended { s with table, child := some ⟨pid, s.table.next⟩ } := by
  obtain ⟨-, hward, htracks⟩ := ProcessTable.ward_of_fork h hs.table hs.tracks halive
  have hs' : Tended { s with table } := hs.act h (by simp) (by simp) (by simp)
  refine ⟨hs'.table, hs'.tracks, hs'.settled, fun child he => ?_, fun child he _ _ => ?_, fun pid he => ?_,
    fun u hu => ?_⟩
  · obtain rfl := Option.some.inj he
    exact ⟨htracks.1, Nat.ne_of_gt hs.tracks.1⟩
  · obtain rfl := Option.some.inj he
    exact hward
  · have hforked := hs.forked pid he
    rw [hnone] at hforked
    cases hforked
  · have hchild := (hs.umbilical u hu).child.1
    rw [hnone] at hchild
    cases hchild

theorem Tended.groupChild (hs : s.Tended) {child : Forked} (hchild : s.child = some child)
    (hself : (s.table.entry child.pid).map Process.self = some child.self)
    (h : s.table.act (.setpgid child.pid child.pid) = some table) : Tended { s with table } := by
  refine hs.act h (fun x hx hsentry group he => ?_) (by simp) (by simp)
  have hnumber : child.pid = x.number := (ProcessAct.setpgid.inj he).1
  rw [hnumber, hs.table.entry hx] at hself
  exact (hs.child child hchild).2 ((Option.some.inj hself).symm.trans hsentry)

theorem Tended.forkUmbilical (hs : s.Tended) {pid : Pid} {child : Forked}
    (hground : Grounded s.run.todo s.run.data) (hcall : s.atCall .createUmbilicalProcess)
    (hchild : s.child = some child) (h : s.table.act (.fork s.sentry.pid pid) = some table) :
    Tended { s with
      table
      umbilical := some ⟨⟨pid, s.table.next⟩, child, s.run.data.mPgid,
        .setOwnProcessGroup :: postUmbilicalProcessChild, none, none⟩ } := by
  obtain ⟨halive, -, hhead⟩ := hcall
  have hrecorded : SentryRun.Recorded s.run.data := (hground _ hhead).1 rfl
  obtain ⟨hfree, -, htracks⟩ := ProcessTable.ward_of_fork h hs.table hs.tracks halive
  have hs' : Tended { s with table } := hs.act h (by simp) (by simp) (by simp)
  have hpid : child.pid = s.run.data.mPid := by
    have hforked := hs.forked _ hrecorded.child
    rw [hchild] at hforked
    exact Option.some.inj hforked
  have hunreaped : s.run.data.child ≠ .reaped := by
    rw [hrecorded.child]
    exact SentryChild.noConfusion
  obtain ⟨x, hx, hnumber, -, -⟩ := hs.ward child hchild halive hunreaped
  refine ⟨hs'.table, hs'.tracks, hs'.settled, hs'.child, hs'.ward, hs'.forked, fun u hu => ?_⟩
  obtain rfl := Option.some.inj hu
  refine ⟨htracks, Nat.ne_of_gt hs.tracks.1, ⟨hchild, hpid.trans hrecorded.mPgid.symm, ?_⟩,
    fun _ => ⟨hrecorded, .inl hhead⟩, ?_, List.suffix_rfl, fun anchor => ?_, fun anchor forked he => ?_,
    fun anchor _ _ _ he => ?_⟩
  · exact hnumber ▸ (hfree x hx).1
  · show s.run.data.child ≠ .unforked
    rw [hrecorded.child]
    exact SentryChild.noConfusion
  · cases anchor <;> simp [UmbilicalProcess.anchor, postUmbilicalProcessChild]
  · cases anchor <;> cases he
  · cases anchor <;> cases he

/-- The umbilical process goes on to its next call. -/
theorem Umbilical.next (hi : s.Umbilical u) {call : UmbilicalCall} {todo : List UmbilicalCall}
    (htodo : u.todo = call :: todo) (hcall : ∀ anchor, call ≠ .forkProcess anchor) :
    s.Umbilical { u with todo } := by
  refine ⟨hi.tracks, hi.ne, hi.child, fun _ => hi.waiting ?_, hi.past, ?_, fun anchor => ?_, hi.anchor,
    hi.distinct⟩
  · rw [htodo]
    exact List.cons_ne_nil _ _
  · have hsuffix := hi.todo
    rw [htodo] at hsuffix
    exact (List.suffix_cons call todo).trans hsuffix
  · have hforked := hi.forked anchor
    rw [htodo, List.mem_cons, not_or] at hforked
    exact hforked.trans (and_iff_right (hcall anchor).symm)

theorem Tended.setUmbilical (hs : s.Tended) (hi : s.Umbilical u) : Tended { s with umbilical := some u } := by
  refine ⟨hs.table, hs.tracks, hs.settled, hs.child, hs.ward, hs.forked, fun v hv => ?_⟩
  obtain rfl := Option.some.inj hv
  exact ⟨hi.tracks, hi.ne, hi.child, hi.waiting, hi.past, hi.todo, hi.forked, hi.anchor, hi.distinct⟩

/-- Only a process that is there is put into another group by its pid. -/
theorem Tended.setpgid (hs : s.Tended) {forked : Forked} {group : Pid}
    (hentry : ∃ x ∈ s.table.processes, x.number = forked.pid ∧ x.self = forked.self)
    (hne : forked.self ≠ s.sentry.self) (h : s.table.act (.setpgid forked.pid group) = some table) :
    Tended { s with table } := by
  refine hs.act h (fun x hx hsentry _ he => ?_) (by simp) (by simp)
  obtain ⟨y, hy, hnumber, hself⟩ := hentry
  obtain rfl := hs.table.eq_of_number hx hy ((ProcessAct.setpgid.inj he).1.symm.trans hnumber.symm)
  exact hne (hself.symm.trans hsentry)

theorem Umbilical.forks (hi : s.Umbilical u) (hs : s.Tended) {pid : Pid} {anchor : Anchor}
    {todo : List UmbilicalCall} (hu : s.umbilical = some u) (halive : s.table.Alive u.self.self)
    (htodo : u.todo = .forkProcess anchor :: todo)
    (h : s.table.act (.fork u.self.pid pid) = some table) :
    Umbilical { s with table } ({ u with todo }.setAnchor ⟨pid, s.table.next⟩ anchor) := by
  obtain ⟨-, hward, htracks⟩ := ProcessTable.ward_of_fork h hs.table hi.tracks halive
  have hi' : Umbilical { s with table } u := hs.umbilicalAct hu h (by simp)
  have hchild := (hs.child u.child hi.child.1).1
  have hnodup : (UmbilicalCall.forkProcess anchor :: todo).Nodup := by
    rw [← htodo]
    exact hi.todo.sublist.nodup (by decide)
  have hanchor : ∀ other, ({ u with todo }.setAnchor ⟨pid, s.table.next⟩ anchor).anchor other =
      if other = anchor then some ⟨pid, s.table.next⟩ else u.anchor other :=
    fun other => UmbilicalProcess.anchor_setAnchor _ _ anchor other
  have hne : u.todo ≠ [] := by
    rw [htodo]
    exact List.cons_ne_nil _ _
  have hsuffix := hi.todo
  rw [htodo] at hsuffix
  refine ⟨?_, ?_, ?_, fun _ => hi.waiting hne, hi.past, ?_, fun other => ?_, fun other forked he => ?_,
    fun a b f f' ha hb hab => ?_⟩
  · simpa using hi'.tracks
  · simpa using hi.ne
  · simpa using hi.child
  · simpa using (List.suffix_cons _ todo).trans hsuffix
  · have hforked := hi.forked other
    rw [htodo, List.mem_cons, not_or] at hforked
    rw [hanchor, UmbilicalProcess.setAnchor_todo]
    by_cases hother : other = anchor
    · subst hother
      simpa using (List.nodup_cons.mp hnodup).1
    · rw [if_neg hother]
      refine hforked.trans (and_iff_right fun he => hother ?_)
      exact UmbilicalCall.forkProcess.inj he
  · rw [hanchor] at he
    simp only [UmbilicalProcess.setAnchor_self, UmbilicalProcess.setAnchor_child]
    by_cases hother : other = anchor
    · rw [if_pos hother] at he
      obtain rfl := Option.some.inj he
      exact ⟨htracks.1, Nat.ne_of_gt hs.tracks.1, Nat.ne_of_gt hchild, Nat.ne_of_gt hi.tracks.1, fun _ => hward⟩
    · rw [if_neg hother] at he
      exact hi'.anchor other forked he
  · rw [hanchor] at ha hb
    have hlt : ∀ other forked, u.anchor other = some forked → forked.self < s.table.next :=
      fun other forked he => (hi.anchor other forked he).1
    split_ifs at ha hb with h₁ h₂ h₂
    · exact absurd (h₁.trans h₂.symm) hab
    · obtain rfl := Option.some.inj ha
      exact Nat.ne_of_gt (hlt b f' hb)
    · obtain rfl := Option.some.inj hb
      exact Nat.ne_of_lt (hlt a f ha)
    · exact hi.distinct a b f f' ha hb hab

/-- Everything that happens leaves the sentry and the umbilical process their wards. -/
theorem Tended.step (hs : s.Tended) (hground : s.run.stage ≠ .aborted → Grounded s.run.todo s.run.data)
    {event : ProcessEvent} (h : Steps s event t) : t.Tended := by
  cases h with
  | call halive htodo hrun htable => exact hs.call (hground (Course.unaborted_of_next hrun)) htodo hrun htable
  | returns halive htodo hrun => exact hs.run hrun (by simp [htodo]) (by simp [htodo])
  | callback halive hrun | terminate hcall | kills hevent hu halive htodo => exact hs
  | forkChild hcall hnone hpid htable => exact hs.forkChild hcall.1 hnone htable
  | groupChild hchild hunforked hself htable => exact hs.groupChild hchild hself htable
  | forkUmbilical hcall hnone hchild htable => exact hs.forkUmbilical (hground hcall.2.1) hcall hchild htable
  | leads hu halive htodo htable =>
    have hi := hs.umbilical _ hu
    obtain ⟨x, hx, hself, -⟩ := halive
    have hs' := hs.setpgid ⟨x, hx, hi.tracks.2 x hx hself, hself⟩ hi.ne htable
    exact hs'.setUmbilical ((hs'.umbilical _ hu).next htodo fun _ => UmbilicalCall.noConfusion)
  | forks hu halive htodo htable =>
    have hs' := hs.act htable (by simp) (by simp) (by simp)
    exact hs'.setUmbilical ((hs.umbilical _ hu).forks hs hu halive htodo htable)
  | joins hu halive htodo hanchor htable =>
    have hi := hs.umbilical _ hu
    obtain ⟨-, hne, -, -, hward⟩ := hi.anchor _ _ hanchor
    obtain ⟨x, hx, hnumber, hself, -⟩ := hward halive
    have hs' := hs.setpgid ⟨x, hx, hnumber, hself⟩ hne htable
    exact hs'.setUmbilical ((hs'.umbilical _ hu).next htodo fun _ => UmbilicalCall.noConfusion)
  | other hpermits htable => exact hs.other hpermits htable

variable {options : SentryOptions}

/-- A sentry on its own, as pid 5, and how it comes to have a guarded child. -/
def alone : ProcessWorld where
  table := ⟨[⟨5, 0, none, 5, 0, false⟩], 1⟩
  sentry := ⟨5, 0⟩
  mSentryPgid := 5
  clan := 0
  run := SentryRun.start ⟨false, false, true, false, false⟩
  child := none
  umbilical := none

theorem alone_begins : Begins ⟨false, false, true, false, false⟩ alone := by
  refine ⟨⟨by decide, by decide, ?_, ?_, ?_⟩, ⟨_, List.mem_cons_self, rfl, rfl, rfl, rfl⟩, rfl, rfl, rfl⟩ <;>
    simp [alone]

def guarding : List ProcessEvent :=
  List.replicate 6 (.sentry (.call .ok)) ++ [.forkChild 7, .groupChild, .sentry (.call (.forked 7))] ++
    List.replicate 10 (.sentry (.call .ok)) ++
    [.forkUmbilical 8, .umbilical 0, .umbilical 9, .umbilical 0, .umbilical 10, .umbilical 0]

theorem run_of_reachable (hs : (system options).Reachable s) :
    (SentryRun.system options).Reachable s.run := by
  refine System.Reachable.project (M := system options) ProcessWorld.run (fun s hi => hi.run)
    (fun s event t _ h => ?_) hs
  cases steps_of_next h with
  | call _ _ hrun _ | returns _ _ hrun => exact .inr ⟨_, hrun⟩
  | _ => exact .inl rfl

theorem tended_of_reachable (hs : (system options).Reachable s) : s.Tended := by
  refine System.Reachable.invariant (fun s hi => ?_) (fun s event t hs hi h => ?_) hs
  · obtain ⟨x, hx, hnumber, hself, hgroup, hclan⟩ := hi.sentry
    have hlt : s.sentry.self < s.table.next := hself ▸ (hi.table.next x hx).1
    have heq : ∀ y ∈ s.table.processes, y.self = s.sentry.self → y = x :=
      fun y hy he => hi.table.eq_of_self hy hx (he.trans hself.symm)
    refine ⟨hi.table, ⟨hlt, fun y hy he => ?_⟩, ⟨hlt, fun y hy he => ?_⟩, ?_, ?_, fun pid he => ?_, ?_⟩
    · rw [heq y hy he, hnumber]
    · rw [heq y hy he, hgroup, hclan]
      exact ⟨rfl, rfl⟩
    · simp [hi.child]
    · simp [hi.child]
    · rw [hi.run] at he
      cases he
    · simp [hi.umbilical]
  · exact hi.step (grounded_of_reachable (run_of_reachable hs)) (steps_of_next h)

/-- Whom the sentry signals it has recorded, and has not reaped. -/
theorem recorded_of_signals {event : ProcessEvent} {target : SignalTarget}
    (hs : (system options).Reachable s) (h : s.next event = some t) (hevent : bySentry event = true)
    (htarget : s.signals event = some target) : s.sentryAlive ∧ target.number ≠ 0 ∧
      s.run.data.child = .forked target.number ∧ target ≠ .sentryGroup target.number := by
  have hrun := run_of_reachable hs
  have hground := grounded_of_reachable hrun
  cases steps_of_next h with
  | @call result call calls run table halive htodo hstep htable =>
    have hground := hground (Course.unaborted_of_next hstep) call (by rw [htodo]; rfl)
    simp only [signals, htodo] at htarget
    split at htarget
    · obtain ⟨rfl, -⟩ := List.cons.inj ‹_›
      obtain rfl := Option.some.inj htarget
      have hrecorded : SentryRun.Recorded s.run.data := hground.1 rfl
      refine ⟨halive, ?_, ?_, SignalTarget.noConfusion⟩
      · exact hrecorded.mPgid ▸ hrecorded.mPid
      · exact hrecorded.mPgid ▸ hrecorded.child
    · obtain ⟨rfl, -⟩ := List.cons.inj ‹_›
      obtain ⟨⟨-, hpid⟩, he⟩ := Option.ite_none_right_eq_some.mp htarget
      obtain rfl := Option.some.inj he
      exact ⟨halive, hpid, hground.2 rfl hpid, SignalTarget.noConfusion⟩
    · cases htarget
  | returns halive htodo hstep =>
    simp only [signals, htodo] at htarget
    cases htarget
  | @callback callback halive hstep =>
    obtain ⟨hstage, hwatched, -⟩ := next_callback.mp hstep
    have hi := watched_of_reachable hrun hstage
    cases callback with
    | raiseSentrySignal =>
      obtain rfl := Option.some.inj htarget
      obtain ⟨hpid, hchild⟩ := hi.signals hwatched
      exact ⟨halive, hpid, hchild, SignalTarget.noConfusion⟩
    | raiseSentryStop | raiseSentryResume =>
      obtain rfl := Option.some.inj htarget
      obtain ⟨hpgid, hchild⟩ := hi.stop hwatched
      exact ⟨halive, hpgid, hchild, SignalTarget.noConfusion⟩
    | reapSentry supervised | raiseSentrySigCont => cases htarget
  | terminate hcall =>
    obtain ⟨halive, hstage, hhead⟩ := hcall
    obtain rfl := Option.some.inj htarget
    have hrecorded : SentryRun.Recorded s.run.data := (hground hstage _ hhead).1 rfl
    exact ⟨halive, hrecorded.mPid, hrecorded.child, SignalTarget.noConfusion⟩
  | kills hkill =>
    rcases hkill with rfl | rfl <;> cases hevent
  | forkChild | groupChild | forkUmbilical | leads | forks | joins | other => cases hevent

/-- The sentry signals the child or its process group, whatever has become of the other
processes, and the child if it is meant is there. -/
theorem sentry_signals_child (hs : (system options).Reachable s) {event : ProcessEvent}
    (h : s.next event = some t) (hevent : bySentry event = true) {target : SignalTarget}
    (htarget : s.signals event = some target) : target.number ≠ 0 ∧
      (∀ x ∈ s.table.processes, target.reaches x → s.intends x target) ∧
      ∃ child, s.child = some child ∧
        ∃ x ∈ s.table.processes, x.self = child.self ∧ x.number = target.number := by
  obtain ⟨halive, hne, hchild, hnot⟩ := recorded_of_signals hs h hevent htarget
  have hi := tended_of_reachable hs
  obtain ⟨child, he, hpid⟩ := Option.map_eq_some_iff.mp (hi.forked _ hchild)
  have hunreaped : s.run.data.child ≠ .reaped := by
    rw [hchild]
    exact SentryChild.noConfusion
  obtain ⟨y, hy, hnumber, hself, -⟩ := hi.ward child he halive hunreaped
  have hheld := hi.table.held_of_number hy
  rw [hnumber, hpid, hself] at hheld
  refine ⟨hne, fun x hx hreaches => ?_, child, he, y, hy, hself, hnumber.trans hpid⟩
  cases target with
  | child pid => exact ⟨child, he, hheld.2 x hx hreaches⟩
  | childGroup pgid => exact ⟨child, he, hheld.1 x hx hreaches⟩
  | sentryGroup pgid => exact absurd rfl hnot

theorem sentry_signals_stopped : ∃ s t, guarding.foldlM next alone = some s ∧
    s.next (.sentry (.callback .raiseSentryStop)) = some t ∧
    ∀ x ∈ s.table.processes, x.group = 7 → s.intends x (.childGroup 7) := by
  obtain ⟨s, hs⟩ := Option.isSome_iff_exists.mp (show (guarding.foldlM next alone).isSome by decide)
  obtain ⟨t, ht⟩ := Option.isSome_iff_exists.mp
    (show ((guarding.foldlM next alone).bind (next · (.sentry (.callback .raiseSentryStop)))).isSome by decide)
  have htarget : (guarding.foldlM next alone).bind (signals · (.sentry (.callback .raiseSentryStop))) =
      some (.childGroup 7) := by decide
  rw [hs, Option.bind_some] at ht htarget
  have hreachable := System.Reachable.of_foldlM (.of_init alone_begins) guarding hs
  exact ⟨s, t, hs, ht, (sentry_signals_child hreachable ht rfl htarget).2.1⟩

/-- The anchors that have been put into the process groups are still in them. -/
def Anchored (s : ProcessWorld) : Prop :=
  ∀ u anchor forked, s.umbilical = some u → u.anchor anchor = some forked →
    .setProcessGroup anchor ∉ u.todo → s.table.Settled forked.self (s.pgid u anchor) (s.founder u anchor)

theorem Anchored.act (ha : s.Anchored) (h : s.table.act a = some table)
    (hset : ∀ u anchor forked, s.umbilical = some u → u.anchor anchor = some forked →
      .setProcessGroup anchor ∉ u.todo →
      ∀ x ∈ s.table.processes, x.self = forked.self → ∀ group, a ≠ .setpgid x.number group) :
    Anchored { s with table } :=
  fun u anchor forked hu he htodo => (ha u anchor forked hu he htodo).act h (hset u anchor forked hu he htodo)

/-- What the anchors are to hold is held by the sentry, and by the child for the sentry. -/
theorem Tended.held (hs : s.Tended) (hu : s.umbilical = some u) (hwaiting : u.todo ≠ [])
    (halive : s.sentryAlive) (anchor : Anchor) : s.table.Held (s.pgid u anchor) (s.founder u anchor) := by
  have hi := hs.umbilical u hu
  cases anchor with
  | child =>
    obtain ⟨hchild, hpgid, -⟩ := hi.child
    have hunreaped : s.run.data.child ≠ .reaped := by
      rw [(hi.waiting hwaiting).1.child]
      exact SentryChild.noConfusion
    obtain ⟨x, hx, hnumber, hself, -⟩ := hs.ward u.child hchild halive hunreaped
    have hheld := hs.table.held_of_number hx
    rw [hnumber, hpgid, hself] at hheld
    exact hheld
  | sentry =>
    obtain ⟨x, hx, hself, -⟩ := halive
    obtain ⟨hgroup, hclan⟩ := hs.settled.2 x hx hself
    have hheld := hs.table.held_of_group hx
    rw [hgroup, hclan] at hheld
    exact hheld

theorem setProcessGroup_mem {anchor : Anchor} {todo : List UmbilicalCall}
    (h : .forkProcess anchor :: todo <:+ .setOwnProcessGroup :: postUmbilicalProcessChild) :
    .setProcessGroup anchor ∈ todo := by
  cases anchor <;> simp [postUmbilicalProcessChild, List.suffix_cons_iff] at h <;> simp [h]

theorem Anchored.step (ha : s.Anchored) (hs : s.Tended) {event : ProcessEvent} (h : Steps s event t)
    (hc : AnchorsUnderSentry s event t) : t.Anchored := by
  cases h with
  | call halive htodo hrun htable =>
    rcases callTable_cases htable with rfl | ⟨-, pid, -, hreap⟩
    · exact ha
    · obtain ⟨x, -, hact⟩ := Option.bind_eq_some_iff.mp hreap
      exact ha.act (Option.ite_none_right_eq_some.mp hact).2 (by simp)
  | returns halive htodo hrun | callback halive hrun | terminate hcall
  | kills hevent hu halive htodo => exact ha
  | forkChild hcall hnone hpid htable => exact ha.act htable (by simp)
  | @groupChild child table hchild hunforked hself htable =>
    refine ha.act htable fun u anchor forked hu he _ x hx hx' group hact => ?_
    have hi := hs.umbilical u hu
    have hnumber : child.pid = x.number := (ProcessAct.setpgid.inj hact).1
    obtain rfl := Option.some.inj (hi.child.1.symm.trans hchild)
    rw [hnumber, hs.table.entry hx] at hself
    exact (hi.anchor anchor forked he).2.2.1 (hx'.symm.trans (Option.some.inj hself))
  | forkUmbilical hcall hnone hchild htable =>
    intro u anchor forked hu he
    obtain rfl := Option.some.inj hu
    cases anchor <;> cases he
  | @leads pid u todo table hu halive htodo htable =>
    intro v anchor forked hv he hjoined
    obtain rfl := Option.some.inj hv
    have hi := hs.umbilical u hu
    refine (ha u anchor forked hu he ?_).act htable fun x hx hx' group hact => ?_
    · rw [htodo]
      simpa using hjoined
    · obtain ⟨y, hy, hself, -⟩ := halive
      have hnumber := (hi.tracks.2 y hy hself).trans (ProcessAct.setpgid.inj hact).1
      obtain rfl := hs.table.eq_of_number hy hx hnumber
      exact (hi.anchor anchor forked he).2.2.2.1 (hx'.symm.trans hself)
  | @forks pid u anchor todo table hu halive htodo htable =>
    intro v other forked hv he hjoined
    obtain rfl := Option.some.inj hv
    rw [UmbilicalProcess.setAnchor_todo] at hjoined
    have hother : other ≠ anchor := by
      rintro rfl
      exact hjoined (setProcessGroup_mem (htodo ▸ (hs.umbilical u hu).todo))
    rw [UmbilicalProcess.anchor_setAnchor, if_neg hother] at he
    have hsettled := (ha u other forked hu he ?_).act htable (by simp)
    · cases other with
      | child => simpa [pgid, founder] using hsettled
      | sentry => exact hsettled
    · rw [htodo]
      simpa using hjoined
  | @joins pid u anchor todo forked table hu halive htodo hanchor htable =>
    intro v other forked' hv he hjoined
    obtain rfl := Option.some.inj hv
    have hi := hs.umbilical u hu
    obtain ⟨x, hx, hnumber, hself, -⟩ := (hi.anchor anchor forked hanchor).2.2.2.2 halive
    by_cases hother : other = anchor
    · subst hother
      obtain rfl : forked = forked' := Option.some.inj (hanchor.symm.trans he)
      have hwaiting : u.todo ≠ [] := by
        rw [htodo]
        exact List.cons_ne_nil _ _
      have hheld := hs.held hu hwaiting (hc (by simp [anchoring, hu, htodo])) other
      exact hself ▸ ProcessTable.settled_of_setpgid htable hs.table hx hnumber hheld
    · refine (ha u other forked' hu he ?_).act htable fun y hy hy' group hact => ?_
      · rw [htodo, List.mem_cons, not_or]
        exact ⟨fun h => hother (UmbilicalCall.setProcessGroup.inj h), hjoined⟩
      · obtain rfl := hs.table.eq_of_number hx hy (hnumber.trans (ProcessAct.setpgid.inj hact).1)
        exact hi.distinct other anchor forked' forked he hanchor hother (hy'.symm.trans hself)
  | @other act table hpermits htable =>
    refine ha.act htable fun u anchor forked hu he _ x hx hx' group hact => ?_
    subst hact
    exact permits_setpgid hs.table hx hpermits (hx' ▸ anchor_mem_household hu he)

theorem anchored_of_begins (h : Begins options s) : s.Anchored := by
  intro u anchor forked hu
  rw [h.umbilical] at hu
  cases hu

/-- An umbilical process that has put its anchors in place has what they are to hold held. -/
theorem Tended.held_of_anchored (hi : s.Tended) (ha : s.Anchored) (hu : s.umbilical = some u)
    (halive : s.table.Alive u.self.self) (htodo : u.todo = []) (anchor : Anchor) :
    s.table.Held (s.pgid u anchor) (s.founder u anchor) := by
  have hu' := hi.umbilical u hu
  obtain ⟨forked, he⟩ := Option.isSome_iff_exists.mp ((hu'.forked anchor).mpr (by simp [htodo]))
  obtain ⟨x, hx, -, hself, -⟩ := (hu'.anchor anchor forked he).2.2.2.2 halive
  obtain ⟨hgroup, hclan⟩ := (ha u anchor forked hu he (by simp [htodo])).2 x hx hself
  rw [← hgroup, ← hclan]
  exact hi.table.held_of_group hx

/-- The umbilical process signals nobody but those of the child's and of the sentry's
process group, however long they and the sentry are gone, if it has put its anchors there
while the sentry was alive. -/
theorem umbilical_rightful (hs : Begins options s) {run : List (ProcessEvent × ProcessWorld)}
    (hr : (system options).IsRun s run) (hc : System.Throughout AnchorsUnderSentry s run) :
    System.Throughout (fun s event t => bySentry event = false → Rightful s event t) s run := by
  refine System.IsRun.throughout_of_condition (I := Anchored) (fun s event t hs ha h hc => ?_) (.of_init hs)
    (anchored_of_begins hs) hr hc
  have hi := tended_of_reachable hs
  have hsteps := steps_of_next h
  refine ⟨fun hevent target htarget => ?_, ha.step hi hsteps hc⟩
  cases hsteps with
  | @kills event u hkill hu halive htodo =>
    intro x hx hreaches
    rcases hkill with rfl | rfl
    · simp only [signals, hu, Option.map_some, Option.some.injEq] at htarget
      subst htarget
      exact ⟨u.child, (hi.umbilical u hu).child.1,
        (hi.held_of_anchored ha hu halive htodo .child).1 x hx hreaches⟩
    · obtain rfl := Option.some.inj htarget
      exact (hi.held_of_anchored ha hu halive htodo .sentry).1 x hx hreaches
  | forkChild | groupChild | forkUmbilical | leads | forks | joins | other => cases htarget
  | call | returns | callback | terminate => cases hevent

/-- The sentry has been killed, and the child that it leaves is reaped by init. -/
def orphaned : List ProcessEvent :=
  guarding ++ [.sentry (.call .ok), .other (.exit 5), .other (.exit 7), .other (.reap 7),
    .killChildProcessGroup, .killSentryProcessGroup]

theorem umbilical_rightful_orphaned : (System.run next alone orphaned).length = orphaned.length ∧
    System.Throughout (fun s event t => bySentry event = false → Rightful s event t) alone
      (System.run next alone orphaned) :=
  ⟨by decide, umbilical_rightful alone_begins (System.isRun_run _ _ _ _) (by decide)⟩

/-- The pid of the child is that of nobody else, and its process group that of no others,
until the anchor in it is gone with the umbilical process, even if the child has been
reaped and the sentry is no more. -/
theorem child_pid_reserved (hs : Begins options s) {run : List (ProcessEvent × ProcessWorld)}
    (hr : (system options).IsRun s run) (hc : System.Throughout AnchorsUnderSentry s run) :
    System.Throughout (fun _ _ t => ∀ u, t.umbilical = some u → t.anchored u →
      t.child = some u.child ∧ t.table.Held u.child.pid u.child.self) s run := by
  refine System.IsRun.throughout_of_condition (I := Anchored) (fun s event t hs ha h hc => ?_) (.of_init hs)
    (anchored_of_begins hs) hr hc
  have ha' := ha.step (tended_of_reachable hs) (steps_of_next h) hc
  have hi := tended_of_reachable (hs.tail h)
  refine ⟨fun u hu hanchored => ?_, ha'⟩
  obtain ⟨htodo, forked, he, x, hx, hself⟩ := hanchored
  obtain ⟨hgroup, hclan⟩ := (ha' u .child forked hu he htodo).2 x hx hself
  obtain ⟨hchild, hpgid, -⟩ := (hi.umbilical u hu).child
  have hheld := hi.table.held_of_group hx
  rw [hgroup, hclan] at hheld
  exact ⟨hchild, hpgid ▸ hheld⟩

theorem child_pid_reserved_orphaned : System.Throughout
    (fun _ _ t => ∀ u, t.umbilical = some u → t.anchored u →
      t.child = some u.child ∧ t.table.Held u.child.pid u.child.self) alone
    (System.run next alone orphaned) :=
  child_pid_reserved alone_begins (System.isRun_run _ _ _ _) (by decide)

end ProcessWorld

end PidSentry
