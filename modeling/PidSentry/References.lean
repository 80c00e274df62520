import PidSentry.ProcessSignals
import PidSentry.ReferenceWorld
import PidSentry.Reporting

/-! What a reference to the child is worth: a command that succeeds has had the pid of the
child to itself for as long as it ran. -/

namespace PidSentry

namespace SentryRun

variable {options : SentryOptions} {s : SentryRun}

theorem createPidServer_once (options : SentryOptions) :
    .createPidServer ∉ callsBefore .recordPid (runAgentSentry options) ∧
    .createPidServer ∉ callsBefore (.watchJobControl .done) (runAgentSentry options) ∧
    (.createPidServer ∈ runAgentSentry options →
      .createPidServer ∉ callsAfter .createPidServer (runAgentSentry options) ∧
      .monitorChildProcess ∈ callsAfter .createPidServer (runAgentSentry options) ∧
      .monitorChildProcess ∉ callsBefore .createPidServer (runAgentSentry options) ∧
      .createUmbilicalProcess ∉ callsBefore .createPidServer (runAgentSentry options)) := by
  rcases options with ⟨⟨⟩, ⟨⟩, ⟨⟩, ⟨⟩, ⟨⟩⟩ <;> decide

/-- The pid server is created for the child. -/
theorem child_of_createPidServer (hs : (system options).Reachable s) (hstage : s.stage ≠ .aborted)
    (hhead : s.todo.head? = some .createPidServer) : s.data.child = .forked s.data.mPid := by
  have hwithin := within_of_reachable hs
  have hmem := List.mem_of_mem_head? hhead
  have hworking : s.stage = .working := by
    cases he : s.stage with
    | working => rfl
    | closing => exact absurd ((hwithin.closing he).1.subset hmem) (by decide)
    | aborted => exact absurd he hstage
  obtain ⟨hsuffix, hleft⟩ := hwithin.working hworking
  obtain ⟨hrecord, hdone, honce⟩ := createPidServer_once options
  obtain ⟨honce, hafter, hbefore, -⟩ := honce (hsuffix.subset hmem)
  have hmonitor := (later_of_suffix hsuffix honce hmem hafter hbefore).1
  obtain ⟨rest, htodo⟩ := List.head?_eq_some_iff.mp hhead
  rw [htodo] at hsuffix
  have hwatched : .done ∈ s.data.watched := by
    refine (done_watched hs hworking hmonitor).resolve_left fun hmem' => ?_
    rw [htodo] at hmem'
    refine hdone (mem_callsBefore_of_suffix hsuffix (watchJobControl_once options).1 ?_)
    exact (List.mem_cons.mp hmem').resolve_left SentryCall.noConfusion
  have hdata := (watched_of_reachable hs hstage).done hwatched
  refine hdata.2 fun hpid => ?_
  rcases hdata.1.mpr hpid with hmem' | hmem'
  · rw [htodo] at hmem'
    refine hrecord (mem_callsBefore_of_suffix hsuffix (recordPid_once options).1 ?_)
    exact (List.mem_cons.mp hmem').resolve_left SentryCall.noConfusion
  · simp [hleft] at hmem'

end SentryRun

namespace ProcessWorld

variable {s t : ProcessWorld} {u : UmbilicalProcess} {event : ProcessEvent}

theorem act_of_steps (h : Steps s event t) : t.table = s.table ∨ ∃ a, s.table.act a = some t.table := by
  cases h with
  | call halive htodo hrun htable =>
    refine (callTable_cases htable).imp id ?_
    rintro ⟨-, pid, -, hreap⟩
    obtain ⟨x, -, h⟩ := Option.bind_eq_some_iff.mp hreap
    exact ⟨_, (Option.ite_none_right_eq_some.mp h).2⟩
  | returns | callback | terminate | kills => exact .inl rfl
  | forkChild _ _ _ htable | groupChild _ _ _ htable | forkUmbilical _ _ _ htable
  | leads _ _ _ htable | forks _ _ _ htable | joins _ _ _ _ htable | other _ htable => exact .inr ⟨_, htable⟩

theorem child_of_steps (h : Steps s event t) {child : Forked} (hchild : s.child = some child) :
    t.child = some child := by
  cases h with
  | forkChild hcall hnone =>
    rw [hnone] at hchild
    cases hchild
  | _ => exact hchild

/-- An umbilical process that has put its anchors in place is left as it is. -/
theorem umbilical_of_steps (h : Steps s event t) (hu : s.umbilical = some u) (htodo : u.todo = []) :
    t.umbilical = some u := by
  have hbusy : ∀ {v : UmbilicalProcess} {call : UmbilicalCall} {todo : List UmbilicalCall},
      s.umbilical = some v → v.todo = call :: todo → False := by
    intro v call todo hv hcall
    obtain rfl := Option.some.inj (hu.symm.trans hv)
    rw [htodo] at hcall
    cases hcall
  cases h with
  | forkUmbilical hcall hnone =>
    rw [hnone] at hu
    cases hu
  | leads hv halive hcall | forks hv halive hcall | joins hv halive hcall => exact (hbusy hv hcall).elim
  | _ => exact hu

/-- The umbilical process comes after the pid server. -/
theorem createPidServer_of_reachable {options : SentryOptions} (hs : (system options).Reachable s)
    (hu : s.umbilical ≠ none) : .createPidServer ∉ s.run.todo := by
  refine System.Reachable.invariant
    (P := fun s => s.umbilical ≠ none → .createPidServer ∉ s.run.todo) ?_ ?_ hs hu
  · intro s hi hu
    exact absurd hi.umbilical hu
  intro s event t hs hi h hu
  have htodo : ∀ {result run}, s.run.next (.call result) = some run → .createPidServer ∉ s.run.todo →
      .createPidServer ∉ run.todo := fun hrun hmem hmem' => by
    rcases Course.mem_of_next hrun hmem' with hmem' | hmem'
    · exact hmem hmem'
    · exact absurd hmem' (by decide)
  cases steps_of_next h with
  | call halive hcall hrun htable => exact htodo hrun (hi hu)
  | returns halive hcall hrun => exact htodo hrun (hi hu)
  | @forkUmbilical pid child table hcall hnone hchild htable =>
    have hrun := run_of_reachable hs
    have hwithin := SentryRun.within_of_reachable hrun
    intro hmem
    rcases hwithin.mem hcall.2.1 hmem with hmem' | hmem'
    · obtain ⟨rest, hrest⟩ := List.head?_eq_some_iff.mp hcall.2.2
      cases hstage : s.run.stage with
      | working =>
        have hsuffix := (hwithin.working hstage).1
        rw [hrest] at hsuffix
        obtain ⟨honce, -, -, hbefore⟩ := (SentryRun.createPidServer_once options).2.2 hmem'
        refine hbefore (mem_callsBefore_of_suffix hsuffix honce ?_)
        exact (List.mem_cons.mp (show _ ∈ _ :: rest from hrest ▸ hmem)).resolve_left SentryCall.noConfusion
      | closing => exact absurd ((hwithin.closing hstage).1.subset hmem) (by decide)
      | aborted => exact hcall.2.1 hstage
    · exact absurd hmem' (by decide)
  | leads hv | forks hv | joins hv =>
    refine hi ?_
    rw [hv]
    exact Option.some_ne_none _
  | _ => exact hi hu

theorem alive_of_steps (hs : s.Tended) (h : Steps s event t) (hu : s.umbilical = some u)
    (halive : t.table.Alive u.self.self) : s.table.Alive u.self.self := by
  rcases act_of_steps h with he | ⟨a, hact⟩
  · rw [he] at halive
    exact halive
  · exact halive.of_act hact (hs.umbilical u hu).tracks.1

end ProcessWorld

namespace CommandPhase

/-- The client has yet to connect to a pid server. -/
def unconnected : CommandPhase → Bool
  | initialising | opening | locking | reading | checking .. | connecting .. => true
  | _ => false

variable {ν κ : Type*} {parser : PidParser} {mRelaxed : Bool} {p q : CommandPhase} {call : CommandCall ν κ}

theorem unconnected_settled (mRelaxed : Bool) (status : CommandStatus) (mChildPid : Pid) :
    (settled mRelaxed status mChildPid).unconnected = false := by
  rcases settled_cases mRelaxed status mChildPid with he | he <;> rw [he] <;> rfl

/-- A client that has connected does not connect again. -/
theorem connected_of_next (h : p.next parser mRelaxed call = some q) (hp : p.unconnected = false) :
    q.unconnected = false ∧ ∀ server sun_path, call ≠ .connect server sun_path := by
  cases p with
  | initialising | opening | locking | reading | checking | connecting => cases hp
  | awaitingWrite pidSignature =>
    cases call with
    | ready =>
      obtain rfl := Option.some.inj h
      refine ⟨?_, by simp⟩
      cases sendPidSignature pidSignature <;> rfl
    | failed =>
      obtain rfl := Option.some.inj h
      exact ⟨rfl, by simp⟩
    | _ => cases h
  | sending pidSignature message =>
    cases call with
    | write bytes =>
      refine ⟨?_, by simp⟩
      by_cases hall : bytes = message
      · obtain rfl := Option.some.inj ((if_pos hall).symm.trans h)
        rfl
      · obtain ⟨-, h⟩ := Option.ite_none_right_eq_some.mp ((if_neg hall).symm.trans h)
        obtain rfl := Option.some.inj h
        rfl
    | failed =>
      obtain rfl := Option.some.inj h
      exact ⟨rfl, by simp⟩
    | _ => cases h
  | awaitingRead pidSignature =>
    cases call with
    | ready | failed =>
      obtain rfl := Option.some.inj h
      exact ⟨rfl, by simp⟩
    | _ => cases h
  | receiving pidSignature =>
    cases call with
    | read =>
      obtain rfl := Option.some.inj h
      exact ⟨unconnected_settled mRelaxed _ _, by simp⟩
    | failed =>
      obtain rfl := Option.some.inj h
      exact ⟨rfl, by simp⟩
    | _ => cases h
  | finishing status mChildPid =>
    cases call with
    | closeUnixSocket =>
      obtain rfl := Option.some.inj h
      exact ⟨rfl, by simp⟩
    | _ => cases h
  | destroying status mChildPid =>
    cases call with
    | destroyPidFile =>
      obtain rfl := Option.some.inj h
      exact ⟨rfl, by simp⟩
    | _ => cases h
  | returned | aborting => cases call <;> cases h

theorem Consistent.unconnected {viewed : Option (ν × List UInt8)} {tether : Option (Connection κ)}
    (h : p.Consistent parser viewed tether) (hp : p.unconnected = true) : tether = none := by
  cases p with
  | initialising | opening | locking | reading | checking | connecting => exact h.1
  | _ => cases hp

end CommandPhase

namespace CommandWorld

variable {π ν κ : Type*} [DecidableEq π] [DecidableEq ν] [DecidableEq κ] {record : π → PidFileRecord}
  {mRelaxed : Bool} {me : π} {parser : PidParser} {s t : CommandWorld π ν κ} {event : CommandEvent π ν κ}

/-- The client goes on by its own calls alone, and whoever has been acknowledged stays so. -/
theorem others_of_step (h : s.Step record mRelaxed me parser event t)
    (hcall : ∀ call, event ≠ .command call) : t.command = s.command ∧
      ∀ conn, t.mKeeperTether = some conn → ∃ conn', s.mKeeperTether = some conn' ∧
        ∀ pidServer, conn'.reply = .acknowledged pidServer → conn.reply = .acknowledged pidServer := by
  cases event with
  | command call => exact absurd rfl (hcall call)
  | world event =>
    obtain ⟨-, -, ht⟩ := h
    rw [ht]
    exact ⟨rfl, fun conn hconn => ⟨conn, hconn, fun _ h => h⟩⟩
  | createPidServer =>
    obtain ⟨-, -, -, -, -, rfl⟩ := h
    exact ⟨rfl, fun conn hconn => ⟨conn, hconn, fun _ h => h⟩⟩
  | closePidServer server =>
    obtain rfl := h
    refine ⟨rfl, fun conn hconn => ?_⟩
    obtain ⟨conn', hconn', rfl⟩ := Option.map_eq_some_iff.mp hconn
    exact ⟨conn', hconn', (conn'.reset_serves server).acknowledged⟩
  | cleanPidServer | acceptPidServerConnection =>
    obtain ⟨l, -, rfl⟩ := h
    exact ⟨rfl, fun conn hconn => ⟨conn, hconn, fun _ h => h⟩⟩
  | acceptCommand server euid calls peer fd =>
    obtain ⟨l, conn', -, htether, hreply, hstream, rfl⟩ := h
    refine ⟨rfl, fun conn hconn => ⟨conn', htether, ?_⟩⟩
    obtain rfl := Option.some.inj hconn
    exact (Connection.answered_serves hreply l.pidServer hstream).acknowledged

/-- A client that has connected keeps its connection or closes it. -/
theorem connected_of_call {call : CommandCall ν κ} (h : s.Step record mRelaxed me parser (.command call) t)
    (hconnected : s.command.unconnected = false) : t.command.unconnected = false ∧
      t.listener = s.listener ∧ ∀ conn, t.mKeeperTether = some conn →
        ∃ conn', s.mKeeperTether = some conn' ∧ conn'.reply = conn.reply := by
  obtain ⟨hnext, -, -, hlistener, htether, -⟩ := h
  obtain ⟨hafter, hconnect⟩ := CommandPhase.connected_of_next hnext hconnected
  refine ⟨hafter, hlistener, fun conn hconn => ?_⟩
  rw [htether] at hconn
  cases call with
  | connect server sun_path => exact absurd rfl (hconnect server sun_path)
  | write bytes =>
    obtain ⟨conn', hconn', rfl⟩ := Option.map_eq_some_iff.mp hconn
    exact ⟨conn', hconn', rfl⟩
  | closeUnixSocket =>
    obtain ⟨-, h⟩ := Option.ite_none_right_eq_some.mp hconn
    exact ⟨conn, h, rfl⟩
  | _ => exact ⟨conn, hconn, rfl⟩

/-- A pid server is left alone by what is not about it. -/
theorem listener_of_step (h : s.Step record mRelaxed me parser event t) {server : κ}
    (hserver : event.server ≠ some server) : t.listener server = s.listener server := by
  have hne : ∀ {other : κ}, some other ≠ some server → server ≠ other := by
    rintro other hne rfl
    exact hne rfl
  cases event with
  | command call =>
    obtain ⟨-, -, -, hlistener, -⟩ := h
    rw [hlistener]
  | world event =>
    obtain ⟨-, -, ht⟩ := h
    rw [ht]
  | createPidServer other =>
    obtain ⟨-, -, -, -, -, rfl⟩ := h
    exact Function.update_of_ne (hne hserver) _ _
  | closePidServer other =>
    obtain rfl := h
    exact Function.update_of_ne (hne hserver) _ _
  | cleanPidServer other | acceptPidServerConnection other =>
    obtain ⟨l, -, rfl⟩ := h
    exact Function.update_of_ne (hne hserver) _ _
  | acceptCommand other =>
    obtain ⟨l, conn, -, -, -, -, rfl⟩ := h
    exact Function.update_of_ne (hne hserver) _ _

end CommandWorld

namespace UmbilicalRun

variable {lap : LapTime} {s t : UmbilicalRun} {pidServer : PidServer}

theorem pidServer_of_accept {euid : Nat} {calls : PidServerCalls} {peer : PidServerPeer} {fd : Int}
    (h : s.next lap (.pidServer euid calls peer fd) = some t) (hs : s.monitor.mPidServer = some pidServer) :
    t.monitor.mPidServer = some (pidServer.acceptPidServerConnection euid calls peer fd).self ∧
      (t.phase = .looping → (pidServer.acceptPidServerConnection euid calls peer fd).rc = .ok) := by
  obtain ⟨-, rfl⟩ := next_eq_some.mp h
  rcases pidServer.acceptPidServerConnection_cases euid calls peer fd with he | ⟨-, -, -, he⟩
  · simp [after, UmbilicalEvent.reply, UmbilicalMonitor.pollFdPidServer, hs, he]
  · simp only [after, UmbilicalEvent.reply, UmbilicalMonitor.pollFdPidServer, hs, he, Outcome.emit_rc,
      Outcome.emit_self, implies_true, and_true]
    split_ifs <;> rfl

theorem pidServer_of_clean {gone : List PidServerClient} {polled : Bool}
    (h : s.next lap (.pidClient gone polled) = some t) (hs : s.monitor.mPidServer = some pidServer) :
    t.monitor.mPidServer = some (pidServer.cleanPidServer gone polled).1 := by
  obtain ⟨-, rfl⟩ := next_eq_some.mp h
  simp [after, UmbilicalEvent.reply, UmbilicalMonitor.pollFdPidClient_eq hs gone polled rfl,
    PidServer.cleanPidServer]

theorem pidServer_of_others {event : UmbilicalEvent} (h : s.next lap event = some t)
    (hserver : ∀ euid calls peer fd, event ≠ .pidServer euid calls peer fd)
    (hclient : ∀ gone polled, event ≠ .pidClient gone polled) :
    t.monitor.mPidServer = s.monitor.mPidServer := by
  obtain ⟨-, rfl⟩ := next_eq_some.mp h
  exact (reply_sameClients lap s.monitor hserver hclient).server

theorem clients_eq (hs : s.monitor.mPidServer = some pidServer) : s.monitor.clients = pidServer.mClients := by
  simp only [UmbilicalMonitor.clients, hs]

end UmbilicalRun

theorem PidServer.clients_of_accept (self : PidServer) (euid : Nat) (calls : PidServerCalls)
    (peer : PidServerPeer) (fd : Int) :
    (self.acceptPidServerConnection euid calls peer fd).self.mPidSignature = self.mPidSignature ∧
      self.mClients ⊆ (self.acceptPidServerConnection euid calls peer fd).self.mClients ∧
      ((self.acceptPidServerConnection euid calls peer fd).rc = .ok →
        (self.acceptPidServerConnection euid calls peer fd).effects ≠ [] ∧
        ⟨fd, peer.uid⟩ ∈ (self.acceptPidServerConnection euid calls peer fd).self.mClients) := by
  rcases self.acceptPidServerConnection_cases euid calls peer fd with he | ⟨-, -, -, he⟩
  · rw [he]
    exact ⟨rfl, List.Subset.refl _, nofun⟩
  · rw [he]
    refine ⟨rfl, List.subset_append_left _ _, fun _ => ⟨?_, ?_⟩⟩
    · simp [Outcome.emit]
    · simp [Outcome.emit_self]

namespace ReferenceWorld

variable {π ν κ : Type*} [DecidableEq π] [DecidableEq ν] [DecidableEq κ] {record : π → PidFileRecord}
  {mRelaxed : Bool} {me : π} {parser : PidParser} {server : κ} {lap : LapTime} {mUmbilical_s : Nat}
  {options : SentryOptions} {s t : ReferenceWorld π ν κ} {event : ReferenceEvent π ν κ}

section steps

variable (h : Step record mRelaxed me parser server lap mUmbilical_s s event t)

include h

theorem processes_of_step : t.processes = s.processes ∨ ∃ act, s.processes.next act = some t.processes := by
  cases h with
  | process h | createPidServer h => exact .inr ⟨_, h⟩
  | _ => exact .inl rfl

theorem world_of_step :
    t.world = s.world ∨ ∃ act, s.world.Step record mRelaxed me parser act t.world := by
  cases h with
  | createPidServer _ _ _ hworld | closePidServer _ hworld | accept _ _ _ _ hworld | command _ _ hworld =>
    exact .inr ⟨_, hworld⟩
  | @umbilical event monitor monitor' world halive hmonitor h hfree hgone hworld =>
    split at hworld
    · exact .inr ⟨_, hworld⟩
    · exact .inl hworld
  | _ => exact .inl rfl

end steps

theorem processes_of_reachable
    (hs : (system record mRelaxed me parser server lap mUmbilical_s options).Reachable s) :
    (ProcessWorld.system options).Reachable s.processes :=
  System.Reachable.project ReferenceWorld.processes
    (fun _ (hi : Begins record me parser server options _) => hi.processes)
    (fun _ _ _ _ h => processes_of_step h) hs

theorem world_of_reachable
    (hs : (system record mRelaxed me parser server lap mUmbilical_s options).Reachable s) :
    (CommandWorld.system record mRelaxed me parser).Reachable s.world :=
  System.Reachable.project ReferenceWorld.world
    (fun _ (hi : Begins record me parser server options _) => hi.world)
    (fun _ _ _ _ h => world_of_step h) hs

theorem entered_of_reachable
    (hs : (system record mRelaxed me parser server lap mUmbilical_s options).Reachable s)
    (hmonitor : s.monitor ≠ none) : ∃ u, s.processes.umbilical = some u ∧ u.todo = [] := by
  refine System.Reachable.invariant
    (P := fun s => s.monitor ≠ none → ∃ u, s.processes.umbilical = some u ∧ u.todo = []) ?_ ?_ hs hmonitor
  · intro s (hi : Begins record me parser server options s) h
    exact absurd hi.monitor h
  rintro s event t - hi h hmonitor
  cases h with
  | process h | createPidServer h =>
    obtain ⟨u, hu, htodo⟩ := hi hmonitor
    exact ⟨u, ProcessWorld.umbilical_of_steps (ProcessWorld.steps_of_next h) hu htodo, htodo⟩
  | createUmbilicalMonitor halive hnone =>
    obtain ⟨u, hu, htodo, -⟩ := halive
    exact ⟨u, hu, htodo⟩
  | umbilical halive | accept halive =>
    obtain ⟨u, hu, htodo, -⟩ := halive
    exact ⟨u, hu, htodo⟩
  | _ => exact hi hmonitor

/-- An umbilical process that is alive has been so all along. -/
theorem umbilicalAlive_of_step
    (hs : (system record mRelaxed me parser server lap mUmbilical_s options).Reachable s)
    (h : Step record mRelaxed me parser server lap mUmbilical_s s event t) (hmonitor : s.monitor ≠ none)
    (ht : t.UmbilicalAlive) : s.UmbilicalAlive := by
  obtain ⟨u, hu, htodo⟩ := entered_of_reachable hs hmonitor
  obtain ⟨v, hv, -, halive⟩ := ht
  refine ⟨u, hu, htodo, ?_⟩
  rcases processes_of_step h with he | ⟨act, hact⟩
  · rw [he] at hv halive
    obtain rfl := Option.some.inj (hu.symm.trans hv)
    exact halive
  · have hsteps := ProcessWorld.steps_of_next hact
    obtain rfl := Option.some.inj ((ProcessWorld.umbilical_of_steps hsteps hu htodo).symm.trans hv)
    exact ProcessWorld.alive_of_steps (ProcessWorld.tended_of_reachable (processes_of_reachable hs)) hsteps hu
      halive

/-- The pid server is for the child. -/
def Names (s : ReferenceWorld π ν κ) (pidServer : PidServer) : Prop :=
  ∃ child, s.processes.child = some child ∧ child.pid = pidServer.mPidSignature.mPid

theorem Names.step (h : Step record mRelaxed me parser server lap mUmbilical_s s event t)
    {pidServer : PidServer} (hs : s.Names pidServer) : t.Names pidServer := by
  obtain ⟨child, hchild, hpid⟩ := hs
  refine ⟨child, ?_, hpid⟩
  rcases processes_of_step h with he | ⟨act, hact⟩
  · rw [he]
    exact hchild
  · exact ProcessWorld.child_of_steps (ProcessWorld.steps_of_next hact) hchild

omit [DecidableEq π] [DecidableEq ν] [DecidableEq κ] in
theorem Names.congr {pidServer pidServer' : PidServer} (hs : s.Names pidServer)
    (h : pidServer'.mPidSignature = pidServer.mPidSignature) : s.Names pidServer' := by
  obtain ⟨child, hchild, hpid⟩ := hs
  exact ⟨child, hchild, hpid.trans (by rw [h])⟩

/-- How the pid server of the umbilical process comes to be what it is. -/
theorem listener_of_step (h : Step record mRelaxed me parser server lap mUmbilical_s s event t) :
    t.world.listener server = s.world.listener server ∨ t.world.listener server = none ∨
      (∃ listener, event = .createPidServer listener ∧ s.world.listener server = none ∧
        t.world.listener server = some listener ∧ listener.pidServer.mClients = []) ∨
      s.monitor ≠ none ∧ ∃ listener pidServer, s.world.listener server = some listener ∧
        t.world.listener server = some { listener with pidServer } ∧
        pidServer.mPidSignature = listener.pidServer.mPidSignature := by
  have hupdate : ∀ {l : κ → Option Listener} {x : Option Listener}, Function.update l server x server = x :=
    Function.update_self ..
  cases h with
  | process | createUmbilicalMonitor | createCommandReturns | createCommandTerminates | run => exact .inl rfl
  | @createPidServer listener processes world h hcreate hpid hworld =>
    obtain ⟨hnone, -, -, hclients, -, rfl⟩ := hworld
    exact .inr (.inr (.inl ⟨listener, rfl, hnone, hupdate, hclients⟩))
  | closePidServer hgone hworld =>
    obtain rfl := hworld
    exact .inr (.inl hupdate)
  | command hforeign hcalls hworld => exact .inl (CommandWorld.listener_of_step hworld hforeign)
  | @accept euid calls peer fd monitor monitor' world halive hmonitor h hfree hworld =>
    obtain ⟨l, conn, hl, -, -, -, rfl⟩ := hworld
    refine .inr (.inr (.inr ⟨?_, l, _, hl, hupdate, (l.pidServer.clients_of_accept euid calls peer fd).1⟩))
    rw [hmonitor]
    exact Option.some_ne_none _
  | @umbilical event monitor monitor' world halive hmonitor h hfree hgone hworld =>
    have hne : s.monitor ≠ none := by
      rw [hmonitor]
      exact Option.some_ne_none _
    cases event with
    | pidServer euid calls peer fd =>
      obtain ⟨l, hl, rfl⟩ := hworld
      exact .inr (.inr (.inr ⟨hne, l, _, hl, hupdate, (l.pidServer.clients_of_accept euid calls peer fd).1⟩))
    | pidClient gone polled =>
      obtain ⟨l, hl, rfl⟩ := hworld
      exact .inr (.inr (.inr ⟨hne, l, _, hl, hupdate, rfl⟩))
    | umbilical | eventPipe | timerUmbilical | completed =>
      obtain rfl : world = s.world := hworld
      exact .inl rfl

/-- The pid server is for the child of the sentry, and without clients until the umbilical
process takes it over. -/
theorem listener_of_reachable
    (hs : (system record mRelaxed me parser server lap mUmbilical_s options).Reachable s)
    {listener : Listener} (hl : s.world.listener server = some listener) :
    s.Names listener.pidServer ∧ (s.monitor = none → listener.pidServer.mClients = []) := by
  refine System.Reachable.invariant (P := fun s => ∀ listener, s.world.listener server = some listener →
    s.Names listener.pidServer ∧ (s.monitor = none → listener.pidServer.mClients = [])) ?_ ?_ hs listener hl
  · intro s (hi : Begins record me parser server options s) listener hl
    rw [hi.listener] at hl
    cases hl
  intro s event t hs hi h listener hl
  have hnone : t.monitor = none → s.monitor = none := by
    intro hnone
    cases h with
    | createUmbilicalMonitor | umbilical | accept => cases hnone
    | _ => exact hnone
  rcases listener_of_step h with he | he | ⟨created, rfl, -, he, hclients⟩ |
    ⟨hmonitor, old, pidServer, hold, he, hsame⟩
  · rw [he] at hl
    obtain ⟨hnames, hfresh⟩ := hi listener hl
    exact ⟨hnames.step h, fun hmonitor => hfresh (hnone hmonitor)⟩
  · rw [he] at hl
    cases hl
  · obtain rfl := Option.some.inj (he.symm.trans hl)
    refine ⟨?_, fun _ => hclients⟩
    have hprocesses := processes_of_reachable hs
    refine Names.step h ?_
    cases h with
    | createPidServer hnext hcreate hpid hworld =>
      have hrun : s.processes.run.stage ≠ .aborted := by
        cases ProcessWorld.steps_of_next hnext with
        | call halive htodo hrun htable | returns halive htodo hrun => exact Course.unaborted_of_next hrun
        | kills hevent => rcases hevent with hevent | hevent <;> cases hevent
      have hchild := SentryRun.child_of_createPidServer
        (ProcessWorld.run_of_reachable hprocesses) hrun hcreate.2
      have hforked := (ProcessWorld.tended_of_reachable hprocesses).forked _ hchild
      obtain ⟨child, he, hpid'⟩ := Option.map_eq_some_iff.mp hforked
      exact ⟨child, he, hpid'.trans hpid.symm⟩
  · obtain rfl := Option.some.inj (he.symm.trans hl)
    refine ⟨((hi old hold).1.congr hsame).step h, fun hmonitor' => absurd (hnone hmonitor') hmonitor⟩

/-- The event loop of the umbilical process serves the connections to the pid server. -/
theorem served_of_reachable
    (hs : (system record mRelaxed me parser server lap mUmbilical_s options).Reachable s)
    (halive : s.UmbilicalAlive) {monitor : UmbilicalRun} (hmonitor : s.monitor = some monitor) :
    monitor.monitor.mPidServer = (s.world.listener server).map Listener.pidServer := by
  refine System.Reachable.invariant (P := fun s => s.UmbilicalAlive → ∀ monitor, s.monitor = some monitor →
    monitor.monitor.mPidServer = (s.world.listener server).map Listener.pidServer) ?_ ?_ hs halive _ hmonitor
  · intro s (hi : Begins record me parser server options s) _ monitor hmonitor
    rw [hi.monitor] at hmonitor
    cases hmonitor
  intro s event t hs hi h halive monitor hmonitor
  have hback := fun hne => umbilicalAlive_of_step hs h hne halive
  have hne : ∀ {m}, s.monitor = some m → s.monitor ≠ none := fun hm => by
    rw [hm]
    exact Option.some_ne_none _
  cases h with
  | process => exact hi (hback (hne hmonitor)) monitor hmonitor
  | createPidServer h hcreate =>
    obtain ⟨u, hu, -⟩ := entered_of_reachable hs (hne hmonitor)
    have hpast := ProcessWorld.createPidServer_of_reachable (processes_of_reachable hs) (by simp [hu])
    exact absurd (List.mem_of_mem_head? hcreate.2) hpast
  | closePidServer hgone => exact absurd halive hgone
  | createUmbilicalMonitor halive hnone =>
    obtain rfl := Option.some.inj hmonitor
    rfl
  | @umbilical event run run' world halive hrun h hfree hgone hworld =>
    obtain rfl := Option.some.inj hmonitor
    have hserved := hi (hback (hne hrun)) run hrun
    cases event with
    | pidServer euid calls peer fd =>
      obtain ⟨l, hl, rfl⟩ := hworld
      rw [hl] at hserved
      simpa using (UmbilicalRun.pidServer_of_accept h hserved).1
    | pidClient gone polled =>
      obtain ⟨l, hl, rfl⟩ := hworld
      rw [hl] at hserved
      simpa using UmbilicalRun.pidServer_of_clean h hserved
    | umbilical | eventPipe | timerUmbilical | completed =>
      obtain rfl : world = s.world := hworld
      exact (UmbilicalRun.pidServer_of_others h (by simp) (by simp)).trans hserved
  | @accept euid calls peer fd run run' world halive hrun h hfree hworld =>
    obtain rfl := Option.some.inj hmonitor
    have hserved := hi (hback (hne hrun)) run hrun
    obtain ⟨l, conn, hl, -, -, -, rfl⟩ := hworld
    rw [hl] at hserved
    simpa using (UmbilicalRun.pidServer_of_accept h hserved).1
  | command hforeign hcalls hworld =>
    dsimp only
    rw [CommandWorld.listener_of_step hworld hforeign]
    exact hi (hback (hne hmonitor)) monitor hmonitor
  | createCommandReturns | createCommandTerminates | run => exact hi (hback (hne hmonitor)) monitor hmonitor

/-- Until it is accepted, a connection has got nowhere; from then on the client keeps it or
closes it. -/
theorem tether_of_step (h : Step record mRelaxed me parser server lap mUmbilical_s s event t)
    (haccept : ∀ euid calls peer fd, event ≠ .accept euid calls peer fd)
    (hconnected : s.world.command.unconnected = false) : t.mClient = s.mClient ∧
      t.world.command.unconnected = false ∧ ∀ conn, t.world.mKeeperTether = some conn →
        ∃ conn', s.world.mKeeperTether = some conn' ∧
          ∀ pidServer, conn'.reply = .acknowledged pidServer → conn.reply = .acknowledged pidServer := by
  have hothers : ∀ {event world}, s.world.Step record mRelaxed me parser event world →
      (∀ call, event ≠ .command call) → world.command.unconnected = false ∧
        ∀ conn, world.mKeeperTether = some conn → ∃ conn', s.world.mKeeperTether = some conn' ∧
          ∀ pidServer, conn'.reply = .acknowledged pidServer → conn.reply = .acknowledged pidServer := by
    intro event world hworld hcall
    obtain ⟨hcommand, htether⟩ := CommandWorld.others_of_step hworld hcall
    exact ⟨hcommand ▸ hconnected, htether⟩
  cases h with
  | createPidServer h hcreate hpid hworld => exact ⟨rfl, hothers hworld nofun⟩
  | closePidServer hgone hworld => exact ⟨rfl, hothers hworld nofun⟩
  | accept => exact absurd rfl (haccept _ _ _ _)
  | @umbilical event run run' world halive hrun h hfree hgone hworld =>
    cases event with
    | pidServer | pidClient => exact ⟨rfl, hothers hworld nofun⟩
    | umbilical | eventPipe | timerUmbilical | completed =>
      obtain rfl : world = s.world := hworld
      exact ⟨rfl, hconnected, fun conn hconn => ⟨conn, hconn, fun _ h => h⟩⟩
  | @command event world hforeign hcalls hworld =>
    cases event with
    | command call =>
      obtain ⟨hafter, -, htether⟩ := CommandWorld.connected_of_call hworld hconnected
      refine ⟨rfl, hafter, fun conn hconn => ?_⟩
      obtain ⟨conn', hconn', hreply⟩ := htether conn hconn
      exact ⟨conn', hconn', fun pidServer h => hreply ▸ h⟩
    | _ => exact ⟨rfl, hothers hworld nofun⟩
  | process | createUmbilicalMonitor | createCommandReturns | createCommandTerminates | run =>
    exact ⟨rfl, hconnected, fun conn hconn => ⟨conn, hconn, fun _ h => h⟩⟩

/-- The client of the umbilical process has been acknowledged by the pid server for the child. -/
theorem acknowledged_of_reachable
    (hs : (system record mRelaxed me parser server lap mUmbilical_s options).Reachable s)
    (hclient : s.mClient ≠ none) : s.world.command.unconnected = false ∧
      ∀ conn, s.world.mKeeperTether = some conn →
        ∃ pidServer, conn.reply = .acknowledged pidServer ∧ s.Names pidServer := by
  refine System.Reachable.invariant (P := fun s => s.mClient ≠ none → s.world.command.unconnected = false ∧
    ∀ conn, s.world.mKeeperTether = some conn →
      ∃ pidServer, conn.reply = .acknowledged pidServer ∧ s.Names pidServer) ?_ ?_ hs hclient
  · intro s (hi : Begins record me parser server options s) h
    exact absurd hi.mClient h
  intro s event t hs hi h hclient
  by_cases haccept : ∀ euid calls peer fd, event ≠ .accept euid calls peer fd
  · have hsame : t.mClient = s.mClient := by
      cases h with
      | accept => exact absurd rfl (haccept _ _ _ _)
      | _ => rfl
    obtain ⟨hconnected, hnames⟩ := hi (hsame ▸ hclient)
    obtain ⟨-, hafter, htether⟩ := tether_of_step h haccept hconnected
    refine ⟨hafter, fun conn hconn => ?_⟩
    obtain ⟨conn', hconn', hreply⟩ := htether conn hconn
    obtain ⟨pidServer, hack, hname⟩ := hnames conn' hconn'
    exact ⟨pidServer, hreply pidServer hack, hname.step h⟩
  · simp only [ne_eq, not_forall, not_not] at haccept
    obtain ⟨euid, calls, peer, fd, rfl⟩ := haccept
    have hstep := h
    cases h with
    | @accept _ _ _ _ run run' world halive hrun h hfree hworld =>
      obtain ⟨l, conn, hl, htether, hreply, -, rfl⟩ := hworld
      have hnone : s.mClient = none := by
        by_contra hne
        obtain ⟨pidServer, hack, -⟩ := (hi hne).2 conn htether
        rw [hreply] at hack
        cases hack
      have hlooping : run'.phase = .looping := by
        by_contra hne
        exact hclient ((if_neg hne).trans hnone)
      have hserved := served_of_reachable hs halive hrun
      rw [hl] at hserved
      have hrc := (UmbilicalRun.pidServer_of_accept h hserved).2 hlooping
      obtain ⟨hsame, -, hlisted⟩ := l.pidServer.clients_of_accept euid calls peer fd
      refine ⟨?_, fun conn' hconn' => ?_⟩
      · by_contra hne
        have hconsistent := CommandWorld.consistent_of_reachable (world_of_reachable hs)
        rw [hconsistent.unconnected (by simpa using hne)] at htether
        cases htether
      · obtain rfl := Option.some.inj hconn'
        refine ⟨_, if_neg (hlisted hrc).1, ?_⟩
        exact Names.step hstep ((listener_of_reachable hs hl).1.congr hsame)

/-- The client runs a command only if `createCommand` has returned to it. -/
theorem returned_of_reachable
    (hs : (system record mRelaxed me parser server lap mUmbilical_s options).Reachable s) {run : CommandRun}
    (hrun : s.run = some run) : run.Sound ∧ (run.stage = .terminated ∨
      ∃ status, s.world.command = .returned status run.mChildPid ∧
        (status = .ok ∨ (∃ exitCode, run.stage = .returned exitCode) ∧ run.process = none)) := by
  refine System.Reachable.invariant (P := fun s => ∀ run, s.run = some run → run.Sound ∧
    (run.stage = .terminated ∨ ∃ status, s.world.command = .returned status run.mChildPid ∧
      (status = .ok ∨ (∃ exitCode, run.stage = .returned exitCode) ∧ run.process = none))) ?_ ?_ hs run hrun
  · intro s (hi : Begins record me parser server options s) run hrun
    rw [hi.run] at hrun
    cases hrun
  rintro s event t - hi h run hrun
  have hothers : ∀ {event world}, s.world.Step record mRelaxed me parser event world →
      (∀ call, event ≠ .command call) → s.run = some run → run.Sound ∧
        (run.stage = .terminated ∨ ∃ status, world.command = .returned status run.mChildPid ∧
          (status = .ok ∨ (∃ exitCode, run.stage = .returned exitCode) ∧ run.process = none)) := by
    intro event world hworld hcall hrun
    rw [(CommandWorld.others_of_step hworld hcall).1]
    exact hi run hrun
  cases h with
  | createPidServer h hcreate hpid hworld => exact hothers hworld nofun hrun
  | closePidServer hgone hworld => exact hothers hworld nofun hrun
  | accept halive hmonitor h hfree hworld => exact hothers hworld nofun hrun
  | @umbilical event monitor monitor' world halive hmonitor h hfree hgone hworld =>
    cases event with
    | pidServer | pidClient => exact hothers hworld nofun hrun
    | umbilical | eventPipe | timerUmbilical | completed =>
      obtain rfl : world = s.world := hworld
      exact hi run hrun
  | @command event world hforeign hcalls hworld =>
    cases event with
    | command call =>
      rw [show s.run = some run from hrun] at hcalls
      exact absurd (hcalls call rfl) (Option.some_ne_none _)
    | _ => exact hothers hworld nofun hrun
  | process | createUmbilicalMonitor => exact hi run hrun
  | @createCommandReturns status mChildPid hnone hcommand =>
    obtain rfl := Option.some.inj hrun
    refine ⟨CommandRun.enter_sound status mChildPid, .inr ⟨status, ?_, ?_⟩⟩
    · cases status <;> exact hcommand
    · cases status with
      | ok => exact .inl rfl
      | _ => exact .inr ⟨⟨_, rfl⟩, rfl⟩
  | createCommandTerminates hnone =>
    obtain rfl := Option.some.inj hrun
    exact ⟨⟨nofun, nofun, nofun, nofun⟩, .inl rfl⟩
  | @run event run₀ run' hrun₀ h hready =>
    obtain rfl := Option.some.inj hrun
    have hsteps := CommandRun.steps_of_next h
    obtain ⟨hsound, hreturned⟩ := hi run₀ hrun₀
    refine ⟨hsound.step hsteps, ?_⟩
    rcases hreturned with hterminated | ⟨status, hcommand, hstatus⟩
    · exact .inl (CommandRun.terminated_of_steps hsteps hterminated)
    rw [← CommandRun.mChildPid_of_steps hsteps] at hcommand
    rcases hstatus with hok | ⟨⟨exitCode, hstage⟩, hnone⟩
    · exact .inr ⟨status, hcommand, .inl hok⟩
    · cases hsteps with
      | terminates => exact .inl rfl
      | creates he | forks he | forked he | unforked he | reaps he | unreaped he | checks he | closes he =>
        rw [hstage] at he
        cases he
      | posts hp | executes hp | exits hp =>
        rw [hnone] at hp
        cases hp

/-- The client that has been accepted never opens its socket again. -/
theorem hasTether_of_step
    (hs : (system record mRelaxed me parser server lap mUmbilical_s options).Reachable s)
    (h : Step record mRelaxed me parser server lap mUmbilical_s s event t) (hclient : s.mClient ≠ none)
    (ht : t.HasTether) : s.HasTether := by
  obtain ⟨hconnected, hnames⟩ := acknowledged_of_reachable hs hclient
  have hstep := h
  cases h with
  | createCommandReturns hnone hcommand =>
    have hconsistent := CommandWorld.consistent_of_reachable (world_of_reachable hs)
    rw [hcommand] at hconsistent
    rename_i status mChildPid
    have hsucceeds : status = .ok ∧ mChildPid ≠ 0 := by
      cases status with
      | ok => exact ⟨rfl, by simpa [HasTether, CommandRun.enter, CommandRun.hasTether] using ht⟩
      | _ => cases ht
    obtain ⟨conn, -, htether, -⟩ := hconsistent.1 hsucceeds
    simp [HasTether, hnone, htether]
  | createCommandTerminates => cases ht
  | @run event run run' hrun h hready =>
    simp only [HasTether, hrun]
    exact CommandRun.hasTether_of_steps (CommandRun.steps_of_next h) ht
  | accept halive hmonitor h hfree hworld =>
    obtain ⟨l, conn, -, htether, -, -, rfl⟩ := hworld
    simp only [HasTether] at ht ⊢
    cases hrun : s.run with
    | none => simp [htether]
    | some run => simpa [hrun] using ht
  | process | createPidServer | closePidServer | createUmbilicalMonitor | umbilical | command =>
    obtain ⟨-, -, htether⟩ := tether_of_step hstep (by simp) hconnected
    simp only [HasTether] at ht ⊢
    cases hrun : s.run with
    | some run => simpa [hrun] using ht
    | none =>
      rw [hrun] at ht
      obtain ⟨conn, hconn⟩ := Option.ne_none_iff_exists'.mp ht
      obtain ⟨conn', hconn', -⟩ := htether conn hconn
      simp [hconn']

/-- A client is listed for as long as it has its socket open and there is somebody to list it. -/
theorem client_of_reachable
    (hs : (system record mRelaxed me parser server lap mUmbilical_s options).Reachable s)
    {client : PidServerClient} (hclient : s.mClient = some client) : ∃ monitor, s.monitor = some monitor ∧
      (s.UmbilicalAlive → s.HasTether → client ∈ monitor.monitor.clients) := by
  refine System.Reachable.invariant (P := fun s => ∀ client, s.mClient = some client →
    ∃ monitor, s.monitor = some monitor ∧ (s.UmbilicalAlive → s.HasTether →
      client ∈ monitor.monitor.clients)) ?_ ?_ hs client hclient
  · intro s (hi : Begins record me parser server options s) client hclient
    rw [hi.mClient] at hclient
    cases hclient
  intro s event t hs hi h client hclient
  have hstep := h
  have hback : s.mClient = some client → s.monitor ≠ none ∧ (t.HasTether → s.HasTether) ∧
      (t.UmbilicalAlive → s.UmbilicalAlive) := by
    intro hclient
    obtain ⟨m, hm, -⟩ := hi client hclient
    have hmonitor : s.monitor ≠ none := by
      rw [hm]
      exact Option.some_ne_none _
    exact ⟨hmonitor, hasTether_of_step hs hstep (by simp [hclient]), umbilicalAlive_of_step hs hstep hmonitor⟩
  cases h with
  | createUmbilicalMonitor halive hnone => exact absurd hnone (hback hclient).1
  | @accept euid calls peer fd run run' world halive hrun h hfree hworld =>
    have hserved := served_of_reachable hs halive hrun
    obtain ⟨l, conn, hl, -, -, -, rfl⟩ := hworld
    rw [hl] at hserved
    obtain ⟨hserver, hrc⟩ := UmbilicalRun.pidServer_of_accept h hserved
    obtain ⟨-, hsubset, hlisted⟩ := l.pidServer.clients_of_accept euid calls peer fd
    refine ⟨run', rfl, fun halive' htether => ?_⟩
    rw [UmbilicalRun.clients_eq hserver]
    by_cases hlooping : run'.phase = .looping
    · obtain rfl := Option.some.inj ((if_pos hlooping).symm.trans hclient)
      exact (hlisted (hrc hlooping)).2
    · have hclient : s.mClient = some client := (if_neg hlooping).symm.trans hclient
      obtain ⟨m, hm, hmem⟩ := hi client hclient
      obtain rfl := Option.some.inj (hrun.symm.trans hm)
      have hmem := hmem halive ((hback hclient).2.1 htether)
      rw [UmbilicalRun.clients_eq hserved] at hmem
      exact hsubset hmem
  | @umbilical event run run' world halive hrun h hfree hgone hworld =>
    obtain ⟨m, hm, hmem⟩ := hi client hclient
    obtain rfl := Option.some.inj (hrun.symm.trans hm)
    refine ⟨run', rfl, fun halive' htether => ?_⟩
    have htether := (hback hclient).2.1 htether
    have hmem := hmem halive htether
    have hserved := served_of_reachable hs halive hrun
    cases event with
    | pidServer euid calls peer fd =>
      obtain ⟨l, hl, rfl⟩ := hworld
      rw [hl] at hserved
      rw [UmbilicalRun.clients_eq hserved] at hmem
      rw [UmbilicalRun.clients_eq (UmbilicalRun.pidServer_of_accept h hserved).1]
      exact (l.pidServer.clients_of_accept euid calls peer fd).2.1 hmem
    | pidClient gone polled =>
      obtain ⟨l, hl, rfl⟩ := hworld
      rw [hl] at hserved
      rw [UmbilicalRun.clients_eq hserved] at hmem
      rw [UmbilicalRun.clients_eq (UmbilicalRun.pidServer_of_clean h hserved)]
      refine List.mem_filter.mpr ⟨hmem, decide_eq_true fun hmem' => ?_⟩
      exact hgone gone polled client rfl hclient hmem' htether
    | umbilical | eventPipe | timerUmbilical | completed =>
      have hsame := UmbilicalRun.pidServer_of_others h (by simp) (by simp)
      unfold UmbilicalMonitor.clients at hmem ⊢
      rw [hsame]
      exact hmem
  | process | createPidServer | closePidServer | command | createCommandReturns | createCommandTerminates
  | run =>
    obtain ⟨m, hm, hmem⟩ := hi client hclient
    exact ⟨m, hm, fun halive htether => hmem ((hback hclient).2.2 halive) ((hback hclient).2.1 htether)⟩

theorem monitor_of_reachable
    (hs : (system record mRelaxed me parser server lap mUmbilical_s options).Reachable s)
    {monitor : UmbilicalRun} (hmonitor : s.monitor = some monitor) :
    (UmbilicalRun.system lap mUmbilical_s).Reachable monitor := by
  refine System.Reachable.invariant (P := fun s => ∀ monitor, s.monitor = some monitor →
    (UmbilicalRun.system lap mUmbilical_s).Reachable monitor) ?_ ?_ hs monitor hmonitor
  · intro s (hi : Begins record me parser server options s) monitor hmonitor
    rw [hi.monitor] at hmonitor
    cases hmonitor
  intro s event t hs hi h monitor hmonitor
  cases h with
  | createUmbilicalMonitor halive hnone =>
    obtain rfl := Option.some.inj hmonitor
    refine .of_init ⟨_, _, _, fun pidServer hpidServer => ?_, rfl⟩
    obtain ⟨l, hl, rfl⟩ := Option.map_eq_some_iff.mp (show _ = some pidServer from hpidServer)
    exact (listener_of_reachable hs hl).2 hnone
  | umbilical halive hrun h =>
    obtain rfl := Option.some.inj hmonitor
    exact (hi _ hrun).tail h
  | accept halive hrun h =>
    obtain rfl := Option.some.inj hmonitor
    exact (hi _ hrun).tail h
  | _ => exact hi monitor hmonitor

/-- A client that looks at its socket finds out whether the umbilical process is there. -/
theorem reapCommand_ready_iff
    (hs : (system record mRelaxed me parser server lap mUmbilical_s options).Reachable s) {rdReady : Bool}
    (h : Step record mRelaxed me parser server lap mUmbilical_s s
      (.run (.waitSocketReadReady (some rdReady))) t) (hclient : s.mClient ≠ none) :
    rdReady = true ↔ ¬ s.UmbilicalAlive := by
  obtain ⟨client, hclient⟩ := Option.ne_none_iff_exists'.mp hclient
  cases h with
  | @run _ run run' hrun h hready =>
    rw [hready rdReady client rfl hclient]
    refine not_congr ⟨fun hconnected => hconnected.1, fun halive => ⟨halive, ?_⟩⟩
    cases CommandRun.steps_of_next h with
    | checks hstage =>
      have htether : s.HasTether := by
        simp [HasTether, hrun, CommandRun.hasTether, (returned_of_reachable hs hrun).1.checking hstage]
      obtain ⟨monitor, hmonitor, hmem⟩ := client_of_reachable hs hclient
      exact ⟨monitor, hmonitor, hmem halive htether⟩

/-- The umbilical process kills the process group of the child under none of its clients,
unless it fails to poll for them. -/
theorem killChildProcessGroup_spares {run : List (ReferenceEvent π ν κ × ReferenceWorld π ν κ)}
    (hs : Begins record me parser server options s)
    (hr : (system record mRelaxed me parser server lap mUmbilical_s options).IsRun s run)
    (hc : System.Throughout Cleans s run) :
    System.Throughout (fun s event _ => event = .process .killChildProcessGroup → s.mClient ≠ none →
      ¬ s.HasTether) s run := by
  refine System.IsRun.throughout_of_condition
    (I := fun s => ∀ monitor, s.monitor = some monitor → monitor.monitor.Pins)
    (fun s event t hs hi h hc => ⟨?_, ?_⟩) (.of_init hs) ?_ hr hc
  · rintro rfl hclient htether
    obtain ⟨client, hclient⟩ := Option.ne_none_iff_exists'.mp hclient
    cases h with
    | process hnext hcreate hkill horderly =>
      obtain ⟨monitor, hmonitor, hphase⟩ := hkill (.inl rfl)
      obtain ⟨monitor', hmonitor', hmem⟩ := client_of_reachable hs hclient
      obtain rfl := Option.some.inj (hmonitor.symm.trans hmonitor')
      have halive : s.UmbilicalAlive := by
        cases ProcessWorld.steps_of_next hnext with
        | kills hevent hu halive htodo => exact ⟨_, hu, htodo, halive⟩
      have hcompletion := UmbilicalRun.completion_of_killing (monitor_of_reachable hs hmonitor) hphase
      have hpinned := (hi monitor hmonitor).completion (List.ne_nil_of_mem (hmem halive htether))
      rw [hcompletion] at hpinned
      cases hpinned
  · intro monitor hmonitor
    have hafter : ∀ {run run' : UmbilicalRun} {event : UmbilicalEvent}, s.monitor = some run →
        run.next lap event = some run' → run.Cleans event → run'.monitor.Pins := by
      intro run run' event hrun hnext hcleans
      obtain ⟨hready, rfl⟩ := UmbilicalRun.next_eq_some.mp hnext
      exact (UmbilicalRun.after_pins (UmbilicalRun.serves_of_reachable (monitor_of_reachable hs hrun))
        (hi run hrun) hready).mpr hcleans
    cases h with
    | createUmbilicalMonitor halive hnone =>
      obtain rfl := Option.some.inj hmonitor
      intro hclients
      exfalso
      refine hclients ?_
      have hfresh : ∀ l, s.world.listener server = some l → l.pidServer.mClients = [] :=
        fun l hl => (listener_of_reachable hs hl).2 hnone
      show UmbilicalMonitor.clients (UmbilicalMonitor.create _ _ _ _ _) = []
      unfold UmbilicalMonitor.clients UmbilicalMonitor.create
      cases hl : s.world.listener server with
      | none => rfl
      | some l => exact hfresh l hl
    | umbilical halive hrun hnext =>
      obtain rfl := Option.some.inj hmonitor
      exact hafter hrun hnext (hc _ rfl _ hrun)
    | accept halive hrun hnext =>
      obtain rfl := Option.some.inj hmonitor
      exact hafter hrun hnext trivial
    | _ => exact hi monitor hmonitor
  · intro monitor hmonitor
    rw [hs.monitor] at hmonitor
    cases hmonitor

/-- The client has a reference, or has had it to the end. -/
def Referenced (s : ReferenceWorld π ν κ) : Prop :=
  s.run = none ∨ ∃ run, s.run = some run ∧ run.stage ≠ .terminated ∧ run.mChildPid ≠ 0 ∧ s.mClient ≠ none ∧
    (s.UmbilicalAlive ∨ run.succeeds)

/-- A client does not get a reference once `createCommand` has returned. -/
theorem unaccepted_of_returned
    (hs : (system record mRelaxed me parser server lap mUmbilical_s options).Reachable s) {run : CommandRun}
    (hrun : s.run = some run) (hstage : run.stage ≠ .terminated) {euid : Nat} {calls : PidServerCalls}
    {peer : PidServerPeer} {fd : Int}
    (h : Step record mRelaxed me parser server lap mUmbilical_s s (.accept euid calls peer fd) t) : False := by
  cases h with
  | accept halive hmonitor h hfree hworld =>
    obtain ⟨l, conn, -, htether, hreply, -⟩ := hworld
    obtain ⟨status, hcommand, -⟩ := (returned_of_reachable hs hrun).2.resolve_left hstage
    have hconsistent := CommandWorld.consistent_of_reachable (world_of_reachable hs)
    rw [hcommand] at hconsistent
    by_cases hsucceeds : status = .ok ∧ run.mChildPid ≠ 0
    · obtain ⟨conn', pidServer, htether', hack, -⟩ := hconsistent.1 hsucceeds
      obtain rfl := Option.some.inj (htether.symm.trans htether')
      rw [hreply] at hack
      cases hack
    · rw [hconsistent.2 hsucceeds] at htether
      cases htether

theorem Referenced.of_step
    (hs : (system record mRelaxed me parser server lap mUmbilical_s options).Reachable s)
    (h : Step record mRelaxed me parser server lap mUmbilical_s s event t) (ht : t.Referenced) :
    s.Referenced := by
  cases hrun : s.run with
  | none => exact .inl hrun
  | some run =>
    refine .inr ⟨run, hrun, ?_⟩
    have hback : t.run = some run → t.mClient = s.mClient → run.stage ≠ .terminated ∧ run.mChildPid ≠ 0 ∧
        s.mClient ≠ none ∧ (s.UmbilicalAlive ∨ run.succeeds) := by
      intro hsame hclient
      rcases ht with hnone | ⟨run', hrun', hstage, hpid, hne, halive⟩
      · rw [hsame] at hnone
        cases hnone
      · obtain rfl := Option.some.inj (hsame.symm.trans hrun')
        rw [hclient] at hne
        refine ⟨hstage, hpid, hne, halive.imp_left (umbilicalAlive_of_step hs h ?_)⟩
        obtain ⟨client, he⟩ := Option.ne_none_iff_exists'.mp hne
        obtain ⟨m, hm, -⟩ := client_of_reachable hs he
        rw [hm]
        exact Option.some_ne_none _
    have hstep := h
    cases h with
    | process | createPidServer | closePidServer | createUmbilicalMonitor | umbilical | command =>
      exact hback hrun rfl
    | createCommandReturns hnone | createCommandTerminates hnone =>
      rw [hnone] at hrun
      cases hrun
    | accept =>
      exfalso
      refine unaccepted_of_returned hs hrun ?_ hstep
      rintro hterminated
      rcases ht with hnone | ⟨run', hrun', hstage, -⟩
      · cases hrun.symm.trans hnone
      · obtain rfl := Option.some.inj (hrun.symm.trans hrun')
        exact hstage hterminated
    | @run act run₀ run' hrun₀ h hready =>
      obtain rfl := Option.some.inj (hrun.symm.trans hrun₀)
      have hsteps := CommandRun.steps_of_next h
      rcases ht with hnone | ⟨run₁, hrun₁, hstage, hpid, hne, halive⟩
      · cases hnone
      obtain rfl := Option.some.inj hrun₁
      rw [CommandRun.mChildPid_of_steps hsteps] at hpid
      refine ⟨fun hterminated => hstage (CommandRun.terminated_of_steps hsteps hterminated), hpid, hne, ?_⟩
      rcases halive with halive | hsucceeds
      · exact .inl halive
      · obtain hsucceeds | ⟨-, rfl⟩ :=
          CommandRun.succeeds_of_steps (returned_of_reachable hs hrun).1 hpid hsteps hsucceeds
        · exact .inr hsucceeds
        · left
          by_contra hgone
          exact Bool.false_ne_true ((reapCommand_ready_iff hs hstep hne).mpr hgone)

/-- What a command that runs under a reference has in its environment is the pid of the
child, which is that of nobody else. -/
theorem Referenced.held
    (hs : (system record mRelaxed me parser server lap mUmbilical_s options).Reachable s)
    (hi : s.Referenced) (ha : s.processes.Anchored) {run : CommandRun} (hrun : s.run = some run) {pid : Pid}
    (henvironment : run.environment = some pid) : ∃ child, s.processes.child = some child ∧
      child.pid = pid ∧ s.processes.table.Held pid child.self := by
  rcases hi with hnone | ⟨run', hrun', hstage, hpid, hclient, halive⟩
  · cases hrun.symm.trans hnone
  obtain rfl := Option.some.inj (hrun.symm.trans hrun')
  obtain ⟨hsound, hreturned⟩ := returned_of_reachable hs hrun
  obtain ⟨status, hcommand, hstatus⟩ := hreturned.resolve_left hstage
  obtain ⟨rfl, -⟩ := hsound.environment pid henvironment
  have hok : status = .ok := by
    refine hstatus.resolve_right fun h => ?_
    simp [CommandRun.environment, h.2] at henvironment
  have hconsistent := CommandWorld.consistent_of_reachable (world_of_reachable hs)
  rw [hcommand] at hconsistent
  obtain ⟨conn, pidServer, htether, hack, hserver, -⟩ := hconsistent.1 ⟨hok, hpid⟩
  obtain ⟨pidServer', hack', child, hchild, hnamed⟩ := (acknowledged_of_reachable hs hclient).2 conn htether
  obtain rfl := Reply.acknowledged.inj (hack.symm.trans hack')
  obtain ⟨u, hu, htodo, halive⟩ := halive.resolve_right fun hsucceeds => by
    rw [hsound.environment_of_succeeds hsucceeds] at henvironment
    cases henvironment
  have htended := ProcessWorld.tended_of_reachable (processes_of_reachable hs)
  obtain ⟨hchild', hpgid, -⟩ := (htended.umbilical u hu).child
  obtain rfl := Option.some.inj (hchild.symm.trans hchild')
  have hheld := htended.held_of_anchored ha hu halive htodo .child
  refine ⟨u.child, hchild, hnamed.trans hserver, ?_⟩
  rw [← hserver, ← hnamed, hpgid]
  exact hheld

/-- A command that `cmdRunCommand` reports as successful has had, for as long as it ran and
whatever has become of the child and of the sentry, the pid of the child in its environment
and nobody else under that pid. -/
theorem reapCommand_referenced {run : List (ReferenceEvent π ν κ × ReferenceWorld π ν κ)}
    (hs : Begins record me parser server options s)
    (hr : (system record mRelaxed me parser server lap mUmbilical_s options).IsRun s run)
    (hc : System.Throughout AnchorsUnderSentry s run) {command : CommandRun}
    (hcommand : (System.last s run).run = some command) (hstage : command.stage = .returned (some 0))
    (hpid : command.mChildPid ≠ 0) (hclient : (System.last s run).mClient ≠ none) :
    System.Throughout (fun _ _ t => ∀ command pid, t.run = some command → command.environment = some pid →
      ∃ child, t.processes.child = some child ∧ child.pid = pid ∧
        t.processes.table.Held pid child.self) s run := by
  have hlast : (System.last s run).Referenced := by
    refine .inr ⟨command, hcommand, ?_, hpid, hclient, .inr (.inr hstage)⟩
    rw [hstage]
    exact CommandStage.noConfusion
  have hreferenced := (System.IsRun.throughout_of_last (fun s event t hs
    (h : Step record mRelaxed me parser server lap mUmbilical_s s event t) ht => Referenced.of_step hs h ht)
    (.of_init hs) hr hlast).2
  refine System.IsRun.throughout_of_condition (I := fun s => s.processes.Anchored)
    (fun s event t hs ha h hc => ?_) (.of_init hs) (ProcessWorld.anchored_of_begins hs.processes) hr
    (hc.and hreferenced)
  have ha' : t.processes.Anchored := by
    have htended := ProcessWorld.tended_of_reachable (processes_of_reachable hs)
    cases h with
    | process h => exact ha.step htended (ProcessWorld.steps_of_next h) (hc.1 _ rfl)
    | createPidServer h => exact ha.step htended (ProcessWorld.steps_of_next h) nofun
    | _ => exact ha
  exact ⟨fun command pid hrun henvironment => hc.2.held (hs.tail h) ha' hrun henvironment, ha'⟩

/-- The steps that meet the conditions. -/
def orderly (record : π → PidFileRecord) (mRelaxed : Bool) (me : π) (parser : PidParser) (server : κ)
    (lap : LapTime) (mUmbilical_s : Nat) (options : SentryOptions) :
    System (ReferenceWorld π ν κ) (ReferenceEvent π ν κ) :=
  ⟨Begins record me parser server options, fun s event t =>
    Step record mRelaxed me parser server lap mUmbilical_s s event t ∧
      AnchorsUnderSentry s event t ∧ Cleans s event t⟩

/-- The steps of the processes that are theirs alone. -/
def apart (p : ProcessWorld) (event : ProcessEvent) : Option ProcessWorld :=
  if (event = .sentry (.call .ok) → p.run.todo.head? ≠ some .createPidServer) ∧
      event ≠ .killChildProcessGroup ∧ event ≠ .killSentryProcessGroup ∧
      (p.anchoring event = true → p.sentryAlive) then p.next event
  else none

theorem run_of_orderly {run : List (ReferenceEvent π ν κ × ReferenceWorld π ν κ)}
    (hr : (orderly record mRelaxed me parser server lap mUmbilical_s options).IsRun s run) :
    (system record mRelaxed me parser server lap mUmbilical_s options).IsRun s run ∧
      System.Throughout AnchorsUnderSentry s run ∧ System.Throughout Cleans s run := by
  induction run generalizing s with
  | nil => exact ⟨trivial, trivial, trivial⟩
  | cons step run ih =>
    obtain ⟨hrun, hanchors, hcleans⟩ := ih hr.2
    exact ⟨⟨hr.1.1, hrun⟩, ⟨hr.1.2.1, hanchors⟩, hr.1.2.2, hcleans⟩

theorem reachable_of_orderly
    (hs : (orderly record mRelaxed me parser server lap mUmbilical_s options).Reachable s) :
    (system record mRelaxed me parser server lap mUmbilical_s options).Reachable s :=
  System.Reachable.invariant (M := orderly record mRelaxed me parser server lap mUmbilical_s options)
    (fun _ hi => .of_init hi) (fun _ _ _ _ hi h => hi.tail h.1) hs

/-- The umbilical process goes on once the client has closed its socket. -/
theorem reachable_umbilical
    (hs : (orderly record mRelaxed me parser server lap mUmbilical_s options).Reachable s)
    (event : UmbilicalEvent) {monitor monitor' : UmbilicalRun} {world : CommandWorld π ν κ}
    (halive : s.UmbilicalAlive) (hmonitor : s.monitor = some monitor) (htether : ¬ s.HasTether)
    (h : monitor.next lap event = some monitor')
    (hserver : ∀ euid calls peer fd, event ≠ .pidServer euid calls peer fd) (hcleans : monitor.Cleans event)
    (hworld : match event.command server with
      | some event => s.world.Step record mRelaxed me parser event world
      | none => world = s.world) :
    (orderly record mRelaxed me parser server lap mUmbilical_s options).Reachable
      { s with monitor := some monitor', world } := by
  refine hs.tail (a := .umbilical event) ⟨.umbilical halive hmonitor h (fun euid calls peer fd he => ?_)
    (fun _ _ _ _ _ _ => htether) hworld, nofun, fun act hact m hm => ?_⟩
  · exact absurd he (hserver euid calls peer fd)
  · obtain rfl := ReferenceEvent.umbilical.inj hact
    obtain rfl := Option.some.inj (hmonitor.symm.trans hm)
    exact hcleans

theorem reachable_apart
    (hs : (orderly record mRelaxed me parser server lap mUmbilical_s options).Reachable s)
    (events : List ProcessEvent) {processes : ProcessWorld}
    (h : events.foldlM apart s.processes = some processes) :
    (orderly record mRelaxed me parser server lap mUmbilical_s options).Reachable { s with processes } := by
  induction events generalizing s with
  | nil =>
    obtain rfl := Option.some.inj h
    exact hs
  | cons event events ih =>
    rw [List.foldlM_cons] at h
    obtain ⟨p, hp, h⟩ := Option.bind_eq_some_iff.mp h
    obtain ⟨⟨hcreate, hchild, hsentry, halive⟩, hnext⟩ := Option.ite_none_right_eq_some.mp hp
    refine ih (s := { s with processes := p })
      (hs.tail (a := .process event) ⟨.process hnext ?_ ?_ ?_, ?_, nofun⟩) h
    · exact fun hcreates => hcreate hcreates.1 hcreates.2
    · exact fun hkill => absurd hkill (not_or.mpr ⟨hchild, hsentry⟩)
    · exact fun hkill => absurd hkill hsentry
    · rintro act hact hanchoring
      obtain rfl := ReferenceEvent.process.inj hact
      exact halive hanchoring

theorem reachable_call
    (hs : (orderly record mRelaxed me parser server lap mUmbilical_s options).Reachable s)
    (call : CommandCall ν κ) {q : CommandPhase} {w : World π ν} (hnone : s.run = none)
    (hnext : s.world.command.next parser mRelaxed call = some q) (hpermits : s.world.Permits call)
    (hworld : match call.pidFileCall (s.world.world.files.descriptor me) with
      | some call => s.world.world.Step record parser (.call me call) w
      | none => w = s.world.world) :
    (orderly record mRelaxed me parser server lap mUmbilical_s options).Reachable { s with
      world := ⟨w, s.world.listener, q, s.world.tetherAfter call, s.world.viewedAfter me call⟩ } :=
  hs.tail (a := .command (.command call))
    ⟨.command nofun (fun _ _ => hnone) ⟨hnext, hpermits, hworld, rfl, rfl, rfl⟩, nofun, nofun⟩

theorem reachable_run
    (hs : (orderly record mRelaxed me parser server lap mUmbilical_s options).Reachable s)
    {run run' : CommandRun} (hrun : s.run = some run) (events : List CommandRunEvent)
    (hready : ∀ event ∈ events, ∀ rdReady, event ≠ .waitSocketReadReady rdReady)
    (h : events.foldlM CommandRun.next run = some run') :
    (orderly record mRelaxed me parser server lap mUmbilical_s options).Reachable
      { s with run := some run' } := by
  induction events generalizing s run with
  | nil =>
    obtain rfl := Option.some.inj h
    rw [← hrun]
    exact hs
  | cons event events ih =>
    rw [List.foldlM_cons] at h
    obtain ⟨run₁, hnext, h⟩ := Option.bind_eq_some_iff.mp h
    refine ih (s := { s with run := some run₁ }) ?_ rfl
      (fun other hother => hready other (List.mem_cons_of_mem event hother)) h
    refine hs.tail (a := .run event) ⟨.run hrun hnext fun rdReady client he => ?_, nofun, nofun⟩
    exact absurd he (hready event List.mem_cons_self _)

/-- The sentry and the child once the sentry is about to create its pid server, and once the
umbilical process has put its anchors in place. -/
def recorded : ProcessWorld where
  table := ⟨[⟨7, 1, some 0, 7, 1, false⟩, ⟨5, 0, none, 5, 0, false⟩], 2⟩
  sentry := ⟨5, 0⟩
  mSentryPgid := 5
  clan := 0
  run := ⟨(runAgentSentry ⟨true, false, true, false, false⟩).drop 14, [], .working,
    ⟨true, 7, 7, true, false, [.cont, .stop, .signals, .done], .forked 7⟩⟩
  child := some ⟨7, 1⟩
  umbilical := none

def guarded : ProcessWorld := { recorded with
  table := ⟨[⟨10, 4, some 2, 5, 0, false⟩, ⟨9, 3, some 2, 7, 1, false⟩, ⟨8, 2, some 0, 8, 2, false⟩,
    ⟨7, 1, some 0, 7, 1, false⟩, ⟨5, 0, none, 5, 0, false⟩], 5⟩
  run.todo := recorded.run.todo.drop 5
  umbilical := some ⟨⟨8, 2⟩, ⟨7, 1⟩, 7, [], some ⟨9, 3⟩, some ⟨10, 4⟩⟩ }

def orphaned : ProcessWorld := { guarded with
  table := ⟨[⟨10, 4, some 2, 5, 0, false⟩, ⟨9, 3, some 2, 7, 1, false⟩, ⟨8, 2, none, 8, 2, false⟩], 5⟩ }

/-- The umbilical process with a client. -/
def pinned : UmbilicalRun where
  monitor := {
    mUmbilical := ⟨0, 2, 5, false⟩
    mPidServer := some ⟨3, 4, ⟨7, [97]⟩, [⟨5, 0⟩]⟩
    mEchoRequest := true
    mFds := ⟨⟨0, .input⟩, ⟨3, .input⟩, ⟨4, .input⟩⟩
    mTimer := ⟨-7500000000, 15000000000⟩ }
  phase := .looping

/-- A client gets a reference, and while its command runs the child and the sentry are killed
and reaped. -/
theorem exists_orphaned : ∃ (record : Unit → PidFileRecord) (s t : ReferenceWorld Unit Nat Unit),
    (orderly record false () .unsigned () .monotonic 30 ⟨true, false, true, false, false⟩).Reachable s ∧
    Step record false () .unsigned () .monotonic 30 s (.run (.waitSocketReadReady (some false))) t ∧
    t.processes = orphaned ∧ t.mClient = some ⟨5, 0⟩ ∧ s.mClient = some ⟨5, 0⟩ ∧
    t.run = some ⟨.closing (some 0), 7, true, some (.exited 0)⟩ ∧ t.monitor = some pinned ∧
    ∃ listener, t.world.listener () = some listener := by
  let record (_ : Unit) : PidFileRecord :=
    ⟨7, [97], ⟨[120], nofun, by decide, by decide, by decide⟩, by decide, nofun, by decide, by decide⟩
  let text : List UInt8 := [55, 10, 10, 97, 10, 120, 10]
  let message : List UInt8 := [7, 0, 0, 0, 1, 0, 0, 0, 0, 0, 0, 0, 97]
  let options : SentryOptions := ⟨true, false, true, false, false⟩
  let files : World Unit Nat := ⟨⟨some 0, fun _ => text, fun _ => .closed⟩,
    fun pid => if pid = 7 then some [97] else none, fun _ => .view .opening⟩
  let begins : ReferenceWorld Unit Nat Unit := ⟨{ ProcessWorld.alone with run := SentryRun.start options },
    none, ⟨files, fun _ => none, .initialising, none, none⟩, none, none⟩
  have hbegins : Begins record () .unsigned () options begins := by
    obtain ⟨htable, hsentry, -, hchild, humbilical⟩ := ProcessWorld.alone_begins
    exact ⟨⟨htable, hsentry, rfl, hchild, humbilical⟩,
      ⟨.of_init ⟨fun _ => rfl, fun _ => .inr rfl⟩, rfl, rfl, rfl, rfl⟩, rfl, rfl, rfl, rfl⟩
  have h₀ : (orderly record false () .unsigned () .monotonic 30 options).Reachable begins := .of_init hbegins
  have h₁ := reachable_apart h₀ (List.replicate 6 (.sentry (.call .ok)) ++
    [.forkChild 7, .groupChild, .sentry (.call (.forked 7))] ++ List.replicate 7 (.sentry (.call .ok)))
    (show _ = some recorded from rfl)
  have h₂ := h₁.tail (a := .createPidServer ⟨sunPath [120], ⟨3, 4, ⟨7, [97]⟩, []⟩⟩)
    ⟨.createPidServer (show _ = some { recorded with run.todo := recorded.run.todo.drop 1 } from rfl)
      ⟨rfl, rfl⟩ rfl ⟨rfl, nofun, rfl, rfl, rfl, rfl⟩, nofun, nofun⟩
  have h₃ := reachable_apart h₂ (List.replicate 4 (.sentry (.call .ok)) ++
    [.forkUmbilical 8, .umbilical 0, .umbilical 9, .umbilical 0, .umbilical 10, .umbilical 0])
    (show _ = some guarded from rfl)
  have halive : ∀ {p : ProcessWorld} {u}, p.umbilical = some u → u.todo = [] → p.table.Alive u.self.self →
      ∀ {m w r c}, UmbilicalAlive (⟨p, m, w, r, c⟩ : ReferenceWorld Unit Nat Unit) :=
    fun hu htodo halive => ⟨_, hu, htodo, halive⟩
  have h₄ := h₃.tail (a := .createUmbilicalMonitor 0)
    ⟨.createUmbilicalMonitor (halive rfl rfl (by decide)) rfl, nofun, nofun⟩
  have h₅ := h₄.tail (a := .umbilical (.umbilical (.byte 46) true true 0))
    ⟨.umbilical (halive rfl rfl (by decide)) rfl rfl (by simp) (by simp) rfl, nofun,
      by rintro act ⟨⟩ m -; trivial⟩
  have h₆ := reachable_call h₅ (.initPidFile true) rfl rfl trivial rfl
  have h₇ := reachable_call h₆ (.openPidFile 0) rfl rfl trivial ⟨rfl, _, rfl, rfl⟩
  have h₈ := reachable_call h₇ .acquirePidFileReadLock rfl rfl trivial
    ⟨fun _ _ j hj => absurd rfl hj, _, rfl, rfl⟩
  have h₉ := reachable_call h₈ (.readPidFile text) rfl rfl trivial ⟨⟨0, rfl, rfl⟩, _, rfl, rfl⟩
  have h₁₀ := reachable_call h₉ (.createPidSignature 7 (.signature [97])) rfl rfl (.inr rfl) rfl
  have h₁₁ := reachable_call h₁₀ (.connect () (sunPath [120])) rfl rfl ⟨_, rfl, rfl⟩ rfl
  have h₁₂ := reachable_call h₁₁ .ready rfl rfl trivial rfl
  have h₁₃ := reachable_call h₁₂ (.write message) rfl rfl trivial rfl
  have h₁₄ := h₁₃.tail (a := .accept 0 ⟨true, true, true⟩ ⟨0, message, true⟩ 5)
    ⟨.accept (halive rfl rfl (by decide)) rfl rfl (fun _ h => absurd h List.not_mem_nil)
      ⟨_, _, rfl, rfl, rfl, List.prefix_rfl, rfl⟩, nofun, nofun⟩
  have h₁₅ := reachable_call h₁₄ .ready rfl rfl trivial rfl
  have h₁₆ := reachable_call h₁₅ .read rfl rfl ⟨_, _, rfl, rfl⟩ rfl
  have h₁₇ := reachable_call h₁₆ .closeUnixSocket rfl rfl trivial rfl
  have h₁₈ := reachable_call h₁₇ .destroyPidFile rfl rfl trivial ⟨trivial, _, rfl, rfl⟩
  have h₁₉ := h₁₈.tail (a := .createCommandReturns) ⟨.createCommandReturns rfl rfl, nofun, nofun⟩
  have h₂₀ := reachable_run h₁₉ rfl [.createCommandProcess true, .fork none, .postCommandProcessChild true,
    .forkProcessChild true, .execShellCommand true] (by simp)
    (show _ = some ⟨.reaping, 7, true, some (.executing (some 7))⟩ from rfl)
  have h₂₁ := reachable_apart h₂₀ [.other (.exit 7), .other (.exit 5), .other (.reap 7), .other (.reap 5)]
    (show _ = some orphaned from rfl)
  have h₂₂ := reachable_run h₂₁ rfl [.exit 0, .reapProcessChild true] (by simp)
    (show _ = some ⟨.checking, 7, true, some (.exited 0)⟩ from rfl)
  have hready : ∀ rdReady client, CommandRunEvent.waitSocketReadReady (some false) =
      .waitSocketReadReady (some rdReady) → some (⟨5, 0⟩ : PidServerClient) = some client →
      ∀ {s : ReferenceWorld Unit Nat Unit}, s.Connected ⟨5, 0⟩ → (rdReady = true ↔ ¬ s.Connected client) := by
    rintro rdReady client ⟨⟩ ⟨⟩ s hconnected
    exact iff_of_false Bool.false_ne_true (not_not.mpr hconnected)
  exact ⟨record, _, _, h₂₂, .run rfl rfl fun rdReady client he hc =>
      hready rdReady client he hc ⟨halive rfl rfl (by decide), _, rfl, List.mem_cons_self⟩,
    rfl, rfl, rfl, rfl, by decide, _, rfl⟩

theorem reapCommand_ready_iff_orphaned : ∃ (record : Unit → PidFileRecord) (s t : ReferenceWorld Unit Nat Unit),
    Step record false () .unsigned () .monotonic 30 s (.run (.waitSocketReadReady (some false))) t ∧
    (system record false () .unsigned () .monotonic 30 ⟨true, false, true, false, false⟩).Reachable s ∧
    (false = true ↔ ¬ s.UmbilicalAlive) := by
  obtain ⟨_, s, t, hs, h, -, -, hclient, -⟩ := exists_orphaned
  exact ⟨_, s, t, h, reachable_of_orderly hs,
    reapCommand_ready_iff (reachable_of_orderly hs) h (by simp [hclient])⟩

theorem reapCommand_referenced_orphaned : ∃ (s : ReferenceWorld Unit Nat Unit)
    (run : List (ReferenceEvent Unit Nat Unit × ReferenceWorld Unit Nat Unit)),
    (System.last s run).processes = orphaned ∧
    System.Throughout (fun _ _ t => ∀ command pid, t.run = some command → command.environment = some pid →
      ∃ child, t.processes.child = some child ∧ child.pid = pid ∧
        t.processes.table.Held pid child.self) s run := by
  obtain ⟨_, s, t, hs, h, hprocesses, ht, -, hrun, -⟩ := exists_orphaned
  have hclosed := reachable_run (hs.tail ⟨h, nofun, nofun⟩) hrun [.closeCommand] (by simp)
    (show _ = some ⟨.returned (some 0), 7, false, some (.exited 0)⟩ from rfl)
  obtain ⟨s, run, hs, hr, hlast⟩ := hclosed.exists_run
  obtain ⟨hr, hanchors, -⟩ := run_of_orderly hr
  refine ⟨s, run, (congrArg ReferenceWorld.processes hlast).trans hprocesses, ?_⟩
  refine reapCommand_referenced hs hr hanchors (congrArg ReferenceWorld.run hlast) rfl (by decide) ?_
  rw [congrArg ReferenceWorld.mClient hlast]
  simp [ht]

/-- The client is gone, and the umbilical process with nobody left kills the process group. -/
theorem killChildProcessGroup_spares_orphaned : ∃ (s : ReferenceWorld Unit Nat Unit)
    (run : List (ReferenceEvent Unit Nat Unit × ReferenceWorld Unit Nat Unit))
    (t : ReferenceWorld Unit Nat Unit), run.getLast? = some (.process .killChildProcessGroup, t) ∧
    t.mClient = some ⟨5, 0⟩ ∧
    System.Throughout (fun s event _ => event = .process .killChildProcessGroup → s.mClient ≠ none →
      ¬ s.HasTether) s run := by
  obtain ⟨record, s, t, hs, h, hprocesses, ht, -, hrun, hmonitor, listener, hlistener⟩ := exists_orphaned
  have halive : t.UmbilicalAlive := by
    refine ⟨⟨⟨8, 2⟩, ⟨7, 1⟩, 7, [], some ⟨9, 3⟩, some ⟨10, 4⟩⟩, ?_, rfl, ?_⟩
    · rw [hprocesses]
      rfl
    · rw [hprocesses]
      decide
  have h₁ := reachable_run (hs.tail ⟨h, nofun, nofun⟩) hrun [.closeCommand] (by simp)
    (show _ = some ⟨.returned (some 0), 7, false, some (.exited 0)⟩ from rfl)
  have h₂ := reachable_umbilical h₁ (.pidClient [⟨5, 0⟩] true) halive hmonitor Bool.false_ne_true rfl (by simp)
    (.inl rfl) ⟨_, hlistener, rfl⟩
  have h₃ := reachable_umbilical h₂ (.umbilical .eof true true 0) halive rfl Bool.false_ne_true rfl (by simp)
    trivial rfl
  have h₄ := reachable_umbilical h₃ .completed halive rfl Bool.false_ne_true rfl (by simp) trivial rfl
  obtain ⟨s, run, hs, hr, hlast⟩ := h₄.exists_run
  have hkill : (orderly record false () .unsigned () .monotonic 30 ⟨true, false, true, false, false⟩).step
      (System.last s run) (.process .killChildProcessGroup) (System.last s run) := by
    rw [hlast]
    refine ⟨.process ?_ nofun (fun _ => ⟨_, rfl, rfl⟩) nofun, nofun, nofun⟩
    show t.processes.next .killChildProcessGroup = some t.processes
    rw [hprocesses]
    rfl
  obtain ⟨hr, -, hcleans⟩ := run_of_orderly (hr.concat hkill)
  refine ⟨s, run ++ [_], _, List.getLast?_concat, ?_, killChildProcessGroup_spares hs hr hcleans⟩
  rw [hlast]
  exact ht

end ReferenceWorld

end PidSentry
