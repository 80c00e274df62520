import PidSentry.Command
import PidSentry.PidFileWorld
import PidSentry.PidServer

/-! A client of the pid file among sentries and pid servers that come and go.
A name at which one pid server has listened can be taken by another. -/

namespace PidSentry

structure Listener where
  sun_path : List UInt8
  pidServer : PidServer

inductive Reply (κ : Type*)
  | awaited (server : κ)
  | acknowledged (server : PidServer)
  | hungUp

structure Connection (κ : Type*) where
  sent : List UInt8
  reply : Reply κ

structure CommandWorld (π ν κ : Type*) where
  world : World π ν
  listener : κ → Option Listener
  command : CommandPhase
  mKeeperTether : Option (Connection κ)
  /-- The file that the client has read, and what it read there. -/
  viewed : Option (ν × List UInt8)

inductive CommandEvent (π ν κ : Type*)
  | command (call : CommandCall ν κ)
  | world (event : WorldEvent π ν)
  | createPidServer (server : κ) (listener : Listener)
  | closePidServer (server : κ)
  | cleanPidServer (server : κ) (gone : List PidServerClient) (polled : Bool)
  /-- A pid server deals with some other peer. -/
  | acceptPidServerConnection (server : κ) (euid : Nat) (calls : PidServerCalls)
    (peer : PidServerPeer) (fd : Int)
  | acceptCommand (server : κ) (euid : Nat) (calls : PidServerCalls) (peer : PidServerPeer)
    (fd : Int)

def CommandCall.pidFileCall {ν κ : Type*} (descriptor : Descriptor ν) :
    CommandCall ν κ → Option (PidFileCall ν)
  | openPidFile mFile => some (.file (.openExisting mFile))
  | nonexistent => some (.file .absent)
  | acquirePidFileReadLock => some (.file (.flock .shared))
  | readPidFile content => some (.file (.read content))
  | destroyPidFile => if descriptor.file = none then none else some (.file .close)
  | _ => none

def Connection.answered {κ : Type*} (self : Connection κ)
    (outcome : Outcome PidServer PidServerEffect) : Connection κ :=
  { self with reply := if outcome.effects = [] then .hungUp else .acknowledged outcome.self }

/-- A pid server that closes hangs up on a client that it has not got to. -/
def Connection.reset {κ : Type*} [DecidableEq κ] (server : κ) (self : Connection κ) :
    Connection κ :=
  match self.reply with
  | .awaited other => if other = server then { self with reply := .hungUp } else self
  | _ => self

namespace CommandWorld

variable {π ν κ : Type*} (record : π → PidFileRecord) (mRelaxed : Bool) (me : π)

def Permits (s : CommandWorld π ν κ) : CommandCall ν κ → Prop
  | .createPidSignature pid fetched =>
    fetched = .failed ∨ fetched = (s.world.processes pid).elim .absent .signature
  | .connect server sun_path => ∃ l, s.listener server = some l ∧ l.sun_path = sun_path
  | .read => ∃ conn server, s.mKeeperTether = some conn ∧ conn.reply = .acknowledged server
  | _ => True

def viewedAfter (s : CommandWorld π ν κ) : CommandCall ν κ → Option (ν × List UInt8)
  | .readPidFile content => (s.world.files.descriptor me).file.map (·, content)
  | _ => s.viewed

def tetherAfter (s : CommandWorld π ν κ) : CommandCall ν κ → Option (Connection κ)
  | .connect server _ => some ⟨[], .awaited server⟩
  | .write bytes => s.mKeeperTether.map fun conn => { conn with sent := conn.sent ++ bytes }
  | .closeUnixSocket => if s.command.succeeded then s.mKeeperTether else none
  | _ => s.mKeeperTether

variable [DecidableEq π] [DecidableEq ν] [DecidableEq κ]

def Step (parser : PidParser) (s : CommandWorld π ν κ) :
    CommandEvent π ν κ → CommandWorld π ν κ → Prop
  | .command call, t => s.command.next parser mRelaxed call = some t.command ∧ s.Permits call ∧
      (match call.pidFileCall (s.world.files.descriptor me) with
        | some call => s.world.Step record parser (.call me call) t.world
        | none => t.world = s.world) ∧
      t.listener = s.listener ∧ t.mKeeperTether = s.tetherAfter call ∧
      t.viewed = s.viewedAfter me call
  | .world event, t => (∀ call, event ≠ .call me call) ∧
      s.world.Step record parser event t.world ∧ t = { s with world := t.world }
  | .createPidServer server l, t => s.listener server = none ∧
      (∀ other l', s.listener other = some l' → l'.sun_path ≠ l.sun_path) ∧
      l.sun_path.head? = some 0 ∧ l.pidServer.mClients = [] ∧
      s.world.processes l.pidServer.mPidSignature.mPid = some l.pidServer.mPidSignature.mSignature ∧
      t = { s with listener := Function.update s.listener server (some l) }
  | .closePidServer server, t => t = { s with
      listener := Function.update s.listener server none
      mKeeperTether := s.mKeeperTether.map (Connection.reset server) }
  | .cleanPidServer server gone polled, t => ∃ l, s.listener server = some l ∧ t = { s with
      listener := Function.update s.listener server
        (some { l with pidServer := (l.pidServer.cleanPidServer gone polled).1 }) }
  | .acceptPidServerConnection server euid calls peer fd, t => ∃ l, s.listener server = some l ∧
      t = { s with listener := Function.update s.listener server (some { l with
        pidServer := (l.pidServer.acceptPidServerConnection euid calls peer fd).self }) }
  | .acceptCommand server euid calls peer fd, t => ∃ l conn, s.listener server = some l ∧
      s.mKeeperTether = some conn ∧ conn.reply = .awaited server ∧ peer.stream <+: conn.sent ∧
      t = { s with
        listener := Function.update s.listener server (some { l with
          pidServer := (l.pidServer.acceptPidServerConnection euid calls peer fd).self })
        mKeeperTether := some
          (conn.answered (l.pidServer.acceptPidServerConnection euid calls peer fd)) }

/-- The client sets out among any sentries and any pid servers. -/
def Start (parser : PidParser) (s : CommandWorld π ν κ) : Prop :=
  (World.system record parser).Reachable s.world ∧ s.world.phase me = .view .opening ∧
    s.command = .initialising ∧ s.mKeeperTether = none ∧ s.viewed = none

def system (parser : PidParser) : System (CommandWorld π ν κ) (CommandEvent π ν κ) :=
  ⟨Start record me parser, Step record mRelaxed me parser⟩

end CommandWorld

/-- An acknowledgement answers what has been sent. -/
def Connection.Sound {κ : Type*} (self : Connection κ) : Prop :=
  ∀ server, self.reply = .acknowledged server →
    ∃ rest, recvPidSignature self.sent = some (server.mPidSignature, rest)

namespace Connection

variable {κ : Type*} {conn : Connection κ}

theorem sound_send (h : conn.Sound) (bytes : List UInt8) :
    Sound { conn with sent := conn.sent ++ bytes } := by
  intro server hreply
  obtain ⟨rest, hrecv⟩ := h server hreply
  obtain ⟨message, hsend, hsent, hnul⟩ := recvPidSignature_eq_some hrecv
  refine ⟨rest ++ bytes, ?_⟩
  rw [hsent, List.append_assoc]
  exact recvPidSignature_send hsend hnul _

structure Serves (conn conn' : Connection κ) : Prop where
  sent : conn'.sent = conn.sent
  sound : conn.Sound → conn'.Sound
  acknowledged : ∀ server, conn.reply = .acknowledged server → conn'.reply = .acknowledged server

theorem reset_serves [DecidableEq κ] (server : κ) (conn : Connection κ) :
    conn.Serves (conn.reset server) := by
  obtain ⟨sent, reply⟩ := conn
  cases reply with
  | awaited other =>
    simp only [reset]
    split_ifs
    · exact ⟨rfl, fun _ => nofun, nofun⟩
    · exact ⟨rfl, id, nofun⟩
  | acknowledged | hungUp => exact ⟨rfl, id, fun _ h => h⟩

theorem answered_serves {server : κ} (hreply : conn.reply = .awaited server) {euid : Nat}
    {calls : PidServerCalls} {peer : PidServerPeer} {fd : Int} (self : PidServer)
    (hstream : peer.stream <+: conn.sent) :
    conn.Serves (conn.answered (self.acceptPidServerConnection euid calls peer fd)) := by
  have hnone : ∀ server, conn.reply ≠ .acknowledged server := by simp [hreply]
  rcases self.acceptPidServerConnection_cases euid calls peer fd with he | ⟨-, -, ⟨rest, hrecv⟩, he⟩
  · rw [he]
    exact ⟨rfl, fun _ => nofun, fun server h => absurd h (hnone server)⟩
  · rw [he]
    refine ⟨rfl, fun _ server h => ?_, fun server h => absurd h (hnone server)⟩
    obtain ⟨bytes, hsent⟩ := hstream
    have hsound : Sound (κ := κ) ⟨peer.stream, .acknowledged self⟩ := by
      intro server h
      obtain rfl := Reply.acknowledged.inj h
      exact ⟨rest, hrecv⟩
    obtain ⟨rest', hrecv'⟩ := sound_send hsound bytes self rfl
    obtain rfl := Reply.acknowledged.inj h
    refine ⟨rest', ?_⟩
    show recvPidSignature conn.sent = some (self.mPidSignature, rest')
    rw [← hsent]
    exact hrecv'

end Connection

/-- The pid file that the client has read names the process. -/
def Recorded {ν : Type*} (parser : PidParser) (viewed : Option (ν × List UInt8))
    (pidSignature : PidSignature) : Prop :=
  ∃ f content sun_path, viewed = some (f, content) ∧
    readPidFile parser content = .process pidSignature.mPid pidSignature.mSignature sun_path

/-- The connection is one that a pid server for the process in the pid file has
acknowledged. -/
def Referenced {ν κ : Type*} (parser : PidParser) (viewed : Option (ν × List UInt8))
    (tether : Option (Connection κ)) (mChildPid : Pid) : Prop :=
  ∃ conn server, tether = some conn ∧ conn.reply = .acknowledged server ∧
    server.mPidSignature.mPid = mChildPid ∧ Recorded parser viewed server.mPidSignature

namespace CommandPhase

variable {ν κ : Type*} {parser : PidParser} {mRelaxed : Bool} {viewed : Option (ν × List UInt8)}
  {tether : Option (Connection κ)} {p q : CommandPhase} {call : CommandCall ν κ}

/-- What the client has in hand. -/
def Consistent (parser : PidParser) (viewed : Option (ν × List UInt8))
    (tether : Option (Connection κ)) : CommandPhase → Prop
  | initialising | opening | locking | reading => tether = none ∧ viewed = none
  | checking parsedPid pidSignature _ =>
    tether = none ∧ Recorded parser viewed ⟨parsedPid, pidSignature⟩
  | connecting pidSignature _ => tether = none ∧ Recorded parser viewed pidSignature
  | awaitingWrite pidSignature => Recorded parser viewed pidSignature ∧
      ∃ conn, tether = some conn ∧ conn.Sound ∧ conn.sent = []
  | sending pidSignature message => Recorded parser viewed pidSignature ∧
      ∃ conn, tether = some conn ∧ conn.Sound ∧
        sendPidSignature pidSignature = some (conn.sent ++ message)
  | awaitingRead pidSignature | receiving pidSignature => Recorded parser viewed pidSignature ∧
      ∃ conn, tether = some conn ∧ conn.Sound ∧ sendPidSignature pidSignature = some conn.sent
  | finishing status mChildPid =>
    status = .ok ∧ mChildPid ≠ 0 → Referenced parser viewed tether mChildPid
  | destroying status mChildPid | returned status mChildPid =>
    (status = .ok ∧ mChildPid ≠ 0 → Referenced parser viewed tether mChildPid) ∧
      (¬ (status = .ok ∧ mChildPid ≠ 0) → tether = none)
  | aborting => True

theorem Consistent.serve (h : p.Consistent parser viewed tether) {f : Connection κ → Connection κ}
    (hf : ∀ conn, tether = some conn → conn.Serves (f conn)) :
    p.Consistent parser viewed (tether.map f) := by
  have hnone : tether = none → tether.map f = none := by rintro rfl; rfl
  have hsome : ∀ P : List UInt8 → Prop, (∃ conn, tether = some conn ∧ conn.Sound ∧ P conn.sent) →
      ∃ conn, tether.map f = some conn ∧ conn.Sound ∧ P conn.sent := by
    rintro P ⟨conn, rfl, hsound, hsent⟩
    have hserves := hf conn rfl
    exact ⟨f conn, rfl, hserves.sound hsound, hserves.sent ▸ hsent⟩
  have hreferenced : ∀ mChildPid, Referenced parser viewed tether mChildPid →
      Referenced parser viewed (tether.map f) mChildPid := by
    rintro mChildPid ⟨conn, server, rfl, hreply, hpid⟩
    exact ⟨f conn, server, rfl, (hf conn rfl).acknowledged server hreply, hpid⟩
  cases p with
  | initialising | opening | locking | reading | checking | connecting => exact ⟨hnone h.1, h.2⟩
  | awaitingWrite => exact ⟨h.1, hsome (· = []) h.2⟩
  | sending pidSignature message =>
    exact ⟨h.1, hsome (fun sent => sendPidSignature pidSignature = some (sent ++ message)) h.2⟩
  | awaitingRead pidSignature | receiving pidSignature =>
    exact ⟨h.1, hsome (fun sent => sendPidSignature pidSignature = some sent) h.2⟩
  | finishing => exact fun hs => hreferenced _ (h hs)
  | destroying | returned => exact ⟨fun hs => hreferenced _ (h.1 hs), fun hs => hnone (h.2 hs)⟩
  | aborting => trivial

theorem consistent_error : (finishing .error 0).Consistent parser viewed tether :=
  fun h => absurd rfl h.2

theorem consistent_settled {status : CommandStatus} (hne : status ≠ .ok) (mChildPid : Pid) :
    (settled mRelaxed status mChildPid).Consistent parser viewed tether := by
  rcases settled_cases mRelaxed status mChildPid with he | he <;> rw [he]
  · exact fun h => absurd h.1 hne
  · exact fun h => absurd rfl h.2

/-- What is written of the message is gone from what is left of it. -/
theorem consistent_write {pidSignature : PidSignature} {message bytes : List UInt8}
    {conn : Connection κ} (hrecorded : Recorded parser viewed pidSignature) (hsound : conn.Sound)
    (hsend : sendPidSignature pidSignature = some (conn.sent ++ message))
    (hnext : (sending pidSignature message).next parser mRelaxed
      (.write bytes : CommandCall ν κ) = some q) :
    q.Consistent parser viewed (some { conn with sent := conn.sent ++ bytes }) := by
  by_cases hall : bytes = message
  · subst hall
    cases (if_pos rfl).symm.trans hnext
    exact ⟨hrecorded, _, rfl, Connection.sound_send hsound bytes, hsend⟩
  · obtain ⟨hpre, hnext⟩ := Option.ite_none_right_eq_some.mp ((if_neg hall).symm.trans hnext)
    obtain rfl := Option.some.inj hnext
    refine ⟨hrecorded, _, rfl, Connection.sound_send hsound bytes, ?_⟩
    obtain ⟨rest, rfl⟩ := hpre
    simpa using hsend

/-- The server that acknowledges the signature of a record is the server of that record. -/
theorem consistent_acknowledged {pidSignature : PidSignature} {conn : Connection κ}
    {server : PidServer} (hrecorded : Recorded parser viewed pidSignature) (hsound : conn.Sound)
    (hsend : sendPidSignature pidSignature = some conn.sent)
    (hreply : conn.reply = .acknowledged server) :
    (settled mRelaxed .ok pidSignature.mPid).Consistent parser viewed (some conn) := by
  obtain ⟨f, content, sun_path, hviewed, hread⟩ := hrecorded
  have hserver : server.mPidSignature = pidSignature := by
    obtain ⟨rest, hrecv⟩ := hsound server hreply
    have hsent := recvPidSignature_send hsend (scanPidFile_nul hread) []
    rw [List.append_nil, hrecv] at hsent
    exact (Prod.mk.inj (Option.some.inj hsent)).1
  rcases settled_cases mRelaxed .ok pidSignature.mPid with he | he
  · rw [he]
    subst hserver
    exact fun _ => ⟨conn, server, rfl, hreply, rfl, f, content, sun_path, hviewed, hread⟩
  · rw [he]
    exact fun h => absurd rfl h.2

end CommandPhase

namespace CommandWorld

variable {π ν κ : Type*} {record : π → PidFileRecord} {mRelaxed : Bool} {me : π}
  {parser : PidParser} {s t : CommandWorld π ν κ}

theorem consistent_command (h : s.command.Consistent parser s.viewed s.mKeeperTether)
    {call : CommandCall ν κ} {q : CommandPhase}
    (hnext : s.command.next parser mRelaxed call = some q) (hpermits : s.Permits call)
    (hopen : ∀ content, call = .readPidFile content →
      (s.world.files.descriptor me).file ≠ none) :
    q.Consistent parser (s.viewedAfter me call) (s.tetherAfter call) := by
  obtain ⟨world, listener, command, tether, viewed⟩ := s
  cases command with
  | initialising =>
    cases call with
    | initPidFile reachable =>
      cases hnext
      split_ifs
      · exact h
      · exact CommandPhase.consistent_settled (by simp) 0
    | failed => cases hnext; exact CommandPhase.consistent_error
    | _ => cases hnext
  | opening =>
    cases call with
    | openPidFile => cases hnext; exact h
    | nonexistent | inaccessible => cases hnext; exact CommandPhase.consistent_settled (by simp) 0
    | failed => cases hnext; exact CommandPhase.consistent_error
    | _ => cases hnext
  | locking =>
    cases call with
    | acquirePidFileReadLock => cases hnext; exact h
    | failed => cases hnext; exact CommandPhase.consistent_error
    | _ => cases hnext
  | reading =>
    cases call with
    | readPidFile content =>
      cases hnext
      obtain ⟨f, hf⟩ := Option.ne_none_iff_exists'.mp (hopen content rfl)
      cases hread : readPidFile parser content with
      | malformed => exact CommandPhase.consistent_settled (by simp) 0
      | unaddressable => exact CommandPhase.consistent_error
      | process parsedPid pidSignature sun_path =>
        exact ⟨h.1, f, content, sun_path, by rw [viewedAfter, hf]; rfl, hread⟩
    | failed => cases hnext; exact CommandPhase.consistent_error
    | _ => cases hnext
  | checking parsedPid pidSignature sun_path =>
    cases call with
    | createPidSignature pid fetched =>
      obtain ⟨-, hnext⟩ := Option.ite_none_right_eq_some.mp hnext
      obtain rfl := Option.some.inj hnext
      rcases CommandPhase.matched_cases mRelaxed sun_path parsedPid pidSignature fetched with
        he | he | ⟨status, mChildPid, he, hnot⟩
      · rw [he]
        exact h
      · rw [he]
        trivial
      · rw [he] at hnot ⊢
        simp only [CommandPhase.succeeded, decide_eq_false_iff_not] at hnot
        exact fun hs => absurd hs hnot
    | _ => cases hnext
  | connecting pidSignature sun_path =>
    cases call with
    | connect server name =>
      obtain ⟨-, hnext⟩ := Option.ite_none_right_eq_some.mp hnext
      obtain rfl := Option.some.inj hnext
      refine ⟨h.2, _, rfl, fun _ hreply => ?_, rfl⟩
      cases hreply
    | failed => cases hnext; exact CommandPhase.consistent_error
    | _ => cases hnext
  | awaitingWrite pidSignature =>
    cases call with
    | ready =>
      cases hnext
      cases hsend : sendPidSignature pidSignature with
      | none => exact CommandPhase.consistent_error
      | some message =>
        obtain ⟨hrecorded, conn, htether, hsound, hsent⟩ := h
        exact ⟨hrecorded, conn, htether, hsound, by rw [hsent]; exact hsend⟩
    | failed => cases hnext; exact CommandPhase.consistent_error
    | _ => cases hnext
  | sending pidSignature message =>
    cases call with
    | write bytes =>
      obtain ⟨hrecorded, conn, htether, hsound, hsend⟩ := h
      obtain rfl : tether = some conn := htether
      exact CommandPhase.consistent_write hrecorded hsound hsend hnext
    | failed => cases hnext; exact CommandPhase.consistent_error
    | _ => cases hnext
  | awaitingRead pidSignature =>
    cases call with
    | ready => cases hnext; exact h
    | failed => cases hnext; exact CommandPhase.consistent_error
    | _ => cases hnext
  | receiving pidSignature =>
    cases call with
    | read =>
      cases hnext
      obtain ⟨hrecorded, conn, htether, hsound, hsend⟩ := h
      obtain ⟨conn', server, htether', hreply⟩ := hpermits
      obtain rfl := Option.some.inj (htether.symm.trans htether')
      obtain rfl : tether = some conn := htether
      exact CommandPhase.consistent_acknowledged hrecorded hsound hsend hreply
    | failed => cases hnext; exact CommandPhase.consistent_error
    | _ => cases hnext
  | finishing status mChildPid =>
    cases call with
    | closeUnixSocket =>
      cases hnext
      have hafter : tetherAfter ⟨world, listener, .finishing status mChildPid, tether, viewed⟩
          .closeUnixSocket = if status = .ok ∧ mChildPid ≠ 0 then tether else none := by
        simp [tetherAfter, CommandPhase.succeeded]
      rw [hafter]
      refine ⟨fun hs => ?_, fun hs => if_neg hs⟩
      rw [if_pos hs]
      exact h hs
    | _ => cases hnext
  | destroying status mChildPid =>
    cases call with
    | destroyPidFile => cases hnext; exact h
    | _ => cases hnext
  | returned | aborting => cases call <;> cases hnext

variable [DecidableEq π] [DecidableEq ν] [DecidableEq κ]

theorem world_of_reachable (hs : (system record mRelaxed me parser).Reachable s) :
    (World.system record parser).Reachable s.world := by
  refine hs.invariant (P := fun s => (World.system record parser).Reachable s.world)
    (fun s (hs : Start record me parser s) => hs.1) ?_
  rintro s event t - hw hstep
  cases event with
  | command call =>
    obtain ⟨-, -, hworld, -⟩ := hstep
    cases hcall : call.pidFileCall (s.world.files.descriptor me) with
    | none =>
      rw [hcall] at hworld
      exact (show t.world = s.world from hworld) ▸ hw
    | some pidFileCall =>
      rw [hcall] at hworld
      exact hw.tail (show (World.system record parser).step s.world (.call me pidFileCall) t.world
        from hworld)
  | world event => exact hw.tail hstep.2.1
  | createPidServer =>
    obtain ⟨-, -, -, -, -, rfl⟩ := hstep
    exact hw
  | closePidServer =>
    obtain rfl := hstep
    exact hw
  | cleanPidServer | acceptPidServerConnection =>
    obtain ⟨l, -, rfl⟩ := hstep
    exact hw
  | acceptCommand =>
    obtain ⟨l, conn, -, -, -, -, rfl⟩ := hstep
    exact hw

theorem consistent_of_reachable (hs : (system record mRelaxed me parser).Reachable s) :
    s.command.Consistent parser s.viewed s.mKeeperTether := by
  refine hs.invariant (P := fun s => s.command.Consistent parser s.viewed s.mKeeperTether)
    (fun s (hs : Start record me parser s) => ?_) ?_
  · obtain ⟨-, -, hcommand, htether, hviewed⟩ := hs
    rw [hcommand]
    exact ⟨htether, hviewed⟩
  rintro s event t - hi hstep
  cases event with
  | command call =>
    obtain ⟨hnext, hpermits, hworld, -, htether, hviewed⟩ := hstep
    rw [htether, hviewed]
    refine consistent_command hi hnext hpermits ?_
    rintro content rfl
    obtain ⟨⟨f, hf, -⟩, -⟩ := hworld
    rw [hf]
    exact Option.some_ne_none f
  | world event =>
    obtain ⟨-, -, ht⟩ := hstep
    rw [ht]
    exact hi
  | createPidServer =>
    obtain ⟨-, -, -, -, -, rfl⟩ := hstep
    exact hi
  | closePidServer server =>
    obtain rfl := hstep
    exact hi.serve fun conn _ => conn.reset_serves server
  | cleanPidServer | acceptPidServerConnection =>
    obtain ⟨l, -, rfl⟩ := hstep
    exact hi
  | acceptCommand server euid calls peer fd =>
    obtain ⟨l, conn, -, htether, hreply, hstream, rfl⟩ := hstep
    have hserve := hi.serve (f := fun _ =>
      conn.answered (l.pidServer.acceptPidServerConnection euid calls peer fd)) ?_
    · rw [htether] at hserve
      exact hserve
    · intro conn' htether'
      obtain rfl := Option.some.inj (htether.symm.trans htether')
      exact Connection.answered_serves hreply l.pidServer hstream

/-- The client watches over the file that it has read until it returns. -/
structure Watches (me : π) (s : CommandWorld π ν κ) : Prop where
  view : (∃ v, s.world.phase me = .view v) ∨ s.world.phase me = .gone
  locked : ∀ f content, s.viewed = some (f, content) →
    (∃ status mChildPid, s.command = .returned status mChildPid) ∨
      s.world.phase me = .view (.locked f) ∧ s.world.files.content f = content

omit [DecidableEq κ] in
theorem Watches.of_others (hi : s.Watches me) (hw : s.world.Tracked record)
    {event : WorldEvent π ν} (hevent : ∀ call, event ≠ .call me call)
    (hstep : s.world.Step record parser event t.world) (hcommand : t.command = s.command)
    (hviewed : t.viewed = s.viewed) : t.Watches me := by
  have hphase := World.phase_of_others hstep hevent
  refine ⟨hphase ▸ hi.view, fun f content h => ?_⟩
  rw [hviewed] at h
  rw [hcommand, hphase]
  refine (hi.locked f content h).imp_right fun hlocked => ⟨hlocked.1, ?_⟩
  rw [← hlocked.2]
  have hlock : (s.world.phase me).descriptor = .opened f (some .shared) := by rw [hlocked.1]; rfl
  exact hw.content_of_locked hstep hevent hlock

omit [DecidableEq κ] in
theorem Watches.view_of_call (hi : s.Watches me) {call : PidFileCall ν} {w : World π ν}
    (hstep : s.world.Step record parser (.call me call) w) :
    (∃ v, w.phase me = .view v) ∨ w.phase me = .gone := by
  obtain ⟨-, q, hnext, rfl⟩ := hstep
  rw [World.after_phase_self]
  rcases hi.view with ⟨v, hv⟩ | hv
  · rw [hv] at hnext
    exact Phase.next_view hnext
  · rw [hv] at hnext
    cases hnext

omit [DecidableEq κ] in
theorem Watches.read (hi : s.Watches me) (hw : s.world.Tracked record) {content : List UInt8}
    {w : World π ν} (hstep : s.world.Step record parser (.call me (.file (.read content))) w) :
    ∃ f, (s.world.files.descriptor me).file = some f ∧ w.phase me = .view (.locked f) ∧
      w.files.content f = content := by
  obtain ⟨⟨g, hg, hcontent⟩, q, hnext, rfl⟩ := hstep
  rcases hi.view with ⟨v, hv⟩ | hv
  · rw [hv] at hnext
    obtain ⟨f, rfl, rfl⟩ := Viewing.next_read (v := v) hnext
    have hf : (s.world.files.descriptor me).file = some f := by rw [hw.descriptor, hv]; rfl
    obtain rfl := Option.some.inj (hf.symm.trans hg)
    refine ⟨f, hf, World.after_phase_self _, ?_⟩
    subst hcontent
    have hlink : (.file (.read (s.world.files.content f)) : PidFileCall ν).relinks = false := rfl
    exact World.filesAfter_content_self hf hlink
  · rw [hv] at hnext
    cases hnext

theorem Watches.command (hi : s.Watches me) (hw : s.world.Tracked record)
    (hconsistent : s.command.Consistent parser s.viewed s.mKeeperTether) {call : CommandCall ν κ}
    (hstep : s.Step record mRelaxed me parser (.command call) t) : t.Watches me := by
  obtain ⟨hnext, -, hworld, -, -, hviewed⟩ := hstep
  have hview : (∃ v, t.world.phase me = .view v) ∨ t.world.phase me = .gone := by
    split at hworld
    · exact hi.view_of_call hworld
    · rw [hworld]
      exact hi.view
  refine ⟨hview, fun f content h => ?_⟩
  rw [hviewed] at h
  cases call with
  | readPidFile content' =>
    obtain ⟨g, hg, hphase, hcontent⟩ := hi.read hw hworld
    simp only [viewedAfter, hg, Option.map_some, Option.some.injEq, Prod.mk.injEq] at h
    obtain ⟨rfl, rfl⟩ := h
    exact .inr ⟨hphase, hcontent⟩
  | destroyPidFile =>
    cases hc : s.command with
    | destroying status mChildPid =>
      rw [hc] at hnext
      exact .inl ⟨status, mChildPid, (Option.some.inj hnext).symm⟩
    | _ => rw [hc] at hnext; cases hnext
  | openPidFile | nonexistent =>
    cases hc : s.command with
    | opening =>
      rw [hc] at hconsistent
      cases hconsistent.2.symm.trans h
    | _ => rw [hc] at hnext; cases hnext
  | acquirePidFileReadLock =>
    cases hc : s.command with
    | locking =>
      rw [hc] at hconsistent
      cases hconsistent.2.symm.trans h
    | _ => rw [hc] at hnext; cases hnext
  | _ =>
    rw [show t.world = s.world from hworld]
    refine .inr ((hi.locked f content h).resolve_left ?_)
    rintro ⟨status, mChildPid, hc⟩
    rw [hc] at hnext
    cases hnext

theorem watches_of_reachable (hs : (system record mRelaxed me parser).Reachable s) :
    s.Watches me := by
  refine hs.invariant (P := fun s => s.Watches me) (fun s (hs : Start record me parser s) => ?_) ?_
  · obtain ⟨-, hphase, -, -, hviewed⟩ := hs
    refine ⟨.inl ⟨_, hphase⟩, fun f content h => ?_⟩
    rw [hviewed] at h
    cases h
  rintro s event t hs hi hstep
  have hw := World.tracked_of_reachable (world_of_reachable hs)
  cases event with
  | command call => exact hi.command hw (consistent_of_reachable hs) hstep
  | world event =>
    obtain ⟨hevent, hworld, ht⟩ := hstep
    exact hi.of_others hw hevent hworld (by rw [ht]) (by rw [ht])
  | createPidServer =>
    obtain ⟨-, -, -, -, -, rfl⟩ := hstep
    exact ⟨hi.view, hi.locked⟩
  | closePidServer =>
    obtain rfl := hstep
    exact ⟨hi.view, hi.locked⟩
  | cleanPidServer | acceptPidServerConnection =>
    obtain ⟨l, -, rfl⟩ := hstep
    exact ⟨hi.view, hi.locked⟩
  | acceptCommand =>
    obtain ⟨l, conn, -, -, -, -, rfl⟩ := hstep
    exact ⟨hi.view, hi.locked⟩

theorem reachable_command (hs : (system record mRelaxed me parser).Reachable s)
    (call : CommandCall ν κ) {q : CommandPhase} {w : World π ν}
    (hnext : s.command.next parser mRelaxed call = some q) (hpermits : s.Permits call)
    (hworld : match call.pidFileCall (s.world.files.descriptor me) with
      | some call => s.world.Step record parser (.call me call) w
      | none => w = s.world) :
    (system record mRelaxed me parser).Reachable
      ⟨w, s.listener, q, s.tetherAfter call, s.viewedAfter me call⟩ :=
  hs.tail (show (system record mRelaxed me parser).step s (.command call) _ from
    ⟨hnext, hpermits, hworld, rfl, rfl, rfl⟩)

/-- A client that `createCommand` returns to with a process holds a connection
that was acknowledged by a pid server for this very process, as it is recorded
in the file that the client had read; in every other case it holds none. Until
it returns, it has its lock on that file, which stays as it was read. -/
theorem createCommand_referenced (hs : (system record mRelaxed me parser).Reachable s) :
    (∀ status mChildPid, s.command = .returned status mChildPid →
      (status = .ok → mChildPid ≠ 0 → ∃ conn server f content sun_path,
        s.mKeeperTether = some conn ∧ conn.reply = .acknowledged server ∧
        server.mPidSignature.mPid = mChildPid ∧ s.viewed = some (f, content) ∧
        readPidFile parser content =
          .process mChildPid server.mPidSignature.mSignature sun_path) ∧
      (status ≠ .ok ∨ mChildPid = 0 → s.mKeeperTether = none)) ∧
    ∀ f content, s.viewed = some (f, content) →
      (∀ status mChildPid, s.command ≠ .returned status mChildPid) →
        s.world.files.descriptor me = .opened f (some .shared) ∧
        s.world.files.content f = content := by
  have hconsistent := consistent_of_reachable hs
  constructor
  · intro status mChildPid hreturned
    rw [hreturned] at hconsistent
    refine ⟨fun hok hpid => ?_, fun hnot => hconsistent.2 ?_⟩
    · obtain ⟨conn, server, htether, hreply, hserver, f, content, sun_path, hviewed, hread⟩ :=
        hconsistent.1 ⟨hok, hpid⟩
      exact ⟨conn, server, f, content, sun_path, htether, hreply, hserver, hviewed, hserver ▸ hread⟩
    · rintro ⟨hok, hpid⟩
      exact hnot.elim (absurd hok) hpid
  · intro f content hviewed hrunning
    have hlocked := ((watches_of_reachable hs).locked f content hviewed).resolve_left
      fun ⟨status, mChildPid, hc⟩ => hrunning status mChildPid hc
    refine ⟨?_, hlocked.2⟩
    rw [(World.tracked_of_reachable (world_of_reachable hs)).descriptor, hlocked.1]
    rfl

theorem createCommand_referenced_acknowledged : ∃ (record : Unit → PidFileRecord)
    (s : CommandWorld Unit Nat Unit) (conn : Connection Unit) (server : PidServer),
    (system record false () .unsigned).Reachable s ∧ s.command = .returned .ok 7 ∧
    s.mKeeperTether = some conn ∧ conn.reply = .acknowledged server ∧
    server.mPidSignature.mPid = 7 := by
  let record (_ : Unit) : PidFileRecord :=
    ⟨7, [97], ⟨[120], nofun, by decide, by decide, by decide⟩, by decide, nofun, by decide, by decide⟩
  let text : List UInt8 := [55, 10, 10, 97, 10, 120, 10]
  let message : List UInt8 := [7, 0, 0, 0, 1, 0, 0, 0, 0, 0, 0, 0, 97]
  let start : World Unit Nat := ⟨⟨some 0, fun _ => text, fun _ => .closed⟩,
    fun pid => if pid = 7 then some [97] else none, fun _ => .view .opening⟩
  have hstart : (World.system record .unsigned).Reachable start :=
    .of_init ⟨fun _ => rfl, fun _ => .inr rfl⟩
  have h₀ : (system record false () .unsigned).Reachable
      (⟨start, fun _ => none, .initialising, none, none⟩ : CommandWorld Unit Nat Unit) :=
    .of_init ⟨hstart, rfl, rfl, rfl, rfl⟩
  have h₁ := h₀.tail (show (system record false () .unsigned).step _
    (.createPidServer () ⟨sunPath [120], ⟨3, 4, ⟨7, [97]⟩, []⟩⟩) _ from
    ⟨rfl, nofun, rfl, rfl, rfl, rfl⟩)
  have h₂ := reachable_command h₁ (.initPidFile true) rfl trivial rfl
  have h₃ := reachable_command h₂ (.openPidFile 0) rfl trivial ⟨rfl, _, rfl, rfl⟩
  have h₄ := reachable_command h₃ .acquirePidFileReadLock rfl trivial
    ⟨fun _ _ j hj => absurd rfl hj, _, rfl, rfl⟩
  have h₅ := reachable_command h₄ (.readPidFile text) rfl trivial ⟨⟨0, rfl, rfl⟩, _, rfl, rfl⟩
  have h₆ := reachable_command h₅ (.createPidSignature 7 (.signature [97])) rfl (.inr rfl) rfl
  have h₇ := reachable_command h₆ (.connect () (sunPath [120])) rfl ⟨_, rfl, rfl⟩ rfl
  have h₈ := reachable_command h₇ .ready rfl trivial rfl
  have h₉ := reachable_command h₈ (.write message) rfl trivial rfl
  have h₁₀ := h₉.tail (show (system record false () .unsigned).step _
    (.acceptCommand () 0 ⟨true, true, true⟩ ⟨0, message, true⟩ 5) _ from
    ⟨_, _, rfl, rfl, rfl, List.prefix_rfl, rfl⟩)
  have h₁₁ := reachable_command h₁₀ .ready rfl trivial rfl
  have h₁₂ := reachable_command h₁₁ .read rfl ⟨_, _, rfl, rfl⟩ rfl
  have h₁₃ := reachable_command h₁₂ .closeUnixSocket rfl trivial rfl
  have h₁₄ := reachable_command h₁₃ .destroyPidFile rfl trivial ⟨trivial, _, rfl, rfl⟩
  obtain ⟨conn, server, f, content, sun_path, htether, hreply, hpid, -⟩ :=
    ((createCommand_referenced h₁₄).1 .ok 7 rfl).1 rfl (by decide)
  exact ⟨record, _, conn, server, h₁₄, rfl, htether, hreply, hpid⟩

end CommandWorld

end PidSentry
