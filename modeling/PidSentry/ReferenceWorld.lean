import PidSentry.CommandRun
import PidSentry.CommandWorld
import PidSentry.PidClients
import PidSentry.ProcessWorld

/-! A client that runs a command under the reference that the umbilical process of a
sentry has given it, all of them at once: the sentry and its umbilical process among the
other processes, the event loop of the umbilical process, and the client, which finds the
pid server among others, runs its command and looks at the socket at the end. -/

namespace PidSentry

/-- The pid server that an event is about. -/
def CommandEvent.server {π ν κ : Type*} : CommandEvent π ν κ → Option κ
  | .command _ | .world _ => none
  | .createPidServer server _ | .closePidServer server | .cleanPidServer server _ _
  | .acceptPidServerConnection server _ _ _ _ | .acceptCommand server _ _ _ _ => some server

/-- What an event of the umbilical process is to its pid server. -/
def UmbilicalEvent.command {π ν κ : Type*} (server : κ) : UmbilicalEvent → Option (CommandEvent π ν κ)
  | .pidServer euid calls peer fd => some (.acceptPidServerConnection server euid calls peer fd)
  | .pidClient gone polled => some (.cleanPidServer server gone polled)
  | _ => none

/-- `monitor` is the umbilical process from `createUmbilicalMonitor` on, `run` the client
from the return of `createCommand` on, and `mClient` the connection that the umbilical
process has accepted from it. -/
structure ReferenceWorld (π ν κ : Type*) where
  processes : ProcessWorld
  monitor : Option UmbilicalRun
  world : CommandWorld π ν κ
  run : Option CommandRun
  mClient : Option PidServerClient

inductive ReferenceEvent (π ν κ : Type*)
  | process (event : ProcessEvent)
  | createPidServer (listener : Listener)
  | closePidServer
  | createUmbilicalMonitor (start : Int)
  | umbilical (event : UmbilicalEvent)
  /-- The umbilical process deals with the client. -/
  | accept (euid : Nat) (calls : PidServerCalls) (peer : PidServerPeer) (fd : Int)
  | command (event : CommandEvent π ν κ)
  | createCommandReturns
  | createCommandTerminates
  | run (event : CommandRunEvent)

namespace ReferenceWorld

variable {π ν κ : Type*}

/-- The umbilical process is there and has set up its anchors. -/
def UmbilicalAlive (s : ReferenceWorld π ν κ) : Prop :=
  ∃ u, s.processes.umbilical = some u ∧ u.todo = [] ∧ s.processes.table.Alive u.self.self

/-- The client, or the process that it has forked, has its socket open. -/
def HasTether (s : ReferenceWorld π ν κ) : Prop :=
  match s.run with
  | none => s.world.mKeeperTether ≠ none
  | some run => run.hasTether = true

/-- The umbilical process has the other end of a connection open. -/
def Connected (s : ReferenceWorld π ν κ) (client : PidServerClient) : Prop :=
  s.UmbilicalAlive ∧ ∃ monitor, s.monitor = some monitor ∧ client ∈ monitor.monitor.clients

/-- The sentry is about to create the pid server. -/
def CreatesPidServer (s : ReferenceWorld π ν κ) (event : ProcessEvent) : Prop :=
  event = .sentry (.call .ok) ∧ s.processes.run.todo.head? = some .createPidServer

variable [DecidableEq π] [DecidableEq ν] [DecidableEq κ] (record : π → PidFileRecord)
  (mRelaxed : Bool) (me : π) (parser : PidParser) (server : κ) (lap : LapTime) (mUmbilical_s : Nat)

/-- The umbilical process signals once its loop is complete, hears of a client only when
it has closed its socket, and finds new connections at descriptors that are free. The
socket is ready to be read when its other end is closed. -/
inductive Step (s : ReferenceWorld π ν κ) : ReferenceEvent π ν κ → ReferenceWorld π ν κ → Prop
  | process {event : ProcessEvent} {processes : ProcessWorld} (h : s.processes.next event = some processes)
    (hcreate : ¬ s.CreatesPidServer event)
    (hkill : event = .killChildProcessGroup ∨ event = .killSentryProcessGroup →
      ∃ monitor, s.monitor = some monitor ∧ monitor.phase = .killing)
    (horderly : event = .killSentryProcessGroup →
      ∃ monitor, s.monitor = some monitor ∧ monitor.monitor.mUmbilical.mClosed = false) :
    Step s (.process event) { s with processes }
  | createPidServer {listener : Listener} {processes : ProcessWorld} {world : CommandWorld π ν κ}
    (h : s.processes.next (.sentry (.call .ok)) = some processes)
    (hcreate : s.CreatesPidServer (.sentry (.call .ok)))
    (hpid : listener.pidServer.mPidSignature.mPid = s.processes.run.data.mPid)
    (hworld : s.world.Step record mRelaxed me parser (.createPidServer server listener) world) :
    Step s (.createPidServer listener) { s with processes, world }
  | closePidServer {world : CommandWorld π ν κ} (hgone : ¬ s.UmbilicalAlive)
    (hworld : s.world.Step record mRelaxed me parser (.closePidServer server) world) :
    Step s .closePidServer { s with world }
  | createUmbilicalMonitor {start : Int} (halive : s.UmbilicalAlive) (hnone : s.monitor = none) :
    Step s (.createUmbilicalMonitor start) { s with
      monitor := some (.enter mUmbilical_s s.processes.sentry.pid
        ((s.world.listener server).map Listener.pidServer) start) }
  | umbilical {event : UmbilicalEvent} {monitor monitor' : UmbilicalRun} {world : CommandWorld π ν κ}
    (halive : s.UmbilicalAlive) (hmonitor : s.monitor = some monitor)
    (h : monitor.next lap event = some monitor')
    (hfree : ∀ euid calls peer fd, event = .pidServer euid calls peer fd →
      ∀ client ∈ monitor.monitor.clients, client.mFd ≠ fd)
    (hgone : ∀ gone polled client, event = .pidClient gone polled → s.mClient = some client →
      client ∈ gone → ¬ s.HasTether)
    (hworld : match event.command server with
      | some event => s.world.Step record mRelaxed me parser event world
      | none => world = s.world) :
    Step s (.umbilical event) { s with monitor := some monitor', world }
  | accept {euid : Nat} {calls : PidServerCalls} {peer : PidServerPeer} {fd : Int}
    {monitor monitor' : UmbilicalRun} {world : CommandWorld π ν κ}
    (halive : s.UmbilicalAlive) (hmonitor : s.monitor = some monitor)
    (h : monitor.next lap (.pidServer euid calls peer fd) = some monitor')
    (hfree : ∀ client ∈ monitor.monitor.clients, client.mFd ≠ fd)
    (hworld : s.world.Step record mRelaxed me parser (.acceptCommand server euid calls peer fd) world) :
    Step s (.accept euid calls peer fd) { s with
      monitor := some monitor'
      world
      mClient := if monitor'.phase = .looping then some ⟨fd, peer.uid⟩ else s.mClient }
  | command {event : CommandEvent π ν κ} {world : CommandWorld π ν κ}
    (hforeign : event.server ≠ some server) (hcalls : ∀ call, event = .command call → s.run = none)
    (hworld : s.world.Step record mRelaxed me parser event world) :
    Step s (.command event) { s with world }
  | createCommandReturns {status : CommandStatus} {mChildPid : Pid} (hnone : s.run = none)
    (hcommand : s.world.command = .returned status mChildPid) :
    Step s .createCommandReturns { s with run := some (.enter status mChildPid) }
  | createCommandTerminates (hnone : s.run = none) :
    Step s .createCommandTerminates { s with run := some .killed }
  | run {event : CommandRunEvent} {run run' : CommandRun} (hrun : s.run = some run)
    (h : run.next event = some run')
    (hready : ∀ rdReady client, event = .waitSocketReadReady (some rdReady) → s.mClient = some client →
      (rdReady = true ↔ ¬ s.Connected client)) :
    Step s (.run event) { s with run := some run' }

/-- Before the sentry has forked anybody and the client has called anybody. -/
structure Begins (options : SentryOptions) (s : ReferenceWorld π ν κ) : Prop where
  processes : s.processes.Begins options
  world : s.world.Start record me parser
  listener : s.world.listener server = none
  monitor : s.monitor = none
  run : s.run = none
  mClient : s.mClient = none

def system (options : SentryOptions) : System (ReferenceWorld π ν κ) (ReferenceEvent π ν κ) :=
  ⟨Begins record me parser server options, Step record mRelaxed me parser server lap mUmbilical_s⟩

/-- The umbilical process puts its anchors into the process groups while the sentry is there. -/
def AnchorsUnderSentry (s : ReferenceWorld π ν κ) (event : ReferenceEvent π ν κ)
    (t : ReferenceWorld π ν κ) : Prop :=
  ∀ act, event = .process act → s.processes.AnchorsUnderSentry act t.processes

/-- The umbilical process does not fail to poll for clients that it has. -/
def Cleans (s : ReferenceWorld π ν κ) (event : ReferenceEvent π ν κ) (_ : ReferenceWorld π ν κ) : Prop :=
  ∀ act, event = .umbilical act → ∀ monitor, s.monitor = some monitor → monitor.Cleans act

end ReferenceWorld

end PidSentry
