import PidSentry.PidSignature

/-! The pid server of the umbilical process (pidserver.c): the handshake that
admits a client, and the references that admitted clients hold. -/

namespace PidSentry

/-- A peer of the listening socket as the server gets to see it: its user, the
bytes it sends before it hangs up or the deadline passes, and whether the
acknowledgement can be written to it. -/
structure PidServerPeer where
  uid : Nat
  stream : List UInt8
  writable : Bool
  deriving DecidableEq, Repr

/-- Whether the calls that the server makes on its own account succeed:
accepting the connection, creating the deadline, and registering the client
with the event queue. -/
structure PidServerCalls where
  accept : Bool
  deadline : Bool
  register : Bool
  deriving DecidableEq, Repr

/-- A connection on the list, with the file descriptor of its socket. -/
structure PidServerClient where
  mFd : Int
  mUid : Nat
  deriving DecidableEq, Repr

structure PidServer where
  mUnixSocket : Int
  mEventQueue : Int
  mPidSignature : PidSignature
  mClients : List PidServerClient
  deriving DecidableEq, Repr

inductive PidServerEffect
  /-- The byte that tells a client that it holds a reference. -/
  | acknowledge (fd : Int)
  deriving DecidableEq, Repr

namespace PidServer

/-- `euid` is the effective user of the server, `fd` the accepted socket. -/
def acceptPidServerConnection (self : PidServer) (euid : Nat) (calls : PidServerCalls)
    (peer : PidServerPeer) (fd : Int) : Outcome PidServer PidServerEffect :=
  if calls.accept = false then .error self
  else if ¬ (euid = peer.uid ∨ peer.uid = 0) then .error self
  else if calls.deadline = false then .error self
  else
    match recvPidSignature peer.stream with
    | none => .error self
    | some (signature, _) =>
      if rankPidSignature self.mPidSignature signature ≠ 0 then .error self
      else if calls.register = false then .error self
      else if peer.writable = false then .error self
      else .emit { self with mClients := self.mClients ++ [⟨fd, peer.uid⟩] } (.acknowledge fd)

/-- The state left by `cleanPidServer` and what it returns. `gone` are the
clients whose sockets the event queue reports before its poll ends, `polled`
whether the poll succeeds. -/
def cleanPidServer (self : PidServer) (gone : List PidServerClient) (polled : Bool) :
    PidServer × Int :=
  let self := { self with mClients := self.mClients.filter (· ∉ gone) }
  (self, if polled then if self.mClients = [] then 1 else 0 else -1)

/-- Everything the handshake can do: refuse the connection, or acknowledge and
list a client that has named the process the server was created for. -/
theorem acceptPidServerConnection_cases (self : PidServer) (euid : Nat) (calls : PidServerCalls)
    (peer : PidServerPeer) (fd : Int) :
    self.acceptPidServerConnection euid calls peer fd = .error self ∨
      (euid = peer.uid ∨ peer.uid = 0) ∧ peer.writable = true ∧
        (∃ rest, recvPidSignature peer.stream = some (self.mPidSignature, rest)) ∧
        self.acceptPidServerConnection euid calls peer fd =
          .emit { self with mClients := self.mClients ++ [⟨fd, peer.uid⟩] } (.acknowledge fd) := by
  by_cases haccept : calls.accept = false
  · exact .inl (by simp [acceptPidServerConnection, haccept])
  by_cases huid : euid = peer.uid ∨ peer.uid = 0
  swap
  · exact .inl (by simp [acceptPidServerConnection, huid])
  by_cases hdeadline : calls.deadline = false
  · exact .inl (by simp [acceptPidServerConnection, hdeadline])
  cases hrecv : recvPidSignature peer.stream with
  | none => exact .inl (by simp [acceptPidServerConnection, hrecv])
  | some message =>
    obtain ⟨signature, rest⟩ := message
    by_cases hrank : rankPidSignature self.mPidSignature signature = 0
    swap
    · exact .inl (by simp [acceptPidServerConnection, hrecv, hrank])
    by_cases hregister : calls.register = false
    · exact .inl (by simp [acceptPidServerConnection, hrecv, hregister])
    by_cases hwritable : peer.writable = false
    · exact .inl (by simp [acceptPidServerConnection, hrecv, hwritable])
    refine .inr ⟨huid, Bool.eq_true_of_not_eq_false hwritable, ⟨rest, ?_⟩, ?_⟩
    · rw [rankPidSignature_eq_zero_iff.mp hrank]
    · simp [acceptPidServerConnection, haccept, huid, hdeadline, hrecv, hrank, hregister, hwritable]

/-- A peer that is not to be served: a foreign user, no well-formed signature
in time, a signature of some other process, or no reader for the reply. -/
def Rejects (self : PidServer) (euid : Nat) (peer : PidServerPeer) : Prop :=
  ¬ (euid = peer.uid ∨ peer.uid = 0) ∨ recvPidSignature peer.stream = none ∨
    (∃ signature rest, recvPidSignature peer.stream = some (signature, rest) ∧
      signature ≠ self.mPidSignature) ∨
    peer.writable = false

theorem acceptPidServerConnection_rejects {self : PidServer} {euid : Nat} {peer : PidServerPeer}
    (h : self.Rejects euid peer) (calls : PidServerCalls) (fd : Int) :
    self.acceptPidServerConnection euid calls peer fd = .error self := by
  rcases self.acceptPidServerConnection_cases euid calls peer fd with
    he | ⟨huid, hwritable, ⟨rest, hrecv⟩, -⟩
  · exact he
  · rcases h with h | h | ⟨signature, rest', h, hne⟩ | h
    · exact absurd huid h
    · simp [h] at hrecv
    · rw [h] at hrecv
      simp only [Option.some.injEq, Prod.mk.injEq] at hrecv
      exact absurd hrecv.1 hne
    · simp [h] at hwritable

end PidServer

end PidSentry
