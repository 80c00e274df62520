import PidSentry.Arena
import PidSentry.PidServer
import PidSentry.Transition

/-! Who owns the clients of the pid server and their activities (pidserver.c):
the server that accepts one, the activity that is made for it, and the list. -/

namespace PidSentry

/-- `struct PidServerClient_`, whose socket is unassigned until it is accepted. -/
structure PidServerClient_ where
  mUnixSocket : Option Int
  mCred : Nat
  deriving DecidableEq, Repr

/-- The `mEvent` of an activity. -/
inductive ActivityEvent
  | null
  | created
  | armed
  deriving DecidableEq, Repr

/-- `struct PidServerClientActivity_`, with whether its `mList` is set. -/
structure PidServerClientActivity_ where
  mList : Bool
  mEvent : ActivityEvent
  mClient : Nat
  deriving DecidableEq, Repr

structure PidServerAnswers where
  mallocClient : Bool
  accept : Bool
  peerCred : Bool
  deadline : Bool
  mallocActivity : Bool
  createEvent : Bool
  armEvent : Bool
  deriving DecidableEq, Repr

/-- The server and all that it has allocated. Its own signature is there until it
is closed. -/
structure PidServerHeap where
  mPidSignature : Option PidSignature
  mClients : List Nat
  clients : Arena PidServerClient_
  activities : Arena PidServerClientActivity_
  deriving DecidableEq, Repr

/-- Every function here has no result where it would use what has been freed or was
never assigned, or fail an assertion. -/
def closePidServerClientActivity_ (s : PidServerHeap) : Option Nat → Option PidServerHeap
  | none => some s
  | some self => do
    let activity ← s.activities.use self
    if activity.mList then none
    else
      let activities := s.activities.update self fun activity => { activity with mEvent := .null }
      some { s with activities := Arena.free (Arena.close activities self) self }

/-- The activity is `none` if it could not be created. -/
def createPidServerClientActivity_ (s : PidServerHeap) (aClient : Nat) (answers : PidServerAnswers) :
    Option (PidServerHeap × Option Nat) :=
  if answers.mallocActivity = false then some (s, none)
  else do
    let self := s.activities.length
    let s := { s with activities := s.activities.allocate ⟨false, .null, aClient⟩ }
    let client ← s.clients.use aClient
    let _ ← client.mUnixSocket
    if answers.createEvent = false then
      let s ← closePidServerClientActivity_ s (some self)
      some (s, none)
    else
      let s := { s with
        activities := s.activities.update self fun activity => { activity with mEvent := .created } }
      if answers.armEvent = false then
        let s ← closePidServerClientActivity_ s (some self)
        some (s, none)
      else
        let s := { s with
          activities := s.activities.update self fun activity => { activity with mEvent := .armed } }
        some (s, some self)

def closePidServerClient_ (s : PidServerHeap) : Option Nat → Option PidServerHeap
  | none => some s
  | some self => do
    let client ← s.clients.use self
    let _ ← client.mUnixSocket
    some { s with clients := Arena.free (s.clients.close self) self }

/-- Accepts `fd`, a connection from user `uid`. -/
def createPidServerClient_ (s : PidServerHeap) (answers : PidServerAnswers) (uid : Nat) (fd : Int) :
    Option (PidServerHeap × Option Nat) :=
  if answers.mallocClient = false then some (s, none)
  else do
    let self := s.clients.length
    let s := { s with clients := s.clients.allocate ⟨none, 0⟩ }
    if answers.accept = false then
      let s ← closePidServerClient_ s (some self)
      some (s, none)
    else
      let s := { s with
        clients := s.clients.update self fun client => { client with mUnixSocket := some fd } }
      if answers.peerCred = false then
        let s ← closePidServerClient_ s (some self)
        some (s, none)
      else
        let s := { s with clients := s.clients.update self fun client => { client with mCred := uid } }
        some (s, some self)

def enqueuePidServerConnection_ (s : PidServerHeap) (aActivity : Nat) : Option PidServerHeap := do
  let activity ← s.activities.use aActivity
  if activity.mList then none
  else
    let _ ← s.clients.use activity.mClient
    some { s with
      mClients := s.mClients ++ [aActivity]
      activities := s.activities.update aActivity fun activity => { activity with mList := true } }

/-- `TAILQ_REMOVE` and what becomes of `mList`. -/
def dropReference (s : PidServerHeap) (aActivity : Nat) : Option PidServerHeap := do
  let activity ← s.activities.use aActivity
  if activity.mList then
    let _ ← s.clients.use activity.mClient
    if aActivity ∈ s.mClients then
      some { s with
        mClients := s.mClients.erase aActivity
        activities := s.activities.update aActivity fun activity => { activity with mList := false } }
    else none
  else some s

def discardPidServerConnection_ (s : PidServerHeap) : Option Nat → Option PidServerHeap
  | none => some s
  | some aActivity => do
    let s ← dropReference s aActivity
    let activity ← s.activities.use aActivity
    let client := activity.mClient
    let s ← closePidServerClientActivity_ s (some aActivity)
    closePidServerClient_ s (some client)

/-- The loop, as far as `fuel` goes, and the rest of the server. -/
def closePidServer : Nat → PidServerHeap → Option PidServerHeap
  | 0, s => if s.mClients = [] then some { s with mPidSignature := none } else none
  | fuel + 1, s =>
    match s.mClients with
    | [] => some { s with mPidSignature := none }
    | activity :: _ => do
      let s ← discardPidServerConnection_ s (some activity)
      closePidServer fuel s

/-- How `acceptPidServerConnection` ends when it has failed. -/
def releaseConnection (s : PidServerHeap) (activity client : Option Nat) :
    Option (PidServerHeap × Rc) := do
  let s ← discardPidServerConnection_ s activity
  let s ← closePidServerClient_ s client
  some (s, .error)

def acceptPidServerConnection (s : PidServerHeap) (euid : Nat) (answers : PidServerAnswers)
    (peer : PidServerPeer) (fd : Int) : Option (PidServerHeap × Rc) := do
  let (s, created) ← createPidServerClient_ s answers peer.uid fd
  match created with
  | none => releaseConnection s none none
  | some client =>
    let cred ← s.clients.use client
    if ¬ (euid = cred.mCred ∨ cred.mCred = 0) then releaseConnection s none (some client)
    else if answers.deadline = false then releaseConnection s none (some client)
    else
      let _ ← cred.mUnixSocket
      match recvPidSignature peer.stream with
      | none => releaseConnection s none (some client)
      | some (signature, _) =>
        let own ← s.mPidSignature
        if rankPidSignature own signature ≠ 0 then releaseConnection s none (some client)
        else
          let (s, created) ← createPidServerClientActivity_ s client answers
          match created with
          | none => releaseConnection s none (some client)
          | some activity =>
            let owning ← s.activities.use activity
            let owned ← s.clients.use owning.mClient
            let _ ← owned.mUnixSocket
            if peer.writable = false then releaseConnection s (some activity) none
            else
              let s ← enqueuePidServerConnection_ s activity
              some (s, .ok)

def PidServerClientActivity_.discarded (activity : PidServerClientActivity_) :
    PidServerClientActivity_ :=
  { activity with mList := false, mEvent := .null }

section

variable {s : PidServerHeap} {a c : Nat} {activity : Cell PidServerClientActivity_}
  {client : Cell PidServerClient_} {fd : Int}

theorem closePidServerClientActivity_eq (hactivity : s.activities[a]? = some activity)
    (hlive : activity.Live) (hlist : activity.value.mList = false) :
    closePidServerClientActivity_ s (some a) = some { s with
      activities := s.activities.modify a fun cell =>
        (cell.update PidServerClientActivity_.discarded).close.free } := by
  have hsame : ∀ f : Cell PidServerClientActivity_ → Cell PidServerClientActivity_,
      f activity = (activity.update PidServerClientActivity_.discarded).close.free →
      s.activities.modify a f = s.activities.modify a fun cell =>
        (cell.update PidServerClientActivity_.discarded).close.free :=
    fun f hf => Arena.modify_congr hactivity hf
  simp only [closePidServerClientActivity_, Arena.use_of_live hactivity hlive, Option.bind_eq_bind,
    Option.bind_some, hlist, Arena.free_close, Arena.update, List.modify_modify_eq]
  rw [hsame]
  · rfl
  · simp [Cell.update, PidServerClientActivity_.discarded, hlist]

theorem closePidServerClient_eq (hclient : s.clients[c]? = some client) (hlive : client.Live)
    (hsocket : client.value.mUnixSocket = some fd) :
    closePidServerClient_ s (some c) = some { s with
      clients := s.clients.modify c fun cell => cell.close.free } := by
  simp [closePidServerClient_, Arena.use_of_live hclient hlive, hsocket, Arena.free_close]

theorem dropReference_eq (hactivity : s.activities[a]? = some activity) (hlive : activity.Live)
    (hclient : s.clients[activity.value.mClient]? = some client) (hclientlive : client.Live)
    (hlist : activity.value.mList = true → a ∈ s.mClients) :
    dropReference s a = some { s with
      mClients := if activity.value.mList then s.mClients.erase a else s.mClients
      activities := s.activities.update a fun activity => { activity with mList := false } } := by
  cases hlisted : activity.value.mList with
  | true =>
    simp [dropReference, Arena.use_of_live hactivity hlive, hlisted,
      Arena.use_of_live hclient hclientlive, hlist hlisted]
  | false =>
    have hsame : s.activities.update a (fun activity => { activity with mList := false }) =
        s.activities := by
      refine (Arena.modify_congr (g := id) hactivity ?_).trans (List.modify_id _ _)
      rw [← hlisted]
      rfl
    simp [dropReference, Arena.use_of_live hactivity hlive, hlisted, hsame]

theorem discardPidServerConnection_eq (hactivity : s.activities[a]? = some activity)
    (hlive : activity.Live) (hclient : s.clients[activity.value.mClient]? = some client)
    (hclientlive : client.Live) (hsocket : client.value.mUnixSocket = some fd)
    (hlist : activity.value.mList = true → a ∈ s.mClients) :
    discardPidServerConnection_ s (some a) = some { s with
      mClients := if activity.value.mList then s.mClients.erase a else s.mClients
      clients := s.clients.modify activity.value.mClient fun cell => cell.close.free
      activities := s.activities.modify a fun cell =>
        (cell.update PidServerClientActivity_.discarded).close.free } := by
  have hdropped := Arena.getElem?_modify_self
    (f := Cell.update fun activity => { activity with mList := false }) hactivity
  have hclosed := closePidServerClientActivity_eq (a := a) (s := { s with
      mClients := if activity.value.mList then s.mClients.erase a else s.mClients
      activities := s.activities.update a fun activity => { activity with mList := false } })
    hdropped hlive rfl
  have huse := Arena.use_of_live hdropped hlive
  simp only [discardPidServerConnection_, dropReference_eq hactivity hlive hclient hclientlive hlist,
    Arena.update, Option.bind_eq_bind, Option.bind_some] at hclosed ⊢
  rw [huse, Option.bind_some, hclosed, Option.bind_some]
  have hfreed := fun mClients activities =>
    closePidServerClient_eq (s := { s with mClients := mClients, activities := activities })
      hclient hclientlive hsocket
  rw [Cell.update_value, hfreed, List.modify_modify_eq]
  rfl

end

/-- The calls of the server as its clients get to see them. -/
def PidServerAnswers.calls (answers : PidServerAnswers) : PidServerCalls where
  accept := answers.mallocClient && answers.accept && answers.peerCred
  deadline := answers.deadline
  register := answers.mallocActivity && answers.createEvent && answers.armEvent

/-- An activity that is neither listed nor armed, and will not be used again. -/
def Cell.Spent (activity : Cell PidServerClientActivity_) : Prop :=
  activity.Retired ∧ activity.value.mList = false ∧ activity.value.mEvent = .null

theorem Cell.Live.spent {activity : Cell PidServerClientActivity_} (h : activity.Live) :
    (activity.update PidServerClientActivity_.discarded).close.free.Spent :=
  ⟨Cell.Live.close_free (Cell.live_update.mpr h), rfl, rfl⟩

namespace PidServerHeap

variable {s s' : PidServerHeap} {answers : PidServerAnswers}

/-- Nothing has come of a connection but objects that will not be used again. -/
def Spent (s s' : PidServerHeap) : Prop :=
  ∃ clients activities, (∀ client ∈ clients, Cell.Retired client) ∧
    (∀ activity ∈ activities, Cell.Spent activity) ∧
    s' = { s with clients := s.clients ++ clients, activities := s.activities ++ activities }

/-- With a client that is owned by the call of `acceptPidServerConnection`. -/
def accepted (s : PidServerHeap) (uid : Nat) (fd : Int) : PidServerHeap :=
  { s with clients := s.clients ++ [.fresh ⟨some fd, uid⟩] }

/-- With activities that do not own this client. -/
def unregistered (s : PidServerHeap) (uid : Nat) (fd : Int)
    (activities : Arena PidServerClientActivity_) : PidServerHeap :=
  { s.accepted uid fd with activities := s.activities ++ activities }

/-- With an activity that owns this client. -/
def registered (s : PidServerHeap) (uid : Nat) (fd : Int) (mList : Bool) : PidServerHeap :=
  { s.accepted uid fd with
    activities := s.activities ++ [.fresh ⟨mList, .armed, s.clients.length⟩] }

def admitted (s : PidServerHeap) (uid : Nat) (fd : Int) : PidServerHeap :=
  { s.registered uid fd true with mClients := s.mClients ++ [s.activities.length] }

theorem createPidServerClient_cases (hanswers : answers.mallocClient = true → answers.accept = true)
    (uid : Nat) (fd : Int) :
    (∃ s', createPidServerClient_ s answers uid fd = some (s', none) ∧ s.Spent s' ∧
      answers.calls.accept = false) ∨
    createPidServerClient_ s answers uid fd = some (s.accepted uid fd, some s.clients.length) ∧
      answers.calls.accept = true := by
  by_cases hmalloc : answers.mallocClient = false
  · refine .inl ⟨s, by simp [createPidServerClient_, hmalloc], ⟨[], [], ?_⟩, ?_⟩
    · simp
    · simp [PidServerAnswers.calls, hmalloc]
  · have hmalloc : answers.mallocClient = true := by simpa using hmalloc
    have haccept := hanswers hmalloc
    have hsocket : Arena.update (s.clients ++ [Cell.fresh ⟨none, 0⟩]) s.clients.length
        (fun client => { client with mUnixSocket := some fd }) =
        s.clients ++ [Cell.fresh ⟨some fd, 0⟩] := Arena.modify_concat ..
    by_cases hpeer : answers.peerCred = false
    · refine .inl ⟨_, ?_, ⟨[(Cell.fresh ⟨some fd, 0⟩).close.free], [], ?_, by simp, rfl⟩, ?_⟩
      · have hclosed := closePidServerClient_eq
          (s := { s with clients := s.clients ++ [Cell.fresh ⟨some fd, 0⟩] })
          (c := s.clients.length) List.getElem?_concat_length (Cell.fresh_live _) rfl
        simp only [createPidServerClient_, hmalloc, haccept, hpeer, Arena.allocate, hsocket, hclosed,
          Arena.modify_concat]
        simp
      · simpa using (Cell.fresh_live _).close_free
      · simp [PidServerAnswers.calls, hpeer]
    · have hpeer : answers.peerCred = true := by simpa using hpeer
      refine .inr ⟨?_, by simp [PidServerAnswers.calls, hmalloc, haccept, hpeer]⟩
      have hcred : Arena.update (s.clients ++ [Cell.fresh ⟨some fd, 0⟩]) s.clients.length
          (fun client => { client with mCred := uid }) =
          s.clients ++ [Cell.fresh ⟨some fd, uid⟩] := Arena.modify_concat ..
      simp [createPidServerClient_, hmalloc, haccept, hpeer, Arena.allocate, hsocket, hcred, accepted]

theorem closePidServerClientActivity_concat (s : PidServerHeap) (mEvent : ActivityEvent) (c : Nat) :
    ∃ activity : Cell PidServerClientActivity_, activity.Spent ∧
      closePidServerClientActivity_
          { s with activities := s.activities ++ [.fresh ⟨false, mEvent, c⟩] } (some s.activities.length) =
        some { s with activities := s.activities ++ [activity] } := by
  refine ⟨_, (Cell.fresh_live ⟨false, mEvent, c⟩).spent, ?_⟩
  refine (closePidServerClientActivity_eq (s := { s with activities := s.activities ++ [_] })
    List.getElem?_concat_length (Cell.fresh_live _) rfl).trans ?_
  rw [Arena.modify_concat]

theorem createPidServerClientActivity_cases (s : PidServerHeap) (answers : PidServerAnswers)
    (uid : Nat) (fd : Int) :
    (∃ activities, createPidServerClientActivity_ (s.accepted uid fd) s.clients.length answers =
        some (s.unregistered uid fd activities, none) ∧
      (∀ activity ∈ activities, Cell.Spent activity) ∧ answers.calls.register = false) ∨
    createPidServerClientActivity_ (s.accepted uid fd) s.clients.length answers =
        some (s.registered uid fd false, some s.activities.length) ∧
      answers.calls.register = true := by
  have huse : (s.accepted uid fd).clients.use s.clients.length = some ⟨some fd, uid⟩ :=
    Arena.use_concat ..
  by_cases hmalloc : answers.mallocActivity = false
  · refine .inl ⟨[], ?_, by simp, by simp [PidServerAnswers.calls, hmalloc]⟩
    simp [createPidServerClientActivity_, hmalloc, unregistered, accepted]
  · have hmalloc : answers.mallocActivity = true := by simpa using hmalloc
    have hassign : ∀ before after : ActivityEvent,
        Arena.update (s.activities ++ [Cell.fresh ⟨false, before, s.clients.length⟩])
          s.activities.length (fun activity => { activity with mEvent := after }) =
        s.activities ++ [Cell.fresh ⟨false, after, s.clients.length⟩] :=
      fun _ _ => Arena.modify_concat ..
    by_cases hcreate : answers.createEvent = false
    · obtain ⟨activity, hspent, hclosed⟩ :=
        closePidServerClientActivity_concat (s.accepted uid fd) .null s.clients.length
      refine .inl ⟨[activity], ?_, by simpa using hspent, by simp [PidServerAnswers.calls, hcreate]⟩
      simp only [createPidServerClientActivity_, hmalloc, huse, hcreate, Arena.allocate]
      simp only [unregistered, accepted] at hclosed ⊢
      simp [hclosed]
    · have hcreate : answers.createEvent = true := by simpa using hcreate
      by_cases harm : answers.armEvent = false
      · obtain ⟨activity, hspent, hclosed⟩ :=
          closePidServerClientActivity_concat (s.accepted uid fd) .created s.clients.length
        refine .inl ⟨[activity], ?_, by simpa using hspent, by simp [PidServerAnswers.calls, harm]⟩
        simp only [createPidServerClientActivity_, hmalloc, huse, hcreate, harm, Arena.allocate]
        simp only [unregistered, accepted] at hclosed ⊢
        simp [hassign, hclosed]
      · have harm : answers.armEvent = true := by simpa using harm
        refine .inr ⟨?_, by simp [PidServerAnswers.calls, hmalloc, hcreate, harm]⟩
        simp only [createPidServerClientActivity_, hmalloc, huse, hcreate, harm, Arena.allocate]
        simp [accepted, registered, hassign]

theorem releaseConnection_none (s : PidServerHeap) :
    releaseConnection s none none = some (s, .error) := rfl

theorem releaseConnection_unregistered {activities : Arena PidServerClientActivity_}
    (hspent : ∀ activity ∈ activities, Cell.Spent activity) (uid : Nat) (fd : Int) :
    ∃ s', releaseConnection (s.unregistered uid fd activities) none (some s.clients.length) =
        some (s', .error) ∧ s.Spent s' := by
  refine ⟨_, ?_, [(Cell.fresh ⟨some fd, uid⟩).close.free], activities,
    by simpa using (Cell.fresh_live _).close_free, hspent, rfl⟩
  have hclosed := closePidServerClient_eq
    (s := s.unregistered uid fd activities) (c := s.clients.length) List.getElem?_concat_length
    (Cell.fresh_live _) rfl
  simp only [unregistered, accepted, Arena.modify_concat] at hclosed
  simp [releaseConnection, discardPidServerConnection_, unregistered, accepted, hclosed]

theorem releaseConnection_registered (s : PidServerHeap) (uid : Nat) (fd : Int) :
    ∃ s', releaseConnection (s.registered uid fd false) (some s.activities.length) none =
        some (s', .error) ∧ s.Spent s' := by
  refine ⟨_, ?_, [(Cell.fresh ⟨some fd, uid⟩).close.free],
    [((Cell.fresh ⟨false, .armed, s.clients.length⟩).update
      PidServerClientActivity_.discarded).close.free],
    by simpa using (Cell.fresh_live _).close_free, by simpa using (Cell.fresh_live _).spent, rfl⟩
  have hactivity : (s.registered uid fd false).activities[s.activities.length]? =
      some (Cell.fresh ⟨false, .armed, s.clients.length⟩) := List.getElem?_concat_length
  have hclient : (s.registered uid fd false).clients[s.clients.length]? =
      some (Cell.fresh ⟨some fd, uid⟩) := List.getElem?_concat_length
  have hdiscarded := discardPidServerConnection_eq hactivity (Cell.fresh_live _) hclient
    (Cell.fresh_live _) rfl (by simp)
  simp only [registered, accepted, Cell.fresh_value, Arena.modify_concat] at hdiscarded
  simp [releaseConnection, closePidServerClient_, registered, accepted, hdiscarded]

theorem enqueuePidServerConnection_registered (s : PidServerHeap) (uid : Nat) (fd : Int) :
    enqueuePidServerConnection_ (s.registered uid fd false) s.activities.length =
      some (s.admitted uid fd) := by
  have hactivity : (s.registered uid fd false).activities.use s.activities.length =
      some ⟨false, .armed, s.clients.length⟩ := Arena.use_concat ..
  have hclient : (s.registered uid fd false).clients.use s.clients.length = some ⟨some fd, uid⟩ :=
    Arena.use_concat ..
  have hlist : Arena.update (s.activities ++ [Cell.fresh ⟨false, .armed, s.clients.length⟩])
      s.activities.length (fun activity => { activity with mList := true }) =
      s.activities ++ [Cell.fresh ⟨true, .armed, s.clients.length⟩] := Arena.modify_concat ..
  simp only [enqueuePidServerConnection_, hactivity, hclient, Option.bind_eq_bind, Option.bind_some]
  simp [registered, accepted, admitted, hlist]

/-- Either nothing comes of the connection, or its client is owned by the last
activity of the list; the server that has the clients only decides likewise. -/
theorem acceptPidServerConnection_cases {own : PidSignature} (hown : s.mPidSignature = some own)
    {server : PidServer} (hserver : server.mPidSignature = own)
    (hanswers : answers.mallocClient = true → answers.accept = true) (euid : Nat)
    (peer : PidServerPeer) (fd : Int) :
    (∃ s', acceptPidServerConnection s euid answers peer fd = some (s', .error) ∧ s.Spent s' ∧
      server.acceptPidServerConnection euid answers.calls peer fd = .error server) ∨
    acceptPidServerConnection s euid answers peer fd = some (s.admitted peer.uid fd, .ok) ∧
      server.acceptPidServerConnection euid answers.calls peer fd =
        .emit { server with mClients := server.mClients ++ [⟨fd, peer.uid⟩] } (.acknowledge fd) := by
  subst hserver
  rcases createPidServerClient_cases hanswers peer.uid fd with
    ⟨s', hcreate, hspent, haccept⟩ | ⟨hcreate, haccept⟩
  · refine .inl ⟨s', ?_, hspent, ?_⟩
    · simp [acceptPidServerConnection, hcreate, releaseConnection_none]
    · simp [PidServer.acceptPidServerConnection, haccept]
  have huse : (s.accepted peer.uid fd).clients.use s.clients.length = some ⟨some fd, peer.uid⟩ :=
    Arena.use_concat ..
  have hown : (s.accepted peer.uid fd).mPidSignature = some server.mPidSignature := hown
  obtain ⟨freed, hrelease, hspent⟩ :=
    releaseConnection_unregistered (s := s) (List.forall_mem_nil Cell.Spent) peer.uid fd
  rw [unregistered, List.append_nil] at hrelease
  have hrelease : releaseConnection (s.accepted peer.uid fd) none (some s.clients.length) =
    some (freed, .error) := hrelease
  by_cases huid : euid = peer.uid ∨ peer.uid = 0
  swap
  · refine .inl ⟨freed, ?_, hspent, by simp [PidServer.acceptPidServerConnection, haccept, huid]⟩
    simp [acceptPidServerConnection, hcreate, huse, not_or.mp huid, hrelease]
  by_cases hdeadline : answers.deadline = false
  · refine .inl ⟨freed, ?_, hspent, ?_⟩
    · simp [acceptPidServerConnection, hcreate, huse, hdeadline, hrelease]
    · simp [PidServer.acceptPidServerConnection, PidServerAnswers.calls, hdeadline]
  have hcalls : answers.calls.deadline ≠ false := hdeadline
  have huser : (¬ euid = peer.uid ∧ ¬ peer.uid = 0) ↔ False := by
    rw [← not_or, iff_false, not_not]
    exact huid
  cases hrecv : recvPidSignature peer.stream with
  | none =>
    refine .inl ⟨freed, ?_, hspent, by simp [PidServer.acceptPidServerConnection, hrecv]⟩
    simp [acceptPidServerConnection, hcreate, huse, huser, hdeadline, hrecv, hrelease]
  | some message =>
    obtain ⟨signature, rest⟩ := message
    by_cases hrank : rankPidSignature server.mPidSignature signature = 0
    swap
    · refine .inl ⟨freed, ?_, hspent, by simp [PidServer.acceptPidServerConnection, hrecv, hrank]⟩
      simp [acceptPidServerConnection, hcreate, huse, huser, hdeadline, hrecv, hown, hrank, hrelease]
    rcases createPidServerClientActivity_cases s answers peer.uid fd with
      ⟨activities, hactivity, hunused, hregister⟩ | ⟨hactivity, hregister⟩
    · obtain ⟨freed, hrelease, hspent⟩ :=
        releaseConnection_unregistered (s := s) hunused peer.uid fd
      refine .inl ⟨freed, ?_, hspent, ?_⟩
      · simp [acceptPidServerConnection, hcreate, huse, huser, hdeadline, hrecv, hown, hrank, hactivity,
          hrelease]
      · simp [PidServer.acceptPidServerConnection, hrecv, hregister]
    · have howning : (s.registered peer.uid fd false).activities.use s.activities.length =
          some ⟨false, .armed, s.clients.length⟩ := Arena.use_concat ..
      have howned : (s.registered peer.uid fd false).clients.use s.clients.length =
          some ⟨some fd, peer.uid⟩ := Arena.use_concat ..
      by_cases hwritable : peer.writable = false
      · obtain ⟨freed, hrelease, hspent⟩ := releaseConnection_registered s peer.uid fd
        refine .inl ⟨freed, ?_, hspent, ?_⟩
        · simp [acceptPidServerConnection, hcreate, huse, huser, hdeadline, hrecv, hown, hrank,
            hactivity, howning, howned, hwritable, hrelease]
        · simp [PidServer.acceptPidServerConnection, hrecv, hwritable]
      · refine .inr ⟨?_, ?_⟩
        · simp [acceptPidServerConnection, hcreate, huse, huser, hdeadline, hrecv, hown, hrank,
            hactivity, howning, howned, hwritable, enqueuePidServerConnection_registered]
        · simp [PidServer.acceptPidServerConnection, haccept, huid, hcalls, hrecv, hrank, hregister,
            hwritable]

end PidServerHeap

end PidSentry
