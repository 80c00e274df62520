import PidSentry.PidServerOwnership

/-! The pid server from its first connection until it is closed: what is owned by
its list of clients, and what has been closed and freed. -/

namespace PidSentry

namespace PidServerHeap

variable {s s' : PidServerHeap} {a b c : Nat} {answers : PidServerAnswers}

/-- A live activity on the list, with the live client that it owns. -/
def Holds (s : PidServerHeap) (a c : Nat) : Prop :=
  ∃ activity client fd, s.activities[a]? = some activity ∧ activity.Live ∧
    activity.value = ⟨true, .armed, c⟩ ∧ s.clients[c]? = some client ∧ client.Live ∧
    client.value.mUnixSocket = some fd

def Armed (s : PidServerHeap) (a : Nat) : Prop :=
  ∃ activity, s.activities[a]? = some activity ∧ activity.Live ∧ activity.value.mEvent = .armed

/-- What holds of the server between any two calls. -/
structure Owned (s : PidServerHeap) : Prop where
  nodup : s.mClients.Nodup
  holds : ∀ a ∈ s.mClients, ∃ c, s.Holds a c
  sole : ∀ a ∈ s.mClients, ∀ b ∈ s.mClients, ∀ c, s.Holds a c → s.Holds b c → a = b
  spent : ∀ a activity, s.activities[a]? = some activity → a ∉ s.mClients → activity.Spent
  retired : ∀ c client, s.clients[c]? = some client →
    (∃ a ∈ s.mClients, s.Holds a c) ∨ client.Retired

theorem Holds.owner_eq (ha : s.Holds a b) (hc : s.Holds a c) : b = c := by
  obtain ⟨activity, -, -, hactivity, -, hvalue, -⟩ := ha
  obtain ⟨other, -, -, hother, -, hothervalue, -⟩ := hc
  obtain rfl := Option.some.inj (hactivity.symm.trans hother)
  exact (congrArg PidServerClientActivity_.mClient (hvalue.symm.trans hothervalue))

theorem Holds.armed (h : s.Holds a c) : s.Armed a := by
  obtain ⟨activity, -, -, hactivity, hlive, hvalue, -⟩ := h
  exact ⟨activity, hactivity, hlive, by rw [hvalue]⟩

theorem Holds.lt_length (h : s.Holds a c) : a < s.activities.length ∧ c < s.clients.length := by
  obtain ⟨activity, client, fd, hactivity, -, -, hclient, -, -⟩ := h
  exact ⟨Arena.lt_length_of_some hactivity, Arena.lt_length_of_some hclient⟩

theorem Owned.armed_iff (h : s.Owned) : s.Armed a ↔ a ∈ s.mClients := by
  constructor
  · rintro ⟨activity, hactivity, hlive, -⟩
    by_contra hmem
    exact hlive.not_retired (h.spent a activity hactivity hmem).1
  · intro hmem
    obtain ⟨c, hholds⟩ := h.holds a hmem
    exact hholds.armed

/-- An activity knows whether it is on the list, and is there once. -/
theorem Owned.mList_iff (h : s.Owned) {activity : Cell PidServerClientActivity_}
    (hactivity : s.activities[a]? = some activity) :
    activity.value.mList = true ↔ s.mClients.count a = 1 := by
  by_cases hmem : a ∈ s.mClients
  · obtain ⟨c, other, -, -, hother, -, hvalue, -⟩ := h.holds a hmem
    obtain rfl := Option.some.inj (hactivity.symm.trans hother)
    simp [hvalue, List.count_eq_one_of_mem h.nodup hmem]
  · simp [(h.spent a activity hactivity hmem).2.1, List.count_eq_zero_of_not_mem hmem]

/-- Activities that keep their clients own different ones. -/
theorem Owned.sole_of_holds (h : s.Owned) (hkeep : ∀ a ∈ s.mClients, ∀ c, s.Holds a c → s'.Holds a c)
    (ha : a ∈ s.mClients) (hb : b ∈ s.mClients) (hac : s'.Holds a c) (hbc : s'.Holds b c) : a = b := by
  obtain ⟨d, had⟩ := h.holds a ha
  obtain ⟨e, hbe⟩ := h.holds b hb
  obtain rfl := (hkeep a ha d had).owner_eq hac
  obtain rfl := (hkeep b hb e hbe).owner_eq hbc
  exact h.sole a ha b hb _ had hbe

theorem Holds.append (h : s.Holds a c) (mClients : List Nat) (clients : Arena PidServerClient_)
    (activities : Arena PidServerClientActivity_) :
    Holds { s with
      mClients := mClients
      clients := s.clients ++ clients
      activities := s.activities ++ activities } a c := by
  obtain ⟨activity, client, fd, hactivity, hlive, hvalue, hclient, hclientlive, hsocket⟩ := h
  exact ⟨activity, client, fd, Arena.getElem?_append_of_some activities hactivity, hlive, hvalue,
    Arena.getElem?_append_of_some clients hclient, hclientlive, hsocket⟩

theorem Owned.spend (h : s.Owned) (hspent : s.Spent s') : s'.Owned := by
  obtain ⟨clients, activities, hclients, hactivities, rfl⟩ := hspent
  have hkeep := fun a c (hholds : s.Holds a c) => hholds.append s.mClients clients activities
  constructor
  case nodup => exact h.nodup
  case holds =>
    intro a ha
    obtain ⟨c, hholds⟩ := h.holds a ha
    exact ⟨c, hkeep a c hholds⟩
  case sole =>
    intro a ha b hb c hac hbc
    exact h.sole_of_holds (fun a _ c => hkeep a c) ha hb hac hbc
  case spent =>
    intro a activity hactivity hmem
    rcases Arena.getElem?_append_cases hactivity with hold | hnew
    · exact h.spent a activity hold hmem
    · exact hactivities activity hnew
  case retired =>
    intro c client hclient
    rcases Arena.getElem?_append_cases hclient with hold | hnew
    · rcases h.retired c client hold with ⟨a, ha, hholds⟩ | hretired
      · exact .inl ⟨a, ha, hkeep a c hholds⟩
      · exact .inr hretired
    · exact .inr (hclients client hnew)

theorem Owned.lt_length (h : s.Owned) (ha : a ∈ s.mClients) : a < s.activities.length := by
  obtain ⟨c, hholds⟩ := h.holds a ha
  exact hholds.lt_length.1

theorem admitted_holds (s : PidServerHeap) (uid : Nat) (fd : Int) :
    (s.admitted uid fd).Holds s.activities.length s.clients.length :=
  ⟨.fresh ⟨true, .armed, s.clients.length⟩, .fresh ⟨some fd, uid⟩, fd, List.getElem?_concat_length,
    Cell.fresh_live _, rfl, List.getElem?_concat_length, Cell.fresh_live _, rfl⟩

theorem Owned.admit (h : s.Owned) (uid : Nat) (fd : Int) : (s.admitted uid fd).Owned := by
  have hkeep : ∀ a c, s.Holds a c → (s.admitted uid fd).Holds a c := fun a c hholds =>
    hholds.append _ _ _
  have hnew := admitted_holds s uid fd
  have hmem : ∀ a, a ∈ (s.admitted uid fd).mClients ↔ a ∈ s.mClients ∨ a = s.activities.length := by
    simp [admitted]
  have hsole : ∀ a ∈ s.mClients, ¬ (s.admitted uid fd).Holds a s.clients.length := by
    intro a ha hac
    obtain ⟨d, had⟩ := h.holds a ha
    have hlt := had.lt_length.2
    have heq := (hkeep a d had).owner_eq hac
    omega
  constructor
  case nodup =>
    refine List.nodup_append.mpr ⟨h.nodup, List.nodup_singleton _, ?_⟩
    intro a ha b hb
    have hlt := h.lt_length ha
    rw [List.mem_singleton] at hb
    omega
  case holds =>
    intro a ha
    rcases (hmem a).mp ha with hold | rfl
    · obtain ⟨c, hholds⟩ := h.holds a hold
      exact ⟨c, hkeep a c hholds⟩
    · exact ⟨_, hnew⟩
  case sole =>
    intro a ha b hb c hac hbc
    rcases (hmem a).mp ha with haold | rfl
    · rcases (hmem b).mp hb with hbold | rfl
      · exact h.sole_of_holds (fun a _ c => hkeep a c) haold hbold hac hbc
      · obtain rfl := hnew.owner_eq hbc
        exact absurd hac (hsole a haold)
    · rcases (hmem b).mp hb with hbold | rfl
      · obtain rfl := hnew.owner_eq hac
        exact absurd hbc (hsole b hbold)
      · rfl
  case spent =>
    intro a activity hactivity hunlisted
    have hunlisted := not_or.mp (mt (hmem a).mpr hunlisted)
    rcases Arena.getElem?_concat_cases hactivity with hold | heq
    · exact h.spent a activity hold hunlisted.1
    · exact absurd heq hunlisted.2
  case retired =>
    intro c client hclient
    rcases Arena.getElem?_concat_cases hclient with hold | rfl
    · rcases h.retired c client hold with ⟨a, ha, hholds⟩ | hretired
      · exact .inl ⟨a, (hmem a).mpr (.inl ha), hkeep a c hholds⟩
      · exact .inr hretired
    · exact .inl ⟨_, (hmem _).mpr (.inr rfl), hnew⟩

/-- Without a listed activity and its client. -/
def discarded (s : PidServerHeap) (a c : Nat) : PidServerHeap :=
  { s with
    mClients := s.mClients.erase a
    clients := s.clients.modify c fun cell => cell.close.free
    activities := s.activities.modify a fun cell =>
      (cell.update PidServerClientActivity_.discarded).close.free }

theorem Holds.discard (h : s.Holds a c) (ha : a ∈ s.mClients) :
    discardPidServerConnection_ s (some a) = some (s.discarded a c) := by
  obtain ⟨activity, client, fd, hactivity, hlive, hvalue, hclient, hclientlive, hsocket⟩ := h
  have hclient' : s.clients[activity.value.mClient]? = some client := by rw [hvalue, hclient]
  have heq := discardPidServerConnection_eq hactivity hlive hclient' hclientlive hsocket fun _ => ha
  rw [heq, hvalue]
  rfl

theorem Holds.discarded {d : Nat} (h : s.Holds b d) (hactivity : b ≠ a) (hclient : d ≠ c) :
    (s.discarded a c).Holds b d := by
  obtain ⟨activity, client, fd, hb, hlive, hvalue, hd, hclientlive, hsocket⟩ := h
  exact ⟨activity, client, fd, (Arena.getElem?_modify_of_ne hactivity).trans hb, hlive, hvalue,
    (Arena.getElem?_modify_of_ne hclient).trans hd, hclientlive, hsocket⟩

theorem Owned.discard (h : s.Owned) (ha : a ∈ s.mClients) (hac : s.Holds a c) :
    (s.discarded a c).Owned := by
  have hmem : ∀ b, b ∈ (s.discarded a c).mClients ↔ b ≠ a ∧ b ∈ s.mClients := fun b =>
    h.nodup.mem_erase_iff
  have hkeep : ∀ b, b ≠ a → b ∈ s.mClients → ∀ d, s.Holds b d → (s.discarded a c).Holds b d := by
    intro b hne hb d hbd
    refine hbd.discarded hne ?_
    rintro rfl
    exact hne (h.sole b hb a ha d hbd hac)
  have howner : ∀ d, s.Holds a d → d = c := fun d had => had.owner_eq hac
  obtain ⟨activity, client, fd, hactivity, hlive, -, hclient, hclientlive, -⟩ := hac
  constructor
  case nodup => exact h.nodup.erase a
  case holds =>
    intro b hb
    obtain ⟨hne, hb⟩ := (hmem b).mp hb
    obtain ⟨d, hbd⟩ := h.holds b hb
    exact ⟨d, hkeep b hne hb d hbd⟩
  case sole =>
    intro b hb e he d hbd hed
    obtain ⟨hbne, hb⟩ := (hmem b).mp hb
    obtain ⟨hene, he⟩ := (hmem e).mp he
    obtain ⟨f, hbf⟩ := h.holds b hb
    obtain ⟨g, heg⟩ := h.holds e he
    obtain rfl := (hkeep b hbne hb f hbf).owner_eq hbd
    obtain rfl := (hkeep e hene he g heg).owner_eq hed
    exact h.sole b hb e he _ hbf heg
  case spent =>
    intro b other hother hunlisted
    by_cases hb : b = a
    · subst hb
      obtain rfl := Option.some.inj ((Arena.getElem?_modify_self hactivity).symm.trans hother)
      exact hlive.spent
    · have hold : s.activities[b]? = some other :=
        (Arena.getElem?_modify_of_ne hb).symm.trans hother
      exact h.spent b other hold fun hmem' => hunlisted ((hmem b).mpr ⟨hb, hmem'⟩)
  case retired =>
    intro d other hother
    by_cases hd : d = c
    · subst hd
      obtain rfl := Option.some.inj ((Arena.getElem?_modify_self hclient).symm.trans hother)
      exact .inr hclientlive.close_free
    · have hold : s.clients[d]? = some other := (Arena.getElem?_modify_of_ne hd).symm.trans hother
      rcases h.retired d other hold with ⟨b, hb, hbd⟩ | hretired
      · have hne : b ≠ a := by
          rintro rfl
          exact hd (howner d hbd)
        exact .inl ⟨b, (hmem b).mpr ⟨hne, hb⟩, hbd.discarded hne hd⟩
      · exact .inr hretired

theorem Owned.close {fuel : Nat} (h : s.Owned) (hfuel : s.mClients.length ≤ fuel) :
    ∃ s', closePidServer fuel s = some s' ∧ s'.Owned ∧ s'.mClients = [] ∧ s'.mPidSignature = none ∧
      s'.clients.length = s.clients.length ∧ s'.activities.length = s.activities.length := by
  induction fuel generalizing s with
  | zero =>
    have hempty : s.mClients = [] := List.length_eq_zero_iff.mp (by omega)
    exact ⟨{ s with mPidSignature := none }, by simp [closePidServer, hempty],
      ⟨h.nodup, h.holds, h.sole, h.spent, h.retired⟩, hempty, rfl, rfl, rfl⟩
  | succ fuel ih =>
    cases hlist : s.mClients with
    | nil =>
      exact ⟨{ s with mPidSignature := none }, by simp [closePidServer, hlist],
        ⟨h.nodup, h.holds, h.sole, h.spent, h.retired⟩, hlist, rfl, rfl, rfl⟩
    | cons a rest =>
      have ha : a ∈ s.mClients := by simp [hlist]
      obtain ⟨c, hac⟩ := h.holds a ha
      have hshorter : (s.discarded a c).mClients.length ≤ fuel := by
        have hlen : (s.mClients.erase a).length = s.mClients.length - 1 := List.length_erase_of_mem ha
        show (s.mClients.erase a).length ≤ fuel
        omega
      obtain ⟨s', hclose, howned, hempty, hclosed, hclients, hactivities⟩ :=
        ih (h.discard ha hac) hshorter
      refine ⟨s', ?_, howned, hempty, hclosed, ?_, ?_⟩
      · simp [closePidServer, hlist, hac.discard ha, hclose]
      · rw [hclients, discarded, List.length_modify]
      · rw [hactivities, discarded, List.length_modify]

end PidServerHeap

inductive PidServerEvent
  | accept (euid : Nat) (answers : PidServerAnswers) (peer : PidServerPeer) (fd : Int)
  | disconnect (activity : Nat)
  | close
  deriving DecidableEq, Repr

namespace PidServerHeap

variable {s s' : PidServerHeap} {event : PidServerEvent} {own : PidSignature}

def perform (s : PidServerHeap) : PidServerEvent → Option PidServerHeap
  | .accept euid answers peer fd =>
    (acceptPidServerConnection s euid answers peer fd).map Prod.fst
  | .disconnect activity => discardPidServerConnection_ s (some activity)
  | .close => closePidServer s.mClients.length s

/-- A server that is not closed yet accepts connections, and the event queue calls
back the activities that are armed. The call for a connection is one that has got
a socket, or not even asked for one. -/
def Allows (s : PidServerHeap) : PidServerEvent → Prop
  | .accept _ answers _ _ =>
    s.mPidSignature.isSome = true ∧ (answers.mallocClient = true → answers.accept = true)
  | .disconnect activity => s.Armed activity
  | .close => s.mPidSignature.isSome = true

def lifetime (own : PidSignature) : System PidServerHeap PidServerEvent where
  init s := s = ⟨some own, [], [], []⟩
  step s event s' := s.Allows event ∧ s.perform event = some s'

/-- What each event makes of the list, and of what the server has allocated. -/
def Keeps (s : PidServerHeap) : PidServerEvent → PidServerHeap → Prop
  | .accept euid answers peer fd, s' =>
    (acceptPidServerConnection s euid answers peer fd = some (s', .ok) ∧
        s'.mClients = s.mClients ++ [s.activities.length]) ∨
      (acceptPidServerConnection s euid answers peer fd = some (s', .error) ∧
        s'.mClients = s.mClients ∧ ∀ a, s'.Armed a ↔ s.Armed a)
  | .disconnect a, s' =>
    a ∈ s.mClients ∧ s'.mClients = s.mClients.erase a ∧
      (∀ b, b ≠ a → s'.activities[b]? = s.activities[b]?) ∧
      ∃ c, s.Holds a c ∧ ∀ d, d ≠ c → s'.clients[d]? = s.clients[d]?
  | .close, s' =>
    s'.mClients = [] ∧ (∀ client ∈ s'.clients, Cell.Retired client) ∧
      (∀ activity ∈ s'.activities, Cell.Retired activity) ∧
      s'.clients.length = s.clients.length ∧ s'.activities.length = s.activities.length

theorem Owned.accept (h : s.Owned) {answers : PidServerAnswers} (hown : s.mPidSignature.isSome = true)
    (hanswers : answers.mallocClient = true → answers.accept = true) (euid : Nat)
    (peer : PidServerPeer) (fd : Int) :
    ∃ s', s.perform (.accept euid answers peer fd) = some s' ∧ s'.Owned ∧
      s.Keeps (.accept euid answers peer fd) s' := by
  obtain ⟨own, hown⟩ := Option.isSome_iff_exists.mp hown
  let server : PidServer := ⟨0, 0, own, []⟩
  rcases acceptPidServerConnection_cases hown (show server.mPidSignature = own from rfl) hanswers euid
    peer fd with ⟨s', haccept, hspent, -⟩ | ⟨haccept, -⟩
  · have hlist : s'.mClients = s.mClients := by
      obtain ⟨clients, activities, -, -, rfl⟩ := hspent
      rfl
    refine ⟨s', by simp [perform, haccept], h.spend hspent, .inr ⟨haccept, hlist, fun a => ?_⟩⟩
    rw [(h.spend hspent).armed_iff, h.armed_iff, hlist]
  · exact ⟨_, by simp [perform, haccept], h.admit peer.uid fd, .inl ⟨haccept, rfl⟩⟩

theorem Owned.disconnect {a : Nat} (h : s.Owned) (ha : s.Armed a) :
    ∃ s', s.perform (.disconnect a) = some s' ∧ s'.Owned ∧ s.Keeps (.disconnect a) s' := by
  have hmem := h.armed_iff.mp ha
  obtain ⟨c, hac⟩ := h.holds a hmem
  exact ⟨s.discarded a c, hac.discard hmem, h.discard hmem hac, hmem, rfl,
    fun _ => Arena.getElem?_modify_of_ne, c, hac, fun _ => Arena.getElem?_modify_of_ne⟩

theorem Owned.keeps (h : s.Owned) (hallows : s.Allows event) :
    ∃ s', s.perform event = some s' ∧ s'.Owned ∧ s.Keeps event s' := by
  cases event with
  | accept euid answers peer fd => exact h.accept hallows.1 hallows.2 euid peer fd
  | disconnect a => exact h.disconnect hallows
  | close =>
    obtain ⟨s', hclose, howned, hempty, -, hclients, hactivities⟩ := h.close le_rfl
    refine ⟨s', hclose, howned, hempty, ?_, ?_, hclients, hactivities⟩
    · intro client hclient
      obtain ⟨c, hc⟩ := List.mem_iff_getElem?.mp hclient
      rcases howned.retired c client hc with ⟨a, ha, -⟩ | hretired
      · simp [hempty] at ha
      · exact hretired
    · intro activity hactivity
      obtain ⟨a, ha⟩ := List.mem_iff_getElem?.mp hactivity
      exact (howned.spent a activity ha (by simp [hempty])).1

theorem owned_of_reachable (hs : (lifetime own).Reachable s) : s.Owned := by
  refine System.Reachable.invariant (P := Owned) ?_ ?_ hs
  · rintro s rfl
    constructor <;> simp
  · rintro s event s' - h ⟨hallows, hperform⟩
    obtain ⟨t, ht, howned, -⟩ := h.keeps hallows
    obtain rfl := Option.some.inj (hperform.symm.trans ht)
    exact howned

/-- From connection to connection the list owns every live activity, which owns its
client; all else has been closed and freed once, and nothing is used after that. -/
theorem lifetime_owned (hs : (lifetime own).Reachable s) :
    s.Owned ∧
    (∀ a activity, s.activities[a]? = some activity →
      (activity.value.mList = true ↔ a ∈ s.mClients) ∧
      (activity.value.mList = true ↔ s.mClients.count a = 1)) ∧
    ∀ event, s.Allows event → ∃ s', s.perform event = some s' ∧ s.Keeps event s' := by
  have howned := owned_of_reachable hs
  refine ⟨howned, fun a activity hactivity => ⟨?_, howned.mList_iff hactivity⟩, fun event hallows => ?_⟩
  · rw [howned.mList_iff hactivity, List.Nodup.count howned.nodup]
    simp
  · obtain ⟨s', hperform, -, hkeeps⟩ := howned.keeps hallows
    exact ⟨s', hperform, hkeeps⟩

/-- A server with one connection, on descriptor 5 from user 0. -/
def engaged : PidServerHeap :=
  ⟨some ⟨7, [97]⟩, [0], [.fresh ⟨some 5, 0⟩], [.fresh ⟨true, .armed, 0⟩]⟩

theorem engaged_owned :
    engaged.Owned ∧
    (∀ a activity, engaged.activities[a]? = some activity →
      (activity.value.mList = true ↔ a ∈ engaged.mClients) ∧
      (activity.value.mList = true ↔ engaged.mClients.count a = 1)) ∧
    ∀ event, engaged.Allows event → ∃ s', engaged.perform event = some s' ∧ engaged.Keeps event s' := by
  have hinit : (lifetime ⟨7, [97]⟩).Reachable ⟨some ⟨7, [97]⟩, [], [], []⟩ := .of_init rfl
  let event : PidServerEvent := .accept 1000 ⟨true, true, true, true, true, true, true⟩
    ⟨0, [7, 0, 0, 0, 1, 0, 0, 0, 0, 0, 0, 0, 97], true⟩ 5
  have hstep : (lifetime ⟨7, [97]⟩).step ⟨some ⟨7, [97]⟩, [], [], []⟩ event engaged :=
    ⟨⟨rfl, fun _ => rfl⟩, by decide⟩
  exact lifetime_owned (hinit.tail hstep)

/-- What the server itself has of a listed activity. -/
def reference (s : PidServerHeap) (a : Nat) : Option PidServerClient :=
  s.activities[a]?.bind fun activity => s.clients[activity.value.mClient]?.bind fun client =>
    client.value.mUnixSocket.map fun fd => ⟨fd, client.value.mCred⟩

def references (s : PidServerHeap) : List PidServerClient := s.mClients.filterMap s.reference

theorem Holds.reference_eq {a c : Nat} (h : s.Holds a c)
    (hactivity : ∀ activity, s.activities[a]? = some activity → s'.activities[a]? = some activity)
    (hclient : ∀ client, s.clients[c]? = some client → s'.clients[c]? = some client) :
    s'.reference a = s.reference a := by
  obtain ⟨activity, client, fd, ha, -, hvalue, hc, -, -⟩ := h
  simp [reference, ha, hc, hactivity activity ha, hclient client hc, hvalue]

theorem Owned.references_append (h : s.Owned) (clients : Arena PidServerClient_)
    (activities : Arena PidServerClientActivity_) :
    s.mClients.filterMap (reference { s with
      clients := s.clients ++ clients
      activities := s.activities ++ activities }) = s.references := by
  refine List.filterMap_congr fun a ha => ?_
  obtain ⟨c, hac⟩ := h.holds a ha
  exact hac.reference_eq (fun _ => Arena.getElem?_append_of_some activities)
    fun _ => Arena.getElem?_append_of_some clients

/-- The handshake on objects that are allocated and freed is the one on a list of
clients. -/
theorem acceptPidServerConnection_refines (h : s.Owned) {server : PidServer}
    (hown : s.mPidSignature = some server.mPidSignature) (hclients : server.mClients = s.references)
    {answers : PidServerAnswers} (hanswers : answers.mallocClient = true → answers.accept = true)
    (euid : Nat) (peer : PidServerPeer) (fd : Int) :
    ∃ s' rc, acceptPidServerConnection s euid answers peer fd = some (s', rc) ∧
      (server.acceptPidServerConnection euid answers.calls peer fd).rc = rc ∧
      (server.acceptPidServerConnection euid answers.calls peer fd).self.mClients = s'.references := by
  rcases acceptPidServerConnection_cases hown rfl hanswers euid peer fd with
    ⟨s', haccept, hspent, hserver⟩ | ⟨haccept, hserver⟩
  · refine ⟨s', .error, haccept, by rw [hserver]; rfl, ?_⟩
    obtain ⟨clients, activities, -, -, rfl⟩ := hspent
    have hsame := h.references_append clients activities
    rw [hserver]
    exact hclients.trans hsame.symm
  · refine ⟨_, .ok, haccept, by rw [hserver]; rfl, ?_⟩
    have hsame := h.references_append [.fresh ⟨some fd, peer.uid⟩]
      [.fresh ⟨true, .armed, s.clients.length⟩]
    have hlast : (s.admitted peer.uid fd).reference s.activities.length = some ⟨fd, peer.uid⟩ := by
      simp [reference, admitted, registered, accepted]
    have hreferences : (s.admitted peer.uid fd).references = s.references ++ [⟨fd, peer.uid⟩] := by
      refine List.filterMap_append.trans (congrArg₂ (· ++ ·) hsame ?_)
      simp [hlast]
    rw [hserver, hreferences, ← hclients]
    rfl

/-- A client that disconnects is the only one that goes. -/
theorem Owned.references_discarded {a c : Nat} (h : s.Owned) (ha : a ∈ s.mClients)
    (hac : s.Holds a c) :
    (s.discarded a c).references = (s.mClients.erase a).filterMap s.reference := by
  refine List.filterMap_congr fun b hb => ?_
  obtain ⟨hne, hb⟩ := h.nodup.mem_erase_iff.mp hb
  obtain ⟨d, hbd⟩ := h.holds b hb
  have hother : d ≠ c := by
    rintro rfl
    exact hne (h.sole b ‹_› a ha d hbd hac)
  exact hbd.reference_eq (fun _ hactivity => (Arena.getElem?_modify_of_ne hne).trans hactivity)
    fun _ hclient => (Arena.getElem?_modify_of_ne hother).trans hclient

end PidServerHeap

end PidSentry
