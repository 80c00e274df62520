import PidSentry.UmbilicalRun

/-! The clients of the umbilical process: what a connection does to its event
loop, and how long the clients it has admitted hold on to the child. -/

namespace PidSentry

namespace UmbilicalMonitor

theorem pollFdPidServer_rejects {self : UmbilicalMonitor} {server : PidServer}
    (hs : self.mPidServer = some server) {euid : Nat} {peer : PidServerPeer}
    (h : server.Rejects euid peer) (calls : PidServerCalls) (fd : Int) :
    self.pollFdPidServer euid calls peer fd = .error self := by
  have hself : { self with mPidServer := some server } = self := by rw [← hs]
  simp only [pollFdPidServer, hs, PidServer.acceptPidServerConnection_rejects h calls fd,
    Outcome.error_self, Outcome.error_rc, hself]

/-- A client that holds a reference keeps the entry of the event queue armed. -/
def Pins (self : UmbilicalMonitor) : Prop :=
  self.clients ≠ [] → self.mFds.pidClient.armed

theorem Pins.completion {self : UmbilicalMonitor} (h : self.Pins) (hc : self.clients ≠ []) :
    self.pollFdCompletion = false := by
  simp [pollFdCompletion, h hc]

theorem pollFdPidServer_pins {self : UmbilicalMonitor} (h : self.Pins) (euid : Nat)
    (calls : PidServerCalls) (peer : PidServerPeer) (fd : Int) :
    (self.pollFdPidServer euid calls peer fd).self.Pins := by
  unfold pollFdPidServer
  cases hs : self.mPidServer with
  | none => exact h
  | some server =>
    rcases server.acceptPidServerConnection_cases euid calls peer fd with he | ⟨-, -, -, he⟩
    · have hself : { self with mPidServer := some server } = self := by rw [← hs]
      simpa only [he, Outcome.error_rc, Outcome.error_self, hself] using h
    · simp only [he, Outcome.emit_rc, Outcome.emit_self]
      intro _
      split_ifs with harmed
      · exact harmed
      · rfl

theorem pollFdPidClient_eq {self : UmbilicalMonitor} {server : PidServer}
    (hs : self.mPidServer = some server) (gone : List PidServerClient) (polled : Bool)
    {left : List PidServerClient} (hl : server.mClients.filter (· ∉ gone) = left) :
    self.pollFdPidClient gone polled = .ok { self with
      mPidServer := some { server with mClients := left }
      mFds.pidClient :=
        if polled = true ∧ left ≠ [] then self.mFds.pidClient else .disarmed } := by
  simp only [pollFdPidClient, hs, PidServer.cleanPidServer, hl]
  cases polled with
  | true => by_cases hempty : left = [] <;> simp [hempty]
  | false => simp

theorem pollFdPidClient_pins {self : UmbilicalMonitor} (hserver : self.mPidServer ≠ none)
    (harmed : self.mFds.pidClient.armed) (gone : List PidServerClient) (polled : Bool) :
    (self.pollFdPidClient gone polled).self.Pins ↔
      polled = true ∨ self.clients.filter (· ∉ gone) = [] := by
  obtain ⟨server, hs⟩ := Option.ne_none_iff_exists'.mp hserver
  have hclients : self.clients = server.mClients := by simp only [clients, hs]
  rw [hclients, pollFdPidClient_eq hs gone polled rfl]
  generalize server.mClients.filter (· ∉ gone) = left
  by_cases hempty : left = []
  · simp [Pins, clients, hempty]
  · cases polled with
    | true => simp [Pins, clients, hempty, harmed]
    | false => simp [Pins, clients, hempty]

/-- A successful poll that leaves no client disarms the entry. -/
theorem pollFdPidClient_releases {self : UmbilicalMonitor} (hserver : self.mPidServer ≠ none)
    {gone : List PidServerClient} (hc : (self.pollFdPidClient gone true).self.clients = []) :
    (self.pollFdPidClient gone true).self.mFds.pidClient.armed = false := by
  obtain ⟨server, hs⟩ := Option.ne_none_iff_exists'.mp hserver
  rw [pollFdPidClient_eq hs gone true rfl] at hc ⊢
  have hempty : server.mClients.filter (· ∉ gone) = [] := hc
  simp only [hempty, ne_eq, not_true_eq_false, and_false, if_false, Outcome.ok_self,
    PollFd.armed_disarmed]

/-- The pid server and its clients are left alone; the server at most stops
listening. -/
structure SameClients (m n : UmbilicalMonitor) : Prop where
  server : n.mPidServer = m.mPidServer
  client : n.mFds.pidClient = m.mFds.pidClient
  listen : n.mFds.pidServer = m.mFds.pidServer ∨ n.mFds.pidServer = .disarmed

theorem SameClients.pins {m n : UmbilicalMonitor} (h : m.SameClients n) : n.Pins ↔ m.Pins := by
  simp only [Pins, clients, h.server, h.client]

theorem closeFdUmbilical_sameClients (self : UmbilicalMonitor) (shutdown : Bool) :
    self.SameClients (self.closeFdUmbilical shutdown).self := by
  unfold closeFdUmbilical
  split_ifs
  · exact ⟨rfl, rfl, .inr rfl⟩
  · exact ⟨rfl, rfl, .inl rfl⟩

theorem pollFdUmbilical_sameClients (lap : LapTime) (self : UmbilicalMonitor) (read : ReadResult)
    (shutdown latched : Bool) (aPollTime : Int) :
    self.SameClients (self.pollFdUmbilical lap read shutdown latched aPollTime).self := by
  cases read with
  | byte value =>
    simp only [pollFdUmbilical, pollFdMessage]
    split_ifs <;> exact ⟨rfl, rfl, .inl rfl⟩
  | eof | econnreset => exact closeFdUmbilical_sameClients self shutdown
  | eintr | failed => exact ⟨rfl, rfl, .inl rfl⟩

theorem pollFdTimerUmbilical_sameClients (self : UmbilicalMonitor) (stopped shutdown : Bool) :
    self.SameClients (self.pollFdTimerUmbilical stopped shutdown).self := by
  unfold pollFdTimerUmbilical
  dsimp only
  split_ifs
  · exact ⟨rfl, rfl, .inl rfl⟩
  · have hh := closeFdUmbilical_sameClients
      { self with mUmbilical.mCycleCount := self.mUmbilical.mCycleCount + 1 } shutdown
    exact ⟨hh.server, hh.client, hh.listen⟩
  · exact ⟨rfl, rfl, .inl rfl⟩

/-- A monitor that polls its listening socket or its event queue has a server. -/
def Serves (self : UmbilicalMonitor) : Prop :=
  self.mFds.pidServer.armed ∨ self.mFds.pidClient.armed → self.mPidServer ≠ none

theorem SameClients.serves {m n : UmbilicalMonitor} (h : m.SameClients n) (hm : m.Serves) :
    n.Serves := by
  intro hn
  rw [h.server]
  rw [h.client] at hn
  rcases h.listen with he | he
  · exact hm (he ▸ hn)
  · exact hm (hn.imp (by simp [he]) id)

theorem pollFdEventPipe_sameClients (self : UmbilicalMonitor) (slept : Bool) (write : WriteResult) :
    self.SameClients (self.pollFdEventPipe slept write).self := by
  unfold pollFdEventPipe pollFdSendEcho
  split_ifs
  · exact ⟨rfl, rfl, .inl rfl⟩
  · exact ⟨rfl, rfl, .inl rfl⟩
  · cases write <;> exact ⟨rfl, rfl, .inl rfl⟩
  · exact ⟨rfl, rfl, .inl rfl⟩

end UmbilicalMonitor

namespace UmbilicalRun

/-- The umbilical process outlives a connection: it keeps its clients and what
it polls, and goes on looping. -/
def Withstands (s t : UmbilicalRun) : Prop :=
  t.monitor.clients = s.monitor.clients ∧ t.monitor.mFds = s.monitor.mFds ∧ t.phase = .looping

/-- Any peer that is not to be served ends the loop of the umbilical process. -/
theorem rejected_ends_loop (lap : LapTime) {s t : UmbilicalRun} {server : PidServer}
    (hs : s.monitor.mPidServer = some server) (euid : Nat) (calls : PidServerCalls)
    (peer : PidServerPeer) (hr : server.Rejects euid peer) (fd : Int)
    (hstep : s.next lap (.pidServer euid calls peer fd) = some t) :
    ¬ s.Withstands t ∧ t = ⟨s.monitor, .failed⟩ ∧ ∀ event, t.next lap event = none := by
  obtain ⟨-, rfl⟩ := next_eq_some.mp hstep
  have ht : s.after lap (.pidServer euid calls peer fd) = ⟨s.monitor, .failed⟩ := by
    simp only [after, UmbilicalEvent.reply, UmbilicalMonitor.pollFdPidServer_rejects hs hr,
      Outcome.error_self, Outcome.error_rc]
  rw [ht]
  refine ⟨fun h => ?_, rfl, next_eq_none (by simp) (by simp)⟩
  cases h.2.2

theorem rejected_ends_loop_foreign :
    ∃ s t, (system .monotonic 30).Reachable s ∧
      s.next .monotonic (.pidServer 1000 ⟨true, true, true⟩ ⟨1001, [], true⟩ 9) = some t ∧
      ¬ s.Withstands t ∧ t = ⟨s.monitor, .failed⟩ ∧ ∀ event, t.next .monotonic event = none :=
  ⟨_, _, .of_foldlM (.of_init ⟨2, some ⟨5, 6, ⟨7, [1]⟩, []⟩, 0, by simp, rfl⟩)
    [.umbilical (.byte 46) true true 0] rfl, rfl,
    rejected_ends_loop .monotonic rfl 1000 ⟨true, true, true⟩ ⟨1001, [], true⟩
      (.inl (by decide)) 9 rfl⟩

/-- A user other than the server's own connects to a running umbilical process. -/
theorem rejected_not_withstood :
    ¬ ∀ (lap : LapTime) (mUmbilical_s : Nat) (s t : UmbilicalRun) (server : PidServer)
      (euid : Nat) (calls : PidServerCalls) (peer : PidServerPeer) (fd : Int),
      (system lap mUmbilical_s).Reachable s → s.monitor.mPidServer = some server →
      server.Rejects euid peer → s.next lap (.pidServer euid calls peer fd) = some t →
      s.Withstands t := by
  intro h
  have hreach : (system .monotonic 30).Reachable _ :=
    .of_foldlM (.of_init ⟨2, some ⟨5, 6, ⟨7, [1]⟩, []⟩, 0, by simp, rfl⟩)
      [.umbilical (.byte 46) true true 0] rfl
  have hh := h .monotonic 30 _ _ _ 1000 ⟨true, true, true⟩ ⟨1001, [], true⟩ 9 hreach rfl
    (.inl (by decide)) rfl
  exact absurd hh.2.2 (by decide)

/-- A listed client keeps the entry of the event queue armed, the loop
incomplete and the child process group alive. -/
def Pinned (s : UmbilicalRun) : Prop :=
  s.monitor.clients ≠ [] →
    s.monitor.mFds.pidClient.armed ∧ s.monitor.pollFdCompletion = false ∧ s.phase ≠ .killing

def Cleans (s : UmbilicalRun) : UmbilicalEvent → Prop
  | .pidClient gone polled => polled = true ∨ s.monitor.clients.filter (· ∉ gone) = []
  | _ => True

/-- A successful poll that leaves no client disarms the entry. -/
def Releases (event : UmbilicalEvent) (t : UmbilicalRun) : Prop :=
  ∀ gone, event = .pidClient gone true → t.monitor.clients = [] →
    t.monitor.mFds.pidClient.armed = false

theorem pinned_iff_pins {s : UmbilicalRun}
    (hk : s.phase = .killing → s.monitor.pollFdCompletion = true) :
    s.Pinned ↔ s.monitor.Pins := by
  constructor
  · exact fun h hc => (h hc).1
  · intro h hc
    have hcompletion := h.completion hc
    exact ⟨h hc, hcompletion, fun hkill => by simp [hk hkill] at hcompletion⟩

theorem reply_sameClients (lap : LapTime) (monitor : UmbilicalMonitor) {event : UmbilicalEvent}
    (hserver : ∀ euid calls peer fd, event ≠ .pidServer euid calls peer fd)
    (hclient : ∀ gone polled, event ≠ .pidClient gone polled) :
    monitor.SameClients (event.reply lap monitor).self := by
  cases event with
  | umbilical read shutdown latched pollTime =>
    exact UmbilicalMonitor.pollFdUmbilical_sameClients lap monitor read shutdown latched pollTime
  | pidServer euid calls peer fd => exact absurd rfl (hserver euid calls peer fd)
  | pidClient gone polled => exact absurd rfl (hclient gone polled)
  | eventPipe slept write => exact monitor.pollFdEventPipe_sameClients slept write
  | timerUmbilical laps stopped shutdown pollTime =>
    have hh := UmbilicalMonitor.pollFdTimerUmbilical_sameClients
      { monitor with mTimer := monitor.mTimer.lap laps } stopped shutdown
    exact ⟨hh.server, hh.client, hh.listen⟩
  | completed => exact ⟨rfl, rfl, .inl rfl⟩

theorem serves_of_reachable {lap : LapTime} {mUmbilical_s : Nat} {s : UmbilicalRun}
    (hs : (system lap mUmbilical_s).Reachable s) : s.monitor.Serves := by
  refine System.Reachable.invariant (P := fun s => s.monitor.Serves) ?_ ?_ hs
  · rintro s ⟨sentryPid, pidServer, start, -, rfl⟩ h
    cases pidServer with
    | none => rcases h with h | h <;> cases h
    | some server => exact Option.some_ne_none server
  · rintro s event t - hi hstep
    obtain ⟨hready, rfl⟩ := next_eq_some.mp hstep
    cases event with
    | pidServer euid calls peer fd =>
      obtain ⟨server, hserver⟩ := Option.ne_none_iff_exists'.mp (hi (.inl hready.2))
      rcases server.acceptPidServerConnection_cases euid calls peer fd with he | ⟨-, -, -, he⟩
      · simp [after, UmbilicalEvent.reply, UmbilicalMonitor.pollFdPidServer, hserver, he,
          UmbilicalMonitor.Serves]
      · intro _
        simp only [after, UmbilicalEvent.reply, UmbilicalMonitor.pollFdPidServer, hserver, he,
          Outcome.emit_rc, Outcome.emit_self]
        split_ifs <;> exact Option.some_ne_none _
    | pidClient gone polled =>
      obtain ⟨server, hserver⟩ := Option.ne_none_iff_exists'.mp (hi (.inr hready.2))
      intro _
      simp [after, UmbilicalEvent.reply, UmbilicalMonitor.pollFdPidClient_eq hserver gone polled rfl]
    | umbilical | eventPipe | timerUmbilical | completed =>
      exact (reply_sameClients lap s.monitor (by simp) (by simp)).serves hi

theorem after_pins {lap : LapTime} {s : UmbilicalRun} {event : UmbilicalEvent}
    (hserves : s.monitor.Serves) (hi : s.monitor.Pins) (hready : event.Ready s) :
    (s.after lap event).monitor.Pins ↔ s.Cleans event := by
  cases event with
  | pidServer euid calls peer fd =>
    exact iff_of_true (UmbilicalMonitor.pollFdPidServer_pins hi euid calls peer fd) trivial
  | pidClient gone polled =>
    exact UmbilicalMonitor.pollFdPidClient_pins (hserves (.inr hready.2)) hready.2 gone polled
  | umbilical | eventPipe | timerUmbilical | completed =>
    exact iff_of_true ((reply_sameClients lap s.monitor (by simp) (by simp)).pins.mpr hi) trivial

/-- Along a run acknowledged clients stay pinned exactly if every event queue
poll succeeds or leaves none; and a successful poll that leaves none releases
the child. -/
theorem pinned_iff_cleans (lap : LapTime) (mUmbilical_s : Nat) {s : UmbilicalRun}
    (hs : Start mUmbilical_s s) {run : List (UmbilicalEvent × UmbilicalRun)}
    (hr : (system lap mUmbilical_s).IsRun s run) :
    (System.Throughout (fun _ _ t => t.Pinned) s run ↔
        System.Throughout (fun s event _ => s.Cleans event) s run) ∧
      System.Throughout (fun _ event t => Releases event t) s run := by
  have hreach : (system lap mUmbilical_s).Reachable s := .of_init hs
  constructor
  · refine System.IsRun.invariant_iff ?_ hreach ?_ hr
    · intro s event t hs hi hstep
      have ht := hs.tail hstep
      obtain ⟨hready, rfl⟩ := next_eq_some.mp hstep
      rw [pinned_iff_pins (completion_of_killing ht)]
      exact after_pins (serves_of_reachable hs)
        ((pinned_iff_pins (completion_of_killing hs)).mp hi) hready
    · obtain ⟨sentryPid, pidServer, start, hempty, rfl⟩ := hs
      cases pidServer with
      | none => exact fun hc => absurd rfl hc
      | some server => exact fun hc => absurd (hempty server rfl) hc
  · refine System.IsRun.throughout ?_ hreach hr
    rintro s event t hs hstep gone rfl hc
    obtain ⟨hready, rfl⟩ := next_eq_some.mp hstep
    exact UmbilicalMonitor.pollFdPidClient_releases (serves_of_reachable hs (.inr hready.2)) hc

/-- A client is acknowledged, an event queue poll fails, and the sentry closes
the umbilical: the child process group is killed under the client. -/
theorem pinned_fails :
    ¬ ∀ (lap : LapTime) (mUmbilical_s : Nat) (s : UmbilicalRun)
      (run : List (UmbilicalEvent × UmbilicalRun)), Start mUmbilical_s s →
      (system lap mUmbilical_s).IsRun s run →
      System.Throughout (fun _ _ t => t.Pinned) s run := by
  intro h
  let run := System.run (next .monotonic) (enter 30 2 (some ⟨5, 6, ⟨7, [1]⟩, []⟩) 0)
    [.umbilical (.byte 46) true true 0,
      .pidServer 1000 ⟨true, true, true⟩ ⟨1000, [7, 0, 0, 0, 1, 0, 0, 0, 0, 0, 0, 0, 1], true⟩ 9,
      .pidClient [] false, .umbilical .eof true true 0, .completed]
  have hh := h .monotonic 30 _ run ⟨2, some ⟨5, 6, ⟨7, [1]⟩, []⟩, 0, by simp, rfl⟩
    (System.isRun_run _ _ _ _)
  exact (hh.2.2.2.2.1 (by decide)).2.2 rfl

theorem pinned_iff_cleans_departed :
    let s := enter 30 2 (some ⟨5, 6, ⟨7, [1]⟩, []⟩) 0
    let run := System.run (next .monotonic) s
      [.umbilical (.byte 46) true true 0,
        .pidServer 1000 ⟨true, true, true⟩ ⟨1000, [7, 0, 0, 0, 1, 0, 0, 0, 0, 0, 0, 0, 1], true⟩ 9,
        .umbilical .eof true true 0, .pidClient [⟨9, 1000⟩] true, .completed]
    (System.Throughout (fun _ _ t => t.Pinned) s run ↔
        System.Throughout (fun s event _ => s.Cleans event) s run) ∧
      System.Throughout (fun _ event t => Releases event t) s run :=
  pinned_iff_cleans .monotonic 30 ⟨2, some ⟨5, 6, ⟨7, [1]⟩, []⟩, 0, by simp, rfl⟩
    (System.isRun_run _ _ _ _)

end UmbilicalRun

end PidSentry
