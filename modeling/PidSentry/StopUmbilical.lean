import PidSentry.UmbilicalStream

/-! Stopping the umbilical: `stopUmbilicalProcess` step by step, next to the
umbilical process that it stops and the clients of that process. -/

namespace PidSentry

/-- The local `umbilicalState`; `Stopped` ends the loop. -/
inductive UmbilicalState
  | running
  | stopping
  deriving DecidableEq, Repr

/-- How `stopUmbilicalProcess` ends: with 0, with ETIMEDOUT, or with another error. -/
inductive StopResult
  | ok
  | timedOut
  | failed
  deriving DecidableEq, Repr

/-- What the sentry is about to do; `checking` is the top of the loop. -/
inductive StopPhase
  | monitoring
  | sending
  | shutting
  | checking (umbilicalState : UmbilicalState)
  | polling
  | receiving
  | waiting
  | returned (result : StopResult)
  deriving DecidableEq, Repr

inductive SendResult
  | sent
  | epipe
  | failed
  deriving DecidableEq, Repr

/-- The sentry in its own loop, the umbilical process, and then each call of
`stopUmbilicalProcess` with its result: `expired` and `continued` are what
`ert_deadlineTimeExpired` and `ert_checkProcessSigContTracker` find, and `ready`
has nothing to give if the wait fails. -/
inductive StopEvent
  | ping
  | echo
  | umbilical (event : UmbilicalEvent)
  | exit (killed : Bool)
  | stop
  | send (result : SendResult)
  | shutdown (succeeded : Bool)
  | deadline (expired continued : Bool)
  | ready (result : Option Bool)
  | receive (read : ReadResult)
  | wait (state : ChildProcessState)
  deriving DecidableEq, Repr

structure StopRun where
  stream : StreamRun
  echoes : Nat
  phase : StopPhase
  /-- The event queue could not be polled, and no client has connected since. -/
  unwatched : Bool
  deriving DecidableEq, Repr

def UmbilicalEvent.unwatches (unwatched : Bool) : UmbilicalEvent → Bool
  | pidClient _ polled => !polled
  | pidServer .. => false
  | _ => unwatched

/-- The umbilical process has neither ended nor closed its end. -/
def StreamRun.Listens (s : StreamRun) : Prop :=
  s.umbilical.monitor.mFds.umbilical.armed ∧
    (s.umbilical.phase = .synchronising ∨ s.umbilical.phase = .looping)

instance (s : StreamRun) : Decidable s.Listens := inferInstanceAs (Decidable (_ ∧ _))

/-- The umbilical process has left with an error. -/
def StreamRun.Failed (s : StreamRun) : Prop :=
  s.umbilical.phase = .failed ∨ s.umbilical.phase = .aborted

instance (s : StreamRun) : Decidable s.Failed := inferInstanceAs (Decidable (_ ∨ _))

def StreamRun.Gone (s : StreamRun) : Prop := s.exited ∨ s.Failed

instance (s : StreamRun) : Decidable s.Gone := inferInstanceAs (Decidable (_ ∨ _))

def StopPhase.send : SendResult → StopPhase
  | .sent => shutting
  | .epipe => returned .ok
  | .failed => returned .failed

def StopPhase.deadline (umbilicalState : UmbilicalState) (expired continued : Bool) : StopPhase :=
  if expired then
    if continued then checking umbilicalState else returned .timedOut
  else
    match umbilicalState with
    | .running => polling
    | .stopping => waiting

def StopPhase.ready : Option Bool → StopPhase
  | none => returned .failed
  | some true => receiving
  | some false => checking .stopping

/-- A broken connection is read once more, as is one with an echo in it. -/
def StopPhase.receive : ReadResult → StopPhase
  | .byte _ | .econnreset => checking .running
  | .eof => checking .stopping
  | .eintr | .failed => returned .failed

def StopPhase.wait : ChildProcessState → StopPhase
  | .exited | .killed | .dumped => returned .ok
  | .running | .stopped | .trapped => checking .stopping
  | .echild | .failed => returned .failed

namespace StopRun

/-- What the sentry sees of the umbilical process on its socket and when it waits
for it. -/
def Permits (s : StopRun) : StopEvent → Prop
  | .echo | .receive (.byte _) => 0 < s.echoes
  | .receive .eof => s.echoes = 0 ∧ ¬ s.stream.Listens
  | .receive .econnreset => ¬ s.stream.Listens
  | .send .epipe | .wait .exited | .wait .killed | .wait .dumped => s.stream.Gone
  | _ => True

instance (s : StopRun) (event : StopEvent) : Decidable (s.Permits event) := by
  cases event with
  | receive result => cases result <;> unfold Permits <;> infer_instance
  | send result => cases result <;> unfold Permits <;> infer_instance
  | wait state => cases state <;> unfold Permits <;> infer_instance
  | _ => unfold Permits; infer_instance

/-- A step of the sentry takes it to `phase`, and does to the stream what `event`
says, if anything. -/
def move (lap : LapTime) (s : StopRun) (phase : StopPhase) (event : Option StreamEvent) :
    Option StopRun :=
  match event with
  | some event => (s.stream.next lap event).map fun stream =>
    { s with stream := stream, phase := phase }
  | none => some { s with phase := phase }

def step (lap : LapTime) (s : StopRun) (event : StopEvent) : Option StopRun :=
  match event, s.phase with
  | .umbilical event, _ => (s.stream.next lap (.umbilical event)).map fun stream => { s with
      stream := stream
      echoes := s.echoes +
        (event.reply lap s.stream.umbilical.monitor).effects.count .echo
      unwatched := event.unwatches s.unwatched }
  | .exit killed, phase => s.move lap phase (some (.exit killed))
  | .ping, .monitoring => s.move lap .monitoring (some .ping)
  | .echo, .monitoring => some { s with echoes := s.echoes - 1 }
  | .stop, .monitoring => s.move lap .sending none
  | .send result, .sending =>
    s.move lap (.send result) (if result = .sent then some .close else none)
  | .shutdown succeeded, .shutting =>
    if succeeded then s.move lap (.checking .running) (some .shut)
    else s.move lap (.returned .failed) none
  | .deadline expired continued, .checking umbilicalState =>
    s.move lap (.deadline umbilicalState expired continued) none
  | .ready result, .polling => s.move lap (.ready result) none
  | .receive read, .receiving => some { s with
      phase := .receive read
      echoes := match read with
        | .byte _ => s.echoes - 1
        | _ => s.echoes }
  | .wait state, .waiting => s.move lap (.wait state) none
  | _, _ => none

def next (lap : LapTime) (s : StopRun) (event : StopEvent) : Option StopRun :=
  if s.Permits event then s.step lap event else none

def Start (mUmbilical_s : Nat) (s : StopRun) : Prop :=
  ∃ stream, StreamRun.Start mUmbilical_s stream ∧ s = ⟨stream, 0, .monitoring, false⟩

def system (lap : LapTime) (mUmbilical_s : Nat) : System StopRun StopEvent :=
  .ofNext (Start mUmbilical_s) (next lap)

/-- The sentry comes to wait for the umbilical process without a deadline. -/
def ComesToWait (s t : StopRun) : Prop := s.phase ≠ .waiting ∧ t.phase = .waiting

instance (s t : StopRun) : Decidable (s.ComesToWait t) := inferInstanceAs (Decidable (_ ∧ _))

def WaitsBriefly (s : StopRun) (_ : StopEvent) (t : StopRun) : Prop :=
  s.ComesToWait t → t.stream.umbilical.monitor.pollFdCompletion

instance (s : StopRun) (event : StopEvent) (t : StopRun) : Decidable (s.WaitsBriefly event t) :=
  inferInstanceAs (Decidable (_ → _))

/-- The umbilical process has shut down its end, at the end of the stream or for want of
pings, and has not failed; and no client is connected, or it does not watch those that are. -/
def Released (s : StopRun) : Prop :=
  s.stream.shutdowns ≠ [] ∧ ¬ s.stream.Failed ∧
    (s.stream.umbilical.monitor.clients = [] ∨ s.unwatched = true)

instance (s : StopRun) : Decidable s.Released := inferInstanceAs (Decidable (_ ∧ _))

/-- The sentry comes to wait for an umbilical process that has been released. -/
def WaitsReleased (s : StopRun) (_ : StopEvent) (t : StopRun) : Prop :=
  s.ComesToWait t → s.Released

instance (s : StopRun) (event : StopEvent) (t : StopRun) : Decidable (s.WaitsReleased event t) :=
  inferInstanceAs (Decidable (_ → _))

end StopRun

/-- The entry of the event queue is armed for the clients, if they are watched. -/
def UmbilicalMonitor.Watches (self : UmbilicalMonitor) (unwatched : Bool) : Prop :=
  self.mFds.pidClient.armed = true ↔ self.clients ≠ [] ∧ unwatched = false

theorem UmbilicalMonitor.Watches.of_same {m n : UmbilicalMonitor} {unwatched : Bool} (h : m.SameClients n)
    (hi : m.Watches unwatched) : n.Watches unwatched := by
  unfold Watches clients at hi ⊢
  rw [h.client, h.server]
  exact hi

theorem UmbilicalRun.watches_of_next {lap : LapTime} {s t : UmbilicalRun} {event : UmbilicalEvent}
    {unwatched : Bool} (hserves : s.monitor.Serves) (hi : s.monitor.Watches unwatched)
    (h : s.next lap event = some t) (hfailed : t.phase ≠ .failed) :
    t.monitor.Watches (event.unwatches unwatched) := by
  obtain ⟨hready, rfl⟩ := next_eq_some.mp h
  cases event with
  | pidServer euid calls peer fd =>
    obtain ⟨server, hserver⟩ := Option.ne_none_iff_exists'.mp (hserves (.inl hready.2))
    rcases server.acceptPidServerConnection_cases euid calls peer fd with he | ⟨-, -, -, he⟩
    · -- a connection that is refused makes the process fail
      refine absurd ?_ hfailed
      simp only [after, UmbilicalEvent.reply, UmbilicalMonitor.pollFdPidServer, hserver, he, Outcome.error_rc]
    · have harmed : (s.after lap (.pidServer euid calls peer fd)).monitor.mFds.pidClient.armed = true := by
        simp only [after, UmbilicalEvent.reply, UmbilicalMonitor.pollFdPidServer, hserver, he, Outcome.emit_rc,
          Outcome.emit_self]
        split_ifs with hbefore
        · exact hbefore
        · rfl
      refine iff_of_true harmed ⟨?_, rfl⟩
      simp only [after, UmbilicalEvent.reply, UmbilicalMonitor.pollFdPidServer, hserver, he, Outcome.emit_rc,
        Outcome.emit_self]
      split_ifs <;> simp [UmbilicalMonitor.clients]
  | pidClient gone polled =>
    obtain ⟨server, hserver⟩ := Option.ne_none_iff_exists'.mp (hserves (.inr hready.2))
    obtain ⟨left, hleft⟩ : ∃ left, server.mClients.filter (· ∉ gone) = left := ⟨_, rfl⟩
    have hreply := UmbilicalMonitor.pollFdPidClient_eq hserver gone polled hleft
    have harmed := hready.2
    cases polled with
    | true =>
      by_cases hempty : left = [] <;>
        simp [after, UmbilicalEvent.reply, hreply, UmbilicalMonitor.Watches, UmbilicalMonitor.clients,
          UmbilicalEvent.unwatches, hempty, harmed]
    | false =>
      simp [after, UmbilicalEvent.reply, hreply, UmbilicalMonitor.Watches, UmbilicalEvent.unwatches]
  | umbilical | eventPipe | timerUmbilical | completed =>
    exact hi.of_same (reply_sameClients lap s.monitor (by simp) (by simp))

namespace StopRun

variable {lap : LapTime} {mUmbilical_s : Nat} {s t : StopRun}

/-- A step of the sentry, or the exit of the umbilical process, leaves its loop alone. -/
structure Aside (lap : LapTime) (s t : StopRun) : Prop where
  umbilical : t.stream.umbilical = s.stream.umbilical
  unwatched : t.unwatched = s.unwatched
  stream : t.stream = s.stream ∨ ∃ event, s.stream.next lap event = some t.stream

theorem aside_of_move {phase : StopPhase} {event : Option StreamEvent} (h : s.move lap phase event = some t)
    (hevent : ∀ umbilical, event ≠ some (.umbilical umbilical)) : s.Aside lap t := by
  cases event with
  | none =>
    obtain rfl := Option.some.inj h
    exact ⟨rfl, rfl, .inl rfl⟩
  | some event =>
    obtain ⟨stream, hstream, rfl⟩ := Option.map_eq_some_iff.mp h
    refine ⟨?_, rfl, .inr ⟨event, hstream⟩⟩
    have hstream' := hstream
    unfold StreamRun.next at hstream'
    split_ifs at hstream'
    cases event with
    | umbilical event => exact absurd rfl (hevent event)
    | ping | close | shut | exit =>
      obtain rfl := Option.some.inj hstream'
      rfl

/-- The umbilical process takes a step, or it is left alone. -/
theorem umbilical_of_next {event : StopEvent} (h : s.next lap event = some t) :
    (∃ event, s.stream.next lap (.umbilical event) = some t.stream ∧
      t.unwatched = event.unwatches s.unwatched) ∨ s.Aside lap t := by
  unfold next at h
  split_ifs at h
  unfold step at h
  split at h
  · obtain ⟨stream, hstream, rfl⟩ := Option.map_eq_some_iff.mp h
    exact .inl ⟨_, hstream, rfl⟩
  · exact .inr (aside_of_move h nofun)
  · exact .inr (aside_of_move h nofun)
  · obtain rfl := Option.some.inj h
    exact .inr ⟨rfl, rfl, .inl rfl⟩
  · exact .inr (aside_of_move h nofun)
  · refine .inr (aside_of_move h fun umbilical => ?_)
    split_ifs <;> nofun
  · split_ifs at h
    · exact .inr (aside_of_move h nofun)
    · exact .inr (aside_of_move h nofun)
  · exact .inr (aside_of_move h nofun)
  · exact .inr (aside_of_move h nofun)
  · obtain rfl := Option.some.inj h
    exact .inr ⟨rfl, rfl, .inl rfl⟩
  · exact .inr (aside_of_move h nofun)
  · cases h

theorem stream_of_reachable (hs : (system lap mUmbilical_s).Reachable s) :
    (StreamRun.system lap mUmbilical_s).Reachable s.stream := by
  refine System.Reachable.project StopRun.stream ?_ ?_ hs
  · rintro s ⟨stream, hstream, rfl⟩
    exact hstream
  · intro s event t _ h
    rcases umbilical_of_next h with ⟨event, hstream, -⟩ | haside
    · exact .inr ⟨_, hstream⟩
    · exact haside.stream

theorem watches_of_reachable (hs : (system lap mUmbilical_s).Reachable s) :
    s.stream.umbilical.phase ≠ .failed → s.stream.umbilical.monitor.Watches s.unwatched := by
  refine System.Reachable.invariant (P := fun s => s.stream.umbilical.phase ≠ .failed →
    s.stream.umbilical.monitor.Watches s.unwatched) ?_ ?_ hs
  · rintro s ⟨stream, ⟨umbilical, ⟨sentryPid, pidServer, start, hempty, rfl⟩, rfl⟩, rfl⟩ -
    cases pidServer with
    | none => exact iff_of_false nofun fun h => h.1 rfl
    | some server => exact iff_of_false nofun fun h => h.1 (hempty server rfl)
  · intro s event t hs hi h hfailed
    rcases umbilical_of_next h with ⟨event, hstream, hunwatched⟩ | haside
    · have humbilical := StreamRun.umbilical_of_reachable (stream_of_reachable hs)
      unfold StreamRun.next at hstream
      split_ifs at hstream
      obtain ⟨umbilical, hnext, he⟩ := Option.map_eq_some_iff.mp hstream
      rw [← he] at hfailed ⊢
      have hbefore : s.stream.umbilical.phase ≠ .failed := by
        rcases StreamRun.runs_of_ready (UmbilicalRun.next_eq_some.mp hnext).1 with hp | hp <;> simp [hp]
      rw [hunwatched]
      have hserves := UmbilicalRun.serves_of_reachable humbilical
      exact UmbilicalRun.watches_of_next hserves (hi hbefore) hnext hfailed
    · rw [haside.umbilical] at hfailed ⊢
      rw [haside.unwatched]
      exact hi hfailed

theorem phase_of_move {phase : StopPhase} {event : Option StreamEvent}
    (h : s.move lap phase event = some t) : t.phase = phase := by
  cases event with
  | none =>
    obtain rfl := Option.some.inj h
    rfl
  | some event =>
    obtain ⟨stream, -, rfl⟩ := Option.map_eq_some_iff.mp h
    rfl

/-- The sentry comes to wait from the top of its loop, and by a step of its own. -/
theorem stream_of_comesToWait {event : StopEvent} (h : s.next lap event = some t)
    (hwait : s.ComesToWait t) : t.stream = s.stream := by
  obtain ⟨hbefore, hwaiting⟩ := hwait
  unfold next at h
  split_ifs at h with hp
  unfold step at h
  split at h
  · obtain ⟨stream, -, rfl⟩ := Option.map_eq_some_iff.mp h
    exact absurd hwaiting hbefore
  · exact absurd ((phase_of_move h).symm.trans hwaiting) hbefore
  · exact StopPhase.noConfusion ((phase_of_move h).symm.trans hwaiting)
  · obtain rfl := Option.some.inj h
    exact absurd hwaiting hbefore
  · exact StopPhase.noConfusion ((phase_of_move h).symm.trans hwaiting)
  · rename_i result _
    have he : StopPhase.send result = .waiting := (phase_of_move h).symm.trans hwaiting
    cases result <;> cases he
  · split_ifs at h
    · exact StopPhase.noConfusion ((phase_of_move h).symm.trans hwaiting)
    · exact StopPhase.noConfusion ((phase_of_move h).symm.trans hwaiting)
  · obtain rfl := Option.some.inj h
    rfl
  · rename_i result _
    have he : StopPhase.ready result = .waiting := (phase_of_move h).symm.trans hwaiting
    rcases result with _ | _ | _ <;> cases he
  · rename_i read _
    obtain rfl := Option.some.inj h
    have he : StopPhase.receive read = .waiting := hwaiting
    cases read <;> cases he
  · rename_i state _
    have he : StopPhase.wait state = .waiting := (phase_of_move h).symm.trans hwaiting
    cases state <;> cases he
  · cases h

theorem completion_iff_released (hs : (system lap mUmbilical_s).Reachable s) :
    s.stream.umbilical.monitor.pollFdCompletion ↔ s.Released := by
  have hstream := stream_of_reachable hs
  have hlistens := UmbilicalRun.listens_of_reachable (StreamRun.umbilical_of_reachable hstream)
  have hshut := (StreamRun.sound_of_reachable hstream).shutOnce
  constructor
  · intro hcompletion
    simp only [UmbilicalMonitor.pollFdCompletion, Bool.and_eq_true, Bool.not_eq_true'] at hcompletion
    obtain ⟨⟨hdisarmed, -⟩, hclient⟩ := hcompletion
    have hactive := (hlistens.closed hdisarmed).phase
    have hfailed : ¬ s.stream.Failed := by
      rcases hactive with he | he <;> simp [StreamRun.Failed, he]
    refine ⟨fun hopen => ?_, hfailed, ?_⟩
    · rw [hshut.opened hopen] at hdisarmed
      cases hdisarmed
    · by_contra hwatched
      rw [not_or, Bool.not_eq_true] at hwatched
      have harmed := (watches_of_reachable hs fun he => hfailed (.inl he)).mpr hwatched
      rw [hclient] at harmed
      cases harmed
  · rintro ⟨hshutdowns, hfailed, hclients⟩
    have hdisarmed : s.stream.umbilical.monitor.mFds.umbilical.armed = false :=
      Bool.eq_false_iff.mpr fun harmed => hshutdowns ((hshut.armed_iff fun he => hfailed (.inr he)).mp harmed)
    have hclient : s.stream.umbilical.monitor.mFds.pidClient.armed = false := by
      refine Bool.eq_false_iff.mpr fun harmed => ?_
      obtain ⟨hconnected, hwatched⟩ := (watches_of_reachable hs fun he => hfailed (.inl he)).mp harmed
      rcases hclients with he | he
      · exact hconnected he
      · rw [hwatched] at he
        cases he
    simp [UmbilicalMonitor.pollFdCompletion, hdisarmed, (hlistens.closed hdisarmed).listen, hclient]

/-- The sentry waits briefly exactly when by the time it comes to wait the umbilical
process has shut down its end and has no client. -/
theorem waits_briefly_iff (lap : LapTime) (mUmbilical_s : Nat) {s : StopRun}
    (hs : Start mUmbilical_s s) {run : List (StopEvent × StopRun)}
    (hr : (system lap mUmbilical_s).IsRun s run) :
    System.Throughout WaitsBriefly s run ↔ System.Throughout WaitsReleased s run := by
  refine System.IsRun.throughout_iff (fun s event t hs hstep => ?_) (.of_init hs) hr
  refine imp_congr_right fun hwait => ?_
  rw [stream_of_comesToWait hstep hwait]
  exact completion_iff_released hs

/-- A client is served before the sentry stops the umbilical, which closes its
end for the sentry and goes on serving the client. -/
theorem waits_on_client :
    ¬ ∀ (lap : LapTime) (mUmbilical_s : Nat) (s : StopRun) (run : List (StopEvent × StopRun)),
      Start mUmbilical_s s → (system lap mUmbilical_s).IsRun s run →
      System.Throughout WaitsBriefly s run := by
  intro h
  let start : StopRun := ⟨.enter (.enter 30 2 (some ⟨5, 6, ⟨7, [1]⟩, []⟩) 0), 0, .monitoring, false⟩
  let run := System.run (next .monotonic) start
    [.ping, .umbilical (.umbilical (.byte 46) true true 0),
      .umbilical (.pidServer 1000 ⟨true, true, true⟩
        ⟨1000, [7, 0, 0, 0, 1, 0, 0, 0, 0, 0, 0, 0, 1], true⟩ 9),
      .stop, .send .sent, .shutdown true, .umbilical (.umbilical (.byte 0) true true 0),
      .umbilical (.umbilical .eof true true 0), .deadline false false, .ready (some true),
      .receive .eof, .deadline false false]
  have hh := h .monotonic 30 start run
    ⟨_, ⟨_, ⟨2, some ⟨5, 6, ⟨7, [1]⟩, []⟩, 0, by simp, rfl⟩, rfl⟩, rfl⟩ (System.isRun_run _ _ _ _)
  have hwaits : ¬ System.Throughout WaitsBriefly start run := by decide
  exact hwaits hh

/-- A client is served and leaves before the sentry stops the umbilical. -/
theorem waits_briefly_served :
    let s : StopRun := ⟨.enter (.enter 30 2 (some ⟨5, 6, ⟨7, [1]⟩, []⟩) 0), 0, .monitoring, false⟩
    let run := System.run (next .monotonic) s
      [.ping, .umbilical (.umbilical (.byte 46) true true 0), .umbilical (.eventPipe false .written),
        .umbilical (.pidServer 1000 ⟨true, true, true⟩
          ⟨1000, [7, 0, 0, 0, 1, 0, 0, 0, 0, 0, 0, 0, 1], true⟩ 9),
        .stop, .send .sent, .shutdown true, .deadline false false, .ready (some true),
        .receive (.byte 46), .umbilical (.umbilical (.byte 0) true true 0),
        .umbilical (.pidClient [⟨9, 1000⟩] true), .umbilical (.umbilical .eof true true 0),
        .deadline false false, .ready (some true), .receive .eof, .deadline false false]
    run.length = 17 ∧ (System.last s run).phase = .waiting ∧ System.Throughout WaitsBriefly s run := by
  intro s run
  have hs : Start 30 s := ⟨_, ⟨_, ⟨2, some ⟨5, 6, ⟨7, [1]⟩, []⟩, 0, by simp, rfl⟩, rfl⟩, rfl⟩
  have hwaits := waits_briefly_iff .monotonic 30 hs (System.isRun_run _ _ _ _ : (system _ _).IsRun s run)
  exact ⟨by decide, by decide, hwaits.mpr (by decide)⟩

end StopRun

end PidSentry
