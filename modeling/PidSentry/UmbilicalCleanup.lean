import PidSentry.UmbilicalStream

/-! What decides whether the umbilical process spares the sentry, and what is left for it to
do once the sentry's end of the umbilical is shut down. -/

namespace PidSentry

open UmbilicalMonitor

/-- A byte that is expected, with its echo posted, leaves alone what the loop polls. -/
theorem UmbilicalMonitor.pollFdMessage_posted (lap : LapTime) {self : UmbilicalMonitor}
    (hclosed : self.mUmbilical.mClosed = false) (value : UInt8) (aPollTime : Int) :
    ∃ m, self.pollFdMessage lap value true aPollTime = .ok m ∧ m.mFds = self.mFds ∧
      m.mPidServer = self.mPidServer := by
  simp only [pollFdMessage, hclosed, Bool.false_eq_true, if_false, if_true]
  split_ifs
  · exact ⟨_, rfl, rfl, rfl⟩
  · exact ⟨_, rfl, rfl, rfl⟩

namespace StreamRun

variable {lap : LapTime} {mUmbilical_s : Nat} {s t : StreamRun}

theorem next_umbilical (lap : LapTime) {event : UmbilicalEvent} (hp : s.Permits (.umbilical event))
    (h : event.Ready s.umbilical) :
    s.next lap (.umbilical event) = some (s.read event (s.umbilical.after lap event)) := by
  have hnext : s.umbilical.next lap event = some (s.umbilical.after lap event) :=
    UmbilicalRun.next_eq_some.mpr ⟨h, rfl⟩
  rw [next, if_pos hp]
  exact congrArg (Option.map (s.read event)) hnext

/-- The zero byte by which the sentry closes the umbilical has been read, or can be. -/
def Orderly (s : StreamRun) : Prop := s.zeroRead = true ∨ s.shutdowns = [] ∧ 0 ∈ s.unread

/-- The umbilical is shut down with the zero byte unread. -/
def Loses (s : StreamRun) : StreamEvent → Prop
  | .umbilical event => event.closes s.umbilical.monitor = true ∧ 0 ∈ s.unread
  | _ => False

/-- Once the sentry is done writing, only shutting down the umbilical makes a difference to
whether its request is heard. -/
theorem Sound.orderly_of_next (hi : s.Sound) (hfinished : s.finished = true) {event : StreamEvent}
    (h : s.next lap event = some t) : t.finished = true ∧ (t.Orderly ↔ s.Orderly ∧ ¬ s.Loses event) := by
  unfold next at h
  split_ifs at h with hp
  cases event with
  | ping | close =>
    have hp : s.finished = false := hp
    rw [hfinished] at hp
    cases hp
  | shut =>
    obtain rfl := Option.some.inj h
    exact ⟨rfl, by simp [Orderly, Loses]⟩
  | exit killed =>
    obtain rfl := Option.some.inj h
    exact ⟨hfinished, by simp [Orderly, Loses]⟩
  | umbilical event =>
    obtain ⟨umbilical, humbilical, rfl⟩ := Option.map_eq_some_iff.mp h
    refine ⟨hfinished, ?_⟩
    by_cases hreads : event.reads = 0
    · have hzero := readsZero_of_reads hreads
      cases hcloses : event.closes s.umbilical.monitor with
      | true =>
        have hlast : s.zeroRead = true → 0 ∉ s.unread := fun hread => by simp [(hi.ordered.last hread).1]
        simp only [Orderly, Loses, read, hreads, hzero, hcloses, Bool.or_false, if_true, List.append_eq_nil_iff,
          List.cons_ne_nil, and_false, false_and, or_false, true_and]
        constructor
        · intro hread
          exact ⟨.inl hread, hlast hread⟩
        · rintro ⟨horderly, hunread⟩
          exact horderly.resolve_right fun h => hunread h.2
      | false => simp [Orderly, Loses, read, hreads, hzero, hcloses]
    · obtain ⟨value, shutdown, latched, pollTime, rfl⟩ := UmbilicalEvent.byte_of_reads hreads
      obtain ⟨hready, -⟩ := UmbilicalRun.next_eq_some.mp humbilical
      have hopen := (hi.shutOnce.armed_iff (unended_of_ready hready).2).mp hready.2
      obtain ⟨rest, hunread⟩ : ∃ rest, s.unread = value :: rest := List.head?_eq_some_iff.mp hp
      simp [Orderly, Loses, read, readsZero, UmbilicalEvent.closes, UmbilicalEvent.reads, hunread, hopen,
        @eq_comm _ 0 value, or_assoc]

/-- From when the sentry is done writing, whether it is spared depends on nothing but its
request and what shuts down the umbilical. -/
theorem killSentry_spares_iff (hs : (system lap mUmbilical_s).Reachable s) (hfinished : s.finished = true)
    {run : List (StreamEvent × StreamRun)} (hr : (system lap mUmbilical_s).IsRun s run)
    (hexited : (System.last s run).exited = true) : .sentry ∉ (System.last s run).killed ↔
      s.Orderly ∧ System.Throughout (fun s event _ => ¬ s.Loses event) s run := by
  have horderly := System.IsRun.last_iff (I := Orderly) (J := fun s => s.finished = true)
    (C := fun s event _ => ¬ s.Loses event)
    (fun s event t hs hj hstep => (sound_of_reachable hs).orderly_of_next hj hstep) hs hfinished hr
  have hlast := sound_of_reachable (hr.last_of_step (I := (system lap mUmbilical_s).Reachable)
    (fun _ _ _ hi hstep => hi.tail hstep) hs)
  have hshutdowns := hlast.shutOnce.shutdowns_of_killing (hlast.killed.phase hexited)
  rw [← horderly, hlast.killed.sentry]
  simp [Orderly, hexited, hshutdowns]

/-- The sentry asks to close the umbilical before the umbilical process has read anything. -/
def requested : List StreamEvent := [.ping, .close]

theorem killSentry_spares_iff_requested : ∃ s,
    requested.foldlM (next .monotonic) (enter (.enter 30 1 none 0)) = some s ∧ .sentry ∉ (System.last s
      (System.run (next .monotonic) s [.umbilical (.umbilical (.byte 46) true true 1), .shut,
        .umbilical (.umbilical (.byte 0) true true 2), .umbilical (.umbilical .eof true true 3),
        .umbilical .completed, .exit true])).killed := by
  have hreachable : (system .monotonic 30).Reachable _ :=
    .of_foldlM (.of_init ⟨_, ⟨1, none, 0, nofun, rfl⟩, rfl⟩) requested rfl
  exact ⟨_, rfl, (killSentry_spares_iff hreachable rfl (System.isRun_run _ _ _ _) rfl).mpr
    ⟨.inr ⟨rfl, by decide⟩, nofun, id, nofun, fun h => List.not_mem_nil h.2, nofun, id, trivial⟩⟩

/-- The bytes still to be read, and the end of the stream after them. -/
def drain (s : StreamRun) (aPollTime : Int) : List StreamEvent :=
  if s.umbilical.monitor.mFds.umbilical.armed then
    s.unread.map (fun value => .umbilical (.umbilical (.byte value) true true aPollTime)) ++
      [.umbilical (.umbilical .eof true true aPollTime)]
  else []

/-- The clients that are there hang up. -/
def hangUps (s : StreamRun) : List StreamEvent :=
  if s.umbilical.monitor.mFds.pidClient.armed then [.umbilical (.pidClient s.umbilical.monitor.clients true)]
  else []

/-- What is left for the umbilical process to do, with each of its system calls a success. -/
def cleanup (s : StreamRun) (aPollTime : Int) : List StreamEvent :=
  if s.umbilical.phase = .killing then [.exit true]
  else s.drain aPollTime ++ s.hangUps ++ [.umbilical .completed, .exit true]

def Runs (s : StreamRun) : Prop := s.umbilical.phase = .synchronising ∨ s.umbilical.phase = .looping

theorem Runs.unaborted (h : s.Runs) : s.umbilical.phase ≠ .aborted := by
  rcases h with he | he <;> simp [he]

/-- Nothing but the stream has changed, and the process runs. -/
structure Reads (s t : StreamRun) : Prop where
  shut : t.shut = s.shut
  exited : t.exited = s.exited
  server : t.umbilical.monitor.mPidServer = s.umbilical.monitor.mPidServer
  client : t.umbilical.monitor.mFds.pidClient = s.umbilical.monitor.mFds.pidClient
  runs : t.Runs

theorem Reads.trans {u : StreamRun} (h : s.Reads t) (h' : t.Reads u) : s.Reads u :=
  ⟨h'.shut.trans h.shut, h'.exited.trans h.exited, h'.server.trans h.server, h'.client.trans h.client, h'.runs⟩

theorem next_byte (lap : LapTime) (hi : s.Sound) (hruns : s.Runs)
    (harmed : s.umbilical.monitor.mFds.umbilical.armed = true) {value : UInt8} {rest : List UInt8}
    (hunread : s.unread = value :: rest) (aPollTime : Int) :
    ∃ t, s.next lap (.umbilical (.umbilical (.byte value) true true aPollTime)) = some t ∧ s.Reads t ∧
      t.umbilical.monitor.mFds.umbilical.armed = true ∧ t.unread = rest ∧
      (t.zeroRead = true ↔ s.zeroRead = true ∨ value = 0) := by
  have hclosed : s.umbilical.monitor.mUmbilical.mClosed = false :=
    hi.ordered.closed.trans (hi.ordered.cons hunread).1
  have hready : (UmbilicalEvent.umbilical (.byte value) true true aPollTime).Ready s.umbilical :=
    ⟨hruns, harmed⟩
  have hpermits : s.Permits (.umbilical (.umbilical (.byte value) true true aPollTime)) :=
    List.head?_eq_some_iff.mpr ⟨rest, hunread⟩
  obtain ⟨m, hreply, hfds, hserver⟩ := pollFdMessage_posted lap hclosed value aPollTime
  have hafter : s.umbilical.after lap (.umbilical (.byte value) true true aPollTime) = ⟨m, .looping⟩ := by
    simp [UmbilicalRun.after, UmbilicalEvent.reply, pollFdUmbilical, hreply]
  have hstep := next_umbilical lap hpermits hready
  rw [hafter] at hstep
  refine ⟨_, hstep, ⟨rfl, rfl, hserver, congrArg PollFds.pidClient hfds, .inr rfl⟩,
    (congrArg (fun fds => fds.umbilical.armed) hfds).trans harmed, ?_, ?_⟩
  · simp [read, hunread, UmbilicalEvent.reads]
  · simp [read, readsZero]

/-- Everything that has been written is read. -/
theorem drain_unread (hs : (system lap mUmbilical_s).Reachable s) (hruns : s.Runs)
    (harmed : s.umbilical.monitor.mFds.umbilical.armed = true) (aPollTime : Int) :
    ∃ t, (s.unread.map fun value => StreamEvent.umbilical
        (.umbilical (.byte value) true true aPollTime)).foldlM (next lap) s = some t ∧ s.Reads t ∧
      t.umbilical.monitor.mFds.umbilical.armed = true ∧ t.unread = [] ∧
      (t.zeroRead = true ↔ s.zeroRead = true ∨ 0 ∈ s.unread) := by
  induction hunread : s.unread generalizing s with
  | nil => exact ⟨s, rfl, ⟨rfl, rfl, rfl, rfl, hruns⟩, harmed, hunread, by simp⟩
  | cons value rest ih =>
    obtain ⟨u, hu, hreads, harmed', hrest, hzero⟩ :=
      next_byte lap (sound_of_reachable hs) hruns harmed hunread aPollTime
    obtain ⟨t, ht, hreads', harmed'', hempty, hzero'⟩ := ih (hs.tail hu) hreads.runs harmed' hrest
    refine ⟨t, ?_, hreads.trans hreads', harmed'', hempty, ?_⟩
    · rw [List.map_cons, List.foldlM_cons, hu]
      exact ht
    · rw [hzero', hzero, List.mem_cons, or_assoc, @eq_comm _ value]

theorem next_eof (lap : LapTime) (hruns : s.Runs) (harmed : s.umbilical.monitor.mFds.umbilical.armed = true)
    (hunread : s.unread = []) (hshut : s.shut = true) (aPollTime : Int) :
    ∃ t, s.next lap (.umbilical (.umbilical .eof true true aPollTime)) = some t ∧ s.Reads t ∧
      t.umbilical.monitor.mFds.umbilical.armed = false ∧ t.zeroRead = s.zeroRead := by
  have hready : (UmbilicalEvent.umbilical .eof true true aPollTime).Ready s.umbilical := ⟨hruns, harmed⟩
  exact ⟨_, next_umbilical lap ⟨hunread, hshut⟩ hready, ⟨rfl, rfl, rfl, rfl, .inr rfl⟩, rfl, Bool.or_false _⟩

/-- The umbilical is closed, whether or not it was open. -/
theorem drain_closes (hs : (system lap mUmbilical_s).Reachable s) (hruns : s.Runs) (hshut : s.shut = true)
    (aPollTime : Int) : ∃ t, (s.drain aPollTime).foldlM (next lap) s = some t ∧ s.Reads t ∧
      t.umbilical.monitor.mFds.umbilical.armed = false ∧ (t.zeroRead = true ↔ s.Orderly) := by
  have hopen := (sound_of_reachable hs).shutOnce.armed_iff hruns.unaborted
  cases harmed : s.umbilical.monitor.mFds.umbilical.armed with
  | true =>
    obtain ⟨t, ht, hreads, harmed', hempty, hzero⟩ := drain_unread hs hruns harmed aPollTime
    obtain ⟨u, hu, hreads', hdisarmed, hzero'⟩ :=
      next_eof lap hreads.runs harmed' hempty (hreads.shut.trans hshut) aPollTime
    refine ⟨u, ?_, hreads.trans hreads', hdisarmed, ?_⟩
    · rw [drain, if_pos harmed, List.foldlM_append, ht]
      simp [hu]
    · rw [hzero', hzero]
      simp [Orderly, hopen.mp harmed]
  | false =>
    have hshutdowns : s.shutdowns ≠ [] := fun he => by simp [hopen.mpr he] at harmed
    exact ⟨s, by simp [drain, harmed], ⟨rfl, rfl, rfl, rfl, hruns⟩, harmed, by simp [Orderly, hshutdowns]⟩

/-- Once its clients have hung up, the loop is complete. -/
theorem hangUps_completes (hs : (system lap mUmbilical_s).Reachable s) (hphase : s.umbilical.phase = .looping)
    (hdisarmed : s.umbilical.monitor.mFds.umbilical.armed = false) :
    ∃ t, s.hangUps.foldlM (next lap) s = some t ∧ t.umbilical.phase = .looping ∧
      t.umbilical.monitor.pollFdCompletion = true ∧ t.exited = s.exited ∧ t.zeroRead = s.zeroRead := by
  have humbilical := umbilical_of_reachable hs
  have hlisten := ((UmbilicalRun.listens_of_reachable humbilical).closed hdisarmed).listen
  cases harmed : s.umbilical.monitor.mFds.pidClient.armed with
  | true =>
    obtain ⟨server, hserver⟩ := Option.ne_none_iff_exists'.mp
      (UmbilicalRun.serves_of_reachable humbilical (.inr harmed))
    have hclients : s.umbilical.monitor.clients = server.mClients := by simp [clients, hserver]
    have hgone : server.mClients.filter (· ∉ s.umbilical.monitor.clients) = [] := by simp [hclients]
    have hready : (UmbilicalEvent.pidClient s.umbilical.monitor.clients true).Ready s.umbilical :=
      ⟨hphase, harmed⟩
    have hpermits : s.Permits (.umbilical (.pidClient s.umbilical.monitor.clients true)) := trivial
    have hstep := next_umbilical lap hpermits hready
    have hreply := pollFdPidClient_eq hserver s.umbilical.monitor.clients true hgone
    have hrun : s.hangUps.foldlM (next lap) s = some (s.read (.pidClient s.umbilical.monitor.clients true)
        (s.umbilical.after lap (.pidClient s.umbilical.monitor.clients true))) := by
      rw [hangUps, if_pos harmed, List.foldlM_cons, hstep]
      rfl
    refine ⟨_, hrun, ?_, ?_, rfl, Bool.or_false _⟩
    · simp [read, UmbilicalRun.after, UmbilicalEvent.reply, hreply]
    · simp [read, UmbilicalRun.after, UmbilicalEvent.reply, hreply, pollFdCompletion, hdisarmed, hlisten]
  | false =>
    refine ⟨s, by simp [hangUps, harmed], hphase, ?_, rfl, rfl⟩
    simp [pollFdCompletion, hdisarmed, hlisten, harmed]

theorem next_exit (hs : (system lap mUmbilical_s).Reachable s) (hphase : s.umbilical.phase = .killing)
    (hexited : s.exited = false) : ∃ t, s.next lap (.exit true) = some t ∧ t.exited = true ∧
      .child ∈ t.killed ∧ (.sentry ∈ t.killed ↔ s.zeroRead = false) := by
  have hstep : s.next lap (.exit true) = some _ := if_pos ⟨hphase, hexited, rfl⟩
  refine ⟨_, hstep, rfl, ?_, ?_⟩
  · simp only [killGroups, if_true]
    split_ifs <;> exact List.mem_cons_self
  · rw [← (sound_of_reachable hs).ordered.closed]
    cases hclosed : s.umbilical.monitor.mUmbilical.mClosed <;> simp [killGroups, hclosed]

/-- Once the sentry's end of the umbilical is shut down, the umbilical process can get to its
end: it kills the child process group, and the sentry too unless its request is heard. -/
theorem cleanup_kills (hs : (system lap mUmbilical_s).Reachable s) (hshut : s.shut = true)
    (hexited : s.exited = false) (hfailed : s.umbilical.phase ≠ .failed)
    (haborted : s.umbilical.phase ≠ .aborted) (aPollTime : Int) : (s.cleanup aPollTime).length ≤ s.unread.length + 4 ∧
      ∃ t, (s.cleanup aPollTime).foldlM (next lap) s = some t ∧ t.exited = true ∧ .child ∈ t.killed ∧
        (.sentry ∈ t.killed ↔ ¬ s.Orderly) := by
  by_cases hphase : s.umbilical.phase = .killing
  · obtain ⟨t, ht, hdone, hchild, hsentry⟩ := next_exit hs hphase hexited
    have hshutdowns := (sound_of_reachable hs).shutOnce.shutdowns_of_killing hphase
    simp only [cleanup, if_pos hphase]
    exact ⟨by simp, t, by simp [ht], hdone, hchild, by simpa [Orderly, hshutdowns] using hsentry⟩
  · have hruns : s.Runs := by
      unfold Runs
      cases he : s.umbilical.phase with
      | synchronising => exact .inl rfl
      | looping => exact .inr rfl
      | killing => exact absurd he hphase
      | failed => exact absurd he hfailed
      | aborted => exact absurd he haborted
    obtain ⟨t, ht, hreads, hdisarmed, hzero⟩ := drain_closes hs hruns hshut aPollTime
    have hreachable := System.Reachable.of_foldlM hs _ ht
    have hlooping : t.umbilical.phase = .looping := by
      refine hreads.runs.resolve_left fun he => ?_
      have harmed := (UmbilicalRun.listens_of_reachable (umbilical_of_reachable hreachable)).waits he
      rw [hdisarmed] at harmed
      cases harmed
    have hhangUps : s.hangUps = t.hangUps := by
      simp only [hangUps, clients, hreads.client, hreads.server]
    obtain ⟨u, hu, hphase', hcompletion, hexited', hzero'⟩ := hangUps_completes hreachable hlooping hdisarmed
    have hreachable' := System.Reachable.of_foldlM hreachable _ hu
    have hready : UmbilicalEvent.completed.Ready u.umbilical := ⟨hphase', hcompletion⟩
    have hpermits : u.Permits (.umbilical .completed) := trivial
    have hcompleted := next_umbilical lap hpermits hready
    have hunended : (u.read .completed (u.umbilical.after lap .completed)).zeroRead = t.zeroRead :=
      (Bool.or_false _).trans hzero'
    obtain ⟨v, hv, hdone, hchild, hsentry⟩ := next_exit (hreachable'.tail hcompleted) rfl
      (hexited'.trans (hreads.exited.trans hexited))
    simp only [cleanup, if_neg hphase]
    refine ⟨?_, v, ?_, hdone, hchild, hsentry.trans ?_⟩
    · simp only [drain, hangUps]
      split_ifs <;> simp
    · rw [List.foldlM_append, List.foldlM_append, ht, hhangUps]
      simp [hu, hcompleted, hv]
    · rw [hunended, ← Bool.not_eq_true, hzero]

/-- The sentry writes two bytes and is killed before the umbilical process reads the first. -/
def unheeded : List StreamEvent := [.ping, .ping, .shut]

theorem cleanup_kills_unheeded : ∃ s t,
    unheeded.foldlM (next .monotonic) (enter (.enter 30 1 none 0)) = some s ∧
    (s.cleanup 5).foldlM (next .monotonic) s = some t ∧ .child ∈ t.killed ∧ .sentry ∈ t.killed := by
  have hreachable : (system .monotonic 30).Reachable _ :=
    .of_foldlM (.of_init ⟨_, ⟨1, none, 0, nofun, rfl⟩, rfl⟩) unheeded rfl
  obtain ⟨-, t, ht, -, hchild, hsentry⟩ := cleanup_kills hreachable rfl rfl nofun nofun 5
  refine ⟨_, t, rfl, ht, hchild, hsentry.mpr ?_⟩
  rintro (hread | ⟨-, hunread⟩)
  · cases hread
  · revert hunread
    decide

end StreamRun

end PidSentry
