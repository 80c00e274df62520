import PidSentry.TetherPoll

/-! Both ways of draining the tether give the destination what was written, in
order, and a loop that ends by itself has given it all. -/

namespace PidSentry

namespace TetherPoll

/-- What the thread waits for: input when it has none, else the destination,
which it asks for only with something to give or at the end of the input. -/
inductive Shaped (m : TetherPoll) (unread : List UInt8) (closed : Bool) : Prop
  | filling (buffered : m.mBuffered = [])
      (input : m.mPollFds.input = .input) (output : m.mPollFds.output = .disconnect)
  | writing (copies : m.mBuf = true) (buffered : m.mBuffered ≠ [])
      (input : m.mPollFds.input = .disconnect) (output : m.mPollFds.output = .output)
  | splicing (splices : m.mBuf = false) (buffered : m.mBuffered = [])
      (input : m.mPollFds.input = .disconnect) (output : m.mPollFds.output = .output)
      (more : unread ≠ [] ∨ closed = true)

theorem Shaped.buffered_of_splices {m : TetherPoll} {unread : List UInt8} {closed : Bool}
    (h : m.Shaped unread closed) (hb : m.mBuf = false) : m.mBuffered = [] := by
  cases h with
  | filling buffered _ _ => exact buffered
  | writing copies _ _ _ => simp [hb] at copies
  | splicing _ buffered _ _ _ => exact buffered

theorem Shaped.congr {m m' : TetherPoll} {unread : List UInt8} {closed : Bool}
    (h : m.Shaped unread closed) (hmode : m'.mBuf = m.mBuf) (hbuffer : m'.mBuffered = m.mBuffered)
    (hinput : m'.mPollFds.input = m.mPollFds.input)
    (houtput : m'.mPollFds.output = m.mPollFds.output) : m'.Shaped unread closed := by
  cases h with
  | filling buffered input output =>
    exact .filling (hbuffer.trans buffered) (hinput.trans input) (houtput.trans output)
  | writing copies buffered input output =>
    exact .writing (hmode.trans copies) (hbuffer ▸ buffered) (hinput.trans input)
      (houtput.trans output)
  | splicing splices buffered input output more =>
    exact .splicing (hmode.trans splices) (hbuffer.trans buffered) (hinput.trans input)
      (houtput.trans output) more

theorem Shaped.mono {m : TetherPoll} {unread more : List UInt8} {closed : Bool}
    (h : m.Shaped unread closed) (hm : unread ≠ [] → more ≠ []) (last : Bool)
    (hl : closed = true → last = true) : m.Shaped more last := by
  cases h with
  | filling buffered input output => exact .filling buffered input output
  | writing copies buffered input output => exact .writing copies buffered input output
  | splicing splices buffered input output left =>
    exact .splicing splices buffered input output (left.imp hm hl)

/-- A drain callback moves bytes on without loss, and returns that there is
nothing left only when that is so, unless the destination turns out closed. -/
structure Drains (m : TetherPoll) (unread : List UInt8) (closed : Bool) (d : Drained) :
    Prop where
  mode : d.self.mBuf = m.mBuf
  control : d.self.mPollFds.control = m.mPollFds.control
  conserve : d.put ++ (d.self.mBuffered ++ unread.drop d.taken) = m.mBuffered ++ unread
  shape : d.rc ≠ -1 → d.self.Shaped (unread.drop d.taken) closed
  empty : d.rc ≠ 0 → d.rc ≠ -1 → d.broken = false → m.mBuffered ++ unread = []

theorem Drains.unmoved {m : TetherPoll} {unread : List UInt8} {closed : Bool}
    (hs : m.Shaped unread closed) {rc : Int} {broken : Bool}
    (h : rc ≠ 0 → rc ≠ -1 → broken = false → m.mBuffered ++ unread = []) :
    m.Drains unread closed ⟨m, rc, 0, [], broken⟩ :=
  ⟨rfl, rfl, rfl, fun _ => hs, h⟩

theorem pollFdDrainCopy_drains {self : TetherPoll} {unread : List UInt8} {closed : Bool}
    {calls : TetherCalls} (hs : self.Shaped unread closed) (hb : self.mBuf = true)
    (heof : calls.read = .bytes 0 → unread = []) :
    self.Drains unread closed (self.pollFdDrainCopy unread calls) := by
  unfold pollFdDrainCopy
  by_cases hempty : self.mBuffered = []
  · rw [if_pos hempty]
    by_cases hioctl : calls.ioctl = false
    · rw [if_pos hioctl]
      exact .unmoved hs (by simp)
    by_cases havailable : unread.length = 0
    · rw [if_neg hioctl, if_pos havailable]
      exact .unmoved hs fun _ _ _ => by
        rw [hempty, List.length_eq_zero_iff.mp havailable]; rfl
    rw [if_neg hioctl, if_neg havailable]
    have hne : unread ≠ [] := fun h => havailable (h ▸ rfl)
    cases hread : calls.read with
    | bytes rdSize =>
      have hpos : rdSize ≠ 0 := fun h => hne (heof (h ▸ hread))
      dsimp only
      rw [if_neg hpos]
      have htake : unread.take rdSize ≠ [] := by simp [hne, hpos]
      refine ⟨rfl, rfl, ?_, fun _ => .writing hb htake rfl rfl, by simp⟩
      simp [hempty]
    | epipe | eintr | ewouldblock | failed => exact .unmoved hs (by simp)
  · rw [if_neg hempty]
    cases calls.write with
    | bytes wrSize =>
      dsimp only
      by_cases hpos : wrSize = 0
      · rw [if_pos hpos]
        exact .unmoved hs (by simp)
      rw [if_neg hpos]
      have hsplit : self.mBuffered.take wrSize ++ (self.mBuffered.drop wrSize ++ unread) =
          self.mBuffered ++ unread := by
        rw [← List.append_assoc, List.take_append_drop]
      split_ifs with hall
      · exact ⟨rfl, rfl, hsplit, fun _ => .filling hall rfl rfl, by simp⟩
      · have hshape : self.mPollFds.input = .disconnect ∧ self.mPollFds.output = .output := by
          cases hs with
          | filling buffered _ _ => exact absurd buffered hempty
          | writing _ _ input output => exact ⟨input, output⟩
          | splicing _ _ input output _ => exact ⟨input, output⟩
        exact ⟨rfl, rfl, hsplit, fun _ => .writing hb hall hshape.1 hshape.2, by simp⟩
    | epipe | eintr | ewouldblock | failed => exact .unmoved hs (by simp)

theorem pollFdDrainSplice_drains {self : TetherPoll} {unread : List UInt8} {closed : Bool}
    (calls : TetherCalls) (hs : self.Shaped unread closed) (hb : self.mBuf = false) :
    self.Drains unread closed (self.pollFdDrainSplice unread closed calls) := by
  have hempty := hs.buffered_of_splices hb
  unfold pollFdDrainSplice
  by_cases hioctl : calls.ioctl = false
  · rw [if_pos hioctl]
    exact .unmoved hs (by simp)
  by_cases havailable : unread.length = 0
  · rw [if_neg hioctl, if_pos havailable]
    exact .unmoved hs fun _ _ _ => by
      rw [hempty, List.length_eq_zero_iff.mp havailable]; rfl
  rw [if_neg hioctl, if_neg havailable]
  cases calls.splice with
  | bytes splicedBytes =>
    dsimp only
    by_cases hpos : splicedBytes = 0
    · rw [if_pos hpos]
      exact .unmoved hs (by simp)
    rw [if_neg hpos]
    have hsplit : unread.take splicedBytes ++ (self.mBuffered ++ unread.drop splicedBytes) =
        self.mBuffered ++ unread := by
      rw [hempty, List.nil_append, List.take_append_drop, List.nil_append]
    split_ifs with hwait hready
    · exact ⟨rfl, rfl, hsplit, fun h => absurd rfl h, by simp⟩
    · exact ⟨rfl, rfl, hsplit, fun _ => .splicing hb hempty rfl rfl hready, by simp⟩
    · exact ⟨rfl, rfl, hsplit, fun _ => .filling hempty rfl rfl, by simp⟩
  | epipe | eintr | ewouldblock | failed => exact .unmoved hs (by simp)

/-- Once the loop is complete a drain callback does nothing; before that it may
complete the loop, when its copying says so. -/
theorem pollFdDrain_cases {self : TetherPoll} {unread : List UInt8} {closed : Bool}
    {calls : TetherCalls} (hs : self.Shaped unread closed)
    (heof : calls.read = .bytes 0 → unread = []) (now : Int) :
    (self.pollFdCompletion = true ∧
        self.pollFdDrain unread closed calls now = ⟨self, 0, 0, [], false⟩) ∨
      (self.pollFdCompletion = false ∧ ∃ d, self.Drains unread closed d ∧
        self.pollFdDrain unread closed calls now =
          if d.rc = -1 then d
          else if d.rc ≠ 0 then { d with self.mPollFds.control := .none, rc := 0 }
          else d) := by
  unfold pollFdDrain pollFdCompletion
  by_cases hcontrol : self.mPollFds.control = .none
  · exact .inl ⟨by simp [hcontrol], by simp [hcontrol]⟩
  · refine .inr ⟨by simp [hcontrol], ?_⟩
    rw [if_pos hcontrol]
    have hs' : { self with mSince := now }.Shaped unread closed := hs.congr rfl rfl rfl rfl
    dsimp only
    by_cases hb : self.mBuf = true
    · rw [if_pos hb]
      have hd := pollFdDrainCopy_drains hs' hb heof
      exact ⟨_, ⟨hd.mode, hd.control, hd.conserve, hd.shape, hd.empty⟩, rfl⟩
    · rw [if_neg hb]
      have hd := pollFdDrainSplice_drains calls hs' (Bool.eq_false_iff.mpr hb)
      exact ⟨_, ⟨hd.mode, hd.control, hd.conserve, hd.shape, hd.empty⟩, rfl⟩

end TetherPoll

namespace TetherRun

def remaining (s : TetherRun) : List UInt8 := s.poll.mBuffered ++ s.unread

/-- Nothing is lost between the tether and the destination; an entry found ready
has something to drain or stands for an end; and a loop that has drained the
tether has seen its end. -/
structure Faithful (s : TetherRun) : Prop where
  conserve : s.delivered ++ s.remaining = s.written
  shape : s.rc = .ok → s.poll.Shaped s.unread s.writersClosed
  input : s.cause = none → s.ready.input = true →
    s.writersClosed = true ∨ s.remaining ≠ [] ∨ s.disconnected = true
  output : s.cause = none → s.ready.output = true →
    s.writersClosed = true ∨ s.remaining ≠ [] ∨ s.asked = .disconnect
  both : s.cause = none → s.ready.input = true → s.ready.output = true →
    s.writersClosed = true ∨ s.asked = .disconnect
  complete : s.cause = none ↔ s.poll.pollFdCompletion = false
  drained : s.cause = some .drained → s.writersClosed = true ∧ s.remaining = []

theorem Start.faithful {useReadWrite : Bool} {s : TetherRun} (hs : Start useReadWrite s) :
    s.Faithful := by
  obtain ⟨since, rfl⟩ := hs
  exact ⟨rfl, fun _ => .filling rfl rfl rfl, nofun, nofun, nofun, by simp [enter,
    TetherPoll.create, TetherPoll.pollFdCompletion], nofun⟩

theorem Faithful.write {s : TetherRun} (hi : s.Faithful) (hopen : s.writersClosed = false)
    (bytes : List UInt8) :
    Faithful { s with written := s.written ++ bytes, unread := s.unread ++ bytes } := by
  have hmore : ∀ {rest : List UInt8}, rest ≠ [] → rest ++ bytes ≠ [] := by
    intro rest hne he
    exact hne (List.append_eq_nil_iff.mp he).1
  have hrem : ({ s with written := s.written ++ bytes, unread := s.unread ++ bytes } :
      TetherRun).remaining = s.remaining ++ bytes := by simp [remaining]
  refine ⟨?_, fun hrc => (hi.shape hrc).mono hmore _ id, ?_, ?_, hi.both, hi.complete, ?_⟩
  · rw [hrem, ← List.append_assoc]
    exact congrArg (· ++ bytes) hi.conserve
  · intro hc hr
    rw [hrem]
    exact (hi.input hc hr).imp id (Or.imp hmore id)
  · intro hc hr
    rw [hrem]
    exact (hi.output hc hr).imp id (Or.imp hmore id)
  · intro hc
    simp [(hi.drained hc).1] at hopen

theorem Faithful.closeWriters {s : TetherRun} (hi : s.Faithful) :
    Faithful { s with writersClosed := true } :=
  ⟨hi.conserve, fun hrc => (hi.shape hrc).mono id _ fun _ => rfl, fun _ _ => .inl rfl,
    fun _ _ => .inl rfl, fun _ _ _ => .inl rfl, hi.complete, fun hc => ⟨rfl, (hi.drained hc).2⟩⟩

/-- A poll reports an entry only with something to drain or at an end, and both
entries together only at an end. -/
theorem Faithful.poll {s : TetherRun} (hi : s.Faithful) (hok : s.rc = .ok) {ready : TetherReady}
    (hinput : ready.input = true → s.InputReady) : Faithful { s with
      ready := ready
      asked := s.poll.mPollFds.output
      disconnected := false } := by
  have hunread : s.unread ≠ [] → s.remaining ≠ [] := fun hne he =>
    hne (List.append_eq_nil_iff.mp he).2
  refine ⟨hi.conserve, hi.shape, ?_, ?_, ?_, hi.complete, hi.drained⟩
  · intro _ hr
    have hready := hinput hr
    unfold InputReady at hready
    split at hready
    · exact hready.symm.imp id fun hne => .inl (hunread hne)
    · exact .inl hready
    · exact hready.elim
    · exact hready.elim
  · intro _ _
    cases hi.shape hok with
    | filling _ _ output => exact .inr (.inr output)
    | writing _ buffered _ _ =>
      exact .inr (.inl fun he => buffered (List.append_eq_nil_iff.mp he).1)
    | splicing _ _ _ _ more => exact more.symm.imp id fun hne => .inl (hunread hne)
  · intro _ hri _
    have hready := hinput hri
    unfold InputReady at hready
    cases hi.shape hok with
    | filling _ _ output => exact .inr output
    | writing _ _ input _ | splicing _ _ input _ _ =>
      rw [input] at hready
      exact .inl hready

theorem Faithful.drain_on {s : TetherRun} (hi : s.Faithful) {entry : TetherEntry}
    {calls : TetherCalls} (now : Int) (mDrain_s : Nat) (hready : s.ready.has entry = true)
    (hopen : s.poll.pollFdCompletion = false) {d : Drained}
    (hd : s.poll.Drains s.unread s.writersClosed d)
    (he : s.poll.pollFdDrain s.unread s.writersClosed calls now = d) :
    (s.after mDrain_s (.drain entry calls now)).Faithful := by
  have hc : s.cause = none := hi.complete.mpr hopen
  have hcompletion : d.self.pollFdCompletion = false := by
    rw [TetherPoll.pollFdCompletion, hd.control]
    exact hopen
  have hcause : (s.after mDrain_s (.drain entry calls now)).cause = none := by
    simp only [after, he, drainCause, hopen, hcompletion, Bool.false_eq_true, if_false, hc]
  have hrem : d.put ++ (s.after mDrain_s (.drain entry calls now)).remaining = s.remaining := by
    simp only [after, he]
    exact hd.conserve
  refine ⟨?_, ?_, ?_, ?_, ?_, ?_, fun h => by simp [hcause] at h⟩
  · have hdelivered : (s.after mDrain_s (.drain entry calls now)).delivered =
        s.delivered ++ d.put := by simp only [after, he]
    rw [hdelivered, List.append_assoc, hrem]
    exact hi.conserve
  · intro hrc
    simp only [after, he] at hrc ⊢
    exact hd.shape fun hfail => by simp [hfail] at hrc
  · intro _ hri
    cases entry with
    | input => simp [after, TetherReady.without] at hri
    | output =>
      have hri' : s.ready.input = true := by simpa [after, TetherReady.without] using hri
      rcases hi.both hc hri' hready with hclosed | hasked
      · exact .inl hclosed
      · exact .inr (.inr (by simp [after, disconnects, hasked]))
  · intro _ hro
    cases entry with
    | input =>
      have hro' : s.ready.output = true := by simpa [after, TetherReady.without] using hro
      exact (hi.both hc hready hro').imp id .inr
    | output => simp [after, TetherReady.without] at hro
  · intro _ hri hro
    cases entry with
    | input => simp [after, TetherReady.without] at hri
    | output => simp [after, TetherReady.without] at hro
  · simp only [hcause, true_iff]
    simp only [after, he]
    exact hcompletion

/-- A drain callback that completes the loop, with no sign of a closed
destination, has found the end of the input. -/
theorem Faithful.drain_last {s : TetherRun} (hi : s.Faithful) {entry : TetherEntry}
    {calls : TetherCalls} (now : Int) (mDrain_s : Nat) (hready : s.ready.has entry = true)
    (hopen : s.poll.pollFdCompletion = false) {d : Drained}
    (hd : s.poll.Drains s.unread s.writersClosed d) (hfail : d.rc ≠ -1) (hlast : d.rc ≠ 0)
    (he : s.poll.pollFdDrain s.unread s.writersClosed calls now =
      { d with self.mPollFds.control := .none, rc := 0 }) :
    (s.after mDrain_s (.drain entry calls now)).Faithful := by
  have hc : s.cause = none := hi.complete.mpr hopen
  have hcause : (s.after mDrain_s (.drain entry calls now)).cause =
      if d.broken || s.disconnects entry then some .destination else some .drained := by
    simp only [after, he, drainCause, hopen, Bool.false_eq_true, if_false]
    exact if_pos rfl
  have hdone : (s.after mDrain_s (.drain entry calls now)).poll.pollFdCompletion = true := by
    simp only [after, he]
    rfl
  have hne : (s.after mDrain_s (.drain entry calls now)).cause ≠ none := by
    rw [hcause]
    split <;> nofun
  have hrem : d.put ++ (s.after mDrain_s (.drain entry calls now)).remaining = s.remaining := by
    simp only [after, he]
    exact hd.conserve
  refine ⟨?_, ?_, fun h => absurd h hne, fun h => absurd h hne, fun h => absurd h hne, ?_, ?_⟩
  · have hdelivered : (s.after mDrain_s (.drain entry calls now)).delivered =
        s.delivered ++ d.put := by simp only [after, he]
    rw [hdelivered, List.append_assoc, hrem]
    exact hi.conserve
  · intro _
    simp only [after, he]
    exact (hd.shape hfail).congr rfl rfl rfl rfl
  · simp only [hne, hdone, Bool.true_eq_false]
  · intro hdrained
    rw [hcause] at hdrained
    split at hdrained
    · cases hdrained
    · rename_i hn
      simp only [disconnects, Bool.or_eq_true, Bool.and_eq_true, beq_iff_eq, not_or] at hn
      obtain ⟨hbroken, hdisconnected, hasked⟩ := hn
      have hempty : s.remaining = [] := hd.empty hlast hfail (Bool.eq_false_iff.mpr hbroken)
      refine ⟨?_, (List.append_eq_nil_iff.mp (hrem.trans hempty)).2⟩
      cases entry with
      | input =>
        rcases hi.input hc hready with h | h | h
        · exact h
        · exact absurd hempty h
        · exact absurd h hdisconnected
      | output =>
        rcases hi.output hc hready with h | h | h
        · exact h
        · exact absurd hempty h
        · exact absurd ⟨rfl, h⟩ hasked

theorem Faithful.drain {s : TetherRun} (hi : s.Faithful) (hok : s.rc = .ok) {entry : TetherEntry}
    {calls : TetherCalls} (now : Int) (mDrain_s : Nat) (hready : s.ready.has entry = true)
    (hcalls : calls.Lawful s) : (s.after mDrain_s (.drain entry calls now)).Faithful := by
  rcases TetherPoll.pollFdDrain_cases (hi.shape hok) hcalls.eof now with
    ⟨hdone, he⟩ | ⟨hopen, d, hd, he⟩
  · have hcause : s.cause ≠ none := fun hc => by simp [hi.complete.mp hc] at hdone
    simp only [after, he, drainCause, hdone, if_true, List.drop_zero, List.append_nil]
    exact ⟨hi.conserve, fun _ => hi.shape hok, fun hc => absurd hc hcause,
      fun hc => absurd hc hcause, fun hc => absurd hc hcause, hi.complete, hi.drained⟩
  · split_ifs at he with hfail hlast
    · exact hi.drain_on now mDrain_s hready hopen hd he
    · exact hi.drain_last now mDrain_s hready hopen hd hfail hlast he
    · exact hi.drain_on now mDrain_s hready hopen hd he

theorem Faithful.control {s : TetherRun} (hi : s.Faithful) (hok : s.rc = .ok) (mDrain_s : Nat)
    (read : Bool) : (s.after mDrain_s (.control read)).Faithful := by
  cases read with
  | true =>
    exact ⟨hi.conserve, fun _ => (hi.shape hok).congr rfl rfl rfl rfl, hi.input, hi.output,
      hi.both, hi.complete, hi.drained⟩
  | false =>
    exact ⟨hi.conserve, nofun, hi.input, hi.output, hi.both, hi.complete, hi.drained⟩

theorem Faithful.timer {s : TetherRun} (hi : s.Faithful) (mDrain_s : Nat) :
    (s.after mDrain_s .timerDisconnected).Faithful := by
  have hcause : (s.after mDrain_s .timerDisconnected).cause ≠ none := by
    simp only [after]
    split_ifs with hdone
    · exact fun hc => by simp [hi.complete.mp hc] at hdone
    · nofun
  refine ⟨hi.conserve, fun hrc => (hi.shape hrc).congr rfl rfl rfl rfl, fun h => absurd h hcause,
    fun h => absurd h hcause, fun h => absurd h hcause, ?_, ?_⟩
  · exact iff_of_false hcause (by simp [after, TetherPoll.pollFdTimerDisconnected,
      TetherPoll.pollFdCompletion])
  · intro hdrained
    simp only [after] at hdrained
    split_ifs at hdrained
    · exact hi.drained hdrained
    · cases hdrained

theorem faithful_of_reachable {mDrain_s : Nat} {useReadWrite : Bool} {s : TetherRun}
    (hs : (system mDrain_s useReadWrite).Reachable s) : s.Faithful := by
  refine System.Reachable.invariant
    (fun s hs => Start.faithful (show Start useReadWrite s from hs)) ?_ hs
  intro s event t _ hi hstep
  obtain ⟨⟨hok, hp⟩, rfl⟩ := next_eq_some.mp hstep
  cases event with
  | write bytes => exact hi.write hp bytes
  | closeWriters => exact hi.closeWriters
  | poll ready => exact hi.poll hok hp.2.2
  | control read => exact hi.control hok mDrain_s read
  | drain entry calls now => exact hi.drain hok now mDrain_s hp.1 hp.2
  | timerDisconnected => exact hi.timer mDrain_s

/-- The loop has ended neither by the drain timer nor by the destination. -/
def EndsDrained (s : TetherRun) : Prop :=
  s.Completed ∧ s.cause ≠ some .expired ∧ s.cause ≠ some .destination

instance (s : TetherRun) : Decidable s.EndsDrained := inferInstanceAs (Decidable (_ ∧ _))

theorem Faithful.all_delivered {s : TetherRun} (hi : s.Faithful) (hd : s.EndsDrained) :
    s.writersClosed = true ∧ s.delivered = s.written := by
  obtain ⟨⟨-, hdone⟩, hexpired, hdestination⟩ := hd
  have hcause : s.cause = some .drained := by
    cases hc : s.cause with
    | none => simp [hi.complete.mp hc] at hdone
    | some cause =>
      cases cause with
      | drained => rfl
      | destination => exact absurd hc hdestination
      | expired => exact absurd hc hexpired
  obtain ⟨hclosed, hempty⟩ := hi.drained hcause
  have hconserve := hi.conserve
  rw [hempty, List.append_nil] at hconserve
  exact ⟨hclosed, hconserve⟩

/-- In either mode the destination has been given the first bytes written, the
rest is still with the thread or in the tether, and a loop that ends by draining
the tether has delivered all that its writers wrote before they closed it; so
the two modes deliver the same bytes of the same stream. -/
theorem tether_faithful (mDrain_s : Nat) (useReadWrite : Bool) {s : TetherRun}
    (hs : (system mDrain_s useReadWrite).Reachable s) :
    s.delivered <+: s.written ∧ s.delivered ++ s.remaining = s.written ∧
      (s.EndsDrained → s.writersClosed = true ∧ s.delivered = s.written) ∧
      ∀ t, (system mDrain_s (!useReadWrite)).Reachable t → s.EndsDrained → t.EndsDrained →
        t.written = s.written → t.delivered = s.delivered := by
  have hi := faithful_of_reachable hs
  refine ⟨⟨s.remaining, hi.conserve⟩, hi.conserve, hi.all_delivered, ?_⟩
  intro t ht hds hdt hw
  rw [((faithful_of_reachable ht).all_delivered hdt).2, (hi.all_delivered hds).2, hw]

theorem tether_faithful_copied :
    ∃ s, [TetherEvent.write [1, 2, 3], .poll ⟨false, true, false⟩,
        .drain .input ⟨true, .bytes 3, .eintr, .eintr, true⟩ 0, .closeWriters,
        .poll ⟨false, true, true⟩, .drain .input ⟨true, .eintr, .bytes 2, .eintr, true⟩ 1,
        .drain .output ⟨true, .eintr, .bytes 1, .eintr, true⟩ 2, .poll ⟨false, true, false⟩,
        .drain .input ⟨true, .eintr, .eintr, .eintr, true⟩ 3].foldlM (next 30) (enter true 0) =
          some s ∧ s.EndsDrained ∧
      s.delivered <+: s.written ∧ s.delivered ++ s.remaining = s.written ∧
      (s.EndsDrained → s.writersClosed = true ∧ s.delivered = s.written) ∧
      ∀ t, (system 30 false).Reachable t → s.EndsDrained → t.EndsDrained →
        t.written = s.written → t.delivered = s.delivered :=
  ⟨_, rfl, by decide, tether_faithful 30 true (.of_foldlM (.of_init ⟨0, rfl⟩)
    [.write [1, 2, 3], .poll ⟨false, true, false⟩,
      .drain .input ⟨true, .bytes 3, .eintr, .eintr, true⟩ 0, .closeWriters,
      .poll ⟨false, true, true⟩, .drain .input ⟨true, .eintr, .bytes 2, .eintr, true⟩ 1,
      .drain .output ⟨true, .eintr, .bytes 1, .eintr, true⟩ 2, .poll ⟨false, true, false⟩,
      .drain .input ⟨true, .eintr, .eintr, .eintr, true⟩ 3] rfl)⟩

end TetherRun

end PidSentry
