import PidSentry.PollLoop

/-! The sentry and the child it has forked, joined by a pair of bells: the
sentry from `createSentry` to `monitorChildProcess` (sentry.c), the child in
`runChildProcess_` up to its program (childprocess.c). -/

namespace PidSentry

/-- How `ert_ringBellSocketPair…` and `ert_waitBellSocketPair…` end. -/
inductive BellResult
  | ok
  | enoent
  | epipe
  | failed
  deriving DecidableEq, Repr

/-- A bell can be rung while someone holds the other end. -/
def BellResult.Rings (peer : Bool) : BellResult → Prop
  | ok => peer = true
  | epipe => peer = false
  | enoent => False
  | failed => True

/-- A bell that has been rung is heard; without one, the wait ends when no one
holds the other end any more. -/
def BellResult.Waits (pending : Nat) (peer : Bool) : BellResult → Prop
  | ok => 0 < pending
  | enoent | epipe => pending = 0 ∧ peer = false
  | failed => True

instance (peer : Bool) (result : BellResult) : Decidable (result.Rings peer) := by
  cases result <;> unfold BellResult.Rings <;> infer_instance

instance (pending : Nat) (peer : Bool) (result : BellResult) :
    Decidable (result.Waits pending peer) := by
  cases result <;> unfold BellResult.Waits <;> infer_instance

/-- What `gOptions.mServer` asks to be made known. -/
structure LaunchOptions where
  mPidFile : Bool
  mIdentify : Bool
  mAnnounce : Bool
  deriving DecidableEq, Repr

inductive Milestone
  /-- `announceSentryPidFile` has returned `Ert_Pid(0)`. -/
  | announced
  /-- `createUmbilicalProcess` -/
  | umbilical
  /-- The child pid on standard output. -/
  | identified
  /-- The message that the child has started. -/
  | started
  deriving DecidableEq, Repr

def LaunchOptions.named (options : LaunchOptions) : List Milestone :=
  (if options.mIdentify then [.identified] else []) ++
    if options.mAnnounce then [.started] else []

inductive SentryPhase
  | creating
  | announcing
  | supervising
  | identifying
  | closingChild
  | ringing
  | waiting
  | naming
  | ringingAgain
  | discarding
  | waitingAgain
  | monitoring
  /-- `closeSentry`, up to its socket. -/
  | closing
  | closed
  | gone
  deriving DecidableEq, Repr

inductive ChildPhase
  | starting
  | waiting
  | ringing
  | preparing
  | waitingAgain
  /-- At `execShellCommand`. -/
  | executing
  | running
  | exited
  deriving DecidableEq, Repr

namespace SentryPhase

def work (options : LaunchOptions) : SentryPhase → Bool → Option (SentryPhase × List Milestone)
  | creating, true => some (announcing, [])
  | supervising, true => some (identifying, [.umbilical])
  | identifying, true => some (closingChild, [])
  | closingChild, true => some (ringing, [])
  | naming, true => some (ringingAgain, options.named)
  | discarding, true => some (waitingAgain, [])
  | creating, false | supervising, false | identifying, false | naming, false
  | discarding, false => some (closing, [])
  | monitoring, _ | closing, _ => some (closed, [])
  | closed, _ => some (gone, [])
  | _, _ => none

def rung : SentryPhase → BellResult → Option SentryPhase
  | ringing, .ok | ringing, .epipe => some waiting
  | ringingAgain, .ok | ringingAgain, .epipe => some discarding
  | ringing, _ | ringingAgain, _ => some closing
  | _, _ => none

/-- A bell that is heard by the last wait is an error. -/
def waited : SentryPhase → BellResult → Option SentryPhase
  | waiting, .failed => some closing
  | waiting, _ => some naming
  | waitingAgain, .enoent | waitingAgain, .epipe => some monitoring
  | waitingAgain, _ => some closing
  | _, _ => none

def waits : SentryPhase → Bool
  | waiting | waitingAgain => true
  | _ => false

/-- Whether the sentry keeps its copy of the child's end. -/
def holdsChild : SentryPhase → Bool
  | creating | announcing | supervising | identifying | closingChild => true
  | _ => false

def holdsParent : SentryPhase → Bool
  | monitoring | closed | gone => false
  | _ => true

end SentryPhase

namespace ChildPhase

def work : ChildPhase → Bool → Option ChildPhase
  | starting, _ => some waiting
  | preparing, ok => some (if ok then waitingAgain else exited)
  | executing, ok => some (if ok then running else exited)
  | running, _ => some exited
  | _, _ => none

def rung : ChildPhase → BellResult → Option ChildPhase
  | ringing, result => some (if result = .ok then preparing else exited)
  | _, _ => none

def waited : ChildPhase → BellResult → Option ChildPhase
  | waiting, result => some (if result = .ok then ringing else exited)
  | waitingAgain, result => some (if result = .ok then executing else exited)
  | _, _ => none

def waits : ChildPhase → Bool
  | waiting | waitingAgain => true
  | _ => false

/-- The child closes its copy of the parent's end first, and its own end with
`execShellCommand`. -/
def holdsParent : ChildPhase → Bool
  | starting => true
  | _ => false

def holdsChild : ChildPhase → Bool
  | running | exited => false
  | _ => true

end ChildPhase

structure BellSync where
  sentry : SentryPhase
  child : ChildPhase
  toChild : Nat
  toParent : Nat
  rings : Nat
  log : List Milestone
  deriving DecidableEq, Repr

inductive BellEvent
  | work (ok : Bool)
  | announce (pid : Pid)
  | ringParent (result : BellResult)
  | waitParent (result : BellResult)
  | crash
  | childWork (ok : Bool)
  | ringChild (result : BellResult)
  | waitChild (result : BellResult)
  | kill
  deriving DecidableEq, Repr

def BellEvent.ofChild : BellEvent → Bool
  | childWork _ | ringChild _ | waitChild _ => true
  | _ => false

namespace BellSync

variable (options : LaunchOptions) (s : BellSync)

def childEnd : Bool := s.sentry.holdsChild || s.child.holdsChild
def parentEnd : Bool := s.sentry.holdsParent || s.child.holdsParent

/-- `closeSentry` ends by killing the child. -/
def next : BellEvent → Option BellSync
  | .work ok => (s.sentry.work options ok).map fun (sentry, done) => { s with
      sentry := sentry
      child := if s.sentry = .closed then .exited else s.child
      log := s.log ++ done }
  | .announce pid =>
    if s.sentry = .announcing then
      if pid = 0 then some { s with sentry := .supervising, log := s.log ++ [.announced] }
      else some { s with sentry := .closing }
    else none
  | .ringParent result =>
    if result.Rings s.childEnd then
      (s.sentry.rung result).map fun sentry => { s with
        sentry := sentry
        toChild := if result = .ok then s.toChild + 1 else s.toChild
        rings := if result = .ok then s.rings + 1 else s.rings }
    else none
  | .waitParent result =>
    if result.Waits s.toParent s.childEnd then
      (s.sentry.waited result).map fun sentry => { s with
        sentry := sentry
        toParent := if result = .ok then s.toParent - 1 else s.toParent }
    else none
  | .crash => if s.sentry = .gone then none else some { s with sentry := .gone }
  | .childWork ok => (s.child.work ok).map fun child => { s with child := child }
  | .ringChild result =>
    if result.Rings s.parentEnd then
      (s.child.rung result).map fun child => { s with
        child := child
        toParent := if result = .ok then s.toParent + 1 else s.toParent }
    else none
  | .waitChild result =>
    if result.Waits s.toChild s.parentEnd then
      (s.child.waited result).map fun child => { s with
        child := child
        toChild := if result = .ok then s.toChild - 1 else s.toChild }
    else none
  | .kill => if s.child = .exited then none else some { s with child := .exited }

def start : BellSync := ⟨.creating, .starting, 0, 0, 0, []⟩

def system : System BellSync BellEvent := .ofNext (· = start) (next options)

end BellSync

namespace SentryPhase

/-- The most and the fewest bells that the sentry has rung by then, the latter
unless the child has been found to be gone. -/
def ringsAtMost : SentryPhase → Nat
  | creating | announcing | supervising | identifying | closingChild | ringing => 0
  | waiting | naming | ringingAgain => 1
  | _ => 2

def ringsAtLeast : SentryPhase → Nat
  | waiting | naming | ringingAgain => 1
  | discarding | waitingAgain | monitoring => 2
  | _ => 0

/-- The sentry has not yet waited for the child's bell. -/
def listens : SentryPhase → Bool
  | creating | announcing | supervising | identifying | closingChild | ringing | waiting => true
  | _ => false

def heard : SentryPhase → Bool
  | naming | ringingAgain | discarding | waitingAgain | monitoring => true
  | _ => false

/-- From the pid file to the program of the child. -/
def guards : SentryPhase → Bool
  | supervising | identifying | closingChild | ringing | waiting | naming | ringingAgain
  | discarding | waitingAgain => true
  | _ => false

def milestones (options : LaunchOptions) : SentryPhase → List Milestone
  | supervising => [.announced]
  | identifying | closingChild | ringing | waiting | naming => [.announced, .umbilical]
  | ringingAgain | discarding | waitingAgain | monitoring =>
    [.announced, .umbilical] ++ options.named
  | _ => []

structure Proceeds (options : LaunchOptions) (p q : SentryPhase) (done : List Milestone) : Prop where
  atMost : p.ringsAtMost ≤ q.ringsAtMost
  atLeast : q.ringsAtLeast ≤ p.ringsAtLeast
  listens : q.listens = true → p.listens = true
  heard : q.heard = true → p.heard = true
  milestones : q.milestones options ⊆ p.milestones options ++ done

variable {options : LaunchOptions} {p q : SentryPhase}

theorem ringsAtMost_le (p : SentryPhase) : p.ringsAtMost ≤ 2 := by
  cases p <;> simp [ringsAtMost]

theorem work_proceeds {ok : Bool} {done : List Milestone}
    (h : p.work options ok = some (q, done)) : Proceeds options p q done := by
  unfold work at h
  split at h <;> cases h <;>
    constructor <;> simp [ringsAtMost, ringsAtLeast, listens, heard, milestones]

theorem work_guards {ok : Bool} {done : List Milestone} (h : p.work options ok = some (q, done))
    (hg : q.guards = true) : p.guards = true := by
  unfold work at h
  split at h <;> cases h <;> first | rfl | cases hg

/-- Once the sentry gives up it is as good as gone. -/
theorem proceeds_of_fails (hq : q = .closing ∨ q = .gone) : Proceeds options p q [] := by
  rcases hq with rfl | rfl <;>
    exact ⟨p.ringsAtMost_le, Nat.zero_le _, nofun, nofun, List.nil_subset _⟩

theorem rung_cases {result : BellResult} (h : p.rung result = some q) :
    (p = .ringing ∧ q = .waiting ∨ p = .ringingAgain ∧ q = .discarding) ∧
        (result = .ok ∨ result = .epipe) ∨
      q = .closing ∧ result ≠ .ok := by
  unfold rung at h
  split at h <;> simp_all

theorem waited_cases {result : BellResult} (h : p.waited result = some q) :
    p = .waiting ∧ q = .naming ∧ result ≠ .failed ∨
      p = .waitingAgain ∧ q = .monitoring ∧ (result = .enoent ∨ result = .epipe) ∨
      q = .closing ∧ (p = .waiting ∧ result = .failed ∨ p = .waitingAgain) := by
  unfold waited at h
  split at h <;> simp_all

end SentryPhase

namespace ChildPhase

def taken : ChildPhase → Nat
  | ringing | preparing | waitingAgain => 1
  | executing | running => 2
  | _ => 0

def answers : ChildPhase → Nat
  | preparing | waitingAgain | executing | running => 1
  | _ => 0

/-- How far the child is from its end. -/
def rank : ChildPhase → Nat
  | starting => 7
  | waiting => 6
  | ringing => 5
  | preparing => 4
  | waitingAgain => 3
  | executing => 2
  | running => 1
  | exited => 0

variable {c d : ChildPhase}

theorem answers_le (c : ChildPhase) : c.answers ≤ 1 := by
  cases c <;> simp [answers]

theorem rank_pos (h : c ≠ .exited) : 0 < c.rank := by
  cases c <;> first | exact absurd rfl h | decide

theorem answers_of_departed (h : c.holdsChild = false) : c.answers = 1 ∨ c = .exited := by
  cases c <;> simp_all [holdsChild, answers]

theorem work_cases {ok : Bool} (h : c.work ok = some d) : c ≠ .exited ∧ d.rank < c.rank ∧
    (d = .exited ∨ d.taken = c.taken ∧ d.answers = c.answers ∧
      (c.holdsChild = false → d.holdsChild = false)) := by
  unfold work at h
  split at h <;> simp only [Option.some.injEq, reduceCtorEq] at h <;> subst h <;>
    cases ok <;> simp [rank, taken, answers, holdsChild]

theorem rung_cases {result : BellResult} (h : c.rung result = some d) :
    c = .ringing ∧ (result = .ok ∧ d = .preparing ∨ result ≠ .ok ∧ d = .exited) := by
  unfold rung at h
  split at h <;> simp_all
  split_ifs at h <;> simp_all

theorem waited_cases {result : BellResult} (h : c.waited result = some d) :
    (c = .waiting ∧ d = .ringing ∨ c = .waitingAgain ∧ d = .executing) ∧ result = .ok ∨
      c.waits = true ∧ result ≠ .ok ∧ d = .exited := by
  unfold waited at h
  split at h <;> simp_all [waits]
  all_goals split_ifs at h <;> simp_all

end ChildPhase

namespace BellSync

/-- How the bells rung, the bells heard and the two parties fit together. -/
structure Synchronised (options : LaunchOptions) (s : BellSync) : Prop where
  taken : s.child ≠ .exited → s.toChild + s.child.taken = s.rings
  atMost : s.rings ≤ s.sentry.ringsAtMost
  atLeast : s.sentry.ringsAtLeast ≤ s.rings ∨ s.child.holdsChild = false
  single : s.toParent ≤ 1
  answers : s.child ≠ .exited → s.toParent ≤ s.child.answers
  listens : s.sentry.listens = true → s.child ≠ .exited → s.toParent = s.child.answers
  heard : s.sentry.heard = true → s.toParent = 0 ∧ (s.child.answers = 1 ∨ s.child = .exited)
  log : s.sentry.milestones options ⊆ s.log
  once : 0 < s.rings → [.announced, .umbilical] ⊆ s.log
  twice : 1 < s.rings → options.named ⊆ s.log

namespace Synchronised

variable {options : LaunchOptions} {s : BellSync}

theorem start : BellSync.start.Synchronised options := by
  constructor <;> simp [BellSync.start, ChildPhase.taken, ChildPhase.answers,
    SentryPhase.ringsAtLeast, SentryPhase.heard, SentryPhase.milestones]

theorem proceed (hi : s.Synchronised options) {q : SentryPhase} {done : List Milestone}
    (hq : s.sentry.Proceeds options q done) :
    Synchronised options { s with sentry := q, log := s.log ++ done } where
  taken := hi.taken
  atMost := Nat.le_trans hi.atMost hq.atMost
  atLeast := hi.atLeast.imp_left (Nat.le_trans hq.atLeast)
  single := hi.single
  answers := hi.answers
  listens h := hi.listens (hq.listens h)
  heard h := hi.heard (hq.heard h)
  log := List.Subset.trans hq.milestones (List.append_subset.mpr
    ⟨List.subset_append_of_subset_left _ hi.log, List.subset_append_right ..⟩)
  once h := List.Subset.trans (hi.once h) (List.subset_append_left ..)
  twice h := List.Subset.trans (hi.twice h) (List.subset_append_left ..)

theorem fail (hi : s.Synchronised options) {q : SentryPhase} (hq : q = .closing ∨ q = .gone) :
    Synchronised options { s with sentry := q } := by
  simpa using hi.proceed (SentryPhase.proceeds_of_fails hq)

theorem exit (hi : s.Synchronised options) : Synchronised options { s with child := .exited } :=
  ⟨fun h => absurd rfl h, hi.atMost, .inr rfl, hi.single, fun h => absurd rfl h,
    fun _ h => absurd rfl h, fun h => ⟨(hi.heard h).1, .inr rfl⟩, hi.log, hi.once, hi.twice⟩

/-- A bell rung by the sentry; it may not be rung after the child is gone. -/
theorem ring (hi : s.Synchronised options) {q : SentryPhase}
    (hq : s.sentry = .ringing ∧ q = .waiting ∨ s.sentry = .ringingAgain ∧ q = .discarding) :
    Synchronised options { s with
      sentry := q
      toChild := s.toChild + 1
      rings := s.rings + 1 } := by
  obtain ⟨sentry, child, toChild, toParent, rings, log⟩ := s
  have hmost := hi.atMost
  have hleast := hi.atLeast
  have hlog := hi.log
  have htaken := hi.taken
  rcases hq with ⟨rfl, rfl⟩ | ⟨rfl, rfl⟩
  · simp only [SentryPhase.ringsAtMost, Nat.le_zero] at hmost
    subst hmost
    refine ⟨fun h => ?_, Nat.le_refl 1, .inl (Nat.le_refl 1), hi.single, hi.answers,
      fun _ => hi.listens rfl, nofun, hlog, fun _ => hlog, fun h => absurd h (Nat.lt_irrefl 1)⟩
    have := htaken h
    simp only at this ⊢
    omega
  · simp only [SentryPhase.ringsAtMost] at hmost
    have hboth := List.append_subset.mp hlog
    refine ⟨fun h => ?_, Nat.succ_le_succ hmost, ?_, hi.single, hi.answers, nofun,
      fun _ => hi.heard rfl, hlog, fun _ => hboth.1, fun _ => hboth.2⟩
    · have := htaken h
      simp only at this ⊢
      omega
    · exact hleast.imp_left Nat.succ_le_succ

/-- The bell cannot be rung, since the child is gone. -/
theorem ringGone (hi : s.Synchronised options) (hgone : s.child.holdsChild = false)
    {q : SentryPhase}
    (hq : s.sentry = .ringing ∧ q = .waiting ∨ s.sentry = .ringingAgain ∧ q = .discarding) :
    Synchronised options { s with sentry := q } := by
  obtain ⟨sentry, child, toChild, toParent, rings, log⟩ := s
  have hmost := hi.atMost
  have hlog := hi.log
  rcases hq with ⟨rfl, rfl⟩ | ⟨rfl, rfl⟩
  · exact ⟨hi.taken, Nat.le_trans hmost (Nat.zero_le 1), .inr hgone, hi.single, hi.answers,
      fun _ => hi.listens rfl, nofun, hlog, hi.once, hi.twice⟩
  · exact ⟨hi.taken, Nat.le_trans hmost (Nat.le_succ 1), .inr hgone, hi.single, hi.answers, nofun,
      fun _ => hi.heard rfl, hlog, hi.once, hi.twice⟩

theorem hear (hi : s.Synchronised options) (hq : s.sentry = .waiting)
    (h : 0 < s.toParent ∨ s.child.holdsChild = false ∧ s.toParent = 0) :
    Synchronised options { s with sentry := .naming, toParent := s.toParent - 1 } := by
  obtain ⟨sentry, child, toChild, toParent, rings, log⟩ := s
  obtain rfl : sentry = .waiting := hq
  have hsingle := hi.single
  refine ⟨hi.taken, hi.atMost, hi.atLeast, Nat.le_trans (Nat.sub_le ..) hsingle,
    fun hne => Nat.le_trans (Nat.sub_le ..) (hi.answers hne), nofun, fun _ => ⟨?_, ?_⟩, hi.log,
    hi.once, hi.twice⟩
  · simp only at hsingle ⊢
    omega
  · rcases h with h | ⟨h, -⟩
    · by_cases hne : child = .exited
      · exact .inr hne
      · have hle := hi.answers hne
        have := child.answers_le
        simp only at h hle
        exact .inl (show child.answers = 1 by omega)
    · exact ChildPhase.answers_of_departed h

theorem silent (hi : s.Synchronised options) (hs : s.sentry = .waitingAgain) :
    s.toParent = 0 := (hi.heard (by rw [hs]; rfl)).1

theorem hearGone (hi : s.Synchronised options) (hq : s.sentry = .waitingAgain) :
    Synchronised options { s with sentry := .monitoring } := by
  obtain ⟨sentry, child, toChild, toParent, rings, log⟩ := s
  obtain rfl : sentry = .waitingAgain := hq
  exact ⟨hi.taken, hi.atMost, hi.atLeast, hi.single, hi.answers, nofun, fun _ => hi.heard rfl,
    hi.log, hi.once, hi.twice⟩

theorem childProceed (hi : s.Synchronised options) {d : ChildPhase} (hne : s.child ≠ .exited)
    (htaken : d.taken = s.child.taken) (hanswers : d.answers = s.child.answers)
    (hholds : s.child.holdsChild = false → d.holdsChild = false) :
    Synchronised options { s with child := d } where
  taken _ := by simpa only [htaken] using hi.taken hne
  atMost := hi.atMost
  atLeast := hi.atLeast.imp_right hholds
  single := hi.single
  answers _ := by simpa only [hanswers] using hi.answers hne
  listens h _ := by simpa only [hanswers] using hi.listens h hne
  heard h := by
    have hh := hi.heard h
    exact ⟨hh.1, .inl (by simpa only [hanswers] using hh.2.resolve_right hne)⟩
  log := hi.log
  once := hi.once
  twice := hi.twice

theorem answer (hi : s.Synchronised options) (hc : s.child = .ringing) :
    Synchronised options { s with child := .preparing, toParent := s.toParent + 1 } := by
  obtain ⟨sentry, child, toChild, toParent, rings, log⟩ := s
  obtain rfl : child = .ringing := hc
  have hnone : toParent = 0 := Nat.le_zero.mp (hi.answers nofun)
  subst hnone
  refine ⟨fun _ => hi.taken nofun, hi.atMost, hi.atLeast.imp_right nofun, Nat.le_refl 1,
    fun _ => Nat.le_refl 1, fun _ _ => rfl, fun h => ?_, hi.log, hi.once, hi.twice⟩
  rcases (hi.heard h).2 with hh | hh <;> cases hh

theorem childHear (hi : s.Synchronised options) {d : ChildPhase} (hpending : 0 < s.toChild)
    (hd : s.child = .waiting ∧ d = .ringing ∨ s.child = .waitingAgain ∧ d = .executing) :
    Synchronised options { s with child := d, toChild := s.toChild - 1 } := by
  obtain ⟨sentry, child, toChild, toParent, rings, log⟩ := s
  simp only at hpending
  rcases hd with ⟨rfl, rfl⟩ | ⟨rfl, rfl⟩
  all_goals
    have htaken := hi.taken nofun
    refine ⟨fun _ => ?_, hi.atMost, hi.atLeast.imp_right nofun, hi.single, fun _ => hi.answers nofun,
      fun h _ => hi.listens h nofun, fun h => ?_, hi.log, hi.once, hi.twice⟩
    · simp only [ChildPhase.taken] at htaken ⊢
      omega
    · have hh := hi.heard h
      exact ⟨hh.1, hh.2.imp_right nofun⟩

theorem next (hi : s.Synchronised options) {event : BellEvent} {t : BellSync}
    (h : s.next options event = some t) : t.Synchronised options := by
  cases event with
  | work ok =>
    obtain ⟨⟨q, done⟩, hq, rfl⟩ := Option.map_eq_some_iff.mp h
    have hp := hi.proceed (SentryPhase.work_proceeds hq)
    dsimp only
    split_ifs
    · exact hp.exit
    · exact hp
  | announce pid =>
    obtain ⟨hs, h⟩ := Option.ite_none_right_eq_some.mp h
    split_ifs at h
    · obtain rfl := Option.some.inj h
      refine hi.proceed ?_
      rw [hs]
      constructor <;> simp [SentryPhase.ringsAtMost, SentryPhase.ringsAtLeast, SentryPhase.heard,
        SentryPhase.milestones, SentryPhase.listens]
    · obtain rfl := Option.some.inj h
      exact hi.fail (.inl rfl)
  | ringParent result =>
    obtain ⟨hrings, h⟩ := Option.ite_none_right_eq_some.mp h
    obtain ⟨q, hq, rfl⟩ := Option.map_eq_some_iff.mp h
    rcases SentryPhase.rung_cases hq with ⟨hp, rfl | rfl⟩ | ⟨rfl, hne⟩
    · exact hi.ring hp
    · have hgone : s.sentry.holdsChild = false ∧ s.child.holdsChild = false := by
        simpa [childEnd, BellResult.Rings] using hrings
      exact hi.ringGone hgone.2 hp
    · simpa only [hne, if_false] using hi.fail (.inl rfl)
  | waitParent result =>
    obtain ⟨hwaits, h⟩ := Option.ite_none_right_eq_some.mp h
    obtain ⟨q, hq, rfl⟩ := Option.map_eq_some_iff.mp h
    rcases SentryPhase.waited_cases hq with ⟨hp, rfl, hne⟩ | ⟨hp, rfl, hr⟩ | ⟨rfl, hp⟩
    · cases result with
      | ok => exact hi.hear hp (.inl hwaits)
      | enoent | epipe =>
        have hgone : s.sentry.holdsChild = false ∧ s.child.holdsChild = false := by
          simpa [childEnd] using hwaits.2
        simpa [hwaits.1] using hi.hear hp (.inr ⟨hgone.2, hwaits.1⟩)
      | failed => exact absurd rfl hne
    · rcases hr with rfl | rfl <;> exact hi.hearGone hp
    · have hnot : result ≠ .ok := by
        rintro rfl
        rcases hp with ⟨-, hr⟩ | hp
        · cases hr
        · exact Nat.ne_of_gt hwaits (hi.silent hp)
      simpa only [hnot, if_false] using hi.fail (.inl rfl)
  | crash =>
    obtain ⟨-, h⟩ := Option.ite_none_left_eq_some.mp h
    obtain rfl := Option.some.inj h
    exact hi.fail (.inr rfl)
  | childWork ok =>
    obtain ⟨d, hd, rfl⟩ := Option.map_eq_some_iff.mp h
    obtain ⟨hne, -, rfl | ⟨htaken, hanswers, hholds⟩⟩ := ChildPhase.work_cases hd
    · exact hi.exit
    · exact hi.childProceed hne htaken hanswers hholds
  | ringChild result =>
    obtain ⟨hrings, h⟩ := Option.ite_none_right_eq_some.mp h
    obtain ⟨d, hd, rfl⟩ := Option.map_eq_some_iff.mp h
    obtain ⟨hc, ⟨rfl, rfl⟩ | ⟨hne, rfl⟩⟩ := ChildPhase.rung_cases hd
    · exact hi.answer hc
    · simpa only [hne, if_false] using hi.exit
  | waitChild result =>
    obtain ⟨hwaits, h⟩ := Option.ite_none_right_eq_some.mp h
    obtain ⟨d, hd, rfl⟩ := Option.map_eq_some_iff.mp h
    rcases ChildPhase.waited_cases hd with ⟨hc, rfl⟩ | ⟨-, hne, rfl⟩
    · exact hi.childHear hwaits hc
    · simpa only [hne, if_false] using hi.exit
  | kill =>
    obtain ⟨-, h⟩ := Option.ite_none_left_eq_some.mp h
    obtain rfl := Option.some.inj h
    exact hi.exit

theorem rings_of_taken (hi : s.Synchronised options)
    (hc : s.child = .executing ∨ s.child = .running) : 1 < s.rings := by
  have htaken : s.child.taken = 2 ∧ s.child ≠ .exited := by
    rcases hc with h | h <;> simp [h, ChildPhase.taken]
  have := hi.taken htaken.2
  omega

/-- When both wait, one of them has a bell to hear. -/
theorem pending (hi : s.Synchronised options) (hs : s.sentry.waits = true)
    (hc : s.child.waits = true) : 0 < s.toChild ∨ 0 < s.toParent := by
  obtain ⟨sentry, child, toChild, toParent, rings, log⟩ := s
  have hleast := hi.atLeast
  cases child with
  | waiting =>
    have htaken := hi.taken nofun
    cases sentry with
    | waiting =>
      have hrings := hleast.resolve_right nofun
      simp only [ChildPhase.taken, SentryPhase.ringsAtLeast] at htaken hrings
      exact .inl (show 0 < toChild by omega)
    | waitingAgain => rcases (hi.heard rfl).2 with h | h <;> cases h
    | _ => cases hs
  | waitingAgain =>
    have htaken := hi.taken nofun
    cases sentry with
    | waiting =>
      have hanswer := hi.listens rfl nofun
      simp only [ChildPhase.answers] at hanswer
      exact .inr (show 0 < toParent by omega)
    | waitingAgain =>
      have hrings := hleast.resolve_right nofun
      simp only [ChildPhase.taken, SentryPhase.ringsAtLeast] at htaken hrings
      exact .inl (show 0 < toChild by omega)
    | _ => cases hs
  | _ => cases hc

/-- A child whose sentry has gone before the second ring is not left waiting. -/
theorem child_moves (hi : s.Synchronised options) (hs : s.sentry = .gone) (hrings : s.rings < 2)
    (hc : s.child ≠ .exited) :
    ∃ event, event.ofChild = true ∧ (s.next options event).isSome = true := by
  obtain ⟨sentry, child, toChild, toParent, rings, log⟩ := s
  obtain rfl : sentry = .gone := hs
  cases child with
  | starting | preparing => exact ⟨.childWork true, rfl, rfl⟩
  | waiting =>
    cases toChild with
    | zero => exact ⟨.waitChild .enoent, rfl, rfl⟩
    | succ n => exact ⟨.waitChild .ok, rfl, by simp [BellSync.next, BellResult.Waits, ChildPhase.waited]⟩
  | ringing => exact ⟨.ringChild .epipe, rfl, rfl⟩
  | waitingAgain =>
    have htaken := hi.taken nofun
    simp only [ChildPhase.taken] at htaken hrings
    obtain rfl : toChild = 0 := by omega
    exact ⟨.waitChild .enoent, rfl, rfl⟩
  | executing => exact absurd (hi.rings_of_taken (.inl rfl)) (Nat.not_lt.mpr (Nat.le_of_lt_succ hrings))
  | running => exact absurd (hi.rings_of_taken (.inr rfl)) (Nat.not_lt.mpr (Nat.le_of_lt_succ hrings))
  | exited => exact absurd rfl hc

end Synchronised

theorem synchronised_of_reachable {options : LaunchOptions} {s : BellSync}
    (hs : (system options).Reachable s) : s.Synchronised options :=
  System.Reachable.invariant (P := fun s => s.Synchronised options)
    (fun _ h => h ▸ Synchronised.start) (fun _ _ _ _ hi hstep => hi.next hstep) hs

/-- Every step of the child's own brings it closer to its end. -/
theorem rank_lt {options : LaunchOptions} {s t : BellSync} {event : BellEvent}
    (hevent : event.ofChild = true) (h : s.next options event = some t) :
    t.child.rank < s.child.rank := by
  cases event with
  | childWork ok =>
    obtain ⟨d, hd, rfl⟩ := Option.map_eq_some_iff.mp h
    exact (ChildPhase.work_cases hd).2.1
  | ringChild result =>
    obtain ⟨-, h⟩ := Option.ite_none_right_eq_some.mp h
    obtain ⟨d, hd, rfl⟩ := Option.map_eq_some_iff.mp h
    obtain ⟨hc, ⟨-, rfl⟩ | ⟨-, rfl⟩⟩ := ChildPhase.rung_cases hd <;> simp [hc, ChildPhase.rank]
  | waitChild result =>
    obtain ⟨-, h⟩ := Option.ite_none_right_eq_some.mp h
    obtain ⟨d, hd, rfl⟩ := Option.map_eq_some_iff.mp h
    rcases ChildPhase.waited_cases hd with ⟨⟨hc, rfl⟩ | ⟨hc, rfl⟩, -⟩ | ⟨hc, -, rfl⟩
    · simp [hc, ChildPhase.rank]
    · simp [hc, ChildPhase.rank]
    · exact ChildPhase.rank_pos (by rintro he; rw [he] at hc; cases hc)
  | _ => cases hevent

theorem next_ofChild {options : LaunchOptions} {s t : BellSync} {event : BellEvent}
    (hevent : event.ofChild = true) (h : s.next options event = some t) :
    t.sentry = s.sentry ∧ t.rings = s.rings := by
  cases event with
  | childWork ok =>
    obtain ⟨d, -, rfl⟩ := Option.map_eq_some_iff.mp h
    exact ⟨rfl, rfl⟩
  | ringChild result | waitChild result =>
    obtain ⟨-, h⟩ := Option.ite_none_right_eq_some.mp h
    obtain ⟨d, -, rfl⟩ := Option.map_eq_some_iff.mp h
    exact ⟨rfl, rfl⟩
  | _ => cases hevent

/-- The sentry comes to guard the child by announcing its pid file. -/
theorem guards_next {options : LaunchOptions} {s t : BellSync} {event : BellEvent}
    (h : s.next options event = some t) (hg : t.sentry.guards = true) :
    s.sentry.guards = true ∨ event = .announce 0 := by
  cases event with
  | work ok =>
    obtain ⟨⟨q, done⟩, hq, rfl⟩ := Option.map_eq_some_iff.mp h
    exact .inl (SentryPhase.work_guards hq hg)
  | announce pid =>
    obtain ⟨-, h⟩ := Option.ite_none_right_eq_some.mp h
    split_ifs at h with hpid
    · exact .inr (by rw [hpid])
    · cases h
      cases hg
  | ringParent result =>
    obtain ⟨-, h⟩ := Option.ite_none_right_eq_some.mp h
    obtain ⟨q, hq, rfl⟩ := Option.map_eq_some_iff.mp h
    rcases SentryPhase.rung_cases hq with ⟨⟨hp, -⟩ | ⟨hp, -⟩, -⟩ | ⟨rfl, -⟩
    · exact .inl (by rw [hp]; rfl)
    · exact .inl (by rw [hp]; rfl)
    · cases hg
  | waitParent result =>
    obtain ⟨-, h⟩ := Option.ite_none_right_eq_some.mp h
    obtain ⟨q, hq, rfl⟩ := Option.map_eq_some_iff.mp h
    rcases SentryPhase.waited_cases hq with ⟨hp, -⟩ | ⟨-, rfl, -⟩ | ⟨rfl, -⟩
    · exact .inl (by rw [hp]; rfl)
    · cases hg
    · cases hg
  | crash =>
    obtain ⟨-, h⟩ := Option.ite_none_left_eq_some.mp h
    cases h
    cases hg
  | childWork | ringChild | waitChild =>
    exact .inl ((next_ofChild rfl h).1 ▸ hg)
  | kill =>
    obtain ⟨-, h⟩ := Option.ite_none_left_eq_some.mp h
    obtain rfl := Option.some.inj h
    exact .inl hg

end BellSync

end PidSentry
