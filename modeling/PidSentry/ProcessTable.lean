import PidSentry.Transition
import Mathlib.Data.List.Nodup

/-! A table of processes. A number is taken again once there is neither a process nor
a process group left that goes by it, so that a group that is kept keeps its number. -/

namespace PidSentry

/-- `self` tells a process from every other one that there ever is, `clan` is that of
the founder of its group, and the parent of an orphan is `none`. -/
structure Process (π : Type) where
  number : π
  self : Nat
  parent : Option Nat
  group : π
  clan : Nat
  zombie : Bool
  deriving DecidableEq, Repr

structure ProcessTable (π : Type) where
  processes : List (Process π)
  next : Nat
  deriving DecidableEq, Repr

inductive ProcessAct (π : Type)
  | fork (parent number : π)
  | setpgid (number group : π)
  | exit (number : π)
  | reap (number : π)
  deriving DecidableEq, Repr

namespace ProcessTable

variable {π : Type}

section

variable [DecidableEq π]

def entry (t : ProcessTable π) (number : π) : Option (Process π) :=
  t.processes.find? fun x => x.number = number

def Free (t : ProcessTable π) (number : π) : Prop :=
  ∀ x ∈ t.processes, x.number ≠ number ∧ x.group ≠ number

instance (t : ProcessTable π) (number : π) : Decidable (t.Free number) :=
  inferInstanceAs (Decidable (∀ x ∈ t.processes, _))

/-- A process joins a group that has a member, a zombie at least, or founds its own. -/
def clan (t : ProcessTable π) (x : Process π) (group : π) : Option Nat :=
  match t.processes.find? fun y => y.group = group with
  | some y => some y.clan
  | none => if x.number = group then some x.self else none

def exited (number : π) (self : Nat) (x : Process π) : Process π :=
  if x.number = number then { x with zombie := true }
  else if x.parent = some self then { x with parent := none }
  else x

def regrouped (number group : π) (clan : Nat) (x : Process π) : Process π :=
  if x.number = number then { x with group, clan } else x

/-- The children of a process that exits are adopted. -/
def act (t : ProcessTable π) : ProcessAct π → Option (ProcessTable π)
  | .fork parent number => (t.entry parent).bind fun x =>
    if x.zombie = false ∧ t.Free number then
      some ⟨⟨number, t.next, some x.self, x.group, x.clan, false⟩ :: t.processes, t.next + 1⟩
    else none
  | .setpgid number group => (t.entry number).bind fun x => (t.clan x group).map fun clan =>
    { t with processes := t.processes.map (regrouped number group clan) }
  | .exit number => (t.entry number).bind fun x =>
    if x.zombie = false then some { t with processes := t.processes.map (exited number x.self) }
    else none
  | .reap number => (t.entry number).bind fun x =>
    if x.zombie then some { t with processes := t.processes.filter fun y => y.number ≠ number }
    else none

end

variable {t u : ProcessTable π} {a : ProcessAct π} {x y : Process π} {number group : π}

/-- No two processes go by one number, nor a process and the group of another clan. -/
structure Consistent (t : ProcessTable π) : Prop where
  numbers : (t.processes.map Process.number).Nodup
  selves : (t.processes.map Process.self).Nodup
  clan : ∀ x ∈ t.processes, ∀ y ∈ t.processes, x.group = y.group → x.clan = y.clan
  founder : ∀ x ∈ t.processes, ∀ y ∈ t.processes, x.number = y.group → y.clan = x.self
  next : ∀ x ∈ t.processes, x.self < t.next ∧ x.clan < t.next

theorem Consistent.eq_of_number (ht : t.Consistent) (hx : x ∈ t.processes) (hy : y ∈ t.processes)
    (h : x.number = y.number) : x = y :=
  List.inj_on_of_nodup_map ht.numbers hx hy h

theorem Consistent.eq_of_self (ht : t.Consistent) (hx : x ∈ t.processes) (hy : y ∈ t.processes)
    (h : x.self = y.self) : x = y :=
  List.inj_on_of_nodup_map ht.selves hx hy h

/-- What an act leaves of a process that stays in the table. -/
structure Kept (t : ProcessTable π) (a : ProcessAct π) (x y : Process π) : Prop where
  number : y.number = x.number
  self : y.self = x.self
  group : (∀ group, a ≠ .setpgid x.number group) → y.group = x.group ∧ y.clan = x.clan
  zombie : y.zombie = true ↔ x.zombie = true ∨ a = .exit x.number
  parent : y.parent = x.parent ∨
    ∃ z ∈ t.processes, a = .exit z.number ∧ x.parent = some z.self ∧ y.parent = none

theorem Kept.refl (ha : a ≠ .exit x.number) : Kept t a x x :=
  ⟨rfl, rfl, fun _ => ⟨rfl, rfl⟩, (or_iff_left ha).symm, .inl rfl⟩

theorem map_kept {f : Process π → Process π} (hf : ∀ x, Kept t a x (f x)) :
    (t.processes.map f).map Process.number = t.processes.map Process.number ∧
      (t.processes.map f).map Process.self = t.processes.map Process.self := by
  constructor
  · rw [List.map_map]
    exact List.map_congr_left fun x _ => (hf x).number
  · rw [List.map_map]
    exact List.map_congr_left fun x _ => (hf x).self

theorem Consistent.fork (ht : t.Consistent) (hx : x ∈ t.processes) (hfree : t.Free number) :
    Consistent ⟨⟨number, t.next, some x.self, x.group, x.clan, false⟩ :: t.processes, t.next + 1⟩ where
  numbers := by
    refine List.nodup_cons.mpr ⟨fun hmem => ?_, ht.numbers⟩
    obtain ⟨y, hy, he⟩ := List.mem_map.mp hmem
    exact (hfree y hy).1 he
  selves := by
    refine List.nodup_cons.mpr ⟨fun hmem => ?_, ht.selves⟩
    obtain ⟨y, hy, he⟩ := List.mem_map.mp hmem
    exact (Nat.ne_of_lt (ht.next y hy).1) he
  clan y hy z hz he := by
    rcases List.mem_cons.mp hy with rfl | hy <;> rcases List.mem_cons.mp hz with rfl | hz
    · rfl
    · exact ht.clan x hx z hz he
    · exact ht.clan y hy x hx he
    · exact ht.clan y hy z hz he
  founder y hy z hz he := by
    rcases List.mem_cons.mp hy with rfl | hy <;> rcases List.mem_cons.mp hz with rfl | hz
    · exact absurd he.symm (hfree x hx).2
    · exact absurd he.symm (hfree z hz).2
    · exact ht.founder y hy x hx he
    · exact ht.founder y hy z hz he
  next y hy := by
    have hnext := ht.next
    rcases List.mem_cons.mp hy with rfl | hy
    · exact ⟨Nat.lt_succ_self _, Nat.lt_succ_of_lt (hnext x hx).2⟩
    · exact ⟨Nat.lt_succ_of_lt (hnext y hy).1, Nat.lt_succ_of_lt (hnext y hy).2⟩

theorem Consistent.kept (ht : t.Consistent) {f : Process π → Process π}
    (hf : ∀ x, Kept t (.exit number) x (f x)) : Consistent { t with processes := t.processes.map f } := by
  have hgroup : ∀ x, (f x).group = x.group ∧ (f x).clan = x.clan :=
    fun x => (hf x).group fun group he => by cases he
  refine ⟨?_, ?_, ?_, ?_, ?_⟩
  · rw [(map_kept hf).1]
    exact ht.numbers
  · rw [(map_kept hf).2]
    exact ht.selves
  · simp only [List.forall_mem_map, hgroup]
    exact ht.clan
  · simp only [List.forall_mem_map, hgroup, (hf _).number, (hf _).self]
    exact ht.founder
  · simp only [List.forall_mem_map, hgroup, (hf _).self]
    exact ht.next

theorem Consistent.filter (ht : t.Consistent) (p : Process π → Bool) :
    Consistent { t with processes := t.processes.filter p } where
  numbers := ht.numbers.sublist (List.filter_sublist.map _)
  selves := ht.selves.sublist (List.filter_sublist.map _)
  clan x hx y hy := ht.clan x (List.mem_of_mem_filter hx) y (List.mem_of_mem_filter hy)
  founder x hx y hy := ht.founder x (List.mem_of_mem_filter hx) y (List.mem_of_mem_filter hy)
  next x hx := ht.next x (List.mem_of_mem_filter hx)

/-- Who is in the group is of the clan, and who goes by its number has founded it. -/
def Held (t : ProcessTable π) (group : π) (clan : Nat) : Prop :=
  (∀ x ∈ t.processes, x.group = group → x.clan = clan) ∧
    ∀ x ∈ t.processes, x.number = group → x.self = clan

theorem Consistent.held_of_group (ht : t.Consistent) (hx : x ∈ t.processes) : t.Held x.group x.clan :=
  ⟨fun y hy => ht.clan y hy x hx, fun y hy he => (ht.founder y hy x hx he).symm⟩

theorem Consistent.held_of_number (ht : t.Consistent) (hx : x ∈ t.processes) : t.Held x.number x.self :=
  ⟨fun y hy he => ht.founder x hx y hy he.symm, fun _ hy he => congrArg Process.self (ht.eq_of_number hy hx he)⟩

variable [DecidableEq π]

theorem mem_of_entry (h : t.entry number = some x) : x ∈ t.processes ∧ x.number = number :=
  ⟨List.mem_of_find?_eq_some h, by simpa using List.find?_some h⟩

theorem Consistent.entry (ht : t.Consistent) (hx : x ∈ t.processes) : t.entry x.number = some x := by
  have hsome : (t.entry x.number).isSome := List.find?_isSome.mpr ⟨x, hx, by simp⟩
  obtain ⟨y, hy⟩ := Option.isSome_iff_exists.mp hsome
  obtain ⟨hmem, hnumber⟩ := mem_of_entry hy
  rw [hy, ht.eq_of_number hmem hx hnumber]

theorem clan_cases {clan : Nat} (h : t.clan x group = some clan) :
    (∃ y ∈ t.processes, y.group = group ∧ y.clan = clan) ∨
      x.number = group ∧ x.self = clan ∧ ∀ y ∈ t.processes, y.group ≠ group := by
  unfold ProcessTable.clan at h
  split at h
  · next y hy =>
    exact .inl ⟨y, List.mem_of_find?_eq_some hy, by simpa using List.find?_some hy,
      Option.some.inj h⟩
  · next hnone =>
    obtain ⟨hnumber, h⟩ := Option.ite_none_right_eq_some.mp h
    exact .inr ⟨hnumber, Option.some.inj h, by simpa using hnone⟩

/-- Everything that an act can be. -/
inductive Acts (t : ProcessTable π) : ProcessAct π → ProcessTable π → Prop
  | fork {x : Process π} {number : π} (hx : x ∈ t.processes) (halive : x.zombie = false)
    (hfree : t.Free number) : Acts t (.fork x.number number)
      ⟨⟨number, t.next, some x.self, x.group, x.clan, false⟩ :: t.processes, t.next + 1⟩
  | joins {x y : Process π} (hx : x ∈ t.processes) (hy : y ∈ t.processes) :
    Acts t (.setpgid x.number y.group)
      { t with processes := t.processes.map (regrouped x.number y.group y.clan) }
  | founds {x : Process π} (hx : x ∈ t.processes) (hnone : ∀ y ∈ t.processes, y.group ≠ x.number) :
    Acts t (.setpgid x.number x.number)
      { t with processes := t.processes.map (regrouped x.number x.number x.self) }
  | exit {x : Process π} (hx : x ∈ t.processes) (halive : x.zombie = false) :
    Acts t (.exit x.number) { t with processes := t.processes.map (exited x.number x.self) }
  | reap {x : Process π} (hx : x ∈ t.processes) (hzombie : x.zombie = true) :
    Acts t (.reap x.number) { t with processes := t.processes.filter fun y => y.number ≠ x.number }

theorem acts_of_act (h : t.act a = some u) : Acts t a u := by
  cases a with
  | fork parent number =>
    obtain ⟨x, hx, hact⟩ := Option.bind_eq_some_iff.mp h
    obtain ⟨hmem, rfl⟩ := mem_of_entry hx
    obtain ⟨⟨halive, hfree⟩, he⟩ := Option.ite_none_right_eq_some.mp hact
    obtain rfl := Option.some.inj he
    exact .fork hmem halive hfree
  | setpgid number group =>
    obtain ⟨x, hx, hact⟩ := Option.bind_eq_some_iff.mp h
    obtain ⟨hmem, rfl⟩ := mem_of_entry hx
    obtain ⟨clan, hclan, rfl⟩ := Option.map_eq_some_iff.mp hact
    rcases clan_cases hclan with ⟨y, hy, rfl, rfl⟩ | ⟨rfl, rfl, hnone⟩
    · exact .joins hmem hy
    · exact .founds hmem hnone
  | exit number =>
    obtain ⟨x, hx, hact⟩ := Option.bind_eq_some_iff.mp h
    obtain ⟨hmem, rfl⟩ := mem_of_entry hx
    obtain ⟨halive, he⟩ := Option.ite_none_right_eq_some.mp hact
    obtain rfl := Option.some.inj he
    exact .exit hmem halive
  | reap number =>
    obtain ⟨x, hx, hact⟩ := Option.bind_eq_some_iff.mp h
    obtain ⟨hmem, rfl⟩ := mem_of_entry hx
    obtain ⟨hzombie, he⟩ := Option.ite_none_right_eq_some.mp hact
    obtain rfl := Option.some.inj he
    exact .reap hmem hzombie

theorem exited_kept (hy : y ∈ t.processes) :
    Kept t (.exit y.number) x (exited y.number y.self x) := by
  unfold exited
  split_ifs with hnumber hparent
  · exact ⟨rfl, rfl, fun _ => ⟨rfl, rfl⟩, by simp [hnumber], .inl rfl⟩
  · exact ⟨rfl, rfl, fun _ => ⟨rfl, rfl⟩, by simp [Ne.symm hnumber], .inr ⟨y, hy, rfl, hparent, rfl⟩⟩
  · exact .refl fun he => hnumber (ProcessAct.exit.inj he).symm

theorem regrouped_kept (clan : Nat) :
    Kept t (.setpgid number group) x (regrouped number group clan x) := by
  unfold regrouped
  split_ifs with hnumber
  · exact ⟨rfl, rfl, fun hne => absurd (hnumber ▸ rfl) (hne group), by simp, .inl rfl⟩
  · exact .refl fun he => by cases he

/-- A process stays in the table until it is reaped. -/
theorem Acts.keeps (h : Acts t a u) (hx : x ∈ t.processes) (hreap : a ≠ .reap x.number) :
    ∃ y ∈ u.processes, Kept t a x y := by
  cases h with
  | fork hz halive hfree => exact ⟨x, List.mem_cons_of_mem _ hx, .refl fun he => by cases he⟩
  | joins hz hy => exact ⟨_, List.mem_map_of_mem hx, regrouped_kept _⟩
  | founds hz hnone => exact ⟨_, List.mem_map_of_mem hx, regrouped_kept _⟩
  | exit hz halive => exact ⟨_, List.mem_map_of_mem hx, exited_kept hz⟩
  | @reap z hz hzombie =>
    refine ⟨x, List.mem_filter.mpr ⟨hx, decide_eq_true fun he => hreap ?_⟩, .refl fun he => by cases he⟩
    rw [he]

/-- A process in the table was there before, or has just been forked. -/
theorem Acts.origin (h : Acts t a u) (hy : y ∈ u.processes) :
    (∃ x ∈ t.processes, Kept t a x y) ∨ ∃ x ∈ t.processes, a = .fork x.number y.number ∧
      t.Free y.number ∧ y = ⟨y.number, t.next, some x.self, x.group, x.clan, false⟩ := by
  cases h with
  | fork hz halive hfree =>
    rcases List.mem_cons.mp hy with rfl | hy
    · exact .inr ⟨_, hz, rfl, hfree, rfl⟩
    · exact .inl ⟨y, hy, .refl fun he => by cases he⟩
  | joins hz _ | founds hz _ =>
    obtain ⟨x, hx, rfl⟩ := List.mem_map.mp hy
    exact .inl ⟨x, hx, regrouped_kept _⟩
  | exit hz halive =>
    obtain ⟨x, hx, rfl⟩ := List.mem_map.mp hy
    exact .inl ⟨x, hx, exited_kept hz⟩
  | reap hz hzombie => exact .inl ⟨y, List.mem_of_mem_filter hy, .refl fun he => by cases he⟩

/-- A process may join a group that is of the clan, or that none belongs to. -/
theorem Consistent.regrouped (ht : t.Consistent) {clan : Nat} (hclan : clan < t.next)
    (hgroup : ∀ y ∈ t.processes, y.group = group → y.clan = clan)
    (hfounder : ∀ y ∈ t.processes, y.number = group → y.self = clan) :
    Consistent { t with processes := t.processes.map (regrouped number group clan) } where
  numbers := by
    rw [(map_kept fun _ => regrouped_kept clan).1]
    exact ht.numbers
  selves := by
    rw [(map_kept fun _ => regrouped_kept clan).2]
    exact ht.selves
  clan x hx y hy he := by
    obtain ⟨x, hmx, rfl⟩ := List.mem_map.mp hx
    obtain ⟨y, hmy, rfl⟩ := List.mem_map.mp hy
    unfold ProcessTable.regrouped at he ⊢
    split_ifs at he ⊢
    · rfl
    · exact (hgroup y hmy he.symm).symm
    · exact hgroup x hmx he
    · exact ht.clan x hmx y hmy he
  founder x hx y hy he := by
    obtain ⟨x, hmx, rfl⟩ := List.mem_map.mp hx
    obtain ⟨y, hmy, rfl⟩ := List.mem_map.mp hy
    have hx' : Kept t (.setpgid number group) x (ProcessTable.regrouped number group clan x) :=
      regrouped_kept clan
    rw [hx'.number] at he
    rw [hx'.self]
    unfold ProcessTable.regrouped at he ⊢
    split_ifs at he ⊢
    · exact (hfounder x hmx he).symm
    · exact ht.founder x hmx y hmy he
  next x hx := by
    obtain ⟨x, hmx, rfl⟩ := List.mem_map.mp hx
    unfold ProcessTable.regrouped
    split_ifs
    · exact ⟨(ht.next x hmx).1, hclan⟩
    · exact ht.next x hmx

theorem Consistent.act (ht : t.Consistent) (h : t.act a = some u) : u.Consistent := by
  cases acts_of_act h with
  | fork hx halive hfree => exact ht.fork hx hfree
  | @joins x y hx hy =>
    exact ht.regrouped (ht.next y hy).2 (fun z hz => ht.clan z hz y hy)
      (fun z hz he => (ht.founder z hz y hy he).symm)
  | @founds x hx hnone =>
    refine ht.regrouped (ht.next x hx).1 (fun y hy he => absurd he (hnone y hy)) fun y hy he => ?_
    rw [ht.eq_of_number hy hx he]
  | exit hx halive => exact ht.kept fun x => exited_kept hx
  | reap hx hzombie => exact ht.filter _

/-- The process, or the zombie left of it, is in the table and its parent's to reap. -/
def Ward (t : ProcessTable π) (number : π) (self parent : Nat) : Prop :=
  ∃ x ∈ t.processes, x.number = number ∧ x.self = self ∧ x.parent = some parent

def Alive (t : ProcessTable π) (self : Nat) : Prop :=
  ∃ x ∈ t.processes, x.self = self ∧ x.zombie = false

instance (t : ProcessTable π) (self : Nat) : Decidable (t.Alive self) :=
  inferInstanceAs (Decidable (∃ x ∈ t.processes, _))

theorem Alive.of_act {self : Nat} (hu : u.Alive self) (h : t.act a = some u) (hself : self < t.next) :
    t.Alive self := by
  obtain ⟨y, hy, rfl, halive⟩ := hu
  rcases (acts_of_act h).origin hy with ⟨x, hx, hkept⟩ | ⟨x, hx, -, -, he⟩
  · refine ⟨x, hx, hkept.self.symm, Bool.eq_false_iff.mpr fun hzombie => ?_⟩
    exact Bool.eq_false_iff.mp halive (hkept.zombie.mpr (.inl hzombie))
  · rw [he] at hself
    exact absurd hself (Nat.lt_irrefl _)

/-- A process that lives goes on unless it exits. -/
theorem Alive.act {self : Nat} (ht : t.Consistent) (halive : t.Alive self) (h : t.act a = some u)
    (hexit : ∀ x ∈ t.processes, x.self = self → a ≠ .exit x.number) : u.Alive self := by
  obtain ⟨x, hx, hself, hzombie⟩ := halive
  have hreap : a ≠ .reap x.number := by
    rintro rfl
    obtain ⟨y, hy, hact⟩ := Option.bind_eq_some_iff.mp h
    obtain ⟨hdead, -⟩ := Option.ite_none_right_eq_some.mp hact
    rw [ht.entry hx] at hy
    obtain rfl := Option.some.inj hy
    rw [hzombie] at hdead
    cases hdead
  obtain ⟨y, hy, hkept⟩ := (acts_of_act h).keeps hx hreap
  refine ⟨y, hy, hkept.self.trans hself, Bool.eq_false_iff.mpr fun hdead => ?_⟩
  rcases hkept.zombie.mp hdead with hdead | hact
  · rw [hzombie] at hdead
    cases hdead
  · exact hexit x hx hself hact

theorem not_alive_of_exit (ht : t.Consistent) (hx : x ∈ t.processes) (h : t.act (.exit x.number) = some u) :
    ¬ u.Alive x.self := by
  rintro ⟨y, hy, hself, halive⟩
  rcases (acts_of_act h).origin hy with ⟨z, hz, hkept⟩ | ⟨z, -, he, -⟩
  · obtain rfl := ht.eq_of_self hz hx (hkept.self.symm.trans hself)
    rw [hkept.zombie.mpr (.inr rfl)] at halive
    cases halive
  · cases he

/-- Nobody has a parent that is gone. -/
def Parented (t : ProcessTable π) : Prop :=
  ∀ x ∈ t.processes, ∀ parent, x.parent = some parent → parent ≠ x.self ∧ t.Alive parent

theorem Parented.act (hp : t.Parented) (ht : t.Consistent) (h : t.act a = some u) : u.Parented := by
  have hacts := acts_of_act h
  intro y hy parent hparent
  rcases hacts.origin hy with ⟨x, hx, hkept⟩ | ⟨x, hx, rfl, -, he⟩
  · have hx' : x.parent = some parent := by
      rcases hkept.parent with he | ⟨z, -, -, -, he⟩
      · exact he.symm.trans hparent
      · rw [hparent] at he
        cases he
    obtain ⟨hne, halive⟩ := hp x hx parent hx'
    refine ⟨hkept.self ▸ hne, halive.act ht h fun z hz hself hact => ?_⟩
    -- the children of a process that exits are no longer its own
    subst hact
    obtain ⟨w, hw, hact⟩ := Option.bind_eq_some_iff.mp h
    rw [ht.entry hz] at hw
    obtain rfl := Option.some.inj hw
    obtain rfl := Option.some.inj (Option.ite_none_right_eq_some.mp hact).2
    obtain ⟨v, hv, rfl⟩ := List.mem_map.mp hy
    obtain rfl : v = x := ht.eq_of_self hv hx ((exited_kept (t := t) hz).self.symm.trans hkept.self)
    have hnumber : v.number ≠ z.number := by
      intro he
      obtain rfl := ht.eq_of_number hv hz he
      exact hne hself.symm
    simp [exited, hnumber, hx', hself] at hparent
  · obtain ⟨w, hw, hact⟩ := Option.bind_eq_some_iff.mp h
    rw [ht.entry hx] at hw
    obtain rfl := Option.some.inj hw
    rw [he] at hparent ⊢
    obtain rfl := Option.some.inj hparent
    have halive : t.Alive x.self := ⟨x, hx, rfl, (Option.ite_none_right_eq_some.mp hact).1.1⟩
    exact ⟨Nat.ne_of_lt (ht.next x hx).1, halive.act ht h (by simp)⟩

theorem next_le_of_act (h : t.act a = some u) : t.next ≤ u.next := by
  cases acts_of_act h with
  | fork hx halive hfree => exact Nat.le_succ _
  | joins hx hy | founds hx hnone | exit hx halive | reap hx hzombie => exact Nat.le_refl _

/-- If the process is in the table, it is under that number. -/
def Tracks (t : ProcessTable π) (number : π) (self : Nat) : Prop :=
  self < t.next ∧ ∀ x ∈ t.processes, x.self = self → x.number = number

/-- If the process is in the table, it is in that group of that clan. -/
def Settled (t : ProcessTable π) (self : Nat) (group : π) (clan : Nat) : Prop :=
  self < t.next ∧ ∀ x ∈ t.processes, x.self = self → x.group = group ∧ x.clan = clan

theorem Tracks.act {self : Nat} (ht : t.Tracks number self) (h : t.act a = some u) :
    u.Tracks number self := by
  refine ⟨Nat.lt_of_lt_of_le ht.1 (next_le_of_act h), fun y hy hself => ?_⟩
  rcases (acts_of_act h).origin hy with ⟨x, hx, hkept⟩ | ⟨x, hx, -, -, he⟩
  · rw [hkept.number]
    exact ht.2 x hx (hkept.self.symm.trans hself)
  · rw [he] at hself
    exact absurd ht.1 (Nat.not_lt.mpr (Nat.le_of_eq hself))

theorem Settled.act {self clan : Nat} (ht : t.Settled self group clan) (h : t.act a = some u)
    (hset : ∀ x ∈ t.processes, x.self = self → ∀ group, a ≠ .setpgid x.number group) :
    u.Settled self group clan := by
  refine ⟨Nat.lt_of_lt_of_le ht.1 (next_le_of_act h), fun y hy hself => ?_⟩
  rcases (acts_of_act h).origin hy with ⟨x, hx, hkept⟩ | ⟨x, hx, -, -, he⟩
  · have hx' := hkept.self.symm.trans hself
    obtain ⟨hgroup, hclan⟩ := hkept.group (hset x hx hx')
    rw [hgroup, hclan]
    exact ht.2 x hx hx'
  · rw [he] at hself
    exact absurd ht.1 (Nat.not_lt.mpr (Nat.le_of_eq hself))

/-- The process that is forked is the ward of the one that forks it. -/
theorem ward_of_fork {parent : π} {self : Nat} (h : t.act (.fork parent number) = some u)
    (ht : t.Consistent) (htracks : t.Tracks parent self) (halive : t.Alive self) :
    t.Free number ∧ u.Ward number t.next self ∧ u.Tracks number t.next := by
  obtain ⟨p, hp, rfl, -⟩ := halive
  have hnumber := htracks.2 p hp rfl
  cases acts_of_act h with
  | @fork x number hx hxalive hfree =>
    obtain rfl := ht.eq_of_number hp hx hnumber
    refine ⟨hfree, ⟨_, List.mem_cons_self, rfl, rfl, rfl⟩, Nat.lt_succ_self _, fun y hy hself => ?_⟩
    rcases List.mem_cons.mp hy with rfl | hy
    · rfl
    · exact absurd hself (Nat.ne_of_lt (ht.next y hy).1)

/-- A process that joins a group settles with those that hold it. -/
theorem settled_of_setpgid {clan : Nat} (h : t.act (.setpgid number group) = some u)
    (ht : t.Consistent) (hx : x ∈ t.processes) (hnumber : x.number = number) (hheld : t.Held group clan) :
    u.Settled x.self group clan := by
  refine ⟨Nat.lt_of_lt_of_le (ht.next x hx).1 (next_le_of_act h), ?_⟩
  have hregrouped : ∀ clan, ∀ y ∈ t.processes.map (regrouped number group clan), y.self = x.self →
      y.group = group ∧ y.clan = clan := by
    intro clan y hy hself
    obtain ⟨z, hz, rfl⟩ := List.mem_map.mp hy
    rw [(regrouped_kept (t := t) clan).self] at hself
    obtain rfl := ht.eq_of_self hz hx hself
    rw [regrouped, if_pos hnumber]
    exact ⟨rfl, rfl⟩
  cases acts_of_act h with
  | @joins z y hz hy =>
    rw [← hheld.1 y hy rfl]
    exact hregrouped y.clan
  | @founds z hz hnone =>
    rw [← hheld.2 z hz rfl]
    exact hregrouped z.self

/-- A ward stays one while its parent lives and does not reap it. -/
theorem Ward.act (ht : t.Consistent) {self parent : Nat} (hward : t.Ward number self parent)
    (h : t.act a = some u) (hreap : a ≠ .reap number) (hself : parent < t.next) (hu : u.Alive parent) :
    u.Ward number self parent := by
  obtain ⟨x, hx, rfl, rfl, hparent⟩ := hward
  obtain ⟨y, hy, hkept⟩ := (acts_of_act h).keeps hx hreap
  refine ⟨y, hy, hkept.number, hkept.self, ?_⟩
  rcases hkept.parent with he | ⟨z, hz, rfl, hz', -⟩
  · rw [he, hparent]
  · obtain rfl : z.self = parent := Option.some.inj (hz'.symm.trans hparent)
    obtain ⟨w, hw, hwself, halive⟩ := hu
    rcases (acts_of_act h).origin hw with ⟨v, hv, hvkept⟩ | ⟨v, hv, he, -⟩
    · obtain rfl : v = z := ht.eq_of_self hv hz (hvkept.self.symm.trans hwself)
      exact absurd (hvkept.zombie.mpr (.inr rfl)) (Bool.eq_false_iff.mp halive)
    · cases he

end ProcessTable

end PidSentry
