/-
Notions shared by models of concurrent programs: how many threads of a pool are
at a given place, the standard signals waiting for a process, and objects that
processes open by a name which may be removed and given to a new object.
-/
import Mathlib.Algebra.BigOperators.Fin
import Mathlib.Algebra.Order.BigOperators.Group.Finset
import Mathlib.Logic.Function.Basic

namespace ThreadPool

universe u v

variable {Thread : Type u} {Place : Type v} [Fintype Thread]

/-- The number of threads whose place satisfies `at?`. -/
def countAt (place : Thread → Place) (inside : Place → Bool) : Nat :=
  ∑ thread, (inside (place thread)).toNat

/-- Moving one thread changes the count by that thread's contribution only. -/
theorem countAt_update [DecidableEq Thread] (place : Thread → Place)
    (inside : Place → Bool) (thread : Thread) (next : Place) :
    countAt (Function.update place thread next) inside +
        (inside (place thread)).toNat =
      countAt place inside + (inside next).toNat := by
  have hbefore := Finset.add_sum_erase Finset.univ
    (fun other => (inside (place other)).toNat) (Finset.mem_univ thread)
  have hafter := Finset.add_sum_erase Finset.univ
    (fun other => (inside (Function.update place thread next other)).toNat)
    (Finset.mem_univ thread)
  have hothers :
      ∑ other ∈ Finset.univ.erase thread,
          (inside (Function.update place thread next other)).toNat =
        ∑ other ∈ Finset.univ.erase thread, (inside (place other)).toNat := by
    apply Finset.sum_congr rfl
    intro other hother
    rw [Function.update_of_ne (Finset.ne_of_mem_erase hother)]
  simp only [Function.update_self] at hafter
  simp only [countAt]
  omega

/-- A move that does not cross the border of the places leaves the count. -/
theorem countAt_update_of_same [DecidableEq Thread] {place : Thread → Place}
    {inside : Place → Bool} {thread : Thread} {next : Place}
    (hsame : inside next = inside (place thread)) :
    countAt (Function.update place thread next) inside =
      countAt place inside := by
  have hcount := countAt_update place inside thread next
  rw [hsame] at hcount
  exact Nat.add_right_cancel hcount

theorem countAt_pos {place : Thread → Place} {inside : Place → Bool}
    {thread : Thread} (hinside : inside (place thread) = true) :
    0 < countAt place inside := by
  have hle : (inside (place thread)).toNat ≤ countAt place inside :=
    Finset.single_le_sum
      (fun other _ => Nat.zero_le (inside (place other)).toNat)
      (Finset.mem_univ thread)
  rw [hinside, Bool.toNat_true] at hle
  exact hle

theorem countAt_eq_zero_iff {place : Thread → Place} {inside : Place → Bool} :
    countAt place inside = 0 ↔ ∀ thread, inside (place thread) = false := by
  simp [countAt, Finset.sum_eq_zero_iff]

/-- Disjoint places inside a third are counted there together. -/
theorem countAt_add_le {place : Thread → Place}
    {first second outer : Place → Bool}
    (hinside : ∀ here, (first here).toNat + (second here).toNat ≤
      (outer here).toNat) :
    countAt place first + countAt place second ≤ countAt place outer := by
  unfold countAt
  rw [← Finset.sum_add_distrib]
  exact Finset.sum_le_sum fun thread _ => hinside (place thread)

theorem countAt_mono {place : Thread → Place} {inside outer : Place → Bool}
    (hinside : ∀ here, inside here = true → outer here = true) :
    countAt place inside ≤ countAt place outer :=
  Finset.sum_le_sum fun thread _ =>
    Bool.toNat_le_toNat (hinside (place thread))

/-- With at most one thread at the places, two threads there are the same. -/
theorem eq_of_countAt_le_one [DecidableEq Thread] {place : Thread → Place}
    {inside : Place → Bool} {first second : Thread}
    (hle : countAt place inside ≤ 1) (hfirst : inside (place first) = true)
    (hsecond : inside (place second) = true) : first = second := by
  by_contra hne
  have hpair : ∑ thread ∈ {first, second}, (inside (place thread)).toNat ≤
      countAt place inside :=
    Finset.sum_le_sum_of_subset (Finset.subset_univ _)
  rw [Finset.sum_pair hne, hfirst, hsecond, Bool.toNat_true] at hpair
  omega

/-- Places that no two threads share. -/
theorem countAt_le_one_of_unique {place : Thread → Place}
    {inside : Place → Bool}
    (hunique : ∀ first second, inside (place first) = true →
      inside (place second) = true → first = second) :
    countAt place inside ≤ 1 := by
  by_cases hsome : ∃ thread, inside (place thread) = true
  · obtain ⟨thread, hthread⟩ := hsome
    have hsingle : countAt place inside = (inside (place thread)).toNat := by
      apply Finset.sum_eq_single thread
      · intro other _ hne
        have hout : inside (place other) = false := by
          rw [← Bool.not_eq_true]
          exact fun hother => hne (hunique other thread hother hthread)
        rw [hout, Bool.toNat_false]
      · exact fun hmem => absurd (Finset.mem_univ thread) hmem
    exact hsingle.trans_le (Bool.toNat_le _)
  · have hnone : countAt place inside = 0 := by
      rw [countAt_eq_zero_iff]
      intro thread
      rw [← Bool.not_eq_true]
      exact fun hthread => hsome ⟨thread, hthread⟩
    omega

/-- Places inside one of two others are counted there. -/
theorem countAt_le_add {place : Thread → Place}
    {first second outer : Place → Bool}
    (hinside : ∀ here, outer here = true →
      first here = true ∨ second here = true) :
    countAt place outer ≤ countAt place first + countAt place second := by
  unfold countAt
  rw [← Finset.sum_add_distrib]
  apply Finset.sum_le_sum
  intro thread _
  cases houter : outer (place thread) with
  | false => exact Nat.zero_le _
  | true =>
      rcases hinside _ houter with hfirst | hsecond
      · rw [hfirst]
        exact Nat.le_add_right _ _
      · rw [hsecond]
        exact Nat.le_add_left _ _

theorem countAt_le_card (place : Thread → Place) (inside : Place → Bool) :
    countAt place inside ≤ Fintype.card Thread := by
  calc countAt place inside ≤ ∑ _thread : Thread, 1 :=
        Finset.sum_le_sum fun thread _ => Bool.toNat_le (inside (place thread))
    _ = Fintype.card Thread := by simp

/-- After a move a property of the places is checked at the destination and for
the other threads. -/
theorem forall_of_update {Thread : Type u} [DecidableEq Thread]
    (Q : Place → Prop) {place next : Thread → Place} {thread : Thread}
    {dest : Place} (hplace : next = Function.update place thread dest)
    (hdest : Q dest) (hothers : ∀ other, other ≠ thread → Q (place other)) :
    ∀ other, Q (next other) := by
  rw [hplace]
  exact (Function.forall_update_iff place fun _ => Q).mpr ⟨hdest, hothers⟩

/-- What a move of one thread that leaves a view of its place leaves of all. -/
theorem update_of_same {View : Type*} {Thread : Type u} [DecidableEq Thread]
    {place : Thread → Place} {view : Place → View} {thread : Thread}
    {dest : Place} (hsame : view dest = view (place thread))
    (other : Thread) :
    view (Function.update place thread dest other) = view (place other) := by
  by_cases hother : other = thread
  · rw [hother, Function.update_self, hsame]
  · rw [Function.update_of_ne hother]

/-- A move that lowers the measure of one thread lowers the sum. -/
theorem sum_update_lt [DecidableEq Thread] {place : Thread → Place}
    {measure : Place → Nat} {thread : Thread} {dest : Place}
    (hless : measure dest < measure (place thread)) :
    ∑ other, measure (Function.update place thread dest other) <
      ∑ other, measure (place other) := by
  refine Finset.sum_lt_sum (fun other _ => ?_)
    ⟨thread, Finset.mem_univ thread, ?_⟩
  · by_cases hother : other = thread
    · rw [hother, Function.update_self]
      exact hless.le
    · rw [Function.update_of_ne hother]
  · rw [Function.update_self]
    exact hless

/-- The entries of a record are those of all threads together. -/
theorem sum_length_filter [DecidableEq Thread] {Entry : Type*}
    (record : List (Thread × Entry)) :
    ∑ thread, (record.filter fun entry => entry.1 = thread).length =
      record.length := by
  induction record with
  | nil => simp
  | cons entry record ih =>
      have hsplit : ∀ thread,
          ((entry :: record).filter fun entry => entry.1 = thread).length =
            (if entry.1 = thread then 1 else 0) +
              (record.filter fun entry => entry.1 = thread).length := by
        intro thread
        by_cases hthread : entry.1 = thread
        · rw [List.filter_cons_of_pos (by simpa using hthread),
            List.length_cons, if_pos hthread, Nat.add_comm]
        · rw [List.filter_cons_of_neg (by simpa using hthread),
            if_neg hthread, Nat.zero_add]
      rw [Finset.sum_congr rfl fun thread _ => hsplit thread,
        Finset.sum_add_distrib, ih, Finset.sum_ite_eq,
        if_pos (Finset.mem_univ _), List.length_cons, Nat.add_comm]

/-- A lock admits threads to the places one at a time. -/
def Exclusive (place : Thread → Place) (inside : Place → Bool)
    (locked : Bool) : Prop :=
  countAt place inside = locked.toNat

section Exclusive

variable {place : Thread → Place} {inside : Place → Bool} {locked : Bool}
  {thread other : Thread} {dest : Place}

theorem Exclusive.locked_of_inside (hlock : Exclusive place inside locked)
    (hinside : inside (place thread) = true) : locked = true := by
  have hpos := countAt_pos hinside
  rw [hlock] at hpos
  cases locked with
  | false => exact absurd hpos (by decide)
  | true => rfl

theorem Exclusive.free (hlock : Exclusive place inside false)
    (thread : Thread) : inside (place thread) = false :=
  countAt_eq_zero_iff.mp hlock thread

theorem Exclusive.unlocked (hlock : Exclusive place inside locked)
    (houtside : ∀ thread, inside (place thread) = false) : locked = false := by
  rw [Exclusive, countAt_eq_zero_iff.mpr houtside] at hlock
  cases locked with
  | false => rfl
  | true => exact absurd hlock (by decide)

variable [DecidableEq Thread]

theorem Exclusive.unique (hlock : Exclusive place inside locked)
    (hthread : inside (place thread) = true)
    (hother : inside (place other) = true) : other = thread := by
  apply eq_of_countAt_le_one _ hother hthread
  rw [hlock]
  exact Bool.toNat_le locked

theorem Exclusive.stay (hlock : Exclusive place inside locked)
    (hsame : inside dest = inside (place thread)) :
    Exclusive (Function.update place thread dest) inside locked := by
  have hcount := countAt_update place inside thread dest
  rw [hsame] at hcount
  unfold Exclusive at hlock ⊢
  omega

theorem Exclusive.enter (hlock : Exclusive place inside false)
    (hinside : inside dest = true) :
    Exclusive (Function.update place thread dest) inside true := by
  have hcount := countAt_update place inside thread dest
  rw [hlock.free thread, hinside] at hcount
  unfold Exclusive at hlock ⊢
  simp only [Bool.toNat_true, Bool.toNat_false] at hcount hlock ⊢
  omega

theorem Exclusive.leave (hlock : Exclusive place inside locked)
    (hinside : inside (place thread) = true)
    (houtside : inside dest = false) :
    Exclusive (Function.update place thread dest) inside false := by
  have hcount := countAt_update place inside thread dest
  rw [hlock.locked_of_inside hinside] at hlock
  rw [hinside, houtside] at hcount
  unfold Exclusive at hlock ⊢
  simp only [Bool.toNat_true, Bool.toNat_false] at hcount hlock ⊢
  omega

/-- What a move of a thread does to a lock: nothing, or it takes the free lock on
its way in, or gives it back on its way out. -/
def LockStep (inside : Place → Bool) (here dest : Place)
    (locked next : Bool) : Prop :=
  (inside dest = inside here ∧ next = locked) ∨
    (inside dest = true ∧ locked = false ∧ next = true) ∨
    (inside here = true ∧ inside dest = false ∧ next = false)

theorem Exclusive.move {next : Bool} (hlock : Exclusive place inside locked)
    (hstep : LockStep inside (place thread) dest locked next) :
    Exclusive (Function.update place thread dest) inside next := by
  rcases hstep with ⟨hsame, rfl⟩ | ⟨hdest, rfl, rfl⟩ | ⟨hhere, hdest, rfl⟩
  · exact hlock.stay hsame
  · exact hlock.enter hdest
  · exact hlock.leave hhere hdest

end Exclusive

/-- An amount that depends on the place, added up over the threads. -/
def totalAt (place : Thread → Place) (amount : Place → Int) : Int :=
  ∑ thread, amount (place thread)

theorem totalAt_update [DecidableEq Thread] (place : Thread → Place)
    (amount : Place → Int) (thread : Thread) (next : Place) :
    totalAt (Function.update place thread next) amount +
        amount (place thread) =
      totalAt place amount + amount next := by
  have hbefore := Finset.add_sum_erase Finset.univ
    (fun other => amount (place other)) (Finset.mem_univ thread)
  have hafter := Finset.add_sum_erase Finset.univ
    (fun other => amount (Function.update place thread next other))
    (Finset.mem_univ thread)
  have hothers :
      ∑ other ∈ Finset.univ.erase thread,
          amount (Function.update place thread next other) =
        ∑ other ∈ Finset.univ.erase thread, amount (place other) := by
    apply Finset.sum_congr rfl
    intro other hother
    rw [Function.update_of_ne (Finset.ne_of_mem_erase hother)]
  simp only [Function.update_self] at hafter
  simp only [totalAt]
  omega

theorem totalAt_nonneg {place : Thread → Place} {amount : Place → Int}
    (hamount : ∀ thread, 0 ≤ amount (place thread)) :
    0 ≤ totalAt place amount :=
  Finset.sum_nonneg fun thread _ => hamount thread

theorem totalAt_eq_zero {place : Thread → Place} {amount : Place → Int}
    (hamount : ∀ thread, amount (place thread) = 0) :
    totalAt place amount = 0 :=
  Finset.sum_eq_zero fun thread _ => hamount thread

end ThreadPool

namespace StandardSignals

universe u

variable {Signal : Type u}

/-- One pending flag for each signal number: a signal sent again before it is
delivered is merged with the pending one. -/
abbrev Pending (Signal : Type u) := Signal → Bool

def Pending.none : Pending Signal := fun _ => false

/-- The deliveries a pending flag still stands for. -/
def Pending.due (pending : Pending Signal) (signal : Signal) : Int :=
  if pending signal then 1 else 0

section Due

variable {pending : Pending Signal} {signal : Signal}

@[simp] theorem Pending.none_apply :
    (Pending.none : Pending Signal) signal = false := rfl

@[simp] theorem Pending.due_none :
    (Pending.none : Pending Signal).due signal = 0 := rfl

theorem Pending.due_of_pending (hpending : pending signal = true) :
    pending.due signal = 1 := by
  simp [Pending.due, hpending]

theorem Pending.due_of_not_pending (hpending : pending signal = false) :
    pending.due signal = 0 := by
  simp [Pending.due, hpending]

theorem Pending.due_nonneg (pending : Pending Signal) (signal : Signal) :
    0 ≤ pending.due signal := by
  unfold Pending.due
  split <;> omega

end Due

section RaiseClear

variable [DecidableEq Signal]

def Pending.raise (pending : Pending Signal) (signal : Signal) :
    Pending Signal :=
  Function.update pending signal true

def Pending.clear (pending : Pending Signal) (signal : Signal) :
    Pending Signal :=
  Function.update pending signal false

variable {pending : Pending Signal} {signal other : Signal}

@[simp] theorem Pending.raise_self : pending.raise signal signal = true := by
  simp [Pending.raise]

@[simp] theorem Pending.raise_of_ne (hne : other ≠ signal) :
    pending.raise signal other = pending other := by
  simp [Pending.raise, hne]

@[simp] theorem Pending.clear_self : pending.clear signal signal = false := by
  simp [Pending.clear]

@[simp] theorem Pending.clear_of_ne (hne : other ≠ signal) :
    pending.clear signal other = pending other := by
  simp [Pending.clear, hne]

@[simp] theorem Pending.due_raise_self :
    (pending.raise signal).due signal = 1 := by
  simp [Pending.due]

@[simp] theorem Pending.due_raise_of_ne (hne : other ≠ signal) :
    (pending.raise signal).due other = pending.due other := by
  simp [Pending.due, hne]

@[simp] theorem Pending.due_clear_self :
    (pending.clear signal).due signal = 0 := by
  simp [Pending.due]

@[simp] theorem Pending.due_clear_of_ne (hne : other ≠ signal) :
    (pending.clear signal).due other = pending.due other := by
  simp [Pending.due, hne]

/-- The delivery that a taken signal was due leaves the others. -/
theorem Pending.due_clear (hpending : pending signal = true) (other : Signal) :
    (pending.clear signal).due other + (decide (signal = other)).toNat =
      pending.due other := by
  by_cases hother : signal = other
  · rw [← hother, Pending.due_clear_self, Pending.due_of_pending hpending]
    simp
  · rw [Pending.due_clear_of_ne (Ne.symm hother)]
    simp [hother]

end RaiseClear

end StandardSignals

namespace NamedObjects

universe u

variable {Object : Type u}

/-- The objects made so far and the one that the name stands for now.  An object
outlives its name. -/
structure Registry (Object : Type u) where
  name : Option Nat
  made : Nat
  object : Nat → Object
  name_lt : ∀ id, name = some id → id < made

namespace Registry

/-- No object has been made. -/
def empty (value : Object) : Registry Object where
  name := none
  made := 0
  object := fun _ => value
  name_lt := fun _ heq => nomatch heq

def unlink (registry : Registry Object) : Registry Object where
  name := none
  made := registry.made
  object := registry.object
  name_lt := fun _ heq => nomatch heq

def set (registry : Registry Object) (id : Nat) (value : Object) :
    Registry Object :=
  { registry with object := Function.update registry.object id value }

/-- Give the name to a new object. -/
def make (registry : Registry Object) (value : Object) : Registry Object where
  name := some registry.made
  made := registry.made + 1
  object := Function.update registry.object registry.made value
  name_lt := fun _ heq => Option.some.inj heq ▸ Nat.lt_succ_self _

/-- Open the named object, or make one. -/
def openOrMake (registry : Registry Object) (value : Object) :
    Registry Object × Nat :=
  match registry.name with
  | some id => (registry, id)
  | none => (registry.make value, registry.made)

/-- What any use of a registry keeps. -/
structure Extends (registry later : Registry Object) : Prop where
  made_le : registry.made ≤ later.made
  name_new : ∀ id, later.name = some id →
    registry.name = some id ∨ registry.made ≤ id

variable {registry : Registry Object} {value : Object} {id : Nat}

theorem Extends.refl (registry : Registry Object) :
    Extends registry registry :=
  ⟨le_refl _, fun _ hname => .inl hname⟩

@[simp] theorem unlink_name : registry.unlink.name = none := rfl

@[simp] theorem unlink_made : registry.unlink.made = registry.made := rfl

@[simp] theorem unlink_object : registry.unlink.object = registry.object := rfl

theorem extends_unlink (registry : Registry Object) :
    Extends registry registry.unlink :=
  ⟨le_refl _, fun _ hname => nomatch hname⟩

@[simp] theorem set_name : (registry.set id value).name = registry.name := rfl

@[simp] theorem set_made : (registry.set id value).made = registry.made := rfl

@[simp] theorem set_object_self :
    (registry.set id value).object id = value := Function.update_self ..

@[simp] theorem set_object_of_ne {other : Nat} (hne : other ≠ id) :
    (registry.set id value).object other = registry.object other :=
  Function.update_of_ne hne ..

theorem extends_set (registry : Registry Object) (id : Nat) (value : Object) :
    Extends registry (registry.set id value) :=
  ⟨le_refl _, fun _ hname => .inl hname⟩

/-- Opening gives the object that the name stands for from then on. -/
theorem openOrMake_name :
    (registry.openOrMake value).1.name =
      some (registry.openOrMake value).2 := by
  unfold openOrMake
  split
  · assumption
  · rfl

theorem openOrMake_lt :
    (registry.openOrMake value).2 < (registry.openOrMake value).1.made :=
  (registry.openOrMake value).1.name_lt _ openOrMake_name

theorem extends_openOrMake (registry : Registry Object) (value : Object) :
    Extends registry (registry.openOrMake value).1 := by
  unfold openOrMake
  split
  · exact Extends.refl registry
  · refine ⟨Nat.le_succ _, ?_⟩
    rintro id hname
    exact .inr (Option.some.inj hname).le

/-- Objects that were there before are left alone. -/
theorem openOrMake_object (hlt : id < registry.made) :
    (registry.openOrMake value).1.object id = registry.object id := by
  unfold openOrMake
  split
  · rfl
  · exact Function.update_of_ne hlt.ne _ _

/-- What is opened under no name is new. -/
theorem openOrMake_of_none (hname : registry.name = none) :
    registry.openOrMake value = (registry.make value, registry.made) := by
  rw [openOrMake, hname]

@[simp] theorem make_object :
    (registry.make value).object registry.made = value :=
  Function.update_self ..

end Registry

end NamedObjects
