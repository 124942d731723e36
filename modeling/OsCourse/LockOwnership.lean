/-
Locks with owners.  What a thread holds is read off from where it is; a lock
has an owner exactly if that thread is where the lock is held.  Threads that
take their locks in order never wait in a circle.
-/
import Mathlib.Logic.Function.Basic
import Mathlib.Logic.Relation

namespace LockOwnership

universe u v

variable {Thread : Type u} {Lock : Type v}

/-- The owner of a lock is the thread that holds it. -/
def OwnedBy (owner : Option Thread) (holds : Thread → Prop) : Prop :=
  ∀ thread, owner = some thread ↔ holds thread

section Owner

variable {owner : Option Thread} {holds after : Thread → Prop} {thread : Thread}

theorem OwnedBy.free (howned : OwnedBy none holds) (thread : Thread) :
    ¬ holds thread := by
  intro hholds
  have howner := (howned thread).mpr hholds
  contradiction

theorem OwnedBy.unique (howned : OwnedBy owner holds) {other : Thread}
    (hthread : holds thread) (hother : holds other) : thread = other := by
  have howner := (howned thread).mpr hthread
  rw [(howned other).mpr hother, Option.some.injEq] at howner
  exact howner.symm

theorem OwnedBy.keep (howned : OwnedBy owner holds)
    (hsame : ∀ other, after other ↔ holds other) : OwnedBy owner after :=
  fun other => (howned other).trans (hsame other).symm

theorem OwnedBy.acquire (howned : OwnedBy none holds) (hself : after thread)
    (hothers : ∀ other, other ≠ thread → (after other ↔ holds other)) :
    OwnedBy (some thread) after := by
  intro other
  rw [Option.some.injEq]
  constructor
  · rintro rfl
    exact hself
  · intro hafter
    by_contra hne
    exact howned.free other ((hothers other (Ne.symm hne)).mp hafter)

theorem OwnedBy.release (howned : OwnedBy owner holds) (hholds : holds thread)
    (hself : ¬ after thread)
    (hothers : ∀ other, other ≠ thread → (after other ↔ holds other)) :
    OwnedBy none after := by
  intro other
  refine ⟨fun hnone => by contradiction, ?_⟩
  intro hafter
  by_cases heq : other = thread
  · exact absurd (heq ▸ hafter) hself
  · have hother := (hothers other heq).mp hafter
    exact absurd (howned.unique hother hholds) heq

end Owner

/-- A table of locks, each owned by the thread that holds it. -/
def AllOwned (owner : Lock → Option Thread) (holds : Lock → Thread → Prop) :
    Prop :=
  ∀ lock, OwnedBy (owner lock) (holds lock)

section Table

variable {owner : Lock → Option Thread} {holds after : Lock → Thread → Prop}
  {lock : Lock} {thread : Thread}

theorem AllOwned.keep (howned : AllOwned owner holds)
    (hsame : ∀ other someone, after other someone ↔ holds other someone) :
    AllOwned owner after :=
  fun other => (howned other).keep (hsame other)

variable [DecidableEq Lock]

/-- Taking one free lock. -/
theorem AllOwned.acquire (howned : AllOwned owner holds)
    (hfree : owner lock = none) (hself : after lock thread)
    (hsame : ∀ other someone, other ≠ lock ∨ someone ≠ thread →
      (after other someone ↔ holds other someone)) :
    AllOwned (Function.update owner lock (some thread)) after := by
  intro other
  by_cases heq : other = lock
  · subst other
    rw [Function.update_self]
    have hlock := howned lock
    rw [hfree] at hlock
    exact hlock.acquire hself fun someone hne => hsame lock someone (.inr hne)
  · rw [Function.update_of_ne heq]
    exact (howned other).keep fun someone => hsame other someone (.inl heq)

/-- Giving one lock back. -/
theorem AllOwned.release (howned : AllOwned owner holds)
    (hholds : holds lock thread) (hself : ¬ after lock thread)
    (hsame : ∀ other someone, other ≠ lock ∨ someone ≠ thread →
      (after other someone ↔ holds other someone)) :
    AllOwned (Function.update owner lock none) after := by
  intro other
  by_cases heq : other = lock
  · subst other
    rw [Function.update_self]
    exact (howned lock).release hholds hself fun someone hne =>
      hsame lock someone (.inr hne)
  · rw [Function.update_of_ne heq]
    exact (howned other).keep fun someone => hsame other someone (.inl heq)

end Table

section Deadlock

variable {waiting : Thread → Option Lock} {owner : Lock → Option Thread}

/-- A thread waits for a lock that the other one holds. -/
def WaitsOn (waiting : Thread → Option Lock) (owner : Lock → Option Thread)
    (thread other : Thread) : Prop :=
  ∃ lock, waiting thread = some lock ∧ owner lock = some other

/-- No thread waits for itself, directly or through others. -/
structure DeadlockFree (waiting : Thread → Option Lock)
    (owner : Lock → Option Thread) : Prop where
  selfWait : ∀ thread lock, waiting thread = some lock →
    owner lock ≠ some thread
  cycle : ∀ thread, ¬ Relation.TransGen (WaitsOn waiting owner) thread thread

/-- Along a chain of waiting threads the locks go up. -/
theorem rank_lt_of_chain (rank : Lock → Nat)
    (hordered : ∀ thread held wanted, owner held = some thread →
      waiting thread = some wanted → rank held < rank wanted)
    {thread last : Thread}
    (hchain : Relation.TransGen (WaitsOn waiting owner) thread last) :
    ∃ first, waiting thread = some first ∧ ∀ wanted,
      waiting last = some wanted → rank first < rank wanted := by
  induction hchain with
  | single hwaits =>
      obtain ⟨first, hfirst, howner⟩ := hwaits
      exact ⟨first, hfirst, fun wanted hwanted =>
        hordered _ first wanted howner hwanted⟩
  | tail _ hwaits ih =>
      obtain ⟨first, hfirst, hbefore⟩ := ih
      obtain ⟨lock, hlock, howner⟩ := hwaits
      refine ⟨first, hfirst, fun wanted hwanted => ?_⟩
      have hlast := hordered _ lock wanted howner hwanted
      exact Nat.lt_trans (hbefore lock hlock) hlast

/-- If every thread waits only for locks above those that it holds, there is no
deadlock. -/
theorem deadlockFree_of_ordered (rank : Lock → Nat)
    (hordered : ∀ thread held wanted, owner held = some thread →
      waiting thread = some wanted → rank held < rank wanted) :
    DeadlockFree waiting owner where
  selfWait := by
    intro thread lock hwaiting howner
    exact Nat.lt_irrefl _ (hordered thread lock lock howner hwaiting)
  cycle := by
    intro thread hcycle
    obtain ⟨first, hfirst, hlt⟩ := rank_lt_of_chain rank hordered hcycle
    exact Nat.lt_irrefl _ (hlt first hfirst)

end Deadlock

end LockOwnership
