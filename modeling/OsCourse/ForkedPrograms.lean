/-
The parent of Section2/L1, which forks three programs and waits for each of them.  Its
blocks are alike, and so there may be any number of them; which calls of `fork` and
`execlp` succeed is left open, and whether an executed program ends is a parameter.
-/
import OsCourse.TransitionSystem
import OsCourse.Processes

namespace OsCourse

namespace ForkedPrograms

open TransitionSystem ThreadPool

/-- A child: it sleeps and executes its program, or says that it could not and exits, and
is a zombie until it is waited for. -/
inductive ChildPlace where
  | unborn
  | sleeping
  | executing
  | exiting
  | zombie (executed : Bool)
  | reaped (executed : Bool)
deriving Repr, DecidableEq

/-- The statement of the parent that comes next, with its block. -/
inductive ParentPlace (n : Nat) where
  | fork (next : Nat)
  | print (child : Fin n)
  | waitpid (next : Nat)
  | returned
deriving Repr, DecidableEq

/-- What is printed: by the parent a child by its number, with the child whose process id
stands behind it, or `none` for -1, and by a child the `perror` behind its `execlp`. -/
inductive Line (n : Nat) where
  | running (child : Fin n) (pid : Option (Fin n))
  | failed (child : Fin n)
  | finishing
deriving Repr, DecidableEq

def Line.byParent {n : Nat} : Line n → Bool
  | .running _ _ | .finishing => true
  | .failed _ => false

structure State (n : Nat) where
  parent : ParentPlace n
  child : Fin n → ChildPlace
  pid1 : Option (Fin n)
  stderr : List (Line n)

/-- `waitpid` may find any of several children. -/
inductive Action (n : Nat) where
  | fork (succeeds : Bool)
  | waitpid (found : Fin n)
  | parent
  | child (child : Fin n) (succeeds : Bool)
deriving Repr, DecidableEq

/-- There is nothing to wait for. -/
@[simp] def ChildPlace.gone : ChildPlace → Bool
  | .unborn | .reaped _ => true
  | .sleeping | .executing | .exiting | .zombie _ => false

@[simp] def ChildPlace.waitedFor : ChildPlace → Bool
  | .reaped _ => true
  | .unborn | .sleeping | .executing | .exiting | .zombie _ => false

namespace State

variable {n : Nat}

def start (n : Nat) : State n :=
  ⟨.fork 0, fun _ => .unborn, none, []⟩

def move (state : State n) (child : Fin n) (dest : ChildPlace) :
    Fin n → ChildPlace :=
  Function.update state.child child dest

/-- `fork`, and its assignment. -/
def fork (state : State n) (succeeds : Bool) : Option (State n) :=
  match state.parent with
  | .fork next =>
      if hnext : next < n then
        if succeeds then
          some { state with
            parent := .print ⟨next, hnext⟩,
            child := state.move ⟨next, hnext⟩ .sleeping,
            pid1 := if next = 0 then some ⟨next, hnext⟩ else state.pid1 }
        else some { state with parent := .fork (next + 1) }
      else none
  | .print _ | .waitpid _ | .returned => none

/-- `waitpid`.  For a `fork` that failed its argument is -1, and any child is found; a
child that is waited for already, or no child at all, is an error. -/
def waitpid (state : State n) (found : Fin n) : Option (State n) :=
  match state.parent with
  | .waitpid next =>
      if hnext : next < n then
        if state.child ⟨next, hnext⟩ ≠ .unborn ∧ found ≠ ⟨next, hnext⟩ then none
        else
          match state.child found with
          | .zombie executed =>
              some { state with
                parent := .waitpid (next + 1),
                child := state.move found (.reaped executed) }
          | .unborn | .sleeping | .executing | .exiting | .reaped _ =>
              if (state.child ⟨next, hnext⟩).waitedFor ∨
                  ∀ child, (state.child child).gone then
                some { state with parent := .waitpid (next + 1) }
              else none
      else none
  | .fork _ | .print _ | .returned => none

/-- The line of a block, which prints `pid1` in every block, the way from the last `fork`
to the first `waitpid`, and from the last `waitpid` to the end. -/
def runParent (state : State n) : Option (State n) :=
  match state.parent with
  | .print child =>
      some { state with
        parent := .fork (child + 1),
        stderr := state.stderr ++ [.running child state.pid1] }
  | .fork next =>
      if next < n then none else some { state with parent := .waitpid 0 }
  | .waitpid next =>
      if next < n then none
      else some { state with
        parent := .returned, stderr := state.stderr ++ [.finishing] }
  | .returned => none

/-- `succeeds` is for `execlp`. -/
def runChild (ends : Fin n → Bool) (state : State n) (child : Fin n)
    (succeeds : Bool) : Option (State n) :=
  match state.child child with
  | .sleeping =>
      if succeeds then some { state with child := state.move child .executing }
      else some { state with
        child := state.move child .exiting,
        stderr := state.stderr ++ [.failed child] }
  | .executing =>
      if ends child then
        some { state with child := state.move child (.zombie true) }
      else none
  | .exiting => some { state with child := state.move child (.zombie false) }
  | .unborn | .zombie _ | .reaped _ => none

def step (ends : Fin n → Bool) (state : State n) : Action n → Option (State n)
  | .fork succeeds => state.fork succeeds
  | .waitpid found => state.waitpid found
  | .parent => state.runParent
  | .child child succeeds => state.runChild ends child succeeds

end State

/-- The parent of Section2/L1 for `n = 3`; `ends` tells of every program whether it ends
once it is executed. -/
def forkedPrograms (n : Nat) (ends : Fin n → Bool) : System (State n) (Action n) where
  start := State.start n
  step := State.step ends

section Steps

variable {n : Nat} {ends : Fin n → Bool} {state next : State n} {succeeds : Bool}
  {found child : Fin n}

theorem fork_cases (hstep : state.fork succeeds = some next) :
    ∃ i : Fin n, state.parent = .fork i ∧
      (next = { state with
          parent := .print i, child := state.move i .sleeping,
          pid1 := if i.val = 0 then some i else state.pid1 } ∨
        next = { state with parent := .fork (i + 1) }) := by
  rw [State.fork] at hstep
  split at hstep
  · rename_i i hplace
    split at hstep
    · rename_i hi
      refine ⟨⟨i, hi⟩, hplace, ?_⟩
      split at hstep
      · exact .inl (Option.some.inj hstep).symm
      · exact .inr (Option.some.inj hstep).symm
    · cases hstep
  · cases hstep
  · cases hstep
  · cases hstep

theorem waitpid_cases (hstep : state.waitpid found = some next) :
    ∃ i : Fin n, state.parent = .waitpid i ∧
      (state.child i ≠ .unborn → found = i) ∧
      ((∃ executed, state.child found = .zombie executed ∧
          next = { state with
            parent := .waitpid (i + 1),
            child := state.move found (.reaped executed) }) ∨
        (((state.child i).waitedFor ∨ ∀ child, (state.child child).gone) ∧
          next = { state with parent := .waitpid (i + 1) })) := by
  rw [State.waitpid] at hstep
  split at hstep
  · rename_i i hplace
    split at hstep
    · rename_i hi
      refine ⟨⟨i, hi⟩, hplace, ?_⟩
      split at hstep
      · cases hstep
      · rename_i hallowed
        refine ⟨fun hborn => by_contra fun hother => hallowed ⟨hborn, hother⟩, ?_⟩
        split at hstep
        · rename_i executed hzombie
          exact .inl ⟨executed, hzombie, (Option.some.inj hstep).symm⟩
        all_goals
          rw [Option.ite_none_right_eq_some] at hstep
          exact .inr ⟨hstep.1, (Option.some.inj hstep.2).symm⟩
    · cases hstep
  · cases hstep
  · cases hstep
  · cases hstep

theorem runParent_cases (hstep : state.runParent = some next) :
    (∃ i, state.parent = .print i ∧ next = { state with
      parent := .fork (i + 1),
      stderr := state.stderr ++ [.running i state.pid1] }) ∨
    (∃ i, state.parent = .fork i ∧ n ≤ i ∧
      next = { state with parent := .waitpid 0 }) ∨
    ∃ i, state.parent = .waitpid i ∧ n ≤ i ∧ next = { state with
      parent := .returned, stderr := state.stderr ++ [.finishing] } := by
  rw [State.runParent] at hstep
  split at hstep
  · rename_i i hplace
    exact .inl ⟨i, hplace, (Option.some.inj hstep).symm⟩
  · rename_i i hplace
    rw [Option.ite_none_left_eq_some, not_lt] at hstep
    exact .inr (.inl ⟨i, hplace, hstep.1, (Option.some.inj hstep.2).symm⟩)
  · rename_i i hplace
    rw [Option.ite_none_left_eq_some, not_lt] at hstep
    exact .inr (.inr ⟨i, hplace, hstep.1, (Option.some.inj hstep.2).symm⟩)
  · cases hstep

/-- The steps that are left to a child, once it is born. -/
def ChildPlace.left : ChildPlace → Nat
  | .unborn | .sleeping => 2
  | .executing | .exiting => 1
  | .zombie _ | .reaped _ => 0

/-- The child could not execute its program, and has said so. -/
def ChildPlace.failed : ChildPlace → Bool
  | .exiting | .zombie false | .reaped false => true
  | .unborn | .sleeping | .executing | .zombie true | .reaped true => false

/-- A child moves on by itself, and prints its line as it fails. -/
structure Moves (state : State n) (child : Fin n) (dest : ChildPlace) : Prop where
  here : (state.child child).gone = false
  there : dest.gone = false
  left_lt : dest.left < (state.child child).left

theorem runChild_cases (hstep : state.runChild ends child succeeds = some next) :
    ∃ dest, Moves state child dest ∧
      ((dest.failed = (state.child child).failed ∧
          next = { state with child := state.move child dest }) ∨
        (dest.failed = true ∧ (state.child child).failed = false ∧
          next = { state with
            child := state.move child dest,
            stderr := state.stderr ++ [.failed child] })) := by
  rw [State.runChild] at hstep
  split at hstep
  · rename_i hplace
    split at hstep
    · refine ⟨.executing, ⟨?_, rfl, ?_⟩, .inl ⟨?_, (Option.some.inj hstep).symm⟩⟩ <;>
        rw [hplace] <;> decide
    · refine ⟨.exiting, ⟨?_, rfl, ?_⟩,
        .inr ⟨rfl, ?_, (Option.some.inj hstep).symm⟩⟩ <;> rw [hplace] <;> decide
  · rename_i hplace
    rw [Option.ite_none_right_eq_some] at hstep
    refine ⟨.zombie true, ⟨?_, rfl, ?_⟩,
      .inl ⟨?_, (Option.some.inj hstep.2).symm⟩⟩ <;> rw [hplace] <;> decide
  · rename_i hplace
    refine ⟨.zombie false, ⟨?_, rfl, ?_⟩,
      .inl ⟨?_, (Option.some.inj hstep).symm⟩⟩ <;> rw [hplace] <;> decide
  · cases hstep
  · cases hstep
  · cases hstep

end Steps

section Invariants

variable {n : Nat} {ends : Fin n → Bool} {state next : State n} {action : Action n}
  {child : Fin n} {dest : ChildPlace}

/-- The children are forked in order, and each is gone once it was waited for. -/
structure Sound (state : State n) : Prop where
  fork : ∀ i, state.parent = .fork i →
    ∀ j : Fin n, i ≤ j.val → state.child j = .unborn
  print : ∀ i, state.parent = .print i → state.child i ≠ .unborn ∧
    ∀ j, i < j → state.child j = .unborn
  waited : ∀ i, state.parent = .waitpid i →
    ∀ j : Fin n, j.val < i → (state.child j).gone = true
  returned : state.parent = .returned → ∀ j, (state.child j).gone = true

theorem Sound.start (n : Nat) : Sound (State.start n) :=
  ⟨fun _ _ _ _ => rfl, by simp [State.start], by simp [State.start],
    by simp [State.start]⟩

theorem move_self {i : Fin n} : state.move i dest i = dest :=
  Function.update_self ..

theorem move_of_ne {i j : Fin n} (hother : j ≠ i) :
    state.move i dest j = state.child j :=
  Function.update_of_ne hother ..

theorem move_of_gone {i j : Fin n} (hi : (state.child i).gone = false)
    (hj : (state.child j).gone = true) :
    state.move i dest j = state.child j := by
  apply move_of_ne
  rintro rfl
  rw [hi] at hj
  cases hj

theorem move_unborn {i : Fin n} (hdest : dest ≠ .unborn)
    (hplace : state.child i ≠ .unborn) (j : Fin n) :
    state.move i dest j = .unborn ↔ state.child j = .unborn := by
  by_cases hj : j = i
  · rw [hj, move_self]
    exact iff_of_false hdest hplace
  · rw [move_of_ne hj]

theorem move_failed {i : Fin n} (hsame : dest.failed = (state.child i).failed)
    (j : Fin n) : (state.move i dest j).failed = (state.child j).failed := by
  by_cases hj : j = i
  · rw [hj, move_self, hsame]
  · rw [move_of_ne hj]

theorem Moves.unborn (hmoves : Moves state child dest) (j : Fin n) :
    state.move child dest j = .unborn ↔ state.child j = .unborn := by
  apply move_unborn
  · intro hdest
    have hthere := hmoves.there
    rw [hdest] at hthere
    cases hthere
  · intro hunborn
    have hhere := hmoves.here
    rw [hunborn] at hhere
    cases hhere

theorem Sound.of_moves (hsound : Sound state) (hmoves : Moves state child dest)
    (hparent : next.parent = state.parent)
    (hchild : next.child = state.move child dest) : Sound next := by
  constructor
  · intro i hplace j hj
    rw [hchild, hmoves.unborn]
    exact hsound.fork i (hparent.symm.trans hplace) j hj
  · intro i hplace
    have hprint := hsound.print i (hparent.symm.trans hplace)
    simp only [hchild, ne_eq, hmoves.unborn]
    exact hprint
  · intro i hplace j hj
    have hgone := hsound.waited i (hparent.symm.trans hplace) j hj
    rw [hchild, move_of_gone hmoves.here hgone]
    exact hgone
  · intro hplace j
    have hgone := hsound.returned (hparent.symm.trans hplace) j
    rw [hchild, move_of_gone hmoves.here hgone]
    exact hgone

theorem Sound.fork_step (hsound : Sound state) {succeeds : Bool}
    (hstep : state.fork succeeds = some next) : Sound next := by
  obtain ⟨i, hplace, rfl | rfl⟩ := fork_cases hstep
  · refine ⟨by simp, ?_, by simp, by simp⟩
    intro forked hforked
    cases hforked
    constructor
    · change state.move i .sleeping i ≠ .unborn
      rw [move_self]
      decide
    · intro j hj
      exact (move_of_ne hj.ne').trans (hsound.fork i hplace j hj.le)
  · refine ⟨?_, by simp, by simp, by simp⟩
    intro bound hbound j hj
    cases hbound
    exact hsound.fork i hplace j (by omega)

theorem Sound.waitpid_step (hsound : Sound state) {found : Fin n}
    (hstep : state.waitpid found = some next) : Sound next := by
  obtain ⟨i, hplace, hfound, ⟨executed, hzombie, rfl⟩ | ⟨hgone, rfl⟩⟩ :=
    waitpid_cases hstep
  · refine ⟨by simp, by simp, ?_, by simp⟩
    intro bound hbound j hj
    cases hbound
    by_cases hsame : j = found
    · rw [hsame]
      exact congrArg ChildPlace.gone move_self
    · refine (congrArg ChildPlace.gone (move_of_ne hsame)).trans ?_
      rcases Nat.lt_succ_iff_lt_or_eq.mp hj with hj | hj
      · exact hsound.waited i hplace j hj
      · -- the child of this block was not forked
        have hblock : j = i := Fin.ext hj
        have hunborn : state.child i = .unborn := by
          by_contra hborn
          exact hsame (hblock.trans (hfound hborn).symm)
        rw [hblock, hunborn]
        rfl
  · refine ⟨by simp, by simp, ?_, by simp⟩
    intro bound hbound j hj
    cases hbound
    rcases Nat.lt_succ_iff_lt_or_eq.mp hj with hj | hj
    · exact hsound.waited i hplace j hj
    · have hblock : j = i := Fin.ext hj
      rcases hgone with hreaped | hall
      · rw [hblock]
        cases hself : state.child i <;> simp_all
      · exact hall j

theorem Sound.step (hsound : Sound state)
    (hstep : state.step ends action = some next) : Sound next := by
  cases action with
  | fork succeeds => exact hsound.fork_step hstep
  | waitpid found => exact hsound.waitpid_step hstep
  | parent =>
      rcases runParent_cases hstep with
        ⟨i, hplace, rfl⟩ | ⟨i, hplace, hi, rfl⟩ | ⟨i, hplace, hi, rfl⟩
      · refine ⟨?_, by simp, by simp, by simp⟩
        intro bound hbound j hj
        cases hbound
        exact (hsound.print i hplace).2 j hj
      · refine ⟨by simp, by simp, ?_, by simp⟩
        intro bound hbound j hj
        cases hbound
        exact absurd hj (Nat.not_lt_zero _)
      · exact ⟨by simp, by simp, by simp, fun _ j =>
          hsound.waited i hplace j (j.isLt.trans_le hi)⟩
  | child child succeeds =>
      obtain ⟨dest, hmoves, ⟨-, rfl⟩ | ⟨-, -, rfl⟩⟩ := runChild_cases hstep
      · exact hsound.of_moves hmoves rfl rfl
      · exact hsound.of_moves hmoves rfl rfl

/-- The parent's lines name every child that was forked, in order, and end with the last
line of all; every child that failed has its line once. -/
structure Printed (state : State n) : Prop where
  pid1 : ∀ i, state.pid1 = some i ↔ i.val = 0 ∧ state.child i ≠ .unborn
  lines : ∃ order : List (Fin n), order.Pairwise (· < ·) ∧
    (∀ i, i ∈ order ↔ state.child i ≠ .unborn ∧ state.parent ≠ .print i) ∧
    state.stderr.filter Line.byParent =
      order.map (fun i => .running i state.pid1) ++
        if state.parent = .returned then [.finishing] else []
  failed : ∀ i,
    state.stderr.count (.failed i) = (state.child i).failed.toNat
  last : state.parent = .returned → state.stderr.getLast? = some .finishing

theorem Printed.start (n : Nat) : Printed (State.start n) :=
  ⟨by simp [State.start], ⟨[], List.Pairwise.nil, by simp [State.start], rfl⟩,
    fun _ => rfl, by simp [State.start]⟩

/-- A step that forks no child and prints nothing. -/
theorem Printed.of_same (hprinted : Printed state)
    (hpid1 : next.pid1 = state.pid1) (hstderr : next.stderr = state.stderr)
    (hunborn : ∀ i, next.child i = .unborn ↔ state.child i = .unborn)
    (hfailed : ∀ i, (next.child i).failed = (state.child i).failed)
    (hprint : ∀ i, next.parent = .print i ↔ state.parent = .print i)
    (hreturned : next.parent = .returned ↔ state.parent = .returned) :
    Printed next := by
  obtain ⟨hpid, ⟨order, hsorted, hmem, hlines⟩, hcount, hlast⟩ := hprinted
  refine ⟨fun i => ?_, ⟨order, hsorted, fun i => ?_, ?_⟩, fun i => ?_, ?_⟩
  · rw [hpid1, hpid, ne_eq, ne_eq, hunborn]
  · rw [hmem, ne_eq, ne_eq, ne_eq, ne_eq, hunborn, hprint]
  · rw [hstderr, hlines, hpid1, if_congr hreturned rfl rfl]
  · rw [hstderr, hcount, hfailed]
  · rw [hreturned, hstderr]
    exact hlast

/-- A child is born, and its line comes later. -/
theorem Printed.forked (hprinted : Printed state) (hsound : Sound state)
    {i : Fin n} (hplace : state.parent = .fork i) :
    Printed { state with
      parent := .print i, child := state.move i .sleeping,
      pid1 := if i.val = 0 then some i else state.pid1 } := by
  obtain ⟨hpid, ⟨order, hsorted, hmem, hlines⟩, hcount, -⟩ := hprinted
  have hunborn : state.child i = .unborn := hsound.fork i hplace i le_rfl
  have hold : ∀ j, j ∈ order ↔ state.child j ≠ .unborn := by
    simpa [hplace] using hmem
  have hbefore : ∀ j ∈ order, j < i := by
    intro j hj
    by_contra hle
    exact (hold j).mp hj (hsound.fork i hplace j (not_lt.mp hle))
  refine ⟨fun j => ?_, ⟨order, hsorted, fun j => ?_, ?_⟩, fun j => ?_, by simp⟩
  · by_cases hi : i.val = 0
    · have hjust : some i = some j ↔ j.val = 0 := by
        rw [Option.some.injEq, Fin.ext_iff, hi, eq_comm]
      simp only [if_pos hi, hjust]
      refine ⟨fun hj => ⟨hj, ?_⟩, And.left⟩
      have heq : j = i := Fin.ext (hj.trans hi.symm)
      rw [heq, move_self]
      decide
    · simp only [if_neg hi, hpid]
      refine and_congr_right fun hj => ?_
      rw [move_of_ne]
      rintro rfl
      exact hi hj
  · rw [hold]
    by_cases hj : j = i
    · simp [hj, hunborn]
    · change _ ↔ state.move i .sleeping j ≠ .unborn ∧ _
      rw [move_of_ne hj]
      simp [Ne.symm hj]
  · have hsame : order.map (fun j => Line.running j state.pid1) =
        order.map fun j => .running j
          (if i.val = 0 then some i else state.pid1) := by
      refine List.map_congr_left fun j hj => ?_
      have hi : ¬ i.val = 0 := by
        have hlt : j.val < i.val := hbefore j hj
        omega
      rw [if_neg hi]
    rw [hlines, hsame, hplace]
    simp
  · rw [hcount, move_failed (by rw [hunborn]; rfl)]

/-- The line of a block, behind those of the blocks before it. -/
theorem Printed.said (hprinted : Printed state) (hsound : Sound state)
    {i : Fin n} (hplace : state.parent = .print i) :
    Printed { state with
      parent := .fork (i + 1),
      stderr := state.stderr ++ [.running i state.pid1] } := by
  obtain ⟨hpid, ⟨order, hsorted, hmem, hlines⟩, hcount, -⟩ := hprinted
  obtain ⟨hborn, hlater⟩ := hsound.print i hplace
  have hbefore : ∀ j ∈ order, j < i := by
    intro j hj
    obtain ⟨hjborn, hother⟩ := (hmem j).mp hj
    refine lt_of_le_of_ne (not_lt.mp fun hlt => hjborn (hlater j hlt)) ?_
    rintro rfl
    exact hother hplace
  refine ⟨hpid, ⟨order ++ [i], ?_, fun j => ?_, ?_⟩, fun j => ?_, by simp⟩
  · rw [List.pairwise_append]
    refine ⟨hsorted, List.pairwise_singleton _ _, fun j hj last hlast => ?_⟩
    rw [List.mem_singleton.mp hlast]
    exact hbefore j hj
  · rw [List.mem_append, List.mem_singleton, hmem, hplace]
    by_cases hj : j = i
    · simp [hj, hborn]
    · simp [hj, Ne.symm hj]
  · simp [List.filter_append, hlines, hplace, Line.byParent]
  · rw [List.count_append, hcount, List.count_singleton]
    simp

/-- The line of a child that failed is none of the parent's. -/
theorem Printed.complained (hprinted : Printed state) (hsound : Sound state)
    (hmoves : Moves state child dest) (hfailed : dest.failed = true)
    (hnot : (state.child child).failed = false) :
    Printed { state with
      child := state.move child dest,
      stderr := state.stderr ++ [.failed child] } := by
  obtain ⟨hpid, ⟨order, hsorted, hmem, hlines⟩, hcount, -⟩ := hprinted
  refine ⟨fun j => ?_, ⟨order, hsorted, fun j => ?_, ?_⟩, fun j => ?_,
    fun hreturned => ?_⟩
  · rw [hpid, ne_eq, ne_eq, hmoves.unborn]
  · rw [hmem, ne_eq, ne_eq, ne_eq, hmoves.unborn]
  · rw [List.filter_append, hlines]
    simp [Line.byParent]
  · change _ = (state.move child dest j).failed.toNat
    rw [List.count_append, hcount]
    by_cases hj : j = child
    · rw [hj, move_self, hfailed, hnot]
      simp
    · rw [move_of_ne hj]
      simp [Ne.symm hj]
  · have hgone := hsound.returned hreturned child
    rw [hmoves.here] at hgone
    cases hgone

theorem Printed.step (hprinted : Printed state) (hsound : Sound state)
    (hstep : state.step ends action = some next) : Printed next := by
  cases action with
  | fork succeeds =>
      obtain ⟨i, hplace, rfl | rfl⟩ := fork_cases hstep
      · exact hprinted.forked hsound hplace
      · exact hprinted.of_same rfl rfl (fun _ => Iff.rfl) (fun _ => rfl)
          (by simp [hplace]) (by simp [hplace])
  | waitpid found =>
      obtain ⟨i, hplace, hfound, ⟨executed, hzombie, rfl⟩ | ⟨hgone, rfl⟩⟩ :=
        waitpid_cases hstep
      · refine hprinted.of_same rfl rfl
          (move_unborn (by simp) (by rw [hzombie]; simp)) (move_failed ?_)
          (by simp [hplace]) (by simp [hplace])
        rw [hzombie]
        cases executed <;> rfl
      · exact hprinted.of_same rfl rfl (fun _ => Iff.rfl) (fun _ => rfl)
          (by simp [hplace]) (by simp [hplace])
  | parent =>
      rcases runParent_cases hstep with
        ⟨i, hplace, rfl⟩ | ⟨i, hplace, hi, rfl⟩ | ⟨i, hplace, hi, rfl⟩
      · exact hprinted.said hsound hplace
      · exact hprinted.of_same rfl rfl (fun _ => Iff.rfl) (fun _ => rfl)
          (by simp [hplace]) (by simp [hplace])
      · obtain ⟨hpid, ⟨order, hsorted, hmem, hlines⟩, hcount, -⟩ := hprinted
        refine ⟨hpid, ⟨order, hsorted, fun j => ?_, ?_⟩, fun j => ?_, by simp⟩
        · rw [hmem, hplace]
          simp
        · simp [List.filter_append, hlines, hplace, Line.byParent]
        · rw [List.count_append, hcount]
          simp
  | child child succeeds =>
      obtain ⟨dest, hmoves, ⟨hsame, rfl⟩ | ⟨hfailed, hnot, rfl⟩⟩ :=
        runChild_cases hstep
      · exact hprinted.of_same rfl rfl hmoves.unborn (move_failed hsame)
          (fun _ => Iff.rfl) Iff.rfl
      · exact hprinted.complained hsound hmoves hfailed hnot

end Invariants

section Runs

variable {n : Nat} {ends : Fin n → Bool} {state next : State n} {action : Action n}

theorem invariant (n : Nat) (ends : Fin n → Bool) :
    Invariant (forkedPrograms n ends) fun state =>
      Sound state ∧ Printed state where
  start := ⟨Sound.start n, Printed.start n⟩
  step := fun ⟨hsound, hprinted⟩ hstep =>
    ⟨hsound.step hstep, hprinted.step hsound hstep⟩

/-- The statements that are left to the parent. -/
def ParentPlace.left : ParentPlace n → Nat
  | .fork i => 2 * (n - i) + n + 2
  | .print i => 2 * (n - (i + 1)) + n + 3
  | .waitpid i => n - i + 1
  | .returned => 0

def left (state : State n) : Nat :=
  state.parent.left + ∑ i, (state.child i).left

/-- A move that is no step of the child itself. -/
theorem sum_left_move {i : Fin n} {dest : ChildPlace}
    (hsame : dest.left = (state.child i).left) :
    ∑ j, (state.move i dest j).left = ∑ j, (state.child j).left := by
  refine Finset.sum_congr rfl fun j _ => ?_
  by_cases hj : j = i
  · rw [hj, move_self, hsame]
  · rw [move_of_ne hj]

theorem left_step (hsound : Sound state)
    (hstep : state.step ends action = some next) : left next < left state := by
  cases action with
  | fork succeeds =>
      obtain ⟨i, hplace, rfl | rfl⟩ := fork_cases hstep
      · have hsame : ChildPlace.sleeping.left = (state.child i).left := by
          rw [hsound.fork i hplace i le_rfl]
          rfl
        simp only [left, hplace, ParentPlace.left, sum_left_move hsame]
        omega
      · simp only [left, hplace, ParentPlace.left]
        omega
  | waitpid found =>
      obtain ⟨i, hplace, hfound, ⟨executed, hzombie, rfl⟩ | ⟨hgone, rfl⟩⟩ :=
        waitpid_cases hstep
      · have hsame : (ChildPlace.reaped executed).left =
            (state.child found).left := by
          rw [hzombie]
          rfl
        simp only [left, hplace, ParentPlace.left, sum_left_move hsame]
        omega
      · simp only [left, hplace, ParentPlace.left]
        omega
  | parent =>
      rcases runParent_cases hstep with
        ⟨i, hplace, rfl⟩ | ⟨i, hplace, hi, rfl⟩ | ⟨i, hplace, hi, rfl⟩ <;>
        simp only [left, hplace, ParentPlace.left] <;> omega
  | child child succeeds =>
      obtain ⟨dest, hmoves, hnext⟩ := runChild_cases hstep
      have hsum := sum_update_lt hmoves.left_lt
      rcases hnext with ⟨-, rfl⟩ | ⟨-, -, rfl⟩ <;>
        exact Nat.add_lt_add_left hsum _

theorem gone_iff {place : ChildPlace} :
    place.gone = true ↔
      place = .unborn ∨ ∃ executed, place = .reaped executed := by
  cases place <;> simp

/-- A child that is neither gone nor executing can go on or be found. -/
theorem returned_of_stuck (hstuck : (forkedPrograms n ends).Stuck state)
    (hends : ∀ i, state.child i = .executing → ends i = true) :
    state.parent = .returned := by
  have hchild : ∀ i, (state.child i).gone = true ∨
      ∃ executed, state.child i = .zombie executed := by
    intro i
    have hstep := hstuck (.child i true)
    cases hplace : state.child i <;>
      simp_all [forkedPrograms, State.step, State.runChild]
  cases hplace : state.parent with
  | returned => rfl
  | fork i =>
      by_cases hi : i < n
      · have hstep := hstuck (.fork false)
        simp [forkedPrograms, State.step, State.fork, hplace, hi] at hstep
      · have hstep := hstuck .parent
        simp [forkedPrograms, State.step, State.runParent, hplace, hi] at hstep
  | print i =>
      have hstep := hstuck .parent
      simp [forkedPrograms, State.step, State.runParent, hplace] at hstep
  | waitpid i =>
      by_cases hi : i < n
      · have hblocked : ∀ found, (state.child ⟨i, hi⟩ ≠ .unborn →
            found = ⟨i, hi⟩) → (state.child found).gone = true ∧
              ¬ ((state.child ⟨i, hi⟩).waitedFor = true ∨
                ∀ child, (state.child child).gone = true) := by
          intro found hfound
          have hallowed : ¬ (state.child ⟨i, hi⟩ ≠ .unborn ∧
              found ≠ ⟨i, hi⟩) := fun ⟨hborn, hother⟩ => hother (hfound hborn)
          have hstep := hstuck (.waitpid found)
          simp only [forkedPrograms, State.step, State.waitpid, hplace,
            dif_pos hi, if_neg hallowed] at hstep
          rcases hchild found with hgone | ⟨executed, hzombie⟩
          · refine ⟨hgone, fun hfinds => ?_⟩
            rcases gone_iff.mp hgone with hfound | ⟨executed, hfound⟩ <;>
              simp only [hfound, if_pos hfinds, reduceCtorEq] at hstep
          · simp [hzombie] at hstep
        obtain ⟨hself, hnot⟩ := hblocked ⟨i, hi⟩ fun _ => rfl
        rw [not_or] at hnot
        rcases gone_iff.mp hself with hunborn | ⟨executed, hreaped⟩
        · -- the `fork` of this block failed, and any zombie would be found
          exact absurd (fun child =>
            (hblocked child fun hborn => absurd hunborn hborn).1) hnot.2
        · exact absurd (by rw [hreaped]; rfl) hnot.1
      · have hstep := hstuck .parent
        simp [forkedPrograms, State.step, State.runParent, hplace, hi] at hstep

theorem stuck_of_returned (hsound : Sound state)
    (hreturned : state.parent = .returned) :
    (forkedPrograms n ends).Stuck state := by
  intro action
  cases action with
  | fork succeeds =>
      simp [forkedPrograms, State.step, State.fork, hreturned]
  | waitpid found =>
      simp [forkedPrograms, State.step, State.waitpid, hreturned]
  | parent => simp [forkedPrograms, State.step, State.runParent, hreturned]
  | child child succeeds =>
      have hgone := hsound.returned hreturned child
      rcases gone_iff.mp hgone with hplace | ⟨executed, hplace⟩ <;>
        simp [forkedPrograms, State.step, State.runChild, hplace]

/-- What is on stderr when the parent has returned: its lines name the children that were
forked, in order and each with the process id of the first, a child that could not execute
its program has one line, and nothing comes after the last line of the parent. -/
structure Told (state : State n) (order : List (Fin n)) : Prop where
  sorted : order.Pairwise (· < ·)
  waitedFor : ∀ i, i ∈ order ↔ (state.child i).waitedFor = true
  unborn : ∀ i ∉ order, state.child i = .unborn
  pid1 : ∀ i, state.pid1 = some i ↔ i.val = 0 ∧ i ∈ order
  lines : state.stderr.filter Line.byParent =
    order.map (fun i => .running i state.pid1) ++ [.finishing]
  failed : ∀ i, state.stderr.count (.failed i) =
    if state.child i = .reaped false then 1 else 0
  last : state.stderr.getLast? = some .finishing

theorem told_of_returned (hsound : Sound state) (hprinted : Printed state)
    (hreturned : state.parent = .returned) : ∃ order, Told state order := by
  obtain ⟨hpid1, ⟨order, hsorted, hmem, hlines⟩, hfailed, hlast⟩ := hprinted
  have hgone := hsound.returned hreturned
  have hborn : ∀ i, i ∈ order ↔ state.child i ≠ .unborn := by
    intro i
    rw [hmem, hreturned]
    simp
  refine ⟨order, hsorted, fun i => ?_, fun i hi => ?_, fun i => ?_, ?_,
    fun i => ?_, hlast hreturned⟩
  · rw [hborn]
    rcases gone_iff.mp (hgone i) with hplace | ⟨executed, hplace⟩ <;>
      simp [hplace]
  · rw [hborn, not_not] at hi
    exact hi
  · rw [hpid1, hborn]
  · rw [hlines, if_pos hreturned]
  · rw [hfailed]
    rcases gone_iff.mp (hgone i) with hplace | ⟨executed, hplace⟩
    · simp [hplace, ChildPlace.failed]
    · cases executed <;> simp [hplace, ChildPlace.failed]

/-- Every run is finite, and stops only where the parent has returned, whichever calls of
`fork` and `execlp` failed, or where a child executes a program that does not end.  A parent
that has returned has waited for every child. -/
theorem run_ends (n : Nat) (ends : Fin n → Bool) {schedule : List (Action n)}
    {state : State n}
    (hrun : (forkedPrograms n ends).run schedule = some state) :
    schedule.length ≤ 5 * n + 2 ∧
    ((forkedPrograms n ends).Stuck state ∧
        (∀ i, state.child i = .executing → ends i = true) ↔
      state.parent = .returned) ∧
    (state.parent = .returned → ∃ order, Told state order) := by
  obtain ⟨hsound, hprinted⟩ := (invariant n ends).run hrun
  refine ⟨?_, ⟨fun hstopped => returned_of_stuck hstopped.1 hstopped.2, ?_⟩,
    told_of_returned hsound hprinted⟩
  · have hlength := length_add_measure_le (invariant n ends) left
      (fun hinv hstep => left_step hinv.1 hstep) hrun
    have hstart : left (forkedPrograms n ends).start = 5 * n + 2 := by
      simp only [left, forkedPrograms, State.start, ParentPlace.left,
        ChildPlace.left, Finset.sum_const, Finset.card_univ, Fintype.card_fin,
        smul_eq_mul]
      omega
    omega
  · intro hreturned
    refine ⟨stuck_of_returned hsound hreturned, fun i hexecuting => ?_⟩
    have hgone := hsound.returned hreturned i
    rw [hexecuting] at hgone
    cases hgone

/-- The second `fork` fails, its `waitpid` finds the third child, and that one could not
execute its program. -/
theorem run_ends_secondFails :
    ∃ schedule state, (forkedPrograms 3 fun _ => true).run schedule = some state ∧
      state.parent = .returned ∧ schedule.length ≤ 17 ∧
      (forkedPrograms 3 fun _ => true).Stuck state := by
  have hrun : ∃ state, (forkedPrograms 3 fun _ => true).run [.fork true, .parent,
      .fork false, .fork true, .parent, .parent, .child 0 true, .child 0 true,
      .waitpid 0, .child 2 false, .child 2 true, .waitpid 2, .waitpid 2,
      .parent] = some state ∧ state.parent = .returned := ⟨_, rfl, rfl⟩
  obtain ⟨state, hrun, hreturned⟩ := hrun
  have hends := run_ends 3 _ hrun
  exact ⟨_, state, hrun, hreturned, hends.1, (hends.2.1.mpr hreturned).1⟩

end Runs

end ForkedPrograms

end OsCourse
