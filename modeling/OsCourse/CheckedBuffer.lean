/-
Buffers of fixed length with checked accesses, and the loops that run over them.
An access outside of its buffer is a fault, so that a run without fault is one
whose accesses were all inside.
-/
import Mathlib.Data.List.Basic

namespace CheckedBuffer

/-- An index outside of its buffer, or a loop that was not run to its end. -/
inductive Fault where
  | outside (index : Int)
  | outOfFuel
deriving Repr, DecidableEq

section Sequences

variable {First More Second Last : Type}

/-- A sequence without fault is one of parts without fault. -/
theorem bind_eq_ok_iff {first : Except Fault First}
    {rest : First → Except Fault Last} {last : Last} :
    first >>= rest = .ok last ↔
      ∃ value, first = .ok value ∧ rest value = .ok last := by
  cases first with
  | error fault => simp [bind, Except.bind]
  | ok value => simp [bind, Except.bind]

/-- Forgetting what only the parts of a sequence carry. -/
theorem map_bind_of_map {first : Except Fault First}
    {firstMore : Except Fault More} {rest : First → Except Fault Last}
    {restMore : More → Except Fault Second} {forget : More → First}
    {forgetLast : Second → Last} (hfirst : firstMore.map forget = first)
    (hrest : ∀ more, (restMore more).map forgetLast = rest (forget more)) :
    (firstMore >>= restMore).map forgetLast = first >>= rest := by
  subst first
  cases firstMore with
  | error fault => rfl
  | ok more => exact hrest more

end Sequences

section Accesses

variable {Cell : Type}

def load (buffer : List Cell) (index : Int) : Except Fault Cell :=
  if 0 ≤ index then
    match buffer[index.toNat]? with
    | some cell => .ok cell
    | none => .error (.outside index)
  else .error (.outside index)

def store (buffer : List Cell) (index : Int) (cell : Cell) :
    Except Fault (List Cell) :=
  if 0 ≤ index ∧ index < buffer.length then
    .ok (buffer.set index.toNat cell)
  else .error (.outside index)

variable {buffer front back : List Cell} {index : Int} {cell old : Cell}

theorem load_of_getElem? {position : Nat}
    (hcell : buffer[position]? = some cell) :
    load buffer position = .ok cell := by
  simp [load, hcell]

theorem load_outside (houtside : index < 0 ∨ buffer.length ≤ index) :
    load buffer index = .error (.outside index) := by
  unfold load
  split
  · rw [List.getElem?_eq_none (by omega)]
  · rfl

/-- A load of the cell behind the first part of a buffer. -/
theorem load_append (hindex : index = front.length) :
    load (front ++ cell :: back) index = .ok cell := by
  rw [hindex]
  exact load_of_getElem? (by simp)

theorem store_append (hindex : index = front.length) :
    store (front ++ old :: back) index cell =
      .ok (front ++ cell :: back) := by
  have hinside : 0 ≤ index ∧ index < (front ++ old :: back).length := by
    simp only [List.length_append, List.length_cons]
    omega
  rw [store, if_pos hinside, hindex, Int.toNat_natCast,
    List.set_append_right _ _ (Nat.le_refl _), Nat.sub_self]
  rfl

theorem store_outside (houtside : index < 0 ∨ buffer.length ≤ index) :
    store buffer index cell = .error (.outside index) :=
  if_neg (by omega)

end Accesses

section Loops

variable {State : Type}

/-- `while (guard) body`, for at most the given number of tests. -/
def whileLoop (guard : State → Except Fault Bool)
    (body : State → Except Fault State) : Nat → State → Except Fault State
  | 0, _ => .error .outOfFuel
  | fuel + 1, state => do
      if ← guard state then whileLoop guard body fuel (← body state)
      else return state

variable {guard : State → Except Fault Bool}
  {body : State → Except Fault State} {state next : State} {fuel : Nat}

theorem whileLoop_done (hguard : guard state = .ok false) :
    whileLoop guard body (fuel + 1) state = .ok state := by
  simp only [whileLoop, hguard]
  rfl

theorem whileLoop_next (hguard : guard state = .ok true)
    (hbody : body state = .ok next) :
    whileLoop guard body (fuel + 1) state =
      whileLoop guard body fuel next := by
  simp only [whileLoop, hguard, hbody]
  rfl

/-- The rule for loops: while the guard holds, the body keeps an invariant and lowers
a measure; when it does not, the invariant gives the postcondition. -/
theorem whileLoop_spec (Inv Post : State → Prop) (measure : State → Nat)
    (hstep : ∀ state, Inv state →
      (guard state = .ok false ∧ Post state) ∨
        ∃ next, guard state = .ok true ∧ body state = .ok next ∧ Inv next ∧
          measure next < measure state)
    (hstate : Inv state) (hfuel : measure state < fuel) :
    ∃ last, whileLoop guard body fuel state = .ok last ∧ Post last := by
  induction fuel generalizing state with
  | zero => exact absurd hfuel (Nat.not_lt_zero _)
  | succ fuel ih =>
      rcases hstep state hstate with
        ⟨hdone, hpost⟩ | ⟨next, hmore, hbody, hnext, hless⟩
      · exact ⟨state, whileLoop_done hdone, hpost⟩
      · rw [whileLoop_next hmore hbody]
        exact ih hnext (by omega)

/-- The rule for loops that visit the elements of a list in order: `visit done rest`
is the state in which the elements of `done` have been visited. -/
theorem whileLoop_over {Item : Type} (items : List Item)
    (visit : List Item → List Item → State)
    (hnext : ∀ done item rest, items = done ++ item :: rest →
      guard (visit done (item :: rest)) = .ok true ∧
        body (visit done (item :: rest)) =
          .ok (visit (done ++ [item]) rest))
    (hend : guard (visit items []) = .ok false)
    (hfuel : items.length < fuel) :
    whileLoop guard body fuel (visit [] items) = .ok (visit items []) := by
  have hfrom : ∀ rest done fuel, items = done ++ rest → rest.length < fuel →
      whileLoop guard body fuel (visit done rest) =
        .ok (visit items []) := by
    intro rest
    induction rest with
    | nil =>
        intro done fuel hitems hlt
        obtain ⟨fuel, rfl⟩ :=
          Nat.exists_eq_add_one_of_ne_zero (Nat.ne_zero_of_lt hlt)
        rw [List.append_nil] at hitems
        rw [← hitems]
        exact whileLoop_done hend
    | cons item rest ih =>
        intro done fuel hitems hlt
        obtain ⟨fuel, rfl⟩ :=
          Nat.exists_eq_add_one_of_ne_zero (Nat.ne_zero_of_lt hlt)
        obtain ⟨hguard, hbody⟩ := hnext done item rest hitems
        rw [whileLoop_next hguard hbody]
        apply ih
        · rw [hitems, List.append_assoc]
          rfl
        · exact Nat.lt_of_succ_lt_succ hlt
  exact hfrom items [] fuel rfl hfuel

/-- What the body keeps holds when a loop has ended, and its guard does not. -/
theorem whileLoop_invariant (Inv : State → Prop)
    (hstep : ∀ state next, Inv state → guard state = .ok true →
      body state = .ok next → Inv next)
    {last : State} (hstate : Inv state)
    (hloop : whileLoop guard body fuel state = .ok last) :
    Inv last ∧ guard last = .ok false := by
  induction fuel generalizing state with
  | zero => cases hloop
  | succ fuel ih =>
      rw [whileLoop] at hloop
      cases hguard : guard state with
      | error fault =>
          rw [hguard] at hloop
          cases hloop
      | ok more =>
          rw [hguard] at hloop
          cases more with
          | false =>
              obtain rfl : state = last := Except.ok.inj hloop
              exact ⟨hstate, hguard⟩
          | true =>
              cases hbody : body state with
              | error fault =>
                  simp only [bind, Except.bind, hbody, if_true] at hloop
                  cases hloop
              | ok next =>
                  simp only [bind, Except.bind, hbody, if_true] at hloop
                  exact ih (hstep state next hstate hguard hbody) hloop

/-- A loop that carries more than another one, and otherwise does the same. -/
theorem whileLoop_map {More : Type} (forget : More → State)
    {guardMore : More → Except Fault Bool}
    {bodyMore : More → Except Fault More}
    (hguard : ∀ more, guardMore more = guard (forget more))
    (hbody : ∀ more, (bodyMore more).map forget = body (forget more))
    (fuel : Nat) (more : More) :
    (whileLoop guardMore bodyMore fuel more).map forget =
      whileLoop guard body fuel (forget more) := by
  induction fuel generalizing more with
  | zero => rfl
  | succ fuel ih =>
      have hstep := hbody more
      simp only [whileLoop, bind, Except.bind, hguard]
      cases guard (forget more) with
      | error fault => rfl
      | ok continues =>
          cases continues with
          | false => rfl
          | true =>
              simp only [if_true]
              cases hmore : bodyMore more with
              | error fault =>
                  rw [hmore] at hstep
                  rw [← hstep]
                  rfl
              | ok next =>
                  rw [hmore] at hstep
                  rw [← hstep]
                  exact ih next

end Loops

end CheckedBuffer
