/-
Labelled transition systems given by an executable partial step.  A schedule is
a list of actions; the invariant rules below say what one step has to preserve
for a property to hold in every state of a run.
-/
import Mathlib.Data.List.Infix

namespace TransitionSystem

universe u v

variable {State : Type u} {Action : Type v}

/-- A start state and the step an action takes; `none` means that the action is
not enabled. -/
structure System (State : Type u) (Action : Type v) where
  start : State
  step : State → Action → Option State

namespace System

/-- Run a schedule from a given state. -/
def runFrom (M : System State Action) : State → List Action → Option State
  | state, [] => some state
  | state, action :: rest =>
      (M.step state action).bind fun next => M.runFrom next rest

/-- Run a schedule from the start state. -/
def run (M : System State Action) (schedule : List Action) : Option State :=
  M.runFrom M.start schedule

def Reachable (M : System State Action) (state : State) : Prop :=
  ∃ schedule : List Action, M.run schedule = some state

/-- No action is enabled. -/
def Stuck (M : System State Action) (state : State) : Prop :=
  ∀ action, M.step state action = none

/-- Every step of the schedule is taken in a state where `C` allows it. -/
def MeetsFrom (M : System State Action) (C : State → Action → Prop) :
    State → List Action → Prop
  | _, [] => True
  | state, action :: rest =>
      C state action ∧
        ∀ next, M.step state action = some next → M.MeetsFrom C next rest

def Meets (M : System State Action) (C : State → Action → Prop)
    (schedule : List Action) : Prop :=
  M.MeetsFrom C M.start schedule

/-- `P` holds in every state that the schedule passes through. -/
def AlwaysFrom (M : System State Action) (P : State → Prop) (state : State)
    (schedule : List Action) : Prop :=
  ∀ pre, pre <+: schedule → ∀ reached, M.runFrom state pre = some reached →
    P reached

def Always (M : System State Action) (P : State → Prop)
    (schedule : List Action) : Prop :=
  M.AlwaysFrom P M.start schedule

/-- The states that a schedule passes through. -/
def visitedFrom (M : System State Action) : State → List Action → List State
  | state, [] => [state]
  | state, action :: rest =>
      state ::
        (M.step state action).elim [] fun next => M.visitedFrom next rest

def visited (M : System State Action) (schedule : List Action) : List State :=
  M.visitedFrom M.start schedule

/-- Add up a weight of the steps along a schedule. -/
def tallyFrom (M : System State Action) (weight : State → Action → Nat) :
    State → List Action → Nat
  | _, [] => 0
  | state, action :: rest =>
      weight state action +
        ((M.step state action).elim 0 fun next => M.tallyFrom weight next rest)

def tally (M : System State Action) (weight : State → Action → Nat)
    (schedule : List Action) : Nat :=
  M.tallyFrom weight M.start schedule

@[simp] theorem runFrom_nil (M : System State Action) (state : State) :
    M.runFrom state [] = some state := rfl

theorem runFrom_cons (M : System State Action) (state : State)
    (action : Action) (rest : List Action) :
    M.runFrom state (action :: rest) =
      (M.step state action).bind fun next => M.runFrom next rest := rfl

theorem runFrom_cons_eq_some {M : System State Action} {state last : State}
    {action : Action} {rest : List Action} :
    M.runFrom state (action :: rest) = some last ↔
      ∃ next, M.step state action = some next ∧
        M.runFrom next rest = some last := by
  rw [runFrom_cons, Option.bind_eq_some_iff]

theorem runFrom_append (M : System State Action) (state : State)
    (first second : List Action) :
    M.runFrom state (first ++ second) =
      (M.runFrom state first).bind fun mid => M.runFrom mid second := by
  induction first generalizing state with
  | nil => rfl
  | cons action rest ih =>
      rw [List.cons_append, runFrom_cons, runFrom_cons]
      cases hstep : M.step state action with
      | none => rfl
      | some next => simpa using ih next

theorem run_append_eq_some {M : System State Action} {mid : State}
    {first second : List Action} (hfirst : M.run first = some mid) :
    M.run (first ++ second) = M.runFrom mid second := by
  have hfirst' : M.runFrom M.start first = some mid := hfirst
  rw [run, runFrom_append, hfirst']
  rfl

theorem Reachable.start (M : System State Action) : M.Reachable M.start :=
  ⟨[], rfl⟩

theorem Reachable.step {M : System State Action} {state next : State}
    {action : Action} (hreach : M.Reachable state)
    (hstep : M.step state action = some next) : M.Reachable next := by
  rcases hreach with ⟨schedule, hrun⟩
  refine ⟨schedule ++ [action], ?_⟩
  rw [run_append_eq_some hrun, runFrom_cons, hstep]
  rfl

end System

/-- `P` holds at the start and survives every step that `C` allows. -/
structure InvariantUnder (M : System State Action)
    (C : State → Action → Prop) (P : State → Prop) : Prop where
  start : P M.start
  step : ∀ {state next : State} {action : Action},
    P state → C state action → M.step state action = some next → P next

/-- An invariant of all runs. -/
structure Invariant (M : System State Action) (P : State → Prop) : Prop where
  start : P M.start
  step : ∀ {state next : State} {action : Action},
    P state → M.step state action = some next → P next

section Rules

variable {M : System State Action} {C : State → Action → Prop}
  {P : State → Prop}

/-- The run lemma: from a preserved property to every run that meets the
condition. -/
theorem InvariantUnder.runFrom (hinv : InvariantUnder M C P)
    {state last : State} {schedule : List Action} (hstate : P state)
    (hmeets : M.MeetsFrom C state schedule)
    (hrun : M.runFrom state schedule = some last) : P last := by
  induction schedule generalizing state with
  | nil =>
      rw [System.runFrom_nil, Option.some.injEq] at hrun
      exact hrun ▸ hstate
  | cons action rest ih =>
      obtain ⟨next, hstep, hrest⟩ := System.runFrom_cons_eq_some.mp hrun
      exact ih (hinv.step hstate hmeets.1 hstep) (hmeets.2 next hstep) hrest

theorem InvariantUnder.run (hinv : InvariantUnder M C P) {last : State}
    {schedule : List Action} (hmeets : M.Meets C schedule)
    (hrun : M.run schedule = some last) : P last :=
  hinv.runFrom hinv.start hmeets hrun

/-- What every step preserves holds at the end of a run from any state with
it. -/
theorem runFrom_preserves
    (hkeep : ∀ {state next : State} {action : Action},
      P state → M.step state action = some next → P next)
    {state last : State} {schedule : List Action} (hstate : P state)
    (hrun : M.runFrom state schedule = some last) : P last := by
  induction schedule generalizing state with
  | nil =>
      rw [System.runFrom_nil, Option.some.injEq] at hrun
      exact hrun ▸ hstate
  | cons action rest ih =>
      obtain ⟨next, hstep, hrest⟩ := System.runFrom_cons_eq_some.mp hrun
      exact ih (hkeep hstate hstep) hrest

theorem meetsFrom_of_forall (hC : ∀ state action, C state action)
    (state : State) (schedule : List Action) :
    M.MeetsFrom C state schedule := by
  induction schedule generalizing state with
  | nil => trivial
  | cons action rest ih => exact ⟨hC state action, fun next _ => ih next⟩

theorem Invariant.under (hinv : Invariant M P) (C : State → Action → Prop) :
    InvariantUnder M C P :=
  ⟨hinv.start, fun hstate _ hstep => hinv.step hstate hstep⟩

theorem Invariant.run (hinv : Invariant M P) {last : State}
    {schedule : List Action} (hrun : M.run schedule = some last) : P last :=
  (hinv.under fun _ _ => True).run
    (meetsFrom_of_forall (fun _ _ => trivial) _ _) hrun

theorem Invariant.reachable (hinv : Invariant M P) {state : State}
    (hreach : M.Reachable state) : P state := by
  rcases hreach with ⟨schedule, hrun⟩
  exact hinv.run hrun

theorem meetsFrom_append {state mid : State} {first second : List Action}
    (hfirst : M.runFrom state first = some mid) :
    M.MeetsFrom C state (first ++ second) ↔
      M.MeetsFrom C state first ∧ M.MeetsFrom C mid second := by
  induction first generalizing state with
  | nil =>
      rw [System.runFrom_nil, Option.some.injEq] at hfirst
      subst mid
      simp [System.MeetsFrom]
  | cons action rest ih =>
      obtain ⟨next, hstep, hrest⟩ := System.runFrom_cons_eq_some.mp hfirst
      simp only [List.cons_append, System.MeetsFrom, hstep,
        Option.some.injEq, forall_eq', ih hrest, and_assoc]

theorem meets_initialSegment {pre schedule : List Action} {reached : State}
    (hpre : pre <+: schedule) (hrun : M.run pre = some reached)
    (hmeets : M.Meets C schedule) : M.Meets C pre := by
  rcases hpre with ⟨tail, rfl⟩
  exact ((meetsFrom_append hrun).mp hmeets).1

/-- A conditional invariant holds in every state that a run meeting the
condition passes through. -/
theorem InvariantUnder.always (hinv : InvariantUnder M C P)
    {schedule : List Action} (hmeets : M.Meets C schedule) :
    M.Always P schedule := by
  intro pre hpre reached hrun
  exact hinv.run (meets_initialSegment hpre hrun hmeets) hrun

theorem alwaysFrom_cons {state next : State} {action : Action}
    {rest : List Action} (hstep : M.step state action = some next) :
    M.AlwaysFrom P state (action :: rest) ↔
      P state ∧ M.AlwaysFrom P next rest := by
  constructor
  · intro halways
    refine ⟨halways [] List.nil_prefix state rfl, ?_⟩
    intro pre hpre reached hrun
    refine halways (action :: pre) ?_ reached ?_
    · exact (List.prefix_cons_inj action).mpr hpre
    · rw [System.runFrom_cons, hstep]
      exact hrun
  · rintro ⟨hstate, hrest⟩ pre hpre reached hrun
    cases pre with
    | nil =>
        rw [System.runFrom_nil, Option.some.injEq] at hrun
        exact hrun ▸ hstate
    | cons head tail =>
        obtain ⟨rfl, htail⟩ := List.cons_prefix_cons.mp hpre
        rw [System.runFrom_cons, hstep] at hrun
        exact hrest tail htail reached hrun

/-- What holds in every state of a run may be used as a condition on its
steps. -/
theorem meets_of_always {schedule : List Action}
    (halways : M.Always P schedule) :
    M.Meets (fun state _ => P state) schedule := by
  have main : ∀ (rest : List Action) (state : State),
      M.AlwaysFrom P state rest →
      M.MeetsFrom (fun state _ => P state) state rest := by
    intro rest
    induction rest with
    | nil => intro _ _; trivial
    | cons action rest ih =>
        intro state hrest
        refine ⟨hrest [] List.nil_prefix state rfl, ?_⟩
        intro next hstep
        exact ih next ((alwaysFrom_cons hstep).mp hrest).2
  exact main schedule M.start halways

theorem alwaysFrom_of_stuck {state : State} {schedule : List Action}
    (hstuck : ∀ action rest, schedule = action :: rest →
      M.step state action = none) :
    M.AlwaysFrom P state schedule ↔ P state := by
  constructor
  · intro halways
    exact halways [] List.nil_prefix state rfl
  · intro hstate pre hpre reached hrun
    cases pre with
    | nil =>
        rw [System.runFrom_nil, Option.some.injEq] at hrun
        exact hrun ▸ hstate
    | cons head tail =>
        rcases hpre with ⟨rest, rfl⟩
        rw [System.runFrom_cons, hstuck head (tail ++ rest) rfl] at hrun
        contradiction

instance decidableAlwaysFrom [DecidablePred P] :
    (state : State) → (schedule : List Action) →
      Decidable (M.AlwaysFrom P state schedule)
  | state, [] => decidable_of_iff (P state)
      (alwaysFrom_of_stuck fun _ _ heq => by cases heq).symm
  | state, action :: rest =>
      match hstep : M.step state action with
      | none => decidable_of_iff (P state)
          (alwaysFrom_of_stuck fun _ _ heq => by
            rw [List.cons.injEq] at heq
            rw [← heq.1, hstep]).symm
      | some next =>
          have := decidableAlwaysFrom next rest
          decidable_of_iff (P state ∧ M.AlwaysFrom P next rest)
            (alwaysFrom_cons hstep).symm

instance decidableAlways [DecidablePred P] (schedule : List Action) :
    Decidable (M.Always P schedule) :=
  decidableAlwaysFrom M.start schedule

instance decidableMeetsFrom [∀ state action, Decidable (C state action)] :
    (state : State) → (schedule : List Action) →
      Decidable (M.MeetsFrom C state schedule)
  | _, [] => isTrue trivial
  | state, action :: rest =>
      match hstep : M.step state action with
      | none => decidable_of_iff (C state action) (by
          simp [System.MeetsFrom, hstep])
      | some next =>
          have := decidableMeetsFrom next rest
          decidable_of_iff (C state action ∧ M.MeetsFrom C next rest) (by
            simp [System.MeetsFrom, hstep])

instance decidableMeets [∀ state action, Decidable (C state action)]
    (schedule : List Action) : Decidable (M.Meets C schedule) :=
  decidableMeetsFrom M.start schedule

/-- When a step keeps `P` exactly if the condition allows it, a run stays in
`P` exactly if every step of it meets the condition; what else the step needs has
to be kept only as long as `P` is. -/
theorem always_iff_meets_along (Q : State → Prop) (hbegin : Q M.start)
    (hstart : P M.start)
    (hkeep : ∀ {state next : State} {action : Action}, Q state → P state →
      M.step state action = some next →
        (P next ↔ C state action) ∧ (P next → Q next))
    {schedule : List Action} {last : State}
    (hrun : M.run schedule = some last) :
    M.Always P schedule ↔ M.Meets C schedule := by
  have main : ∀ (rest : List Action) (state : State), Q state → P state →
      M.runFrom state rest = some last →
      (M.AlwaysFrom P state rest ↔ M.MeetsFrom C state rest) := by
    intro rest
    induction rest with
    | nil =>
        intro state _ hP _
        refine iff_of_true ?_ trivial
        intro pre hpre reached hreached
        rw [List.prefix_nil.mp hpre, System.runFrom_nil,
          Option.some.injEq] at hreached
        exact hreached ▸ hP
    | cons action rest ih =>
        intro state hQ hP hstate
        obtain ⟨next, hstep, hrest⟩ := System.runFrom_cons_eq_some.mp hstate
        obtain ⟨hiff, hnext⟩ := hkeep hQ hP hstep
        rw [alwaysFrom_cons hstep]
        simp only [System.MeetsFrom, hstep, Option.some.injEq, forall_eq']
        constructor
        · rintro ⟨_, halways⟩
          have hafter : P next := halways [] List.nil_prefix next rfl
          exact ⟨hiff.mp hafter,
            (ih next (hnext hafter) hafter hrest).mp halways⟩
        · rintro ⟨hC, hmeets⟩
          have hafter : P next := hiff.mpr hC
          exact ⟨hP, (ih next (hnext hafter) hafter hrest).mpr hmeets⟩
  exact main schedule M.start hbegin hstart hrun

theorem always_iff_meets {Q : State → Prop} (hinv : Invariant M Q)
    (hstart : P M.start)
    (hkeep : ∀ {state next : State} {action : Action}, Q state → P state →
      M.step state action = some next → (P next ↔ C state action))
    {schedule : List Action} {last : State}
    (hrun : M.run schedule = some last) :
    M.Always P schedule ↔ M.Meets C schedule :=
  always_iff_meets_along Q hinv.start hstart
    (fun hQ hP hstep => ⟨hkeep hQ hP hstep, fun _ => hinv.step hQ hstep⟩) hrun

/-- When a property holds after a step exactly if it held before and the condition
allowed the step, a run ends in it exactly if every step meets the condition. -/
theorem last_iff_meets {Q : State → Prop} (hinv : Invariant M Q)
    (hstart : P M.start)
    (hiff : ∀ {state next : State} {action : Action}, Q state →
      M.step state action = some next → (P next ↔ P state ∧ C state action))
    {schedule : List Action} {last : State}
    (hrun : M.run schedule = some last) : P last ↔ M.Meets C schedule := by
  have main : ∀ (rest : List Action) (state : State), Q state →
      M.runFrom state rest = some last →
      (P last ↔ P state ∧ M.MeetsFrom C state rest) := by
    intro rest
    induction rest with
    | nil =>
        intro state _ hlast
        rw [System.runFrom_nil, Option.some.injEq] at hlast
        rw [hlast]
        exact (and_iff_left trivial).symm
    | cons action rest ih =>
        intro state hQ hstate
        obtain ⟨next, hstep, hrest⟩ := System.runFrom_cons_eq_some.mp hstate
        rw [ih next (hinv.step hQ hstep) hrest, hiff hQ hstep]
        simp only [System.MeetsFrom, hstep, Option.some.injEq, forall_eq',
          and_assoc]
  rw [main schedule M.start hinv.start hrun]
  exact and_iff_right hstart

/-- A measure that every step lowers bounds the length of a run. -/
theorem runFrom_length_add_measure_le {Q : State → Prop}
    (measure : State → Nat)
    (hlower : ∀ {state next : State} {action : Action}, Q state →
      M.step state action = some next → Q next ∧ measure next < measure state)
    {state last : State} {schedule : List Action} (hstate : Q state)
    (hrun : M.runFrom state schedule = some last) :
    schedule.length + measure last ≤ measure state := by
  induction schedule generalizing state with
  | nil =>
      rw [System.runFrom_nil, Option.some.injEq] at hrun
      rw [hrun, List.length_nil, Nat.zero_add]
  | cons action rest ih =>
      obtain ⟨next, hstep, hrest⟩ := System.runFrom_cons_eq_some.mp hrun
      obtain ⟨hnext, hlow⟩ := hlower hstate hstep
      have hlength := ih hnext hrest
      rw [List.length_cons]
      omega

theorem length_add_measure_le {Q : State → Prop} (hinv : Invariant M Q)
    (measure : State → Nat)
    (hlower : ∀ {state next : State} {action : Action}, Q state →
      M.step state action = some next → measure next < measure state)
    {schedule : List Action} {last : State}
    (hrun : M.run schedule = some last) :
    schedule.length + measure last ≤ measure M.start :=
  runFrom_length_add_measure_le measure
    (fun hQ hstep => ⟨hinv.step hQ hstep, hlower hQ hstep⟩) hinv.start hrun

theorem System.runFrom_trans {state mid last : State} {first second : List Action}
    (hfirst : M.runFrom state first = some mid)
    (hsecond : M.runFrom mid second = some last) :
    M.runFrom state (first ++ second) = some last := by
  rw [System.runFrom_append, hfirst, Option.bind_some, hsecond]

/-- Where some steps lower a measure as long as the goal is not reached, it can be
reached. -/
theorem exists_run_of_progress {Q Goal : State → Prop} (measure : State → Nat)
    (hprogress : ∀ {state : State}, Q state → ¬ Goal state →
      ∃ schedule next, M.runFrom state schedule = some next ∧ Q next ∧
        measure next < measure state)
    {state : State} (hstate : Q state) :
    ∃ schedule last, M.runFrom state schedule = some last ∧ Q last ∧
      Goal last := by
  induction hmeasure : measure state using Nat.strong_induction_on
    generalizing state with
  | _ bound ih =>
      by_cases hgoal : Goal state
      · exact ⟨[], state, rfl, hstate, hgoal⟩
      · obtain ⟨first, next, hfirst, hnext, hlower⟩ := hprogress hstate hgoal
        rw [hmeasure] at hlower
        obtain ⟨second, last, hsecond, hlast⟩ := ih _ hlower hnext rfl
        exact ⟨first ++ second, last, System.runFrom_trans hfirst hsecond, hlast⟩

/-- Where no step raises a measure and every step of one kind lowers it, the measure
bounds the steps of that kind. -/
theorem runFrom_countP_add_measure_le {Q : State → Prop} (measure : State → Nat)
    (counted : Action → Bool)
    (hlower : ∀ {state next : State} {action : Action}, Q state →
      M.step state action = some next →
        Q next ∧ measure next + (counted action).toNat ≤ measure state)
    {state last : State} {schedule : List Action} (hstate : Q state)
    (hrun : M.runFrom state schedule = some last) :
    schedule.countP counted + measure last ≤ measure state := by
  induction schedule generalizing state with
  | nil =>
      rw [System.runFrom_nil, Option.some.injEq] at hrun
      rw [hrun, List.countP_nil, Nat.zero_add]
  | cons action rest ih =>
      obtain ⟨next, hstep, hrest⟩ := System.runFrom_cons_eq_some.mp hrun
      obtain ⟨hnext, hlow⟩ := hlower hstate hstep
      have hcount := ih hnext hrest
      rw [List.countP_cons]
      cases hcounted : counted action with
      | true =>
          rw [hcounted, Bool.toNat_true] at hlow
          rw [if_pos rfl]
          omega
      | false =>
          rw [if_neg Bool.false_ne_true]
          omega

/-- The run lemma for a property that follows an accumulated weight. -/
theorem tally_invariant {weight : State → Action → Nat}
    {R : Nat → State → Prop} (hstart : R 0 M.start)
    (hstep : ∀ {total : Nat} {state next : State} {action : Action},
      R total state → M.step state action = some next →
        R (total + weight state action) next)
    {schedule : List Action} {last : State}
    (hrun : M.run schedule = some last) :
    R (M.tally weight schedule) last := by
  have main : ∀ (rest : List Action) (total : Nat) (state : State),
      R total state → M.runFrom state rest = some last →
      R (total + M.tallyFrom weight state rest) last := by
    intro rest
    induction rest with
    | nil =>
        intro total state hR hstate
        rw [System.runFrom_nil, Option.some.injEq] at hstate
        exact hstate ▸ hR
    | cons action rest ih =>
        intro total state hR hstate
        obtain ⟨next, hnext, hrest⟩ := System.runFrom_cons_eq_some.mp hstate
        have := ih (total + weight state action) next (hstep hR hnext) hrest
        simpa [System.tallyFrom, hnext, Nat.add_assoc] using this
  simpa [System.tally] using main schedule 0 M.start hstart hrun

/-- The run lemma for a property that looks back on the states of the run. -/
theorem history_invariant {R : List State → State → Prop}
    (hstart : R [M.start] M.start)
    (hstep : ∀ {past : List State} {state next : State} {action : Action},
      R past state → M.step state action = some next →
        R (past ++ [next]) next)
    {schedule : List Action} {last : State}
    (hrun : M.run schedule = some last) : R (M.visited schedule) last := by
  have main : ∀ (rest : List Action) (past : List State) (state : State),
      R (past ++ [state]) state → M.runFrom state rest = some last →
      R (past ++ M.visitedFrom state rest) last := by
    intro rest
    induction rest with
    | nil =>
        intro past state hR hstate
        rw [System.runFrom_nil, Option.some.injEq] at hstate
        exact hstate ▸ hR
    | cons action rest ih =>
        intro past state hR hstate
        obtain ⟨next, hnext, hrest⟩ := System.runFrom_cons_eq_some.mp hstate
        have := ih (past ++ [state]) next (hstep hR hnext) hrest
        simpa [System.visitedFrom, hnext] using this
  exact main schedule [] M.start hstart hrun

theorem tally_eq_zero_iff {weight : State → Action → Nat}
    {schedule : List Action} {last : State}
    (hrun : M.run schedule = some last) :
    M.tally weight schedule = 0 ↔
      M.Meets (fun state action => weight state action = 0) schedule := by
  have main : ∀ (rest : List Action) (state : State),
      M.runFrom state rest = some last →
      (M.tallyFrom weight state rest = 0 ↔
        M.MeetsFrom (fun state action => weight state action = 0)
          state rest) := by
    intro rest
    induction rest with
    | nil => simp [System.tallyFrom, System.MeetsFrom]
    | cons action rest ih =>
        intro state hstate
        obtain ⟨next, hstep, hrest⟩ := System.runFrom_cons_eq_some.mp hstate
        simp [System.tallyFrom, System.MeetsFrom, hstep, ih next hrest]
  exact main schedule M.start hrun

end Rules

section Simulation

variable {Concrete : Type*} {ConcreteAction : Type*}

/-- Every step of `M` is matched by a run of `N`. -/
structure Simulates (N : System Concrete ConcreteAction)
    (M : System State Action) (R : State → Concrete → Prop) : Prop where
  start : R M.start N.start
  step : ∀ {state next : State} {action : Action} {concrete : Concrete},
    R state concrete → M.step state action = some next →
      ∃ schedule after, N.runFrom concrete schedule = some after ∧
        R next after

variable {N : System Concrete ConcreteAction} {M : System State Action}
  {R : State → Concrete → Prop}

theorem Simulates.runFrom (hsim : Simulates N M R) {state last : State}
    {schedule : List Action} {concrete : Concrete}
    (hrelated : R state concrete)
    (hrun : M.runFrom state schedule = some last) :
    ∃ matched after, N.runFrom concrete matched = some after ∧
      R last after := by
  induction schedule generalizing state concrete with
  | nil =>
      rw [System.runFrom_nil, Option.some.injEq] at hrun
      exact ⟨[], concrete, rfl, hrun ▸ hrelated⟩
  | cons action rest ih =>
      obtain ⟨next, hstep, hrest⟩ := System.runFrom_cons_eq_some.mp hrun
      obtain ⟨first, mid, hfirst, hmid⟩ := hsim.step hrelated hstep
      obtain ⟨second, after, hsecond, hafter⟩ := ih hmid hrest
      refine ⟨first ++ second, after, ?_, hafter⟩
      rw [System.runFrom_append, hfirst]
      exact hsecond

/-- Reachable states have reachable counterparts. -/
theorem Simulates.reachable (hsim : Simulates N M R) {state : State}
    (hreach : M.Reachable state) :
    ∃ concrete, N.Reachable concrete ∧ R state concrete := by
  rcases hreach with ⟨schedule, hrun⟩
  obtain ⟨matched, concrete, hmatched, hrelated⟩ :=
    hsim.runFrom hsim.start hrun
  exact ⟨concrete, ⟨matched, hmatched⟩, hrelated⟩

end Simulation

end TransitionSystem
