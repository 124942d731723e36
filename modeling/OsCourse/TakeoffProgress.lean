/-
No controller of the C air control can be locked out: the locks always belong to a
thread that can go on, so that as long as planes keep coming every thread can be
brought to its return, and once the limit is reached all of them return by
themselves.
-/
import OsCourse.PlanesLedger

namespace OsCourse

namespace Airport

open TransitionSystem ThreadPool

namespace StatementPlace

/-- Between taking a runway and giving it back. -/
def holds (runway : Runway) : StatementPlace → Bool
  | .lockState held | .loadPlanes held | .storePlanes held _
  | .countTakeoff held | .killRadio held | .killGround held
  | .resetTakeoffs held | .unlockState held | .sleeping held =>
      decide (held = runway)
  | _ => false

/-- Where a thread tries to take a runway. -/
def tries : Runway → StatementPlace
  | .runway1 => .tryRunway1
  | .runway2 => .tryRunway2

/-- How many statements away a thread is from the count of its takeoff, or from
the end of the one it has counted. -/
def toTakeoff : StatementPlace → Nat
  | .returned => 0
  | .limitTest => 1
  | .countTakeoff _ => 2
  | .storePlanes _ _ => 3
  | .loadPlanes _ => 4
  | .lockState _ => 5
  | .tryRunway1 | .tryRunway2 => 6
  | .planesTest => 7
  | .loopGuard => 8
  | .sleeping _ => 9
  | .unlockState _ => 10
  | .resetTakeoffs _ => 11
  | .killGround _ => 12
  | .killRadio _ => 13

/-- How many statements away a thread is from its return once the limit is
reached. -/
def toReturn : StatementPlace → Nat
  | .returned => 0
  | .limitTest => 1
  | .loopGuard => 2
  | .sleeping _ => 3
  | .unlockState _ => 4
  | .resetTakeoffs _ => 5
  | .killGround _ => 6
  | .killRadio _ => 7
  | .countTakeoff _ => 8
  | .storePlanes _ _ => 9
  | .loadPlanes _ => 10
  | .lockState _ => 11
  | .tryRunway2 => 12
  | .tryRunway1 => 13
  | .planesTest => 14

theorem toTakeoff_le (place : StatementPlace) : place.toTakeoff ≤ 14 := by
  cases place <;> simp [toTakeoff]

theorem toReturn_le (place : StatementPlace) : place.toReturn ≤ 14 := by
  cases place <;> simp [toReturn]

end StatementPlace

namespace AirThreads

variable {n : Nat} {air next : AirThreads n} {kills : List Kill}
  {controller : Fin n}

def runwayLocked (air : AirThreads n) : Runway → Bool
  | .runway1 => air.runway1Locked
  | .runway2 => air.runway2Locked

theorem setLocked_runwayLocked (air : AirThreads n) (runway other : Runway)
    (locked : Bool) :
    (air.setLocked runway locked).runwayLocked other =
      if other = runway then locked else air.runwayLocked other := by
  cases runway <;> cases other <;> rfl

/-- What a statement does to the locks and to the way that is left. -/
structure Move (air : AirThreads n) (controller : Fin n) (next : AirThreads n)
    (dest : StatementPlace) : Prop where
  place : next.place = Function.update air.place controller dest
  state : LockStep StatementPlace.inSection (air.place controller) dest
    air.stateLocked next.stateLocked
  runway : ∀ runway, LockStep (StatementPlace.holds runway)
    (air.place controller) dest (air.runwayLocked runway)
    (next.runwayLocked runway)
  total : next.totalTakeoffs = air.totalTakeoffs ∨
    next.totalTakeoffs = air.totalTakeoffs + 1
  toReturn : totalTakeoffsLimit ≤ air.totalTakeoffs →
    dest.toReturn < (air.place controller).toReturn
  toTakeoff : air.totalTakeoffs < totalTakeoffsLimit → 0 < air.planes →
    (∀ runway, air.place controller = .tries runway →
      air.runwayLocked runway = false) →
    next.totalTakeoffs = air.totalTakeoffs →
    dest.toTakeoff < (air.place controller).toTakeoff

/-- A statement that leaves the locks alone. -/
theorem Move.of_keeps {here dest : StatementPlace}
    (hplace : air.place controller = here)
    (hnext : next.place = Function.update air.place controller dest)
    (hlocks : next.stateLocked = air.stateLocked ∧
      next.runwayLocked = air.runwayLocked)
    (hsection : dest.inSection = here.inSection)
    (hholds : ∀ runway, dest.holds runway = here.holds runway)
    (htotal : next.totalTakeoffs = air.totalTakeoffs)
    (hreturn : totalTakeoffsLimit ≤ air.totalTakeoffs →
      dest.toReturn < here.toReturn)
    (htakeoff : air.totalTakeoffs < totalTakeoffsLimit → 0 < air.planes →
      (∀ runway, here = .tries runway → air.runwayLocked runway = false) →
      dest.toTakeoff < here.toTakeoff) :
    Move air controller next dest where
  place := hnext
  state := by
    rw [hplace]
    exact .inl ⟨hsection, hlocks.1⟩
  runway runway := by
    rw [hplace, hlocks.2]
    exact .inl ⟨hholds runway, rfl⟩
  total := .inl htotal
  toReturn := by
    rw [hplace]
    exact hreturn
  toTakeoff hbelow hplanes hfree _ := by
    rw [hplace] at hfree ⊢
    exact htakeoff hbelow hplanes hfree

/-- A thread that takes a free runway, or gives its own back. -/
theorem Move.of_runway {runway : Runway} {locked : Bool} {here dest : StatementPlace}
    (hplace : air.place controller = here)
    (hsection : dest.inSection = here.inSection)
    (hturn : ∀ other, LockStep (StatementPlace.holds other) here dest
      (air.runwayLocked other)
      (if other = runway then locked else air.runwayLocked other))
    (hreturn : dest.toReturn < here.toReturn)
    (htakeoff : dest.toTakeoff < here.toTakeoff) :
    Move air controller ((air.setLocked runway locked).goto controller dest)
      dest where
  place := by rw [goto, setLocked_place]
  state := by
    rw [hplace]
    refine .inl ⟨hsection, ?_⟩
    cases runway <;> rfl
  runway other := by
    change LockStep _ _ _ _ ((air.setLocked runway locked).runwayLocked other)
    rw [hplace, setLocked_runwayLocked]
    exact hturn other
  total := .inl (sameSection_setLocked_goto ..).totalTakeoffs
  toReturn _ := by
    rw [hplace]
    exact hreturn
  toTakeoff _ _ _ _ := by
    rw [hplace]
    exact htakeoff

theorem Move.of_take {runway : Runway}
    (hplace : air.place controller = .tries runway)
    (hfree : air.runwayLocked runway = false) :
    Move air controller
      ((air.setLocked runway true).goto controller (.lockState runway))
      (.lockState runway) := by
  refine .of_runway hplace (by cases runway <;> rfl) (fun other => ?_)
    (by cases runway <;> decide) (by cases runway <;> decide)
  by_cases hother : other = runway
  · rw [hother, if_pos rfl]
    exact .inr (.inl ⟨decide_eq_true rfl, hfree, rfl⟩)
  · rw [if_neg hother]
    refine .inl ⟨?_, rfl⟩
    cases runway <;> exact decide_eq_false fun heq => hother heq.symm

theorem Move.of_sleeping {runway : Runway}
    (hplace : air.place controller = .sleeping runway) :
    Move air controller
      ((air.setLocked runway false).goto controller .loopGuard) .loopGuard := by
  refine .of_runway hplace rfl (fun other => ?_)
    (by cases runway <;> decide) (by cases runway <;> decide)
  by_cases hother : other = runway
  · rw [hother, if_pos rfl]
    exact .inr (.inr ⟨decide_eq_true rfl, rfl, rfl⟩)
  · rw [if_neg hother]
    exact .inl ⟨(decide_eq_false fun heq => hother heq.symm).symm, rfl⟩

theorem statement_move
    (hstatement : air.statement controller = some (next, kills)) :
    ∃ dest, Move air controller next dest := by
  cases hplace : air.place controller with
  | loopGuard =>
      simp only [statement, hplace, Option.some.injEq,
        Prod.mk.injEq] at hstatement
      rcases hstatement with ⟨rfl, rfl⟩
      refine ⟨_, .of_keeps hplace rfl ⟨rfl, rfl⟩ ?_ (fun _ => ?_) rfl
        (fun hlimit => ?_) fun hbelow _ _ => ?_⟩
      · split <;> rfl
      · split <;> rfl
      · rw [if_neg (not_lt.mpr hlimit)]
        decide
      · rw [if_pos hbelow]
        decide
  | planesTest =>
      simp only [statement, hplace, Option.some.injEq,
        Prod.mk.injEq] at hstatement
      rcases hstatement with ⟨rfl, rfl⟩
      refine ⟨_, .of_keeps hplace rfl ⟨rfl, rfl⟩ ?_ (fun _ => ?_) rfl
        (fun _ => ?_) fun _ hplanes _ => ?_⟩
      · split <;> rfl
      · split <;> rfl
      · split <;> decide
      · rw [if_neg (not_le.mpr hplanes)]
        decide
  | tryRunway1 =>
      simp only [statement, hplace] at hstatement
      split at hstatement
      · rename_i hbusy
        obtain ⟨rfl, rfl⟩ := Prod.mk.inj (Option.some.inj hstatement)
        refine ⟨_, .of_keeps hplace rfl ⟨rfl, rfl⟩ rfl (fun _ => rfl) rfl
          (fun _ => by decide) fun _ _ hfree => ?_⟩
        exact absurd (hbusy.symm.trans (hfree .runway1 rfl)) (by decide)
      · rename_i hfree
        obtain ⟨rfl, rfl⟩ := Prod.mk.inj (Option.some.inj hstatement)
        exact ⟨_, .of_take hplace (Bool.eq_false_iff.mpr hfree)⟩
  | tryRunway2 =>
      simp only [statement, hplace] at hstatement
      split at hstatement
      · rename_i hbusy
        obtain ⟨rfl, rfl⟩ := Prod.mk.inj (Option.some.inj hstatement)
        refine ⟨_, .of_keeps hplace rfl ⟨rfl, rfl⟩ rfl (fun _ => rfl) rfl
          (fun _ => by decide) fun _ _ hfree => ?_⟩
        exact absurd (hbusy.symm.trans (hfree .runway2 rfl)) (by decide)
      · rename_i hfree
        obtain ⟨rfl, rfl⟩ := Prod.mk.inj (Option.some.inj hstatement)
        exact ⟨_, .of_take hplace (Bool.eq_false_iff.mpr hfree)⟩
  | lockState runway =>
      simp only [statement, hplace, Option.ite_none_left_eq_some,
        Option.some.injEq, Prod.mk.injEq] at hstatement
      rcases hstatement with ⟨hfree, rfl, rfl⟩
      refine ⟨_, rfl, ?_, fun other => ?_, .inl rfl, fun _ => ?_,
        fun _ _ _ _ => ?_⟩
      all_goals rw [hplace]
      · exact .inr (.inl ⟨rfl, Bool.eq_false_iff.mpr hfree, rfl⟩)
      · exact .inl ⟨rfl, rfl⟩
      · exact Nat.lt_succ_self 10
      · exact Nat.lt_succ_self 4
  | countTakeoff runway =>
      simp only [statement, hplace, Option.some.injEq,
        Prod.mk.injEq] at hstatement
      rcases hstatement with ⟨rfl, rfl⟩
      refine ⟨_, rfl, .inl ⟨?_, rfl⟩, fun other => .inl ⟨?_, rfl⟩, .inr rfl,
        fun _ => ?_, fun _ _ _ htotal => ?_⟩
      · rw [hplace]
        split <;> rfl
      · rw [hplace]
        split <;> rfl
      · rw [hplace]
        split <;> simp [StatementPlace.toReturn]
      · simp [goto] at htotal
  | unlockState runway =>
      simp only [statement, hplace, Option.some.injEq,
        Prod.mk.injEq] at hstatement
      rcases hstatement with ⟨rfl, rfl⟩
      refine ⟨_, rfl, ?_, fun other => ?_, .inl rfl, fun _ => ?_,
        fun _ _ _ _ => ?_⟩
      all_goals rw [hplace]
      · exact .inr (.inr ⟨rfl, rfl, rfl⟩)
      · exact .inl ⟨rfl, rfl⟩
      · exact Nat.lt_succ_self 3
      · exact Nat.lt_succ_self 9
  | sleeping runway =>
      simp only [statement, hplace, Option.some.injEq,
        Prod.mk.injEq] at hstatement
      rcases hstatement with ⟨rfl, rfl⟩
      exact ⟨_, .of_sleeping hplace⟩
  | loadPlanes | storePlanes | killRadio | killGround | resetTakeoffs
  | limitTest =>
      simp only [statement, hplace, Option.some.injEq,
        Prod.mk.injEq] at hstatement
      rcases hstatement with ⟨rfl, rfl⟩
      exact ⟨_, .of_keeps hplace rfl ⟨rfl, rfl⟩ rfl (fun _ => rfl) rfl
        (fun _ => by simp [StatementPlace.toReturn])
        fun _ _ _ => by simp [StatementPlace.toTakeoff]⟩
  | returned => simp [statement, hplace] at hstatement

/-- Every lock is held by exactly the threads at the places where it is locked. -/
structure Locks (air : AirThreads n) : Prop where
  state : Exclusive air.place StatementPlace.inSection air.stateLocked
  runway : ∀ runway,
    Exclusive air.place (StatementPlace.holds runway) (air.runwayLocked runway)

theorem locks_statement (hlocks : Locks air)
    (hstatement : air.statement controller = some (next, kills)) :
    Locks next := by
  obtain ⟨dest, hmove⟩ := statement_move hstatement
  refine ⟨?_, fun runway => ?_⟩
  · rw [hmove.place]
    exact hlocks.state.move hmove.state
  · rw [hmove.place]
    exact (hlocks.runway runway).move (hmove.runway runway)

/-- A step that only a run of `SigHandler2` makes: it leaves the controllers where
they are. -/
structure Undisturbed (air next : AirThreads n) : Prop where
  place : next.place = air.place
  totalTakeoffs : next.totalTakeoffs = air.totalTakeoffs
  stateLocked : next.stateLocked = air.stateLocked
  runwayLocked : next.runwayLocked = air.runwayLocked

theorem Undisturbed.trans {mid : AirThreads n} (hfirst : Undisturbed air mid)
    (hsecond : Undisturbed mid next) : Undisturbed air next :=
  ⟨hsecond.place.trans hfirst.place,
    hsecond.totalTakeoffs.trans hfirst.totalTakeoffs,
    hsecond.stateLocked.trans hfirst.stateLocked,
    hsecond.runwayLocked.trans hfirst.runwayLocked⟩

theorem Locks.of_undisturbed (hlocks : Locks air)
    (hundisturbed : Undisturbed air next) : Locks next where
  state := by
    rw [hundisturbed.place, hundisturbed.stateLocked]
    exact hlocks.state
  runway runway := by
    rw [hundisturbed.place, hundisturbed.runwayLocked]
    exact hlocks.runway runway

theorem undisturbed_handlerStatement {thread : Thread n}
    (hstatement : air.handlerStatement thread = some next) :
    Undisturbed air next := by
  rcases handlerStatement_cases hstatement with ⟨_, rfl⟩ | ⟨_, _, rfl⟩
  · exact ⟨rfl, rfl, rfl, rfl⟩
  · exact ⟨rfl, rfl, rfl, rfl⟩

/-- The statements between a thread and its next takeoff, or its return. -/
def rank (totalTakeoffs : Int) (place : StatementPlace) : Nat :=
  if totalTakeoffs < totalTakeoffsLimit then place.toTakeoff else place.toReturn

theorem rank_le (totalTakeoffs : Int) (place : StatementPlace) :
    rank totalTakeoffs place ≤ 14 := by
  unfold rank
  split
  · exact place.toTakeoff_le
  · exact place.toReturn_le

def rankSum (air : AirThreads n) : Nat :=
  ∑ controller, rank air.totalTakeoffs (air.place controller)

theorem rankSum_le (air : AirThreads n) : air.rankSum ≤ 14 * n := by
  calc air.rankSum
      ≤ ∑ _ : Fin n, 14 := Finset.sum_le_sum fun _ _ => rank_le _ _
    _ = 14 * n := by rw [Finset.sum_const, Finset.card_fin, smul_eq_mul, mul_comm]

/-- What is left of the program: the takeoffs to the limit, each worth more than
all threads together can be away from it, and the statements of the threads. -/
def remaining (air : AirThreads n) : Nat :=
  (totalTakeoffsLimit - air.totalTakeoffs).toNat * (14 * n + 1) + air.rankSum

/-- A counted takeoff outweighs whatever it does to the ranks. -/
theorem remaining_lt_of_takeoff
    (hbelow : air.totalTakeoffs < totalTakeoffsLimit)
    (htotal : next.totalTakeoffs = air.totalTakeoffs + 1) :
    next.remaining < air.remaining := by
  have hstep : (totalTakeoffsLimit - air.totalTakeoffs).toNat =
      (totalTakeoffsLimit - next.totalTakeoffs).toNat + 1 := by
    rw [htotal]
    omega
  have hsum := next.rankSum_le
  unfold remaining
  rw [hstep, Nat.succ_mul (totalTakeoffsLimit - next.totalTakeoffs).toNat]
  omega

/-- Once the limit is reached every statement brings its thread closer to its
return, whatever the others do. -/
theorem rankSum_statement_of_limit
    (hlimit : totalTakeoffsLimit ≤ air.totalTakeoffs)
    (hstatement : air.statement controller = some (next, kills)) :
    totalTakeoffsLimit ≤ next.totalTakeoffs ∧ next.rankSum < air.rankSum := by
  obtain ⟨dest, hmove⟩ := statement_move hstatement
  have hnext : totalTakeoffsLimit ≤ next.totalTakeoffs := by
    rcases hmove.total with htotal | htotal <;> omega
  refine ⟨hnext, ?_⟩
  simp only [rankSum, rank, if_neg (not_lt.mpr hlimit), if_neg (not_lt.mpr hnext),
    hmove.place]
  exact sum_update_lt (hmove.toReturn hlimit)

/-- Before the limit a statement brings the program closer to it when there is a
plane to be tested for and the runway that is tried is free. -/
theorem remaining_statement_below
    (hbelow : air.totalTakeoffs < totalTakeoffsLimit)
    (hplanes : 0 < air.planes)
    (hfree : ∀ runway, air.place controller = .tries runway →
      air.runwayLocked runway = false)
    (hstatement : air.statement controller = some (next, kills)) :
    next.remaining < air.remaining := by
  obtain ⟨dest, hmove⟩ := statement_move hstatement
  rcases hmove.total with htotal | htotal
  · have hlower := hmove.toTakeoff hbelow hplanes hfree htotal
    unfold remaining
    rw [htotal]
    refine Nat.add_lt_add_left ?_ _
    simp only [rankSum, rank, htotal, if_pos hbelow, hmove.place]
    exact sum_update_lt hlower
  · exact remaining_lt_of_takeoff hbelow htotal

/-- What the next statement of a thread waits for is free. -/
structure CanGoOn (air : AirThreads n) (controller : Fin n) : Prop where
  running : air.place controller ≠ .returned
  state : ∀ runway, air.place controller = .lockState runway →
    air.stateLocked = false
  runway : ∀ runway, air.place controller = .tries runway →
    air.runwayLocked runway = false

theorem isSome_statement (hrunning : air.place controller ≠ .returned)
    (hstate : ∀ runway, air.place controller = .lockState runway →
      air.stateLocked = false) :
    (air.statement controller).isSome = true := by
  cases hplace : air.place controller with
  | lockState runway => simp [statement, hplace, hstate runway hplace]
  | tryRunway1 | tryRunway2 =>
      simp only [statement, hplace]
      split <;> rfl
  | returned => exact absurd hplace hrunning
  | _ => simp [statement, hplace]

/-- The thread in the section can go on; where there is none a thread that holds
a runway can, and where all locks are free every thread can. -/
theorem exists_canGoOn (hlocks : Locks air)
    (hrunning : ∃ controller, air.place controller ≠ .returned) :
    ∃ controller, CanGoOn air controller := by
  by_cases hsection : ∃ controller, (air.place controller).inSection = true
  · obtain ⟨controller, hinside⟩ := hsection
    refine ⟨controller, fun hplace => ?_, fun runway hplace => ?_,
      fun runway hplace => ?_⟩
    all_goals rw [hplace] at hinside
    · contradiction
    · contradiction
    · cases runway <;> contradiction
  have hfree : air.stateLocked = false := hlocks.state.unlocked
    fun controller => Bool.eq_false_iff.mpr
      fun hinside => hsection ⟨controller, hinside⟩
  by_cases hholds : ∃ controller runway,
      (air.place controller).holds runway = true
  · obtain ⟨controller, runway, hheld⟩ := hholds
    refine ⟨controller, fun hplace => ?_, fun _ _ => hfree,
      fun other hplace => ?_⟩
    all_goals rw [hplace] at hheld
    · contradiction
    · cases other <;> contradiction
  have hrunways : ∀ runway, air.runwayLocked runway = false :=
    fun runway => (hlocks.runway runway).unlocked
      fun controller => Bool.eq_false_iff.mpr
        fun hheld => hholds ⟨controller, runway, hheld⟩
  obtain ⟨controller, hplace⟩ := hrunning
  exact ⟨controller, hplace, fun _ _ => hfree, fun runway _ => hrunways runway⟩

theorem CanGoOn.of_undisturbed (hgo : CanGoOn air controller)
    (hundisturbed : Undisturbed air next) : CanGoOn next controller where
  running := by
    rw [hundisturbed.place]
    exact hgo.running
  state := by
    rw [hundisturbed.place, hundisturbed.stateLocked]
    exact hgo.state
  runway := by
    rw [hundisturbed.place, hundisturbed.runwayLocked]
    exact hgo.runway

theorem Undisturbed.remaining (hundisturbed : Undisturbed air next) :
    next.remaining = air.remaining := by
  rw [AirThreads.remaining, AirThreads.remaining, rankSum, rankSum,
    hundisturbed.place, hundisturbed.totalTakeoffs]

end AirThreads

open AirThreads

variable {n : Nat} {air : AirThreads n}

/-- A run of `SigHandler2` that has started can be finished. -/
theorem exists_finished (air : AirThreads n) (thread : Thread n) :
    ∃ schedule next, (airThreads n).alone.runFrom air schedule = some next ∧
      Undisturbed air next ∧
      next.handler = Function.update air.handler thread .idle := by
  cases hhandler : air.handler thread with
  | idle =>
      refine ⟨[], air, rfl, ⟨rfl, rfl, rfl, rfl⟩, ?_⟩
      rw [← hhandler, Function.update_eq_self]
  | storePlanes loaded =>
      refine ⟨[.sigHandler2 thread], { air with
        planes := loaded + 5
        handler := Function.update air.handler thread .idle
        handlerRuns := air.handlerRuns + 1 }, ?_, ⟨rfl, rfl, rfl, rfl⟩, rfl⟩
      simp [System.runFrom, AirProgram.alone, airThreads, AirThreads.step,
        handlerStatement, hhandler]
  | loadPlanes =>
      refine ⟨[.sigHandler2 thread, .sigHandler2 thread], { air with
        planes := air.planes + 5
        handler := Function.update air.handler thread .idle
        handlerRuns := air.handlerRuns + 1 }, ?_, ⟨rfl, rfl, rfl, rfl⟩, rfl⟩
      simp [System.runFrom, AirProgram.alone, airThreads, AirThreads.step,
        handlerStatement, hhandler]

/-- SIGUSR2 on the main thread brings planes. -/
theorem exists_supplied (hidle : air.handler .main = .idle) :
    ∃ schedule next, (airThreads n).alone.runFrom air schedule = some next ∧
      (Undisturbed air next ∧ next.handler = air.handler) ∧
      0 < next.planes := by
  refine exists_run_of_progress (fun air => (1 - air.planes).toNat) ?_
    ⟨⟨rfl, rfl, rfl, rfl⟩, rfl⟩
  intro mid hmid hplanes
  refine ⟨[.startSigHandler2 .main, .sigHandler2 .main, .sigHandler2 .main],
    { mid with
      planes := mid.planes + 5
      handlerRuns := mid.handlerRuns + 1 }, ?_, ?_, ?_⟩
  · have hmain : mid.handler .main = .idle := by rw [hmid.2, hidle]
    have hsame : Function.update mid.handler .main .idle = mid.handler := by
      rw [← hmain, Function.update_eq_self]
    simp [System.runFrom, AirProgram.alone, airThreads, AirThreads.step,
      AirThreads.alive, handlerStatement, hmain, hsame]
  · exact ⟨hmid.1.trans ⟨rfl, rfl, rfl, rfl⟩, hmid.2⟩
  · change (1 - (mid.planes + 5)).toNat < (1 - mid.planes).toNat
    omega

/-- The handlers out of the way and planes to take off, no controller moved. -/
theorem exists_ready (air : AirThreads n) (controller : Fin n) :
    ∃ schedule next, (airThreads n).alone.runFrom air schedule = some next ∧
      Undisturbed air next ∧
      next.handler (.controller controller) = .idle ∧ 0 < next.planes := by
  obtain ⟨first, mid, hfirst, hmid, hmidHandler⟩ :=
    exists_finished air (.controller controller)
  obtain ⟨second, idle, hsecond, hidle, hidleHandler⟩ :=
    exists_finished mid .main
  have hmain : idle.handler .main = .idle := by
    rw [hidleHandler, Function.update_self]
  obtain ⟨third, next, hthird, ⟨hnext, hnextHandler⟩, hplanes⟩ :=
    exists_supplied hmain
  refine ⟨first ++ (second ++ third), next,
    System.runFrom_trans hfirst (System.runFrom_trans hsecond hthird),
    hmid.trans (hidle.trans hnext), ?_, hplanes⟩
  rw [hnextHandler, hidleHandler, Function.update_of_ne (by simp),
    hmidHandler, Function.update_self]

theorem locks_invariant : Invariant (airThreads n).alone Locks where
  start := by
    refine ⟨countAt_eq_zero_iff.mpr fun _ => rfl, fun runway => ?_⟩
    cases runway <;> exact countAt_eq_zero_iff.mpr fun _ => rfl
  step := by
    intro air next action hlocks hstep
    simp only [AirProgram.alone, Option.map_eq_some_iff] at hstep
    rcases hstep with ⟨⟨_, kills⟩, hair, rfl⟩
    cases action with
    | takeOffsFunction controller =>
        simp only [airThreads, AirThreads.step,
          Option.ite_none_right_eq_some] at hair
        exact locks_statement hlocks hair.2
    | startSigHandler2 thread =>
        obtain ⟨_, rfl⟩ := step_startSigHandler2 hair
        exact ⟨hlocks.state, hlocks.runway⟩
    | sigHandler2 thread =>
        exact hlocks.of_undisturbed
          (undisturbed_handlerStatement (AirThreads.step_sigHandler2 hair).2)

/-- One statement that brings the program closer to its end is always possible
after some runs of the handler. -/
theorem exists_progress (hlocks : Locks air)
    (hrunning : ∃ controller, air.place controller ≠ .returned) :
    ∃ schedule next, (airThreads n).alone.runFrom air schedule = some next ∧
      Locks next ∧ next.remaining < air.remaining := by
  obtain ⟨controller, hgo⟩ := exists_canGoOn hlocks hrunning
  obtain ⟨schedule, ready, hready, hundisturbed, hidle, hplanes⟩ :=
    exists_ready air controller
  have hgo := hgo.of_undisturbed hundisturbed
  have hlocks := hlocks.of_undisturbed hundisturbed
  obtain ⟨⟨next, kills⟩, hstatement⟩ := Option.isSome_iff_exists.mp
    (isSome_statement hgo.running hgo.state)
  have hstep : (airThreads n).alone.runFrom ready
      [.takeOffsFunction controller] = some next := by
    simp [System.runFrom, AirProgram.alone, airThreads, AirThreads.step, hidle,
      hstatement]
  refine ⟨_, next, System.runFrom_trans hready hstep,
    locks_statement hlocks hstatement, ?_⟩
  rw [← hundisturbed.remaining]
  by_cases hbelow : ready.totalTakeoffs < totalTakeoffsLimit
  · exact remaining_statement_below hbelow hplanes hgo.runway hstatement
  · obtain ⟨htotal, hlower⟩ :=
      rankSum_statement_of_limit (not_lt.mp hbelow) hstatement
    unfold remaining
    have htoNat : (totalTakeoffsLimit - next.totalTakeoffs).toNat = 0 := by
      omega
    rw [htoNat, Nat.zero_mul]
    omega

/-- From every state that the program can reach the handler and the controllers
can bring every thread to its return: no interleaving leaves a lock behind that
shuts a thread out for ever. -/
theorem all_can_return (hreach : (airThreads n).alone.Reachable air) :
    ∃ schedule last, (airThreads n).alone.runFrom air schedule = some last ∧
      ∀ controller, last.place controller = .returned := by
  have hprogress : ∀ {air : AirThreads n}, Locks air →
      ¬ (∀ controller, air.place controller = .returned) →
      ∃ schedule next, (airThreads n).alone.runFrom air schedule = some next ∧
        Locks next ∧ next.remaining < air.remaining :=
    fun hlocks hrunning => exists_progress hlocks (not_forall.mp hrunning)
  obtain ⟨schedule, last, hrun, _, hlast⟩ := exists_run_of_progress
    AirThreads.remaining hprogress (locks_invariant.reachable hreach)
  exact ⟨schedule, last, hrun, hlast⟩

theorem all_can_return_start :
    ∃ schedule last,
      (airThreads controllerCount).alone.runFrom AirThreads.start schedule =
        some last ∧
      ∀ controller, last.place controller = .returned :=
  all_can_return (System.Reachable.start (airThreads controllerCount).alone)

def isStatement : ThreadAction n → Bool
  | .takeOffsFunction _ => true
  | _ => false

/-- Where no thread can go on all controllers have returned. -/
theorem returned_of_stuck (hlocks : Locks air)
    (hstuck : ∀ controller, air.step (.takeOffsFunction controller) = none)
    (hidle : ∀ thread, air.step (.sigHandler2 thread) = none) :
    ∀ controller, air.place controller = .returned := by
  by_contra hrunning
  obtain ⟨controller, hgo⟩ := exists_canGoOn hlocks (not_forall.mp hrunning)
  have hsome := isSome_statement hgo.running hgo.state
  have hnone := hstuck controller
  cases hhandler : air.handler (.controller controller) with
  | idle =>
      rw [AirThreads.step, if_pos hhandler] at hnone
      rw [hnone] at hsome
      contradiction
  | loadPlanes | storePlanes =>
      have hblocked := hidle (.controller controller)
      simp [AirThreads.step, handlerStatement, hhandler] at hblocked

/-- Once the limit is reached every statement lowers the sum of the ranks, and
`SigHandler2` leaves it alone. -/
theorem rankSum_step_of_limit {next : AirThreads n} {action : ThreadAction n}
    (hair : Locks air ∧ totalTakeoffsLimit ≤ air.totalTakeoffs)
    (hstep : (airThreads n).alone.step air action = some next) :
    (Locks next ∧ totalTakeoffsLimit ≤ next.totalTakeoffs) ∧
      next.rankSum + (isStatement action).toNat ≤ air.rankSum := by
  have hlocks := locks_invariant.step hair.1 hstep
  simp only [AirProgram.alone, Option.map_eq_some_iff] at hstep
  rcases hstep with ⟨⟨_, kills⟩, hstep, rfl⟩
  cases action with
  | takeOffsFunction controller =>
      simp only [airThreads, AirThreads.step,
        Option.ite_none_right_eq_some] at hstep
      obtain ⟨htotal, hlower⟩ := rankSum_statement_of_limit hair.2 hstep.2
      exact ⟨⟨hlocks, htotal⟩, hlower⟩
  | startSigHandler2 thread =>
      obtain ⟨_, rfl⟩ := step_startSigHandler2 hstep
      exact ⟨⟨hlocks, hair.2⟩, le_rfl⟩
  | sigHandler2 thread =>
      have hsame := undisturbed_handlerStatement
        (AirThreads.step_sigHandler2 hstep).2
      refine ⟨⟨hlocks, hsame.totalTakeoffs ▸ hair.2⟩, le_of_eq ?_⟩
      simp only [isStatement, Bool.toNat_false, Nat.add_zero, rankSum,
        hsame.place, hsame.totalTakeoffs]

/-- Once twenty takeoffs are counted the program is at its end: whatever the
interleaving and whatever signals still come, the controllers have at most
fourteen statements left each, and where no thread can go on all of them have
returned. -/
theorem ends_after_limit (hreach : (airThreads n).alone.Reachable air)
    (hlimit : 20 ≤ air.totalTakeoffs) {schedule : List (ThreadAction n)}
    {last : AirThreads n}
    (hrun : (airThreads n).alone.runFrom air schedule = some last) :
    schedule.countP isStatement ≤ 14 * n ∧
      ((∀ controller, last.step (.takeOffsFunction controller) = none) →
        (∀ thread, last.step (.sigHandler2 thread) = none) →
          ∀ controller, last.place controller = .returned) := by
  have hstart : Locks air ∧ totalTakeoffsLimit ≤ air.totalTakeoffs :=
    ⟨locks_invariant.reachable hreach, hlimit⟩
  constructor
  · have hcount := runFrom_countP_add_measure_le AirThreads.rankSum isStatement
      rankSum_step_of_limit hstart hrun
    have hsum := air.rankSum_le
    omega
  · obtain ⟨before, hbefore⟩ := hreach
    have hlast : (airThreads n).alone.Reachable last :=
      ⟨before ++ schedule, System.runFrom_trans hbefore hrun⟩
    exact returned_of_stuck (locks_invariant.reachable hlast)

open LedgerRuns

/-- Four batches, and twenty takeoffs by one thread. -/
def LedgerRuns.twentyTakeoffs : List (ThreadAction controllerCount) :=
  supply ++ supply ++ supply ++ supply ++ statements controller0 192

/-- The five threads leave the loop one after the other. -/
def LedgerRuns.returns : List (ThreadAction controllerCount) :=
  statements controller0 2 ++ statements controller1 2 ++
    statements controller2 2 ++ statements controller3 2 ++
    statements controller4 2

theorem ends_after_limit_twentyTakeoffs :
    ∃ air last : AirThreads controllerCount,
      air.totalTakeoffs = 20 ∧
      (airThreads controllerCount).alone.runFrom air returns = some last ∧
      returns.countP isStatement ≤ 70 ∧
      ∀ controller, last.place controller = .returned := by
  have htotal : ((airThreads controllerCount).alone.run twentyTakeoffs).map
      AirThreads.totalTakeoffs = some 20 := by
    decide +kernel
  obtain ⟨air, hrun, hair⟩ := Option.map_eq_some_iff.mp htotal
  have hstuck : ((airThreads controllerCount).alone.run
      (twentyTakeoffs ++ returns)).map (fun air =>
        decide (∀ controller,
          (air.step (.takeOffsFunction controller)).isNone = true ∧
          (air.step (.sigHandler2 (.controller controller))).isNone = true) &&
        (air.step (.sigHandler2 .main)).isNone) = some true := by
    decide +kernel
  obtain ⟨last, hall, hlast⟩ := Option.map_eq_some_iff.mp hstuck
  rw [System.run, System.runFrom_append, ← System.run, hrun,
    Option.bind_some] at hall
  simp only [Bool.and_eq_true, decide_eq_true_iff, Option.isNone_iff_eq_none]
    at hlast
  obtain ⟨hcount, hreturned⟩ :=
    ends_after_limit ⟨twentyTakeoffs, hrun⟩ hair.ge hall
  refine ⟨air, last, hair, hall, hcount, hreturned (fun controller =>
    (hlast.1 controller).1) fun thread => ?_⟩
  cases thread with
  | main => exact hlast.2
  | controller index => exact (hlast.1 index).2

end Airport

end OsCourse
