/-
The horse race: five threads that move at random and enter themselves in
`finish_order` when they are at the end of the track.  A finish is two
statements, the store at `finish_count` and the increment, and no lock is around
them.
-/
import OsCourse.TransitionSystem
import OsCourse.Processes
import OsCourse.BoundedLog
import Mathlib.Data.List.FinRange
import Mathlib.Data.Fintype.Card

namespace OsCourse

namespace HorseRace

open TransitionSystem ThreadPool

/-- `NUM_HORSES`. -/
abbrev numHorses : Nat := 5

/-- `TRACK_LENGTH`. -/
def trackLength : Int := 50

abbrev Horse : Type := Fin numHorses

/-- The statement of `horse_run` that a horse runs next. -/
inductive Place where
  | loopGuard
  | move
  | printMove
  | finishTest
  | storeFinish
  | countFinish
  | printFinish
  | usleep
  | returned
deriving Repr, DecidableEq

inductive RaceLine where
  | moves (horse : Horse) (position : Int)
  | finished (horse : Horse)
deriving Repr, DecidableEq

/-- The globals, where the threads are and what they printed; `stored` lists the horses
in the order of their stores and `outside` records a store outside
`finish_order`. -/
structure Race where
  track : Horse → Int
  finishOrder : Vector Int numHorses
  finishCount : Nat
  place : Horse → Place
  printed : List RaceLine
  stored : List Horse
  outside : Bool

/-- The next statement of a horse; `rand` is what `rand` returns if it is called. -/
structure Turn where
  horse : Horse
  rand : Nat
deriving Repr, DecidableEq

namespace Race

def start : Race where
  track := fun _ => 0
  finishOrder := Vector.replicate numHorses 0
  finishCount := 0
  place := fun _ => .loopGuard
  printed := []
  stored := []
  outside := false

def goto (race : Race) (horse : Horse) (place : Place) : Race :=
  { race with place := Function.update race.place horse place }

def print (race : Race) (line : RaceLine) : Race :=
  { race with printed := race.printed ++ [line] }

/-- `track[id] += step;` and the cut at the end of the track. -/
def move (race : Race) (horse : Horse) (step : Nat) : Race :=
  let position := race.track horse + step
  let position := if position > trackLength then trackLength else position
  { race with track := Function.update race.track horse position }

/-- `finish_order[finish_count] = id;`. -/
def storeFinish (race : Race) (horse : Horse) : Race :=
  if hindex : race.finishCount < numHorses then
    { race with
      finishOrder := race.finishOrder.set race.finishCount horse.val hindex
      stored := race.stored ++ [horse] }
  else { race with outside := true }

def step (race : Race) (turn : Turn) : Option Race :=
  match race.place turn.horse with
  | .loopGuard =>
      some (race.goto turn.horse
        (if race.track turn.horse < trackLength then .move else .returned))
  | .move =>
      some ((race.move turn.horse (turn.rand % 4)).goto turn.horse .printMove)
  | .printMove =>
      some ((race.print
        (.moves turn.horse (race.track turn.horse))).goto turn.horse
          .finishTest)
  | .finishTest =>
      some (race.goto turn.horse
        (if race.track turn.horse ≥ trackLength then .storeFinish
          else .usleep))
  | .storeFinish =>
      some ((race.storeFinish turn.horse).goto turn.horse .countFinish)
  | .countFinish =>
      some (({ race with finishCount := race.finishCount + 1 } :
        Race).goto turn.horse .printFinish)
  | .printFinish =>
      some ((race.print (.finished turn.horse)).goto turn.horse .returned)
  | .usleep => some (race.goto turn.horse .loopGuard)
  | .returned => none

/-- The places that `main` prints once it has joined every thread. -/
def finalResults (race : Race) : List Int :=
  race.finishOrder.toList

end Race

def horseRace : System Race Turn where
  start := Race.start
  step := Race.step

namespace Place

/-- The horse has stored its finish. -/
def hasStored : Place → Bool
  | .countFinish | .printFinish | .returned => true
  | _ => false

/-- The horse has stored its finish and not yet counted it. -/
def uncounted : Place → Bool
  | .countFinish => true
  | _ => false

/-- The horse is to test `track[id] < TRACK_LENGTH`. -/
def beforeGuard : Place → Bool
  | .loopGuard | .usleep => true
  | _ => false

end Place

/-- What a statement does to the results: nothing, a store or a count. -/
inductive Effect (race : Race) (horse : Horse) : Race → Prop
  | quiet {next : Race} {dest : Place}
      (place : next.place = Function.update race.place horse dest)
      (order : next.finishOrder = race.finishOrder)
      (count : next.finishCount = race.finishCount)
      (stored : next.stored = race.stored)
      (outside : next.outside = race.outside)
      (same : dest.hasStored = (race.place horse).hasStored)
      (elsewhere : race.place horse ≠ .storeFinish)
      (here : (race.place horse).uncounted = false)
      (there : dest.uncounted = false)
      (running : dest.beforeGuard = true → next.track horse < trackLength)
      (others : ∀ other, other ≠ horse → next.track other = race.track other) :
      Effect race horse next
  | store (here : race.place horse = .storeFinish) :
      Effect race horse ((race.storeFinish horse).goto horse .countFinish)
  | count (here : race.place horse = .countFinish) :
      Effect race horse (({ race with
        finishCount := race.finishCount + 1 } : Race).goto horse .printFinish)

/-- A horse that is to test the guard has not finished. -/
def Running (race : Race) : Prop :=
  ∀ horse, (race.place horse).beforeGuard = true →
    race.track horse < trackLength

/-- A statement that is neither the store nor the count. -/
theorem Effect.of_place {race next : Race} {horse : Horse} {here dest : Place}
    (hplace : race.place horse = here)
    (hplaces : dest.hasStored = here.hasStored ∧ here ≠ .storeFinish ∧
      here.uncounted = false ∧ dest.uncounted = false)
    (hnext : next.place = Function.update race.place horse dest ∧
      next.finishOrder = race.finishOrder ∧
      next.finishCount = race.finishCount ∧
      next.stored = race.stored ∧ next.outside = race.outside)
    (hrunning : dest.beforeGuard = true → next.track horse < trackLength)
    (hothers : ∀ other, other ≠ horse →
      next.track other = race.track other) : Effect race horse next := by
  obtain ⟨hstored, helsewhere, huncounted, hthere⟩ := hplaces
  obtain ⟨hmoved, horder, hcount, hlist, houtside⟩ := hnext
  subst here
  exact .quiet hmoved horder hcount hlist houtside hstored helsewhere
    huncounted hthere hrunning hothers

theorem step_effect {race next : Race} {turn : Turn}
    (hrunning : Running race) (hstep : race.step turn = some next) :
    Effect race turn.horse next := by
  cases hplace : race.place turn.horse with
  | loopGuard =>
      have htrack := hrunning turn.horse (by rw [hplace]; rfl)
      simp only [Race.step, hplace, if_pos htrack, Option.some.injEq] at hstep
      subst next
      exact .of_place hplace (by decide) ⟨rfl, rfl, rfl, rfl, rfl⟩
        (fun hguard => by cases hguard) (fun _ _ => rfl)
  | move =>
      simp only [Race.step, hplace, Option.some.injEq] at hstep
      subst next
      exact .of_place hplace (by decide) ⟨rfl, rfl, rfl, rfl, rfl⟩
        (fun hguard => by cases hguard)
        (fun other hother => Function.update_of_ne hother ..)
  | printMove =>
      simp only [Race.step, hplace, Option.some.injEq] at hstep
      subst next
      exact .of_place hplace (by decide) ⟨rfl, rfl, rfl, rfl, rfl⟩
        (fun hguard => by cases hguard) (fun _ _ => rfl)
  | finishTest =>
      by_cases hfinished : race.track turn.horse ≥ trackLength
      · simp only [Race.step, hplace, if_pos hfinished,
          Option.some.injEq] at hstep
        subst next
        exact .of_place hplace (by decide) ⟨rfl, rfl, rfl, rfl, rfl⟩
          (fun hguard => by cases hguard) (fun _ _ => rfl)
      · simp only [Race.step, hplace, if_neg hfinished,
          Option.some.injEq] at hstep
        subst next
        exact .of_place hplace (by decide) ⟨rfl, rfl, rfl, rfl, rfl⟩
          (fun _ => Int.not_le.mp hfinished) (fun _ _ => rfl)
  | storeFinish =>
      simp only [Race.step, hplace, Option.some.injEq] at hstep
      exact hstep ▸ .store hplace
  | countFinish =>
      simp only [Race.step, hplace, Option.some.injEq] at hstep
      exact hstep ▸ .count hplace
  | printFinish =>
      simp only [Race.step, hplace, Option.some.injEq] at hstep
      subst next
      exact .of_place hplace (by decide) ⟨rfl, rfl, rfl, rfl, rfl⟩
        (fun hguard => by cases hguard) (fun _ _ => rfl)
  | usleep =>
      have htrack := hrunning turn.horse (by rw [hplace]; rfl)
      simp only [Race.step, hplace, Option.some.injEq] at hstep
      subst next
      exact .of_place hplace (by decide) ⟨rfl, rfl, rfl, rfl, rfl⟩
        (fun _ => htrack) (fun _ _ => rfl)
  | returned => simp [Race.step, hplace] at hstep

/-- Who has stored, how many of them are counted, and that no store was outside of
`finish_order`. -/
structure Standing (race : Race) : Prop where
  running : Running race
  memStored : ∀ horse, horse ∈ race.stored ↔
    (race.place horse).hasStored = true
  nodup : race.stored.Nodup
  count : race.finishCount + countAt race.place Place.uncounted =
    race.stored.length
  inside : race.outside = false

theorem standing_start : Standing Race.start where
  running _ _ := by
    change (0 : Int) < 50
    decide
  memStored _ := by simp [Race.start, Place.hasStored]
  nodup := List.nodup_nil
  count := by
    rw [countAt_eq_zero_iff.mpr fun _ => rfl]
    rfl
  inside := rfl

section Stores

variable {race next : Race} {horse : Horse}

/-- A horse at its store is new, so there is a place left for it. -/
theorem Standing.store_inside (hstanding : Standing race)
    (hplace : race.place horse = .storeFinish) :
    horse ∉ race.stored ∧ race.stored.length < numHorses := by
  have hnew : horse ∉ race.stored := by
    rw [hstanding.memStored, hplace]
    decide
  have hlength := (List.Nodup.cons hnew hstanding.nodup).length_le_card
  rw [Fintype.card_fin, List.length_cons] at hlength
  exact ⟨hnew, hlength⟩

theorem Standing.storeFinish (hstanding : Standing race)
    (hplace : race.place horse = .storeFinish) :
    ∃ hindex : race.finishCount < numHorses, race.storeFinish horse =
      { race with
        finishOrder := race.finishOrder.set race.finishCount horse.val hindex
        stored := race.stored ++ [horse] } := by
  have hlength := (hstanding.store_inside hplace).2
  have hcount := hstanding.count
  have hindex : race.finishCount < numHorses := by omega
  exact ⟨hindex, dif_pos hindex⟩

theorem mem_update_iff {place : Horse → Place} {dest : Place}
    {stored : List Horse}
    (hmem : ∀ other, other ∈ stored ↔ (place other).hasStored = true)
    (hsame : dest.hasStored = (place horse).hasStored) (other : Horse) :
    other ∈ stored ↔
      (Function.update place horse dest other).hasStored = true := by
  by_cases heq : other = horse
  · subst other
    rw [Function.update_self, hsame]
    exact hmem horse
  · rw [Function.update_of_ne heq]
    exact hmem other

theorem Running.update (hrunning : Running race) {dest : Place}
    (hplace : next.place = Function.update race.place horse dest)
    (hdest : dest.beforeGuard = true → next.track horse < trackLength)
    (hothers : ∀ other, other ≠ horse → next.track other = race.track other) :
    Running next := by
  intro other
  rw [hplace]
  by_cases heq : other = horse
  · subst other
    rw [Function.update_self]
    exact hdest
  · rw [Function.update_of_ne heq, hothers other heq]
    exact hrunning other

theorem Standing.step (hstanding : Standing race) {turn : Turn}
    (hstep : race.step turn = some next) : Standing next := by
  have hcount := hstanding.count
  cases step_effect hstanding.running hstep with
  | @quiet _ dest place order count stored outside same _ here there running
      others =>
      have hupdate := countAt_update race.place Place.uncounted turn.horse dest
      rw [here, there] at hupdate
      refine ⟨hstanding.running.update place running others, ?_, ?_, ?_, ?_⟩
      · rw [place, stored]
        exact mem_update_iff hstanding.memStored same
      · rw [stored]
        exact hstanding.nodup
      · rw [place, stored, count]
        omega
      · rw [outside]
        exact hstanding.inside
  | store here =>
      obtain ⟨hnew, hlength⟩ := hstanding.store_inside here
      obtain ⟨hindex, hstore⟩ := hstanding.storeFinish here
      have hupdate := countAt_update race.place Place.uncounted turn.horse
        .countFinish
      rw [here] at hupdate
      simp only [Place.uncounted, Bool.toNat_false, Bool.toNat_true]
        at hupdate
      rw [hstore]
      refine ⟨hstanding.running.update rfl (fun hguard => by cases hguard)
        (fun _ _ => rfl), ?_, ?_, ?_, hstanding.inside⟩
      · intro other
        by_cases heq : other = turn.horse
        · subst other
          simp [Race.goto, Place.hasStored]
        · simp only [Race.goto, Function.update_of_ne heq, List.mem_append,
            List.mem_singleton, heq, or_false]
          exact hstanding.memStored other
      · exact List.nodup_append.mpr ⟨hstanding.nodup, by simp, by
          rintro other hother _ hlast rfl
          exact hnew (List.mem_singleton.mp hlast ▸ hother)⟩
      · rw [Race.goto, List.length_append, List.length_singleton]
        dsimp only
        omega
  | count here =>
      have hupdate := countAt_update race.place Place.uncounted turn.horse
        .printFinish
      rw [here] at hupdate
      simp only [Place.uncounted, Bool.toNat_false, Bool.toNat_true]
        at hupdate
      refine ⟨hstanding.running.update rfl (fun hguard => by cases hguard)
        (fun _ _ => rfl), ?_, hstanding.nodup, ?_, hstanding.inside⟩
      · exact mem_update_iff hstanding.memStored (by rw [here]; rfl)
      · rw [Race.goto]
        dsimp only
        omega

end Stores

theorem standing_invariant : Invariant horseRace Standing where
  start := standing_start
  step hstanding hstep := hstanding.step hstep

/-- `finish_order` lists the horses as they stored their finish. -/
def InStoredOrder (race : Race) : Prop :=
  race.finishOrder.toList.take race.stored.length =
    race.stored.map fun horse => (horse.val : Int)

/-- A horse stores its finish while no other is between its store and its
count. -/
def StoresAlone (race : Race) (turn : Turn) : Prop :=
  race.place turn.horse = .storeFinish →
    ∀ other, race.place other ≠ .countFinish

instance (race : Race) (turn : Turn) : Decidable (StoresAlone race turn) :=
  inferInstanceAs (Decidable (_ → _))

theorem nobody_uncounted_iff (place : Horse → Place) :
    countAt place Place.uncounted = 0 ↔
      ∀ horse, place horse ≠ .countFinish := by
  rw [countAt_eq_zero_iff]
  refine forall_congr' fun horse => ?_
  cases place horse <;> simp [Place.uncounted]

/-- The order survives a store exactly if it is at the end of what is stored. -/
theorem inStoredOrder_step {race next : Race} {turn : Turn}
    (hstanding : Standing race)
    (hstep : race.step turn = some next) :
    InStoredOrder next ↔ InStoredOrder race ∧ StoresAlone race turn := by
  cases step_effect hstanding.running hstep with
  | @quiet _ _ _ order _ stored _ _ elsewhere _ _ _ _ =>
      have hquiet : StoresAlone race turn :=
        fun hstore => absurd hstore elsewhere
      rw [InStoredOrder, order, stored]
      exact (and_iff_left hquiet).symm
  | store here =>
      obtain ⟨hnew, hlength⟩ := hstanding.store_inside here
      obtain ⟨hindex, hstore⟩ := hstanding.storeFinish here
      have hcount := hstanding.count
      have hnewId : (turn.horse.val : Int) ∉
          race.stored.map fun horse => (horse.val : Int) := by
        intro hmem
        obtain ⟨horse, hhorse, heq⟩ := List.mem_map.mp hmem
        exact hnew (Fin.ext (Int.natCast_inj.mp heq) ▸ hhorse)
      have halone : race.finishCount = race.stored.length ↔
          StoresAlone race turn := by
        rw [StoresAlone, ← nobody_uncounted_iff]
        constructor
        · intro hcounted _
          omega
        · intro hnobody
          have hzero := hnobody here
          omega
      have happend := @BoundedLog.take_set_eq_append_iff Int
        (race.stored.map fun horse => (horse.val : Int))
        race.finishOrder.toList race.finishCount turn.horse.val hnewId
        (by rw [List.length_map]; omega)
        (by rw [List.length_map, Vector.length_toList]; exact hlength)
      rw [List.length_map, halone] at happend
      rw [hstore, InStoredOrder, Race.goto, List.length_append,
        List.length_singleton, Vector.toList_set, List.map_append]
      exact happend
  | count here =>
      have hquiet : StoresAlone race turn := by
        intro hstore
        rw [here] at hstore
        contradiction
      exact (and_iff_left hquiet).symm

/-- The results of a race whose threads have all returned. -/
structure ListsEveryHorse (race : Race) : Prop where
  count : race.finishCount = numHorses
  order : race.finalResults = race.stored.map fun horse => (horse.val : Int)
  everyHorse : race.stored.Perm (List.finRange numHorses)

/-- A race lists every horse once, in the order of the finishes, exactly if each horse
stores its finish while no other is about to count its own. -/
theorem listsEveryHorse_iff {schedule : List Turn} {last : Race}
    (hrun : horseRace.run schedule = some last)
    (hreturned : ∀ horse, last.place horse = .returned) :
    ListsEveryHorse last ↔ horseRace.Meets StoresAlone schedule := by
  have hstanding := standing_invariant.run hrun
  have hevery : last.stored.Perm (List.finRange numHorses) := by
    rw [List.perm_ext_iff_of_nodup hstanding.nodup (List.nodup_finRange _)]
    intro horse
    rw [hstanding.memStored, hreturned]
    exact iff_of_true rfl (List.mem_finRange horse)
  have hlength : last.stored.length = numHorses := by
    rw [hevery.length_eq, List.length_finRange]
  have hcount : last.finishCount = numHorses := by
    have huncounted : countAt last.place Place.uncounted = 0 := by
      rw [nobody_uncounted_iff]
      intro horse
      rw [hreturned]
      decide
    have hcounted := hstanding.count
    omega
  have hresults : last.finalResults =
      last.finishOrder.toList.take last.stored.length := by
    rw [hlength, List.take_of_length_le (Vector.length_toList ..).le]
    rfl
  have hstart : InStoredOrder horseRace.start := rfl
  have horder := last_iff_meets standing_invariant hstart
    (fun hbefore hstep => inStoredOrder_step hbefore hstep) hrun
  rw [← horder]
  constructor
  · intro hlists
    exact hresults.symm.trans hlists.order
  · exact fun hinOrder => ⟨hcount, hresults.trans hinOrder, hevery⟩

/-- Even in a race with a lost place every store is inside of `finish_order`. -/
theorem stores_inside {race : Race} (hreach : horseRace.Reachable race) :
    race.outside = false ∧ race.finishCount ≤ numHorses := by
  have hstanding := standing_invariant.reachable hreach
  have hlength := hstanding.nodup.length_le_card
  have hcount := hstanding.count
  rw [Fintype.card_fin] at hlength
  exact ⟨hstanding.inside, by omega⟩

namespace RaceRuns

/-- Seventeen moves, the longest possible each, and the test after the last. -/
def toFinish (horse : Horse) : List Turn :=
  List.replicate (16 * 5 + 4) ⟨horse, 3⟩

/-- The store, the count, the line and the return. -/
def finish (horse : Horse) : List Turn :=
  List.replicate 3 ⟨horse, 0⟩

/-- The horses run one after the other. -/
def oneByOne : List Turn :=
  (List.finRange numHorses).flatMap fun horse =>
    toFinish horse ++ finish horse

/-- Horses 1 and 2 store their finish before either counts it. -/
def photoFinish : List Turn :=
  (List.finRange numHorses).flatMap toFinish ++ finish 0 ++
    [⟨1, 0⟩, ⟨2, 0⟩, ⟨1, 0⟩, ⟨2, 0⟩, ⟨1, 0⟩, ⟨2, 0⟩] ++
    finish 3 ++ finish 4

end RaceRuns

open RaceRuns

/-- A race without a photo finish. -/
theorem listsEveryHorse_iff_oneByOne :
    ∃ last, horseRace.run oneByOne = some last ∧ ListsEveryHorse last := by
  have hreturned : ((horseRace.run oneByOne).map fun race =>
      (List.finRange numHorses).map race.place) =
      some (List.replicate numHorses .returned) := by
    decide +kernel
  obtain ⟨last, hrun, hplace⟩ := Option.map_eq_some_iff.mp hreturned
  refine ⟨last, hrun, (listsEveryHorse_iff hrun ?_).mpr (by decide +kernel)⟩
  intro horse
  exact List.eq_of_mem_replicate
    (hplace ▸ List.mem_map_of_mem (List.mem_finRange horse))

/-- Horse 1 is missing from the results, and horse 0 is there twice. -/
theorem horse_lost_reachable :
    ¬ ∀ (schedule : List Turn) (last : Race),
      horseRace.run schedule = some last →
      (∀ horse, last.place horse = .returned) → ListsEveryHorse last := by
  intro hall
  have hresults : ((horseRace.run photoFinish).map fun race =>
      ((List.finRange numHorses).map race.place, race.finalResults,
        race.stored)) =
      some (List.replicate numHorses .returned, [0, 2, 0, 3, 4],
        [0, 1, 2, 3, 4]) := by
    decide +kernel
  obtain ⟨last, hrun, heq⟩ := Option.map_eq_some_iff.mp hresults
  simp only [Prod.mk.injEq] at heq
  have hlists := hall photoFinish last hrun fun horse =>
    List.eq_of_mem_replicate
      (heq.1 ▸ List.mem_map_of_mem (List.mem_finRange horse))
  have horder := hlists.order
  rw [heq.2.1, heq.2.2] at horder
  exact absurd horder (by decide)

end HorseRace

end OsCourse
