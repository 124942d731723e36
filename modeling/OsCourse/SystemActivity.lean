/-
The times of the system activity report: seconds as /proc/uptime gives them, taken
apart into days, hours, minutes and seconds.  The `double` arithmetic is read as
exact, and a cast to `int` of a number that no `int` holds is a failure.
-/
import Mathlib.Algebra.Order.Floor.Ring
import Mathlib.Data.Rat.Floor
import Mathlib.Tactic.Linarith
import Mathlib.Tactic.Positivity

namespace OsCourse

namespace SystemActivity

/-- `(int)value`, which drops the fraction. -/
def castToInt (value : ℚ) : Option Int :=
  let truncated := if 0 ≤ value then ⌊value⌋ else ⌈value⌉
  if -2 ^ 31 ≤ truncated ∧ truncated < 2 ^ 31 then some truncated else none

structure Time where
  days : Int
  hours : Int
  mins : Int
  secs : Int
deriving Repr, DecidableEq

def convertTime (seconds : ℚ) : Option Time := do
  let secs := (← castToInt seconds).tmod 60
  let seconds := seconds / 60
  let mins := (← castToInt seconds).tmod 60
  let seconds := seconds / 60
  let hours := (← castToInt seconds).tmod 24
  let seconds := seconds / 24
  let days ← castToInt seconds
  return ⟨days, hours, mins, secs⟩

theorem castToInt_of_nonneg {value : ℚ} (hvalue : 0 ≤ value) :
    castToInt value = if value < 2 ^ 31 then some ⌊value⌋ else none := by
  have hfloor : 0 ≤ ⌊value⌋ := Int.floor_nonneg.mpr hvalue
  have hlt : ⌊value⌋ < 2 ^ 31 ↔ value < 2 ^ 31 := by
    rw [Int.floor_lt]
    norm_num
  simp only [castToInt, if_pos hvalue, ← hlt]
  by_cases hsmall : ⌊value⌋ < 2 ^ 31
  · rw [if_pos hsmall, if_pos ⟨by omega, hsmall⟩]
  · rw [if_neg hsmall, if_neg fun hrange => hsmall hrange.2]

theorem castToInt_of_large {value : ℚ} (hlarge : 2 ^ 31 ≤ value) :
    castToInt value = none := by
  have hnonneg : 0 ≤ value := le_trans (by norm_num) hlarge
  rw [castToInt_of_nonneg hnonneg, if_neg (not_lt.mpr hlarge)]

/-- Dividing before the fraction is dropped is dividing after it. -/
theorem castToInt_div {value : ℚ} (hvalue : 0 ≤ value)
    (hsmall : value < 2 ^ 31) {divisor : Nat} (hdivisor : 1 ≤ divisor) :
    castToInt (value / divisor) = some (⌊value⌋ / divisor) := by
  have hquotient : 0 ≤ value / divisor := by positivity
  have hle : value / divisor ≤ value :=
    div_le_self hvalue (by exact_mod_cast hdivisor)
  rw [castToInt_of_nonneg hquotient, if_pos (hle.trans_lt hsmall),
    Int.floor_div_natCast]

/-- The fields are in their ranges and add up to a number of seconds. -/
structure IsDecomposition (time : Time) (total : Int) : Prop where
  secs : 0 ≤ time.secs ∧ time.secs < 60
  mins : 0 ≤ time.mins ∧ time.mins < 60
  hours : 0 ≤ time.hours ∧ time.hours < 24
  days : 0 ≤ time.days
  sum : 86400 * time.days + 3600 * time.hours + 60 * time.mins +
    time.secs = total

/-- A number of seconds has one decomposition only. -/
theorem IsDecomposition.unique {first second : Time} {total : Int}
    (hfirst : IsDecomposition first total)
    (hsecond : IsDecomposition second total) : first = second := by
  rcases first with ⟨days, hours, mins, secs⟩
  rcases second with ⟨days', hours', mins', secs'⟩
  rcases hfirst with ⟨hsecs, hmins, hhours, hdays, hsum⟩
  rcases hsecond with ⟨hsecs', hmins', hhours', hdays', hsum'⟩
  dsimp only at *
  simp only [Time.mk.injEq]
  omega

section ConvertTime

variable {seconds : ℚ}

theorem convertTime_of_small (hseconds : 0 ≤ seconds)
    (hsmall : seconds < 2 ^ 31) :
    ∃ time, convertTime seconds = some time ∧
      IsDecomposition time ⌊seconds⌋ := by
  have hfloor : 0 ≤ ⌊seconds⌋ := Int.floor_nonneg.mpr hseconds
  have hsecs : castToInt seconds = some ⌊seconds⌋ := by
    rw [castToInt_of_nonneg hseconds, if_pos hsmall]
  have hmins : castToInt (seconds / 60) = some (⌊seconds⌋ / 60) := by
    exact_mod_cast castToInt_div hseconds hsmall (by decide : 1 ≤ 60)
  have hhours : castToInt (seconds / 60 / 60) =
      some (⌊seconds⌋ / 3600) := by
    rw [div_div]
    norm_num
    exact_mod_cast castToInt_div hseconds hsmall (by decide : 1 ≤ 3600)
  have hdays : castToInt (seconds / 60 / 60 / 24) =
      some (⌊seconds⌋ / 86400) := by
    rw [div_div, div_div]
    norm_num
    exact_mod_cast castToInt_div hseconds hsmall (by decide : 1 ≤ 86400)
  refine ⟨⟨⌊seconds⌋ / 86400, (⌊seconds⌋ / 3600).tmod 24,
    (⌊seconds⌋ / 60).tmod 60, ⌊seconds⌋.tmod 60⟩, ?_, ?_⟩
  · simp only [convertTime, hsecs, hmins, hhours, hdays, Option.bind_eq_bind,
      Option.bind_some]
    rfl
  · rw [Int.tmod_eq_emod_of_nonneg hfloor,
      Int.tmod_eq_emod_of_nonneg (by omega),
      Int.tmod_eq_emod_of_nonneg (by omega)]
    constructor <;> dsimp only <;> omega

/-- The first cast is applied to the seconds as they are. -/
theorem convertTime_of_large (hlarge : 2 ^ 31 ≤ seconds) :
    convertTime seconds = none := by
  simp only [convertTime, castToInt_of_large hlarge, Option.bind_eq_bind,
    Option.bind_none]

theorem convertTime_isSome_iff (hseconds : 0 ≤ seconds) :
    (convertTime seconds).isSome ↔ seconds < 2 ^ 31 := by
  rcases lt_or_ge seconds (2 ^ 31) with hsmall | hlarge
  · obtain ⟨time, htime, -⟩ := convertTime_of_small hseconds hsmall
    simp [htime, hsmall]
  · simp [convertTime_of_large hlarge, hlarge]

theorem convertTime_decomposes (hseconds : 0 ≤ seconds) {time : Time}
    (htime : convertTime seconds = some time) :
    IsDecomposition time ⌊seconds⌋ := by
  have hsmall : seconds < 2 ^ 31 :=
    (convertTime_isSome_iff hseconds).mp (Option.isSome_of_eq_some htime)
  obtain ⟨found, hfound, hdecomposed⟩ := convertTime_of_small hseconds hsmall
  cases htime.symm.trans hfound
  exact hdecomposed

/-- The seconds are taken apart exactly if an `int` holds them. -/
theorem convertTime_exact_iff (hseconds : 0 ≤ seconds) :
    (∃ time, convertTime seconds = some time ∧
      IsDecomposition time ⌊seconds⌋) ↔ seconds < 2 ^ 31 := by
  constructor
  · rintro ⟨time, htime, -⟩
    by_contra hlarge
    rw [convertTime_of_large (not_lt.mp hlarge)] at htime
    contradiction
  · exact convertTime_of_small hseconds

/-- One day, one hour, one minute and one and a half seconds. -/
theorem convertTime_exact_iff_day :
    ∃ time, convertTime (90061 + 1 / 2) = some time ∧
      IsDecomposition time ⌊(90061 + 1 / 2 : ℚ)⌋ :=
  (convertTime_exact_iff (by norm_num)).mpr (by norm_num)

/-- Idle seconds of many cores that no `int` holds. -/
theorem not_convertTime_exact_idle :
    ¬ ∀ seconds : ℚ, 0 ≤ seconds →
      ∃ time, convertTime seconds = some time ∧
        IsDecomposition time ⌊seconds⌋ := by
  intro hall
  obtain ⟨time, htime, -⟩ := hall (2 ^ 31) (by norm_num)
  rw [convertTime_of_large le_rfl] at htime
  contradiction

end ConvertTime

end SystemActivity

end OsCourse
