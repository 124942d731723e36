/-
Rounding to a binary floating-point format: to the nearest multiple of a power of
two, a tie to the even one, with gradual underflow and an overflow bound.
-/
import Mathlib.Algebra.Order.Field.Power
import Mathlib.Data.Int.Log
import Mathlib.Data.Rat.Floor
import Mathlib.Tactic.Linarith
import Mathlib.Tactic.Positivity

namespace BinaryRounding

/-- The nearest integer, and the even one of two that are as near. -/
def roundHalfEven (value : ℚ) : ℤ :=
  if value - ⌊value⌋ < 1 / 2 then ⌊value⌋
  else if 1 / 2 < value - ⌊value⌋ then ⌊value⌋ + 1
  else if ⌊value⌋ % 2 = 0 then ⌊value⌋
  else ⌊value⌋ + 1

theorem abs_roundHalfEven_sub_le (value : ℚ) :
    |roundHalfEven value - value| ≤ 1 / 2 := by
  have hlow := Int.floor_le value
  have hhigh := Int.lt_floor_add_one value
  unfold roundHalfEven
  split
  · rw [abs_le]
    constructor <;> linarith
  · split
    · push_cast
      rw [abs_le]
      constructor <;> linarith
    · split
      · rw [abs_le]
        constructor <;> linarith
      · push_cast
        rw [abs_le]
        constructor <;> linarith

theorem roundHalfEven_intCast (value : ℤ) : roundHalfEven value = value := by
  rw [roundHalfEven, Int.floor_intCast, sub_self, if_pos (by norm_num)]

/-- Up to one half everything goes to zero. -/
theorem roundHalfEven_eq_zero_iff (value : ℚ) :
    roundHalfEven value = 0 ↔ |value| ≤ 1 / 2 := by
  constructor
  · intro hzero
    have hnear := abs_roundHalfEven_sub_le value
    rwa [hzero, Int.cast_zero, zero_sub, abs_neg] at hnear
  · intro hsmall
    obtain ⟨hlow, hhigh⟩ := abs_le.mp hsmall
    rcases lt_or_ge value 0 with hneg | hnonneg
    · have hfloor : ⌊value⌋ = -1 := by
        rw [Int.floor_eq_iff]
        push_cast
        constructor <;> linarith
      rw [roundHalfEven, hfloor, if_neg (by push_cast; linarith)]
      split
      · rfl
      · rw [if_neg (by decide)]
        rfl
    · have hfloor : ⌊value⌋ = 0 := by
        rw [Int.floor_eq_iff]
        push_cast
        constructor <;> linarith
      rw [roundHalfEven, hfloor]
      split
      · rfl
      · rw [if_neg (by push_cast; linarith), if_pos (by decide)]

/-- A format has `precision` binary digits, no unit below `2 ^ minExponent`, and only
values below `2 ^ maxExponent`. -/
structure Format where
  precision : Nat
  minExponent : Int
  maxExponent : Int
deriving Repr, DecidableEq

/-- The format of a `double`. -/
def double : Format := ⟨53, -1074, 1024⟩

namespace Format

variable (format : Format)

/-- The exponent of the unit in which a value is given. -/
def unitExponent (value : ℚ) : ℤ :=
  max format.minExponent (Int.log 2 |value| - format.precision + 1)

/-- The value in its units, rounded. -/
def nearest (value : ℚ) : ℚ :=
  roundHalfEven (value / 2 ^ format.unitExponent value) *
    2 ^ format.unitExponent value

/-- The rounded value; `none` is an overflow. -/
def round (value : ℚ) : Option ℚ :=
  if |format.nearest value| < 2 ^ format.maxExponent then
    some (format.nearest value)
  else none

/-- The values of a format. -/
def Representable (value : ℚ) : Prop :=
  |value| < 2 ^ format.maxExponent ∧
    ∃ (mantissa exponent : ℤ), |mantissa| < 2 ^ format.precision ∧
      format.minExponent ≤ exponent ∧ value = mantissa * 2 ^ exponent

variable {format} {value rounded : ℚ}

theorem abs_nearest_sub_le (format : Format) (value : ℚ) :
    |format.nearest value - value| ≤ 2 ^ format.unitExponent value / 2 := by
  have hunit : (0 : ℚ) < 2 ^ format.unitExponent value := by positivity
  have hvalue : format.nearest value - value =
      (roundHalfEven (value / 2 ^ format.unitExponent value) -
        value / 2 ^ format.unitExponent value) *
          2 ^ format.unitExponent value := by
    rw [nearest, sub_mul, div_mul_cancel₀ _ hunit.ne']
  rw [hvalue, abs_mul, abs_of_pos hunit]
  calc |roundHalfEven (value / 2 ^ format.unitExponent value) -
          value / 2 ^ format.unitExponent value| *
        2 ^ format.unitExponent value
      ≤ 1 / 2 * 2 ^ format.unitExponent value :=
        mul_le_mul_of_nonneg_right (abs_roundHalfEven_sub_le _) hunit.le
    _ = 2 ^ format.unitExponent value / 2 := by ring

/-- A value of the format is given in a unit that it has. -/
theorem unitExponent_le {mantissa exponent : ℤ} (hvalue : value ≠ 0)
    (hmantissa : |mantissa| < 2 ^ format.precision)
    (hexponent : format.minExponent ≤ exponent)
    (heq : value = mantissa * 2 ^ exponent) :
    format.unitExponent value ≤ exponent := by
  have hpos : 0 < |value| := abs_pos.mpr hvalue
  have hlog : (2 : ℚ) ^ Int.log 2 |value| ≤ |value| :=
    Int.zpow_log_le_self (by decide) hpos
  have hbelow : |value| < 2 ^ (format.precision + exponent : ℤ) := by
    have hcast : (|mantissa| : ℚ) < 2 ^ format.precision := by
      exact_mod_cast hmantissa
    rw [heq, abs_mul, abs_of_pos (show (0 : ℚ) < 2 ^ exponent by positivity),
      zpow_add₀ two_ne_zero, zpow_natCast]
    exact mul_lt_mul_of_pos_right hcast (by positivity)
  have hless : Int.log 2 |value| < format.precision + exponent :=
    (zpow_lt_zpow_iff_right₀ one_lt_two).mp (hlog.trans_lt hbelow)
  exact max_le hexponent (by omega)

/-- The values of the format are their own rounding. -/
theorem round_of_representable (hvalue : format.Representable value) :
    format.round value = some value := by
  obtain ⟨hbound, mantissa, exponent, hmantissa, hexponent, heq⟩ := hvalue
  have hnearest : format.nearest value = value := by
    rcases eq_or_ne value 0 with rfl | hne
    · rw [nearest, zero_div]
      exact mul_eq_zero_of_left (by exact_mod_cast roundHalfEven_intCast 0) _
    · have hle := unitExponent_le hne hmantissa hexponent heq
      obtain ⟨shift, hshift⟩ := Int.eq_ofNat_of_zero_le (Int.sub_nonneg_of_le hle)
      have hunit : (2 : ℚ) ^ format.unitExponent value ≠ 0 := by positivity
      have hwhole : value / 2 ^ format.unitExponent value =
          ((mantissa * 2 ^ shift : ℤ) : ℚ) := by
        rw [div_eq_iff hunit]
        conv_lhs => rw [heq]
        rw [show exponent = shift + format.unitExponent value by omega,
          zpow_add₀ two_ne_zero]
        push_cast
        rw [zpow_natCast, mul_assoc]
      rw [nearest, hwhole, roundHalfEven_intCast, ← hwhole,
        div_mul_cancel₀ _ hunit]
  rw [round, hnearest, if_pos hbound]

/-- The units of a value that is its own rounding are its mantissa. -/
theorem representable_of_round (hround : format.round value = some value) :
    format.Representable value := by
  rw [round, Option.ite_none_right_eq_some, Option.some.injEq] at hround
  obtain ⟨hbound, hnearest⟩ := hround
  rw [hnearest] at hbound
  refine ⟨hbound, roundHalfEven (value / 2 ^ format.unitExponent value),
    format.unitExponent value, ?_, le_max_left _ _, hnearest.symm⟩
  have hunit : (0 : ℚ) < 2 ^ format.unitExponent value := by positivity
  have hlog : |value| < 2 ^ (Int.log 2 |value| + 1) :=
    Int.lt_zpow_succ_log_self (by decide) |value|
  have hexponent : Int.log 2 |value| + 1 ≤
      format.precision + format.unitExponent value := by
    have hle : Int.log 2 |value| - format.precision + 1 ≤
        format.unitExponent value := le_max_right _ _
    omega
  have hless : |value| <
      2 ^ format.precision * 2 ^ format.unitExponent value := by
    rw [← zpow_natCast, ← zpow_add₀ two_ne_zero]
    exact hlog.trans_le (zpow_le_zpow_right₀ one_le_two hexponent)
  have habs : |value| =
      |(roundHalfEven (value / 2 ^ format.unitExponent value) : ℚ)| *
        2 ^ format.unitExponent value := by
    conv_lhs => rw [← hnearest, nearest, abs_mul, abs_of_pos hunit]
  rw [habs] at hless
  have hcast := lt_of_mul_lt_mul_right hless hunit.le
  exact_mod_cast hcast

/-- A value is its own rounding exactly if it is one of the format. -/
theorem round_eq_self_iff :
    format.round value = some value ↔ format.Representable value :=
  ⟨representable_of_round, round_of_representable⟩

instance (format : Format) (value : ℚ) :
    Decidable (format.Representable value) :=
  decidable_of_iff _ round_eq_self_iff

/-- What is rounded to something other than zero is rounded by less than half of
it. -/
theorem abs_round_sub_le (hround : format.round value = some rounded)
    (hne : rounded ≠ 0) : |rounded - value| ≤ |rounded| / 2 := by
  rw [round, Option.ite_none_right_eq_some, Option.some.injEq] at hround
  obtain ⟨-, rfl⟩ := hround
  have hunit : (0 : ℚ) < 2 ^ format.unitExponent value := by positivity
  have hmantissa : roundHalfEven (value / 2 ^ format.unitExponent value) ≠ 0 := by
    intro hzero
    rw [nearest, hzero, Int.cast_zero, zero_mul] at hne
    exact hne rfl
  have hone : (1 : ℚ) ≤
      |(roundHalfEven (value / 2 ^ format.unitExponent value) : ℚ)| := by
    exact_mod_cast Int.one_le_abs hmantissa
  have hleast : (2 : ℚ) ^ format.unitExponent value ≤
      |format.nearest value| := by
    rw [nearest, abs_mul, abs_of_pos hunit]
    exact le_mul_of_one_le_left hunit.le hone
  have hnear := abs_nearest_sub_le format value
  linarith

/-- A value and its rounding are not a power of ten apart. -/
theorem eq_zero_of_round_mul_zpow {exponent : ℤ} (hexponent : exponent ≠ 0)
    (hround : format.round (value * 10 ^ exponent) = some value) :
    value = 0 := by
  by_contra hne
  have hnear := abs_round_sub_le hround hne
  have hpos : 0 < |value| := abs_pos.mpr hne
  have hfactor : |value - value * 10 ^ exponent| =
      |value| * |1 - (10 : ℚ) ^ exponent| := by
    rw [← abs_mul, mul_one_sub]
  have hclose : |1 - (10 : ℚ) ^ exponent| ≤ 1 / 2 := by
    rw [hfactor] at hnear
    refine le_of_mul_le_mul_left (hnear.trans_eq ?_) hpos
    ring
  obtain ⟨hlow, hhigh⟩ := abs_le.mp hclose
  rcases lt_or_gt_of_ne hexponent with hneg | hgt
  · have hsmall : (10 : ℚ) ^ exponent ≤ 10 ^ (-1 : ℤ) :=
      zpow_le_zpow_right₀ (by norm_num) (by omega)
    norm_num at hsmall
    linarith
  · have hlarge : (10 : ℚ) ^ (1 : ℤ) ≤ 10 ^ exponent :=
      zpow_le_zpow_right₀ (by norm_num) (by omega)
    norm_num at hlarge
    linarith

/-- Up to half of the least unit everything goes to zero. -/
theorem round_eq_zero_iff (hprecision : 1 ≤ format.precision) :
    format.round value = some 0 ↔
      |value| ≤ 2 ^ (format.minExponent - 1) := by
  have hunit : (0 : ℚ) < 2 ^ format.unitExponent value := by positivity
  have hnearest : format.nearest value = 0 ↔
      |value| ≤ 2 ^ (format.unitExponent value - 1) := by
    rw [nearest, mul_eq_zero, or_iff_left hunit.ne', Int.cast_eq_zero,
      roundHalfEven_eq_zero_iff, abs_div, abs_of_pos hunit, div_le_iff₀ hunit,
      zpow_sub_one₀ two_ne_zero, mul_comm, ← one_div]
  have hround : format.round value = some 0 ↔ format.nearest value = 0 := by
    rw [round, Option.ite_none_right_eq_some, Option.some.injEq]
    refine ⟨And.right, fun hzero => ⟨?_, hzero⟩⟩
    rw [hzero, abs_zero]
    positivity
  rw [hround, hnearest]
  rcases eq_or_ne value 0 with rfl | hne
  · exact iff_of_true (by rw [abs_zero]; positivity) (by rw [abs_zero]; positivity)
  have hlog : (2 : ℚ) ^ Int.log 2 |value| ≤ |value| :=
    Int.zpow_log_le_self (by decide) (abs_pos.mpr hne)
  constructor
  · intro hsmall
    have hle : Int.log 2 |value| ≤ format.unitExponent value - 1 :=
      (zpow_le_zpow_iff_right₀ one_lt_two).mp (hlog.trans hsmall)
    have hunitExponent : format.unitExponent value = format.minExponent := by
      unfold unitExponent at hle ⊢
      omega
    rwa [hunitExponent] at hsmall
  · intro hsmall
    refine hsmall.trans (zpow_le_zpow_right₀ one_le_two ?_)
    have hle : format.minExponent ≤ format.unitExponent value := le_max_left _ _
    omega

/-- The other sign is rounded to the other sign. -/
theorem representable_neg : format.Representable (-value) ↔
    format.Representable value := by
  have hneg : ∀ {value : ℚ}, format.Representable value →
      format.Representable (-value) := by
    rintro value ⟨hbound, mantissa, exponent, hmantissa, hexponent, heq⟩
    refine ⟨by rwa [abs_neg], -mantissa, exponent, by rwa [abs_neg], hexponent, ?_⟩
    rw [heq, Int.cast_neg, neg_mul]
  exact ⟨fun hvalue => neg_neg value ▸ hneg hvalue, hneg⟩

end Format

end BinaryRounding
