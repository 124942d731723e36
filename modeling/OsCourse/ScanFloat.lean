/-
What `%lf` converts, rounded to a `double`; a number beyond its range becomes an
infinity.  An exponent without digits is where libraries differ: by the standard
nothing is converted, and a lenient library keeps the number before it.
-/
import OsCourse.BinaryRounding
import OsCourse.ScanText

namespace ScanText

open DecimalText BinaryRounding

section Digits

/-- `isxdigit`. -/
def isHexDigit (char : Char) : Bool :=
  char.isDigit || ('a' ≤ char && char ≤ 'f') || ('A' ≤ char && char ≤ 'F')

/-- The value of a digit, in either case. -/
def digitValue (char : Char) : Nat :=
  if char.isDigit then char.toNat - '0'.toNat
  else char.toLower.toNat - 'a'.toNat + 10

def ofDigits (base : Nat) (digits : List Char) : Nat :=
  digits.foldl (fun value digit => base * value + digitValue digit) 0

/-- The digits before and behind a point, and the rest of a text. -/
structure Fraction where
  whole : List Char
  frac : List Char
  rest : List Char
deriving Repr, DecidableEq

def splitFraction (isDigit : Char → Bool) (text : List Char) : Fraction :=
  match text.dropWhile isDigit with
  | '.' :: rest => ⟨text.takeWhile isDigit, rest.takeWhile isDigit,
      rest.dropWhile isDigit⟩
  | rest => ⟨text.takeWhile isDigit, [], rest⟩

def Fraction.value (fraction : Fraction) (base : Nat) : ℚ :=
  ofDigits base (fraction.whole ++ fraction.frac) /
    (base : ℚ) ^ fraction.frac.length

end Digits

section Floats

/-- A `double` that is read. -/
inductive Double where
  | finite (value : ℚ)
  | infinity (negative : Bool)
  | nan
deriving Repr, DecidableEq

/-- What stands behind the sign. -/
inductive FloatItem where
  | failure
  | decimal (mantissa : ℚ) (exponent : Int)
  | hexadecimal (mantissa : ℚ) (exponent : Int)
  | infinity
  | nan
deriving Repr, DecidableEq

/-- The exponent behind a mantissa, which may be missing. -/
def scanExponent (lenient : Bool) (marker : Char) : List Char → Option Int
  | [] => some 0
  | char :: rest =>
      if char.toLower = marker then
        let (sign, digits) : Int × List Char :=
          match rest with
          | '-' :: rest => (-1, rest.takeWhile Char.isDigit)
          | '+' :: rest => (1, rest.takeWhile Char.isDigit)
          | rest => (1, rest.takeWhile Char.isDigit)
        if digits = [] then if lenient then some 0 else none
        else some (sign * ofDigits 10 digits)
      else some 0

def scanDecimal (lenient : Bool) (text : List Char) : FloatItem :=
  let fraction := splitFraction Char.isDigit text
  if fraction.whole = [] ∧ fraction.frac = [] then .failure
  else match scanExponent lenient 'e' fraction.rest with
    | some exponent => .decimal (fraction.value 10) exponent
    | none => .failure

def scanHexadecimal (lenient : Bool) (text : List Char) : FloatItem :=
  let fraction := splitFraction isHexDigit text
  if fraction.whole = [] ∧ fraction.frac = [] then .failure
  else match scanExponent lenient 'p' fraction.rest with
    | some exponent => .hexadecimal (fraction.value 16) exponent
    | none => .failure

/-- `inf`, `infinity` and `nan` in any case; a begun `infinity` is a failure, and so is
by the standard a begun sequence in brackets behind `nan`. -/
def scanSpecial (lenient : Bool) (text : List Char) : FloatItem :=
  let lower := text.map Char.toLower
  if ['i', 'n', 'f', 'i', 'n', 'i', 't', 'y'].isPrefixOf lower then .infinity
  else if ['i', 'n', 'f'].isPrefixOf lower then
    if lower[3]? = some 'i' then .failure else .infinity
  else if ['n', 'a', 'n'].isPrefixOf lower then
    match text.drop 3 with
    | '(' :: rest =>
        if lenient ∨ (rest.dropWhile fun char =>
            char.isAlphanum || char = '_').head? = some ')' then .nan
        else .failure
    | _ => .nan
  else .failure

def scanUnsigned (lenient : Bool) (text : List Char) : FloatItem :=
  match text with
  | '0' :: 'x' :: rest => scanHexadecimal lenient rest
  | '0' :: 'X' :: rest => scanHexadecimal lenient rest
  | char :: _ =>
      if char.isDigit ∨ char = '.' then scanDecimal lenient text
      else scanSpecial lenient text
  | [] => .failure

/-- White space, an optional sign and the number behind it. -/
def floatItem (lenient : Bool) (text : List Char) : Bool × FloatItem :=
  match text.dropWhile isSpace with
  | '-' :: rest => (true, scanUnsigned lenient rest)
  | '+' :: rest => (false, scanUnsigned lenient rest)
  | rest => (false, scanUnsigned lenient rest)

/-- The `double` next to a signed number; beyond the range it is an infinity. -/
def Double.nearest (negative : Bool) (magnitude : ℚ) : Double :=
  (double.round ((if negative then -1 else 1) * magnitude)).elim
    (.infinity negative) .finite

def FloatItem.toDouble (negative : Bool) : FloatItem → Option Double
  | .failure => none
  | .decimal mantissa exponent =>
      some (.nearest negative (mantissa * 10 ^ exponent))
  | .hexadecimal mantissa exponent =>
      some (.nearest negative (mantissa * 2 ^ exponent))
  | .infinity => some (.infinity negative)
  | .nan => some .nan

/-- `%lf`. -/
def scanFloat (lenient : Bool) (text : List Char) : Option Double :=
  (floatItem lenient text).2.toDouble (floatItem lenient text).1

/-- `%*[...]`: at least one character of the set has to be there. -/
def skipSet (inSet : Char → Bool) (text : List Char) : Option (List Char) :=
  if text.takeWhile inSet = [] then none else some (text.dropWhile inSet)

theorem Double.nearest_eq_finite_iff {negative : Bool} {magnitude value : ℚ} :
    Double.nearest negative magnitude = .finite value ↔
      double.round ((if negative then -1 else 1) * magnitude) = some value := by
  rw [Double.nearest]
  cases double.round ((if negative then -1 else 1) * magnitude) with
  | some rounded =>
      rw [Option.elim_some, Double.finite.injEq, Option.some.injEq]
  | none => exact iff_of_false Double.noConfusion (Option.some_ne_none value).symm

theorem representable_sign_mul_iff {negative : Bool} {magnitude : ℚ} :
    double.Representable ((if negative then -1 else 1) * magnitude) ↔
      double.Representable magnitude := by
  cases negative with
  | true => rw [if_pos rfl, neg_one_mul, Format.representable_neg]
  | false => rw [if_neg Bool.false_ne_true, one_mul]

/-- A number that is a `double` is converted as it is. -/
theorem Double.nearest_eq_iff_representable {negative : Bool} {magnitude : ℚ} :
    Double.nearest negative magnitude =
        .finite ((if negative then -1 else 1) * magnitude) ↔
      double.Representable magnitude := by
  rw [Double.nearest_eq_finite_iff, Format.round_eq_self_iff,
    representable_sign_mul_iff]

/-- A number that is too small for the least `double` becomes zero. -/
theorem Double.nearest_eq_zero_iff {negative : Bool} {magnitude : ℚ} :
    Double.nearest negative magnitude = .finite 0 ↔
      |magnitude| ≤ 2 ^ (-1075 : ℤ) := by
  have hsign : |(if negative then -1 else 1) * magnitude| = |magnitude| := by
    cases negative with
    | true => rw [if_pos rfl, neg_one_mul, abs_neg]
    | false => rw [if_neg Bool.false_ne_true, one_mul]
  have hzero : double.round ((if negative then -1 else 1) * magnitude) = some 0 ↔
      |(if negative then -1 else 1) * magnitude| ≤ 2 ^ (double.minExponent - 1) :=
    Format.round_eq_zero_iff (by decide)
  rw [hsign] at hzero
  exact Double.nearest_eq_finite_iff.trans hzero

theorem floatItem_digit (lenient : Bool) {char : Char} {rest : List Char}
    (hdigit : char.isDigit = true) :
    floatItem lenient (char :: rest) =
      (false, scanUnsigned lenient (char :: rest)) := by
  have hne : char ≠ '-' ∧ char ≠ '+' := by
    constructor
    · rintro rfl
      cases hdigit
    · rintro rfl
      cases hdigit
  rw [floatItem, List.dropWhile_cons_of_neg (by
    rw [isSpace_of_isDigit hdigit]
    decide)]
  split
  · rename_i heq
    exact absurd (List.cons.inj heq).1 hne.1
  · rename_i heq
    exact absurd (List.cons.inj heq).1 hne.2
  · rfl

theorem floatItem_hyphen (lenient : Bool) (rest : List Char) :
    floatItem lenient ('-' :: rest) = (true, scanUnsigned lenient rest) := by
  have hdrop : ('-' :: rest).dropWhile isSpace = '-' :: rest :=
    List.dropWhile_cons_of_neg (by decide)
  simp only [floatItem, hdrop]

end Floats

end ScanText
