/-
The number that the exam program takes out of a line of text and logs.  Its pattern
skips what is neither a digit nor a hyphen, which has to be something, and then
converts a number once.
-/
import OsCourse.LineInput
import OsCourse.ScanFloat

namespace OsCourse

namespace VruntimeLog

open DecimalText ScanText BinaryRounding

/-- The set `[^0-9-]`. -/
def skipped (char : Char) : Bool :=
  !(char.isDigit || char = '-')

/-- `GetNumberFromText`. -/
def getNumberFromText (lenient : Bool) (text : List Char) : Double :=
  match skipSet skipped text with
  | none => .finite 0
  | some found => (scanFloat lenient found).getD (.finite 0)

/-- `alarm_handler` up to what it logs: the number of the fourth line, if the file has
four lines. -/
def alarmHandler (lenient : Bool) (sched : List Char) : Option Double :=
  (LineInput.pieces 256 sched)[3]?.map fun line =>
    getNumberFromText lenient (LineInput.cString line)

section Numerals

/-- The value of a text that starts with a digit: its digits and its fraction. -/
def numeralValue (text : List Char) : ℚ :=
  (splitFraction Char.isDigit text).value 10

def startsWithDigit : List Char → Bool
  | char :: _ => char.isDigit
  | [] => false

/-- A digit, or a minus sign directly followed by one. -/
def startsNumeral : List Char → Bool
  | '-' :: rest => startsWithDigit rest
  | text => startsWithDigit text

/-- The value of a text that starts with a numeral. -/
def signedValue : List Char → ℚ
  | '-' :: rest => -numeralValue rest
  | text => numeralValue text

/-- The value of the first numeral of a text. -/
def firstNumeral : List Char → Option ℚ
  | [] => none
  | char :: rest =>
      if startsNumeral (char :: rest) then some (signedValue (char :: rest))
      else firstNumeral rest

end Numerals

/-- The first numeral is returned, and zero for a text without a digit. -/
def ReturnsFirstNumeral (lenient : Bool) (text : List Char) : Prop :=
  (∀ value ∈ firstNumeral text,
      getNumberFromText lenient text = .finite value) ∧
    ((∀ char ∈ text, char.isDigit = false) →
      getNumberFromText lenient text = .finite 0)

/-- What `%lf` finds from the first digit or hyphen on is the first numeral without an
exponent, and that is a `double`; or it becomes zero, half of the least `double` or
nearer, as the first numeral is zero. -/
def ItemIsNumeral (found : List Char) : FloatItem → Prop
  | .failure => (firstNumeral found).getD 0 = 0
  | .decimal mantissa exponent =>
      (startsNumeral found = true ∧ exponent = 0 ∧
          double.Representable mantissa) ∨
        (|mantissa * 10 ^ exponent| ≤ 2 ^ (-1075 : ℤ) ∧
          (firstNumeral found).getD 0 = 0)
  | .hexadecimal mantissa exponent =>
      |mantissa * 2 ^ exponent| ≤ 2 ^ (-1075 : ℤ)
  | .infinity | .nan => False

/-- The texts whose first numeral is found: something stands before the first digit or
hyphen, and from there on the numeral is read; or nothing but zero is to be
found. -/
def Found (lenient : Bool) (text : List Char) : Prop :=
  if text.takeWhile skipped = [] then (firstNumeral text).getD 0 = 0
  else ItemIsNumeral (text.dropWhile skipped)
    (floatItem lenient (text.dropWhile skipped)).2

section Positions

theorem startsNumeral_of_ne {char : Char} {rest : List Char}
    (hchar : char ≠ '-') : startsNumeral (char :: rest) = char.isDigit := by
  unfold startsNumeral
  split
  · rename_i heq
    exact absurd (List.cons.inj heq).1 hchar
  · rfl

theorem firstNumeral_eq_none_iff (text : List Char) :
    firstNumeral text = none ↔ ∀ char ∈ text, char.isDigit = false := by
  induction text with
  | nil => simp [firstNumeral]
  | cons char rest ih =>
      rw [firstNumeral, List.forall_mem_cons]
      by_cases hsign : char = '-'
      · subst char
        cases hstart : startsWithDigit rest with
        | true =>
            refine iff_of_false (by simp [startsNumeral, hstart]) ?_
            rintro ⟨-, hrest⟩
            cases rest with
            | nil => cases hstart
            | cons next rest =>
                have hnext := hrest next List.mem_cons_self
                rw [startsWithDigit, hnext] at hstart
                cases hstart
        | false => simpa [startsNumeral, hstart] using ih
      · rw [startsNumeral_of_ne hsign]
        cases hdigit : char.isDigit with
        | true => simp
        | false => simpa using ih

/-- The characters of the set are before every numeral. -/
theorem firstNumeral_dropWhile (text : List Char) :
    firstNumeral (text.dropWhile skipped) = firstNumeral text := by
  induction text with
  | nil => rfl
  | cons char rest ih =>
      rw [List.dropWhile_cons]
      split
      · rename_i hskipped
        simp only [skipped, Bool.not_eq_true', Bool.or_eq_false_iff,
          decide_eq_false_iff_not] at hskipped
        rw [ih, firstNumeral, startsNumeral_of_ne hskipped.2, hskipped.1]
        simp
      · rfl

/-- Where the set ends there is a digit or a hyphen. -/
theorem head_dropWhile_skipped {text rest : List Char} {char : Char}
    (hfound : text.dropWhile skipped = char :: rest) :
    char.isDigit = true ∨ char = '-' := by
  have hhead := List.head?_dropWhile_not skipped text
  rw [hfound] at hhead
  cases hdigit : char.isDigit with
  | true => exact .inl rfl
  | false =>
      right
      simpa [skipped, hdigit] using hhead

end Positions

theorem returnsFirstNumeral_iff (lenient : Bool) (text : List Char) :
    ReturnsFirstNumeral lenient text ↔
      getNumberFromText lenient text =
        .finite ((firstNumeral text).getD 0) := by
  rw [ReturnsFirstNumeral, ← firstNumeral_eq_none_iff]
  cases hfirst : firstNumeral text with
  | none => simp
  | some value => simp

section Items

variable {lenient : Bool} {text rest : List Char}

theorem scanDecimal_cases (lenient : Bool) (text : List Char) :
    scanDecimal lenient text = .failure ∨
      ∃ exponent, scanDecimal lenient text =
        .decimal (numeralValue text) exponent := by
  rw [scanDecimal]
  split
  · exact .inl rfl
  · split
    · exact .inr ⟨_, rfl⟩
    · exact .inl rfl

theorem scanHexadecimal_cases (lenient : Bool) (text : List Char) :
    scanHexadecimal lenient text = .failure ∨
      ∃ mantissa exponent, scanHexadecimal lenient text =
        .hexadecimal mantissa exponent := by
  rw [scanHexadecimal]
  split
  · exact .inl rfl
  · split
    · exact .inr ⟨_, _, rfl⟩
    · exact .inl rfl

theorem scanSpecial_cases (lenient : Bool) (text : List Char) :
    scanSpecial lenient text = .failure ∨
      scanSpecial lenient text = .infinity ∨
      scanSpecial lenient text = .nan := by
  unfold scanSpecial
  dsimp only
  split
  · exact .inr (.inl rfl)
  · split
    · split
      · exact .inl rfl
      · exact .inr (.inl rfl)
    · split
      · split
        · split
          · exact .inr (.inr rfl)
          · exact .inl rfl
        · exact .inr (.inr rfl)
      · exact .inl rfl

theorem numeralValue_zero {marker : Char} (hmarker : marker.isDigit = false)
    (hpoint : marker ≠ '.') :
    numeralValue ('0' :: marker :: rest) = 0 := by
  have hdrop : ('0' :: marker :: rest).dropWhile Char.isDigit =
      marker :: rest := by
    rw [List.dropWhile_cons_of_pos (by decide),
      List.dropWhile_cons_of_neg (by simp [hmarker])]
  have htake : ('0' :: marker :: rest).takeWhile Char.isDigit = ['0'] := by
    rw [List.takeWhile_cons_of_pos (by decide),
      List.takeWhile_cons_of_neg (by simp [hmarker])]
  rw [numeralValue, splitFraction, hdrop, htake]
  split
  · rename_i heq
    exact absurd (List.cons.inj heq).1 hpoint
  · simp [Fraction.value, ofDigits, digitValue]

theorem numeralValue_nonneg (text : List Char) : 0 ≤ numeralValue text := by
  unfold numeralValue Fraction.value
  positivity

/-- A numeral is read as a decimal number, or its zero as the start of a hexadecimal
one. -/
theorem scanUnsigned_of_digit (hdigit : startsWithDigit text = true) :
    scanUnsigned lenient text = .failure ∨
      (∃ exponent, scanUnsigned lenient text =
        .decimal (numeralValue text) exponent) ∨
      (∃ mantissa exponent, scanUnsigned lenient text =
        .hexadecimal mantissa exponent) ∧ numeralValue text = 0 := by
  unfold scanUnsigned
  split
  · rename_i hex
    rcases scanHexadecimal_cases lenient hex with hfail | hnumber
    · exact .inl hfail
    · exact .inr (.inr ⟨hnumber, numeralValue_zero (by decide) (by decide)⟩)
  · rename_i hex
    rcases scanHexadecimal_cases lenient hex with hfail | hnumber
    · exact .inl hfail
    · exact .inr (.inr ⟨hnumber, numeralValue_zero (by decide) (by decide)⟩)
  · rename_i char tail _ _
    rw [startsWithDigit] at hdigit
    rw [if_pos (.inl hdigit)]
    rcases scanDecimal_cases lenient (char :: tail) with hfail | hnumber
    · exact .inl hfail
    · exact .inr (.inl hnumber)
  · cases hdigit

theorem firstNumeral_of_digit (hdigit : startsWithDigit text = true) :
    firstNumeral text = some (numeralValue text) := by
  cases text with
  | nil => cases hdigit
  | cons char rest =>
      have hsign : char ≠ '-' := by
        rintro rfl
        cases hdigit
      have hhead : char.isDigit = true := hdigit
      rw [firstNumeral, startsNumeral_of_ne hsign, if_pos hhead, signedValue]
      intro tail heq
      exact hsign (List.cons.inj heq).1

theorem takeWhile_of_not_digit (hdigit : startsWithDigit text = false) :
    text.takeWhile Char.isDigit = [] := by
  cases text with
  | nil => rfl
  | cons char rest =>
      rw [startsWithDigit] at hdigit
      exact List.takeWhile_cons_of_neg (by simp [hdigit])

/-- A point is a number only with a digit behind it. -/
theorem scanDecimal_point (htail : startsWithDigit rest = false) :
    scanDecimal lenient ('.' :: rest) = .failure := by
  have hpoint : ('.' :: rest).dropWhile Char.isDigit = '.' :: rest :=
    List.dropWhile_cons_of_neg (by decide)
  have hwhole : ('.' :: rest).takeWhile Char.isDigit = [] :=
    takeWhile_of_not_digit (by rfl)
  simp only [scanDecimal, splitFraction, hpoint, hwhole,
    takeWhile_of_not_digit htail, and_self, if_true]

/-- Without a digit at the start only a fraction can be read as a number. -/
theorem scanUnsigned_of_not_digit (hdigit : startsWithDigit text = false) :
    scanUnsigned lenient text = .failure ∨
      scanUnsigned lenient text = .infinity ∨
      scanUnsigned lenient text = .nan ∨
      ∃ exponent, scanUnsigned lenient text =
          .decimal (numeralValue text) exponent ∧
        0 ≤ (firstNumeral text).getD 0 := by
  unfold scanUnsigned
  split
  · cases hdigit
  · cases hdigit
  · rename_i char tail _ _
    rw [startsWithDigit] at hdigit
    split
    · rename_i hpoint
      obtain rfl := hpoint.resolve_left (by simp [hdigit])
      cases htail : startsWithDigit tail with
      | false => exact .inl (scanDecimal_point htail)
      | true =>
          rcases scanDecimal_cases lenient ('.' :: tail) with
            hfail | ⟨exponent, hnumber⟩
          · exact .inl hfail
          · refine .inr (.inr (.inr ⟨exponent, hnumber, ?_⟩))
            rw [firstNumeral, startsNumeral_of_ne (by decide),
              if_neg (by decide), firstNumeral_of_digit htail]
            exact numeralValue_nonneg tail
    · rcases scanSpecial_cases lenient (char :: tail) with
        hfail | hspecial
      · exact .inl hfail
      · rcases hspecial with hinfinity | hnan
        · exact .inr (.inl hinfinity)
        · exact .inr (.inr (.inl hnan))
  · exact .inl rfl

/-- An exponent other than zero changes every number but zero, rounded or not. -/
theorem nearest_mul_zpow_iff {negative : Bool} {sign mantissa : ℚ}
    {exponent : Int} (hsign : sign = if negative then -1 else 1) :
    Double.nearest negative (mantissa * 10 ^ exponent) =
        .finite (sign * mantissa) ↔
      (exponent = 0 ∧ double.Representable mantissa) ∨ mantissa = 0 := by
  have hne : sign ≠ 0 := by
    rw [hsign]
    split <;> norm_num
  rcases eq_or_ne mantissa 0 with rfl | hmantissa
  · refine iff_of_true ?_ (.inr rfl)
    rw [zero_mul, mul_zero, Double.nearest_eq_zero_iff, abs_zero]
    positivity
  rw [or_iff_left hmantissa]
  rcases eq_or_ne exponent 0 with rfl | hexponent
  · rw [zpow_zero, mul_one, hsign, Double.nearest_eq_iff_representable]
    exact (and_iff_right rfl).symm
  · refine iff_of_false (fun hnearest => ?_) fun hboth => hexponent hboth.1
    rw [Double.nearest_eq_finite_iff, ← hsign, ← mul_assoc] at hnearest
    exact mul_ne_zero hne hmantissa
      (Format.eq_zero_of_round_mul_zpow hexponent hnearest)

end Items

/-- The number behind a sign is the first numeral exactly in the cases of
`ItemIsNumeral`. -/
theorem toDouble_digit_iff {lenient negative : Bool} {found body : List Char}
    {sign : ℚ} (hsign : sign = if negative then -1 else 1)
    (hdigit : startsWithDigit body = true)
    (hnumeral : startsNumeral found = true)
    (hvalue : firstNumeral found = some (sign * numeralValue body)) :
    ((scanUnsigned lenient body).toDouble negative).getD (.finite 0) =
        .finite ((firstNumeral found).getD 0) ↔
      ItemIsNumeral found (scanUnsigned lenient body) := by
  have hne : sign ≠ 0 := by
    rw [hsign]
    split <;> norm_num
  rcases scanUnsigned_of_digit hdigit with
    hfail | ⟨exponent, hnumber⟩ | ⟨⟨mantissa, exponent, hnumber⟩, hzero⟩
  · rw [hfail]
    exact ⟨fun heq => (Double.finite.inj heq).symm,
      fun hzero => congrArg Double.finite hzero.symm⟩
  · rw [hnumber, FloatItem.toDouble, Option.getD_some, hvalue,
      Option.getD_some, nearest_mul_zpow_iff hsign, ItemIsNumeral, hvalue,
      Option.getD_some, mul_eq_zero, or_iff_right hne, and_iff_right hnumeral]
    refine or_congr_right ⟨fun hzero => ⟨?_, hzero⟩, And.right⟩
    rw [hzero, zero_mul, abs_zero]
    positivity
  · rw [hnumber, FloatItem.toDouble, Option.getD_some, hvalue,
      Option.getD_some, hzero, mul_zero, Double.nearest_eq_zero_iff]
    rfl

/-- Behind a hyphen without a digit `%lf` finds a number other than the first numeral,
unless both are zero. -/
theorem toDouble_hyphen_iff {lenient : Bool} {body : List Char}
    (hdigit : startsWithDigit body = false) :
    ((scanUnsigned lenient body).toDouble true).getD (.finite 0) =
        .finite ((firstNumeral ('-' :: body)).getD 0) ↔
      ItemIsNumeral ('-' :: body) (scanUnsigned lenient body) := by
  have hnumeral : startsNumeral ('-' :: body) = false := hdigit
  have hfirst : firstNumeral ('-' :: body) = firstNumeral body := by
    rw [firstNumeral, hnumeral]
    rfl
  rcases scanUnsigned_of_not_digit hdigit with
    hfail | hinfinity | hnan | ⟨exponent, hnumber, hnonneg⟩
  · rw [hfail]
    exact ⟨fun heq => (Double.finite.inj heq).symm,
      fun hzero => congrArg Double.finite hzero.symm⟩
  · rw [hinfinity]
    exact iff_of_false Double.noConfusion id
  · rw [hnan]
    exact iff_of_false Double.noConfusion id
  · rw [hnumber, FloatItem.toDouble, Option.getD_some, ItemIsNumeral, hnumeral,
      hfirst]
    simp only [Bool.false_eq_true, false_and, false_or]
    constructor
    · intro heq
      have hzero : (firstNumeral body).getD 0 = 0 := by
        -- the number is not above zero and the first numeral is not below
        by_contra hne
        rw [Double.nearest_eq_finite_iff, if_pos rfl, neg_one_mul] at heq
        have hnear := Format.abs_round_sub_le heq hne
        have hproduct : 0 ≤ numeralValue body * 10 ^ exponent :=
          mul_nonneg (numeralValue_nonneg body) (by positivity)
        have hpos := lt_of_le_of_ne hnonneg (Ne.symm hne)
        rw [abs_of_pos hpos] at hnear
        have hle := (abs_le.mp hnear).2
        linarith
      rw [hzero, Double.nearest_eq_zero_iff] at heq
      exact ⟨heq, hzero⟩
    · rintro ⟨hsmall, hzero⟩
      rw [hzero, Double.nearest_eq_zero_iff]
      exact hsmall

theorem getNumberFromText_eq_iff_found (lenient : Bool) (text : List Char) :
    getNumberFromText lenient text = .finite ((firstNumeral text).getD 0) ↔
      Found lenient text := by
  rw [getNumberFromText, skipSet, Found]
  by_cases hnothing : text.takeWhile skipped = []
  · rw [if_pos hnothing, if_pos hnothing]
    exact ⟨fun heq => (Double.finite.inj heq).symm,
      fun hzero => congrArg Double.finite hzero.symm⟩
  · rw [if_neg hnothing, if_neg hnothing, ← firstNumeral_dropWhile text]
    dsimp only
    cases hfound : text.dropWhile skipped with
    | nil => exact iff_of_true rfl rfl
    | cons char rest =>
        rw [scanFloat]
        rcases head_dropWhile_skipped hfound with hdigit | rfl
        · have hsign : char ≠ '-' := by
            rintro rfl
            cases hdigit
          rw [floatItem_digit lenient hdigit]
          refine toDouble_digit_iff rfl hdigit
            ((startsNumeral_of_ne hsign).trans hdigit) ?_
          have hbody : startsWithDigit (char :: rest) = true := hdigit
          rw [firstNumeral_of_digit hbody]
          simp
        · rw [floatItem_hyphen]
          cases hdigit : startsWithDigit rest with
          | true =>
              refine toDouble_digit_iff rfl hdigit hdigit ?_
              have hnumeral : startsNumeral ('-' :: rest) = true := hdigit
              rw [firstNumeral, if_pos hnumeral, signedValue]
              simp
          | false => exact toDouble_hyphen_iff hdigit

/-- `GetNumberFromText` returns the first numeral exactly for the texts in which it is
found. -/
theorem returnsFirstNumeral_iff_found (lenient : Bool) (text : List Char) :
    ReturnsFirstNumeral lenient text ↔ Found lenient text := by
  rw [returnsFirstNumeral_iff, getNumberFromText_eq_iff_found]

/-- A text that is a number. -/
theorem not_returnsFirstNumeral_start :
    ¬ ∀ (lenient : Bool) (text : List Char),
      ReturnsFirstNumeral lenient text := by
  intro hall
  have hfound := (returnsFirstNumeral_iff true ['7']).mp (hall true ['7'])
  exact absurd hfound (by decide +kernel)

/-- The handler logs the first numeral of the fourth line where the line is one of those
texts. -/
theorem alarmHandler_of_found {lenient : Bool} {lines : List (List Char)}
    {line : List Char} (hlines : ∀ line ∈ lines, '\n' ∉ line)
    (hfits : ∀ line ∈ lines, line.length < 255) (hline : lines[3]? = some line)
    (hfound : Found lenient (LineInput.cString (line ++ ['\n']))) :
    alarmHandler lenient (lines.flatMap fun line => line ++ ['\n']) =
      some (.finite ((firstNumeral
        (LineInput.cString (line ++ ['\n']))).getD 0)) := by
  rw [alarmHandler, LineInput.pieces_flatMap_of_lt (by decide) hlines hfits,
    List.getElem?_map, hline]
  exact congrArg some
    ((getNumberFromText_eq_iff_found lenient _).mpr hfound)

end VruntimeLog

end OsCourse
