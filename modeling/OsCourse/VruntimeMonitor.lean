/-
The number that the resource monitor takes out of the fourth line of a sched file.  It
looks behind the colon, where the exam program looks behind what is neither a digit
nor a hyphen; on lines with a plain name both read the same number.
-/
import OsCourse.VruntimeLog

namespace OsCourse

namespace VruntimeLog

open DecimalText ScanText

section Program

/-- `strchr(line, ':')`, without the colon. -/
def behindColon (line : List Char) : Option (List Char) :=
  match line.dropWhile (· ≠ ':') with
  | _ :: rest => some rest
  | [] => none

/-- `read_vruntime`; `none` for the file is one that cannot be opened, and for the number
it is one that is shown as unreadable. -/
def readVruntime (lenient : Bool) (sched : Option (List Char)) :
    Option Double := do
  let line ← (LineInput.pieces 256 (← sched))[3]?
  let rest ← behindColon (LineInput.cString line)
  scanFloat lenient rest

end Program

/-- A character of a name: no digit, hyphen, colon or end of a text. -/
def isPlain (char : Char) : Bool :=
  skipped char && !([':', '\n', Char.ofNat 0].contains char)

/-- A line of a sched file: a name, a colon, blanks and a number with a point. -/
structure SchedLine where
  key : List Char
  blanks : Nat
  negative : Bool
  whole : List Char
  frac : List Char
  key_all : key.all isPlain = true
  whole_ne : whole ≠ []
  whole_all : whole.all Char.isDigit = true
  frac_all : frac.all Char.isDigit = true

namespace SchedLine

def digits (line : SchedLine) : List Char :=
  line.whole ++ '.' :: line.frac

def number (line : SchedLine) : List Char :=
  if line.negative then '-' :: line.digits else line.digits

/-- What stands behind the colon. -/
def field (line : SchedLine) : List Char :=
  List.replicate line.blanks ' ' ++ line.number

def text (line : SchedLine) : List Char :=
  line.key ++ ':' :: line.field

/-- The number without its sign. -/
def magnitude (line : SchedLine) : ℚ :=
  ofDigits 10 (line.whole ++ line.frac) / 10 ^ line.frac.length

end SchedLine

section Characters

variable {char : Char} (line : SchedLine)

theorem SchedLine.skipped_of_mem_key (hchar : char ∈ line.key) :
    skipped char = true := by
  have hplain := List.all_eq_true.mp line.key_all char hchar
  rw [isPlain, Bool.and_eq_true] at hplain
  exact hplain.1

theorem SchedLine.notMem_key (hchar : isPlain char = false) :
    char ∉ line.key := fun hmem => by
  rw [List.all_eq_true.mp line.key_all char hmem] at hchar
  cases hchar

theorem SchedLine.whole_digits : ∀ char ∈ line.whole, char.isDigit = true :=
  List.all_eq_true.mp line.whole_all

theorem SchedLine.frac_digits : ∀ char ∈ line.frac, char.isDigit = true :=
  List.all_eq_true.mp line.frac_all

end Characters

section Reading

variable {lenient : Bool} {line : SchedLine}

theorem takeWhile_digits {digits rest : List Char}
    (hdigits : ∀ char ∈ digits, char.isDigit = true) {next : Char}
    (hnext : next.isDigit = false) :
    (digits ++ next :: rest).takeWhile Char.isDigit = digits ∧
      (digits ++ next :: rest).dropWhile Char.isDigit = next :: rest := by
  rw [List.takeWhile_append_of_pos hdigits, List.dropWhile_append_of_pos hdigits,
    List.takeWhile_cons_of_neg (by simp [hnext]),
    List.dropWhile_cons_of_neg (by simp [hnext]), List.append_nil]
  exact ⟨rfl, rfl⟩

/-- The digits with their point, up to the end of the line. -/
theorem splitFraction_digits (line : SchedLine) :
    splitFraction Char.isDigit (line.digits ++ ['\n']) =
      ⟨line.whole, line.frac, ['\n']⟩ := by
  obtain ⟨hwhole, hpoint⟩ := @takeWhile_digits line.whole
    (line.frac ++ ['\n']) line.whole_digits '.' (by decide)
  obtain ⟨hfrac, hend⟩ := @takeWhile_digits line.frac [] line.frac_digits '\n'
    (by decide)
  rw [SchedLine.digits, List.append_assoc, List.cons_append, splitFraction,
    hpoint]
  simp only [hwhole, hfrac, hend]

theorem mem_digits {char : Char} (hchar : char ∈ line.digits ++ ['\n']) :
    char.isDigit = true ∨ char ∈ ['.', '\n'] := by
  simp only [SchedLine.digits, List.mem_append, List.mem_cons,
    List.not_mem_nil, or_false] at hchar ⊢
  rcases hchar with (hwhole | hpoint | hfrac) | hend
  · exact .inl (line.whole_digits char hwhole)
  · exact .inr (.inl hpoint)
  · exact .inl (line.frac_digits char hfrac)
  · exact .inr (.inr hend)

theorem startsWithDigit_digits (line : SchedLine) :
    startsWithDigit (line.digits ++ ['\n']) = true := by
  obtain ⟨char, rest, hwhole⟩ := List.exists_cons_of_ne_nil line.whole_ne
  have hdigit := line.whole_digits char (by rw [hwhole]; exact List.mem_cons_self)
  rw [SchedLine.digits, hwhole]
  exact hdigit

theorem scanUnsigned_digits (lenient : Bool) (line : SchedLine) :
    scanUnsigned lenient (line.digits ++ ['\n']) =
      .decimal line.magnitude 0 := by
  have hdecimal : scanDecimal lenient (line.digits ++ ['\n']) =
      .decimal line.magnitude 0 := by
    rw [scanDecimal, splitFraction_digits]
    simp only [line.whole_ne, false_and, if_false]
    rfl
  have hletter : ∀ letter ∈ ['x', 'X'], letter ∉ line.digits ++ ['\n'] := by
    intro letter hletter hmem
    rcases List.mem_pair.mp hletter with rfl | rfl <;>
      exact absurd (mem_digits hmem) (by decide)
  have hdigit := startsWithDigit_digits line
  rw [← hdecimal]
  generalize line.digits ++ ['\n'] = text at hletter hdigit
  unfold scanUnsigned
  split
  · exact absurd (by simp) (hletter 'x' (by decide))
  · exact absurd (by simp) (hletter 'X' (by decide))
  · exact if_pos (.inl hdigit)
  · cases hdigit

/-- `%lf` passes over blanks. -/
theorem scanFloat_blanks (lenient : Bool) (blanks : Nat) (text : List Char) :
    scanFloat lenient (List.replicate blanks ' ' ++ text) =
      scanFloat lenient text := by
  have hspaces : ∀ char ∈ List.replicate blanks ' ', isSpace char = true := by
    intro char hchar
    rw [List.eq_of_mem_replicate hchar]
    decide
  rw [scanFloat, scanFloat, floatItem, floatItem,
    List.dropWhile_append_of_pos hspaces]

theorem scanFloat_number (lenient : Bool) (line : SchedLine) :
    scanFloat lenient (line.number ++ ['\n']) =
      some (.nearest line.negative line.magnitude) := by
  have hitem : floatItem lenient (line.number ++ ['\n']) =
      (line.negative, scanUnsigned lenient (line.digits ++ ['\n'])) := by
    rw [SchedLine.number]
    cases line.negative with
    | true => exact floatItem_hyphen lenient _
    | false =>
        have hdigit := startsWithDigit_digits line
        cases hdigits : line.digits ++ ['\n'] with
        | nil => exact absurd hdigits (by simp)
        | cons char rest =>
            rw [hdigits] at hdigit
            have hhead : char.isDigit = true := hdigit
            rw [if_neg Bool.false_ne_true, hdigits]
            exact floatItem_digit lenient hhead
  rw [scanFloat, hitem, scanUnsigned_digits, FloatItem.toDouble, zpow_zero,
    mul_one]

/-- The monitor looks behind the colon. -/
theorem behindColon_text (line : SchedLine) :
    behindColon (line.text ++ ['\n']) = some (line.field ++ ['\n']) := by
  have hkey : ∀ char ∈ line.key, decide (char ≠ ':') = true := by
    intro char hchar
    rw [decide_eq_true_eq]
    rintro rfl
    exact line.notMem_key (by decide) hchar
  rw [behindColon, SchedLine.text, List.append_assoc, List.cons_append,
    List.dropWhile_append_of_pos hkey,
    List.dropWhile_cons_of_neg (by decide)]

/-- The exam program looks behind what is neither a digit nor a hyphen. -/
theorem skipSet_text (line : SchedLine) :
    skipSet skipped (line.text ++ ['\n']) = some (line.number ++ ['\n']) := by
  have hblanks : ∀ char ∈ List.replicate line.blanks ' ',
      skipped char = true := by
    intro char hchar
    rw [List.eq_of_mem_replicate hchar]
    decide
  have hbefore : ∀ char ∈ line.key ++ ':' :: List.replicate line.blanks ' ',
      skipped char = true := by
    intro char hchar
    rw [List.mem_append, List.mem_cons] at hchar
    rcases hchar with hkey | rfl | hblank
    · exact line.skipped_of_mem_key hkey
    · decide
    · exact hblanks char hblank
  have htext : line.text ++ ['\n'] =
      (line.key ++ ':' :: List.replicate line.blanks ' ') ++
        (line.number ++ ['\n']) := by
    simp [SchedLine.text, SchedLine.field]
  have hstart : ∃ char rest, line.number ++ ['\n'] = char :: rest ∧
      skipped char = false := by
    rw [SchedLine.number]
    cases line.negative with
    | true => exact ⟨'-', _, rfl, by decide⟩
    | false =>
        obtain ⟨char, rest, hwhole⟩ := List.exists_cons_of_ne_nil line.whole_ne
        have hdigit := line.whole_digits char
          (by rw [hwhole]; exact List.mem_cons_self)
        refine ⟨char, rest ++ '.' :: line.frac ++ ['\n'], ?_, ?_⟩
        · simp [SchedLine.digits, hwhole]
        · simp [skipped, hdigit]
  obtain ⟨char, rest, hnumber, hchar⟩ := hstart
  rw [skipSet, htext, hnumber, if_neg, List.dropWhile_append_of_pos hbefore,
    List.dropWhile_cons_of_neg (by simp [hchar])]
  rw [List.takeWhile_append_of_pos hbefore]
  simp

theorem nul_notMem_text (line : SchedLine) :
    Char.ofNat 0 ∉ line.text ++ ['\n'] := by
  have hdigits : Char.ofNat 0 ∉ line.digits ++ ['\n'] := fun hmem =>
    absurd (mem_digits hmem) (by decide)
  have hnumber : Char.ofNat 0 ∉ line.number ++ ['\n'] := by
    rw [SchedLine.number]
    cases line.negative with
    | true =>
        rw [if_pos rfl, List.cons_append, List.mem_cons, not_or]
        exact ⟨by decide, hdigits⟩
    | false => exact hdigits
  rw [SchedLine.text, SchedLine.field, List.append_assoc, List.cons_append,
    List.append_assoc, List.mem_append, List.mem_cons, List.mem_append]
  rintro (hkey | hcolon | hblank | hrest)
  · exact line.notMem_key (by decide) hkey
  · exact absurd hcolon (by decide)
  · exact absurd (List.eq_of_mem_replicate hblank) (by decide)
  · exact hnumber hrest

/-- Both programs read the `double` that is nearest to the number of the fourth
line. -/
theorem both_read_number (lenient : Bool) {lines : List (List Char)}
    (hlines : ∀ line ∈ lines, '\n' ∉ line)
    (hfits : ∀ line ∈ lines, line.length < 255)
    (hline : lines[3]? = some line.text) :
    readVruntime lenient (some (lines.flatMap fun line => line ++ ['\n'])) =
        some (.nearest line.negative line.magnitude) ∧
      alarmHandler lenient (lines.flatMap fun line => line ++ ['\n']) =
        some (.nearest line.negative line.magnitude) := by
  have hfourth : (LineInput.pieces 256
      (lines.flatMap fun line => line ++ ['\n']))[3]? =
        some (line.text ++ ['\n']) := by
    rw [LineInput.pieces_flatMap_of_lt (by decide) hlines hfits,
      List.getElem?_map, hline, Option.map_some]
  have htext : LineInput.cString (line.text ++ ['\n']) =
      line.text ++ ['\n'] := by
    rw [LineInput.cString, List.takeWhile_eq_self_iff]
    intro char hchar
    rw [decide_eq_true_eq]
    rintro rfl
    exact nul_notMem_text line hchar
  constructor
  · rw [readVruntime, Option.bind_eq_bind, Option.bind_some, hfourth]
    simp only [Option.bind_some, htext, behindColon_text]
    rw [SchedLine.field, List.append_assoc, scanFloat_blanks,
      scanFloat_number]
  · rw [alarmHandler, hfourth, Option.map_some, htext, getNumberFromText,
      skipSet_text]
    simp only [scanFloat_number, Option.getD_some]

/-- The time of a process that has run for 12345 milliseconds and a half. -/
def runningLine : SchedLine where
  key := "vruntime ".toList
  blanks := 3
  negative := false
  whole := "12345".toList
  frac := "500000".toList
  key_all := rfl
  whole_ne := List.cons_ne_nil _ _
  whole_all := rfl
  frac_all := rfl

theorem both_read_runningLine :
    readVruntime true (some ([[], [], [], runningLine.text].flatMap
        fun line => line ++ ['\n'])) = some (.finite (12345 + 1 / 2)) ∧
      alarmHandler true ([[], [], [], runningLine.text].flatMap
        fun line => line ++ ['\n']) = some (.finite (12345 + 1 / 2)) := by
  have hmagnitude : runningLine.magnitude = 12345 + 1 / 2 := by
    have hdigits : ofDigits 10 (runningLine.whole ++ runningLine.frac) =
        12345500000 := by decide
    have hlength : runningLine.frac.length = 6 := rfl
    rw [SchedLine.magnitude, hdigits, hlength]
    norm_num
  have hnearest : Double.nearest runningLine.negative runningLine.magnitude =
      .finite (12345 + 1 / 2) := by
    rw [hmagnitude]
    decide +kernel
  have hlines : ∀ line ∈ [[], [], [], runningLine.text], '\n' ∉ line := by
    decide
  have hfits : ∀ line ∈ [[], [], [], runningLine.text], line.length < 255 := by
    decide
  have hline : [[], [], [], runningLine.text][3]? = some runningLine.text := rfl
  rw [← hnearest]
  exact both_read_number true hlines hfits hline

end Reading

end VruntimeLog

end OsCourse
