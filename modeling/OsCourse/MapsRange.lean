/-
The range of a mapping that the lab program looks up in its maps file.  The file is
read through 255 characters, and the part of a path behind them is taken for a line
of its own.
-/
import OsCourse.LineInput
import OsCourse.ScanHex

namespace OsCourse

namespace MapsRange

open LineInput ScanText

section Program

/-- The addresses from `start` on and before `finish`. -/
structure Range where
  start : Nat
  finish : Nat
deriving Repr, DecidableEq

def Range.Contains (range : Range) (address : Nat) : Prop :=
  range.start ≤ address ∧ address < range.finish

instance (range : Range) (address : Nat) :
    Decidable (range.Contains address) :=
  inferInstanceAs (Decidable (_ ∧ _))

/-- `"%lx-%lx"` when it prints. -/
def Range.text (range : Range) : List Char :=
  hexDigits range.start ++ '-' :: hexDigits range.finish

/-- `"%lx-%lx"` when it converts both numbers. -/
def scanRange (lenient : Bool) (line : List Char) : Option Range :=
  match scanHex lenient line with
  | some (start, '-' :: rest) =>
      (scanHex lenient rest).map fun found => ⟨start, found.1⟩
  | _ => none

/-- The range that a piece gives, if the address is in it. -/
def matchingRange (lenient : Bool) (address : Nat) (line : List Char) :
    Option Range :=
  (scanRange lenient (cString line)).filter
    fun range => decide (range.Contains address)

/-- What `output_buffer` holds of a text; without room nothing is written. -/
def outputBuffer (bufSize : Nat) (text : List Char) : Option (List Char) :=
  if 0 < bufSize then some (text.take (bufSize - 1)) else none

def notFound : List Char :=
  ['N', 'O', 'T', '_', 'F', 'O', 'U', 'N', 'D']

def fileError : List Char :=
  ['F', 'I', 'L', 'E', '_', 'E', 'R', 'R', 'O', 'R']

/-- `Get_os_map_range`; `none` stands for a file that cannot be opened. -/
def getOsMapRange (lenient : Bool) (maps : Option (List Char))
    (address bufSize : Nat) : Option (List Char) :=
  match maps with
  | none => outputBuffer bufSize fileError
  | some stream =>
      match (pieces 256 stream).findSome? (matchingRange lenient address) with
      | some range => outputBuffer bufSize range.text
      | none => outputBuffer bufSize notFound

/-- The call for a block, whose `os_map_range` has 30 characters. -/
def osMapRange (lenient : Bool) (maps : Option (List Char)) (address : Nat) :
    Option (List Char) :=
  getOsMapRange lenient maps address 30

end Program

section Maps

/-- A line of a maps file.  The bounds may be padded with zeros. -/
structure MapsLine where
  range : Range
  width : Nat
  rest : List Char
  start_lt : range.start < 2 ^ 56
  finish_lt : range.finish < 2 ^ 56
  width_le : width ≤ 16
  newline_notMem : '\n' ∉ rest

def MapsLine.bounds (line : MapsLine) : List Char :=
  paddedHex line.width line.range.start ++
    '-' :: paddedHex line.width line.range.finish

def MapsLine.text (line : MapsLine) : List Char :=
  line.bounds ++ ' ' :: line.rest

/-- Two lines without a common address. -/
def MapsLine.Apart (first second : MapsLine) : Prop :=
  Disjoint (Set.Ico first.range.start first.range.finish)
    (Set.Ico second.range.start second.range.finish)

instance : Std.Symm MapsLine.Apart :=
  ⟨fun _ _ hapart => Disjoint.symm hapart⟩

/-- The ranges of a maps file are disjoint. -/
structure MapsFile where
  lines : List MapsLine
  disjoint : lines.Pairwise MapsLine.Apart

def MapsFile.text (file : MapsFile) : List Char :=
  (file.lines.map MapsLine.text).flatMap fun line => line ++ ['\n']

/-- The bounds of the line that contains the address are found as they stand there,
and nothing is found if no line contains it. -/
def FindsRange (lenient : Bool) (file : MapsFile) (address : Nat) : Prop :=
  (∀ line ∈ file.lines, line.range.Contains address →
      osMapRange lenient (some file.text) address = some line.bounds) ∧
    ((∀ line ∈ file.lines, ¬ line.range.Contains address) →
      osMapRange lenient (some file.text) address = some notFound)

/-- No bound is padded with zeros. -/
def MapsLine.Unpadded (line : MapsLine) : Prop :=
  line.width ≤ (hexDigits line.range.start).length ∧
    line.width ≤ (hexDigits line.range.finish).length

instance (line : MapsLine) : Decidable line.Unpadded :=
  inferInstanceAs (Decidable (_ ∧ _))

/-- The pieces of a line behind its first 255 characters. -/
def strayPieces (line : MapsLine) : List (List Char) :=
  pieces 256 ((line.text ++ ['\n']).drop 255)

/-- The first range with the address that a path gives, in the lines before the right
one. -/
def firstStray (lenient : Bool) (file : MapsFile) (address : Nat) :
    Option Range :=
  ((file.lines.takeWhile fun line =>
      !decide (line.range.Contains address)).flatMap strayPieces).findSome?
    (matchingRange lenient address)

/-- No path gives a range with the address before the right line, whose bounds are
not padded; or what a path gives happens to print as the right bounds. -/
def Undisturbed (lenient : Bool) (file : MapsFile) (address : Nat) : Prop :=
  match firstStray lenient file address with
  | none => ∀ line ∈ file.lines, line.range.Contains address → line.Unpadded
  | some stray => ∃ line ∈ file.lines, line.range.Contains address ∧
      stray.text.take 29 = line.bounds

end Maps

section Lines

variable {lenient : Bool} {address : Nat} {line : MapsLine}

theorem length_bounds_le (line : MapsLine) : line.bounds.length ≤ 33 := by
  have hstart := @length_paddedHex_le line.width line.range.start 16
    (by decide) line.width_le (line.start_lt.trans (by decide))
  have hfinish := @length_paddedHex_le line.width line.range.finish 16
    (by decide) line.width_le (line.finish_lt.trans (by decide))
  rw [MapsLine.bounds, List.length_append, List.length_cons]
  omega

/-- The buffer has room for every range of a line. -/
theorem length_text_le (line : MapsLine) : line.range.text.length ≤ 29 := by
  have hstart := @length_hexDigits_le line.range.start 14 (by decide)
    (line.start_lt.trans_eq (by decide))
  have hfinish := @length_hexDigits_le line.range.finish 14 (by decide)
    (line.finish_lt.trans_eq (by decide))
  rw [Range.text, List.length_append, List.length_cons]
  omega

theorem scanRange_bounds (lenient : Bool) (line : MapsLine)
    (rest : List Char) :
    scanRange lenient (line.bounds ++ ' ' :: rest) = some line.range := by
  have hstart := @scanHex_append lenient _
    (paddedHex line.width line.range.finish ++ ' ' :: rest) '-'
    (paddedHex_ne_nil line.width line.range.start)
    (isHexDigit_of_mem_paddedHex _ _) (by decide) (by decide)
  have hfinish := @scanHex_append lenient _ rest ' '
    (paddedHex_ne_nil line.width line.range.finish)
    (isHexDigit_of_mem_paddedHex _ _) (by decide) (by decide)
  rw [ofDigits_paddedHex, toUnsignedLong_of_lt
    (line.start_lt.trans (by decide))] at hstart
  rw [ofDigits_paddedHex, toUnsignedLong_of_lt
    (line.finish_lt.trans (by decide))] at hfinish
  rw [MapsLine.bounds, List.append_assoc, List.cons_append, scanRange, hstart]
  exact congrArg (Option.map _) hfinish

theorem nul_notMem_bounds (line : MapsLine) :
    ∀ char ∈ line.bounds, char ≠ Char.ofNat 0 := by
  have hdigit : ∀ value, ∀ char ∈ paddedHex line.width value,
      char ≠ Char.ofNat 0 := by
    intro value char hchar heq
    have hrange := le_toNat_of_isHexDigit
      (isHexDigit_of_mem_paddedHex _ _ char hchar)
    rw [heq] at hrange
    exact absurd hrange (by decide)
  intro char hchar
  rw [MapsLine.bounds, List.mem_append, List.mem_cons] at hchar
  rcases hchar with hstart | rfl | hfinish
  · exact hdigit _ char hstart
  · decide
  · exact hdigit _ char hfinish

/-- The first piece of a line gives the range of the line. -/
theorem matchingRange_firstPiece (lenient : Bool) (address : Nat)
    (line : MapsLine) :
    matchingRange lenient address ((line.text ++ ['\n']).take 255) =
      if line.range.Contains address then some line.range else none := by
  have hlength := length_bounds_le line
  obtain ⟨rest, hpiece⟩ : ∃ rest,
      cString ((line.text ++ ['\n']).take 255) =
        line.bounds ++ ' ' :: rest := by
    refine ⟨cString ((line.rest ++ ['\n']).take
      (254 - line.bounds.length)), ?_⟩
    have hroom : 255 - line.bounds.length =
        254 - line.bounds.length + 1 := by omega
    rw [MapsLine.text, List.append_assoc, List.cons_append, List.take_append,
      List.take_of_length_le (by omega), hroom, List.take_succ_cons, cString,
      List.takeWhile_append_of_pos
        (by simpa using nul_notMem_bounds line)]
    rfl
  rw [matchingRange, hpiece, scanRange_bounds]
  by_cases hcontains : line.range.Contains address
  · rw [if_pos hcontains]
    exact Option.filter_some_pos (decide_eq_true hcontains)
  · rw [if_neg hcontains]
    exact Option.filter_some_neg (by simpa using hcontains)

end Lines

section Search

variable {lenient : Bool} {address : Nat} {file : MapsFile} {line : MapsLine}

theorem newline_notMem_text (line : MapsLine) : '\n' ∉ line.text := by
  have hdigit : ∀ value, '\n' ∉ paddedHex line.width value := by
    intro value hmem
    have hnewline := isHexDigit_of_mem_paddedHex _ _ '\n' hmem
    cases hnewline
  rw [MapsLine.text, MapsLine.bounds, List.mem_append, List.mem_append,
    List.mem_cons, List.mem_cons]
  rintro ((hstart | hhyphen | hfinish) | hspace | hrest)
  · exact hdigit _ hstart
  · cases hhyphen
  · exact hdigit _ hfinish
  · cases hspace
  · exact line.newline_notMem hrest

theorem pieces_mapsText (file : MapsFile) :
    pieces 256 file.text = file.lines.flatMap fun line =>
      (line.text ++ ['\n']).take 255 :: strayPieces line := by
  have hlines : ∀ text ∈ file.lines.map MapsLine.text, '\n' ∉ text := by
    intro text htext
    obtain ⟨line, -, rfl⟩ := List.mem_map.mp htext
    exact newline_notMem_text line
  rw [MapsFile.text, pieces_flatMap (by decide) hlines, List.flatMap_map]
  exact List.flatMap_congr fun line _ =>
    pieces_line (by decide) (newline_notMem_text line)

/-- The search ends at the first stray range before the right line, or else at the
right line. -/
theorem findSome?_lines (lenient : Bool) (address : Nat)
    (lines : List MapsLine) :
    (lines.flatMap fun line =>
        (line.text ++ ['\n']).take 255 :: strayPieces line).findSome?
        (matchingRange lenient address) =
      (((lines.takeWhile fun line =>
            !decide (line.range.Contains address)).flatMap
          strayPieces).findSome? (matchingRange lenient address)).or
        ((lines.find? fun line =>
          decide (line.range.Contains address)).map MapsLine.range) := by
  induction lines with
  | nil => rfl
  | cons line lines ih =>
      rw [List.flatMap_cons, List.cons_append, List.findSome?_cons,
        matchingRange_firstPiece]
      by_cases hcontains : line.range.Contains address
      · rw [if_pos hcontains, List.takeWhile_cons_of_neg (by simpa),
          List.find?_cons_of_pos (by simpa)]
        rfl
      · rw [if_neg hcontains, List.takeWhile_cons_of_pos (by simpa),
          List.find?_cons_of_neg (by simpa), List.flatMap_cons,
          List.findSome?_append, List.findSome?_append, ih, Option.or_assoc]

/-- Disjoint ranges contain an address once. -/
theorem find?_eq_some (hmem : line ∈ file.lines)
    (hcontains : line.range.Contains address) :
    file.lines.find? (fun line =>
      decide (line.range.Contains address)) = some line := by
  obtain ⟨found, hfound⟩ : ∃ found, file.lines.find? (fun line =>
      decide (line.range.Contains address)) = some found :=
    Option.isSome_iff_exists.mp (List.find?_isSome.mpr
      ⟨line, hmem, decide_eq_true hcontains⟩)
  have hother : found.range.Contains address := by
    simpa using List.find?_some hfound
  by_contra hne
  have hdiff : found ≠ line := by
    rintro rfl
    exact hne hfound
  have hapart := file.disjoint.forall (List.mem_of_find?_eq_some hfound)
    hmem hdiff
  exact Set.disjoint_left.mp hapart hother hcontains

theorem osMapRange_eq (lenient : Bool) (file : MapsFile) (address : Nat) :
    osMapRange lenient (some file.text) address =
      some (match (firstStray lenient file address).or
          ((file.lines.find? fun line =>
            decide (line.range.Contains address)).map MapsLine.range) with
        | some range => range.text.take 29
        | none => notFound) := by
  rw [osMapRange, getOsMapRange, pieces_mapsText, findSome?_lines, firstStray]
  split <;> rfl

/-- A range that is printed is not the text for nothing found. -/
theorem take_text_ne_notFound (range : Range) :
    range.text.take 29 ≠ notFound := by
  intro heq
  cases hstart : hexDigits range.start with
  | nil => exact hexDigits_ne_nil _ hstart
  | cons char digits =>
      have hdigit := isHexDigit_of_mem_hexDigits range.start char
        (by rw [hstart]; exact List.mem_cons_self)
      rw [Range.text, hstart, List.cons_append, List.take_succ_cons, notFound,
        List.cons.injEq] at heq
      rw [heq.1] at hdigit
      cases hdigit

/-- What is printed is the line's own text exactly where that is not padded. -/
theorem text_eq_bounds_iff (line : MapsLine) :
    line.range.text = line.bounds ↔ line.Unpadded := by
  constructor
  · intro heq
    have hlength := congrArg List.length heq
    simp only [Range.text, MapsLine.bounds, paddedHex, List.length_append,
      List.length_cons, List.length_leftpad] at hlength
    unfold MapsLine.Unpadded
    omega
  · rintro ⟨hstart, hfinish⟩
    rw [MapsLine.bounds, paddedHex_of_le hstart, paddedHex_of_le hfinish]
    rfl

theorem findsRange_iff_of_firstStray
    (hstray : firstStray lenient file address = none) :
    FindsRange lenient file address ↔
      ∀ line ∈ file.lines, line.range.Contains address → line.Unpadded := by
  rw [FindsRange, osMapRange_eq, hstray, and_iff_left]
  · refine forall₂_congr fun line hline => forall_congr' fun hcontains => ?_
    rw [find?_eq_some hline hcontains, ← text_eq_bounds_iff]
    change some (line.range.text.take 29) = some line.bounds ↔ _
    rw [List.take_of_length_le (length_text_le line), Option.some.injEq]
  · intro hnone
    have hfind : file.lines.find? (fun line =>
        decide (line.range.Contains address)) = none :=
      List.find?_eq_none.mpr (by simpa using hnone)
    rw [hfind]
    rfl

/-- The right bounds are found if and only if no path is in the way and they are not
padded. -/
theorem findsRange_iff_undisturbed (lenient : Bool) (file : MapsFile)
    (address : Nat) :
    FindsRange lenient file address ↔ Undisturbed lenient file address := by
  rw [Undisturbed]
  cases hstray : firstStray lenient file address with
  | none => exact findsRange_iff_of_firstStray hstray
  | some stray =>
      rw [FindsRange, osMapRange_eq, hstray]
      simp only [Option.some_or, Option.some.injEq]
      constructor
      · rintro ⟨hfound, hnothing⟩
        by_contra hnone
        push Not at hnone
        refine take_text_ne_notFound stray (hnothing ?_)
        exact fun line hline hcontains =>
          hnone line hline hcontains (hfound line hline hcontains)
      · rintro ⟨line, hline, hcontains, htext⟩
        refine ⟨fun other hother hin => ?_, fun hnone => ?_⟩
        · have hsame := (find?_eq_some hother hin).symm.trans
            (find?_eq_some hline hcontains)
          rw [Option.some.inj hsame, htext]
        · exact absurd hcontains (hnone line hline)

/-- A path of more than 250 characters that ends like a range. -/
theorem not_findsRange_long_path :
    ¬ ∀ (lenient : Bool) (file : MapsFile) (address : Nat),
      address < 2 ^ 56 → FindsRange lenient file address := by
  intro hall
  let line : MapsLine :=
    { range := ⟨0x400000, 0x401000⟩
      width := 8
      rest := '/' :: List.replicate 236 'x' ++ "10-20".toList
      start_lt := by decide
      finish_lt := by decide
      width_le := by decide
      newline_notMem := by decide +kernel }
  have hnothing := (hall true ⟨[line], List.pairwise_singleton _ _⟩ 16
    (by decide)).2
  have hresult := hnothing (by
    intro other hother
    rw [List.mem_singleton.mp hother]
    decide)
  exact absurd hresult (by decide +kernel)

/-- A line that fits in the buffer has no stray piece. -/
theorem strayPieces_of_length_lt (hlength : line.text.length < 255) :
    strayPieces line = [] := by
  have hfits : (line.text ++ ['\n']).length ≤ 255 := by
    rw [List.length_append, List.length_singleton]
    omega
  rw [strayPieces, List.drop_of_length_le hfits]
  rfl

/-- Without long paths the right bounds are found unless they are padded. -/
theorem findsRange_of_length_lt
    (hfits : ∀ line ∈ file.lines, line.text.length < 255)
    (hunpadded : ∀ line ∈ file.lines, line.range.Contains address →
      line.Unpadded) :
    FindsRange lenient file address := by
  refine (findsRange_iff_of_firstStray
    (List.findSome?_eq_none_iff.mpr fun piece hpiece => ?_)).mpr hunpadded
  obtain ⟨line, hline, hstray⟩ := List.mem_flatMap.mp hpiece
  have hmem := (List.takeWhile_sublist _).subset hline
  rw [strayPieces_of_length_lt (hfits line hmem)] at hstray
  cases hstray

end Search

end MapsRange

end OsCourse
