/-
A file that is read line by line through a buffer.  A line that does not fit comes in
several pieces, and what a loop takes from the pieces of a file is what it takes from
the pieces of each line.
-/
import Mathlib

namespace LineInput

universe u

section Reading

/-- At most `room` characters, through the first newline, and what is left. -/
def takeLine : (room : Nat) → List Char → List Char × List Char
  | 0, stream => ([], stream)
  | _ + 1, [] => ([], [])
  | room + 1, char :: stream =>
      if char = '\n' then (['\n'], stream)
      else Prod.map (char :: ·) id (takeLine room stream)

/-- `fgets` with a buffer of `size` characters, the last one for the NUL. -/
def fgets (size : Nat) (stream : List Char) :
    Option (List Char × List Char) :=
  if stream = [] then none else some (takeLine (size - 1) stream)

/-- What the successive calls of `fgets` return until the file ends. -/
def readLoop (size : Nat) : (fuel : Nat) → List Char → List (List Char)
  | 0, _ => []
  | fuel + 1, stream =>
      match fgets size stream with
      | none => []
      | some (piece, rest) => piece :: readLoop size fuel rest

/-- A call of `fgets` takes at least one character. -/
def pieces (size : Nat) (stream : List Char) : List (List Char) :=
  readLoop size stream.length stream

/-- The text in a buffer ends at its first NUL. -/
def cString (buffer : List Char) : List Char :=
  buffer.takeWhile (· ≠ Char.ofNat 0)

/-- `line[strcspn(line, "\n")] = '\0'`. -/
def chomp (line : List Char) : List Char :=
  line.takeWhile (· ≠ '\n')

end Reading

section Calls

variable {size : Nat} {line rest stream : List Char}

theorem takeLine_append_newline {room : Nat} (hline : '\n' ∉ line)
    (hlength : line.length < room) :
    takeLine room (line ++ '\n' :: rest) = (line ++ ['\n'], rest) := by
  induction line generalizing room with
  | nil =>
      obtain ⟨room, rfl⟩ := Nat.exists_eq_succ_of_ne_zero hlength.ne'
      rfl
  | cons char line ih =>
      obtain ⟨room, rfl⟩ :=
        Nat.exists_eq_succ_of_ne_zero (Nat.ne_zero_of_lt hlength)
      rw [List.mem_cons, not_or] at hline
      have hrest := ih hline.2 (Nat.lt_of_succ_lt_succ hlength)
      rw [List.cons_append, takeLine, if_neg (Ne.symm hline.1), hrest]
      rfl

/-- A line that is too long is cut where the room ends. -/
theorem takeLine_append_of_le {room : Nat} (hline : '\n' ∉ line)
    (hlength : room ≤ line.length) :
    takeLine room (line ++ rest) =
      (line.take room, line.drop room ++ rest) := by
  induction room generalizing line with
  | zero => rfl
  | succ room ih =>
      cases line with
      | nil => cases hlength
      | cons char line =>
          rw [List.mem_cons, not_or] at hline
          have hrest := ih hline.2 (Nat.le_of_succ_le_succ hlength)
          rw [List.cons_append, takeLine, if_neg (Ne.symm hline.1), hrest]
          rfl

theorem takeLine_of_le {room : Nat} (hline : '\n' ∉ line)
    (hlength : line.length ≤ room) : takeLine room line = (line, []) := by
  induction line generalizing room with
  | nil => cases room <;> rfl
  | cons char line ih =>
      obtain ⟨room, rfl⟩ :=
        Nat.exists_eq_succ_of_ne_zero (Nat.ne_zero_of_lt hlength)
      rw [List.mem_cons, not_or] at hline
      have hrest := ih hline.2 (Nat.le_of_succ_le_succ hlength)
      rw [takeLine, if_neg (Ne.symm hline.1), hrest]
      rfl

theorem takeLine_append (room : Nat) (stream : List Char) :
    (takeLine room stream).1 ++ (takeLine room stream).2 = stream := by
  induction room generalizing stream with
  | zero => rfl
  | succ room ih =>
      cases stream with
      | nil => rfl
      | cons char stream =>
          rw [takeLine]
          split
          · rename_i hnewline
            rw [hnewline]
            rfl
          · exact congrArg (char :: ·) (ih stream)

theorem length_takeLine_lt {room : Nat} (hroom : 0 < room)
    (hstream : stream ≠ []) :
    (takeLine room stream).2.length < stream.length := by
  have hpos : 0 < (takeLine room stream).1.length := by
    obtain ⟨room, rfl⟩ := Nat.exists_eq_succ_of_ne_zero hroom.ne'
    cases stream with
    | nil => exact absurd rfl hstream
    | cons char stream =>
        rw [takeLine]
        split
        · exact Nat.one_pos
        · exact Nat.succ_pos _
  have hlength := congrArg List.length (takeLine_append room stream)
  rw [List.length_append] at hlength
  omega

/-- More fuel than there are characters changes nothing. -/
theorem readLoop_eq (hsize : 2 ≤ size) {fuel : Nat}
    (hfuel : stream.length ≤ fuel) :
    readLoop size fuel stream = pieces size stream := by
  induction hlength : stream.length using Nat.strong_induction_on
    generalizing stream fuel with
  | _ length ih =>
      cases stream with
      | nil => cases fuel <;> rfl
      | cons char stream =>
          obtain ⟨fuel, rfl⟩ :=
            Nat.exists_eq_succ_of_ne_zero (Nat.ne_zero_of_lt hfuel)
          have hroom : 0 < size - 1 := by omega
          have hshorter := length_takeLine_lt hroom
            (List.cons_ne_nil char stream)
          simp only [List.length_cons] at hshorter hfuel hlength
          have hleft := @ih _ (by omega)
            (takeLine (size - 1) (char :: stream)).2 fuel (by omega) rfl
          have hright := @ih _ (by omega)
            (takeLine (size - 1) (char :: stream)).2 stream.length
            (by omega) rfl
          rw [pieces, List.length_cons, readLoop, readLoop, fgets,
            if_neg (List.cons_ne_nil _ _)]
          dsimp only
          rw [hleft, hright]

theorem pieces_nil : pieces size [] = [] := rfl

theorem pieces_of_fgets (hsize : 2 ≤ size) (hstream : stream ≠ [])
    {piece : List Char}
    (hfgets : takeLine (size - 1) stream = (piece, rest)) :
    pieces size stream = piece :: pieces size rest := by
  have hshorter := length_takeLine_lt (by omega : 0 < size - 1) hstream
  rw [hfgets] at hshorter
  obtain ⟨fuel, hfuel⟩ :=
    Nat.exists_eq_succ_of_ne_zero (Nat.ne_zero_of_lt hshorter)
  rw [pieces, hfuel, readLoop, fgets, if_neg hstream, hfgets]
  dsimp only at hshorter ⊢
  rw [readLoop_eq hsize (by omega)]

/-- The pieces of a file are the file. -/
theorem flatten_pieces (hsize : 2 ≤ size) (stream : List Char) :
    (pieces size stream).flatten = stream := by
  induction hlength : stream.length using Nat.strong_induction_on
    generalizing stream with
  | _ length ih =>
      by_cases hempty : stream = []
      · rw [hempty]
        rfl
      · have hshorter :=
          length_takeLine_lt (by omega : 0 < size - 1) hempty
        have hrest := ih _ (hlength ▸ hshorter)
          (takeLine (size - 1) stream).2 rfl
        rw [pieces_of_fgets hsize hempty rfl, List.flatten_cons, hrest,
          takeLine_append]

theorem pieces_append_newline (hsize : 2 ≤ size) (hline : '\n' ∉ line)
    (hlength : line.length < size - 1) :
    pieces size (line ++ '\n' :: rest) =
      (line ++ ['\n']) :: pieces size rest :=
  pieces_of_fgets hsize (by simp) (takeLine_append_newline hline hlength)

theorem pieces_append_of_le (hsize : 2 ≤ size) (hline : '\n' ∉ line)
    (hlength : size - 1 ≤ line.length) :
    pieces size (line ++ rest) =
      line.take (size - 1) ::
        pieces size (line.drop (size - 1) ++ rest) := by
  have hnonempty : line ++ rest ≠ [] := by
    have hpos : 0 < line.length := by omega
    exact List.append_ne_nil_of_left_ne_nil (List.length_pos_iff.mp hpos) _
  exact pieces_of_fgets hsize hnonempty (takeLine_append_of_le hline hlength)

/-- The pieces of a line with its newline: the first one and those behind it. -/
theorem pieces_line (hsize : 2 ≤ size) (hline : '\n' ∉ line) :
    pieces size (line ++ ['\n']) =
      (line ++ ['\n']).take (size - 1) ::
        pieces size ((line ++ ['\n']).drop (size - 1)) := by
  by_cases hlength : size - 1 ≤ line.length
  · rw [pieces_append_of_le hsize hline hlength,
      List.take_append_of_le_length hlength,
      List.drop_append_of_le_length hlength]
  · have hfits : (line ++ ['\n']).length ≤ size - 1 := by
      rw [List.length_append, List.length_singleton]
      omega
    rw [pieces_append_newline hsize hline (by omega),
      List.take_of_length_le hfits, List.drop_of_length_le hfits]

/-- A line fits in the buffer, or it is cut and the rest of it comes next. -/
theorem cut_induction {motive : (line : List Char) → '\n' ∉ line → Prop}
    (hsize : 2 ≤ size)
    (fits : ∀ line hline, line.length < size - 1 → motive line hline)
    (cut : ∀ line hline, size - 1 ≤ line.length →
      motive (line.drop (size - 1))
        (fun hmem => hline (List.mem_of_mem_drop hmem)) → motive line hline)
    (line : List Char) (hline : '\n' ∉ line) : motive line hline := by
  induction hlength : line.length using Nat.strong_induction_on
    generalizing line with
  | _ length ih =>
      by_cases hfits : line.length < size - 1
      · exact fits line hline hfits
      · have hshorter : (line.drop (size - 1)).length < length := by
          rw [List.length_drop]
          omega
        exact cut line hline (Nat.le_of_not_lt hfits)
          (ih _ hshorter _ _ rfl)

/-- No piece goes on behind the end of a line. -/
theorem pieces_line_append (hsize : 2 ≤ size) (hline : '\n' ∉ line) :
    pieces size (line ++ '\n' :: rest) =
      pieces size (line ++ ['\n']) ++ pieces size rest := by
  induction line, hline using cut_induction hsize with
  | fits line hline hfits =>
      rw [pieces_append_newline hsize hline hfits,
        pieces_append_newline hsize hline hfits]
      rfl
  | cut line hline hcut hrest =>
      rw [pieces_append_of_le hsize hline hcut,
        pieces_append_of_le hsize hline hcut, hrest, List.cons_append]

theorem pieces_flatMap (hsize : 2 ≤ size) {lines : List (List Char)}
    (hlines : ∀ line ∈ lines, '\n' ∉ line) :
    pieces size (lines.flatMap fun line => line ++ ['\n']) =
      lines.flatMap fun line => pieces size (line ++ ['\n']) := by
  induction lines with
  | nil => rfl
  | cons line lines ih =>
      rw [List.forall_mem_cons] at hlines
      rw [List.flatMap_cons, List.flatMap_cons, List.append_assoc,
        List.singleton_append, pieces_line_append hsize hlines.1,
        ih hlines.2]

/-- Lines that fit in the buffer are the pieces. -/
theorem pieces_flatMap_of_lt (hsize : 2 ≤ size) {lines : List (List Char)}
    (hlines : ∀ line ∈ lines, '\n' ∉ line)
    (hfits : ∀ line ∈ lines, line.length < size - 1) :
    pieces size (lines.flatMap fun line => line ++ ['\n']) =
      lines.map fun line => line ++ ['\n'] := by
  have hpiece : ∀ line ∈ lines,
      pieces size (line ++ ['\n']) = [line ++ ['\n']] :=
    fun line hline => pieces_append_newline hsize (hlines line hline)
      (hfits line hline)
  rw [pieces_flatMap hsize hlines, List.flatMap_congr hpiece,
    List.map_eq_flatMap]

theorem pieces_of_le (hsize : 2 ≤ size) (hline : '\n' ∉ line)
    (hnonempty : line ≠ []) (hlength : line.length ≤ size - 1) :
    pieces size line = [line] := by
  rw [pieces_of_fgets hsize hnonempty (takeLine_of_le hline hlength),
    pieces_nil]

/-- The first piece of a text without a newline, and those behind it. -/
theorem pieces_cons (hsize : 2 ≤ size) (hline : '\n' ∉ line)
    (hnonempty : line ≠ []) :
    pieces size line =
      line.take (size - 1) :: pieces size (line.drop (size - 1)) := by
  by_cases hlength : size - 1 ≤ line.length
  · have hcut := @pieces_append_of_le size line [] hsize hline hlength
    rw [List.append_nil, List.append_nil] at hcut
    exact hcut
  · rw [pieces_of_le hsize hline hnonempty (by omega),
      List.take_of_length_le (by omega), List.drop_of_length_le (by omega),
      pieces_nil]

/-- The newline at the end of a piece is what `chomp` takes off. -/
theorem chomp_cString_append_newline (piece : List Char) :
    chomp (cString (piece ++ ['\n'])) = chomp (cString piece) := by
  induction piece with
  | nil => rfl
  | cons char piece ih =>
      rw [List.cons_append, cString, List.takeWhile_cons, cString,
        List.takeWhile_cons]
      split
      · rw [chomp, List.takeWhile_cons, chomp, List.takeWhile_cons]
        split
        · exact congrArg (char :: ·) ih
        · rfl
      · rfl

end Calls

section Chunks

variable {size room : Nat} {line : List Char}

/-- The part of a line that its `index`th piece holds. -/
def chunk (room index : Nat) (line : List Char) : List Char :=
  (line.drop (room * index)).take room

theorem chunk_zero : chunk room 0 line = line.take room := by
  rw [chunk, Nat.mul_zero, List.drop_zero]

theorem chunk_succ (index : Nat) :
    chunk room (index + 1) line = chunk room index (line.drop room) := by
  rw [chunk, chunk, List.drop_drop, Nat.mul_succ, Nat.add_comm]

theorem chunk_of_le {index : Nat} (hlength : line.length ≤ room * index) :
    chunk room index line = [] := by
  rw [chunk, List.drop_of_length_le hlength, List.take_nil]

/-- A text without a newline is cut where the room ends. -/
theorem getD_pieces (hsize : 2 ≤ size) (hline : '\n' ∉ line) (index : Nat) :
    (pieces size line)[index]?.getD [] = chunk (size - 1) index line := by
  induction index generalizing line with
  | zero =>
      rw [chunk_zero]
      by_cases hempty : line = []
      · rw [hempty, pieces_nil, List.take_nil]
        rfl
      · rw [pieces_cons hsize hline hempty]
        rfl
  | succ index ih =>
      rw [chunk_succ]
      by_cases hempty : line = []
      · rw [hempty, pieces_nil, List.drop_nil, chunk_of_le (Nat.zero_le _)]
        rfl
      · have hdrop : '\n' ∉ line.drop (size - 1) :=
          fun hmem => hline (List.mem_of_mem_drop hmem)
        rw [pieces_cons hsize hline hempty, List.getElem?_cons_succ]
        exact ih hdrop

section Readings

variable {β : Type u} {read : List Char → Option β}

theorem filterMap_eq_nil_iff_getD (hnil : read [] = none)
    (pieces : List (List Char)) :
    pieces.filterMap read = [] ↔
      ∀ index : Nat, read (pieces[index]?.getD []) = none := by
  rw [List.filterMap_eq_nil_iff]
  constructor
  · intro hnone index
    cases hpiece : pieces[index]? with
    | none => exact hnil
    | some piece => exact hnone piece (List.mem_of_getElem? hpiece)
  · intro hnone piece hpiece
    obtain ⟨index, hindex⟩ := List.getElem?_of_mem hpiece
    have hread := hnone index
    rw [hindex] at hread
    exact hread

theorem filterMap_eq_singleton_iff_getD (hnil : read [] = none)
    (pieces : List (List Char)) (value : β) :
    pieces.filterMap read = [value] ↔
      ∃ index : Nat, read (pieces[index]?.getD []) = some value ∧
        ∀ other : Nat, other ≠ index →
          read (pieces[other]?.getD []) = none := by
  induction pieces with
  | nil => simp [hnil]
  | cons piece pieces ih =>
      rw [List.filterMap_cons]
      cases hpiece : read piece with
      | none =>
          rw [ih]
          constructor
          · rintro ⟨index, hindex, hothers⟩
            refine ⟨index + 1, hindex, fun other hother => ?_⟩
            cases other with
            | zero => exact hpiece
            | succ other => exact hothers other (by omega)
          · rintro ⟨index, hindex, hothers⟩
            cases index with
            | zero =>
                rw [List.getElem?_cons_zero, Option.getD_some, hpiece] at hindex
                cases hindex
            | succ index =>
                exact ⟨index, hindex, fun other hother =>
                  hothers (other + 1) (by omega)⟩
      | some first =>
          dsimp only
          rw [List.cons.injEq, filterMap_eq_nil_iff_getD hnil]
          constructor
          · rintro ⟨rfl, hnone⟩
            refine ⟨0, hpiece, fun other hother => ?_⟩
            cases other with
            | zero => exact absurd rfl hother
            | succ other => exact hnone other
          · rintro ⟨index, hindex, hothers⟩
            cases index with
            | zero =>
                rw [List.getElem?_cons_zero, Option.getD_some, hpiece] at hindex
                exact ⟨Option.some.inj hindex, fun other =>
                  hothers (other + 1) (Nat.succ_ne_zero other)⟩
            | succ index =>
                have hfirst := hothers 0 (Nat.succ_ne_zero index).symm
                rw [List.getElem?_cons_zero, Option.getD_some, hpiece] at hfirst
                cases hfirst

/-- Nothing is read from a line. -/
theorem filterMap_pieces_eq_nil_iff (hsize : 2 ≤ size)
    (hline : '\n' ∉ line) (hnil : read [] = none) :
    (pieces size line).filterMap read = [] ↔
      ∀ index, read (chunk (size - 1) index line) = none := by
  rw [filterMap_eq_nil_iff_getD hnil]
  exact forall_congr' fun index => by rw [getD_pieces hsize hline]

/-- Exactly one thing is read from a line. -/
theorem filterMap_pieces_eq_singleton_iff (hsize : 2 ≤ size)
    (hline : '\n' ∉ line) (hnil : read [] = none) (value : β) :
    (pieces size line).filterMap read = [value] ↔
      ∃ index, read (chunk (size - 1) index line) = some value ∧
        ∀ other, other ≠ index →
          read (chunk (size - 1) other line) = none := by
  rw [filterMap_eq_singleton_iff_getD hnil]
  simp only [getD_pieces hsize hline]

end Readings

end Chunks

section Lines

variable {size : Nat} {file : List Char} {β : Type u}

/-- The pieces of each line; a piece with a newline ends its line. -/
def byLine : List (List Char) → List (List (List Char))
  | [] => [[]]
  | piece :: pieces =>
      if '\n' ∈ piece then [piece] :: byLine pieces
      else (byLine pieces).modifyHead (piece :: ·)

theorem byLine_ne_nil (pieces : List (List Char)) : byLine pieces ≠ [] := by
  induction pieces with
  | nil => exact List.cons_ne_nil _ _
  | cons piece pieces ih =>
      rw [byLine]
      split
      · exact List.cons_ne_nil _ _
      · rw [ne_eq, List.modifyHead_eq_nil_iff]
        exact ih

theorem flatten_byLine (pieces : List (List Char)) :
    (byLine pieces).flatten = pieces := by
  induction pieces with
  | nil => rfl
  | cons piece pieces ih =>
      rw [byLine]
      split
      · rw [List.flatten_cons, ih, List.singleton_append]
      · obtain ⟨group, groups, hgroups⟩ :=
          List.exists_cons_of_ne_nil (byLine_ne_nil pieces)
        rw [hgroups, List.flatten_cons] at ih
        rw [hgroups, List.modifyHead_cons, List.flatten_cons,
          List.cons_append, ih]

theorem byLine_of_forall_notMem {pieces : List (List Char)}
    (hpieces : ∀ piece ∈ pieces, '\n' ∉ piece) : byLine pieces = [pieces] := by
  induction pieces with
  | nil => rfl
  | cons piece pieces ih =>
      rw [List.forall_mem_cons] at hpieces
      rw [byLine, if_neg hpieces.1, ih hpieces.2]
      rfl

/-- A file is its lines, of which the last may be without a newline. -/
theorem line_induction {motive : List Char → Prop}
    (last : ∀ line, '\n' ∉ line → motive line)
    (step : ∀ line rest, '\n' ∉ line → motive rest →
      motive (line ++ '\n' :: rest)) (file : List Char) : motive file := by
  induction hlength : file.length using Nat.strong_induction_on
    generalizing file with
  | _ length ih =>
      by_cases hnewline : '\n' ∈ file
      · obtain ⟨line, rest, rfl, hline⟩ :=
          List.eq_append_cons_of_mem hnewline
        rw [List.length_append, List.length_cons] at hlength
        exact step line rest hline (ih rest.length (by omega) rest rfl)
      · exact last file hnewline

/-- A line is a part of the file, without the newline. -/
theorem notMem_and_mem_of_mem_splitOn {line : List Char}
    (hline : line ∈ file.splitOn '\n') :
    '\n' ∉ line ∧ ∀ char ∈ line, char ∈ file := by
  induction file using line_induction with
  | last text htext =>
      rw [List.splitOn_eq_singleton htext, List.mem_singleton] at hline
      rw [hline]
      exact ⟨htext, fun _ hchar => hchar⟩
  | step text rest htext ih =>
      rw [List.splitOn_append_cons_self_of_not_mem htext,
        List.mem_cons] at hline
      rcases hline with rfl | hline
      · exact ⟨htext, fun _ hchar => List.mem_append_left _ hchar⟩
      · refine ⟨(ih hline).1, fun char hchar => ?_⟩
        exact List.mem_append_right _
          (List.mem_cons_of_mem _ ((ih hline).2 char hchar))

variable {read : List Char → Option β}

/-- The loop sees the pieces of a line and then the rest of the file. -/
theorem byLine_pieces_append (hsize : 2 ≤ size) {line rest : List Char}
    (hline : '\n' ∉ line)
    (hnewline : ∀ piece, read (piece ++ ['\n']) = read piece)
    (hnil : read [] = none) :
    (byLine (pieces size (line ++ '\n' :: rest))).map
        (List.filterMap read) =
      (pieces size line).filterMap read ::
        (byLine (pieces size rest)).map (List.filterMap read) := by
  induction line, hline using cut_induction hsize with
  | fits line hline hfits =>
      have hends : '\n' ∈ line ++ ['\n'] := by simp
      rw [pieces_append_newline hsize hline hfits, byLine, if_pos hends,
        List.map_cons, List.filterMap_cons, hnewline]
      by_cases hempty : line = []
      · rw [hempty, hnil, pieces_nil]
      · rw [pieces_of_le hsize hline hempty hfits.le]
        rfl
  | cut line hline hcut hrest =>
      have htake : '\n' ∉ line.take (size - 1) :=
        fun hmem => hline (List.mem_of_mem_take hmem)
      have hnonempty : line ≠ [] := List.length_pos_iff.mp (by omega)
      obtain ⟨group, groups, hgroups⟩ := List.exists_cons_of_ne_nil
        (byLine_ne_nil
          (pieces size (line.drop (size - 1) ++ '\n' :: rest)))
      rw [hgroups, List.map_cons, List.cons.injEq] at hrest
      rw [pieces_append_of_le hsize hline hcut, byLine, if_neg htake, hgroups,
        List.modifyHead_cons, List.map_cons, pieces_cons hsize hline hnonempty,
        List.filterMap_cons, List.filterMap_cons, hrest.1, hrest.2]

/-- A conversion that does not look at the newline reads a file line by line. -/
theorem byLine_pieces (hsize : 2 ≤ size)
    (hnewline : ∀ piece, read (piece ++ ['\n']) = read piece)
    (hnil : read [] = none) (file : List Char) :
    (byLine (pieces size file)).map (List.filterMap read) =
      (file.splitOn '\n').map
        fun line => (pieces size line).filterMap read := by
  induction file using line_induction with
  | last line hline =>
      have hpieces : ∀ piece ∈ pieces size line, '\n' ∉ piece := by
        intro piece hpiece hmem
        apply hline
        rw [← flatten_pieces hsize line]
        exact List.mem_flatten_of_mem hpiece hmem
      rw [byLine_of_forall_notMem hpieces, List.splitOn_eq_singleton hline]
      rfl
  | step line rest hline ih =>
      rw [byLine_pieces_append hsize hline hnewline hnil, ih,
        List.splitOn_append_cons_self_of_not_mem hline, List.map_cons]

end Lines

end LineInput
