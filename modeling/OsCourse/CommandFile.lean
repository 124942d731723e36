/-
The commands that the manager takes from `commands.txt`.  It reads the file through
256 characters and takes two words of each piece, so that a longer line is taken
for several.
-/
import OsCourse.CommandQueue
import OsCourse.LineInput
import OsCourse.ScanWord

namespace OsCourse

namespace CommandFile

open CommandQueue LineInput ScanText DecimalText

section Manager

/-- `strcmp` with the names of the workers. -/
def targetOf (workerName : List Char) : Option WorkerName :=
  if workerName = ['w', 'o', 'r', 'k', 'e', 'r', '1'] then some .worker1
  else if workerName = ['w', 'o', 'r', 'k', 'e', 'r', '2'] then
    some .worker2
  else none

/-- `Parse_signal`; `none` stands for -1. -/
def parseSignal (signalName : List Char) : Option UserSignal :=
  if signalName = ['S', 'I', 'G', 'U', 'S', 'R', '1'] then some .sigusr1
  else if signalName = ['S', 'I', 'G', 'U', 'S', 'R', '2'] then
    some .sigusr2
  else none

/-- What the body of the loop does with a buffer. -/
inductive Outcome where
  | emptyLine
  | notParsed (line : List Char)
  | unknownWorker (workerName : List Char)
  | unknownSignal (signalName : List Char)
  | sent (command : Command)
deriving Repr, DecidableEq

/-- What goes to the error output. -/
def Outcome.error : Outcome → Option String
  | .emptyLine | .sent _ => none
  | .notParsed line =>
      some ("Error parsing line: " ++ String.ofList line ++ "\n")
  | .unknownWorker workerName =>
      some ("Error: Unknown worker '" ++ String.ofList workerName ++ "'\n")
  | .unknownSignal signalName =>
      some ("Error: Unknown signal '" ++ String.ofList signalName ++ "'\n")

def Outcome.command : Outcome → Option Command
  | .sent command => some command
  | _ => none

def loopBody (buffer : List Char) : Outcome :=
  let line := chomp (cString buffer)
  if line.length = 0 then .emptyLine
  else match scanWord 15 line with
  | (none, _) => .notParsed line
  | (some workerName, rest) =>
      match scanWord 15 rest with
      | (none, _) => .notParsed line
      | (some signalName, _) =>
          match targetOf workerName with
          | none => .unknownWorker workerName
          | some worker =>
              match parseSignal signalName with
              | none => .unknownSignal signalName
              | some signal => .sent ⟨worker, signal⟩

/-- What has been sent, and the counter. -/
structure Progress where
  sent : List Command
  commandCount : Nat
deriving Repr, DecidableEq

def Progress.after (progress : Progress) (buffer : List Char) : Progress :=
  match (loopBody buffer).command with
  | none => progress
  | some command => ⟨progress.sent ++ [command], progress.commandCount + 1⟩

/-- The loop over `commands.txt`. -/
def commandLoop (file : List Char) : Progress :=
  (pieces 256 file).foldl Progress.after ⟨[], 0⟩

/-- What is sent while each line is read. -/
def sentByLine (file : List Char) : List (List Command) :=
  (byLine (pieces 256 file)).map
    (List.filterMap fun buffer => (loopBody buffer).command)

end Manager

section Purpose

def commandOfWords (first second : List Char) : Option Command :=
  (targetOf first).bind fun worker =>
    (parseSignal second).map fun signal => ⟨worker, signal⟩

/-- The command that the first two words of a line give. -/
def lineCommand (line : List Char) : Option Command :=
  match words line with
  | first :: second :: _ => commandOfWords first second
  | _ => none

/-- The commands of a file, one for each line that gives one. -/
def commands (file : List Char) : List Command :=
  (file.splitOn '\n').filterMap lineCommand

/-- The manager sends the commands of the file: each line that gives a command has it
sent, and every other line causes no signal. -/
structure ExecutesFile (file : List Char) : Prop where
  sent_eq : (commandLoop file).sent = commands file
  count_eq : (commandLoop file).commandCount = (commands file).length
  byLine_eq : sentByLine file =
    (file.splitOn '\n').map fun line => (lineCommand line).toList

/-- A line that the manager does not mistake.  Where it gives no command, none of its
pieces does.  Where it gives one, its two words are within one piece and no piece
behind that one gives a command; or they are cut, and just one other piece
happens to give the same. -/
def Intact (line : List Char) : Prop :=
  match lineCommand line with
  | none => ∀ index, lineCommand (chunk 255 index line) = none
  | some command =>
      if secondWordEnd line ≤ 255 * (firstWordStart line / 255 + 1) then
        ∀ index, firstWordStart line / 255 < index →
          lineCommand (chunk 255 index line) = none
      else ∃ index, lineCommand (chunk 255 index line) = some command ∧
        ∀ other, other ≠ index →
          lineCommand (chunk 255 other line) = none

end Purpose

section Words

variable {text : List Char}

/-- A name of another length than both is neither of them. -/
theorem strcmp_eq_none {β : Type} {name first second : List Char}
    {value other : β} (hfirst : name.length ≠ first.length)
    (hsecond : name.length ≠ second.length) :
    (if name = first then some value
      else if name = second then some other else none) = none := by
  rw [if_neg fun hname => hfirst (congrArg List.length hname),
    if_neg fun hname => hsecond (congrArg List.length hname)]

theorem targetOf_eq_none {name : List Char} (hlength : name.length ≠ 7) :
    targetOf name = none :=
  strcmp_eq_none hlength hlength

theorem parseSignal_eq_none {name : List Char} (hlength : name.length ≠ 7) :
    parseSignal name = none :=
  strcmp_eq_none hlength hlength

theorem commandOfWords_nil_left (second : List Char) :
    commandOfWords [] second = none := rfl

theorem commandOfWords_nil_right (first : List Char) :
    commandOfWords first [] = none := by
  rw [commandOfWords, parseSignal_eq_none (by decide)]
  cases targetOf first <;> rfl

theorem lineCommand_eq (line : List Char) :
    lineCommand line =
      commandOfWords (word line) (word (afterWord line)) := by
  rw [lineCommand, words_eq]
  by_cases hfirst : word line = []
  · rw [if_pos hfirst, hfirst, commandOfWords_nil_left]
  · rw [if_neg hfirst, words_eq]
    by_cases hsecond : word (afterWord line) = []
    · rw [if_pos hsecond, hsecond, commandOfWords_nil_right]
    · rw [if_neg hsecond]

theorem lineCommand_nil : lineCommand [] = none := rfl

theorem lineCommand_of_forall_isSpace
    (hblanks : ∀ char ∈ text, isSpace char = true) :
    lineCommand text = none := by
  rw [lineCommand, words_of_forall_isSpace hblanks]

theorem word_ne_nil_of_lineCommand {command : Command}
    (hcommand : lineCommand text = some command) :
    word text ≠ [] ∧ word (afterWord text) ≠ [] := by
  rw [lineCommand_eq] at hcommand
  constructor
  · intro hfirst
    rw [hfirst] at hcommand
    cases hcommand
  · intro hsecond
    rw [hsecond, commandOfWords_nil_right] at hcommand
    cases hcommand

/-- The width of the conversions, which may take a word in parts, neither loses nor makes
a command: no part of that width is a name. -/
theorem command_loopBody (buffer : List Char) :
    (loopBody buffer).command = lineCommand (chomp (cString buffer)) := by
  rw [lineCommand_eq, loopBody]
  generalize chomp (cString buffer) = line
  by_cases hempty : line.length = 0
  · rw [if_pos hempty, List.eq_nil_of_length_eq_zero hempty]
    rfl
  rw [if_neg hempty]
  by_cases hfirst : word line = []
  · rw [scanWord_of_word_eq_nil hfirst, hfirst, commandOfWords_nil_left]
    rfl
  by_cases hfits : (word line).length ≤ 15
  · rw [scanWord_of_le hfirst hfits]
    dsimp only
    by_cases hsecond : word (afterWord line) = []
    · rw [scanWord_of_word_eq_nil hsecond, hsecond, commandOfWords_nil_right]
      rfl
    by_cases hwidth : (word (afterWord line)).length ≤ 15
    · rw [scanWord_of_le hsecond hwidth, commandOfWords]
      dsimp only
      cases targetOf (word line) with
      | none => rfl
      | some worker => cases parseSignal (word (afterWord line)) <;> rfl
    · obtain ⟨taken, htaken, hlength⟩ :=
        fst_scanWord_of_lt (Nat.lt_of_not_le hwidth)
      obtain ⟨rest, hscan⟩ : ∃ rest,
          scanWord 15 (afterWord line) = (some taken, rest) :=
        ⟨_, Prod.ext htaken rfl⟩
      have hnone : parseSignal taken = none :=
        parseSignal_eq_none (by omega)
      rw [hscan, commandOfWords, parseSignal_eq_none (by omega)]
      dsimp only
      rw [hnone]
      cases targetOf (word line) <;> rfl
  · obtain ⟨taken, htaken, hlength⟩ :=
      fst_scanWord_of_lt (Nat.lt_of_not_le hfits)
    obtain ⟨rest, hscan⟩ : ∃ rest,
        scanWord 15 line = (some taken, rest) := ⟨_, Prod.ext htaken rfl⟩
    have hnone : targetOf taken = none := targetOf_eq_none (by omega)
    rw [hscan, commandOfWords, targetOf_eq_none (by omega), Option.bind_none]
    dsimp only
    rw [hnone]
    cases hrest : scanWord 15 rest with
    | mk second left => cases second <;> rfl

/-- A line that is cut behind its second word gives the same command. -/
theorem lineCommand_take {count : Nat} {command : Command}
    (hcommand : lineCommand text = some command)
    (hcount : secondWordEnd text ≤ count) :
    lineCommand (text.take count) = some command := by
  obtain ⟨hfirst, hsecond⟩ := word_ne_nil_of_lineCommand hcommand
  obtain ⟨hword, hlater⟩ := words_take hfirst hsecond hcount
  rw [lineCommand_eq, hword, hlater, ← lineCommand_eq, hcommand]

end Words

section Pieces

variable {line : List Char} {command : Command}

/-- Before the piece with the first word there is white space only. -/
theorem lineCommand_chunk_of_lt {index : Nat}
    (hindex : index < firstWordStart line / 255) :
    lineCommand (chunk 255 index line) = none := by
  have hend : 255 * (index + 1) ≤ firstWordStart line := by omega
  refine lineCommand_of_forall_isSpace fun char hchar => ?_
  apply @isSpace_of_mem_blanks line char
  have hblanks : chunk 255 index line =
      chunk 255 index (line.takeWhile isSpace) := by
    rw [firstWordStart] at hend
    calc chunk 255 index line
      _ = chunk 255 index
            (line.takeWhile isSpace ++ line.dropWhile isSpace) := by
          rw [List.takeWhile_append_dropWhile]
      _ = chunk 255 index (line.takeWhile isSpace) := by
          rw [chunk, List.drop_append_of_le_length (by omega),
            List.take_append_of_le_length (by rw [List.length_drop]; omega),
            chunk]
  rw [hblanks] at hchar
  exact List.mem_of_mem_drop (List.mem_of_mem_take hchar)

/-- Two words within one piece are taken from it. -/
theorem lineCommand_chunk_of_le (hcommand : lineCommand line = some command)
    (hend : secondWordEnd line ≤ 255 * (firstWordStart line / 255 + 1)) :
    lineCommand (chunk 255 (firstWordStart line / 255) line) =
      some command := by
  have hstart : 255 * (firstWordStart line / 255) ≤ firstWordStart line :=
    Nat.mul_div_le _ _
  obtain ⟨hword, hafter⟩ := word_drop hstart
  refine lineCommand_take ?_ ?_
  · rw [lineCommand_eq, hword, hafter, ← lineCommand_eq, hcommand]
  · rw [secondWordEnd] at hend
    rw [secondWordEnd, hafter, List.length_drop]
    omega

/-- What the manager takes from a line of its own. -/
theorem filterMap_pieces_line (hline : '\n' ∉ line)
    (hnul : Char.ofNat 0 ∉ line) :
    (pieces 256 line).filterMap (fun buffer => (loopBody buffer).command) =
      (pieces 256 line).filterMap lineCommand := by
  refine List.filterMap_congr fun piece hpiece => ?_
  have hmem : ∀ char ∈ piece, char ∈ line := by
    intro char hchar
    rw [← flatten_pieces (by decide : 2 ≤ 256) line]
    exact List.mem_flatten_of_mem hpiece hchar
  have hstring : cString piece = piece := by
    refine List.takeWhile_eq_self_iff.mpr fun char hchar => ?_
    exact decide_eq_true fun heq => hnul (heq ▸ hmem char hchar)
  have hchomp : chomp piece = piece := by
    refine List.takeWhile_eq_self_iff.mpr fun char hchar => ?_
    exact decide_eq_true fun heq => hline (heq ▸ hmem char hchar)
  rw [command_loopBody, hstring, hchomp]

/-- From a line exactly its command is taken if and only if it is intact. -/
theorem filterMap_pieces_eq_iff_intact (hline : '\n' ∉ line) :
    (pieces 256 line).filterMap lineCommand = (lineCommand line).toList ↔
      Intact line := by
  rw [Intact]
  cases hcommand : lineCommand line with
  | none =>
      exact filterMap_pieces_eq_nil_iff (by decide) hline lineCommand_nil
  | some command =>
      dsimp only
      rw [Option.toList_some, filterMap_pieces_eq_singleton_iff (by decide)
        hline lineCommand_nil]
      split
      · rename_i hend
        have hpiece := lineCommand_chunk_of_le hcommand hend
        constructor
        · rintro ⟨index, -, hothers⟩ other hother
          have hindex : index = firstWordStart line / 255 := by
            by_contra hne
            rw [hothers _ (Ne.symm hne)] at hpiece
            cases hpiece
          exact hothers other (by omega)
        · intro hlater
          refine ⟨_, hpiece, fun other hother => ?_⟩
          rcases Nat.lt_or_gt_of_ne hother with hbefore | hbehind
          · exact lineCommand_chunk_of_lt hbefore
          · exact hlater other hbehind
      · rfl

/-- A line that fits in the buffer is intact. -/
theorem intact_of_length_le (hlength : line.length ≤ 255) : Intact line := by
  have hchunk : ∀ index, 0 < index →
      lineCommand (chunk 255 index line) = none := by
    intro index hindex
    rw [chunk_of_le (by omega), lineCommand_nil]
  rw [Intact]
  cases hcommand : lineCommand line with
  | none =>
      intro index
      cases index with
      | zero => rw [chunk_zero, List.take_of_length_le hlength, hcommand]
      | succ index => exact hchunk _ (Nat.succ_pos index)
  | some command =>
      dsimp only
      have hend : secondWordEnd line ≤
          255 * (firstWordStart line / 255 + 1) := by
        rw [secondWordEnd]
        omega
      rw [if_pos hend]
      exact fun index hindex => hchunk index (Nat.zero_lt_of_lt hindex)

end Pieces

section Files

variable {file : List Char}

theorem foldl_after (progress : Progress) (buffers : List (List Char)) :
    buffers.foldl Progress.after progress =
      ⟨progress.sent ++
          buffers.filterMap fun buffer => (loopBody buffer).command,
        progress.commandCount +
          (buffers.filterMap fun buffer =>
            (loopBody buffer).command).length⟩ := by
  induction buffers generalizing progress with
  | nil => simp
  | cons buffer buffers ih =>
      rw [List.foldl_cons, ih, Progress.after, List.filterMap_cons]
      cases (loopBody buffer).command with
      | none => rfl
      | some command => simp [Nat.add_assoc, Nat.add_comm]

/-- The newline at the end of a piece makes no difference. -/
theorem command_loopBody_append_newline (piece : List Char) :
    (loopBody (piece ++ ['\n'])).command = (loopBody piece).command := by
  rw [command_loopBody, chomp_cString_append_newline, ← command_loopBody]

theorem sent_commandLoop (file : List Char) :
    (commandLoop file).sent = (sentByLine file).flatten := by
  rw [commandLoop, foldl_after, sentByLine, ← List.filterMap_flatten,
    flatten_byLine, List.nil_append]

theorem commandCount_commandLoop (file : List Char) :
    (commandLoop file).commandCount = (commandLoop file).sent.length := by
  rw [commandLoop, foldl_after, List.nil_append, Nat.zero_add]

/-- The manager works line by line. -/
theorem sentByLine_eq (hfile : Char.ofNat 0 ∉ file) :
    sentByLine file = (file.splitOn '\n').map
      fun line => (pieces 256 line).filterMap lineCommand := by
  rw [sentByLine, byLine_pieces (by decide) command_loopBody_append_newline
    rfl]
  refine List.map_congr_left fun line hline => ?_
  obtain ⟨hnewline, hmem⟩ := notMem_and_mem_of_mem_splitOn hline
  exact filterMap_pieces_line hnewline fun hnul => hfile (hmem _ hnul)

theorem executesFile_iff (file : List Char) :
    ExecutesFile file ↔ sentByLine file =
      (file.splitOn '\n').map fun line => (lineCommand line).toList := by
  constructor
  · exact ExecutesFile.byLine_eq
  · intro hlines
    have hsent : (commandLoop file).sent = commands file := by
      rw [sent_commandLoop, hlines, commands, List.filterMap_eq_flatMap_toList]
      rfl
    refine ⟨hsent, ?_, hlines⟩
    rw [commandCount_commandLoop, hsent]

theorem sentByLine_eq_iff (hfile : Char.ofNat 0 ∉ file) :
    sentByLine file =
        (file.splitOn '\n').map (fun line => (lineCommand line).toList) ↔
      ∀ line ∈ file.splitOn '\n', Intact line := by
  rw [sentByLine_eq hfile, List.map_inj_left]
  exact forall₂_congr fun line hline =>
    filterMap_pieces_eq_iff_intact (notMem_and_mem_of_mem_splitOn hline).1

/-- The manager executes a file if and only if each of its lines is intact. -/
theorem executesFile_iff_intact (file : List Char)
    (hfile : Char.ofNat 0 ∉ file) :
    ExecutesFile file ↔ ∀ line ∈ file.splitOn '\n', Intact line := by
  rw [executesFile_iff, sentByLine_eq_iff hfile]

theorem executesFile_readme :
    ExecutesFile "worker1 SIGUSR1\nworker2 SIGUSR2\n".toList := by
  refine (executesFile_iff_intact _ (by decide +kernel)).mpr ?_
  exact fun line hline => intact_of_length_le
    ((by decide +kernel : ∀ line ∈
      "worker1 SIGUSR1\nworker2 SIGUSR2\n".toList.splitOn '\n',
        line.length ≤ 255) line hline)

/-- A long word that ends like a worker. -/
theorem not_executesFile_long_word :
    ¬ ∀ file : List Char, Char.ofNat 0 ∉ file → ExecutesFile file := by
  intro hall
  have hsent := (hall
    (List.replicate 255 'x' ++ "worker1 SIGUSR1".toList)
    (by decide +kernel)).sent_eq
  exact absurd hsent (by decide +kernel)

/-- Lines that fit in the buffer are executed. -/
theorem executesFile_of_length_le (hfile : Char.ofNat 0 ∉ file)
    (hfits : ∀ line ∈ file.splitOn '\n', line.length ≤ 255) :
    ExecutesFile file := by
  rw [executesFile_iff, sentByLine_eq_iff hfile]
  exact fun line hline => intact_of_length_le (hfits line hline)

/-- The manager and the workers then run on the commands of the file. -/
theorem queueOf_commandLoop (hfile : Char.ofNat 0 ∉ file)
    (hfits : ∀ line ∈ file.splitOn '\n', line.length ≤ 255) :
    queueOf (commandLoop file).sent = queueOf (commands file) := by
  rw [(executesFile_of_length_le hfile hfits).sent_eq]

end Files

end CommandFile

end OsCourse
