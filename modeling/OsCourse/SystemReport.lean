/-
The system activity report as a whole: the processors it counts, the utilisation it
computes and what has to succeed before it is written.  The file of the processors is
read through 255 characters, so a long line can be counted in its middle.
-/
import OsCourse.LineInput
import OsCourse.SystemActivity

namespace OsCourse

namespace SystemActivity

open LineInput

section Program

def processorWord : List Char :=
  ['p', 'r', 'o', 'c', 'e', 's', 's', 'o', 'r']

/-- `strncmp(line, "processor", 9) == 0`. -/
def isProcessor (line : List Char) : Bool :=
  processorWord.isPrefixOf line

/-- `num_cores` after the loop over the file. -/
def numCores (cpuinfo : List Char) : Nat :=
  (pieces 256 cpuinfo).countP isProcessor

/-- `utilisation`, first below zero and then above a hundred cut off. -/
def utilisation (uptime idleTime : ℚ) (cores : Nat) : ℚ :=
  let value := (1 - idleTime / (uptime * cores)) * 100
  let value := if value < 0 then 0 else value
  if 100 < value then 100 else value

def pathMax : Nat := 4096

/-- `dirname`: without the last component and the slashes around it. -/
def dirname (path : List Char) : List Char :=
  let stem := path.rdropWhile (· = '/')
  let parent := stem.rdropWhile (· ≠ '/')
  if stem = [] ∧ path ≠ [] then ['/']
  else if parent = [] then ['.']
  else if parent.rdropWhile (· = '/') = [] then ['/']
  else parent.rdropWhile (· = '/')

def reportName : List Char :=
  ['/', 'r', 'e', 'p', 'o', 'r', 't', '.', 't', 'x', 't']

/-- What the calls of `main` find: the two numbers of the uptime file, if it opens and
has them, the text of the file of the processors, the working directory, and whether
the report can be created. -/
structure Host where
  uptime : Option (Option (ℚ × ℚ))
  cpuinfo : Option (List Char)
  cwd : Option (List Char)
  creates : Bool

/-- The ways in which `main` returns 1. -/
inductive Failure where
  | uptimeOpen
  | uptimeParse
  | cpuinfoOpen
  | noProcessors
  | getcwd
  | pathTooLong
  | reportOpen
deriving Repr, DecidableEq

/-- The report.  It has no fields of the uptime that could be told where one of the casts
to `int` is out of range. -/
structure Report where
  path : List Char
  cores : Nat
  uptime : Option Time
  idleTime : ℚ
  utilisation : ℚ

def orFail {α : Type} (value : Option α) (failure : Failure) :
    Except Failure α :=
  value.elim (.error failure) .ok

def require (condition : Prop) [Decidable condition] (failure : Failure) :
    Except Failure Unit :=
  if condition then .ok () else .error failure

def main (host : Host) : Except Failure Report := do
  let numbers ← orFail host.uptime .uptimeOpen
  let (uptime, idleTime) ← orFail numbers .uptimeParse
  let cpuinfo ← orFail host.cpuinfo .cpuinfoOpen
  let cores := numCores cpuinfo
  require (cores ≠ 0) .noProcessors
  let up := convertTime uptime
  -- the fields of the idle time are computed as well, but nothing prints them
  let _idle := convertTime idleTime
  let cwd ← orFail host.cwd .getcwd
  let path := dirname cwd ++ reportName
  require (path.length < pathMax) .pathTooLong
  require (host.creates = true) .reportOpen
  return ⟨path, cores, up, idleTime, utilisation uptime idleTime cores⟩

end Program

section Cores

/-- The lines that begin with the word. -/
def processorLines (cpuinfo : List Char) : Nat :=
  (cpuinfo.splitOn '\n').countP isProcessor

/-- The pieces of a line behind the first one that begin with the word. -/
def strayCount (line : List Char) : Nat :=
  (pieces 256 (line.drop 255)).countP isProcessor

theorem isProcessor_take (line : List Char) :
    isProcessor (line.take 255) = isProcessor line := by
  rw [Bool.eq_iff_iff, isProcessor, isProcessor, List.isPrefixOf_iff_prefix,
    List.isPrefixOf_iff_prefix, List.prefix_take_iff]
  exact and_iff_left (by decide)

theorem isProcessor_append_newline (line : List Char) :
    isProcessor (line ++ ['\n']) = isProcessor line := by
  rw [Bool.eq_iff_iff, isProcessor, isProcessor, List.isPrefixOf_iff_prefix,
    List.isPrefixOf_iff_prefix, List.prefix_concat_iff]
  refine or_iff_right fun hword => ?_
  have hnewline : '\n' ∈ processorWord := by
    rw [hword]
    exact List.mem_append_right _ (List.mem_singleton_self _)
  exact absurd hnewline (by decide)

theorem length_filterMap_guard {α : Type} (test : α → Bool) (items : List α) :
    (items.filterMap fun item => if test item then some () else none).length =
      items.countP test := by
  induction items with
  | nil => rfl
  | cons item items ih =>
      cases htest : test item with
      | true => simp [htest, ih]
      | false => simp [htest, ih]

/-- The pieces of the file are counted line by line. -/
theorem numCores_eq_sum (cpuinfo : List Char) :
    numCores cpuinfo = ((cpuinfo.splitOn '\n').map fun line =>
      (pieces 256 line).countP isProcessor).sum := by
  let read : List Char → Option Unit := fun piece =>
    if isProcessor piece then some () else none
  have hnewline : ∀ piece, read (piece ++ ['\n']) = read piece :=
    fun piece => by simp only [read, isProcessor_append_newline]
  have hlines := byLine_pieces (by decide : 2 ≤ 256) hnewline rfl cpuinfo
  calc numCores cpuinfo =
        ((pieces 256 cpuinfo).filterMap read).length :=
          (length_filterMap_guard isProcessor _).symm
    _ = (((byLine (pieces 256 cpuinfo)).map
          (List.filterMap read)).flatten).length := by
        rw [← List.filterMap_flatten, flatten_byLine]
    _ = _ := by
        rw [hlines, List.length_flatten, List.map_map]
        exact congrArg List.sum (List.map_congr_left fun line _ =>
          length_filterMap_guard isProcessor _)

theorem countP_pieces {line : List Char} (hline : '\n' ∉ line) :
    (pieces 256 line).countP isProcessor =
      (if isProcessor line then 1 else 0) + strayCount line := by
  by_cases hempty : line = []
  · rw [hempty]
    rfl
  · rw [pieces_cons (by decide) hline hempty, List.countP_cons,
      isProcessor_take, Nat.add_comm]
    rfl

/-- Every line that begins with the word is counted, and so is every later piece that
does. -/
theorem numCores_eq (cpuinfo : List Char) :
    numCores cpuinfo = processorLines cpuinfo +
      ((cpuinfo.splitOn '\n').map strayCount).sum := by
  have hlines : ∀ line ∈ cpuinfo.splitOn '\n', '\n' ∉ line :=
    fun line hline => (notMem_and_mem_of_mem_splitOn hline).1
  rw [numCores_eq_sum, processorLines]
  generalize cpuinfo.splitOn '\n' = lines at hlines
  induction lines with
  | nil => rfl
  | cons line lines ih =>
      rw [List.forall_mem_cons] at hlines
      rw [List.map_cons, List.sum_cons, ih hlines.2, countP_pieces hlines.1,
        List.countP_cons, List.map_cons, List.sum_cons]
      omega

/-- A later piece begins with the word where the word stands a multiple of 255
characters behind the beginning of the line. -/
theorem strayCount_eq_zero_iff {line : List Char} (hline : '\n' ∉ line) :
    strayCount line = 0 ↔
      ∀ index, isProcessor (line.drop (255 * (index + 1))) = false := by
  let read : List Char → Option Unit := fun piece =>
    if isProcessor piece then some () else none
  have hdrop : '\n' ∉ line.drop 255 :=
    fun hmem => hline (List.mem_of_mem_drop hmem)
  have hread : ∀ piece, read piece = none ↔ isProcessor piece = false := by
    intro piece
    cases hpiece : isProcessor piece <;> simp [read, hpiece]
  have hpieces : (pieces 256 (line.drop 255)).filterMap read = [] ↔
      ∀ index, read (chunk 255 index (line.drop 255)) = none :=
    filterMap_pieces_eq_nil_iff (by decide) hdrop rfl
  rw [strayCount, ← length_filterMap_guard isProcessor,
    List.length_eq_zero_iff, hpieces]
  refine forall_congr' fun index => ?_
  have hindex : 255 + 255 * index = 255 * (index + 1) := by omega
  rw [hread, chunk, isProcessor_take, List.drop_drop, hindex]

/-- The processors are counted right if and only if the word stands nowhere a multiple of
255 characters behind the beginning of a line, and otherwise there are too many. -/
theorem numCores_eq_processorLines_iff (cpuinfo : List Char) :
    processorLines cpuinfo ≤ numCores cpuinfo ∧
      (numCores cpuinfo = processorLines cpuinfo ↔
        ∀ line ∈ cpuinfo.splitOn '\n', ∀ index,
          isProcessor (line.drop (255 * (index + 1))) = false) := by
  have hstray : (∀ line ∈ cpuinfo.splitOn '\n', strayCount line = 0) ↔
      ∀ line ∈ cpuinfo.splitOn '\n', ∀ index,
        isProcessor (line.drop (255 * (index + 1))) = false :=
    forall₂_congr fun line hline =>
      strayCount_eq_zero_iff (notMem_and_mem_of_mem_splitOn hline).1
  rw [numCores_eq, ← hstray, Nat.add_eq_left, List.sum_eq_zero_iff,
    List.forall_mem_map]
  exact ⟨Nat.le_add_right _ _, Iff.rfl⟩

end Cores

section Report

variable {uptime idleTime : ℚ} {cores : Nat}

/-- Nothing above a hundred has to be cut off, and what is below zero is where the idle
time is more than all the processors had. -/
theorem utilisation_eq (huptime : 0 < uptime) (hidle : 0 ≤ idleTime)
    (hcores : 0 < cores) :
    utilisation uptime idleTime cores =
      if idleTime ≤ uptime * cores then
        100 * (uptime * cores - idleTime) / (uptime * cores)
      else 0 := by
  have htotal : 0 < uptime * cores := by positivity
  have hshare : 0 ≤ idleTime / (uptime * cores) := by positivity
  simp only [utilisation]
  by_cases hle : idleTime ≤ uptime * cores
  · have hsmall : idleTime / (uptime * cores) ≤ 1 := (div_le_one htotal).mpr hle
    have hlow : ¬ (1 - idleTime / (uptime * cores)) * 100 < 0 := by
      rw [not_lt]
      exact mul_nonneg (sub_nonneg.mpr hsmall) (by norm_num)
    have hhigh : ¬ 100 < (1 - idleTime / (uptime * cores)) * 100 := by
      linarith
    rw [if_neg hlow, if_neg hhigh, if_pos hle]
    field_simp
  · have hlarge : 1 < idleTime / (uptime * cores) :=
      (one_lt_div htotal).mpr (not_le.mp hle)
    have hlow : (1 - idleTime / (uptime * cores)) * 100 < 0 := by linarith
    rw [if_pos hlow, if_neg (by norm_num), if_neg hle]

/-- The calls that have to succeed, and the bound within which the report is written. -/
structure Reportable (host : Host) (uptime idleTime : ℚ)
    (cpuinfo cwd : List Char) : Prop where
  numbers : host.uptime = some (some (uptime, idleTime))
  file : host.cpuinfo = some cpuinfo
  found : 0 < numCores cpuinfo
  directory : host.cwd = some cwd
  short : (dirname cwd ++ reportName).length < pathMax
  creates : host.creates = true

/-- What the report says: the uptime only if an `int` holds its seconds, the rest in any
case. -/
structure Describes (report : Report) (uptime idleTime : ℚ)
    (cpuinfo cwd : List Char) : Prop where
  path_eq : report.path = dirname cwd ++ reportName
  cores_eq : report.cores = numCores cpuinfo
  uptime_isSome : report.uptime.isSome ↔ uptime < 2 ^ 31
  uptime_eq : ∀ time ∈ report.uptime, IsDecomposition time ⌊uptime⌋
  idleTime_eq : report.idleTime = idleTime
  utilisation_eq : report.utilisation =
    if idleTime ≤ uptime * numCores cpuinfo then
      100 * (uptime * numCores cpuinfo - idleTime) /
        (uptime * numCores cpuinfo)
    else 0

theorem Describes.unique {first second : Report} {cpuinfo cwd : List Char}
    (hfirst : Describes first uptime idleTime cpuinfo cwd)
    (hsecond : Describes second uptime idleTime cpuinfo cwd) :
    first = second := by
  have huptime : first.uptime = second.uptime := by
    have hsome := hfirst.uptime_isSome.trans hsecond.uptime_isSome.symm
    cases hup : first.uptime with
    | none =>
        rw [hup] at hsome
        exact (Option.not_isSome_iff_eq_none.mp (mt hsome.mpr (by decide))).symm
    | some up =>
        obtain ⟨other, hother⟩ :=
          Option.isSome_iff_exists.mp (hsome.mp (Option.isSome_of_eq_some hup))
        rw [hother, (hfirst.uptime_eq up hup).unique (hsecond.uptime_eq other hother)]
  cases first
  cases second
  rw [Report.mk.injEq]
  exact ⟨hfirst.path_eq.trans hsecond.path_eq.symm,
    hfirst.cores_eq.trans hsecond.cores_eq.symm, huptime,
    hfirst.idleTime_eq.trans hsecond.idleTime_eq.symm,
    hfirst.utilisation_eq.trans hsecond.utilisation_eq.symm⟩

theorem bind_eq_ok_iff {α β : Type} {value : Except Failure α}
    {rest : α → Except Failure β} {result : β} :
    value >>= rest = .ok result ↔
      ∃ found, value = .ok found ∧ rest found = .ok result := by
  cases value <;> simp [bind, Except.bind]

theorem orFail_eq_ok_iff {α : Type} {value : Option α} {failure : Failure}
    {result : α} :
    orFail value failure = .ok result ↔ value = some result := by
  cases value <;> simp [orFail]

theorem require_eq_ok_iff {condition : Prop} [Decidable condition]
    {failure : Failure} {result : Unit} :
    require condition failure = .ok result ↔ condition := by
  by_cases hcondition : condition <;> simp [require, hcondition]

theorem main_of_reportable {host : Host} {cpuinfo cwd : List Char}
    (hhost : Reportable host uptime idleTime cpuinfo cwd)
    (huptime : 0 < uptime) (hidle : 0 ≤ idleTime) :
    ∃ report, main host = .ok report ∧
      Describes report uptime idleTime cpuinfo cwd := by
  refine ⟨⟨dirname cwd ++ reportName, numCores cpuinfo, convertTime uptime, idleTime,
    utilisation uptime idleTime (numCores cpuinfo)⟩, ?_, ?_⟩
  · simp only [main, bind_eq_ok_iff, orFail_eq_ok_iff, require_eq_ok_iff]
    exact ⟨_, hhost.numbers, _, rfl, _, hhost.file, (), hhost.found.ne', _,
      hhost.directory, (), hhost.short, (), hhost.creates, rfl⟩
  · exact ⟨rfl, rfl, convertTime_isSome_iff huptime.le,
      fun _ => convertTime_decomposes huptime.le, rfl,
      utilisation_eq huptime hidle hhost.found⟩

theorem reportable_of_main {host : Host} {report : Report}
    (hmain : main host = .ok report) :
    ∃ uptime idleTime cpuinfo cwd,
      Reportable host uptime idleTime cpuinfo cwd := by
  simp only [main, bind_eq_ok_iff, orFail_eq_ok_iff, require_eq_ok_iff] at hmain
  obtain ⟨_, hnumbers, ⟨uptime, idleTime⟩, rfl, cpuinfo, hfile, _, hfound, cwd,
    hdirectory, _, hshort, _, hcreates, -⟩ := hmain
  exact ⟨uptime, idleTime, cpuinfo, cwd, hnumbers, hfile,
    Nat.pos_of_ne_zero hfound, hdirectory, hshort, hcreates⟩

/-- A report is written exactly if every call succeeds, a processor is found and the path
is short enough; it then says the processors and the utilisation as they are, and the
uptime if an `int` holds its seconds. -/
theorem main_eq_ok_iff {host : Host} {report : Report}
    (htimes : ∀ numbers, host.uptime = some (some numbers) →
      0 < numbers.1 ∧ 0 ≤ numbers.2) :
    main host = .ok report ↔
      ∃ uptime idleTime cpuinfo cwd,
        Reportable host uptime idleTime cpuinfo cwd ∧
          Describes report uptime idleTime cpuinfo cwd := by
  constructor
  · intro hmain
    obtain ⟨uptime, idleTime, cpuinfo, cwd, hhost⟩ :=
      reportable_of_main hmain
    obtain ⟨huptime, hidle⟩ := htimes _ hhost.numbers
    obtain ⟨other, hother, hsays⟩ := main_of_reportable hhost huptime hidle
    cases hmain.symm.trans hother
    exact ⟨uptime, idleTime, cpuinfo, cwd, hhost, hsays⟩
  · rintro ⟨uptime, idleTime, cpuinfo, cwd, hhost, hsays⟩
    obtain ⟨huptime, hidle⟩ := htimes _ hhost.numbers
    obtain ⟨other, hother, hsame⟩ := main_of_reportable hhost huptime hidle
    rw [hother, hsays.unique hsame]

/-- One processor, idle for half of its hundred seconds. -/
def idleHost : Host :=
  ⟨some (some (100, 50)), some (processorWord ++ ['\n']),
    some ['/', 'a', '/', 'b'], true⟩

theorem main_idleHost :
    main idleHost =
      .ok ⟨['/', 'a'] ++ reportName, 1, some ⟨0, 0, 1, 40⟩, 50, 50⟩ := by
  have hfound : numCores (processorWord ++ ['\n']) = 1 := by decide
  have hparent : dirname ['/', 'a', '/', 'b'] = ['/', 'a'] := by decide
  have htimes : ∀ numbers, idleHost.uptime = some (some numbers) →
      0 < numbers.1 ∧ 0 ≤ numbers.2 := by
    intro numbers hnumbers
    cases hnumbers
    norm_num
  refine (main_eq_ok_iff htimes).mpr
    ⟨100, 50, processorWord ++ ['\n'], ['/', 'a', '/', 'b'], ?_, ?_⟩
  · exact ⟨rfl, rfl, hfound ▸ Nat.one_pos, rfl, by rw [hparent]; decide, rfl⟩
  · refine ⟨by rw [hparent], hfound.symm, by norm_num, ?_, rfl, ?_⟩
    · rintro time ⟨⟩
      have hfloor : ⌊(100 : ℚ)⌋ = 100 := by norm_num
      rw [hfloor]
      constructor <;> norm_num
    · rw [hfound]
      norm_num

end Report

end SystemActivity

end OsCourse
