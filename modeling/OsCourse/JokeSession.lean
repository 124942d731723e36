/-
The joke homework: `main` tells three jokes and asks after each of them for the number of
a punchline, until a number from 1 to 5 is typed.
-/
import OsCourse.ScanLines

namespace OsCourse

namespace JokeSession

open ScanText

section Program

def invalidNumber : String :=
  "Invalid number. Please enter a number between 1 and 5.\n"

def prompt : String :=
  "Enter the number (1-5) for the punchline: "

def tellJoke (jokeNumber : Int) : String :=
  if jokeNumber = 1 then "Do you know why the programmer quit his job?\n"
  else if jokeNumber = 2 then
    "Do you know why C is a good language for kids?\n"
  else if jokeNumber = 3 then "Do you know why the computer was cold?\n"
  else if jokeNumber = 4 then "Do you know why computers are so smart?\n"
  else if jokeNumber = 5 then "Do you know why a byte got married?\n"
  else invalidNumber

def givePunchline (punchlineNumber : Int) : String :=
  if punchlineNumber = 1 then "Because he didn't get arrays.\n"
  else if punchlineNumber = 2 then "Because it's easy to C!\n"
  else if punchlineNumber = 3 then "Because it left its Windows open.\n"
  else if punchlineNumber = 4 then
    "Because they listen to their motherboards.\n"
  else if punchlineNumber = 5 then
    "Because it needed to be converted into a gig-abyte.\n"
  else invalidNumber

/-- One joke: what was typed before the answer, with `none` for text, and the answer. -/
structure Exchange where
  jokeNum : Int
  rejected : List (Option Int)
  answer : Int
deriving Repr, DecidableEq

/-- `while (1)` of `main` for a number of turns: what is rejected, the answer and the rest
of the input.  At the end of the input `discardLine` has no result. -/
def askLoop : (turns : Nat) → List Char →
    Option (List (Option Int) × Int × List Char)
  | 0, _ => none
  | turns + 1, stdin =>
      match scanInt stdin with
      | (none, rest) => do
          let rest ← discardLine rest
          let (rejected, answer, rest) ← askLoop turns rest
          return (none :: rejected, answer, rest)
      | (some answer, rest) =>
          if answer < 1 ∨ answer > 5 then do
            let (rejected, last, rest) ← askLoop turns rest
            return (some answer :: rejected, last, rest)
          else some ([], answer, rest)

/-- The `for` loop of `main`, for the given values of `rand()`. -/
def jokeLoop (turns : Nat) : (rands : List Nat) → List Char →
    Option (List Exchange)
  | [], _ => some []
  | rand :: rands, stdin => do
      let (rejected, answer, rest) ← askLoop turns stdin
      let later ← jokeLoop turns rands rest
      return ⟨(rand % 5 : Nat) + 1, rejected, answer⟩ :: later

def Exchange.printed (exchange : Exchange) : String :=
  tellJoke exchange.jokeNum ++
    String.join (exchange.rejected.map fun _ => prompt ++ invalidNumber) ++
    prompt ++ givePunchline exchange.answer ++ "\n"

/-- `main`, if it ends within the given number of turns for each joke: its exchanges and
what it prints. -/
def main (turns : Nat) (first second third : Nat) (stdin : List Char) :
    Option (List Exchange × String) := do
  let exchanges ← jokeLoop turns [first, second, third] stdin
  return (exchanges, String.join (exchanges.map Exchange.printed))

end Program

section Entries

/-- What the program takes as an answer. -/
def accepted : Option Int → Bool
  | none => false
  | some answer => 1 ≤ answer && answer ≤ 5

/-- The entries of an exchange end with the first one that is accepted. -/
structure Exchange.Valid (exchange : Exchange) : Prop where
  answered : accepted (some exchange.answer) = true
  rejects : ∀ entry ∈ exchange.rejected, accepted entry = false

def Exchange.typed (exchange : Exchange) : List (Option Int) :=
  exchange.rejected ++ [some exchange.answer]

variable {turns : Nat} {stdin rest : List Char} {answer : Int}
  {rejected later : List (Option Int)}

theorem accepted_some :
    accepted (some answer) = true ↔ ¬ (answer < 1 ∨ answer > 5) := by
  simp [accepted, not_or]

/-- The result of a turn that rejects an entry. -/
def prepend (entry : Option Int) :
    List (Option Int) × Int × List Char →
      List (Option Int) × Int × List Char
  | (rejected, answer, rest) => (entry :: rejected, answer, rest)

/-- One turn: the first entry is taken or rejected, or there is nothing to take any
more. -/
theorem askLoop_succ (turns : Nat) (stdin : List Char) :
    (∃ answer rest, entries stdin = some answer :: entries rest ∧
      rest.length < stdin.length ∧ accepted (some answer) = true ∧
      askLoop (turns + 1) stdin = some ([], answer, rest)) ∨
    (∃ entry rest, entries stdin = entry :: entries rest ∧
      rest.length < stdin.length ∧ accepted entry = false ∧
      askLoop (turns + 1) stdin = (askLoop turns rest).map (prepend entry)) ∨
    ((∀ entry ∈ entries stdin, accepted entry = false) ∧
      askLoop (turns + 1) stdin = none) := by
  rcases entries_scanInt stdin with
    ⟨value, rest, hscan, hentries⟩ |
    ⟨left, rest, hscan, hdiscard, hentries⟩ |
    ⟨left, hscan, hdiscard, hentries⟩
  · have hlength := length_of_scanInt hscan
    by_cases hrange : value < 1 ∨ value > 5
    · refine .inr (.inl ⟨some value, rest, hentries, hlength, ?_, ?_⟩)
      · rw [← Bool.not_eq_true, accepted_some, not_not]
        exact hrange
      · rw [askLoop, hscan]
        simp only [if_pos hrange]
        cases askLoop turns rest <;> rfl
    · refine .inl ⟨value, rest, hentries, hlength,
        accepted_some.mpr hrange, ?_⟩
      rw [askLoop, hscan]
      simp only [if_neg hrange]
  · refine .inr (.inl ⟨none, rest, hentries, ?_, rfl, ?_⟩)
    · have hleft := length_scanInt stdin
      rw [hscan] at hleft
      exact (length_discardLine hdiscard).trans_le
        ((Nat.le_add_left _ _).trans hleft)
    · rw [askLoop, hscan]
      simp only [hdiscard, Option.bind_eq_bind, Option.bind_some]
      cases askLoop turns rest <;> rfl
  · refine .inr (.inr ⟨?_, ?_⟩)
    · intro entry hentry
      rw [hentries entry hentry]
      rfl
    · rw [askLoop, hscan]
      simp only [hdiscard]
      rfl

/-- A loop that ends leaves the entries behind the first one that it accepts. -/
theorem entries_askLoop
    (hask : askLoop turns stdin = some (rejected, answer, rest)) :
    entries stdin = rejected ++ some answer :: entries rest ∧
      accepted (some answer) = true ∧
      ∀ entry ∈ rejected, accepted entry = false := by
  induction turns generalizing stdin rejected with
  | zero => cases hask
  | succ turns ih =>
      rcases askLoop_succ turns stdin with
        ⟨value, more, hentries, -, haccepted, hturn⟩ |
        ⟨entry, more, hentries, -, hrejected, hturn⟩ | ⟨-, hturn⟩
      · rw [hturn] at hask
        cases hask
        exact ⟨hentries, haccepted, List.forall_mem_nil _⟩
      · rw [hturn, Option.map_eq_some_iff] at hask
        obtain ⟨⟨others, last, left⟩, hothers, heq⟩ := hask
        cases heq
        obtain ⟨hmore, haccepted, hothers⟩ := ih hothers
        rw [hentries, hmore]
        exact ⟨rfl, haccepted, List.forall_mem_cons.mpr ⟨hrejected, hothers⟩⟩
      · rw [hturn] at hask
        cases hask

/-- With an entry that is accepted, the loop ends. -/
theorem askLoop_entries (hturns : stdin.length < turns)
    (hentries : entries stdin = rejected ++ some answer :: later)
    (haccepted : accepted (some answer) = true)
    (hrejected : ∀ entry ∈ rejected, accepted entry = false) :
    ∃ rest, askLoop turns stdin = some (rejected, answer, rest) ∧
      rest.length < stdin.length ∧ entries rest = later := by
  induction turns generalizing stdin rejected with
  | zero => exact absurd hturns (Nat.not_lt_zero _)
  | succ turns ih =>
      rcases askLoop_succ turns stdin with
        ⟨value, more, hfirst, hlength, hvalue, hturn⟩ |
        ⟨entry, more, hfirst, hlength, hentry, hturn⟩ | ⟨hnone, -⟩
      · rw [hfirst] at hentries
        cases rejected with
        | nil =>
            cases hentries
            exact ⟨more, hturn, hlength, rfl⟩
        | cons entry rejected =>
            rw [List.cons_append, List.cons.injEq] at hentries
            have hentry := hrejected entry List.mem_cons_self
            rw [← hentries.1, hvalue] at hentry
            cases hentry
      · rw [hfirst] at hentries
        cases rejected with
        | nil =>
            cases hentries
            rw [haccepted] at hentry
            cases hentry
        | cons other rejected =>
            rw [List.cons_append, List.cons.injEq] at hentries
            obtain ⟨rfl, hmore⟩ := hentries
            obtain ⟨rest, hask, hshort, hrest⟩ := ih (by omega) hmore
              (List.forall_mem_cons.mp hrejected).2
            refine ⟨rest, ?_, hshort.trans hlength, hrest⟩
            rw [hturn, hask]
            rfl
      · have hmem : some answer ∈ entries stdin := by
          rw [hentries]
          exact List.mem_append_right _ List.mem_cons_self
        rw [hnone _ hmem] at haccepted
        cases haccepted

end Entries

section Sessions

variable {turns : Nat} {stdin : List Char} {rands : List Nat}
  {exchanges : List Exchange}

/-- A session over some entries, which may go on behind it. -/
structure Session (rands : List Nat) (offered : List (Option Int))
    (exchanges : List Exchange) : Prop where
  jokes : exchanges.map Exchange.jokeNum =
    rands.map fun rand => ((rand % 5 : Nat) + 1 : Int)
  valid : ∀ exchange ∈ exchanges, exchange.Valid
  typed : exchanges.flatMap Exchange.typed <+: offered

theorem session_nil {offered : List (Option Int)} :
    Session [] offered exchanges ↔ exchanges = [] := by
  constructor
  · exact fun hsession => List.map_eq_nil_iff.mp hsession.jokes
  · rintro rfl
    exact ⟨rfl, List.forall_mem_nil _, List.nil_prefix⟩

/-- The exchange about the first joke, and a session behind it. -/
theorem session_cons {rand : Nat} {offered : List (Option Int)} :
    Session (rand :: rands) offered exchanges ↔
      ∃ exchange others later, exchanges = exchange :: others ∧
        exchange.jokeNum = (rand % 5 : Nat) + 1 ∧ exchange.Valid ∧
        offered = exchange.typed ++ later ∧ Session rands later others := by
  constructor
  · rintro ⟨hjokes, hvalid, later, hlater⟩
    cases exchanges with
    | nil => cases hjokes
    | cons exchange others =>
        rw [List.map_cons, List.map_cons, List.cons.injEq] at hjokes
        rw [List.forall_mem_cons] at hvalid
        rw [List.flatMap_cons, List.append_assoc] at hlater
        exact ⟨exchange, others, _, rfl, hjokes.1, hvalid.1, hlater.symm,
          hjokes.2, hvalid.2, List.prefix_append _ _⟩
  · rintro ⟨exchange, others, later, rfl, hjoke, hexchange, rfl,
      hjokes, hvalid, htyped⟩
    refine ⟨?_, List.forall_mem_cons.mpr ⟨hexchange, hvalid⟩, ?_⟩
    · rw [List.map_cons, List.map_cons, hjoke, hjokes]
    · rw [List.flatMap_cons]
      exact (List.prefix_append_right_inj _).mpr htyped

theorem session_of_jokeLoop (hloop : jokeLoop turns rands stdin = some exchanges) :
    Session rands (entries stdin) exchanges := by
  induction rands generalizing stdin exchanges with
  | nil =>
      cases hloop
      exact session_nil.mpr rfl
  | cons rand rands ih =>
      rw [jokeLoop, Option.bind_eq_bind, Option.bind_eq_some_iff] at hloop
      obtain ⟨⟨rejected, answer, rest⟩, hask, hloop⟩ := hloop
      simp only [Option.bind_eq_bind, Option.bind_eq_some_iff] at hloop
      obtain ⟨later, hlater, heq⟩ := hloop
      cases heq
      obtain ⟨hentries, hanswer, hrejected⟩ := entries_askLoop hask
      refine session_cons.mpr ⟨_, later, entries rest, rfl, rfl,
        ⟨hanswer, hrejected⟩, ?_, ih hlater⟩
      rw [hentries, Exchange.typed, List.append_assoc, List.singleton_append]

theorem jokeLoop_of_session (hturns : stdin.length < turns)
    (hsession : Session rands (entries stdin) exchanges) :
    jokeLoop turns rands stdin = some exchanges := by
  induction rands generalizing stdin exchanges with
  | nil => rw [session_nil.mp hsession, jokeLoop]
  | cons rand rands ih =>
      obtain ⟨exchange, others, later, rfl, hjoke, hvalid, hentries, hothers⟩ :=
        session_cons.mp hsession
      rw [Exchange.typed, List.append_assoc, List.singleton_append] at hentries
      obtain ⟨rest, hask, hlength, hrest⟩ := askLoop_entries hturns hentries
        hvalid.answered hvalid.rejects
      rw [← hrest] at hothers
      have hloop := ih (hlength.trans hturns) hothers
      rw [jokeLoop, hask]
      simp only [Option.bind_eq_bind, Option.bind_some, hloop, ← hjoke]
      rfl

/-- There is a session exactly if enough entries are accepted. -/
theorem exists_session_iff {offered : List (Option Int)} :
    (∃ exchanges, Session rands offered exchanges) ↔
      rands.length ≤ offered.countP accepted := by
  induction rands generalizing offered with
  | nil => simp [session_nil]
  | cons rand rands ih =>
      constructor
      · rintro ⟨exchanges, hsession⟩
        obtain ⟨exchange, others, later, -, -, hvalid, rfl, hothers⟩ :=
          session_cons.mp hsession
        have hlater := ih.mp ⟨others, hothers⟩
        have hone : (exchange.typed).countP accepted = 1 := by
          rw [Exchange.typed, List.countP_append, List.countP_singleton,
            if_pos hvalid.answered, List.countP_eq_zero.mpr]
          simpa using hvalid.rejects
        rw [List.countP_append, hone, List.length_cons]
        omega
      · intro hcount
        have hpos : 0 < offered.countP accepted := by
          rw [List.length_cons] at hcount
          omega
        obtain ⟨entry, hentry, haccepted⟩ := List.countP_pos_iff.mp hpos
        obtain ⟨found, hfound⟩ := Option.isSome_iff_exists.mp
          (List.find?_isSome.mpr ⟨entry, hentry, haccepted⟩)
        obtain ⟨hanswer, rejected, later, rfl, hrejected⟩ :=
          List.find?_eq_some_iff_append.mp hfound
        cases found with
        | none => cases hanswer
        | some answer =>
            have hnone : rejected.countP accepted = 0 :=
              List.countP_eq_zero.mpr (by simpa using hrejected)
            rw [List.countP_append, hnone, List.countP_cons_of_pos hanswer,
              List.length_cons] at hcount
            obtain ⟨others, hothers⟩ := (@ih later).mpr (by omega)
            refine ⟨_, session_cons.mpr
              ⟨⟨(rand % 5 : Nat) + 1, rejected, answer⟩, others, later, rfl,
                rfl, ⟨hanswer, by simpa using hrejected⟩, ?_, hothers⟩⟩
            rw [Exchange.typed, List.append_assoc, List.singleton_append]

theorem main_eq_some_iff {first second third : Nat} {printed : String} :
    main turns first second third stdin = some (exchanges, printed) ↔
      jokeLoop turns [first, second, third] stdin = some exchanges ∧
        String.join (exchanges.map Exchange.printed) = printed := by
  rw [main]
  cases jokeLoop turns [first, second, third] stdin with
  | none => simp
  | some found =>
      simp only [Option.bind_eq_bind, Option.bind_some, Option.pure_def,
        Option.some.injEq, Prod.mk.injEq]
      constructor
      · rintro ⟨rfl, hprinted⟩
        exact ⟨rfl, hprinted⟩
      · rintro ⟨rfl, hprinted⟩
        exact ⟨rfl, hprinted⟩

/-- Every number that is told or accepted has its own texts. -/
theorem ne_invalidNumber {number : Int} (hlow : 1 ≤ number)
    (hhigh : number ≤ 5) :
    tellJoke number ≠ invalidNumber ∧
      givePunchline number ≠ invalidNumber := by
  have hcases : number = 1 ∨ number = 2 ∨ number = 3 ∨ number = 4 ∨
      number = 5 := by omega
  rcases hcases with rfl | rfl | rfl | rfl | rfl <;> decide

theorem Session.texts {offered : List (Option Int)} {exchange : Exchange}
    (hsession : Session rands offered exchanges)
    (hexchange : exchange ∈ exchanges) :
    tellJoke exchange.jokeNum ≠ invalidNumber ∧
      givePunchline exchange.answer ≠ invalidNumber := by
  have hjoke : exchange.jokeNum ∈ exchanges.map Exchange.jokeNum :=
    List.mem_map_of_mem hexchange
  rw [hsession.jokes, List.mem_map] at hjoke
  obtain ⟨rand, -, hrand⟩ := hjoke
  have hanswer := accepted_some.mp (hsession.valid exchange hexchange).answered
  exact ⟨(ne_invalidNumber (by omega) (by omega)).1,
    (ne_invalidNumber (by omega) (by omega)).2⟩

/-- The program ends with these exchanges exactly if they are a session over what the
lines of its input offer; it ends exactly if three entries are accepted, and prints no
joke and no punchline but the five. -/
theorem main_iff (first second third : Nat) (stdin : List Char) :
    (∀ exchanges,
      (∃ turns printed,
        main turns first second third stdin = some (exchanges, printed)) ↔
        Session [first, second, third] (entries stdin) exchanges) ∧
    ((∃ turns result, main turns first second third stdin = some result) ↔
      3 ≤ (entries stdin).countP accepted) ∧
    ∀ turns exchanges printed,
      main turns first second third stdin = some (exchanges, printed) →
      ∀ exchange ∈ exchanges,
        tellJoke exchange.jokeNum ≠ invalidNumber ∧
          givePunchline exchange.answer ≠ invalidNumber := by
  have hiff : ∀ exchanges, (∃ turns printed,
      main turns first second third stdin = some (exchanges, printed)) ↔
        Session [first, second, third] (entries stdin) exchanges := by
    intro exchanges
    constructor
    · rintro ⟨turns, printed, hmain⟩
      exact session_of_jokeLoop (main_eq_some_iff.mp hmain).1
    · intro hsession
      have hloop := jokeLoop_of_session (Nat.lt_succ_self _) hsession
      exact ⟨_, _, main_eq_some_iff.mpr ⟨hloop, rfl⟩⟩
  refine ⟨hiff, ?_, ?_⟩
  · refine Iff.trans ?_
      (@exists_session_iff [first, second, third] (entries stdin))
    constructor
    · rintro ⟨turns, ⟨exchanges, printed⟩, hmain⟩
      exact ⟨exchanges, (hiff exchanges).mp ⟨turns, printed, hmain⟩⟩
    · rintro ⟨exchanges, hsession⟩
      obtain ⟨turns, printed, hmain⟩ := (hiff exchanges).mpr hsession
      exact ⟨turns, (exchanges, printed), hmain⟩
  · intro turns exchanges printed hmain exchange hexchange
    exact (session_of_jokeLoop (main_eq_some_iff.mp hmain).1).texts hexchange

end Sessions

end JokeSession

end OsCourse
