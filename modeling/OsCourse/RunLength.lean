/-
Run-length pairs with a limit on the count, over an arbitrary alphabet: the
expansion of a list of pairs, the canonical lists, the greedy encoder whose
outputs are exactly the canonical lists, and how many pairs a list needs.
-/
import Mathlib.Algebra.Order.Floor.Div
import Mathlib.Data.List.Chain
import Mathlib.Data.List.SplitBy
import Mathlib.GroupTheory.GroupAction.Ring

namespace RunLength

universe u

variable {Symbol : Type u}

/-- The list a sequence of (count, symbol) pairs stands for. -/
def expand (pairs : List (Nat × Symbol)) : List Symbol :=
  pairs.flatMap fun pair => List.replicate pair.1 pair.2

@[simp] theorem expand_nil : expand ([] : List (Nat × Symbol)) = [] := rfl

@[simp] theorem expand_cons (pair : Nat × Symbol)
    (pairs : List (Nat × Symbol)) :
    expand (pair :: pairs) =
      List.replicate pair.1 pair.2 ++ expand pairs := rfl

theorem expand_append (front back : List (Nat × Symbol)) :
    expand (front ++ back) = expand front ++ expand back :=
  List.flatMap_append

/-- No pair is empty or above the limit, and a run is split only at the
limit. -/
structure Canonical (limit : Nat) (pairs : List (Nat × Symbol)) : Prop where
  counts : ∀ pair ∈ pairs, 1 ≤ pair.1 ∧ pair.1 ≤ limit
  splits : pairs.IsChain fun first second =>
    first.2 = second.2 → first.1 = limit

theorem Canonical.nil (limit : Nat) :
    Canonical limit ([] : List (Nat × Symbol)) :=
  ⟨by simp, List.isChain_nil⟩

theorem Canonical.singleton {limit count : Nat} (symbol : Symbol)
    (hpos : 1 ≤ count) (hle : count ≤ limit) :
    Canonical limit [(count, symbol)] :=
  ⟨by simp [hpos, hle], List.isChain_singleton _⟩

theorem Canonical.cons {limit count : Nat} {symbol : Symbol}
    {next : Nat × Symbol} {pairs : List (Nat × Symbol)}
    (hpos : 1 ≤ count) (hle : count ≤ limit)
    (hsplit : symbol = next.2 → count = limit)
    (hrest : Canonical limit (next :: pairs)) :
    Canonical limit ((count, symbol) :: next :: pairs) := by
  constructor
  · intro pair hpair
    rcases List.mem_cons.mp hpair with rfl | hpair
    · exact ⟨hpos, hle⟩
    · exact hrest.counts pair hpair
  · exact List.isChain_cons_cons.mpr ⟨hsplit, hrest.splits⟩

theorem Canonical.tail {limit : Nat} {pair : Nat × Symbol}
    {pairs : List (Nat × Symbol)} (hcanon : Canonical limit (pair :: pairs)) :
    Canonical limit pairs :=
  ⟨fun other hother => hcanon.counts other (List.mem_cons_of_mem pair hother),
    hcanon.splits.tail⟩

/-- A pair is full if the symbols after it go on with its run. -/
theorem Canonical.full_of_expand_eq {limit more : Nat}
    {pair : Nat × Symbol} {pairs : List (Nat × Symbol)}
    {rest : List Symbol} (hcanon : Canonical limit (pair :: pairs))
    (hexpand : expand pairs = List.replicate (more + 1) pair.2 ++ rest) :
    pair.1 = limit := by
  cases pairs with
  | nil => simp [List.replicate_succ] at hexpand
  | cons next pairs =>
      have hnext := hcanon.tail.counts next List.mem_cons_self
      obtain ⟨extra, hextra⟩ := Nat.exists_eq_add_of_le' hnext.1
      rw [expand_cons, hextra, List.replicate_succ, List.replicate_succ,
        List.cons_append, List.cons_append, List.cons.injEq] at hexpand
      exact (List.isChain_cons_cons.mp hcanon.splits).1 hexpand.1.symm

variable [DecidableEq Symbol]

/-- Greedy encoding with a pending pair: extend the pending run while the
symbol repeats and the limit is not reached, otherwise emit it. -/
def encodeFrom (limit : Nat) (count : Nat) (symbol : Symbol) :
    List Symbol → List (Nat × Symbol)
  | [] => [(count, symbol)]
  | next :: rest =>
      if next = symbol ∧ count < limit then
        encodeFrom limit (count + 1) symbol rest
      else (count, symbol) :: encodeFrom limit 1 next rest

def encode (limit : Nat) : List Symbol → List (Nat × Symbol)
  | [] => []
  | symbol :: rest => encodeFrom limit 1 symbol rest

theorem expand_encodeFrom (limit count : Nat) (symbol : Symbol)
    (rest : List Symbol) :
    expand (encodeFrom limit count symbol rest) =
      List.replicate count symbol ++ rest := by
  induction rest generalizing count symbol with
  | nil => simp [encodeFrom]
  | cons next rest ih =>
      by_cases hrun : next = symbol ∧ count < limit
      · rw [encodeFrom, if_pos hrun, ih, hrun.1, List.replicate_succ']
        simp
      · rw [encodeFrom, if_neg hrun, expand_cons, ih]
        simp

theorem expand_encode (limit : Nat) (symbols : List Symbol) :
    expand (encode limit symbols) = symbols := by
  cases symbols with
  | nil => rfl
  | cons symbol rest => simp [encode, expand_encodeFrom]

/-- The first pair extends the pending one. -/
theorem encodeFrom_eq_cons (limit count : Nat) (symbol : Symbol)
    (rest : List Symbol) :
    ∃ total tail, encodeFrom limit count symbol rest =
      (total, symbol) :: tail := by
  induction rest generalizing count with
  | nil => exact ⟨count, [], rfl⟩
  | cons next rest ih =>
      by_cases hrun : next = symbol ∧ count < limit
      · rw [encodeFrom, if_pos hrun]
        exact ih (count + 1)
      · rw [encodeFrom, if_neg hrun]
        exact ⟨count, encodeFrom limit 1 next rest, rfl⟩

theorem canonical_encodeFrom {limit count : Nat} (symbol : Symbol)
    (rest : List Symbol) (hpos : 1 ≤ count) (hle : count ≤ limit) :
    Canonical limit (encodeFrom limit count symbol rest) := by
  induction rest generalizing count symbol with
  | nil => exact Canonical.singleton symbol hpos hle
  | cons next rest ih =>
      by_cases hrun : next = symbol ∧ count < limit
      · rw [encodeFrom, if_pos hrun]
        exact ih symbol (Nat.le_add_left 1 count) hrun.2
      · rw [encodeFrom, if_neg hrun]
        have hrest := ih next (Nat.le_refl 1) (Nat.le_trans hpos hle)
        obtain ⟨total, tail, heq⟩ := encodeFrom_eq_cons limit 1 next rest
        rw [heq] at hrest ⊢
        apply Canonical.cons hpos hle _ hrest
        -- the run was flushed although the symbol repeats: it was full
        intro hsymbol
        have hfull : ¬ count < limit := fun hlt => hrun ⟨hsymbol.symm, hlt⟩
        omega

theorem canonical_encode {limit : Nat} (hlimit : 1 ≤ limit)
    (symbols : List Symbol) : Canonical limit (encode limit symbols) := by
  cases symbols with
  | nil => exact Canonical.nil limit
  | cons symbol rest =>
      exact canonical_encodeFrom symbol rest (Nat.le_refl 1) hlimit

/-- A run that the encoder is in the middle of is counted up to its end. -/
theorem encodeFrom_replicate {limit count : Nat} (symbol : Symbol)
    (missing : Nat) (rest : List Symbol) (hle : count + missing ≤ limit) :
    encodeFrom limit count symbol (List.replicate missing symbol ++ rest) =
      encodeFrom limit (count + missing) symbol rest := by
  induction missing generalizing count with
  | zero => rfl
  | succ missing ih =>
      rw [List.replicate_succ, List.cons_append, encodeFrom,
        if_pos ⟨rfl, by omega⟩, ih (by omega)]
      congr 1
      omega

theorem encodeFrom_expand_tail {limit total : Nat} {symbol : Symbol}
    {tail : List (Nat × Symbol)}
    (hcanon : Canonical limit ((total, symbol) :: tail)) :
    encodeFrom limit total symbol (expand tail) = (total, symbol) :: tail := by
  induction tail generalizing total symbol with
  | nil => rfl
  | cons next tail ih =>
      rcases next with ⟨size, other⟩
      have hrest := hcanon.tail
      have hsize := hrest.counts (size, other) List.mem_cons_self
      have hflush : ¬ (other = symbol ∧ total < limit) := by
        rintro ⟨hsame, hlt⟩
        have hfull : total = limit :=
          (List.isChain_cons_cons.mp hcanon.splits).1 hsame.symm
        omega
      obtain ⟨extra, rfl⟩ := Nat.exists_eq_add_of_le hsize.1
      rw [expand_cons, Nat.add_comm, List.replicate_succ, List.cons_append,
        encodeFrom, if_neg hflush, encodeFrom_replicate other extra _ hsize.2,
        ih hrest, Nat.add_comm]

/-- The encoder gives back every canonical list from its expansion. -/
theorem encode_expand {limit : Nat} {pairs : List (Nat × Symbol)}
    (hcanon : Canonical limit pairs) : encode limit (expand pairs) = pairs := by
  cases pairs with
  | nil => rfl
  | cons pair tail =>
      rcases pair with ⟨total, symbol⟩
      have htotal := hcanon.counts (total, symbol) List.mem_cons_self
      obtain ⟨extra, rfl⟩ := Nat.exists_eq_add_of_le htotal.1
      rw [expand_cons, Nat.add_comm, List.replicate_succ, List.cons_append,
        encode, encodeFrom_replicate symbol extra _ htotal.2,
        Nat.add_comm extra 1, encodeFrom_expand_tail hcanon]

/-- The canonical lists are exactly the outputs of the encoder. -/
theorem canonical_iff_exists_encode {limit : Nat} (hlimit : 1 ≤ limit)
    (pairs : List (Nat × Symbol)) :
    Canonical limit pairs ↔ ∃ symbols, encode limit symbols = pairs := by
  constructor
  · intro hcanon
    exact ⟨expand pairs, encode_expand hcanon⟩
  · rintro ⟨symbols, rfl⟩
    exact canonical_encode hlimit symbols

/-- The maximal runs of equal symbols. -/
def runs (symbols : List Symbol) : List (List Symbol) :=
  symbols.splitBy fun first second => decide (first = second)

/-- The pairs that the maximal runs of a list need, each run on its own. -/
def pairsNeeded (limit : Nat) (symbols : List Symbol) : Nat :=
  ((runs symbols).map fun run => run.length ⌈/⌉ limit).sum

@[simp] theorem pairsNeeded_nil (limit : Nat) :
    pairsNeeded limit ([] : List Symbol) = 0 := rfl

/-- Every list starts with a run of a given symbol, possibly an empty one. -/
theorem exists_leading_run (symbol : Symbol) (symbols : List Symbol) :
    ∃ count rest, symbols = List.replicate count symbol ++ rest ∧
      ∀ next ∈ rest.head?, next ≠ symbol := by
  induction symbols with
  | nil => exact ⟨0, [], rfl, by simp⟩
  | cons first symbols ih =>
      by_cases hfirst : first = symbol
      · obtain ⟨count, rest, rfl, hrest⟩ := ih
        exact ⟨count + 1, rest, by rw [hfirst]; rfl, hrest⟩
      · exact ⟨0, first :: symbols, rfl, by simpa using hfirst⟩

theorem runs_replicate_append {symbol : Symbol} {rest : List Symbol}
    (count : Nat) (hrest : ∀ next ∈ rest.head?, next ≠ symbol) :
    runs (List.replicate (count + 1) symbol ++ rest) =
      List.replicate (count + 1) symbol :: runs rest := by
  have hrun : runs (List.replicate (count + 1) symbol) =
      [List.replicate (count + 1) symbol] := by
    apply List.splitBy_of_isChain
    · simp
    · apply List.isChain_replicate_of_rel
      simp
  have hends : ∀ last ∈ (List.replicate (count + 1) symbol).getLast?,
      ∀ next ∈ rest.head?, decide (last = next) = false := by
    intro last hlast next hnext
    have hsymbol : last = symbol :=
      List.eq_of_mem_replicate (List.mem_of_getLast? hlast)
    rw [hsymbol, decide_eq_false_iff_not]
    exact fun heq => hrest next hnext heq.symm
  unfold runs at hrun ⊢
  rw [List.splitBy_append hends, hrun]
  rfl

/-- A leading run is paid for on its own. -/
theorem pairsNeeded_replicate_append {limit : Nat} {symbol : Symbol}
    {rest : List Symbol} (count : Nat)
    (hrest : ∀ next ∈ rest.head?, next ≠ symbol) :
    pairsNeeded limit (List.replicate count symbol ++ rest) =
      count ⌈/⌉ limit + pairsNeeded limit rest := by
  cases count with
  | zero => simp
  | succ count =>
      unfold pairsNeeded
      rw [runs_replicate_append count hrest, List.map_cons, List.sum_cons,
        List.length_replicate]

theorem ceilDiv_add_le {limit count : Nat} (hcount : count ≤ limit)
    (hlimit : 1 ≤ limit) (more : Nat) :
    (count + more) ⌈/⌉ limit ≤ 1 + more ⌈/⌉ limit := by
  have hmore : more ≤ limit * (more ⌈/⌉ limit) :=
    (ceilDiv_le_iff_le_mul hlimit).mp (Nat.le_refl _)
  rw [ceilDiv_le_iff_le_mul hlimit, Nat.mul_add, Nat.mul_one]
  exact Nat.add_le_add hcount hmore

theorem ceilDiv_eq_one {limit count : Nat} (hpos : 1 ≤ count)
    (hcount : count ≤ limit) : count ⌈/⌉ limit = 1 := by
  have hlimit : 1 ≤ limit := Nat.le_trans hpos hcount
  apply Nat.le_antisymm
  · rw [ceilDiv_le_iff_le_mul hlimit, Nat.mul_one]
    exact hcount
  · apply Nat.pos_of_ne_zero
    intro hzero
    have hle := (ceilDiv_le_iff_le_mul hlimit).mp (Nat.le_of_eq hzero)
    omega

theorem ceilDiv_full_add {limit : Nat} (hlimit : 1 ≤ limit) (more : Nat) :
    (limit + more) ⌈/⌉ limit = more ⌈/⌉ limit + 1 := by
  have hshift : limit + more + limit - 1 = limit + (more + limit - 1) := by
    omega
  rw [Nat.ceilDiv_eq_add_pred_div, Nat.ceilDiv_eq_add_pred_div, hshift,
    Nat.add_div_left _ hlimit]

/-- Prepending the symbols of one pair needs at most one pair more. -/
theorem pairsNeeded_expand_cons_le {limit count : Nat} (symbol : Symbol)
    (rest : List Symbol) (hcount : count ≤ limit) (hlimit : 1 ≤ limit) :
    pairsNeeded limit (List.replicate count symbol ++ rest) ≤
      1 + pairsNeeded limit rest := by
  obtain ⟨more, tail, rfl, htail⟩ := exists_leading_run symbol rest
  rw [← List.append_assoc, List.replicate_append_replicate,
    pairsNeeded_replicate_append _ htail,
    pairsNeeded_replicate_append _ htail]
  have := ceilDiv_add_le hcount hlimit more
  omega

/-- No list of pairs within the limit stands for its expansion with fewer pairs
than the runs of the expansion need. -/
theorem pairsNeeded_expand_le {limit : Nat} {pairs : List (Nat × Symbol)}
    (hlimit : 1 ≤ limit) (hcounts : ∀ pair ∈ pairs, pair.1 ≤ limit) :
    pairsNeeded limit (expand pairs) ≤ pairs.length := by
  induction pairs with
  | nil => exact Nat.le_refl 0
  | cons pair pairs ih =>
      have hrest := ih fun other hother =>
        hcounts other (List.mem_cons_of_mem pair hother)
      have hfirst := pairsNeeded_expand_cons_le pair.2 (expand pairs)
        (hcounts pair List.mem_cons_self) hlimit
      rw [expand_cons, List.length_cons]
      omega

/-- Canonical lists meet the bound: a run is split only where a pair is full. -/
theorem pairsNeeded_expand_of_canonical {limit : Nat}
    {pairs : List (Nat × Symbol)} (hcanon : Canonical limit pairs) :
    pairsNeeded limit (expand pairs) = pairs.length := by
  induction pairs with
  | nil => rfl
  | cons pair pairs ih =>
      have hpair := hcanon.counts pair List.mem_cons_self
      have hlimit : 1 ≤ limit := Nat.le_trans hpair.1 hpair.2
      obtain ⟨more, tail, hsplit, htail⟩ :=
        exists_leading_run pair.2 (expand pairs)
      have hrest := ih hcanon.tail
      rw [hsplit, pairsNeeded_replicate_append _ htail] at hrest
      rw [expand_cons, hsplit, ← List.append_assoc,
        List.replicate_append_replicate, pairsNeeded_replicate_append _ htail,
        List.length_cons, ← hrest]
      cases more with
      | zero =>
          rw [Nat.add_zero, ceilDiv_eq_one hpair.1 hpair.2, zero_ceilDiv]
          omega
      | succ more =>
          rw [hcanon.full_of_expand_eq hsplit, ceilDiv_full_add hlimit]
          omega

/-- The greedy encoder uses as many pairs as the runs need. -/
theorem encode_length {limit : Nat} (hlimit : 1 ≤ limit)
    (symbols : List Symbol) :
    (encode limit symbols).length = pairsNeeded limit symbols := by
  rw [← pairsNeeded_expand_of_canonical (canonical_encode hlimit symbols),
    expand_encode]

end RunLength
