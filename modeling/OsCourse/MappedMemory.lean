/-
Address spaces with mapped ranges.  A mapping replaces what its range held, so that
the last block that covers an address says what the address holds.
-/
import Mathlib.Data.List.Basic

namespace MappedMemory

/-- What each address holds.  No address from `limit` on is ever mapped. -/
structure Space (Cell : Type) (limit : Nat) where
  cells : Nat → Option Cell
  unmapped : ∀ address, limit ≤ address → cells address = none

/-- The addresses from `start` on, `length` of them. -/
def Covers (start length address : Nat) : Prop :=
  start ≤ address ∧ address < start + length

instance (start length address : Nat) :
    Decidable (Covers start length address) :=
  inferInstanceAs (Decidable (_ ∧ _))

namespace Space

variable {Cell : Type} {limit : Nat}

/-- Cells that change below the limit only. -/
def change (space : Space Cell limit) (cells : Nat → Option Cell)
    (hcells : ∀ address, limit ≤ address →
      cells address = space.cells address) : Space Cell limit where
  cells := cells
  unmapped address hlimit :=
    (hcells address hlimit).trans (space.unmapped address hlimit)

/-- A new mapping of blank cells; what it covers is lost. -/
def map (space : Space Cell limit) (blank : Cell) (start length : Nat)
    (hfits : start + length ≤ limit) : Space Cell limit :=
  space.change
    (fun address =>
      if Covers start length address then some blank
      else space.cells address)
    fun _ hlimit => if_neg fun hcovers =>
      absurd hcovers.2 (Nat.not_lt.mpr (Nat.le_trans hfits hlimit))

def unmap (space : Space Cell limit) (start length : Nat) :
    Space Cell limit where
  cells address :=
    if Covers start length address then none else space.cells address
  unmapped address hlimit :=
    (congrArg (ite _ none) (space.unmapped address hlimit)).trans
      (ite_self none)

/-- A store faults where nothing is mapped. -/
def store (space : Space Cell limit) (target : Nat) (cell : Cell) :
    Option (Space Cell limit) :=
  if htarget : target < limit ∧ (space.cells target).isSome = true then
    some (space.change
      (fun address =>
        if address = target then some cell else space.cells address)
      fun address hlimit => if_neg fun hsame : address = target =>
        absurd htarget.1 (Nat.not_lt.mpr (hsame ▸ hlimit)))
  else none

/-- No address of the range is mapped. -/
def Free (space : Space Cell limit) (start length : Nat) : Prop :=
  ∀ address, Covers start length address → space.cells address = none

variable {space : Space Cell limit} {blank : Cell}
  {start length address target : Nat} {hfits : start + length ≤ limit}

theorem cells_map :
    (space.map blank start length hfits).cells address =
      if Covers start length address then some blank
      else space.cells address := rfl

theorem store_of_mapped (cell : Cell) {old : Cell}
    (hmapped : space.cells target = some old) :
    ∃ next, space.store target cell = some next ∧
      ∀ address, next.cells address =
        if address = target then some cell else space.cells address := by
  have hbelow : target < limit := by
    by_contra hlimit
    rw [space.unmapped target (Nat.not_lt.mp hlimit)] at hmapped
    cases hmapped
  have htarget : (space.cells target).isSome = true :=
    Option.isSome_of_eq_some hmapped
  rw [store, dif_pos ⟨hbelow, htarget⟩]
  exact ⟨_, rfl, fun _ => rfl⟩

end Space

section Blocks

variable {Cell : Type} {limit : Nat}

/-- A mapping whose first cell is stored. -/
structure Block (Cell : Type) (limit : Nat) where
  start : Nat
  length : Nat
  first : Cell
  fits : start + length ≤ limit
  pos : 0 < length

def Block.Covers (block : Block Cell limit) (address : Nat) : Prop :=
  MappedMemory.Covers block.start block.length address

instance (block : Block Cell limit) (address : Nat) :
    Decidable (block.Covers address) :=
  inferInstanceAs (Decidable (MappedMemory.Covers _ _ _))

theorem Block.covers_start (block : Block Cell limit) :
    block.Covers block.start :=
  ⟨Nat.le_refl _, Nat.lt_add_of_pos_right block.pos⟩

/-- What the block puts at an address that it covers. -/
def Block.content (block : Block Cell limit) (blank : Cell) (address : Nat) :
    Cell :=
  if address = block.start then block.first else blank

/-- The last block that covers the address. -/
def lastCover (blocks : List (Block Cell limit)) (address : Nat) :
    Option (Block Cell limit) :=
  blocks.reverse.find? fun block => decide (block.Covers address)

namespace Space

/-- Map a block and store its first cell. -/
def place (blank : Cell) (space : Space Cell limit)
    (block : Block Cell limit) : Option (Space Cell limit) :=
  (space.map blank block.start block.length block.fits).store block.start
    block.first

def placeAll (blank : Cell) (space : Space Cell limit)
    (blocks : List (Block Cell limit)) : Option (Space Cell limit) :=
  blocks.foldlM (place blank) space

def remove (space : Space Cell limit) (block : Block Cell limit) :
    Space Cell limit :=
  space.unmap block.start block.length

def removeAll (space : Space Cell limit) (blocks : List (Block Cell limit)) :
    Space Cell limit :=
  blocks.foldl remove space

variable {blank : Cell} {space final : Space Cell limit}
  {block : Block Cell limit} {blocks : List (Block Cell limit)}

theorem place_spec (blank : Cell) (space : Space Cell limit)
    (block : Block Cell limit) :
    ∃ next, space.place blank block = some next ∧
      ∀ address, next.cells address =
        if block.Covers address then some (block.content blank address)
        else space.cells address := by
  have hstart := block.covers_start
  have hmapped : (space.map blank block.start block.length
      block.fits).cells block.start = some blank := if_pos hstart
  obtain ⟨next, hnext, hcells⟩ := store_of_mapped block.first hmapped
  refine ⟨next, hnext, fun address => ?_⟩
  rw [hcells, cells_map, Block.content]
  by_cases hsame : address = block.start
  · rw [if_pos hsame, if_pos hsame, if_pos (hsame ▸ hstart)]
  · rw [if_neg hsame, if_neg hsame]
    rfl

/-- A run of blocks is placed without a fault, and the last block that covers an
address decides what it holds. -/
theorem placeAll_spec (blank : Cell) (space : Space Cell limit)
    (blocks : List (Block Cell limit)) :
    ∃ final, space.placeAll blank blocks = some final ∧
      ∀ address, final.cells address =
        match lastCover blocks address with
        | some block => some (block.content blank address)
        | none => space.cells address := by
  induction blocks generalizing space with
  | nil => exact ⟨space, rfl, fun _ => rfl⟩
  | cons block blocks ih =>
      obtain ⟨next, hnext, hplaced⟩ := place_spec blank space block
      obtain ⟨final, hfinal, hcells⟩ := ih next
      refine ⟨final, ?_, fun address => ?_⟩
      · rw [placeAll, List.foldlM_cons, hnext]
        exact hfinal
      · rw [hcells, hplaced, lastCover, lastCover, List.reverse_cons,
          List.find?_append]
        cases blocks.reverse.find? fun block =>
            decide (block.Covers address) with
        | some later => rfl
        | none =>
            by_cases hcovers : block.Covers address
            · simp [hcovers]
            · simp [hcovers]

theorem cells_remove (space : Space Cell limit) (block : Block Cell limit)
    (address : Nat) :
    (space.remove block).cells address =
      if block.Covers address then none else space.cells address := rfl

theorem cells_removeAll (space : Space Cell limit)
    (blocks : List (Block Cell limit)) (address : Nat) :
    (space.removeAll blocks).cells address =
      if ∃ block ∈ blocks, block.Covers address then none
      else space.cells address := by
  induction blocks generalizing space with
  | nil => simp [removeAll]
  | cons block blocks ih =>
      rw [removeAll, List.foldl_cons, ← removeAll, ih, cells_remove]
      by_cases hlater : ∃ block ∈ blocks, block.Covers address
      · rw [if_pos hlater, if_pos]
        obtain ⟨later, hmem, hcovers⟩ := hlater
        exact ⟨later, List.mem_cons_of_mem _ hmem, hcovers⟩
      · by_cases hhere : block.Covers address
        · rw [if_neg hlater, if_pos hhere,
            if_pos ⟨block, List.mem_cons_self, hhere⟩]
        · rw [if_neg hlater, if_neg hhere, if_neg]
          rintro ⟨other, hmem, hcovers⟩
          rcases List.mem_cons.mp hmem with rfl | hmem
          · exact hhere hcovers
          · exact hlater ⟨other, hmem, hcovers⟩

end Space

theorem lastCover_eq_none {blocks : List (Block Cell limit)} {address : Nat} :
    lastCover blocks address = none ↔
      ∀ block ∈ blocks, ¬ block.Covers address := by
  simp [lastCover]

theorem mem_of_lastCover {blocks : List (Block Cell limit)} {address : Nat}
    {block : Block Cell limit} (hcover : lastCover blocks address = some block) :
    block ∈ blocks :=
  List.mem_reverse.mp (List.mem_of_find?_eq_some hcover)

/-- Placing blocks and removing them leaves nothing in their ranges and everything
else as it was. -/
theorem Space.cells_removeAll_placeAll {blank : Cell}
    {space final : Space Cell limit} {blocks : List (Block Cell limit)}
    (hfinal : space.placeAll blank blocks = some final) (address : Nat) :
    (final.removeAll blocks).cells address =
      if ∃ block ∈ blocks, block.Covers address then none
      else space.cells address := by
  obtain ⟨placed, hplaced, hcells⟩ := placeAll_spec blank space blocks
  cases hfinal.symm.trans hplaced
  rw [cells_removeAll]
  by_cases hcovers : ∃ block ∈ blocks, block.Covers address
  · rw [if_pos hcovers, if_pos hcovers]
  · rw [if_neg hcovers, if_neg hcovers, hcells, lastCover_eq_none.mpr]
    exact fun block hmem hin => hcovers ⟨block, hmem, hin⟩

end Blocks

end MappedMemory
