/-
The four memory blocks of the mapping lab and the log line about them.  Two blocks
lie where the system puts them; two are mapped at addresses of the program's own,
over whatever is there.
-/
import OsCourse.MapsRange
import OsCourse.MappedMemory

namespace OsCourse

namespace MemoryBlocks

open MappedMemory

section Program

/-- Every mapping of a process ends below. -/
def addressLimit : Nat := 2 ^ 56

/-- `MAP_FAILED`, the pointer of all ones. -/
def mapFailed : Nat := 2 ^ 64 - 1

/-- The memory as far as `mmap`, `munmap` and the four stores change it; `blocks` itself
and what stdio allocates are no part of it. -/
abbrev Memory := Space Int addressLimit

/-- What the program asks for a block, with the value for its first int.  A `hint` is
the address of `MAP_FIXED`; without one the address is `NULL`. -/
structure Request where
  name : List Char
  size : Nat
  hint : Option Nat
  value : Int
  size_pos : 0 < size
  hint_fits : ∀ start ∈ hint, start + size ≤ addressLimit

/-- The arrays `blocks`, `addrs`, `flags` and `values` of the program. -/
def requests : Fin 4 → Request
  | 0 => ⟨"BLOCK_0".toList, 64 * 1024, none, 100,
      of_decide_eq_true rfl, of_decide_eq_true rfl⟩
  | 1 => ⟨"BLOCK_1".toList, 128 * 1024, none, 200,
      of_decide_eq_true rfl, of_decide_eq_true rfl⟩
  | 2 => ⟨"BLOCK_2".toList, 64 * 1024, some 0x70000000, 300,
      of_decide_eq_true rfl, of_decide_eq_true rfl⟩
  | 3 => ⟨"BLOCK_3".toList, 64 * 1024, some 0x80000000, 400,
      of_decide_eq_true rfl, of_decide_eq_true rfl⟩

/-- What the system answers: the address it chooses, none if it refuses, and the maps
file that the program reads afterwards. -/
structure Answer where
  placed : Option Nat
  maps : Option (List Char)

abbrev Call := Request × Answer

/-- An entry of `blocks`. -/
structure MemoryBlock where
  name : List Char
  address : Nat
  size : Nat
  osMapRange : List Char
deriving DecidableEq

def mapFailedText : List Char :=
  ['M', 'A', 'P', '_', 'F', 'A', 'I', 'L', 'E', 'D']

/-- The address that `mmap` returns; with `MAP_FIXED` it is the one asked for. -/
def mmap (request : Request) (placed : Option Nat) :
    Option { start : Nat // start + request.size ≤ addressLimit } :=
  placed.bind fun chosen =>
    if hfits : request.hint.getD chosen + request.size ≤ addressLimit then
      some ⟨request.hint.getD chosen, hfits⟩
    else none

/-- The body of the loop of `Create_memory_blocks`. -/
def createBlock (lenient : Bool) (call : Call) (space : Memory) :
    Option (MemoryBlock × Memory) :=
  let request := call.1
  match mmap request call.2.placed with
  | none =>
      some (⟨request.name, mapFailed, request.size, mapFailedText⟩, space)
  | some start => do
      let stored ← (space.map 0 start.1 request.size start.2).store start.1
        request.value
      let range := MapsRange.osMapRange lenient call.2.maps start.1
      return (⟨request.name, start.1, request.size, range.getD []⟩, stored)

def createMemoryBlocks (lenient : Bool) :
    List Call → Memory → Option (List MemoryBlock × Memory)
  | [], space => some ([], space)
  | call :: calls, space => do
      let (block, next) ← createBlock lenient call space
      let (blocks, last) ← createMemoryBlocks lenient calls next
      return (block :: blocks, last)

/-- What one call of `Print_result_log` prints. -/
structure Entry where
  name : List Char
  address : Nat
  size : Nat
  value : Int
  range : List Char
deriving DecidableEq

/-- `%p`. -/
def pointerText (address : Nat) : List Char :=
  if address = 0 then ['(', 'n', 'i', 'l', ')']
  else '0' :: 'x' :: ScanText.hexDigits address

/-- `"%s=%p/%zu/%d/%s|"`. -/
def Entry.text (entry : Entry) : List Char :=
  entry.name ++ '=' :: pointerText entry.address ++
    '/' :: Nat.toDigits 10 entry.size ++
    '/' :: DecimalText.lld entry.value ++ '/' :: entry.range ++ ['|']

/-- It reads the first int of the block, which is a fault where none is mapped. -/
def printResultLog (space : Memory) (block : MemoryBlock) : Option Entry :=
  (space.cells block.address).map fun value =>
    ⟨block.name, block.address, block.size, value, block.osMapRange⟩

def cleanUp (space : Memory) (blocks : List MemoryBlock) : Memory :=
  blocks.foldl
    (fun space block =>
      if block.address ≠ mapFailed then space.unmap block.address block.size
      else space) space

/-- The four calls of the program. -/
def calls (answers : Fin 4 → Answer) : List Call :=
  List.ofFn fun index => (requests index, answers index)

/-- The entries that are printed and the memory at the end. -/
def main (lenient : Bool) (answers : Fin 4 → Answer) (space : Memory) :
    Option (List Entry × Memory) := do
  let (blocks, created) ← createMemoryBlocks lenient (calls answers) space
  let entries ← blocks.mapM (printResultLog created)
  return (entries, cleanUp created blocks)

end Program

section Creation

variable {lenient : Bool} {call : Call} {space : Memory}

/-- The block of a call that is placed. -/
def Call.block? (call : Call) : Option (Block Int addressLimit) :=
  (mmap call.1 call.2.placed).map fun start =>
    ⟨start.1, call.1.size, call.1.value, start.2, call.1.size_pos⟩

def placedBlocks (calls : List Call) : List (Block Int addressLimit) :=
  calls.filterMap Call.block?

theorem placedBlocks_of_failed {calls : List Call}
    (hfailed : call.block? = none) :
    placedBlocks (call :: calls) = placedBlocks calls :=
  List.filterMap_cons_none hfailed

theorem placedBlocks_of_placed {calls : List Call}
    {block : Block Int addressLimit} (hblock : call.block? = some block) :
    placedBlocks (call :: calls) = block :: placedBlocks calls :=
  List.filterMap_cons_some hblock

/-- With `MAP_FIXED` a block is where it was asked for. -/
theorem mmap_of_hint {request : Request} {placed : Option Nat} {address : Nat}
    {start : { start : Nat // start + request.size ≤ addressLimit }}
    (hhint : request.hint = some address)
    (hstart : mmap request placed = some start) : start.1 = address := by
  obtain ⟨chosen, -, hchosen⟩ := Option.bind_eq_some_iff.mp hstart
  split at hchosen
  · cases hchosen
    exact Option.getD_eq_iff.mpr (.inl hhint)
  · cases hchosen

/-- The entry of `blocks` after a call. -/
def Call.memoryBlock (lenient : Bool) (call : Call) : MemoryBlock :=
  match call.block? with
  | none => ⟨call.1.name, mapFailed, call.1.size, mapFailedText⟩
  | some block =>
      ⟨call.1.name, block.start, call.1.size,
        (MapsRange.osMapRange lenient call.2.maps block.start).getD []⟩

theorem createBlock_of_failed (hfailed : call.block? = none) :
    createBlock lenient call space =
      some (call.memoryBlock lenient, space) := by
  have hmmap : mmap call.1 call.2.placed = none := by
    simpa [Call.block?] using hfailed
  rw [createBlock, Call.memoryBlock, hfailed, hmmap]

theorem createBlock_of_placed {block : Block Int addressLimit} {next : Memory}
    (hblock : call.block? = some block)
    (hplace : space.place 0 block = some next) :
    createBlock lenient call space =
      some (call.memoryBlock lenient, next) := by
  obtain ⟨start, hmmap, rfl⟩ := Option.map_eq_some_iff.mp hblock
  rw [createBlock, Call.memoryBlock, hblock, hmmap]
  simp only [Space.place] at hplace
  simp only [hplace]
  rfl

/-- Creation never faults, and it places the blocks of the calls that are answered. -/
theorem createMemoryBlocks_spec (lenient : Bool) (calls : List Call)
    (space : Memory) :
    ∃ final, space.placeAll 0 (placedBlocks calls) = some final ∧
      createMemoryBlocks lenient calls space =
        some (calls.map (Call.memoryBlock lenient), final) := by
  induction calls generalizing space with
  | nil => exact ⟨space, rfl, rfl⟩
  | cons call calls ih =>
      cases hblock : call.block? with
      | none =>
          obtain ⟨final, hplaced, hcreated⟩ := ih space
          refine ⟨final, ?_, ?_⟩
          · rwa [placedBlocks_of_failed hblock]
          · rw [createMemoryBlocks, createBlock_of_failed hblock]
            simp only [Option.bind_eq_bind, Option.bind_some, hcreated]
            rfl
      | some block =>
          obtain ⟨next, hnext, -⟩ := Space.place_spec 0 space block
          obtain ⟨final, hplaced, hcreated⟩ := ih next
          refine ⟨final, ?_, ?_⟩
          · rw [placedBlocks_of_placed hblock, Space.placeAll,
              List.foldlM_cons, hnext]
            exact hplaced
          · rw [createMemoryBlocks, createBlock_of_placed hblock hnext]
            simp only [Option.bind_eq_bind, Option.bind_some, hcreated]
            rfl

end Creation

section Values

variable {lenient : Bool} {space final : Memory} {calls : List Call}

/-- The first int of the block of a call. -/
def Call.readBack (space : Memory) (call : Call) : Option Int :=
  call.block?.bind fun block => space.cells block.start

/-- No block of the later call covers the first int of the block. -/
def Call.Spared (call later : Call) : Prop :=
  ∀ block ∈ call.block?, ∀ other ∈ later.block?, ¬ other.Covers block.start

/-- Without `MAP_FIXED` the system places a block where nothing is mapped. -/
def Honest (lenient : Bool) : List Call → Memory → Prop
  | [], _ => True
  | call :: calls, space =>
      (call.1.hint = none →
          ∀ block ∈ call.block?, space.Free block.start block.length) ∧
        ∀ block next, createBlock lenient call space = some (block, next) →
          Honest lenient calls next

theorem printResultLog_memoryBlock (lenient : Bool) (space : Memory)
    (call : Call) :
    (printResultLog space (call.memoryBlock lenient)).map Entry.value =
      call.readBack space := by
  rw [printResultLog, Call.memoryBlock, Call.readBack, Option.map_map]
  cases hblock : call.block? with
  | none =>
      have hfailed : space.cells mapFailed = none :=
        space.unmapped mapFailed (by decide)
      rw [hfailed]
      rfl
  | some block =>
      have hvalue : Entry.value ∘ (fun value => Entry.mk call.1.name
          block.start call.1.size value
          ((MapsRange.osMapRange lenient call.2.maps block.start).getD [])) =
            id := rfl
      simp only [hvalue, Option.map_id, id_eq, Option.bind_some]

theorem mapM_printResultLog (lenient : Bool) (space : Memory)
    (calls : List Call) :
    ((calls.map (Call.memoryBlock lenient)).mapM
        (printResultLog space)).map (List.map Entry.value) =
      calls.mapM (Call.readBack space) := by
  induction calls with
  | nil => rfl
  | cons call calls ih =>
      have hentry := printResultLog_memoryBlock lenient space call
      rw [List.map_cons, List.mapM_cons, List.mapM_cons, ← hentry, ← ih]
      cases printResultLog space (call.memoryBlock lenient) with
      | none => rfl
      | some entry =>
          cases (calls.map (Call.memoryBlock lenient)).mapM
              (printResultLog space) <;> rfl

theorem mapM_eq_some_map_iff {α β : Type} {read : α → Option β}
    {value : α → β} {items : List α} :
    items.mapM read = some (items.map value) ↔
      ∀ item ∈ items, read item = some (value item) := by
  induction items with
  | nil => simp
  | cons item items ih =>
      rw [List.mapM_cons, List.forall_mem_cons, ← ih, List.map_cons]
      cases read item with
      | none => simp
      | some first => cases items.mapM read <;> simp

theorem isSome_mapM_iff {α β : Type} {read : α → Option β} {items : List α} :
    (items.mapM read).isSome = true ↔
      ∀ item ∈ items, (read item).isSome = true := by
  induction items with
  | nil => simp
  | cons item items ih =>
      rw [List.mapM_cons, List.forall_mem_cons, ← ih]
      cases read item with
      | none => simp
      | some first => cases items.mapM read <;> simp

/-- Every block that is mapped can be read. -/
theorem isSome_readBack
    (hfinal : space.placeAll 0 (placedBlocks calls) = some final) {call : Call}
    (hcall : call ∈ calls) :
    (call.readBack final).isSome = call.block?.isSome := by
  obtain ⟨last, hlast, hcells⟩ :=
    Space.placeAll_spec 0 space (placedBlocks calls)
  cases hlast.symm.trans hfinal
  rw [Call.readBack]
  cases hblock : call.block? with
  | none => rfl
  | some block =>
      rw [Option.bind_some, hcells]
      cases hcover : lastCover (placedBlocks calls) block.start with
      | none =>
          exact absurd block.covers_start (lastCover_eq_none.mp hcover block
            (List.mem_filterMap.mpr ⟨call, hcall, hblock⟩))
      | some cover => rfl

theorem first_of_block? {call : Call} {block : Block Int addressLimit}
    (hblock : call.block? = some block) : block.first = call.1.value := by
  obtain ⟨start, -, rfl⟩ := Option.map_eq_some_iff.mp hblock
  rfl

/-- A later block that covers the value leaves a zero there, or its own value. -/
theorem readBack_iff_spared {call : Call} {block : Block Int addressLimit}
    {next : Memory} (hblock : call.block? = some block)
    (hstart : next.cells block.start = some call.1.value)
    (hfinal : next.placeAll 0 (placedBlocks calls) = some final)
    (hvalue : call.1.value ≠ 0)
    (hdistinct : ∀ later ∈ calls, later.1.value ≠ call.1.value) :
    call.readBack final = some call.1.value ↔
      ∀ later ∈ calls, call.Spared later := by
  obtain ⟨last, hlast, hcells⟩ :=
    Space.placeAll_spec 0 next (placedBlocks calls)
  cases hlast.symm.trans hfinal
  rw [Call.readBack, hblock, Option.bind_some, hcells]
  constructor
  · intro hread later hlater found hfound other hother hcovers
    cases hblock.symm.trans hfound
    have hmem : other ∈ placedBlocks calls :=
      List.mem_filterMap.mpr ⟨later, hlater, hother⟩
    cases hcover : lastCover (placedBlocks calls) block.start with
    | none => exact lastCover_eq_none.mp hcover other hmem hcovers
    | some cover =>
        rw [hcover] at hread
        have hcontent := Option.some.inj hread
        rw [Block.content] at hcontent
        split at hcontent
        · obtain ⟨owner, howner, hblockOf⟩ :=
            List.mem_filterMap.mp (mem_of_lastCover hcover)
          rw [first_of_block? hblockOf] at hcontent
          exact hdistinct owner howner hcontent
        · exact hvalue hcontent.symm
  · intro hspared
    have hcover : lastCover (placedBlocks calls) block.start = none := by
      rw [lastCover_eq_none]
      intro other hother
      obtain ⟨later, hlater, hfound⟩ := List.mem_filterMap.mp hother
      exact hspared later hlater block hblock other hfound
    rw [hcover]
    exact hstart

/-- The calls have their values in the end if and only if all were answered and no
block covers the value of an earlier one. -/
theorem forall_readBack_iff
    (hfinal : space.placeAll 0 (placedBlocks calls) = some final)
    (hvalues : ∀ call ∈ calls, call.1.value ≠ 0)
    (hdistinct : calls.Pairwise fun call later =>
      later.1.value ≠ call.1.value) :
    (∀ call ∈ calls, call.readBack final = some call.1.value) ↔
      (∀ call ∈ calls, call.block?.isSome = true) ∧
        calls.Pairwise Call.Spared := by
  induction calls generalizing space with
  | nil => simp
  | cons call calls ih =>
      rw [List.forall_mem_cons, List.forall_mem_cons, List.pairwise_cons]
      rw [List.forall_mem_cons] at hvalues
      rw [List.pairwise_cons] at hdistinct
      cases hblock : call.block? with
      | none => simp [Call.readBack, hblock]
      | some block =>
          obtain ⟨next, hnext, hplaced⟩ := Space.place_spec 0 space block
          rw [placedBlocks_of_placed hblock, Space.placeAll,
            List.foldlM_cons, hnext] at hfinal
          have hstart : next.cells block.start = some call.1.value := by
            rw [hplaced, if_pos block.covers_start, Block.content, if_pos rfl,
              first_of_block? hblock]
          rw [ih hfinal hvalues.2 hdistinct.2,
            readBack_iff_spared hblock hstart hfinal hvalues.1 hdistinct.1]
          simp only [Option.isSome_some, true_and]
          exact and_left_comm

/-- The blocks that the system places cover nothing that was mapped before. -/
theorem Honest.not_covers (hhonest : Honest lenient calls space)
    {address : Nat} {value : Int} (hmapped : space.cells address = some value)
    {later : Call} (hlater : later ∈ calls) (hhint : later.1.hint = none)
    {block : Block Int addressLimit} (hblock : later.block? = some block) :
    ¬ block.Covers address := by
  induction calls generalizing space value with
  | nil => cases hlater
  | cons call calls ih =>
      rcases List.mem_cons.mp hlater with rfl | hlater
      · intro hcovers
        have hfree := hhonest.1 hhint block hblock address hcovers
        rw [hmapped] at hfree
        cases hfree
      · cases hfirst : call.block? with
        | none =>
            exact ih (hhonest.2 _ _ (createBlock_of_failed hfirst)) hmapped
              hlater
        | some first =>
            obtain ⟨next, hnext, hplaced⟩ := Space.place_spec 0 space first
            have hkept : ∃ kept, next.cells address = some kept := by
              rw [hplaced]
              split
              · exact ⟨_, rfl⟩
              · exact ⟨value, hmapped⟩
            obtain ⟨kept, hkept⟩ := hkept
            exact ih (hhonest.2 _ _ (createBlock_of_placed hfirst hnext))
              hkept hlater

/-- Blocks that the system places apart from what was mapped and from all blocks
before. -/
theorem honest_of_apart
    (hfree : ∀ call ∈ calls, call.1.hint = none →
      ∀ block ∈ call.block?, space.Free block.start block.length)
    (hapart : calls.Pairwise fun call later => later.1.hint = none →
      ∀ block ∈ call.block?, ∀ other ∈ later.block?,
        block.start + block.length ≤ other.start ∨
          other.start + other.length ≤ block.start) :
    Honest lenient calls space := by
  induction calls generalizing space with
  | nil => trivial
  | cons call calls ih =>
      rw [List.forall_mem_cons] at hfree
      rw [List.pairwise_cons] at hapart
      refine ⟨hfree.1, fun block next hcreated => ih ?_ hapart.2⟩
      cases hblock : call.block? with
      | none =>
          cases (createBlock_of_failed hblock).symm.trans hcreated
          exact hfree.2
      | some first =>
          obtain ⟨placed, hplaced, hcells⟩ := Space.place_spec 0 space first
          cases (createBlock_of_placed hblock hplaced).symm.trans hcreated
          intro later hlater hhint other hother address hcovers
          rw [hcells, if_neg]
          · exact hfree.2 later hlater hhint other hother address hcovers
          · intro hfirst
            have horder := hapart.1 later hlater hhint first hblock other hother
            have hlow := hcovers.1
            have hhigh := hcovers.2
            have hbegin := hfirst.1
            have hend := hfirst.2
            omega

theorem Honest.pairwise_spared (hhonest : Honest lenient calls space) :
    calls.Pairwise fun call later =>
      later.1.hint = none → call.Spared later := by
  induction calls generalizing space with
  | nil => exact List.Pairwise.nil
  | cons call calls ih =>
      cases hblock : call.block? with
      | none =>
          refine List.pairwise_cons.mpr ⟨?_,
            ih (hhonest.2 _ _ (createBlock_of_failed hblock))⟩
          intro later _ _ block hfound
          cases hblock.symm.trans hfound
      | some block =>
          obtain ⟨next, hnext, hplaced⟩ := Space.place_spec 0 space block
          have hrest := hhonest.2 _ _ (createBlock_of_placed hblock hnext)
          refine List.pairwise_cons.mpr ⟨?_, ih hrest⟩
          intro later hlater hhint found hfound other hother
          cases hblock.symm.trans hfound
          have hstart := hplaced block.start
          rw [if_pos block.covers_start] at hstart
          exact hrest.not_covers hstart hlater hhint hother

end Values

section Report

variable {lenient : Bool} {answers : Fin 4 → Answer} {space : Memory}

/-- The address is in a range that the program claims with `MAP_FIXED`. -/
def OverFixed (address : Nat) : Prop :=
  ∃ index, ∃ start ∈ (requests index).hint,
    Covers start (requests index).size address

instance (address : Nat) : Decidable (OverFixed address) :=
  inferInstanceAs (Decidable (∃ _, _))

/-- No call of `mmap` returns `MAP_FAILED`. -/
def AllPlaced (answers : Fin 4 → Answer) : Prop :=
  ∀ index, (mmap (requests index) (answers index).placed).isSome = true

instance (answers : Fin 4 → Answer) : Decidable (AllPlaced answers) :=
  inferInstanceAs (Decidable (∀ _, _))

theorem forall_mem_calls {P : Call → Prop} :
    (∀ call ∈ calls answers, P call) ↔
      ∀ index, P (requests index, answers index) :=
  List.forall_mem_ofFn_iff

theorem isSome_block? {call : Call} :
    call.block?.isSome = (mmap call.1 call.2.placed).isSome :=
  Option.isSome_map

theorem cleanUp_memoryBlocks (lenient : Bool) (space : Memory)
    (calls : List Call) :
    cleanUp space (calls.map (Call.memoryBlock lenient)) =
      space.removeAll (placedBlocks calls) := by
  induction calls generalizing space with
  | nil => rfl
  | cons call calls ih =>
      rw [List.map_cons, cleanUp, List.foldl_cons, ← cleanUp, ih,
        Call.memoryBlock]
      cases hblock : call.block? with
      | none =>
          rw [placedBlocks_of_failed hblock]
          exact congrArg (Space.removeAll · _) (if_neg (not_not.mpr rfl))
      | some block =>
          have hplace : block.start ≠ mapFailed := by
            have hfits := block.fits
            have hlimit : addressLimit < mapFailed := by decide
            omega
          have hsize : call.1.size = block.length := by
            obtain ⟨start, -, rfl⟩ := Option.map_eq_some_iff.mp hblock
            rfl
          rw [placedBlocks_of_placed hblock, Space.removeAll, Space.removeAll,
            List.foldl_cons, Space.remove, hsize]
          exact congrArg (List.foldl _ · _) (if_pos hplace)

/-- The program runs to its end with the values it reads back, or it faults when it
prints a block that was not mapped. -/
theorem main_spec (lenient : Bool) (answers : Fin 4 → Answer)
    (space : Memory) :
    ∃ created, space.placeAll 0 (placedBlocks (calls answers)) =
        some created ∧
      (main lenient answers space).map (fun report =>
          report.1.map Entry.value) =
        (calls answers).mapM (Call.readBack created) ∧
      ∀ report ∈ main lenient answers space,
        report.2 = created.removeAll (placedBlocks (calls answers)) := by
  obtain ⟨created, hplaced, hcreated⟩ :=
    createMemoryBlocks_spec lenient (calls answers) space
  refine ⟨created, hplaced, ?_, fun report hreport => ?_⟩
  · rw [← mapM_printResultLog lenient, main, hcreated]
    simp only [Option.bind_eq_bind, Option.bind_some]
    cases ((calls answers).map (Call.memoryBlock lenient)).mapM
      (printResultLog created) <;> rfl
  · rw [← cleanUp_memoryBlocks lenient]
    rw [main, hcreated] at hreport
    simp only [Option.bind_eq_bind, Option.bind_some, Option.mem_def,
      Option.bind_eq_some_iff] at hreport
    obtain ⟨entries, -, hreport⟩ := hreport
    cases hreport
    rfl

theorem pairwise_spared_iff (hhonest : Honest lenient (calls answers) space)
    (hplaced : AllPlaced answers) :
    (calls answers).Pairwise Call.Spared ↔
      ∀ index, (requests index).hint = none →
        ∀ start ∈ mmap (requests index) (answers index).placed,
          ¬ OverFixed start.1 := by
  have hfree := hhonest.pairwise_spared
  rw [calls, List.pairwise_ofFn] at hfree ⊢
  constructor
  · rintro hspared index hhint start hstart ⟨fixed, address, haddress, hcovers⟩
    have horder : ∀ index fixed : Fin 4, (requests index).hint = none →
        (requests fixed).hint ≠ none → index < fixed := by decide
    have hless := horder index fixed hhint
      (by rw [Option.mem_def.mp haddress]; simp)
    obtain ⟨block, hblock⟩ := Option.isSome_iff_exists.mp (hplaced fixed)
    have hhinted : block.1 = address := mmap_of_hint haddress hblock
    refine hspared hless _ (Option.mem_map_of_mem _ hstart) _
      (Option.mem_map_of_mem _ hblock) ?_
    rw [← hhinted] at hcovers
    exact hcovers
  · intro hsafe index later hless
    cases hhint : (requests later).hint with
    | none => exact hfree hless hhint
    | some address =>
        intro block hblock other hother hcovers
        obtain ⟨start, hstart, rfl⟩ := Option.map_eq_some_iff.mp hblock
        obtain ⟨second, hsecond, rfl⟩ := Option.map_eq_some_iff.mp hother
        have hhinted : second.1 = address := mmap_of_hint hhint hsecond
        have hfixed : OverFixed start.1 :=
          ⟨later, address, hhint, hhinted ▸ hcovers⟩
        cases hown : (requests index).hint with
        | none => exact hsafe index hown start hstart hfixed
        | some own =>
            have hstarts := mmap_of_hint hown hstart
            have hapart : ∀ index later : Fin 4, index < later →
                ∀ own ∈ (requests index).hint,
                  ∀ address ∈ (requests later).hint,
                    ¬ Covers address (requests later).size own := by
              decide
            refine hapart index later hless own hown address hhint ?_
            rw [← hstarts, ← hhinted]
            exact hcovers

theorem forall_isSome_block? :
    (∀ call ∈ calls answers, call.block?.isSome = true) ↔
      AllPlaced answers := by
  simp only [forall_mem_calls, isSome_block?, AllPlaced]

/-- The values that are printed are the values that were stored if and only if no
mapping was refused and neither of the first two blocks begins in a range that the
program claims for the others. -/
theorem logged_values_iff (hhonest : Honest lenient (calls answers) space) :
    (main lenient answers space).map (fun report =>
        report.1.map Entry.value) =
        some (List.ofFn fun index => (requests index).value) ↔
      AllPlaced answers ∧
        ∀ index, (requests index).hint = none →
          ∀ start ∈ mmap (requests index) (answers index).placed,
            ¬ OverFixed start.1 := by
  obtain ⟨created, hplaced, hvalues, -⟩ := main_spec lenient answers space
  have hlist : List.ofFn (fun index => (requests index).value) =
      (calls answers).map fun call => call.1.value := by
    rw [calls, List.map_ofFn]
    rfl
  have hnonzero : ∀ call ∈ calls answers, call.1.value ≠ 0 := by
    have hvalue : ∀ index, (requests index).value ≠ 0 := by decide
    rw [forall_mem_calls]
    exact hvalue
  have hdistinct : (calls answers).Pairwise fun call later =>
      later.1.value ≠ call.1.value := by
    rw [calls, List.pairwise_ofFn]
    have hvalue : ∀ index later : Fin 4, index < later →
        (requests later).value ≠ (requests index).value := by decide
    exact fun index later => hvalue index later
  rw [hvalues, hlist, mapM_eq_some_map_iff,
    forall_readBack_iff hplaced hnonzero hdistinct, forall_isSome_block?]
  exact and_congr_right fun hall => pairwise_spared_iff hhonest hall

/-- Printing a block that was refused is a fault. -/
theorem isSome_main :
    (main lenient answers space).isSome = true ↔ AllPlaced answers := by
  obtain ⟨created, hplaced, hvalues, -⟩ := main_spec lenient answers space
  have hread : ∀ call ∈ calls answers,
      ((call.readBack created).isSome = true ↔
        call.block?.isSome = true) := fun call hcall => by
    rw [isSome_readBack hplaced hcall]
  rw [← Option.isSome_map, hvalues, isSome_mapM_iff, ← forall_isSome_block?]
  exact forall₂_congr hread

/-- The program gets to its end if and only if no mapping was refused, and then its
memory is as it was before, without what was in the ranges it claimed. -/
theorem main_restores (hhonest : Honest lenient (calls answers) space) :
    ((main lenient answers space).isSome = true ↔ AllPlaced answers) ∧
      ∀ report ∈ main lenient answers space, ∀ address,
        report.2.cells address =
          if OverFixed address then none else space.cells address := by
  obtain ⟨created, hplaced, -, hremoved⟩ := main_spec lenient answers space
  refine ⟨isSome_main, fun report hreport address => ?_⟩
  have hall := isSome_main.mp (Option.isSome_of_mem hreport)
  rw [hremoved report hreport,
    Space.cells_removeAll_placeAll hplaced address]
  by_cases hfixed : OverFixed address
  · rw [if_pos hfixed]
    obtain ⟨index, hint, hhint, hcovers⟩ := hfixed
    obtain ⟨start, hstart⟩ := Option.isSome_iff_exists.mp (hall index)
    have hown := mmap_of_hint hhint hstart
    have hblock : (requests index, answers index) ∈ calls answers :=
      List.mem_ofFn.mpr ⟨index, rfl⟩
    have hcovered : ∃ block ∈ placedBlocks (calls answers),
        block.Covers address := by
      refine ⟨_, List.mem_filterMap.mpr
        ⟨_, hblock, Option.mem_map_of_mem _ hstart⟩, ?_⟩
      rw [← hown] at hcovers
      exact hcovers
    exact if_pos hcovered
  · rw [if_neg hfixed]
    split
    · rename_i hcovered
      obtain ⟨block, hmem, hcovers⟩ := hcovered
      obtain ⟨call, hcall, hblock⟩ := List.mem_filterMap.mp hmem
      cases hspace : space.cells address with
      | none => rfl
      | some value =>
          refine absurd hcovers (hhonest.not_covers hspace hcall ?_ hblock)
          obtain ⟨index, rfl⟩ := List.mem_ofFn.mp hcall
          by_contra hhint
          obtain ⟨hint, hhint⟩ := Option.ne_none_iff_exists'.mp hhint
          obtain ⟨start, hstart, rfl⟩ := Option.map_eq_some_iff.mp hblock
          have hown := mmap_of_hint hhint hstart
          exact hfixed ⟨index, hint, hhint, hown ▸ hcovers⟩
    · rfl

/-- Nothing is mapped. -/
def emptyMemory : Memory := ⟨fun _ => none, fun _ _ => rfl⟩

/-- The system places the first two blocks one after the other. -/
def lowAnswers (index : Fin 4) : Answer :=
  ⟨some (0x10000 + 0x100000 * index), none⟩

theorem honest_lowAnswers :
    Honest true (calls lowAnswers) emptyMemory := by
  refine honest_of_apart (fun _ _ _ _ _ _ _ => rfl) ?_
  decide

theorem logged_values_lowAnswers :
    (main true lowAnswers emptyMemory).map (fun report =>
        report.1.map Entry.value) =
        some (List.ofFn fun index => (requests index).value) :=
  (logged_values_iff honest_lowAnswers).mpr (by decide)

theorem main_restores_lowAnswers :
    (main true lowAnswers emptyMemory).isSome = true ∧
      ∀ report ∈ main true lowAnswers emptyMemory, ∀ address,
        report.2.cells address = none := by
  obtain ⟨hcomplete, hmemory⟩ := main_restores honest_lowAnswers
  refine ⟨hcomplete.mpr (by decide), fun report hreport address => ?_⟩
  rw [hmemory report hreport]
  exact ite_self none

end Report

end MemoryBlocks

end OsCourse
