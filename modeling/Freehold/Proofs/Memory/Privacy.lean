import Freehold.Proofs.FreeList.Conservation
import Freehold.Proofs.Memory.Handover

/-!
# Blocks are private

A user of a memory names its blocks, writes to them, has them resized and gives them back.
Beside the memory an account is kept of what each block must contain: the last byte written
at an offset, or the zero that the block was handed out with.  Every allocator lives up to
the account, and whatever happens to one block leaves all others as they are.
-/

namespace Freehold

/-! ## Allocators at the start -/

/-- An allocator that has handed nothing out.  A free list has the regions that it was
given, which lie apart. -/
def Backend.Fresh : Backend → Prop
  | .stack arena => arena.used = 0
  | .freeList list | .basic list =>
    ∃ regions : List Span, regions.Pairwise Span.Apart ∧ list = regions.foldl FreeList.addRegion {}
  | .heap books => books.used = []
  | .pages books => books.mapped = []

theorem FreeList.tidy_of_regions {regions earlier : List Span} {list : FreeList}
    (h : list.Accounts [] earlier)
    (hearlier : ∀ old ∈ earlier, ∀ region ∈ regions, old.Apart region)
    (hapart : regions.Pairwise Span.Apart) : Tidy (regions.foldl addRegion list).spans := by
  induction regions generalizing earlier list with
  | nil => exact h.tidy
  | cons region later ih =>
    obtain ⟨hfirst, hlater⟩ := List.pairwise_cons.1 hapart
    have hadded : (list.addRegion region).Accounts [] (region :: earlier) :=
      h.afterRegion (fun old hold => hearlier old hold region List.mem_cons_self) (by simp)
    refine ih hadded ?_ hlater
    intro old hold other hother
    rcases List.mem_cons.1 hold with rfl | hold
    · exact hfirst other hother
    · exact hearlier old hold other (List.mem_cons_of_mem _ hother)

theorem Backend.Fresh.orderly {backend : Backend} (h : backend.Fresh) : backend.Orderly := by
  cases backend with
  | stack arena | pages books => trivial
  | freeList list | basic list =>
    obtain ⟨regions, hapart, rfl⟩ := h
    exact FreeList.tidy_of_regions FreeList.Accounts.initial (by simp) hapart
  | heap books =>
    have hnone : books.used = [] := h
    show books.used.Pairwise Span.Apart ∧ ∀ span ∈ books.used, 0 < span.size
    rw [hnone]
    exact ⟨List.Pairwise.nil, by simp⟩

/-! ## Named blocks -/

/-- A block in use and what must be in it. -/
structure TrackedBlock where
  holding : Holding
  /-- The last byte written at an offset since the block was handed out.  A block that was
  handed out clear begins with zeros; a block that had to grow by being reallocated is
  certain of its old bytes only. -/
  known : Nat → Option UInt8

namespace TrackedBlock

def written (tracked : TrackedBlock) (offset : Nat) (byte : UInt8) : TrackedBlock :=
  { tracked with known := fun other => if other = offset then some byte else tracked.known other }

def resized (tracked : TrackedBlock) (wanted kept : Nat) (block : Block) : TrackedBlock where
  holding := tracked.holding.resized wanted block
  known offset := if offset < kept then tracked.known offset else none

/-- Reading the block yields what must be in it. -/
def Reads (tracked : TrackedBlock) (bytes : Bytes) : Prop :=
  ∀ offset byte, tracked.known offset = some byte →
    offset < tracked.holding.recorded ∧ bytes (tracked.holding.address + offset) = byte

end TrackedBlock

/-- What a user may do with a block, where a size is one that fits it. -/
inductive Use where
  | write (offset : Nat) (byte : UInt8)
  | expand (size wanted : Nat)
  | reallocate (size wanted : Nat)
  | deallocate (size : Nat)
  deriving DecidableEq

def Use.Fits (use : Use) (holding : Holding) : Prop :=
  match use with
  | .write offset _ => offset < holding.recorded
  | .expand size _ | .reallocate size _ | .deallocate size => holding.Fits size

instance (use : Use) (holding : Holding) : Decidable (use.Fits holding) :=
  match use with
  | .write _ _ => inferInstanceAs (Decidable (_ < _))
  | .expand _ _ | .reallocate _ _ | .deallocate _ => inferInstanceAs (Decidable (_ ∧ _))

inductive Deed where
  | allocate (name : Nat) (layout : Layout)
  | allocateZeroed (name : Nat) (layout : Layout)
  | use (name : Nat) (use : Use)
  | reset
  deriving DecidableEq

/-- The block that a deed is about.  A reset is about all of them. -/
def Deed.Concerns : Deed → Nat → Prop
  | .allocate name _, other | .allocateZeroed name _, other | .use name _, other => other = name
  | .reset, _ => True

/-- A memory and its blocks, each with a name. -/
structure BlockTable where
  memory : Memory
  blocks : Nat → Option TrackedBlock := fun _ => none

namespace BlockTable

def put (table : BlockTable) (memory : Memory) (name : Nat) (tracked : Option TrackedBlock) :
    BlockTable where
  memory := memory
  blocks other := if other = name then tracked else table.blocks other

/-- What an answered request brings in.  A refused request changes nothing. -/
def received (table : BlockTable) (name : Nat) (layout : Layout)
    (known : Block → Nat → Option UInt8) : Except Refusal (Block × Memory) → BlockTable
  | .error _ => table
  | .ok (block, memory) => table.put memory name (some ⟨.of layout block, known block⟩)

def resized (table : BlockTable) (name : Nat) (tracked : TrackedBlock) (wanted kept : Nat) :
    Except Refusal (Block × Memory) → BlockTable
  | .error _ => table
  | .ok (block, memory) => table.put memory name (some (tracked.resized wanted kept block))

def apply (table : BlockTable) (name : Nat) (tracked : TrackedBlock) : Use → BlockTable
  | .write offset byte =>
    table.put
      { table.memory with
        bytes := table.memory.bytes.fill (tracked.holding.address + offset) 1 byte }
      name (some (tracked.written offset byte))
  | .expand size wanted =>
    table.resized name tracked wanted tracked.holding.recorded
      ((table.memory.expand tracked.holding.address (tracked.holding.layout size) wanted).map
        fun grown => (⟨tracked.holding.address, grown.1⟩, grown.2))
  | .reallocate size wanted =>
    table.resized name tracked wanted (Memory.carried tracked.holding size wanted)
      (table.memory.reallocate tracked.holding.address (tracked.holding.layout size) wanted)
  | .deallocate size =>
    table.put
      (table.memory.deallocate tracked.holding.address (tracked.holding.layout size)) name none

def perform (table : BlockTable) : Deed → BlockTable
  | .allocate name layout =>
    table.received name layout (fun _ _ => none) (table.memory.allocate layout)
  | .allocateZeroed name layout =>
    table.received name layout (fun block offset => if offset < block.size then some 0 else none)
      (table.memory.allocateZeroed layout)
  | .use name use =>
    match table.blocks name with
    | none => table
    | some tracked => table.apply name tracked use
  | .reset =>
    match table.memory.backend with
    | .stack arena => { memory := { table.memory with backend := .stack arena.reset } }
    | _ => table

theorem perform_use {table : BlockTable} {name : Nat} {tracked : TrackedBlock}
    (h : table.blocks name = some tracked) (use : Use) :
    table.perform (.use name use) = table.apply name tracked use := by
  unfold perform
  dsimp only
  rw [h]

theorem perform_reset {table : BlockTable} {arena : StackArena}
    (h : table.memory.backend = .stack arena) :
    table.perform .reset =
      { memory := { table.memory with backend := .stack arena.reset } } := by
  unfold perform
  dsimp only
  rw [h]

/-- A new block has a new name and a valid layout; an old one is used with a size that fits
it; only a stack arena is reset. -/
def Allows (table : BlockTable) : Deed → Prop
  | .allocate name layout | .allocateZeroed name layout =>
    table.blocks name = none ∧ layout.Valid
  | .use name use => ∃ tracked ∈ table.blocks name, use.Fits tracked.holding
  | .reset => ∃ arena, table.memory.backend = .stack arena

instance (table : BlockTable) : (deed : Deed) → Decidable (table.Allows deed)
  | .allocate _ _ | .allocateZeroed _ _ => inferInstanceAs (Decidable (_ ∧ _))
  | .use _ _ => inferInstanceAs (Decidable (∃ tracked ∈ _, _))
  | .reset =>
    match h : table.memory.backend with
    | .stack arena => .isTrue ⟨arena, h⟩
    | .freeList _ | .basic _ | .heap _ | .pages _ =>
      .isFalse fun ⟨_, hstack⟩ => Backend.noConfusion (h.symm.trans hstack)

def run (table : BlockTable) (deeds : List Deed) : BlockTable := deeds.foldl perform table

/-- Every deed of the run is allowed when its turn comes. -/
def Lawful (table : BlockTable) : List Deed → Prop
  | [] => True
  | deed :: later => table.Allows deed ∧ (table.perform deed).Lawful later

instance decidableLawful (table : BlockTable) :
    (deeds : List Deed) → Decidable (table.Lawful deeds)
  | [] => .isTrue trivial
  | deed :: later =>
    have := decidableLawful (table.perform deed) later
    inferInstanceAs (Decidable (_ ∧ _))

/-- Blocks that are not concerned are held as before, and their bytes are as before. -/
def Spares (table table' : BlockTable) (Concerned : Nat → Prop) : Prop :=
  ∀ name tracked, ¬ Concerned name → table.blocks name = some tracked →
    table'.blocks name = some tracked ∧
      ∀ offset < tracked.holding.recorded,
        table'.memory.bytes (tracked.holding.address + offset) =
          table.memory.bytes (tracked.holding.address + offset)

theorem spares_self (table : BlockTable) (Concerned : Nat → Prop) :
    table.Spares table Concerned :=
  fun _ _ _ hheld => ⟨hheld, fun _ _ => rfl⟩

theorem held_put {table : BlockTable} {memory : Memory} {name other : Nat}
    {new : Option TrackedBlock}
    {tracked : TrackedBlock} (h : (table.put memory name new).blocks other = some tracked) :
    (other = name ∧ new = some tracked) ∨ (other ≠ name ∧ table.blocks other = some tracked) := by
  by_cases hsame : other = name
  · exact Or.inl ⟨hsame, (if_pos hsame).symm.trans h⟩
  · exact Or.inr ⟨hsame, (if_neg hsame).symm.trans h⟩

/-- The state of affairs that all deeds preserve. -/
structure Sound (table : BlockTable) : Prop where
  orderly : table.memory.backend.Orderly
  housed : ∀ name tracked, table.blocks name = some tracked →
    table.memory.backend.Houses tracked.holding
  apart : ∀ name other tracked neighbour, name ≠ other → table.blocks name = some tracked →
    table.blocks other = some neighbour → tracked.holding.span.Apart neighbour.holding.span
  reads : ∀ name tracked, table.blocks name = some tracked → tracked.Reads table.memory.bytes

/-- Without blocks there is little to see to. -/
theorem Sound.vacant {memory : Memory} (horderly : memory.backend.Orderly) :
    (BlockTable.mk memory fun _ => none).Sound where
  orderly := horderly
  housed _ _ hheld := nomatch hheld
  apart _ _ _ _ _ hheld := nomatch hheld
  reads _ _ hheld := nomatch hheld

variable {table : BlockTable}

theorem Sound.neighbours (h : table.Sound) {name : Nat} {tracked : TrackedBlock}
    (hheld : table.blocks name = some tracked) :
    ∀ other neighbour, other ≠ name → table.blocks other = some neighbour →
      ∀ address ∈ neighbour.holding.span, address ∉ tracked.holding.span :=
  fun other neighbour hother hneighbour address hin hmine =>
    Span.apart_iff.1 (h.apart other name neighbour tracked hother hneighbour hheld) address
      ⟨hin, hmine⟩

/-- One block gives way to another: the memory takes back the given span and passes on the
span of the new block. -/
theorem Sound.put (h : table.Sound) {name : Nat} {memory : Memory} {given taken : Span}
    (hpasses : Passes table.memory memory given taken)
    (hgiven : ∀ other neighbour, other ≠ name → table.blocks other = some neighbour →
      ∀ address ∈ neighbour.holding.span, address ∉ given)
    {new : Option TrackedBlock}
    (hnew : ∀ tracked, new = some tracked → tracked.holding.span = taken ∧
      memory.backend.Houses tracked.holding ∧ tracked.Reads memory.bytes) :
    (table.put memory name new).Sound ∧
      table.Spares (table.put memory name new) (· = name) := by
  have hspares : table.Spares (table.put memory name new) (· = name) := by
    intro other neighbour hother hheld
    refine ⟨(if_neg hother).trans hheld, fun offset hlt => ?_⟩
    have hin := Holding.offset_mem hlt
    exact hpasses.keeps _ ((h.housed other neighbour hheld).occupied _ hin)
      (hgiven other neighbour hother hheld _ hin)
  have hapart : ∀ other tracked neighbour, other ≠ name → new = some tracked →
      table.blocks other = some neighbour →
      tracked.holding.span.Apart neighbour.holding.span := by
    intro other tracked neighbour hother hmine hheld
    rw [(hnew tracked hmine).1, Span.apart_iff]
    rintro address ⟨htaken, hin⟩
    exact hgiven other neighbour hother hheld address hin
      (hpasses.fresh address htaken ((h.housed other neighbour hheld).occupied address hin))
  refine ⟨⟨hpasses.orderly, ?_, ?_, ?_⟩, hspares⟩
  · intro other tracked hheld
    rcases held_put hheld with ⟨-, hmine⟩ | ⟨hother, hheld⟩
    · exact (hnew tracked hmine).2.1
    · exact hpasses.houses (h.housed other tracked hheld) (hgiven other tracked hother hheld)
  · -- At most one of the two blocks is the new one.
    intro first second tracked neighbour hne hfirst hsecond
    rcases held_put hfirst with ⟨rfl, hmine⟩ | ⟨hother, hold⟩
    · rcases held_put hsecond with ⟨hsame, -⟩ | ⟨hother, hold⟩
      · exact absurd hsame.symm hne
      · exact hapart second tracked neighbour hother hmine hold
    · rcases held_put hsecond with ⟨rfl, hmine⟩ | ⟨-, hold'⟩
      · exact (hapart first neighbour tracked hother hmine hold).symm
      · exact h.apart first second tracked neighbour hne hold hold'
  · intro other tracked hheld
    rcases held_put hheld with ⟨-, hmine⟩ | ⟨hother, hheld⟩
    · exact (hnew tracked hmine).2.2
    · intro offset byte hknown
      obtain ⟨hlt, hbyte⟩ := h.reads other tracked hheld offset byte hknown
      exact ⟨hlt, ((hspares other tracked hother hheld).2 offset hlt).trans hbyte⟩

theorem Sound.received (h : table.Sound) {name : Nat} {layout : Layout}
    {known : Block → Nat → Option UInt8} {answer : Except Refusal (Block × Memory)}
    (hanswer : ∀ block memory, answer = .ok (block, memory) →
      table.memory.Grants layout block memory ∧
        TrackedBlock.Reads ⟨.of layout block, known block⟩ memory.bytes) :
    (table.received name layout known answer).Sound ∧
      table.Spares (table.received name layout known answer) (· = name) := by
  cases hgranted : answer with
  | error refusal => exact ⟨h, table.spares_self _⟩
  | ok found =>
    obtain ⟨hgrants, hreads⟩ := hanswer found.1 found.2 hgranted
    refine h.put hgrants.passes (fun _ _ _ _ address _ => Span.not_mem_nothing address) ?_
    rintro tracked ⟨⟩
    exact ⟨rfl, hgrants.houses, hreads⟩

theorem Sound.resized (h : table.Sound) {name : Nat} {tracked : TrackedBlock}
    (hheld : table.blocks name = some tracked) {wanted kept : Nat}
    {answer : Except Refusal (Block × Memory)}
    (hanswer : ∀ block memory, answer = .ok (block, memory) →
      table.memory.Resizes tracked.holding wanted kept block memory) :
    (table.resized name tracked wanted kept answer).Sound ∧
      table.Spares (table.resized name tracked wanted kept answer) (· = name) := by
  cases hgranted : answer with
  | error refusal => exact ⟨h, table.spares_self _⟩
  | ok found =>
    have hresizes := hanswer found.1 found.2 hgranted
    refine h.put hresizes.passes (h.neighbours hheld) ?_
    rintro new ⟨⟩
    refine ⟨rfl, hresizes.houses, fun offset byte hknown => ?_⟩
    by_cases hkept : offset < kept
    · obtain ⟨hlt, hbyte⟩ :=
        h.reads name tracked hheld offset byte ((if_pos hkept).symm.trans hknown)
      exact ⟨Nat.lt_of_lt_of_le hlt (Nat.le_max_left _ _),
        (hresizes.carries offset hkept).trans hbyte⟩
    · cases (if_neg hkept).symm.trans hknown

theorem Sound.apply (h : table.Sound) {name : Nat} {tracked : TrackedBlock}
    (hheld : table.blocks name = some tracked) {use : Use} (hfits : use.Fits tracked.holding) :
    (table.apply name tracked use).Sound ∧
      table.Spares (table.apply name tracked use) (· = name) := by
  have hhoused := h.housed name tracked hheld
  cases use with
  | write offset byte =>
    have hlt : offset < tracked.holding.recorded := hfits
    have hpasses : Passes table.memory
        { table.memory with
          bytes := table.memory.bytes.fill (tracked.holding.address + offset) 1 byte }
        tracked.holding.span tracked.holding.span := by
      refine (Passes.still h.orderly hhoused.occupied).paint fun address hout => ?_
      refine Bytes.fill_of_not_mem fun hin => hout ?_
      rw [Span.mem_iff]
      simp only [Holding.span]
      omega
    refine h.put hpasses (h.neighbours hheld) ?_
    rintro new ⟨⟩
    refine ⟨rfl, hhoused, fun other value hknown => ?_⟩
    show other < tracked.holding.recorded ∧
      table.memory.bytes.fill (tracked.holding.address + offset) 1 byte
        (tracked.holding.address + other) = value
    by_cases hsame : other = offset
    · subst hsame
      obtain rfl := Option.some.inj ((if_pos rfl).symm.trans hknown)
      exact ⟨hlt, Bytes.fill_of_mem (by omega)⟩
    · obtain ⟨hlt, hbyte⟩ :=
        h.reads name tracked hheld other value ((if_neg hsame).symm.trans hknown)
      exact ⟨hlt, (Bytes.fill_of_not_mem (by omega)).trans hbyte⟩
  | expand size wanted =>
    refine h.resized hheld fun block memory hanswer => ?_
    obtain ⟨⟨answer, grown⟩, hgrown, heq⟩ := Except.of_map_ok hanswer
    obtain ⟨rfl, rfl⟩ := Prod.mk.inj heq
    exact Memory.expand_resizes h.orderly hhoused hfits hgrown
  | reallocate size wanted =>
    refine h.resized hheld fun block memory hanswer => ?_
    exact Memory.reallocate_resizes h.orderly hhoused hfits hanswer
  | deallocate size =>
    refine h.put (Memory.deallocate_passes h.orderly hhoused hfits) (h.neighbours hheld) ?_
    intro tracked hnone
    cases hnone

/-- One deed preserves the state of affairs and spares what it is not about. -/
theorem Sound.perform (h : table.Sound) {deed : Deed} (hallows : table.Allows deed) :
    (table.perform deed).Sound ∧ table.Spares (table.perform deed) deed.Concerns := by
  cases deed with
  | allocate name layout =>
    refine h.received fun block memory hanswer => ?_
    refine ⟨Memory.allocate_grants h.orderly hallows.2 hanswer, ?_⟩
    intro offset byte hknown
    cases hknown
  | allocateZeroed name layout =>
    refine h.received fun block memory hanswer => ?_
    obtain ⟨hgrants, hclear⟩ := Memory.allocateZeroed_grants h.orderly hallows.2 hanswer
    refine ⟨hgrants, fun offset byte hknown => ?_⟩
    by_cases hlt : offset < block.size
    · obtain rfl := Option.some.inj ((if_pos hlt).symm.trans hknown)
      exact ⟨hlt, hclear _ (Block.offset_mem hlt)⟩
    · cases (if_neg hlt).symm.trans hknown
  | use name use =>
    obtain ⟨tracked, hheld, hfits⟩ := hallows
    rw [perform_use hheld]
    exact h.apply hheld hfits
  | reset =>
    obtain ⟨arena, hstack⟩ := hallows
    rw [perform_reset hstack]
    have horderly : (Backend.stack arena.reset).Orderly := trivial
    exact ⟨.vacant horderly, fun name tracked hunconcerned => absurd trivial hunconcerned⟩

/-- What one deed preserves, a lawful run preserves. -/
theorem Sound.run (h : table.Sound) {deeds : List Deed} (hlawful : table.Lawful deeds) :
    (table.run deeds).Sound := by
  induction deeds generalizing table with
  | nil => exact h
  | cons deed later ih => exact ih (h.perform hlawful.1).1 hlawful.2

/-- The blocks of the table are private byte arrays. -/
structure Private (table : BlockTable) : Prop where
  /-- Reading a block yields what must be in it. -/
  reads : ∀ name tracked, table.blocks name = some tracked → tracked.Reads table.memory.bytes
  /-- No two blocks have a byte in common. -/
  apart : ∀ name other tracked neighbour, name ≠ other → table.blocks name = some tracked →
    table.blocks other = some neighbour → tracked.holding.span.Apart neighbour.holding.span
  /-- Whatever is done next, answered or refused, leaves all other blocks alone. -/
  spares : ∀ deed, table.Allows deed → table.Spares (table.perform deed) deed.Concerns
  /-- A block keeps the bytes of its old size when it is reallocated, written or not. -/
  carries : ∀ name tracked size wanted block memory, table.blocks name = some tracked →
    tracked.holding.Fits size →
    table.memory.reallocate tracked.holding.address (tracked.holding.layout size) wanted =
      .ok (block, memory) →
    ∀ offset < size, memory.bytes (block.address + offset) =
      table.memory.bytes (tracked.holding.address + offset)

/-- Blocks are private after every lawful run that starts with nothing in use.  A fresh
allocator is orderly. -/
theorem blocks_private {memory : Memory} (horderly : memory.backend.Orderly)
    {deeds : List Deed} (hlawful : (BlockTable.mk memory fun _ => none).Lawful deeds) :
    ((BlockTable.mk memory fun _ => none).run deeds).Private := by
  have hsound := (Sound.vacant horderly).run hlawful
  refine ⟨hsound.reads, hsound.apart, fun deed hallows => (hsound.perform hallows).2, ?_⟩
  intro name tracked size wanted block memory' hheld hfits hanswer offset hlt
  have hresizes :=
    Memory.reallocate_resizes hsound.orderly (hsound.housed name tracked hheld) hfits hanswer
  refine hresizes.carries offset ?_
  unfold Memory.carried
  split
  · exact Nat.lt_of_lt_of_le hlt hfits.2
  · exact hlt

/-- Two regions whose bytes are all 17. -/
def meadow : Memory :=
  { backend := .freeList ([⟨4096, 256⟩, ⟨8192, 100⟩].foldl FreeList.addRegion {})
    bytes := fun _ => 17 }

theorem meadow_orderly : meadow.backend.Orderly := by
  refine Backend.Fresh.orderly ⟨[⟨4096, 256⟩, ⟨8192, 100⟩], ?_, rfl⟩
  decide

/-- A block makes way for its neighbour, and a clear one takes the place that it left. -/
def makingWay : List Deed :=
  [.allocate 0 ⟨24, 8⟩, .use 0 (.write 5 171), .use 0 (.write 23 9), .allocate 1 ⟨16, 8⟩,
    .use 1 (.write 0 66), .use 0 (.reallocate 30 100), .allocateZeroed 2 ⟨20, 4⟩,
    .use 2 (.write 3 1), .use 1 (.expand 16 64), .use 1 (.deallocate 16)]

theorem blocks_private_makingWay :
    (meadow.backend.Orderly ∧ (BlockTable.mk meadow fun _ => none).Lawful makingWay) ∧
      ((BlockTable.mk meadow fun _ => none).run makingWay).Private :=
  have hlawful : (BlockTable.mk meadow fun _ => none).Lawful makingWay := by decide +kernel
  ⟨⟨meadow_orderly, hlawful⟩, blocks_private meadow_orderly hlawful⟩

end BlockTable
end Freehold
