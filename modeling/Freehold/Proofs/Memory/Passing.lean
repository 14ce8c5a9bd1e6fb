import Mathlib.Data.List.Pairwise
import Freehold.Proofs.Memory.Grants
import Freehold.Proofs.Memory.AllocatorState

/-!
# Memory that passes from hand to hand

Every allocator knows of each address whether it may hand it out.  An operation on a block
takes some addresses back and passes others on.  What it passes on was free before, or is
part of the block; every other address in use stays in use and keeps its byte.  This is all
that the privacy of blocks rests on, and it is shown here for each operation of each
allocator.
-/

namespace Freehold

/-- The span of no addresses. -/
def Span.nothing : Span := ⟨0, 0⟩

@[simp] theorem Span.not_mem_nothing (address : Nat) : address ∉ Span.nothing := by
  rw [Span.mem_iff]
  simp [Span.nothing]

/-- A span is its beginning and what lies behind that. -/
theorem Span.mem_parts (start : Nat) {part whole : Nat} (h : part ≤ whole) (address : Nat) :
    address ∈ (⟨start, whole⟩ : Span) ↔
      address ∈ (⟨start, part⟩ : Span) ∨ address ∈ (⟨start + part, whole - part⟩ : Span) := by
  simp only [Span.mem_iff]
  omega

/-- All addresses of a block. -/
def Holding.span (holding : Holding) : Span := ⟨holding.address, holding.recorded⟩

theorem Holding.offset_mem {holding : Holding} {offset : Nat} (h : offset < holding.recorded) :
    holding.address + offset ∈ holding.span := by
  rw [Span.mem_iff]
  simp only [Holding.span]
  omega

theorem Block.offset_mem {block : Block} {offset : Nat} (h : offset < block.size) :
    block.address + offset ∈ block.span := by
  rw [Span.mem_iff]
  simp only [Block.span]
  omega

theorem Block.not_mem_dangling (align address : Nat) : address ∉ (Block.dangling align).span := by
  intro hin
  rw [Span.mem_iff] at hin
  simp only [Block.span, Block.dangling] at hin
  omega

namespace Backend

/-- The allocator does not hand out the address as it stands. -/
def Occupied : Backend → Nat → Prop
  | .stack arena, address => address < arena.base + arena.used
  | .freeList list, address | .basic list, address => ¬ FreeList.Free list.spans address
  | .heap books, address => ∃ span ∈ books.used, address ∈ span
  | .pages books, address => ∃ span ∈ books.mapped, address ∈ span

/-- The books are in order. -/
def Orderly : Backend → Prop
  | .stack _ | .pages _ => True
  | .freeList list | .basic list => FreeList.Tidy list.spans
  | .heap books => books.used.Pairwise Span.Apart ∧ ∀ span ∈ books.used, 0 < span.size

/-- What an allocator relies on when it gets a block back that is not empty. -/
def Footing (block : Span) : Backend → Prop
  | .stack _ | .pages _ => True
  | .freeList _ | .basic _ => FreeList.granule ∣ block.start
  | .heap books => block ∈ books.used

/-- A block in use. -/
structure Houses (backend : Backend) (holding : Holding) : Prop where
  rounded : holding.recorded = Word.roundUp holding.requested backend.granule
  occupied : ∀ address ∈ holding.span, backend.Occupied address
  footing : 0 < holding.recorded → backend.Footing holding.span

theorem Houses.roundUp_of_fits {backend : Backend} {holding : Holding}
    (h : backend.Houses holding) {size : Nat} (hfits : holding.Fits size) :
    Word.roundUp size backend.granule = holding.recorded := by
  rw [h.rounded]
  exact Word.roundUp_eq_of_between backend.granule_pos hfits.1 (h.rounded ▸ hfits.2)

end Backend

/-- The given span has come back and the taken one was passed on.  A block that is apart
from the given span is not affected. -/
structure Passes (memory memory' : Memory) (given taken : Span) : Prop where
  units : memory'.backend.granule = memory.backend.granule
  orderly : memory'.backend.Orderly
  occupied : ∀ address ∈ taken, memory'.backend.Occupied address
  fresh : ∀ address ∈ taken, memory.backend.Occupied address → address ∈ given
  stays : ∀ address, memory.backend.Occupied address → address ∉ given →
    memory'.backend.Occupied address
  keeps : ∀ address, memory.backend.Occupied address → address ∉ given →
    memory'.bytes address = memory.bytes address
  footing : ∀ block : Span, 0 < block.size → memory.backend.Footing block →
    (∀ address ∈ block, address ∉ given) → memory'.backend.Footing block

namespace Passes

variable {memory middle memory' : Memory} {given taken : Span}

/-- Nothing happens to a block that stays as it is. -/
theorem still (horderly : memory.backend.Orderly) {span : Span}
    (hoccupied : ∀ address ∈ span, memory.backend.Occupied address) :
    Passes memory memory span span where
  units := rfl
  orderly := horderly
  occupied := hoccupied
  fresh := fun _ hin _ => hin
  stays := fun _ hused _ => hused
  keeps := fun _ _ _ => rfl
  footing := fun _ _ hfooting _ => hfooting

/-- Nothing is passed on with an empty span. -/
theorem idle (horderly : memory.backend.Orderly) (hempty : ∀ address, address ∉ taken) :
    Passes memory memory .nothing taken where
  units := rfl
  orderly := horderly
  occupied := fun address hin => absurd hin (hempty address)
  fresh := fun address hin _ => absurd hin (hempty address)
  stays := fun _ hused _ => hused
  keeps := fun _ _ _ => rfl
  footing := fun _ _ hfooting _ => hfooting

/-- A block that comes back may also stay in use. -/
theorem give (h : Passes memory memory' .nothing taken) : Passes memory memory' given taken where
  units := h.units
  orderly := h.orderly
  occupied := h.occupied
  fresh := fun address hin hused =>
    absurd (h.fresh address hin hused) (Span.not_mem_nothing address)
  stays := fun address hused _ => h.stays address hused (Span.not_mem_nothing address)
  keeps := fun address hused _ => h.keeps address hused (Span.not_mem_nothing address)
  footing := fun block hpos hfooting _ =>
    h.footing block hpos hfooting fun address _ => Span.not_mem_nothing address

/-- A block apart from what came back stays in use. -/
theorem houses (h : Passes memory memory' given taken) {holding : Holding}
    (hhoused : memory.backend.Houses holding)
    (hout : ∀ address ∈ holding.span, address ∉ given) : memory'.backend.Houses holding where
  rounded := by
    rw [h.units]
    exact hhoused.rounded
  occupied := fun address hin => h.stays address (hhoused.occupied address hin) (hout address hin)
  footing := fun hpos => h.footing holding.span hpos (hhoused.footing hpos) hout

/-- What is written to the block that is passed on concerns no other. -/
theorem paint (h : Passes memory memory' given taken) {bytes : Bytes}
    (hsame : ∀ address, address ∉ taken → bytes address = memory'.bytes address) :
    Passes memory { memory' with bytes := bytes } given taken where
  units := h.units
  orderly := h.orderly
  occupied := h.occupied
  fresh := h.fresh
  stays := h.stays
  keeps := by
    intro address hused hout
    rw [← h.keeps address hused hout]
    exact hsame address fun hin => hout (h.fresh address hin hused)
  footing := h.footing

/-- A block comes back and then another one is passed on. -/
theorem thenObtain (h : Passes memory middle given .nothing)
    (hnext : Passes middle memory' .nothing taken) : Passes memory memory' given taken where
  units := hnext.units.trans h.units
  orderly := hnext.orderly
  occupied := hnext.occupied
  fresh := by
    intro address hin hused
    refine Decidable.byContradiction fun hout => ?_
    exact Span.not_mem_nothing address (hnext.fresh address hin (h.stays address hused hout))
  stays := by
    intro address hused hout
    exact hnext.stays address (h.stays address hused hout) (Span.not_mem_nothing address)
  keeps := by
    intro address hused hout
    rw [← h.keeps address hused hout]
    exact hnext.keeps address (h.stays address hused hout) (Span.not_mem_nothing address)
  footing := by
    intro block hpos hfooting hout
    refine hnext.footing block hpos (h.footing block hpos hfooting hout) ?_
    exact fun address _ => Span.not_mem_nothing address

/-- A block is passed on and then another one comes back. -/
theorem thenRelease (h : Passes memory middle .nothing taken)
    (hnext : Passes middle memory' given .nothing)
    (hgiven : ∀ address ∈ given, memory.backend.Occupied address) :
    Passes memory memory' given taken where
  units := hnext.units.trans h.units
  orderly := hnext.orderly
  occupied := by
    intro address hin
    refine hnext.stays address (h.occupied address hin) fun hback => ?_
    exact Span.not_mem_nothing address (h.fresh address hin (hgiven address hback))
  fresh := fun address hin hused =>
    absurd (h.fresh address hin hused) (Span.not_mem_nothing address)
  stays := by
    intro address hused hout
    exact hnext.stays address (h.stays address hused (Span.not_mem_nothing address)) hout
  keeps := by
    intro address hused hout
    have hstays := h.stays address hused (Span.not_mem_nothing address)
    rw [hnext.keeps address hstays hout, h.keeps address hused (Span.not_mem_nothing address)]
  footing := by
    intro block hpos hfooting hout
    refine hnext.footing block hpos (h.footing block hpos hfooting ?_) hout
    exact fun address _ => Span.not_mem_nothing address

end Passes

/-! ## Stack arenas -/

section Stack

variable {arena : StackArena} {bytes : Bytes} {given taken : Span}

/-- A step of a stack arena moves the end of what is used.  What lies before the given and
the taken span stays where it is. -/
theorem stack_passes {used : Nat} {last : Option Nat}
    (hstays : ∀ address < arena.base + arena.used, address ∉ given → address < arena.base + used)
    (htaken : ∀ address ∈ taken, address < arena.base + used)
    (hfresh : ∀ address ∈ taken, address < arena.base + arena.used → address ∈ given) :
    Passes { backend := .stack arena, bytes := bytes }
      { backend := .stack { arena with used := used, last := last }, bytes := bytes }
      given taken where
  units := rfl
  orderly := trivial
  occupied := htaken
  fresh := hfresh
  stays := hstays
  keeps := fun _ _ _ => rfl
  footing := fun _ _ _ _ => trivial

theorem stack_allocate_passes {layout : Layout} {block : Block} {arena' : StackArena}
    (h : arena.allocate layout = .ok (block, arena')) :
    Passes { backend := .stack arena, bytes := bytes } { backend := .stack arena', bytes := bytes }
      .nothing block.span := by
  rcases StackArena.allocate_ok h with ⟨-, rfl, rfl⟩ | ⟨hpos, start, hstart, rfl, rfl⟩
  · refine stack_passes (fun _ hlt _ => hlt) ?_ ?_
    all_goals exact fun address hin => absurd hin (Block.not_mem_dangling _ address)
  · refine stack_passes ?_ ?_ ?_
    · intro address hlt _
      omega
    all_goals
      intro address hin
      rw [Span.mem_iff] at hin
      simp only [Block.span] at hin
      omega

theorem stack_expand_passes {holding : Holding} {size wanted : Nat} {arena' : StackArena}
    (hhoused : ∀ address ∈ holding.span, address < arena.base + arena.used)
    (h : arena.expand holding.address (holding.layout holding.recorded) wanted =
      .ok (size, arena')) :
    Passes { backend := .stack arena, bytes := bytes } { backend := .stack arena', bytes := bytes }
      holding.span ⟨holding.address, max holding.recorded size⟩ := by
  rcases StackArena.expand_ok h with ⟨-, rfl, rfl⟩ | ⟨hlt, rfl, start, haddress, hused, rfl⟩
  · show Passes _ _ _ ⟨holding.address, max holding.recorded holding.recorded⟩
    rw [Nat.max_self]
    have horderly : (Backend.stack arena').Orderly := trivial
    exact .still horderly hhoused
  · have hold : start + holding.recorded = arena.used := hused
    have hmore : holding.recorded < size := hlt
    refine stack_passes ?_ ?_ ?_
    · intro address hin _
      omega
    · intro address hin
      rw [Span.mem_iff] at hin
      dsimp only at hin
      omega
    · intro address hin _
      rw [Span.mem_iff] at hin ⊢
      simp only [Holding.span] at hin ⊢
      omega

theorem stack_deallocate_passes {holding : Holding} :
    Passes { backend := .stack arena, bytes := bytes }
      { backend := .stack (arena.deallocate holding.address (holding.layout holding.recorded))
        bytes := bytes }
      holding.span .nothing := by
  unfold StackArena.deallocate
  split
  · exact stack_passes (fun _ hlt _ => hlt) (by simp) (by simp)
  split
  · exact stack_passes (fun _ hlt _ => hlt) (by simp) (by simp)
  · rename_i start hlast
    obtain ⟨haddress, hused⟩ := StackArena.lastStart?_some hlast
    refine stack_passes ?_ (by simp) (by simp)
    intro address hlt hout
    rw [Span.mem_iff] at hout
    simp only [Holding.span, Holding.layout] at hout hused
    omega

end Stack

/-! ## Free lists -/

section Lists

variable {wrap : FreeList → Backend} {memory : Memory} {list : FreeList} {given taken : Span}

theorem headerByte?_of_not_free {spans : List Span} (hgranular : ∀ span ∈ spans, span.Granular)
    {address : Nat} (hfree : ¬ FreeList.Free spans address) :
    FreeList.headerByte? address spans = none := by
  induction spans with
  | nil => rfl
  | cons span rest ih =>
    rw [FreeList.free_cons, not_or] at hfree
    have hspan := hgranular span (by simp)
    have hgranule := Nat.le_of_dvd hspan.pos hspan.size
    unfold FreeList.headerByte?
    rw [if_neg, ih (fun other hmem => hgranular other (by simp [hmem])) hfree.2]
    intro hin
    apply hfree.1
    rw [Span.mem_iff]
    omega

/-- The headers of a list lie in free memory. -/
theorem withList_bytes (memory : Memory) (wrap : FreeList → Backend)
    (htidy : FreeList.Tidy list.spans)
    {address : Nat} (hfree : ¬ FreeList.Free list.spans address) :
    (memory.withList wrap list).bytes address = memory.bytes address := by
  show (FreeList.headerByte? address list.spans).getD _ = _
  rw [headerByte?_of_not_free htidy.granular hfree]
  rfl

/-- Both interfaces to free lists keep the same books. -/
structure Lists (wrap : FreeList → Backend) : Prop where
  occupied : ∀ list address, (wrap list).Occupied address ↔ ¬ FreeList.Free list.spans address
  orderly : ∀ list, (wrap list).Orderly ↔ FreeList.Tidy list.spans
  footing : ∀ list block, (wrap list).Footing block ↔ FreeList.granule ∣ block.start
  granule : ∀ list, (wrap list).granule = FreeList.granule

theorem lists_freeList : Lists .freeList :=
  ⟨fun _ _ => .rfl, fun _ => .rfl, fun _ _ => .rfl, fun _ => rfl⟩

theorem lists_basic : Lists .basic :=
  ⟨fun _ _ => .rfl, fun _ => .rfl, fun _ _ => .rfl, fun _ => rfl⟩

/-- A step of a free list: the given span has become free, and the taken one is no longer
free. -/
theorem list_passes (hwrap : Lists wrap) (hbackend : memory.backend = wrap list) {list' : FreeList}
    (htidy : FreeList.Tidy list'.spans)
    (hfree : ∀ address, FreeList.Free list'.spans address →
      address ∉ taken ∧ (FreeList.Free list.spans address ∨ address ∈ given))
    (hinside : ∀ address ∈ taken, address ∈ given ∨ FreeList.Free list.spans address) :
    Passes memory (memory.withList wrap list') given taken where
  units := by
    rw [hbackend, hwrap.granule]
    exact hwrap.granule list'
  orderly := (hwrap.orderly list').2 htidy
  occupied := by
    intro address hin
    exact (hwrap.occupied list' address).2 fun hback => (hfree address hback).1 hin
  fresh := by
    intro address hin hused
    rw [hbackend, hwrap.occupied] at hused
    exact (hinside address hin).resolve_right hused
  stays := by
    intro address hused hout
    rw [hbackend, hwrap.occupied] at hused
    refine (hwrap.occupied list' address).2 fun hback => ?_
    exact (hfree address hback).2.elim hused hout
  keeps := by
    intro address hused hout
    rw [hbackend, hwrap.occupied] at hused
    refine withList_bytes memory wrap htidy fun hback => ?_
    exact (hfree address hback).2.elim hused hout
  footing := by
    intro block _ hfooting _
    rw [hbackend, hwrap.footing] at hfooting
    exact (hwrap.footing list' block).2 hfooting

/-- A request for bytes takes the block out of what is free. -/
theorem FreeList.allocate_taken {list' : FreeList} (htidy : Tidy list.spans) {layout : Layout}
    (hvalid : layout.Valid) (hpos : 0 < layout.size) {block : Block}
    (h : list.allocate layout = .ok (block, list')) :
    Taken list.spans list'.spans block.span ∧ granule ∣ block.address := by
  rcases allocate_ok h with ⟨hzero, -⟩ | ⟨-, start, spans, hcarve, rfl, rfl⟩
  · omega
  · obtain ⟨-, hgranule⟩ := dvd_max_granule hvalid.1
    obtain ⟨hstart, htaken⟩ := carve_taken (Word.dvd_roundUp _ _)
      (Word.roundUp_pos granule_pos hpos) hgranule
      (Nat.lt_of_lt_of_le granule_pos (Nat.le_max_right _ _)) htidy hcarve
    exact ⟨htaken, Nat.dvd_trans hgranule hstart⟩

theorem list_allocate_passes (hwrap : Lists wrap) (hbackend : memory.backend = wrap list)
    (htidy : FreeList.Tidy list.spans) {layout : Layout} (hvalid : layout.Valid) {block : Block}
    {list' : FreeList} (h : list.allocate layout = .ok (block, list')) :
    Passes memory (memory.withList wrap list') .nothing block.span ∧
      (0 < block.size → FreeList.granule ∣ block.address) := by
  rcases FreeList.allocate_ok h with ⟨-, rfl, rfl⟩ | ⟨hpos, -⟩
  · have hempty := Block.not_mem_dangling layout.align
    refine ⟨list_passes hwrap hbackend htidy ?_ ?_, fun hpos => absurd hpos (Nat.lt_irrefl 0)⟩
    · exact fun address hback => ⟨hempty address, Or.inl hback⟩
    · exact fun address hin => absurd hin (hempty address)
  · obtain ⟨htaken, hgranule⟩ := FreeList.allocate_taken htidy hvalid hpos h
    refine ⟨list_passes hwrap hbackend htaken.tidy ?_ ?_, fun _ => hgranule⟩
    · intro address hback
      obtain ⟨hfree, hout⟩ := (htaken.free_iff address).1 hback
      exact ⟨hout, Or.inl hfree⟩
    · exact fun address hin => Or.inr (htaken.inside address hin)

/-- A block that is not empty becomes free again when it comes back. -/
theorem deallocate_given (hwrap : Lists wrap) (htidy : FreeList.Tidy list.spans)
    {holding : Holding} (hhoused : (wrap list).Houses holding) {size : Nat}
    (hfits : holding.Fits size) (hpos : 0 < size) :
    FreeList.Given list.spans
      (list.give ⟨holding.address, Word.roundUp (holding.layout size).size FreeList.granule⟩).spans
      holding.span := by
  have hround := hhoused.roundUp_of_fits hfits
  rw [hwrap.granule] at hround
  have hrecorded : 0 < holding.recorded := Nat.lt_of_lt_of_le hpos hfits.2
  have hspan : (⟨holding.address, Word.roundUp (holding.layout size).size FreeList.granule⟩ :
      Span) = holding.span := congrArg (Span.mk holding.address) hround
  have hgranular : holding.span.Granular := by
    refine ⟨(hwrap.footing list holding.span).1 (hhoused.footing hrecorded), ?_, hrecorded⟩
    show FreeList.granule ∣ holding.recorded
    rw [← hround]
    exact Word.dvd_roundUp _ _
  rw [hspan]
  refine FreeList.insert_given hgranular htidy fun other hother => ?_
  rw [Span.apart_iff]
  rintro address ⟨hinOther, hin⟩
  exact (hwrap.occupied list address).1 (hhoused.occupied address hin) ⟨other, hother, hinOther⟩

theorem list_deallocate_passes (hwrap : Lists wrap) (hbackend : memory.backend = wrap list)
    (htidy : FreeList.Tidy list.spans) {holding : Holding}
    (hhoused : (wrap list).Houses holding) {size : Nat} (hfits : holding.Fits size) :
    Passes memory (memory.withList wrap (list.deallocate holding.address (holding.layout size)))
      holding.span .nothing := by
  unfold FreeList.deallocate
  split
  · refine list_passes hwrap hbackend htidy ?_ (by simp)
    exact fun address hback => ⟨Span.not_mem_nothing address, Or.inl hback⟩
  · rename_i hpos
    have hgiven := deallocate_given hwrap htidy hhoused hfits (Nat.pos_of_ne_zero hpos)
    refine list_passes hwrap hbackend hgiven.tidy ?_ (by simp)
    intro address hback
    exact ⟨Span.not_mem_nothing address, (hgiven.free_iff address).1 hback⟩

/-- A list that is left as it is leaves a block as it is. -/
theorem list_still (hwrap : Lists wrap) (hbackend : memory.backend = wrap list)
    (htidy : FreeList.Tidy list.spans) {holding : Holding}
    (hhoused : (wrap list).Houses holding) :
    Passes memory (memory.withList wrap list) holding.span holding.span := by
  refine list_passes hwrap hbackend htidy ?_ fun address hin => Or.inl hin
  intro address hback
  refine ⟨fun hin => ?_, Or.inl hback⟩
  exact (hwrap.occupied list address).1 (hhoused.occupied address hin) hback

theorem absorb_granular {address extra : Nat} {spans rest : List Span}
    (htidy : FreeList.Tidy spans) (h : FreeList.absorb address extra spans = some rest) :
    FreeList.granule ∣ address := by
  induction spans generalizing rest with
  | nil => cases h
  | cons span spans ih =>
    obtain ⟨hspan, -, hspans⟩ := FreeList.tidy_cons.1 htidy
    unfold FreeList.absorb at h
    split at h
    · contradiction
    split at h
    · rename_i hstart
      exact hstart ▸ hspan.start
    · obtain ⟨rest', hfound, -⟩ := Option.map_eq_some_iff.1 h
      exact ih hspans hfound

theorem list_expand_passes (hwrap : Lists wrap) (hbackend : memory.backend = wrap list)
    (htidy : FreeList.Tidy list.spans) {holding : Holding}
    (hhoused : (wrap list).Houses holding) {size wanted answer : Nat} (hfits : holding.Fits size)
    {list' : FreeList}
    (h : list.expand holding.address (holding.layout size) wanted = .ok (answer, list')) :
    Passes memory (memory.withList wrap list') holding.span
        ⟨holding.address, max holding.recorded answer⟩ ∧
      (0 < max holding.recorded answer → FreeList.granule ∣ holding.address) := by
  have hround := hhoused.roundUp_of_fits hfits
  rw [hwrap.granule] at hround
  have hkept : ∀ answer, answer ≤ holding.recorded →
      Passes memory (memory.withList wrap list) holding.span
          ⟨holding.address, max holding.recorded answer⟩ ∧
        (0 < max holding.recorded answer → FreeList.granule ∣ holding.address) := by
    intro answer hle
    rw [Nat.max_eq_left hle]
    exact ⟨list_still hwrap hbackend htidy hhoused,
      fun hpos => (hwrap.footing list holding.span).1 (hhoused.footing hpos)⟩
  rcases FreeList.expand_ok h with
    ⟨-, rfl, rfl⟩ | ⟨-, -, rfl, rfl⟩ | ⟨hlt, spans, habsorb, rfl, rfl⟩
  · exact hkept _ hfits.2
  · exact hkept _ (Nat.le_of_eq hround)
  · have hold : Word.roundUp (holding.layout size).size FreeList.granule = holding.recorded :=
      hround
    rw [hold] at hlt habsorb
    have hextra : FreeList.granule ∣ Word.roundUp wanted FreeList.granule - holding.recorded :=
      Nat.dvd_sub (Word.dvd_roundUp _ _) (hround ▸ Word.dvd_roundUp _ _)
    have htaken := FreeList.absorb_taken hextra (Nat.sub_pos_of_lt hlt) htidy habsorb
    have hle := Nat.le_of_lt hlt
    rw [Nat.max_eq_right hle]
    refine ⟨list_passes hwrap hbackend htaken.tidy ?_ ?_, fun _ => ?_⟩
    · intro address hback
      obtain ⟨hfree, hout⟩ := (htaken.free_iff address).1 hback
      refine ⟨fun hin => ?_, Or.inl hfree⟩
      rcases (Span.mem_parts holding.address hle address).1 hin with hin | hin
      · exact (hwrap.occupied list address).1 (hhoused.occupied address hin) hfree
      · exact hout hin
    · intro address hin
      exact ((Span.mem_parts holding.address hle address).1 hin).imp_right (htaken.inside address)
    · rcases Nat.eq_zero_or_pos holding.recorded with hzero | hpos
      · have haddress := absorb_granular htidy habsorb
        rwa [hzero, Nat.add_zero] at haddress
      · exact (hwrap.footing list holding.span).1 (hhoused.footing hpos)

end Lists

/-! ## The heap -/

section Heap

variable {heap : Heap} {bytes : Bytes}

theorem Host.Accepts.apart {used : List Span} {layout : Layout} {block : Block}
    (h : Host.Accepts used layout block.address) (hsize : block.size = layout.size) {span : Span}
    (hmem : span ∈ used) : span.Apart block.span := by
  have hspan : block.span = ⟨block.address, layout.size⟩ := congrArg (Span.mk block.address) hsize
  rw [hspan]
  exact h.2.2.2 span hmem

theorem heap_obtain_passes (horderly : (Backend.heap heap).Orderly) {layout : Layout}
    (hpos : 0 < layout.size) {block : Block} {heap' : Heap}
    (h : heap.obtain? layout = some (block, heap')) :
    Passes { backend := .heap heap, bytes := bytes } { backend := .heap heap', bytes := bytes }
        .nothing block.span ∧
      (Backend.heap heap').Footing block.span := by
  obtain ⟨hsize, haccepts, rfl⟩ := Heap.obtain?_some h
  refine ⟨⟨rfl, ⟨List.pairwise_cons.2 ⟨?_, horderly.1⟩, ?_⟩, ?_, ?_, ?_, fun _ _ _ => rfl, ?_⟩, ?_⟩
  · exact fun span hmem => (haccepts.apart hsize hmem).symm
  · intro span hmem
    rcases List.mem_cons.1 hmem with rfl | hmem
    · exact Nat.lt_of_lt_of_eq hpos hsize.symm
    · exact horderly.2 span hmem
  · exact fun address hin => ⟨block.span, List.mem_cons_self, hin⟩
  · rintro address hin ⟨span, hmem, hinSpan⟩
    exact absurd ⟨hinSpan, hin⟩ (Span.apart_iff.1 (haccepts.apart hsize hmem) address)
  · rintro address ⟨span, hmem, hin⟩ -
    exact ⟨span, List.mem_cons_of_mem _ hmem, hin⟩
  · exact fun block _ hfooting _ => List.mem_cons_of_mem _ hfooting
  · exact List.mem_cons_self

/-- Spans that are apart and share an address are the same one. -/
theorem Span.eq_of_shared {spans : List Span} (hapart : spans.Pairwise Span.Apart)
    {first second : Span} (hfirst : first ∈ spans) (hsecond : second ∈ spans) {address : Nat}
    (hin : address ∈ first) (hin' : address ∈ second) : first = second := by
  have hsymm : Std.Symm Span.Apart := ⟨fun _ _ h => h.symm⟩
  refine Decidable.byContradiction fun hne => ?_
  exact Span.apart_iff.1 (hapart.forall hfirst hsecond hne) address ⟨hin, hin'⟩

theorem Span.start_mem {span : Span} (hpos : 0 < span.size) : span.start ∈ span := by
  rw [Span.mem_iff]
  omega

theorem heap_release_passes (horderly : (Backend.heap heap).Orderly) {holding : Holding}
    (hpos : 0 < holding.recorded) (hfooting : holding.span ∈ heap.used) :
    Passes { backend := .heap heap, bytes := bytes }
      { backend := .heap (heap.release holding.address), bytes := bytes }
      holding.span .nothing := by
  have hstart : holding.address ∈ holding.span := Span.start_mem hpos
  refine ⟨rfl, ⟨horderly.1.filter _, ?_⟩, by simp, by simp, ?_, fun _ _ _ => rfl, ?_⟩
  · exact fun span hmem => horderly.2 span (List.mem_filter.1 hmem).1
  · rintro address ⟨span, hmem, hin⟩ hout
    refine ⟨span, List.mem_filter.2 ⟨hmem, ?_⟩, hin⟩
    refine decide_eq_true fun hsame => hout ?_
    have hfirst := Span.start_mem (horderly.2 span hmem)
    rw [← Span.eq_of_shared horderly.1 hmem hfooting hfirst (hsame ▸ hstart)]
    exact hin
  · intro other hposOther hother hout
    refine List.mem_filter.2 ⟨hother, decide_eq_true fun hsame => ?_⟩
    exact hout other.start (Span.start_mem hposOther) (hsame ▸ hstart)

end Heap

/-! ## Page maps -/

section Pages

variable {pages : PageMap} {bytes : Bytes}

theorem pages_obtain_passes {size : Nat} {block : Block} {pages' : PageMap}
    (h : pages.obtain? size = some (block, pages')) :
    Passes { backend := .pages pages, bytes := bytes } { backend := .pages pages', bytes := bytes }
      .nothing block.span := by
  obtain ⟨hsize, haccepts, rfl⟩ := PageMap.obtain?_some h
  refine ⟨rfl, trivial, fun address hin => ⟨block.span, List.mem_cons_self, hin⟩, ?_, ?_,
    fun _ _ _ => rfl, fun _ _ _ _ => trivial⟩
  · rintro address hin ⟨span, hmem, hinSpan⟩
    exact absurd ⟨hinSpan, hin⟩ (Span.apart_iff.1 (haccepts.apart hsize hmem) address)
  · rintro address ⟨span, hmem, hin⟩ -
    exact ⟨span, List.mem_cons_of_mem _ hmem, hin⟩

theorem pages_unmap_passes (given : Span) :
    Passes { backend := .pages pages, bytes := bytes }
      { backend := .pages (pages.unmap given), bytes := bytes } given .nothing := by
  refine ⟨rfl, trivial, by simp, by simp, ?_, fun _ _ _ => rfl, fun _ _ _ _ => trivial⟩
  rintro address ⟨span, hmem, hin⟩ hout
  obtain ⟨piece, hpiece, hinPiece⟩ := Span.mem_without.2 ⟨hin, hout⟩
  exact ⟨piece, List.mem_flatMap.2 ⟨span, hmem, hpiece⟩, hinPiece⟩

/-- A mapping that grows in place takes the pages behind it. -/
theorem pages_grow_passes {holding : Holding}
    (hoccupied : ∀ address ∈ holding.span, (Backend.pages pages).Occupied address) {new : Nat}
    (hmore : holding.recorded < new) {pages' : PageMap}
    (h : pages.growAt? holding.address holding.recorded new = some pages') :
    Passes { backend := .pages pages, bytes := bytes } { backend := .pages pages', bytes := bytes }
      holding.span ⟨holding.address, new⟩ := by
  obtain ⟨-, happart, rfl⟩ := PageMap.growAt?_some h
  have hparts := Span.mem_parts holding.address (Nat.le_of_lt hmore)
  have hstays : ∀ address, (Backend.pages pages).Occupied address →
      ∃ span ∈ (⟨holding.address + holding.recorded, new - holding.recorded⟩ :: pages.mapped :
        List Span), address ∈ span := by
    rintro address ⟨span, hmem, hin⟩
    exact ⟨span, List.mem_cons_of_mem _ hmem, hin⟩
  refine ⟨rfl, trivial, ?_, ?_, fun address hused _ => hstays address hused, fun _ _ _ => rfl,
    fun _ _ _ _ => trivial⟩
  · intro address hin
    rcases (hparts address).1 hin with hin | hin
    · exact hstays address (hoccupied address hin)
    · exact ⟨_, List.mem_cons_self, hin⟩
  · rintro address hin ⟨span, hmem, hinSpan⟩
    rcases (hparts address).1 hin with hin | hin
    · exact hin
    · exact absurd ⟨hinSpan, hin⟩ (Span.apart_iff.1 (happart span hmem) address)

end Pages
end Freehold
