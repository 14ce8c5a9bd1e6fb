import Freehold.Proofs.Memory.Lasting

/-!
# Growth from nothing

A request for no bytes is answered with an address that belongs to no allocator.  When such
a block shall get bytes, the resizing operations work with that address all the same: an
arena asks whether it is its last block, and a free list looks for a span that starts there.
None of this has an effect.  On every allocator the answer is the one that a request for a
new block gets.

The question that a stack arena asks is the one computation that can fail.  It subtracts
the start of the buffer from an address that need not lie above it.
-/

namespace Freehold

/-! ## Free lists -/

namespace FreeList

variable {spans rest : List Span} {align size : Nat}

theorem start_mem_of_absorb (h : absorb align size spans = some rest) :
    ∃ span ∈ spans, span.start = align := by
  induction spans generalizing rest with
  | nil => cases h
  | cons span later ih =>
    unfold absorb at h
    split at h
    · contradiction
    split at h
    · rename_i hstart
      exact ⟨span, List.mem_cons_self, hstart⟩
    · obtain ⟨left, hleft, -⟩ := Option.map_eq_some_iff.1 h
      obtain ⟨found, hmem, hstart⟩ := ih hleft
      exact ⟨found, List.mem_cons_of_mem _ hmem, hstart⟩

/-- The multiple of an alignment that is the alignment itself is the first one that the spans
below can offer, and they do not reach behind it. -/
theorem carve_of_absorb (htidy : Tidy spans) (hstarts : ∀ span ∈ spans, 0 < span.start)
    (hpos : 0 < size) (hfits : align + size < Word.limit)
    (h : absorb align size spans = some rest) : carve size align spans = some (align, rest) := by
  have hround : ∀ start, 0 < start → start ≤ align →
      Word.roundUp? start align = some align := by
    intro start hstart hle
    have halign : 0 < align := Nat.lt_of_lt_of_le hstart hle
    have hleast : Word.roundUp start align = align := by
      refine Nat.le_antisymm (Word.roundUp_le (Nat.dvd_refl align) hle) ?_
      exact Nat.le_of_dvd (Word.roundUp_pos halign hstart) (Word.dvd_roundUp start align)
    exact Word.fit?_eq_some_iff.2 ⟨by omega, hleast⟩
  have hstop : Word.add? align size = some (align + size) := Word.fit?_eq_some_iff.2 ⟨hfits, rfl⟩
  induction spans generalizing rest with
  | nil => cases h
  | cons span later ih =>
    obtain ⟨-, hgaps, hlater⟩ := tidy_cons.1 htidy
    have hstart := hstarts span List.mem_cons_self
    unfold absorb at h
    unfold carve
    split at h
    · contradiction
    rename_i hle
    rw [hround span.start hstart (Nat.le_of_not_lt hle)]
    dsimp only
    rw [hstop]
    dsimp only
    split at h
    · -- The span that starts at the alignment serves both walks alike.
      rename_i hsame
      split at h
      · contradiction
      rename_i henough
      have hstops : span.stop = align + span.size := by rw [Span.stop, hsame]
      have hend : span.stop - (align + size) = span.size - size := by omega
      rw [if_neg (by omega), if_neg (by omega)]
      split at h
      · rw [if_pos (by omega), hend, Option.some.inj h]
      · rw [if_neg (by omega), Option.some.inj h]
    · -- A span below ends before the one that starts at the alignment.
      obtain ⟨left, hleft, rfl⟩ := Option.map_eq_some_iff.1 h
      obtain ⟨found, hmem, hfound⟩ := start_mem_of_absorb hleft
      have hgap := hgaps found hmem
      have hstarts' : ∀ span ∈ later, 0 < span.start :=
        fun other hother => hstarts other (List.mem_cons_of_mem _ hother)
      rw [if_pos (by omega), ih hlater hstarts' hleft]
      rfl

variable {wanted : Nat}

/-- The granules of a valid layout can be counted, also above its alignment. -/
theorem roundUp_fits {layout : Layout} (hvalid : layout.Valid) :
    layout.align + Word.roundUp layout.size granule < Word.limit := by
  have hround : Word.roundUp layout.size granule < layout.size + granule :=
    Word.roundUp_lt layout.size (by decide)
  have hroom := hvalid.2
  have hlimit : Word.limit = 2 * (1 <<< 63) := rfl
  have hgranule : granule < 1 <<< 63 := by decide
  omega

theorem expand_empty (list : FreeList) (hvalid : Layout.Valid ⟨wanted, align⟩) (hpos : 0 < wanted) :
    list.expand align ⟨0, align⟩ wanted =
      match absorb align (Word.roundUp wanted granule) list.spans with
      | none => .error { kind := .inPlaceGrowthFailed }
      | some spans =>
        .ok (Word.roundUp wanted granule,
          { spans := spans, freeBytes := list.freeBytes - Word.roundUp wanted granule }) := by
  have hfits := roundUp_fits hvalid
  have hnone : Word.roundUp? 0 granule = some 0 := rfl
  have hsome : Word.roundUp? wanted granule = some (Word.roundUp wanted granule) :=
    Word.fit?_eq_some_iff.2 ⟨Nat.lt_of_le_of_lt (Nat.le_add_left _ align) hfits, rfl⟩
  have hgrows : 0 < Word.roundUp wanted granule := Word.roundUp_pos (by decide) hpos
  unfold expand
  rw [if_neg (Nat.not_le_of_lt hpos), hnone, hsome]
  dsimp only
  rw [if_neg (Nat.not_le_of_lt hgrows)]
  rfl

theorem allocate_of_absorb {list : FreeList} (htidy : Tidy list.spans)
    (hstarts : ∀ span ∈ list.spans, 0 < span.start)
    (hvalid : Layout.Valid ⟨wanted, align⟩) (hpos : 0 < wanted)
    (h : absorb align (Word.roundUp wanted granule) list.spans = some rest) :
    list.allocate ⟨wanted, align⟩ =
      .ok (⟨align, Word.roundUp wanted granule⟩,
        { spans := rest, freeBytes := list.freeBytes - Word.roundUp wanted granule }) := by
  have hfits := roundUp_fits hvalid
  have hgrows : 0 < Word.roundUp wanted granule := Word.roundUp_pos (by decide) hpos
  have hsome : Word.roundUp? wanted granule = some (Word.roundUp wanted granule) :=
    Word.fit?_eq_some_iff.2 ⟨Nat.lt_of_le_of_lt (Nat.le_add_left _ align) hfits, rfl⟩
  have hcoarse : max align granule = align := by
    refine Nat.max_eq_left ?_
    exact Nat.le_of_dvd (Nat.pos_of_isPowerOfTwo hvalid.1) (absorb_granular htidy h)
  have hcarved := carve_of_absorb htidy hstarts hgrows hfits h
  unfold allocate
  rw [if_neg (Nat.ne_of_gt hpos)]
  dsimp only
  rw [hsome, hcoarse]
  dsimp only
  rw [hcarved]

end FreeList

/-! ## Every allocator -/

namespace Backend

/-- The last block that an arena remembers has bytes. -/
def Tipped : Backend → Prop
  | .stack arena => ∀ start, arena.last = some start → start < arena.used
  | .freeList _ | .basic _ | .heap _ | .pages _ => True

/-- What is computed of a block without bytes, at the address that its alignment is, when it
shall get bytes, fits a word.  The sums of the request for a new block are not among this:
they are checked. -/
def Computes (align wanted : Nat) : Backend → Prop
  | .stack arena => (arena.offset? align).isSome
  | .freeList _ =>
    (Word.roundUp? 0 FreeList.granule).isSome ∧ (Word.roundUp? wanted FreeList.granule).isSome ∧
      (Word.add? align 0).isSome
  | .basic _ => (Word.roundUp? wanted FreeList.granule).isSome
  | .heap _ => True
  | .pages books => (Word.roundUp? wanted books.pageSize).isSome

/-- Only the offset in an arena can lie outside of a word. -/
theorem computes_iff {align wanted : Nat} (hvalid : Layout.Valid ⟨wanted, align⟩)
    (backend : Backend) :
    backend.Computes align wanted ↔ ∀ arena, backend = .stack arena → arena.base ≤ align := by
  have hrounds : ∀ granule, 0 < granule → granule ≤ 1 <<< 63 →
      (Word.roundUp? wanted granule).isSome := by
    intro granule hpos hle
    have hround := Word.roundUp_lt wanted hpos
    have hroom : wanted + align ≤ 1 <<< 63 := hvalid.2
    have hfits : Word.roundUp wanted granule < Word.limit := by
      have hlimit : Word.limit = 1 <<< 63 + 1 <<< 63 := rfl
      omega
    rw [Word.roundUp?, Word.fit?_eq_some_iff.2 ⟨hfits, rfl⟩]
    rfl
  have halign : (Word.add? align 0).isSome := by
    have hfits : align < Word.limit := Nat.lt_of_le_of_lt hvalid.align_le (by decide)
    rw [Word.add?, Nat.add_zero, Word.fit?_eq_some_iff.2 ⟨hfits, rfl⟩]
    rfl
  have hgranules := hrounds FreeList.granule (by decide) (by decide)
  cases backend with
  | stack arena => simp [Computes, StackArena.offset?]
  | freeList list => simp [Computes, hgranules, halign]; rfl
  | basic list => simp [Computes, hgranules]
  | heap heap => simp [Computes]
  | pages books =>
    simp [Computes, hrounds books.pageSize books.pageSize_pos books.page.valid.align_le]

end Backend

namespace Memory

variable {memory memory' : Memory} {address align wanted : Nat}

theorem copy_zero (bytes : Bytes) (source target : Nat) : bytes.copy source target 0 = bytes := by
  funext address
  exact Bytes.copy_of_not_mem (by omega)

theorem Laid.allocate_empty (h : memory.Laid) (align : Nat) :
    memory.allocate ⟨0, align⟩ = .ok (.dangling align, memory) := by
  obtain ⟨backend, bytes⟩ := memory
  cases backend with
  | stack arena => simp [Memory.allocate, StackArena.allocate, Except.map]
  | freeList list =>
    have hsame := h.withList_eq heads_freeList rfl
    simp [Memory.allocate, FreeList.allocate, Except.map, hsame]
  | basic list =>
    have hsame := h.withList_eq heads_basic rfl
    simp [Memory.allocate, FreeList.allocate, Except.map, hsame]
  | heap heap => simp [Memory.allocate, Heap.allocate, Except.map]
  | pages pages => simp [Memory.allocate, PageMap.allocate, Except.map, Block.dangling, fill_zero]

theorem Laid.deallocate_empty (h : memory.Laid) (address align : Nat) :
    memory.deallocate address ⟨0, align⟩ = memory := by
  obtain ⟨backend, bytes⟩ := memory
  cases backend with
  | stack arena => simp [Memory.deallocate, StackArena.deallocate]
  | freeList list =>
    have hsame := h.withList_eq heads_freeList rfl
    simpa [Memory.deallocate, FreeList.deallocate] using hsame
  | basic list =>
    have hsame := h.withList_eq heads_basic rfl
    simpa [Memory.deallocate, FreeList.deallocate] using hsame
  | heap heap => simp [Memory.deallocate, Heap.deallocate]
  | pages pages => simp [Memory.deallocate, PageMap.deallocate]

/-- A block without bytes that does not grow in place makes way for a new one: there is
nothing to copy and nothing to give back. -/
theorem reallocateByCopy_empty (hvalid : Layout.Valid ⟨wanted, align⟩) (hpos : 0 < wanted)
    {refusal : Refusal} (hrefused : memory.expand address ⟨0, align⟩ wanted = .error refusal) :
    memory.reallocateByCopy address ⟨0, align⟩ wanted = memory.allocate ⟨wanted, align⟩ := by
  have hlayout : Layout.of? wanted align = some ⟨wanted, align⟩ :=
    Layout.of?_eq_some_iff.2 ⟨hvalid, rfl⟩
  unfold reallocateByCopy
  rw [if_neg (Nat.not_le_of_lt hpos), hrefused]
  dsimp only
  rw [hlayout]
  dsimp only
  cases hanswer : memory.allocate ⟨wanted, align⟩ with
  | error refusal => rfl
  | ok found =>
    obtain ⟨block, moved⟩ := found
    dsimp only
    rw [copy_zero, (laid_allocate hanswer).deallocate_empty]

/-- A stack arena takes no block without bytes for its last one. -/
theorem reallocate_empty_stack {arena : StackArena} (hbackend : memory.backend = .stack arena)
    (htipped : memory.backend.Tipped) (hvalid : Layout.Valid ⟨wanted, align⟩)
    (hpos : 0 < wanted) :
    memory.reallocate align ⟨0, align⟩ wanted = memory.allocate ⟨wanted, align⟩ := by
  rw [hbackend] at htipped
  have hother : arena.lastStart? align (Layout.mk 0 align).size = none := by
    cases hlast : arena.lastStart? align (Layout.mk 0 align).size with
    | none => rfl
    | some start =>
      obtain ⟨haddress, hends⟩ := StackArena.lastStart?_some hlast
      unfold StackArena.lastStart? StackArena.offset? at hlast
      rw [if_pos (by omega)] at hlast
      dsimp only at hlast hends
      split at hlast
      · rename_i hfound
        have hbelow := htipped _ hfound.1
        omega
      · contradiction
  have hrefused : memory.expand align ⟨0, align⟩ wanted =
      .error { kind := .inPlaceGrowthFailed } := by
    unfold Memory.expand StackArena.expand
    rw [hbackend]
    dsimp only
    rw [if_neg (Nat.not_le_of_lt hpos), hother]
    rfl
  unfold Memory.reallocate
  rw [hbackend]
  exact reallocateByCopy_empty hvalid hpos hrefused

/-- If a free list finds a span that starts at the alignment, then first fit finds it too. -/
theorem reallocate_empty_freeList {list : FreeList} (hbackend : memory.backend = .freeList list)
    (htidy : FreeList.Tidy list.spans) (hstarts : ∀ span ∈ list.spans, 0 < span.start)
    (hvalid : Layout.Valid ⟨wanted, align⟩) (hpos : 0 < wanted) :
    memory.reallocate align ⟨0, align⟩ wanted = memory.allocate ⟨wanted, align⟩ := by
  have hexpand := list.expand_empty hvalid hpos
  unfold Memory.reallocate
  rw [hbackend]
  dsimp only
  cases habsorb : FreeList.absorb align (Word.roundUp wanted FreeList.granule) list.spans with
  | none =>
    have hrefused : memory.expand align ⟨0, align⟩ wanted =
        .error { kind := .inPlaceGrowthFailed } := by
      unfold Memory.expand
      rw [hbackend]
      dsimp only
      rw [hexpand, habsorb]
      rfl
    exact reallocateByCopy_empty hvalid hpos hrefused
  | some rest =>
    have hfound := FreeList.allocate_of_absorb htidy hstarts hvalid hpos habsorb
    unfold reallocateByCopy Memory.expand Memory.allocate
    rw [if_neg (Nat.not_le_of_lt hpos), hbackend]
    dsimp only
    rw [hexpand, habsorb, hfound]
    rfl

theorem reallocate_empty_basic {list : FreeList} (hbackend : memory.backend = .basic list)
    (hvalid : Layout.Valid ⟨wanted, align⟩) (hpos : 0 < wanted) :
    memory.reallocate align ⟨0, align⟩ wanted = memory.allocate ⟨wanted, align⟩ := by
  have hrefused : memory.expand align ⟨0, align⟩ wanted =
      .error { kind := .unsupportedOperation } := by
    unfold Memory.expand refuseGrowth
    rw [hbackend]
    exact if_neg (Nat.not_le_of_lt hpos)
  unfold Memory.reallocate
  rw [hbackend]
  exact reallocateByCopy_empty hvalid hpos hrefused

theorem reallocate_empty_heap {heap : Heap} (hbackend : memory.backend = .heap heap)
    (hvalid : Layout.Valid ⟨wanted, align⟩) (hpos : 0 < wanted) :
    memory.reallocate align ⟨0, align⟩ wanted = memory.allocate ⟨wanted, align⟩ := by
  have hlayout : Layout.of? wanted align = some ⟨wanted, align⟩ :=
    Layout.of?_eq_some_iff.2 ⟨hvalid, rfl⟩
  have hanew : heap.reallocate align ⟨0, align⟩ wanted = heap.allocate ⟨wanted, align⟩ := by
    unfold Heap.reallocate
    rw [if_neg (Nat.not_le_of_lt hpos), hlayout]
    rfl
  unfold Memory.reallocate Memory.allocate
  rw [hbackend]
  dsimp only
  rw [hanew]
  simp only [copy_zero]

theorem reallocate_empty_pages {pages : PageMap} (hbackend : memory.backend = .pages pages)
    (hvalid : Layout.Valid ⟨wanted, align⟩) (hpos : 0 < wanted) :
    memory.reallocate align ⟨0, align⟩ wanted = memory.allocate ⟨wanted, align⟩ := by
  have hlayout : Layout.of? wanted align = some ⟨wanted, align⟩ :=
    Layout.of?_eq_some_iff.2 ⟨hvalid, rfl⟩
  have hanew : pages.reallocate align ⟨0, align⟩ wanted = pages.allocate ⟨wanted, align⟩ := by
    unfold PageMap.reallocate
    rw [if_neg (Nat.not_le_of_lt hpos), hlayout]
    rfl
  have hnothing : ∀ (bytes : Bytes) (start : Nat) (old : Nat → UInt8),
      (bytes.overlay fun target =>
        if start ≤ target ∧ target < start + 0 then some (old target) else none) = bytes := by
    intro bytes start old
    funext target
    have hnone : ¬ (start ≤ target ∧ target < start + 0) := by omega
    unfold Bytes.overlay
    dsimp only
    rw [if_neg hnone]
    rfl
  unfold Memory.reallocate Memory.allocate
  rw [hbackend]
  dsimp only
  rw [hanew]
  simp only [Word.roundUp_zero, hnothing]

/-! ## What an arena remembers -/

theorem tipped_allocate (h : memory.backend.Tipped) {layout : Layout} {block : Block}
    (hanswer : memory.allocate layout = .ok (block, memory')) : memory'.backend.Tipped := by
  have hcases := allocate_ok hanswer
  cases hbackend : memory.backend with
  | freeList list | basic list | heap heap | pages pages =>
    rw [hbackend] at hcases
    obtain ⟨books, -, rfl⟩ := hcases
    trivial
  | stack arena =>
    rw [hbackend] at hcases h
    obtain ⟨arena', hfound, rfl⟩ := hcases
    rcases StackArena.allocate_ok hfound with ⟨-, -, rfl⟩ | ⟨hpos, start, -, -, rfl⟩
    · exact h
    · rintro _ ⟨⟩
      show start < start + layout.size
      omega

theorem tipped_expand (h : memory.backend.Tipped) {layout : Layout} {size : Nat}
    (hanswer : memory.expand address layout wanted = .ok (size, memory')) :
    memory'.backend.Tipped := by
  have hcases := expand_ok hanswer
  cases hbackend : memory.backend with
  | freeList list | pages pages =>
    rw [hbackend] at hcases
    obtain ⟨books, -, rfl⟩ := hcases
    trivial
  | basic list | heap heap =>
    rw [hbackend] at hcases
    obtain ⟨-, -, rfl⟩ := hcases
    exact h
  | stack arena =>
    rw [hbackend] at hcases h
    obtain ⟨arena', hgrown, rfl⟩ := hcases
    rcases StackArena.expand_ok hgrown with ⟨-, -, rfl⟩ | ⟨hgrows, -, first, -, hends, rfl⟩
    · exact h
    · intro start hlast
      have hbelow := h start hlast
      show start < first + wanted
      omega

theorem tipped_deallocate (h : memory.backend.Tipped) (address : Nat) (layout : Layout) :
    (memory.deallocate address layout).backend.Tipped := by
  unfold Memory.deallocate
  cases hbackend : memory.backend with
  | freeList list | basic list | heap heap | pages pages => trivial
  | stack arena =>
    rw [hbackend] at h
    show (Backend.stack (arena.deallocate address layout)).Tipped
    unfold StackArena.deallocate
    split
    · exact h
    split
    · exact h
    · rintro _ ⟨⟩

end Memory

theorem Backend.tipped_lasting : Backend.Lasting Backend.Tipped where
  heap _ := trivial
  pages _ := trivial
  allocate h hanswer := Memory.tipped_allocate h hanswer
  expand h hanswer := Memory.tipped_expand h hanswer
  deallocate address layout h := Memory.tipped_deallocate h address layout
  addRegion region h := by
    unfold Memory.addRegion
    split
    · trivial
    · trivial
    · exact h
  reset _ _ := by rintro _ ⟨⟩

namespace AllocatorState

variable {state : AllocatorState}

theorem tipped_live (h : state.memory.backend.Tipped) (occurrences : List Occurrence) :
    (state.live occurrences).memory.backend.Tipped :=
  Backend.tipped_lasting.live h occurrences

/-- Where regions start above the address zero, so do free spans. -/
theorem InOrder.starts (h : state.InOrder) (hstart : ∀ region ∈ state.regions, 0 < region.start)
    {list : FreeList} (hbackend : state.memory.backend = .freeList list) :
    ∀ span ∈ list.spans, 0 < span.start := by
  have horderly := h.orderly
  have hbounded := h.bounded
  rw [hbackend] at horderly hbounded
  have htidy : FreeList.Tidy list.spans := horderly
  intro span hmem
  obtain ⟨region, hregion, hin⟩ :=
    hbounded span.start ⟨span, hmem, (htidy.granular span hmem).start_mem⟩
  exact Nat.lt_of_lt_of_le (hstart region hregion) hin.1

/-- On every allocator, in every state that can be reached, a block without bytes that shall
get some is answered as a request for a new block, and everything that is computed of its
address fits a word, except for the offset in a stack arena that lies above the address. -/
theorem grow_empty {memory : Memory} (hunused : memory.backend.Unused)
    (htipped : memory.backend.Tipped) {occurrences : List Occurrence}
    (hpermitted : (AllocatorState.mk memory [] []).Permitted occurrences)
    (hstart : ∀ region ∈ ((AllocatorState.mk memory [] []).live occurrences).regions,
      0 < region.start)
    {align wanted : Nat} (hvalid : Layout.Valid ⟨wanted, align⟩) (hpos : 0 < wanted) :
    let now := ((AllocatorState.mk memory [] []).live occurrences).memory
    now.allocate ⟨0, align⟩ = .ok (.dangling align, now) ∧
      now.reallocate align ⟨0, align⟩ wanted = now.allocate ⟨wanted, align⟩ ∧
      (now.backend.Computes align wanted ↔
        ∀ arena, now.backend = .stack arena → arena.base ≤ align) := by
  intro now
  have horder : ((AllocatorState.mk memory [] []).live occurrences).InOrder :=
    (inOrder_unused hunused).live hpermitted
  have hnow : now.backend.Tipped := tipped_live htipped occurrences
  refine ⟨horder.laid.allocate_empty align, ?_, ?_⟩
  · cases hbackend : now.backend with
    | stack arena => exact Memory.reallocate_empty_stack hbackend hnow hvalid hpos
    | freeList list =>
      have horderly : now.backend.Orderly := horder.orderly
      rw [hbackend] at horderly
      exact Memory.reallocate_empty_freeList hbackend horderly (horder.starts hstart hbackend)
        hvalid hpos
    | basic list => exact Memory.reallocate_empty_basic hbackend hvalid hpos
    | heap heap => exact Memory.reallocate_empty_heap hbackend hvalid hpos
    | pages pages => exact Memory.reallocate_empty_pages hbackend hvalid hpos
  · exact Backend.computes_iff hvalid _

/-- A region is free from the address 64 on, and an empty block has been asked for with that
alignment. -/
def gapped : List Occurrence :=
  [.demand (.addRegion ⟨32, 4096⟩), .demand (.allocate ⟨20, 8⟩), .demand (.allocate ⟨40, 8⟩),
    .demand (.allocate ⟨0, 64⟩), .demand (.deallocate ⟨64, 8, 40, 48⟩ 40)]

def gappedMemory : Memory :=
  ((AllocatorState.mk ⟨.freeList {}, fun _ => 0⟩ [] []).live gapped).memory

/-- The span behind the first block starts at the address of the empty one, which grows in
place there. -/
theorem grow_empty_gapped :
    ((AllocatorState.mk ⟨.freeList {}, fun _ => 0⟩ [] []).Permitted gapped ∧
      ∀ region ∈ ((AllocatorState.mk ⟨.freeList {}, fun _ => 0⟩ [] []).live gapped).regions,
        0 < region.start) ∧
    gappedMemory.reallocate 64 ⟨0, 64⟩ 100 = gappedMemory.allocate ⟨100, 64⟩ ∧
    (gappedMemory.reallocate 64 ⟨0, 64⟩ 100).toOption.map Prod.fst = some ⟨64, 112⟩ := by
  have hpermitted : (AllocatorState.mk ⟨.freeList {}, fun _ => 0⟩ [] []).Permitted gapped := by
    decide +kernel
  have hstart : ∀ region ∈
      ((AllocatorState.mk ⟨.freeList {}, fun _ => 0⟩ [] []).live gapped).regions,
      0 < region.start := by decide +kernel
  have hunused : Backend.Unused (.freeList {}) := rfl
  have hvalid : Layout.Valid ⟨100, 64⟩ := by decide
  have htipped : Backend.Tipped (.freeList {}) := trivial
  have hgrown := grow_empty hunused htipped hpermitted hstart hvalid (by decide)
  exact ⟨⟨hpermitted, hstart⟩, hgrown.2.1, by decide +kernel⟩

/-- An arena that lies above the addresses of its empty blocks. -/
def lofty : Memory := { backend := .stack ⟨1 <<< 40, 64, 0, none⟩ }

/-- The offset that is computed when an empty block shall grow there does not exist. -/
theorem grow_empty_lofty :
    (lofty.backend.Unused ∧ lofty.backend.Tipped ∧ Layout.Valid ⟨16, 8⟩ ∧
      (lofty.allocate ⟨0, 8⟩).map Prod.fst = .ok (.dangling 8)) ∧
    ¬ lofty.backend.Computes 8 16 := by
  have hunused : lofty.backend.Unused := rfl
  have hmissing : StackArena.offset? ⟨1 <<< 40, 64, 0, none⟩ 8 = none := by decide +kernel
  refine ⟨⟨hunused, ?_, by decide, rfl⟩, ?_⟩
  · rintro _ ⟨⟩
  · show ¬ (StackArena.offset? ⟨1 <<< 40, 64, 0, none⟩ 8).isSome
    rw [hmissing]
    exact Bool.false_ne_true

end AllocatorState
end Freehold
