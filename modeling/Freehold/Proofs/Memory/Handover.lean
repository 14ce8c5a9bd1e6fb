import Freehold.Proofs.Memory.Passing

/-!
# What becomes of blocks

The interface to all allocators, seen from the blocks: an operation passes on at most one
block and takes at most one back, a block that is resized keeps its first bytes wherever it
goes, and a block that is asked for cleared is clear over its whole recorded size.
-/

namespace Freehold
namespace Memory

variable {memory memory' : Memory}

/-! ## Requests -/

/-- What a request for a block does. -/
structure Grants (memory : Memory) (layout : Layout) (block : Block) (memory' : Memory) :
    Prop where
  passes : Passes memory memory' .nothing block.span
  houses : memory'.backend.Houses (.of layout block)

theorem Grants.of_passes {layout : Layout} {block : Block}
    (hpasses : Passes memory memory' .nothing block.span)
    (hsize : block.size = Word.roundUp layout.size memory.backend.granule)
    (hfooting : 0 < block.size → memory'.backend.Footing block.span) :
    Grants memory layout block memory' where
  passes := hpasses
  houses := by
    refine ⟨?_, hpasses.occupied, hfooting⟩
    rw [hpasses.units]
    exact hsize

theorem Grants.paint {layout : Layout} {block : Block} (h : Grants memory layout block memory')
    {bytes : Bytes}
    (hsame : ∀ address, address ∉ block.span → bytes address = memory'.bytes address) :
    Grants memory layout block { memory' with bytes := bytes } :=
  ⟨h.passes.paint hsame, h.houses⟩

theorem allocate_grants (horderly : memory.backend.Orderly) {layout : Layout}
    (hvalid : layout.Valid) {block : Block} (h : memory.allocate layout = .ok (block, memory')) :
    Grants memory layout block memory' := by
  obtain ⟨hsize, -⟩ := allocate_granted hvalid h
  have hcases := allocate_ok h
  obtain ⟨backend, bytes⟩ := memory
  cases backend with
  | stack arena =>
    obtain ⟨arena', hfound, rfl⟩ := hcases
    exact .of_passes (stack_allocate_passes hfound) hsize fun _ => trivial
  | freeList list =>
    obtain ⟨list', hfound, rfl⟩ := hcases
    have hbooks : backend ⟨.freeList list, bytes⟩ = .freeList list := rfl
    obtain ⟨hpasses, hfooting⟩ := list_allocate_passes lists_freeList hbooks horderly hvalid hfound
    exact .of_passes hpasses hsize hfooting
  | basic list =>
    obtain ⟨list', hfound, rfl⟩ := hcases
    have hbooks : backend ⟨.basic list, bytes⟩ = .basic list := rfl
    obtain ⟨hpasses, hfooting⟩ := list_allocate_passes lists_basic hbooks horderly hvalid hfound
    exact .of_passes hpasses hsize hfooting
  | heap heap =>
    obtain ⟨heap', hfound, rfl⟩ := hcases
    rcases Heap.allocate_ok hfound with ⟨-, rfl, rfl⟩ | ⟨hpos, hobtain⟩
    · refine .of_passes (.idle horderly (Block.not_mem_dangling _)) hsize fun hpos => ?_
      exact absurd hpos (Nat.lt_irrefl 0)
    · obtain ⟨hpasses, hfooting⟩ := heap_obtain_passes horderly hpos hobtain
      exact .of_passes hpasses hsize fun _ => hfooting
  | pages pages =>
    obtain ⟨pages', hfound, rfl⟩ := hcases
    have hsame : ∀ address, address ∉ block.span →
        bytes.fill block.address block.size 0 address = bytes address :=
      fun address hout => Bytes.fill_of_not_mem hout
    rcases PageMap.allocate_ok hfound with ⟨-, rfl, rfl⟩ | ⟨-, -, hobtain⟩
    · have hidle : Passes { backend := .pages pages', bytes := bytes }
          { backend := .pages pages', bytes := bytes }
          .nothing (Block.dangling layout.align).span :=
        .idle trivial (Block.not_mem_dangling _)
      exact .of_passes (hidle.paint hsame) hsize fun _ => trivial
    · have hobtained : Passes { backend := .pages pages, bytes := bytes }
          { backend := .pages pages', bytes := bytes } .nothing block.span :=
        pages_obtain_passes hobtain
      exact .of_passes (hobtained.paint hsame) hsize fun _ => trivial

/-- A request for a cleared block is a request for a block, which is then clear. -/
theorem allocateZeroed_ok {layout : Layout} {block : Block}
    (h : memory.allocateZeroed layout = .ok (block, memory')) :
    ∃ plain, memory.allocate layout = .ok (block, plain) ∧
      memory' = { plain with bytes := plain.bytes.fill block.address block.size 0 } := by
  have hclear : memory.allocateThenClear layout = .ok (block, memory') →
      ∃ plain, memory.allocate layout = .ok (block, plain) ∧
        memory' = { plain with bytes := plain.bytes.fill block.address block.size 0 } := by
    intro hclear
    obtain ⟨⟨found, plain⟩, hfound, heq⟩ := Except.of_map_ok hclear
    obtain ⟨rfl, rfl⟩ := Prod.mk.inj heq
    exact ⟨plain, hfound, rfl⟩
  obtain ⟨backend, bytes⟩ := memory
  cases backend with
  | stack arena | freeList list | basic list | pages pages => exact hclear h
  | heap heap =>
    obtain ⟨⟨found, heap'⟩, hfound, heq⟩ := Except.of_map_ok h
    obtain ⟨rfl, rfl⟩ := Prod.mk.inj heq
    refine ⟨{ backend := .heap heap', bytes := bytes }, ?_, rfl⟩
    show (heap.allocate layout).map _ = _
    rw [Heap.allocateCleared_ok hfound]
    rfl

theorem allocateZeroed_grants (horderly : memory.backend.Orderly) {layout : Layout}
    (hvalid : layout.Valid) {block : Block}
    (h : memory.allocateZeroed layout = .ok (block, memory')) :
    Grants memory layout block memory' ∧ ∀ address ∈ block.span, memory'.bytes address = 0 := by
  obtain ⟨plain, hfound, rfl⟩ := allocateZeroed_ok h
  have hgrants := allocate_grants horderly hvalid hfound
  refine ⟨hgrants.paint fun address hout => Bytes.fill_of_not_mem hout, ?_⟩
  exact fun address hin => Bytes.fill_of_mem hin

/-! ## Blocks that come back -/

theorem deallocate_passes (horderly : memory.backend.Orderly) {holding : Holding}
    (hhoused : memory.backend.Houses holding) {size : Nat} (hfits : holding.Fits size) :
    Passes memory (memory.deallocate holding.address (holding.layout size)) holding.span
      .nothing := by
  have hround := hhoused.roundUp_of_fits hfits
  obtain ⟨backend, bytes⟩ := memory
  cases backend with
  | stack arena =>
    obtain rfl : size = holding.recorded := (Word.roundUp_one size).symm.trans hround
    exact stack_deallocate_passes
  | freeList list => exact list_deallocate_passes lists_freeList rfl horderly hhoused hfits
  | basic list => exact list_deallocate_passes lists_basic rfl horderly hhoused hfits
  | heap heap =>
    obtain rfl : size = holding.recorded := (Word.roundUp_one size).symm.trans hround
    unfold deallocate Heap.deallocate
    dsimp only
    split
    · exact (Passes.idle horderly Span.not_mem_nothing).give
    · rename_i hpos
      have hrecorded := Nat.pos_of_ne_zero hpos
      exact heap_release_passes horderly hrecorded (hhoused.footing hrecorded)
  | pages pages =>
    unfold deallocate PageMap.deallocate
    dsimp only
    split
    · exact (Passes.idle horderly Span.not_mem_nothing).give
    · have hspan : (⟨holding.address, Word.roundUp (holding.layout size).size pages.pageSize⟩ :
          Span) = holding.span := congrArg (Span.mk holding.address) hround
      rw [hspan]
      exact pages_unmap_passes holding.span

/-! ## Blocks of another size -/

/-- What a change of the size of a block does: the block keeps its first bytes. -/
structure Resizes (memory : Memory) (holding : Holding) (wanted count : Nat) (block : Block)
    (memory' : Memory) : Prop where
  passes : Passes memory memory' holding.span (holding.resized wanted block).span
  houses : memory'.backend.Houses (holding.resized wanted block)
  carries : ∀ index < count,
    memory'.bytes (block.address + index) = memory.bytes (holding.address + index)

section Resizing

variable {holding : Holding} {size wanted count : Nat} {block : Block}

/-- A block that stays where it is, whether it grows or not. -/
theorem Resizes.of_place (hhoused : memory.backend.Houses holding) (hfits : holding.Fits size)
    {answer : Nat}
    (hsize : (wanted ≤ size ∧ answer = size) ∨
      (size < wanted ∧ answer = Word.roundUp wanted memory.backend.granule))
    (hpasses : Passes memory memory' holding.span
      ⟨holding.address, max holding.recorded answer⟩)
    (hfooting : 0 < max holding.recorded answer →
      memory'.backend.Footing ⟨holding.address, max holding.recorded answer⟩)
    (hcarries : ∀ index < count,
      memory'.bytes (holding.address + index) = memory.bytes (holding.address + index)) :
    Resizes memory holding wanted count ⟨holding.address, answer⟩ memory' := by
  refine ⟨hpasses, ⟨?_, hpasses.occupied, hfooting⟩, hcarries⟩
  rw [hpasses.units]
  show max holding.recorded answer =
    Word.roundUp (max holding.requested wanted) memory.backend.granule
  obtain ⟨hlow, hhigh⟩ := hfits
  rcases hsize with ⟨hle, rfl⟩ | ⟨hlt, rfl⟩
  · have hbetween : holding.Fits (max holding.requested wanted) :=
      ⟨Nat.le_max_left _ _, Nat.max_le.2 ⟨Nat.le_trans hlow hhigh, Nat.le_trans hle hhigh⟩⟩
    rw [hhoused.roundUp_of_fits hbetween]
    exact Nat.max_eq_left hhigh
  · have hmono := Word.roundUp_mono memory.backend.granule_pos (Nat.le_of_lt hlt)
    rw [hhoused.roundUp_of_fits ⟨hlow, hhigh⟩] at hmono
    rw [Nat.max_eq_right hmono, Nat.max_eq_right (Nat.le_of_lt (Nat.lt_of_le_of_lt hlow hlt))]

/-- A block that was moved is held like one that was just asked for. -/
theorem resized_eq_of (hhoused : memory.backend.Houses holding) (hfits : holding.Fits size)
    (hlt : size < wanted) (hsize : block.size = Word.roundUp wanted memory.backend.granule) :
    holding.resized wanted block = .of ⟨wanted, holding.align⟩ block := by
  have hmono := Word.roundUp_mono memory.backend.granule_pos (Nat.le_of_lt hlt)
  rw [hhoused.roundUp_of_fits hfits, ← hsize] at hmono
  have hrequested := Nat.le_of_lt (Nat.lt_of_le_of_lt hfits.1 hlt)
  unfold Holding.resized Holding.of
  rw [Nat.max_eq_right hmono, Nat.max_eq_right hrequested]

/-- A block that moves, or that had no bytes. -/
theorem Resizes.of_move (hhoused : memory.backend.Houses holding) (hfits : holding.Fits size)
    (hlt : size < wanted) (hsize : block.size = Word.roundUp wanted memory.backend.granule)
    (hpasses : Passes memory memory' holding.span block.span)
    (hfooting : 0 < block.size → memory'.backend.Footing block.span)
    (hcarries : ∀ index < count,
      memory'.bytes (block.address + index) = memory.bytes (holding.address + index)) :
    Resizes memory holding wanted count block memory' := by
  have hheld := resized_eq_of hhoused hfits hlt hsize
  refine ⟨?_, ?_, hcarries⟩
  · rw [hheld]
    exact hpasses
  · rw [hheld]
    refine ⟨?_, hpasses.occupied, hfooting⟩
    rw [hpasses.units]
    exact hsize

theorem list_expand_resizes {wrap : FreeList → Backend} (hwrap : Lists wrap) {list : FreeList}
    (hbackend : memory.backend = wrap list) (htidy : FreeList.Tidy list.spans)
    (hhoused : (wrap list).Houses holding) (hfits : holding.Fits size) {answer : Nat}
    {list' : FreeList}
    (h : list.expand holding.address (holding.layout size) wanted = .ok (answer, list')) :
    Resizes memory holding wanted holding.recorded ⟨holding.address, answer⟩
      (memory.withList wrap list') := by
  obtain ⟨hpasses, hfooting⟩ := list_expand_passes hwrap hbackend htidy hhoused hfits h
  have hanswer := FreeList.expand_size h
  rw [← hbackend] at hhoused
  refine .of_place hhoused hfits ?_ hpasses ?_ ?_
  · rw [hbackend, hwrap.granule]
    exact hanswer
  · exact fun hpos => (hwrap.footing list' _).2 (hfooting hpos)
  · intro index hlt
    refine withList_bytes memory wrap ((hwrap.orderly list').1 hpasses.orderly) ?_
    refine (hwrap.occupied list' _).1 (hpasses.occupied _ ?_)
    rw [Span.mem_iff]
    dsimp only
    omega

/-- A block that is left as it is. -/
theorem Resizes.of_still (horderly : memory.backend.Orderly)
    (hhoused : memory.backend.Houses holding) (hfits : holding.Fits size) (hle : wanted ≤ size) :
    Resizes memory holding wanted count ⟨holding.address, size⟩ memory := by
  refine .of_place hhoused hfits (Or.inl ⟨hle, rfl⟩) ?_ ?_ fun _ _ => rfl
  all_goals rw [Nat.max_eq_left hfits.2]
  · exact .still horderly hhoused.occupied
  · exact hhoused.footing

/-- A mapping that stays where it is. -/
theorem pages_place_passes {pages pages' : PageMap} {bytes : Bytes}
    (hoccupied : ∀ address ∈ holding.span, (Backend.pages pages).Occupied address) {answer : Nat}
    (hplace : (answer ≤ holding.recorded ∧ pages' = pages) ∨
      (holding.recorded < answer ∧
        pages.growAt? holding.address holding.recorded answer = some pages')) :
    Passes { backend := .pages pages, bytes := bytes } { backend := .pages pages', bytes := bytes }
      holding.span ⟨holding.address, max holding.recorded answer⟩ := by
  rcases hplace with ⟨hle, rfl⟩ | ⟨hmore, hgrown⟩
  · rw [Nat.max_eq_left hle]
    have horderly : (Backend.pages pages').Orderly := trivial
    exact .still horderly hoccupied
  · rw [Nat.max_eq_right (Nat.le_of_lt hmore)]
    exact pages_grow_passes hoccupied hmore hgrown

theorem expand_resizes (horderly : memory.backend.Orderly)
    (hhoused : memory.backend.Houses holding) (hfits : holding.Fits size) {answer : Nat}
    (h : memory.expand holding.address (holding.layout size) wanted = .ok (answer, memory')) :
    Resizes memory holding wanted holding.recorded ⟨holding.address, answer⟩ memory' := by
  obtain ⟨hsize, -⟩ := expand_granted h
  have hround := hhoused.roundUp_of_fits hfits
  have hcases := expand_ok h
  obtain ⟨backend, bytes⟩ := memory
  cases backend with
  | stack arena =>
    obtain ⟨arena', hfound, rfl⟩ := hcases
    obtain rfl : size = holding.recorded := (Word.roundUp_one size).symm.trans hround
    have hpasses : Passes ⟨.stack arena, bytes⟩ ⟨.stack arena', bytes⟩ holding.span
        ⟨holding.address, max holding.recorded answer⟩ :=
      stack_expand_passes hhoused.occupied hfound
    exact .of_place hhoused hfits hsize hpasses (fun _ => trivial) fun _ _ => rfl
  | freeList list =>
    obtain ⟨list', hfound, rfl⟩ := hcases
    exact list_expand_resizes lists_freeList rfl horderly hhoused hfits hfound
  | basic list | heap heap =>
    obtain ⟨hle, rfl, rfl⟩ := hcases
    exact .of_still horderly hhoused hfits hle
  | pages pages =>
    obtain ⟨pages', hfound, rfl⟩ := hcases
    have hold : Word.roundUp (holding.layout size).size pages.pageSize = holding.recorded :=
      hround
    have hplace := PageMap.expand_ok hfound
    rw [hold] at hplace ⊢
    have hpasses : Passes ⟨.pages pages, bytes⟩ ⟨.pages pages', bytes⟩ holding.span
        ⟨holding.address, max holding.recorded answer⟩ := by
      refine pages_place_passes hhoused.occupied ?_
      rcases hplace with ⟨-, rfl, hsame⟩ | ⟨-, -, ⟨rfl, hsame⟩ | hgrown⟩
      · exact Or.inl ⟨hfits.2, hsame⟩
      · exact Or.inl ⟨Nat.le_refl _, hsame⟩
      · exact Or.inr hgrown
    -- Only pages behind the block are cleared.
    refine .of_place hhoused hfits hsize (hpasses.paint ?_) (fun _ => trivial) ?_
    · intro address hout
      refine Bytes.fill_of_not_mem fun hin => hout ?_
      rw [Span.mem_iff]
      dsimp only
      omega
    · exact fun index hlt => Bytes.fill_of_not_mem (by omega)

/-- Where a request for another size may fall back on a copy, what is certain to be carried
over is the old size of the block, or all of it if the block need not grow. -/
def carried (holding : Holding) (size wanted : Nat) : Nat :=
  if wanted ≤ size then holding.recorded else size

theorem carried_of_lt (hlt : size < wanted) : carried holding size wanted = size :=
  if_neg (Nat.not_le_of_lt hlt)

theorem carried_le (hfits : holding.Fits size) :
    carried holding size wanted ≤ holding.recorded := by
  unfold carried
  split
  · exact Nat.le_refl _
  · exact hfits.2

theorem Resizes.fewer (h : Resizes memory holding wanted count block memory') {fewer : Nat}
    (hle : fewer ≤ count) : Resizes memory holding wanted fewer block memory' :=
  ⟨h.passes, h.houses, fun index hlt => h.carries index (Nat.lt_of_lt_of_le hlt hle)⟩

/-- A copy that has room in a block concerns no other. -/
theorem copy_outside (bytes : Bytes) (source : Nat) (hroom : count ≤ block.size) {address : Nat}
    (hout : address ∉ block.span) :
    bytes.copy source block.address count address = bytes address := by
  refine Bytes.copy_of_not_mem fun hin => hout ?_
  rw [Span.mem_iff]
  simp only [Block.span]
  omega

/-- Copying to a new block and giving back the old one. -/
theorem copy_resizes (hhoused : memory.backend.Houses holding) (hfits : holding.Fits size)
    (hlt : size < wanted) {moved : Memory}
    (hgrants : Grants memory ⟨wanted, holding.align⟩ block moved) :
    Resizes memory holding wanted size block
      (Memory.deallocate
        { moved with bytes := moved.bytes.copy holding.address block.address size }
        holding.address (holding.layout size)) := by
  have hsize : block.size = Word.roundUp wanted memory.backend.granule := by
    rw [← hgrants.passes.units]
    exact hgrants.houses.rounded
  have hroom : size ≤ block.size := by
    have hround := Word.le_roundUp wanted memory.backend.granule_pos
    omega
  -- The old block is still in use while it is copied, so the new one is apart from it.
  have hcopied := hgrants.paint fun address hout =>
    copy_outside moved.bytes holding.address hroom hout
  have hapart : ∀ address ∈ block.span, address ∉ holding.span := fun address hin hheld =>
    Span.not_mem_nothing address
      (hcopied.passes.fresh address hin (hhoused.occupied address hheld))
  have hreleased := deallocate_passes hcopied.passes.orderly
    (hcopied.passes.houses hhoused fun address _ => Span.not_mem_nothing address) hfits
  have hpasses := hcopied.passes.thenRelease hreleased hhoused.occupied
  have hhouses := hreleased.houses hcopied.houses hapart
  refine .of_move hhoused hfits hlt hsize hpasses hhouses.footing ?_
  intro index hindex
  have hin := Block.offset_mem (Nat.lt_of_lt_of_le hindex hroom)
  have hheld := Holding.offset_mem (Nat.lt_of_lt_of_le hindex hfits.2)
  rw [hreleased.keeps _ (hcopied.passes.occupied _ hin) (hapart _ hin)]
  show moved.bytes.copy holding.address block.address size (block.address + index) = _
  rw [Bytes.copy_target hindex]
  exact hgrants.passes.keeps _ (hhoused.occupied _ hheld) (Span.not_mem_nothing _)

theorem reallocateByCopy_resizes (horderly : memory.backend.Orderly)
    (hhoused : memory.backend.Houses holding) (hfits : holding.Fits size)
    (h : memory.reallocateByCopy holding.address (holding.layout size) wanted =
      .ok (block, memory')) :
    Resizes memory holding wanted (carried holding size wanted) block memory' := by
  rcases reallocateByCopy_ok h with
    ⟨hle, rfl, rfl⟩ | ⟨-, haddress, hgrown⟩ | ⟨hlt, hvalid, moved, hfound, rfl⟩
  · exact .of_still horderly hhoused hfits hle
  · obtain ⟨address, answer⟩ := block
    subst haddress
    exact (expand_resizes horderly hhoused hfits hgrown).fewer (carried_le hfits)
  · have hgrows : size < wanted := hlt
    rw [carried_of_lt hgrows]
    exact copy_resizes hhoused hfits hgrows (allocate_grants horderly hvalid hfound)

theorem copy_same (bytes : Bytes) (address count : Nat) :
    bytes.copy address address count = bytes := by
  funext target
  unfold Bytes.copy
  split
  · rename_i hin
    rw [Nat.add_sub_cancel' hin.1]
  · rfl

theorem heap_reallocate_resizes {heap heap' : Heap} {bytes : Bytes}
    (horderly : (Backend.heap heap).Orderly) (hhoused : (Backend.heap heap).Houses holding)
    (hfits : holding.Fits size)
    (h : heap.reallocate holding.address (holding.layout size) wanted = .ok (block, heap')) :
    Resizes { backend := .heap heap, bytes := bytes } holding wanted (carried holding size wanted)
      block
      { backend := .heap heap', bytes := bytes.copy holding.address block.address size } := by
  obtain rfl : size = holding.recorded :=
    (Word.roundUp_one size).symm.trans (hhoused.roundUp_of_fits hfits)
  rcases Heap.reallocate_ok h with
    ⟨hle, rfl, rfl⟩ | ⟨hlt, hvalid, ⟨hzero, hanew⟩ | ⟨hpos, hobtain⟩⟩
  · show Resizes _ _ _ _ _ { backend := _, bytes := bytes.copy holding.address holding.address _ }
    rw [copy_same]
    have horderly' : (Memory.backend { backend := .heap heap', bytes := bytes }).Orderly := horderly
    exact .of_still horderly' hhoused hfits hle
  all_goals
    have hgrows : holding.recorded < wanted := hlt
    rw [carried_of_lt hgrows]
  · have hempty : holding.recorded = 0 := hzero
    have hgrants : Grants ⟨.heap heap, bytes⟩ ⟨wanted, holding.align⟩ block
        ⟨.heap heap', bytes⟩ := by
      refine allocate_grants horderly hvalid ?_
      show (heap.allocate ⟨wanted, holding.align⟩).map _ = _
      rw [show heap.allocate ⟨wanted, holding.align⟩ = .ok (block, heap') from hanew]
      rfl
    have hroom : holding.recorded ≤ block.size := hempty ▸ Nat.zero_le block.size
    have hsame : ∀ address, address ∉ block.span →
        bytes.copy holding.address block.address holding.recorded address = bytes address :=
      fun address hout => copy_outside bytes holding.address hroom hout
    refine .of_move hhoused hfits hgrows hgrants.houses.rounded
      (hgrants.passes.give.paint hsame) hgrants.houses.footing ?_
    intro index hindex
    omega
  · have hrecorded : 0 < holding.recorded := hpos
    have hreleased : Passes ⟨.heap heap, bytes⟩ ⟨.heap (heap.release holding.address), bytes⟩
        holding.span .nothing := heap_release_passes horderly hrecorded (hhoused.footing hrecorded)
    obtain ⟨hpasses, hfooting⟩ := heap_obtain_passes hreleased.orderly
      (Nat.lt_of_le_of_lt (Nat.zero_le _) hgrows) hobtain
    have hsize : block.size = wanted := (Heap.obtain?_aligned hobtain).1
    have hroom : holding.recorded ≤ block.size := hsize ▸ Nat.le_of_lt hgrows
    have hsame : ∀ address, address ∉ block.span →
        bytes.copy holding.address block.address holding.recorded address = bytes address :=
      fun address hout => copy_outside bytes holding.address hroom hout
    refine .of_move hhoused hfits hgrows (hsize.trans (Word.roundUp_one wanted).symm)
      ((hreleased.thenObtain hpasses).paint hsame) (fun _ => hfooting) ?_
    exact fun index hindex => Bytes.copy_target hindex

/-- The contents after pages were given another place: a block that is clear but for the
pages it had before. -/
def remapped (bytes : Bytes) (source target kept size : Nat) : Bytes :=
  (bytes.fill target size 0).overlay fun address =>
    if target ≤ address ∧ address < target + kept then
      some (bytes (source + (address - target)))
    else none

theorem remapped_kept {bytes : Bytes} {source target kept size index : Nat} (h : index < kept) :
    remapped bytes source target kept size (target + index) = bytes (source + index) := by
  unfold remapped Bytes.overlay
  dsimp only
  rw [if_pos (by omega), Nat.add_sub_cancel_left]
  rfl

theorem remapped_of_not_mem {bytes : Bytes} {source target kept size address : Nat}
    (hout : address ∉ (⟨target, max kept size⟩ : Span)) :
    remapped bytes source target kept size address = bytes address := by
  rw [Span.mem_iff] at hout
  unfold remapped Bytes.overlay
  dsimp only at hout ⊢
  rw [if_neg (by omega)]
  exact Bytes.fill_of_not_mem (by omega)

theorem pages_reallocate_resizes {pages pages' : PageMap} {bytes : Bytes}
    (hhoused : (Backend.pages pages).Houses holding) (hfits : holding.Fits size)
    (h : pages.reallocate holding.address (holding.layout size) wanted = .ok (block, pages')) :
    Resizes { backend := .pages pages, bytes := bytes } holding wanted (carried holding size wanted)
      block
      { backend := .pages pages'
        bytes := remapped bytes holding.address block.address holding.recorded block.size } := by
  have hround : Word.roundUp size pages.pageSize = holding.recorded :=
    hhoused.roundUp_of_fits hfits
  have hplaced : ∀ answer, ((wanted ≤ size ∧ answer = size) ∨
        (size < wanted ∧ answer = Word.roundUp wanted pages.pageSize)) →
      ((answer ≤ holding.recorded ∧ pages' = pages) ∨ (holding.recorded < answer ∧
        pages.growAt? holding.address holding.recorded answer = some pages')) →
      Resizes { backend := .pages pages, bytes := bytes } holding wanted
        (carried holding size wanted) ⟨holding.address, answer⟩
        { backend := .pages pages'
          bytes := remapped bytes holding.address holding.address holding.recorded answer } := by
    intro answer hsize hplace
    have hpasses : Passes ⟨.pages pages, bytes⟩ ⟨.pages pages', bytes⟩ holding.span
        ⟨holding.address, max holding.recorded answer⟩ :=
      pages_place_passes hhoused.occupied hplace
    refine .of_place hhoused hfits hsize
      (hpasses.paint fun address hout => remapped_of_not_mem hout) (fun _ => trivial) ?_
    exact fun index hindex => remapped_kept (Nat.lt_of_lt_of_le hindex (carried_le hfits))
  rcases PageMap.reallocate_ok h with
    ⟨hle, rfl, rfl⟩ | ⟨hzero, hpos, hvalid, hanew⟩ | ⟨-, hlt, hsize, hplace⟩
  · exact hplaced size (Or.inl ⟨hle, rfl⟩) (Or.inl ⟨hfits.2, rfl⟩)
  · obtain rfl : size = 0 := hzero
    rw [Word.roundUp_zero] at hround
    have hgrants : Grants ⟨.pages pages, bytes⟩ ⟨wanted, holding.align⟩ block
        ⟨.pages pages', bytes.fill block.address block.size 0⟩ := by
      have horderly : (Backend.pages pages).Orderly := trivial
      refine allocate_grants horderly hvalid ?_
      show (pages.allocate ⟨wanted, holding.align⟩).map _ = _
      rw [show pages.allocate ⟨wanted, holding.align⟩ = .ok (block, pages') from hanew]
      rfl
    have hsame : ∀ address, address ∉ block.span →
        remapped bytes holding.address block.address holding.recorded block.size address =
          bytes.fill block.address block.size 0 address := by
      intro address hout
      rw [remapped_of_not_mem (by rwa [← hround, Nat.zero_max])]
      exact (Bytes.fill_of_not_mem hout).symm
    refine .of_move hhoused hfits hpos (PageMap.allocate_aligned hvalid hanew).1
      (hgrants.passes.give.paint hsame) hgrants.houses.footing ?_
    intro index hindex
    rw [carried_of_lt hpos] at hindex
    omega
  · have hgrows : size < wanted := hlt
    have hold : Word.roundUp (holding.layout size).size pages.pageSize = holding.recorded :=
      hround
    rw [hold] at hplace
    rcases hplace with ⟨haddress, hplace⟩ | ⟨moved, hobtain, rfl⟩
    · obtain ⟨address, answer⟩ := block
      subst haddress
      refine hplaced answer (Or.inr ⟨hgrows, hsize⟩) ?_
      exact hplace.imp_left fun hsame => ⟨Nat.le_of_eq hsame.1, hsame.2⟩
    · have hobtained : Passes ⟨.pages pages, bytes⟩ ⟨.pages moved, bytes⟩ .nothing block.span :=
        pages_obtain_passes hobtain
      have hunmapped : Passes ⟨.pages moved, bytes⟩ ⟨.pages (moved.unmap holding.span), bytes⟩
          holding.span .nothing := pages_unmap_passes holding.span
      have hroom : holding.recorded ≤ block.size := by
        rw [hsize, ← hround]
        exact Word.roundUp_mono pages.pageSize_pos (Nat.le_of_lt hgrows)
      have hsame : ∀ address, address ∉ block.span →
          remapped bytes holding.address block.address holding.recorded block.size address =
            bytes address := by
        intro address hout
        exact remapped_of_not_mem (by rwa [Nat.max_eq_right hroom])
      refine .of_move hhoused hfits hgrows hsize
        ((hobtained.thenRelease hunmapped hhoused.occupied).paint hsame) (fun _ => trivial) ?_
      exact fun index hindex => remapped_kept (Nat.lt_of_lt_of_le hindex (carried_le hfits))

/-- A block that is resized keeps its first bytes, wherever it goes. -/
theorem reallocate_resizes (horderly : memory.backend.Orderly)
    (hhoused : memory.backend.Houses holding) (hfits : holding.Fits size)
    (h : memory.reallocate holding.address (holding.layout size) wanted = .ok (block, memory')) :
    Resizes memory holding wanted (carried holding size wanted) block memory' := by
  have hcases := reallocate_ok h
  have hround := hhoused.roundUp_of_fits hfits
  obtain ⟨backend, bytes⟩ := memory
  cases backend with
  | stack arena | freeList list | basic list =>
    exact reallocateByCopy_resizes horderly hhoused hfits hcases
  | heap heap =>
    obtain ⟨heap', hfound, rfl⟩ := hcases
    exact heap_reallocate_resizes horderly hhoused hfits hfound
  | pages pages =>
    obtain ⟨pages', hfound, rfl⟩ := hcases
    have hold : Word.roundUp (holding.layout size).size pages.pageSize = holding.recorded :=
      hround
    rw [hold]
    exact pages_reallocate_resizes hhoused hfits hfound

end Resizing

end Memory
end Freehold
