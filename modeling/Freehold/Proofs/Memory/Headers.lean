import Freehold.Proofs.Memory.Handover

/-!
# Headers in free memory

A free list keeps a header at the start of each of its spans, in the free memory itself.
Every operation leaves the headers where they belong, and what a user writes to its blocks
does not touch them.  So installing a list that has not changed is no change at all, and a
block that need not grow is answered without any trace.
-/

namespace Freehold

/-- The byte that the allocator keeps at an address for itself. -/
def Backend.header? : Backend → Nat → Option UInt8
  | .freeList list, address | .basic list, address => FreeList.headerByte? address list.spans
  | .stack _, _ | .heap _, _ | .pages _, _ => none

namespace Memory

/-- The headers are in place. -/
def Laid (memory : Memory) : Prop :=
  ∀ address byte, memory.backend.header? address = some byte → memory.bytes address = byte

variable {memory memory' : Memory} {layout : Layout} {block : Block}
  {address size wanted : Nat}

theorem laid_of_headless (h : ∀ address, memory.backend.header? address = none) :
    memory.Laid := by
  intro address byte hheader
  rw [h address] at hheader
  contradiction

/-- Both interfaces to free lists keep the same headers. -/
structure Heads (wrap : FreeList → Backend) : Prop where
  header : ∀ list address, (wrap list).header? address = FreeList.headerByte? address list.spans

theorem heads_freeList : Heads .freeList := ⟨fun _ _ => rfl⟩

theorem heads_basic : Heads .basic := ⟨fun _ _ => rfl⟩

theorem laid_withList {wrap : FreeList → Backend} (hwrap : Heads wrap) (memory : Memory)
    (list : FreeList) : (memory.withList wrap list).Laid := by
  intro address byte hheader
  have hfound : FreeList.headerByte? address list.spans = some byte := by
    rw [← hwrap.header]
    exact hheader
  show (FreeList.headerByte? address list.spans).getD (memory.bytes address) = byte
  rw [hfound]
  rfl

/-- A list that is installed again. -/
theorem Laid.withList_eq (h : memory.Laid) {wrap : FreeList → Backend} (hwrap : Heads wrap)
    {list : FreeList} (hbackend : memory.backend = wrap list) :
    memory.withList wrap list = memory := by
  obtain ⟨backend, bytes⟩ := memory
  obtain rfl : backend = wrap list := hbackend
  unfold withList Bytes.overlay
  congr 1
  funext address
  cases hheader : FreeList.headerByte? address list.spans with
  | none => simp [hheader]
  | some byte =>
    have hlaid := h address byte (by rw [hwrap.header, hheader])
    simp [hheader, ← hlaid]

/-- Headers lie in memory that is not handed out, so whatever becomes of the blocks leaves
them alone. -/
theorem Laid.rewrite (h : memory.Laid) (horderly : memory.backend.Orderly) {bytes : Bytes}
    (hsame : ∀ address, ¬ memory.backend.Occupied address → bytes address = memory.bytes address) :
    Laid { memory with bytes := bytes } := by
  intro address byte hheader
  rw [← h address byte hheader]
  refine hsame address fun hused => ?_
  obtain ⟨backend, earlier⟩ := memory
  cases backend with
  | stack arena | heap heap | pages pages => simp [Backend.header?] at hheader
  | freeList list | basic list =>
    have htidy : FreeList.Tidy list.spans := horderly
    have hnone := headerByte?_of_not_free htidy.granular hused
    have hsome : FreeList.headerByte? address list.spans = some byte := hheader
    rw [hnone] at hsome
    contradiction

theorem laid_allocate (h : memory.allocate layout = .ok (block, memory')) : memory'.Laid := by
  have hcases := allocate_ok h
  cases hbackend : memory.backend with
  | stack arena | heap heap | pages pages =>
    rw [hbackend] at hcases
    obtain ⟨books, -, rfl⟩ := hcases
    exact laid_of_headless fun _ => rfl
  | freeList list =>
    rw [hbackend] at hcases
    obtain ⟨list', -, rfl⟩ := hcases
    exact laid_withList heads_freeList memory list'
  | basic list =>
    rw [hbackend] at hcases
    obtain ⟨list', -, rfl⟩ := hcases
    exact laid_withList heads_basic memory list'

theorem Laid.allocateZeroed (h : memory.allocateZeroed layout = .ok (block, memory'))
    (horderly : memory.backend.Orderly) (hvalid : layout.Valid) : memory'.Laid := by
  obtain ⟨plain, hfound, rfl⟩ := allocateZeroed_ok h
  have hgrants := allocate_grants horderly hvalid hfound
  refine (laid_allocate hfound).rewrite hgrants.passes.orderly fun address hfree => ?_
  exact Bytes.fill_of_not_mem fun hin => hfree (hgrants.passes.occupied address hin)

theorem Laid.expand (hlaid : memory.Laid)
    (h : memory.expand address layout wanted = .ok (size, memory')) : memory'.Laid := by
  have hcases := expand_ok h
  cases hbackend : memory.backend with
  | stack arena | pages pages =>
    rw [hbackend] at hcases
    obtain ⟨books, -, rfl⟩ := hcases
    exact laid_of_headless fun _ => rfl
  | freeList list =>
    rw [hbackend] at hcases
    obtain ⟨list', -, rfl⟩ := hcases
    exact laid_withList heads_freeList memory list'
  | basic list | heap heap =>
    rw [hbackend] at hcases
    obtain ⟨-, -, rfl⟩ := hcases
    exact hlaid

theorem laid_deallocate (memory : Memory) (address : Nat) (layout : Layout) :
    (memory.deallocate address layout).Laid := by
  unfold deallocate
  cases hbackend : memory.backend with
  | stack arena | heap heap | pages pages => exact laid_of_headless fun _ => rfl
  | freeList list => exact laid_withList heads_freeList memory _
  | basic list => exact laid_withList heads_basic memory _

theorem Laid.reallocate (hlaid : memory.Laid)
    (h : memory.reallocate address layout wanted = .ok (block, memory')) : memory'.Laid := by
  have hcases := reallocate_ok h
  cases hbackend : memory.backend with
  | heap heap | pages pages =>
    rw [hbackend] at hcases
    obtain ⟨books, -, rfl⟩ := hcases
    exact laid_of_headless fun _ => rfl
  | stack arena | freeList list | basic list =>
    rw [hbackend] at hcases
    rcases reallocateByCopy_ok hcases with
      ⟨-, -, rfl⟩ | ⟨-, -, hgrown⟩ | ⟨-, -, moved, -, rfl⟩
    · exact hlaid
    · exact hlaid.expand hgrown
    · exact laid_deallocate _ address layout

theorem Laid.addRegion (hlaid : memory.Laid) (region : Span) : (memory.addRegion region).Laid := by
  unfold Memory.addRegion
  cases hbackend : memory.backend with
  | stack arena | heap heap | pages pages => exact hlaid
  | freeList list => exact laid_withList heads_freeList memory _
  | basic list => exact laid_withList heads_basic memory _

/-! ## Blocks that need not grow -/

theorem fill_zero (bytes : Bytes) (start : Nat) (value : UInt8) :
    bytes.fill start 0 value = bytes := by
  funext address
  exact Bytes.fill_of_not_mem (by omega)

/-- A block that need not grow is answered as it is, and nothing changes. -/
theorem Laid.expand_of_le (hlaid : memory.Laid) (address : Nat) (hle : wanted ≤ layout.size) :
    memory.expand address layout wanted = .ok (layout.size, memory) := by
  obtain ⟨backend, bytes⟩ := memory
  cases backend with
  | stack arena => simp [Memory.expand, StackArena.expand, hle, Except.map]
  | freeList list =>
    have hsame := hlaid.withList_eq heads_freeList rfl
    simp [Memory.expand, FreeList.expand, hle, Except.map, hsame]
  | basic list | heap heap => simp [Memory.expand, refuseGrowth, hle]
  | pages pages =>
    have hround := Word.le_roundUp layout.size pages.pageSize_pos
    have hnone : layout.size - Word.roundUp layout.size pages.pageSize = 0 := by omega
    simp [Memory.expand, PageMap.expand, hle, Except.map, hnone, fill_zero]

theorem remapped_same (bytes : Bytes) (address : Nat) {kept size : Nat} (hle : size ≤ kept) :
    remapped bytes address address kept size = bytes := by
  funext target
  by_cases hin : target ∈ (⟨address, max kept size⟩ : Span)
  · rw [Span.mem_iff] at hin
    dsimp only at hin
    have hkept : remapped bytes address address kept size (address + (target - address)) =
        bytes (address + (target - address)) := remapped_kept (by omega)
    rwa [Nat.add_sub_cancel' hin.1] at hkept
  · exact remapped_of_not_mem hin

theorem reallocate_of_le (memory : Memory) (address : Nat) (hle : wanted ≤ layout.size) :
    memory.reallocate address layout wanted = .ok (⟨address, layout.size⟩, memory) := by
  obtain ⟨backend, bytes⟩ := memory
  cases backend with
  | stack arena | freeList list | basic list =>
    simp [Memory.reallocate, reallocateByCopy, hle]
  | heap heap => simp [Memory.reallocate, Heap.reallocate, hle, Except.map, copy_same]
  | pages pages =>
    have hround := Word.le_roundUp layout.size pages.pageSize_pos
    have hsame := remapped_same bytes address hround
    unfold remapped at hsame
    simp [Memory.reallocate, PageMap.reallocate, hle, Except.map, hsame]

end Memory
end Freehold
