import Freehold.Memory.Backend
import Freehold.Proofs.FreeList.Tidy

/-!
# What an allocator may answer

Whichever allocator manages a memory, a block that it hands out is at least as large as
the request, and a request is refused for one of three causes.  A container that relies
on no more than this works with every allocator.
-/

namespace Freehold

/-- The causes for which a new or a resized block is refused. -/
def ErrorKind.OfRequest (kind : ErrorKind) : Prop :=
  kind = .allocationFailed ∨ kind = .integerOverflow ∨ kind = .unsupportedOperation

/-- An answer to a request for so many bytes, whatever else comes with the block. -/
def Serves {σ : Type} (wanted : Nat) : Except Refusal (Block × σ) → Prop
  | .ok (block, _) => wanted ≤ block.size
  | .error refusal => refusal.kind.OfRequest

/-- An answer to a request to grow in place. -/
def Reaches {σ : Type} (wanted : Nat) : Except Refusal (Nat × σ) → Prop
  | .ok (size, _) => wanted ≤ size
  | .error _ => True

section Answers

variable {σ τ : Type} {wanted : Nat}

theorem Serves.map {answer : Except Refusal (Block × σ)} (h : Serves wanted answer)
    (change : Block × σ → τ) :
    Serves wanted (answer.map fun found => (found.1, change found)) := by
  cases answer with
  | ok found => exact h
  | error refusal => exact h

theorem Reaches.map {answer : Except Refusal (Nat × σ)} (h : Reaches wanted answer)
    (change : Nat × σ → τ) :
    Reaches wanted (answer.map fun found => (found.1, change found)) := by
  cases answer with
  | ok found => exact h
  | error refusal => trivial

theorem ErrorKind.ofRequest_allocationFailed : ErrorKind.OfRequest .allocationFailed :=
  Or.inl rfl

theorem ErrorKind.ofRequest_integerOverflow : ErrorKind.OfRequest .integerOverflow :=
  Or.inr (Or.inl rfl)

theorem ErrorKind.ofRequest_unsupportedOperation :
    ErrorKind.OfRequest .unsupportedOperation := Or.inr (Or.inr rfl)

end Answers

/-! ## The allocators one by one -/

theorem StackArena.allocate_serves (arena : StackArena) (layout : Layout) :
    Serves layout.size (arena.allocate layout) := by
  unfold StackArena.allocate
  split
  · rename_i hzero
    exact Nat.le_of_eq hzero
  split
  · exact ErrorKind.ofRequest_allocationFailed
  split
  · exact ErrorKind.ofRequest_allocationFailed
  split
  · exact ErrorKind.ofRequest_allocationFailed
  · exact Nat.le_refl layout.size

theorem StackArena.expand_reaches (arena : StackArena) (address : Nat) (layout : Layout)
    (wanted : Nat) : Reaches wanted (arena.expand address layout wanted) := by
  unfold StackArena.expand
  split
  · assumption
  split
  · trivial
  split
  · trivial
  split
  · trivial
  · exact Nat.le_refl wanted

theorem FreeList.allocate_serves (list : FreeList) (layout : Layout) :
    Serves layout.size (list.allocate layout) := by
  unfold FreeList.allocate
  split
  · rename_i hzero
    exact Nat.le_of_eq hzero
  split
  · exact ErrorKind.ofRequest_integerOverflow
  rename_i size hsize
  split
  · exact ErrorKind.ofRequest_allocationFailed
  · obtain ⟨-, rfl⟩ := Word.fit?_eq_some_iff.1 hsize
    exact Word.le_roundUp layout.size granule_pos

theorem FreeList.expand_reaches (list : FreeList) (address : Nat) (layout : Layout)
    (wanted : Nat) : Reaches wanted (list.expand address layout wanted) := by
  have hround := Word.le_roundUp wanted granule_pos
  cases hanswer : list.expand address layout wanted with
  | error refusal => trivial
  | ok found =>
    obtain ⟨size, grown⟩ := found
    show wanted ≤ size
    rcases expand_ok hanswer with ⟨hle, rfl, -⟩ | ⟨-, hle, rfl, -⟩ | ⟨-, spans, -, rfl, -⟩
    · exact hle
    · exact Nat.le_trans hround hle
    · exact hround

theorem Heap.obtain?_some {heap heap' : Heap} {layout : Layout} {block : Block}
    (h : heap.obtain? layout = some (block, heap')) :
    block.size = layout.size ∧ Host.Accepts heap.used layout block.address ∧
      heap' = { heap with used := block.span :: heap.used, met := heap.met + 1 } := by
  obtain ⟨address, hgrant, hmade⟩ := Option.map_eq_some_iff.1 h
  obtain ⟨rfl, rfl⟩ := Prod.mk.inj hmade
  exact ⟨rfl, Host.accepts_of_grant? hgrant, rfl⟩

theorem Heap.allocate_serves (heap : Heap) (layout : Layout) :
    Serves layout.size (heap.allocate layout) := by
  unfold Heap.allocate
  split
  · rename_i hzero
    exact Nat.le_of_eq hzero
  split
  · exact ErrorKind.ofRequest_allocationFailed
  · rename_i found hfound
    exact Nat.le_of_eq (obtain?_some hfound).1.symm

theorem Heap.reallocate_serves (heap : Heap) (address : Nat) (layout : Layout)
    (wanted : Nat) : Serves wanted (heap.reallocate address layout wanted) := by
  unfold Heap.reallocate
  split
  · assumption
  split
  · exact ErrorKind.ofRequest_integerOverflow
  rename_i grown hgrown
  obtain ⟨-, rfl⟩ := Layout.of?_eq_some_iff.1 hgrown
  split
  · exact heap.allocate_serves ⟨wanted, layout.align⟩
  split
  · exact ErrorKind.ofRequest_allocationFailed
  · rename_i found hfound
    exact Nat.le_of_eq (obtain?_some hfound).1.symm

namespace PageMap

theorem granule_lt_pageSize (pages : PageMap) : FreeList.granule < pages.pageSize :=
  pages.page.granule_lt

theorem pageSize_pos (pages : PageMap) : 0 < pages.pageSize :=
  Nat.zero_lt_of_lt pages.granule_lt_pageSize

theorem obtain?_some {pages pages' : PageMap} {size : Nat} {block : Block}
    (h : pages.obtain? size = some (block, pages')) :
    block.size = size ∧ Host.Accepts pages.mapped ⟨size, pages.pageSize⟩ block.address ∧
      pages' = { pages with mapped := block.span :: pages.mapped, met := pages.met + 1 } := by
  obtain ⟨address, hgrant, hmade⟩ := Option.map_eq_some_iff.1 h
  obtain ⟨rfl, rfl⟩ := Prod.mk.inj hmade
  exact ⟨rfl, Host.accepts_of_grant? hgrant, rfl⟩

theorem le_of_roundUp? {pages : PageMap} {size rounded : Nat}
    (h : Word.roundUp? size pages.pageSize = some rounded) : size ≤ rounded := by
  obtain ⟨-, rfl⟩ := Word.fit?_eq_some_iff.1 h
  exact Word.le_roundUp size pages.pageSize_pos

theorem allocate_serves (pages : PageMap) (layout : Layout) :
    Serves layout.size (pages.allocate layout) := by
  unfold allocate
  split
  · rename_i hzero
    exact Nat.le_of_eq hzero
  split
  · exact ErrorKind.ofRequest_unsupportedOperation
  split
  · exact ErrorKind.ofRequest_integerOverflow
  rename_i size hsize
  split
  · exact ErrorKind.ofRequest_allocationFailed
  · rename_i found hfound
    show layout.size ≤ found.1.size
    rw [(obtain?_some hfound).1]
    exact le_of_roundUp? hsize

theorem expand_reaches (pages : PageMap) (address : Nat) (layout : Layout) (wanted : Nat) :
    Reaches wanted (pages.expand address layout wanted) := by
  unfold expand
  split
  · assumption
  split
  · rename_i old new hold hnew
    have hround := le_of_roundUp? hnew
    split
    · rename_i hle
      exact Nat.le_trans hround hle
    split
    · trivial
    · exact hround
  · trivial

theorem reallocate_serves (pages : PageMap) (address : Nat) (layout : Layout)
    (wanted : Nat) : Serves wanted (pages.reallocate address layout wanted) := by
  unfold reallocate
  split
  · assumption
  split
  · split
    · exact ErrorKind.ofRequest_integerOverflow
    · rename_i fresh hfresh
      obtain ⟨-, rfl⟩ := Layout.of?_eq_some_iff.1 hfresh
      exact pages.allocate_serves ⟨wanted, layout.align⟩
  split
  · rename_i old new hold hnew
    have hround := le_of_roundUp? hnew
    split
    · rename_i hle
      exact Nat.le_trans hround hle
    split
    · exact hround
    split
    · exact ErrorKind.ofRequest_allocationFailed
    · rename_i block moved hfound
      show wanted ≤ block.size
      rw [(obtain?_some hfound).1]
      exact hround
  · exact ErrorKind.ofRequest_integerOverflow

end PageMap

/-! ## The interface -/

namespace Memory

theorem allocate_serves (memory : Memory) (layout : Layout) :
    Serves layout.size (memory.allocate layout) := by
  unfold allocate
  split
  · exact (StackArena.allocate_serves _ layout).map _
  · exact (FreeList.allocate_serves _ layout).map _
  · exact (FreeList.allocate_serves _ layout).map _
  · exact (Heap.allocate_serves _ layout).map _
  · exact (PageMap.allocate_serves _ layout).map _

theorem expand_reaches (memory : Memory) (address : Nat) (layout : Layout) (wanted : Nat) :
    Reaches wanted (memory.expand address layout wanted) := by
  have hrefuse : Reaches wanted (memory.refuseGrowth layout wanted) := by
    unfold refuseGrowth
    split
    · assumption
    · trivial
  unfold expand
  split
  · exact (StackArena.expand_reaches _ address layout wanted).map _
  · exact (FreeList.expand_reaches _ address layout wanted).map _
  · exact hrefuse
  · exact hrefuse
  · exact (PageMap.expand_reaches _ address layout wanted).map _

theorem reallocateByCopy_serves (memory : Memory) (address : Nat) (layout : Layout)
    (wanted : Nat) : Serves wanted (memory.reallocateByCopy address layout wanted) := by
  unfold reallocateByCopy
  split
  · assumption
  split
  · rename_i size grown hgrown
    have hreaches := memory.expand_reaches address layout wanted
    rw [hgrown] at hreaches
    exact hreaches
  split
  · exact ErrorKind.ofRequest_integerOverflow
  rename_i fresh hfresh
  obtain ⟨-, rfl⟩ := Layout.of?_eq_some_iff.1 hfresh
  have hserves := memory.allocate_serves ⟨wanted, layout.align⟩
  split
  · rename_i refusal hrefused
    rw [hrefused] at hserves
    exact hserves
  · rename_i block moved hallocated
    rw [hallocated] at hserves
    exact hserves

theorem reallocate_serves (memory : Memory) (address : Nat) (layout : Layout)
    (wanted : Nat) : Serves wanted (memory.reallocate address layout wanted) := by
  unfold reallocate
  split
  · exact memory.reallocateByCopy_serves address layout wanted
  · exact memory.reallocateByCopy_serves address layout wanted
  · exact memory.reallocateByCopy_serves address layout wanted
  · exact (Heap.reallocate_serves _ address layout wanted).map _
  · exact (PageMap.reallocate_serves _ address layout wanted).map _

end Memory
end Freehold
