import Freehold.Proofs.Memory.Answers

/-!
# What is granted

Each allocator grants a request in a few ways only, listed here once for each of them.  It
reserves memory in units of its own, so the recorded size of a block is the size asked for
in whole units, and the address of a block meets the alignment asked for.  This holds in
any state of the allocator whatever.
-/

namespace Freehold

/-- The unit in which an allocator reserves memory. -/
def Backend.granule : Backend → Nat
  | .stack _ | .heap _ => 1
  | .freeList _ | .basic _ => FreeList.granule
  | .pages books => books.pageSize

theorem Backend.granule_pos (backend : Backend) : 0 < backend.granule := by
  cases backend with
  | stack arena => exact Nat.one_pos
  | freeList list => exact FreeList.granule_pos
  | basic list => exact FreeList.granule_pos
  | heap heap => exact Nat.one_pos
  | pages pages => exact pages.pageSize_pos

theorem Backend.granule_le (backend : Backend) : backend.granule ≤ 1 <<< 63 := by
  cases backend with
  | stack arena | heap heap => exact (by decide : 1 ≤ 1 <<< 63)
  | freeList list | basic list => exact (by decide : FreeList.granule ≤ 1 <<< 63)
  | pages pages => exact pages.page.valid.align_le

theorem Backend.exists_pages {backend : Backend} (h : FreeList.granule < backend.granule) :
    ∃ pages, backend = .pages pages := by
  cases backend with
  | stack arena | heap heap => exact absurd h (by decide : ¬ FreeList.granule < 1)
  | freeList list | basic list => exact absurd h (Nat.lt_irrefl _)
  | pages pages => exact ⟨pages, rfl⟩

/-- Pages are the only units that limit alignments: a page map suits those that divide a page. -/
def Backend.Suits (backend : Backend) (align : Nat) : Prop :=
  FreeList.granule < backend.granule → align ∣ backend.granule

theorem Backend.Suits.congr {backend backend' : Backend} {align : Nat}
    (h : backend.Suits align) (hsame : backend'.granule = backend.granule) :
    backend'.Suits align := by
  unfold Suits
  rw [hsame]
  exact h

@[simp] theorem Word.roundUp_one (n : Nat) : roundUp n 1 = n := roundUp_of_dvd (Nat.one_dvd n)

@[simp] theorem Word.roundUp_zero (granule : Nat) : roundUp 0 granule = 0 :=
  roundUp_of_dvd (Nat.dvd_zero granule)

/-- Sizes that lie between a size and its whole units take up the same units. -/
theorem Word.roundUp_eq_of_growth {size wanted granule : Nat} (hpos : 0 < granule)
    (hgrows : size < wanted) (hle : roundUp wanted granule ≤ roundUp size granule) :
    roundUp size granule = roundUp wanted granule :=
  Nat.le_antisymm (roundUp_mono hpos (Nat.le_of_lt hgrows)) hle

theorem Word.isPowerOfTwo_dvd_of_le {a b : Nat} (ha : a.isPowerOfTwo) (hb : b.isPowerOfTwo)
    (hle : a ≤ b) : a ∣ b := by
  obtain ⟨n, rfl⟩ := ha
  obtain ⟨m, rfl⟩ := hb
  exact Nat.pow_dvd_pow 2 ((Nat.pow_le_pow_iff_right (by decide)).1 hle)

/-! ## Stack arenas -/

namespace StackArena

variable {arena arena' : StackArena}

theorem address_of_padding (address : Nat) {align : Nat} (hpos : 0 < align) :
    address + padding address align = Word.roundUp address align := by
  have hle := Word.le_roundUp address hpos
  unfold padding
  omega

theorem allocate_ok {layout : Layout} {block : Block}
    (h : arena.allocate layout = .ok (block, arena')) :
    (layout.size = 0 ∧ block = .dangling layout.align ∧ arena' = arena) ∨
      (0 < layout.size ∧ ∃ start,
        start = arena.used + padding (arena.base + arena.used) layout.align ∧
        block = ⟨arena.base + start, layout.size⟩ ∧
        arena' = { arena with used := start + layout.size, last := some start }) := by
  unfold allocate at h
  split at h
  · rename_i hzero
    obtain ⟨rfl, rfl⟩ := Prod.mk.inj (Except.ok.inj h)
    exact Or.inl ⟨hzero, rfl, rfl⟩
  rename_i hpos
  split at h
  · contradiction
  rename_i start hstart
  obtain ⟨-, hstart⟩ := Word.fit?_eq_some_iff.1 hstart
  split at h
  · contradiction
  rename_i stop hstop
  obtain ⟨-, rfl⟩ := Word.fit?_eq_some_iff.1 hstop
  split at h
  · contradiction
  obtain ⟨rfl, rfl⟩ := Prod.mk.inj (Except.ok.inj h)
  exact Or.inr ⟨Nat.pos_of_ne_zero hpos, start, hstart.symm, rfl, rfl⟩

theorem lastStart?_some {address size start : Nat}
    (h : arena.lastStart? address size = some start) :
    address = arena.base + start ∧ start + size = arena.used := by
  unfold lastStart? offset? at h
  by_cases hbase : arena.base ≤ address
  · rw [if_pos hbase] at h
    dsimp only at h
    split at h
    · rename_i hlast
      obtain rfl := Option.some.inj h
      exact ⟨by omega, hlast.2⟩
    · contradiction
  · rw [if_neg hbase] at h
    contradiction

theorem expand_ok {address wanted size : Nat} {layout : Layout}
    (h : arena.expand address layout wanted = .ok (size, arena')) :
    (wanted ≤ layout.size ∧ size = layout.size ∧ arena' = arena) ∨
      (layout.size < wanted ∧ size = wanted ∧ ∃ start, address = arena.base + start ∧
        start + layout.size = arena.used ∧ arena' = { arena with used := start + wanted }) := by
  unfold expand at h
  split at h
  · rename_i hle
    obtain ⟨rfl, rfl⟩ := Prod.mk.inj (Except.ok.inj h)
    exact Or.inl ⟨hle, rfl, rfl⟩
  rename_i hgrows
  split at h
  · contradiction
  rename_i start hlast
  obtain ⟨haddress, hused⟩ := lastStart?_some hlast
  split at h
  · contradiction
  rename_i stop hstop
  obtain ⟨-, rfl⟩ := Word.fit?_eq_some_iff.1 hstop
  split at h
  · contradiction
  obtain ⟨rfl, rfl⟩ := Prod.mk.inj (Except.ok.inj h)
  exact Or.inr ⟨Nat.lt_of_not_le hgrows, rfl, start, haddress, hused, rfl⟩

theorem allocate_aligned {layout : Layout} (hvalid : layout.Valid) {block : Block}
    (h : arena.allocate layout = .ok (block, arena')) :
    block.size = layout.size ∧ layout.align ∣ block.address := by
  rcases allocate_ok h with ⟨hzero, rfl, -⟩ | ⟨-, start, rfl, rfl, -⟩
  · exact ⟨hzero.symm, Nat.dvd_refl _⟩
  · refine ⟨rfl, ?_⟩
    show layout.align ∣ arena.base + (arena.used + padding (arena.base + arena.used) layout.align)
    rw [← Nat.add_assoc, address_of_padding _ (Nat.pos_of_isPowerOfTwo hvalid.1)]
    exact Word.dvd_roundUp _ _

end StackArena

/-! ## Free lists -/

namespace FreeList

theorem carve_aligned {size align : Nat} {spans rest : List Span} {start : Nat}
    (h : carve size align spans = some (start, rest)) : align ∣ start := by
  induction spans generalizing start rest with
  | nil => simp [carve] at h
  | cons span spans ih =>
    unfold carve at h
    split at h
    · contradiction
    rename_i first hfirst
    obtain ⟨-, rfl⟩ := Word.fit?_eq_some_iff.1 hfirst
    split at h
    · contradiction
    split at h
    · obtain ⟨⟨start', rest'⟩, hfound, heq⟩ := Option.map_eq_some_iff.1 h
      obtain ⟨rfl, rfl⟩ := Prod.mk.inj heq
      exact ih hfound
    · have hdvd := Word.dvd_roundUp span.start align
      by_cases hgap : span.start < Word.roundUp span.start align
      all_goals
        simp only [hgap, if_true, if_false, Option.some.injEq, Prod.mk.injEq] at h
        obtain ⟨rfl, -⟩ := h
        exact hdvd

theorem allocate_aligned {list list' : FreeList} {layout : Layout} (hvalid : layout.Valid)
    {block : Block} (h : list.allocate layout = .ok (block, list')) :
    block.size = Word.roundUp layout.size granule ∧ layout.align ∣ block.address := by
  rcases allocate_ok h with ⟨hzero, rfl, -⟩ | ⟨-, start, spans, hcarve, rfl, -⟩
  · rw [hzero, Word.roundUp_zero]
    exact ⟨rfl, Nat.dvd_refl _⟩
  · exact ⟨rfl, Nat.dvd_trans (dvd_max_granule hvalid.1).1 (carve_aligned hcarve)⟩

theorem expand_size {list list' : FreeList} {address wanted size : Nat} {layout : Layout}
    (h : list.expand address layout wanted = .ok (size, list')) :
    (wanted ≤ layout.size ∧ size = layout.size) ∨
      (layout.size < wanted ∧ size = Word.roundUp wanted granule) := by
  rcases expand_ok h with ⟨hle, rfl, -⟩ | ⟨hgrows, hle, rfl, -⟩ | ⟨hlt, spans, -, rfl, -⟩
  · exact Or.inl ⟨hle, rfl⟩
  · exact Or.inr ⟨hgrows, Word.roundUp_eq_of_growth granule_pos hgrows hle⟩
  · refine Or.inr ⟨Nat.lt_of_not_le fun hle => ?_, rfl⟩
    have hmono := Word.roundUp_mono granule_pos hle
    omega

end FreeList

/-! ## The heap -/

namespace Heap

variable {heap heap' : Heap}

theorem allocate_ok {layout : Layout} {block : Block}
    (h : heap.allocate layout = .ok (block, heap')) :
    (layout.size = 0 ∧ block = .dangling layout.align ∧ heap' = heap) ∨
      (0 < layout.size ∧ heap.obtain? layout = some (block, heap')) := by
  unfold allocate at h
  split at h
  · rename_i hzero
    obtain ⟨rfl, rfl⟩ := Prod.mk.inj (Except.ok.inj h)
    exact Or.inl ⟨hzero, rfl, rfl⟩
  rename_i hpos
  split at h
  · contradiction
  · rename_i found hfound
    obtain rfl := Except.ok.inj h
    exact Or.inr ⟨Nat.pos_of_ne_zero hpos, hfound⟩

theorem allocateCleared_ok {layout : Layout} {block : Block}
    (h : heap.allocateCleared layout = .ok (block, heap')) :
    heap.allocate layout = .ok (block, heap') := by
  unfold allocateCleared at h
  unfold allocate
  split at h
  · rename_i hzero
    rw [if_pos hzero]
    exact h
  rename_i hpos
  rw [if_neg hpos]
  split at h
  · contradiction
  · exact h

theorem reallocate_ok {address wanted : Nat} {layout : Layout} {block : Block}
    (h : heap.reallocate address layout wanted = .ok (block, heap')) :
    (wanted ≤ layout.size ∧ block = ⟨address, layout.size⟩ ∧ heap' = heap) ∨
      (layout.size < wanted ∧ Layout.Valid ⟨wanted, layout.align⟩ ∧
        ((layout.size = 0 ∧ heap.allocate ⟨wanted, layout.align⟩ = .ok (block, heap')) ∨
          (0 < layout.size ∧
            (heap.release address).obtain? ⟨wanted, layout.align⟩ = some (block, heap')))) := by
  unfold reallocate at h
  split at h
  · rename_i hle
    obtain ⟨rfl, rfl⟩ := Prod.mk.inj (Except.ok.inj h)
    exact Or.inl ⟨hle, rfl, rfl⟩
  rename_i hgrows
  split at h
  · contradiction
  rename_i grown hgrown
  obtain ⟨hvalid, rfl⟩ := Layout.of?_eq_some_iff.1 hgrown
  refine Or.inr ⟨Nat.lt_of_not_le hgrows, hvalid, ?_⟩
  split at h
  · rename_i hzero
    exact Or.inl ⟨hzero, h⟩
  rename_i hpos
  split at h
  · contradiction
  · rename_i found hfound
    obtain rfl := Except.ok.inj h
    exact Or.inr ⟨Nat.pos_of_ne_zero hpos, hfound⟩

theorem obtain?_aligned {layout : Layout} {block : Block}
    (h : heap.obtain? layout = some (block, heap')) :
    block.size = layout.size ∧ layout.align ∣ block.address := by
  obtain ⟨hsize, haccepts, -⟩ := obtain?_some h
  exact ⟨hsize, haccepts.2.2.1⟩

theorem allocate_aligned {layout : Layout} {block : Block}
    (h : heap.allocate layout = .ok (block, heap')) :
    block.size = layout.size ∧ layout.align ∣ block.address := by
  rcases allocate_ok h with ⟨hzero, rfl, -⟩ | ⟨-, hobtain⟩
  · exact ⟨hzero.symm, Nat.dvd_refl _⟩
  · exact obtain?_aligned hobtain

end Heap

/-! ## Page maps -/

namespace PageMap

variable {pages pages' : PageMap}

theorem allocate_ok {layout : Layout} {block : Block}
    (h : pages.allocate layout = .ok (block, pages')) :
    (layout.size = 0 ∧ block = .dangling layout.align ∧ pages' = pages) ∨
      (0 < layout.size ∧ layout.align ≤ pages.pageSize ∧
        pages.obtain? (Word.roundUp layout.size pages.pageSize) = some (block, pages')) := by
  unfold allocate at h
  split at h
  · rename_i hzero
    obtain ⟨rfl, rfl⟩ := Prod.mk.inj (Except.ok.inj h)
    exact Or.inl ⟨hzero, rfl, rfl⟩
  rename_i hpos
  split at h
  · contradiction
  rename_i hfine
  split at h
  · contradiction
  rename_i size hsize
  obtain ⟨-, rfl⟩ := Word.fit?_eq_some_iff.1 hsize
  split at h
  · contradiction
  · rename_i found hfound
    obtain rfl := Except.ok.inj h
    exact Or.inr ⟨Nat.pos_of_ne_zero hpos, Nat.le_of_not_lt hfine, hfound⟩

theorem growAt?_some {address old new : Nat} (h : pages.growAt? address old new = some pages') :
    0 < old ∧ (∀ other ∈ pages.mapped, Span.Apart other ⟨address + old, new - old⟩) ∧
      pages' =
        { pages with
          mapped := ⟨address + old, new - old⟩ :: pages.mapped
          met := pages.met + 1 } := by
  unfold growAt? at h
  split at h
  · contradiction
  rename_i hsmall
  unfold mapAt? at h
  split at h
  · rename_i hfree
    obtain rfl := Option.some.inj h
    exact ⟨by omega, hfree, rfl⟩
  · contradiction

theorem expand_ok {address wanted size : Nat} {layout : Layout}
    (h : pages.expand address layout wanted = .ok (size, pages')) :
    (wanted ≤ layout.size ∧ size = layout.size ∧ pages' = pages) ∨
      (layout.size < wanted ∧ size = Word.roundUp wanted pages.pageSize ∧
        ((size = Word.roundUp layout.size pages.pageSize ∧ pages' = pages) ∨
          (Word.roundUp layout.size pages.pageSize < size ∧
            pages.growAt? address (Word.roundUp layout.size pages.pageSize) size =
              some pages'))) := by
  unfold expand at h
  split at h
  · rename_i hle
    obtain ⟨rfl, rfl⟩ := Prod.mk.inj (Except.ok.inj h)
    exact Or.inl ⟨hle, rfl, rfl⟩
  rename_i hgrows
  have hlt := Nat.lt_of_not_le hgrows
  split at h
  · rename_i old new hold hnew
    obtain ⟨-, rfl⟩ := Word.fit?_eq_some_iff.1 hold
    obtain ⟨-, rfl⟩ := Word.fit?_eq_some_iff.1 hnew
    split at h
    · rename_i hle
      obtain ⟨rfl, rfl⟩ := Prod.mk.inj (Except.ok.inj h)
      exact Or.inr ⟨hlt, Word.roundUp_eq_of_growth pages.pageSize_pos hlt hle, Or.inl ⟨rfl, rfl⟩⟩
    rename_i hmore
    split at h
    · contradiction
    rename_i grown hgrown
    obtain ⟨rfl, rfl⟩ := Prod.mk.inj (Except.ok.inj h)
    exact Or.inr ⟨hlt, rfl, Or.inr ⟨Nat.lt_of_not_le hmore, hgrown⟩⟩
  · contradiction

theorem reallocate_ok {address wanted : Nat} {layout : Layout} {block : Block}
    (h : pages.reallocate address layout wanted = .ok (block, pages')) :
    (wanted ≤ layout.size ∧ block = ⟨address, layout.size⟩ ∧ pages' = pages) ∨
      (layout.size = 0 ∧ 0 < wanted ∧ Layout.Valid ⟨wanted, layout.align⟩ ∧
        pages.allocate ⟨wanted, layout.align⟩ = .ok (block, pages')) ∨
      (0 < layout.size ∧ layout.size < wanted ∧ block.size = Word.roundUp wanted pages.pageSize ∧
        ((block.address = address ∧
            ((block.size = Word.roundUp layout.size pages.pageSize ∧ pages' = pages) ∨
              (Word.roundUp layout.size pages.pageSize < block.size ∧
                pages.growAt? address (Word.roundUp layout.size pages.pageSize) block.size =
                  some pages'))) ∨
          ∃ moved, pages.obtain? (Word.roundUp wanted pages.pageSize) = some (block, moved) ∧
            pages' = moved.unmap ⟨address, Word.roundUp layout.size pages.pageSize⟩)) := by
  unfold reallocate at h
  split at h
  · rename_i hle
    obtain ⟨rfl, rfl⟩ := Prod.mk.inj (Except.ok.inj h)
    exact Or.inl ⟨hle, rfl, rfl⟩
  rename_i hgrows
  have hlt := Nat.lt_of_not_le hgrows
  split at h
  · rename_i hzero
    split at h
    · contradiction
    rename_i fresh hfresh
    obtain ⟨hvalid, rfl⟩ := Layout.of?_eq_some_iff.1 hfresh
    exact Or.inr (Or.inl ⟨hzero, by omega, hvalid, h⟩)
  rename_i hpos
  refine Or.inr (Or.inr ⟨Nat.pos_of_ne_zero hpos, hlt, ?_⟩)
  split at h
  · rename_i old new hold hnew
    obtain ⟨-, rfl⟩ := Word.fit?_eq_some_iff.1 hold
    obtain ⟨-, rfl⟩ := Word.fit?_eq_some_iff.1 hnew
    split at h
    · rename_i hle
      obtain ⟨rfl, rfl⟩ := Prod.mk.inj (Except.ok.inj h)
      exact ⟨Word.roundUp_eq_of_growth pages.pageSize_pos hlt hle, Or.inl ⟨rfl, Or.inl ⟨rfl, rfl⟩⟩⟩
    rename_i hmore
    split at h
    · rename_i grown hgrown
      obtain ⟨rfl, rfl⟩ := Prod.mk.inj (Except.ok.inj h)
      exact ⟨rfl, Or.inl ⟨rfl, Or.inr ⟨Nat.lt_of_not_le hmore, hgrown⟩⟩⟩
    split at h
    · contradiction
    · rename_i found moved hfound
      obtain ⟨rfl, rfl⟩ := Prod.mk.inj (Except.ok.inj h)
      exact ⟨(obtain?_some hfound).1, Or.inr ⟨moved, hfound, rfl⟩⟩
  · contradiction

theorem obtain?_aligned {size : Nat} {block : Block}
    (h : pages.obtain? size = some (block, pages')) : pages.pageSize ∣ block.address :=
  (obtain?_some h).2.1.2.2.1

theorem pageSize_isPowerOfTwo (pages : PageMap) : pages.pageSize.isPowerOfTwo :=
  pages.page.valid.1

theorem allocate_aligned {layout : Layout} (hvalid : layout.Valid) {block : Block}
    (h : pages.allocate layout = .ok (block, pages')) :
    block.size = Word.roundUp layout.size pages.pageSize ∧ layout.align ∣ block.address := by
  rcases allocate_ok h with ⟨hzero, rfl, -⟩ | ⟨-, hfine, hobtain⟩
  · rw [hzero, Word.roundUp_zero]
    exact ⟨rfl, Nat.dvd_refl _⟩
  · have hdvd := Word.isPowerOfTwo_dvd_of_le hvalid.1 pages.pageSize_isPowerOfTwo hfine
    exact ⟨(obtain?_some hobtain).1, Nat.dvd_trans hdvd (obtain?_aligned hobtain)⟩

/-! The size of pages never changes. -/

theorem pageSize_obtain? {size : Nat} {block : Block}
    (h : pages.obtain? size = some (block, pages')) : pages'.pageSize = pages.pageSize := by
  obtain ⟨-, -, rfl⟩ := obtain?_some h
  rfl

theorem pageSize_growAt? {address old new : Nat}
    (h : pages.growAt? address old new = some pages') : pages'.pageSize = pages.pageSize := by
  obtain ⟨-, -, rfl⟩ := growAt?_some h
  rfl

theorem pageSize_deallocate (pages : PageMap) (address : Nat) (layout : Layout) :
    (pages.deallocate address layout).pageSize = pages.pageSize := by
  unfold deallocate
  split
  · rfl
  · rfl

theorem pageSize_allocate {layout : Layout} {block : Block}
    (h : pages.allocate layout = .ok (block, pages')) : pages'.pageSize = pages.pageSize := by
  rcases allocate_ok h with ⟨-, -, rfl⟩ | ⟨-, -, hobtain⟩
  · rfl
  · exact pageSize_obtain? hobtain

theorem pageSize_expand {address wanted size : Nat} {layout : Layout}
    (h : pages.expand address layout wanted = .ok (size, pages')) :
    pages'.pageSize = pages.pageSize := by
  rcases expand_ok h with ⟨-, -, rfl⟩ | ⟨-, -, ⟨-, rfl⟩ | ⟨-, hgrown⟩⟩
  · rfl
  · rfl
  · exact pageSize_growAt? hgrown

theorem pageSize_reallocate {address wanted : Nat} {layout : Layout} {block : Block}
    (h : pages.reallocate address layout wanted = .ok (block, pages')) :
    pages'.pageSize = pages.pageSize := by
  rcases reallocate_ok h with
    ⟨-, -, rfl⟩ | ⟨-, -, -, hanew⟩ |
      ⟨-, -, -, ⟨-, ⟨-, rfl⟩ | ⟨-, hgrown⟩⟩ | ⟨moved, hobtain, rfl⟩⟩
  · rfl
  · exact pageSize_allocate hanew
  · rfl
  · exact pageSize_growAt? hgrown
  · exact (pageSize_obtain? hobtain : moved.pageSize = pages.pageSize)

end PageMap

/-! ## The interface -/

theorem Except.of_map_ok {ε α β : Type} {answer : Except ε α} {change : α → β} {result : β}
    (h : answer.map change = .ok result) : ∃ found, answer = .ok found ∧ change found = result := by
  cases answer with
  | error refusal => cases h
  | ok found => exact ⟨found, rfl, Except.ok.inj h⟩

namespace Memory

variable {memory memory' : Memory}

theorem allocate_ok {layout : Layout} {block : Block}
    (h : memory.allocate layout = .ok (block, memory')) :
    match memory.backend with
    | .stack arena => ∃ arena', arena.allocate layout = .ok (block, arena') ∧
        memory' = { memory with backend := .stack arena' }
    | .freeList list => ∃ list', list.allocate layout = .ok (block, list') ∧
        memory' = memory.withList .freeList list'
    | .basic list => ∃ list', list.allocate layout = .ok (block, list') ∧
        memory' = memory.withList .basic list'
    | .heap heap => ∃ heap', heap.allocate layout = .ok (block, heap') ∧
        memory' = { memory with backend := .heap heap' }
    | .pages pages => ∃ pages', pages.allocate layout = .ok (block, pages') ∧
        memory' =
          { backend := .pages pages', bytes := memory.bytes.fill block.address block.size 0 } := by
  unfold allocate at h
  cases hbackend : memory.backend with
  | stack arena | freeList list | basic list | heap heap | pages pages =>
    rw [hbackend] at h
    obtain ⟨⟨found, books⟩, hfound, heq⟩ := Except.of_map_ok h
    obtain ⟨rfl, rfl⟩ := Prod.mk.inj heq
    exact ⟨books, hfound, rfl⟩

theorem refuseGrowth_ok {layout : Layout} {wanted size : Nat}
    (h : memory.refuseGrowth layout wanted = .ok (size, memory')) :
    wanted ≤ layout.size ∧ size = layout.size ∧ memory' = memory := by
  unfold refuseGrowth at h
  split at h
  · rename_i hle
    obtain ⟨rfl, rfl⟩ := Prod.mk.inj (Except.ok.inj h)
    exact ⟨hle, rfl, rfl⟩
  · contradiction

theorem expand_ok {address wanted size : Nat} {layout : Layout}
    (h : memory.expand address layout wanted = .ok (size, memory')) :
    match memory.backend with
    | .stack arena => ∃ arena', arena.expand address layout wanted = .ok (size, arena') ∧
        memory' = { memory with backend := .stack arena' }
    | .freeList list => ∃ list', list.expand address layout wanted = .ok (size, list') ∧
        memory' = memory.withList .freeList list'
    | .basic _ | .heap _ => wanted ≤ layout.size ∧ size = layout.size ∧ memory' = memory
    | .pages pages => ∃ pages', pages.expand address layout wanted = .ok (size, pages') ∧
        memory' =
          { backend := .pages pages'
            bytes := memory.bytes.fill (address + Word.roundUp layout.size pages.pageSize)
              (size - Word.roundUp layout.size pages.pageSize) 0 } := by
  unfold expand at h
  cases hbackend : memory.backend with
  | basic list | heap heap =>
    rw [hbackend] at h
    exact refuseGrowth_ok h
  | stack arena | freeList list | pages pages =>
    rw [hbackend] at h
    obtain ⟨⟨found, books⟩, hfound, heq⟩ := Except.of_map_ok h
    obtain ⟨rfl, rfl⟩ := Prod.mk.inj heq
    exact ⟨books, hfound, rfl⟩

/-- A block that is resized by the generic operation stays, is grown in place, or makes way
for a new one. -/
theorem reallocateByCopy_ok {address wanted : Nat} {layout : Layout} {block : Block}
    (h : memory.reallocateByCopy address layout wanted = .ok (block, memory')) :
    (wanted ≤ layout.size ∧ block = ⟨address, layout.size⟩ ∧ memory' = memory) ∨
      (layout.size < wanted ∧ block.address = address ∧
        memory.expand address layout wanted = .ok (block.size, memory')) ∨
      (layout.size < wanted ∧ Layout.Valid ⟨wanted, layout.align⟩ ∧ ∃ moved,
        memory.allocate ⟨wanted, layout.align⟩ = .ok (block, moved) ∧
        memory' = Memory.deallocate
          { moved with bytes := moved.bytes.copy address block.address layout.size }
          address layout) := by
  unfold reallocateByCopy at h
  split at h
  · rename_i hle
    obtain ⟨rfl, rfl⟩ := Prod.mk.inj (Except.ok.inj h)
    exact Or.inl ⟨hle, rfl, rfl⟩
  rename_i hgrows
  have hlt := Nat.lt_of_not_le hgrows
  split at h
  · rename_i size grown hgrown
    obtain ⟨rfl, rfl⟩ := Prod.mk.inj (Except.ok.inj h)
    exact Or.inr (Or.inl ⟨hlt, rfl, hgrown⟩)
  split at h
  · contradiction
  rename_i fresh hfresh
  obtain ⟨hvalid, rfl⟩ := Layout.of?_eq_some_iff.1 hfresh
  split at h
  · contradiction
  rename_i found moved hfound
  obtain ⟨rfl, rfl⟩ := Prod.mk.inj (Except.ok.inj h)
  exact Or.inr (Or.inr ⟨hlt, hvalid, moved, hfound, rfl⟩)

theorem reallocate_ok {address wanted : Nat} {layout : Layout} {block : Block}
    (h : memory.reallocate address layout wanted = .ok (block, memory')) :
    match memory.backend with
    | .stack _ | .freeList _ | .basic _ =>
      memory.reallocateByCopy address layout wanted = .ok (block, memory')
    | .heap heap => ∃ heap', heap.reallocate address layout wanted = .ok (block, heap') ∧
        memory' =
          { backend := .heap heap'
            bytes := memory.bytes.copy address block.address layout.size }
    | .pages pages => ∃ pages', pages.reallocate address layout wanted = .ok (block, pages') ∧
        memory' =
          { backend := .pages pages'
            bytes :=
              (memory.bytes.fill block.address block.size 0).overlay fun target =>
                if block.address ≤ target ∧
                    target < block.address + Word.roundUp layout.size pages.pageSize then
                  some (memory.bytes (address + (target - block.address)))
                else none } := by
  unfold reallocate at h
  cases hbackend : memory.backend with
  | stack arena | freeList list | basic list =>
    rw [hbackend] at h
    exact h
  | heap heap | pages pages =>
    rw [hbackend] at h
    obtain ⟨⟨found, books⟩, hfound, heq⟩ := Except.of_map_ok h
    obtain ⟨rfl, rfl⟩ := Prod.mk.inj heq
    exact ⟨books, hfound, rfl⟩

@[simp] theorem granule_deallocate (memory : Memory) (address : Nat) (layout : Layout) :
    (memory.deallocate address layout).backend.granule = memory.backend.granule := by
  unfold deallocate
  cases hbackend : memory.backend with
  | stack arena | freeList list | basic list | heap heap => rfl
  | pages pages => exact pages.pageSize_deallocate address layout

theorem granule_addRegion (memory : Memory) (region : Span) :
    (memory.addRegion region).backend.granule = memory.backend.granule := by
  obtain ⟨backend, bytes⟩ := memory
  cases backend with
  | stack arena | freeList list | basic list | heap heap | pages pages => rfl

@[simp] theorem backend_advise (memory : Memory) (address count : Nat) (hint : UsageHint) :
    (memory.advise address count hint).backend = memory.backend := by
  unfold advise
  split
  · rfl
  · rfl

/-- An allocator stays of its kind when it grants a block. -/
theorem granule_allocate {layout : Layout} {block : Block}
    (h : memory.allocate layout = .ok (block, memory')) :
    memory'.backend.granule = memory.backend.granule := by
  have hcases := allocate_ok h
  cases hbackend : memory.backend with
  | stack arena | freeList list | basic list | heap heap =>
    rw [hbackend] at hcases
    obtain ⟨books, -, rfl⟩ := hcases
    rfl
  | pages pages =>
    rw [hbackend] at hcases
    obtain ⟨pages', hfound, rfl⟩ := hcases
    exact PageMap.pageSize_allocate hfound

/-- A new block is aligned, and its size is the size asked for in whole units. -/
theorem allocate_granted {layout : Layout} (hvalid : layout.Valid) {block : Block}
    (h : memory.allocate layout = .ok (block, memory')) :
    block.size = Word.roundUp layout.size memory.backend.granule ∧
      layout.align ∣ block.address := by
  have hcases := allocate_ok h
  cases hbackend : memory.backend with
  | stack arena =>
    rw [hbackend] at hcases
    obtain ⟨arena', hfound, -⟩ := hcases
    obtain ⟨hsize, halign⟩ := StackArena.allocate_aligned hvalid hfound
    exact ⟨hsize.trans (Word.roundUp_one _).symm, halign⟩
  | freeList list | basic list =>
    rw [hbackend] at hcases
    obtain ⟨list', hfound, -⟩ := hcases
    exact FreeList.allocate_aligned hvalid hfound
  | heap heap =>
    rw [hbackend] at hcases
    obtain ⟨heap', hfound, -⟩ := hcases
    obtain ⟨hsize, halign⟩ := Heap.allocate_aligned hfound
    exact ⟨hsize.trans (Word.roundUp_one _).symm, halign⟩
  | pages pages =>
    rw [hbackend] at hcases
    obtain ⟨pages', hfound, -⟩ := hcases
    exact PageMap.allocate_aligned hvalid hfound

/-- A block that grows in place has the size asked for in whole units afterwards. -/
theorem expand_granted {address wanted size : Nat} {layout : Layout}
    (h : memory.expand address layout wanted = .ok (size, memory')) :
    ((wanted ≤ layout.size ∧ size = layout.size) ∨
      (layout.size < wanted ∧ size = Word.roundUp wanted memory.backend.granule)) ∧
      memory'.backend.granule = memory.backend.granule := by
  have hcases := expand_ok h
  cases hbackend : memory.backend with
  | stack arena =>
    rw [hbackend] at hcases
    obtain ⟨arena', hfound, rfl⟩ := hcases
    refine ⟨?_, rfl⟩
    rcases StackArena.expand_ok hfound with ⟨hle, hsize, -⟩ | ⟨hlt, hsize, -⟩
    · exact Or.inl ⟨hle, hsize⟩
    · exact Or.inr ⟨hlt, hsize.trans (Word.roundUp_one _).symm⟩
  | freeList list =>
    rw [hbackend] at hcases
    obtain ⟨list', hfound, rfl⟩ := hcases
    exact ⟨FreeList.expand_size hfound, rfl⟩
  | basic list | heap heap =>
    rw [hbackend] at hcases
    obtain ⟨hle, hsize, rfl⟩ := hcases
    exact ⟨Or.inl ⟨hle, hsize⟩, congrArg Backend.granule hbackend⟩
  | pages pages =>
    rw [hbackend] at hcases
    obtain ⟨pages', hfound, rfl⟩ := hcases
    refine ⟨?_, PageMap.pageSize_expand hfound⟩
    rcases PageMap.expand_ok hfound with ⟨hle, hsize, -⟩ | ⟨hlt, hsize, -⟩
    · exact Or.inl ⟨hle, hsize⟩
    · exact Or.inr ⟨hlt, hsize⟩

/-- What a resized block is like: where it lies, how large it is, and that its allocator
is still of its kind.  A page aligns a block that was aligned to it. -/
def Regranted (memory : Memory) (address : Nat) (layout : Layout) (wanted : Nat)
    (block : Block) (memory' : Memory) : Prop :=
  ((wanted ≤ layout.size ∧ block = ⟨address, layout.size⟩) ∨
    (layout.size < wanted ∧ block.size = Word.roundUp wanted memory.backend.granule ∧
      (block.address = address ∨
        (memory.backend.Suits layout.align → layout.align ∣ block.address)))) ∧
    memory'.backend.granule = memory.backend.granule

theorem reallocateByCopy_granted {address wanted : Nat} {layout : Layout} {block : Block}
    (h : memory.reallocateByCopy address layout wanted = .ok (block, memory')) :
    Regranted memory address layout wanted block memory' := by
  rcases reallocateByCopy_ok h with
    ⟨hle, rfl, rfl⟩ | ⟨hlt, haddress, hgrown⟩ | ⟨hlt, hvalid, moved, hfound, rfl⟩
  · exact ⟨Or.inl ⟨hle, rfl⟩, rfl⟩
  · obtain ⟨hsize, hgranule⟩ := expand_granted hgrown
    rcases hsize with ⟨hle, -⟩ | ⟨-, hsize⟩
    · exact absurd hlt (Nat.not_lt_of_le hle)
    · exact ⟨Or.inr ⟨hlt, hsize, Or.inl haddress⟩, hgranule⟩
  · obtain ⟨hsize, halign⟩ := allocate_granted hvalid hfound
    refine ⟨Or.inr ⟨hlt, hsize, Or.inr fun _ => halign⟩, ?_⟩
    rw [granule_deallocate]
    have hmoved : moved.backend.granule = memory.backend.granule := granule_allocate hfound
    exact hmoved

theorem reallocate_granted {address wanted : Nat} {layout : Layout} {block : Block}
    (h : memory.reallocate address layout wanted = .ok (block, memory')) :
    Regranted memory address layout wanted block memory' := by
  have hcases := reallocate_ok h
  cases hbackend : memory.backend with
  | stack arena | freeList list | basic list =>
    rw [hbackend] at hcases
    exact reallocateByCopy_granted hcases
  | heap heap =>
    rw [hbackend] at hcases
    obtain ⟨heap', hfound, rfl⟩ := hcases
    unfold Regranted
    rw [hbackend]
    refine ⟨?_, rfl⟩
    rcases Heap.reallocate_ok hfound with
      ⟨hle, hblock, -⟩ | ⟨hlt, hvalid, ⟨-, hanew⟩ | ⟨-, hobtain⟩⟩
    · exact Or.inl ⟨hle, hblock⟩
    · obtain ⟨hsize, halign⟩ := Heap.allocate_aligned hanew
      exact Or.inr ⟨hlt, hsize.trans (Word.roundUp_one _).symm, Or.inr fun _ => halign⟩
    · obtain ⟨hsize, halign⟩ := Heap.obtain?_aligned hobtain
      exact Or.inr ⟨hlt, hsize.trans (Word.roundUp_one _).symm, Or.inr fun _ => halign⟩
  | pages pages =>
    rw [hbackend] at hcases
    obtain ⟨pages', hfound, rfl⟩ := hcases
    unfold Regranted
    rw [hbackend]
    refine ⟨?_, PageMap.pageSize_reallocate hfound⟩
    rcases PageMap.reallocate_ok hfound with
      ⟨hle, hblock, -⟩ | ⟨hzero, hpos, hvalid, hanew⟩ | ⟨hpos, hlt, hsize, hplace⟩
    · exact Or.inl ⟨hle, hblock⟩
    · obtain ⟨hsize, halign⟩ := PageMap.allocate_aligned hvalid hanew
      exact Or.inr ⟨hzero ▸ hpos, hsize, Or.inr fun _ => halign⟩
    · refine Or.inr ⟨hlt, hsize, ?_⟩
      rcases hplace with ⟨haddress, -⟩ | ⟨moved, hobtain, -⟩
      · exact Or.inl haddress
      · exact Or.inr fun hsuits =>
          Nat.dvd_trans (hsuits pages.granule_lt_pageSize) (PageMap.obtain?_aligned hobtain)

/-- A page map grants a block only at alignments that divide a page. -/
theorem suits_of_allocate {layout : Layout} (hvalid : layout.Valid) (hpos : 0 < layout.size)
    {block : Block} (h : memory.allocate layout = .ok (block, memory')) :
    memory.backend.Suits layout.align := by
  intro hunits
  obtain ⟨pages, hpages⟩ := Backend.exists_pages hunits
  have hcases := allocate_ok h
  rw [hpages] at hcases ⊢
  obtain ⟨pages', hfound, -⟩ := hcases
  rcases PageMap.allocate_ok hfound with ⟨hzero, -⟩ | ⟨-, hfine, -⟩
  · omega
  · exact Word.isPowerOfTwo_dvd_of_le hvalid.1 pages.pageSize_isPowerOfTwo hfine

end Memory
end Freehold
