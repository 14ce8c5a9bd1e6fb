import Freehold.Proofs.Placing.Holding
import Freehold.Proofs.Placing.ManagedAssets

/-!
# Assets that change hands

Code that was not written here, such as a destructor, may use the allocator as it likes.
All that is asked of it is that it gives what it was given for something else and leaves
the blocks of others alone.  This is weaker than managing assets, where the record has to
say what was done.

Address zero is never used, so the blocks of some assets that are not empty have addresses
that differ from zero and from each other.
-/

namespace Freehold

/-! ## Address zero -/

/-- The allocator does not use address zero.  The regions of a free list lie above it. -/
def Backend.Nonnull : Backend → Prop
  | .stack arena => 0 < arena.base
  | .freeList _ | .basic _ => True
  | .heap books => ¬ (Backend.heap books).Occupied 0
  | .pages books => ¬ (Backend.pages books).Occupied 0

theorem Backend.Exact.unoccupied {backend backend' : Backend} {given taken : Span}
    (h : backend.Exact backend' given taken) {address : Nat} (hfree : ¬ backend.Occupied address)
    (hout : address ∉ taken) : ¬ backend'.Occupied address := fun hused =>
  (h address hused).elim (fun hbefore => hfree hbefore.1) hout

namespace Backend.Nonnull

variable {memory memory' : Memory} {regions : List Span}

theorem continued {arena arena' : StackArena} (h : (Backend.stack arena).Nonnull)
    (hcontinues : (Backend.stack arena).Continues (.stack arena')) :
    (Backend.stack arena').Nonnull := by
  have hbase : arena'.base = arena.base := hcontinues.1
  show 0 < arena'.base
  rw [hbase]
  exact h

theorem zero_not_mem_span {block : Block} (h : 0 < block.address) : 0 ∉ block.span :=
  fun hin => Nat.not_le_of_lt h (Span.mem_iff.1 hin).1

theorem allocate (h : memory.backend.Nonnull) {layout : Layout} {block : Block}
    (hgranted : memory.allocate layout = .ok (block, memory')) : memory'.backend.Nonnull := by
  have hcases := Memory.allocate_ok hgranted
  obtain ⟨backend, bytes⟩ := memory
  cases backend with
  | stack arena =>
    obtain ⟨arena', hfound, rfl⟩ := hcases
    exact continued h (StackArena.continues_allocate hfound)
  | freeList list | basic list =>
    obtain ⟨list', -, rfl⟩ := hcases
    trivial
  | heap heap =>
    obtain ⟨heap', hfound, rfl⟩ := hcases
    rcases Heap.allocate_ok hfound with ⟨-, -, rfl⟩ | ⟨-, hobtain⟩
    · exact h
    · obtain ⟨-, haccepts, -⟩ := Heap.obtain?_some hobtain
      exact (heap_exact_obtain hobtain).unoccupied h (zero_not_mem_span haccepts.1)
  | pages pages =>
    obtain ⟨pages', hfound, rfl⟩ := hcases
    rcases PageMap.allocate_ok hfound with ⟨-, -, rfl⟩ | ⟨-, -, hobtain⟩
    · exact h
    · obtain ⟨-, haccepts, -⟩ := PageMap.obtain?_some hobtain
      exact (pages_exact_obtain hobtain).unoccupied h (zero_not_mem_span haccepts.1)

theorem deallocate (h : memory.backend.Nonnull) (address : Nat) (layout : Layout) :
    (memory.deallocate address layout).backend.Nonnull := by
  obtain ⟨backend, bytes⟩ := memory
  cases backend with
  | stack arena => exact continued h (arena.continues_deallocate address layout)
  | freeList list | basic list => trivial
  | heap heap =>
    show (Backend.heap (heap.deallocate address layout)).Nonnull
    unfold Heap.deallocate
    split
    · exact h
    · rintro ⟨span, hmem, hzero⟩
      exact h ⟨span, (List.mem_filter.1 hmem).1, hzero⟩
  | pages pages =>
    show (Backend.pages (pages.deallocate address layout)).Nonnull
    unfold PageMap.deallocate
    split
    · exact h
    · exact (pages_exact_unmap pages _).unoccupied h (Span.not_mem_nothing 0)

theorem spent {means means' : Means} {entries : List Entry}
    (h : means.memory.backend.Nonnull) (hspent : Spent means entries means') :
    means'.memory.backend.Nonnull := by
  induction hspent with
  | nothing => exact h
  | entry _ hspends ih =>
    cases hspends with
    | idle | born => exact ih
    | granted _ hgranted => exact ih.allocate hgranted
    | returned address layout => exact ih.deallocate address layout

theorem address_pos (h : memory.backend.Nonnull) {held : Multiset Holding}
    (hretains : memory.Retains regions held) {holding : Holding} (hmem : holding ∈ held)
    (hpos : 0 < holding.recorded) : 0 < holding.address := by
  obtain ⟨list, rfl, hordered⟩ := hretains.ordered
  have hkept := hordered.kept holding (Multiset.mem_coe.1 hmem)
  have hstart : holding.address ∈ holding.span := Span.start_mem hpos
  have hreach := hkept.reach holding.address hstart
  have hused := hkept.houses.occupied holding.address hstart
  obtain ⟨backend, bytes⟩ := memory
  cases backend with
  | stack arena =>
    have hbase : arena.base ≤ holding.address := hreach.1
    exact Nat.lt_of_lt_of_le h hbase
  | freeList list | basic list =>
    obtain ⟨region, hregion, hin⟩ := hreach
    have hstart : region.start ≤ holding.address := (Span.mem_iff.1 hin).1
    exact Nat.lt_of_lt_of_le (hretains.low region hregion).1 hstart
  | heap books | pages books =>
    refine Nat.pos_of_ne_zero fun hzero => h ?_
    rw [← hzero]
    exact hused

end Backend.Nonnull

/-! ## Assets that are kept -/

/-- The blocks among the assets are in use in the memory, beside blocks of others. -/
structure Assets.Kept (assets : Assets) (memory : Memory) (others : Multiset Holding) : Prop where
  nonnull : memory.backend.Nonnull
  lodged : ∃ regions, assets.Lodged memory regions others

namespace Assets.Kept

variable {assets given extra : Assets} {memory : Memory} {others : Multiset Holding}
  {address address' : Nat} {layout layout' : Layout}

/-- A part of the assets may be left to others, who give it back afterwards. -/
theorem leave (h : (given + extra).Kept memory others) :
    ∃ held, Multiset.Rel Asset.Covered extra.blocks held ∧ given.Kept memory (held + others) := by
  obtain ⟨regions, hlodged⟩ := h.lodged
  obtain ⟨held, hcovered, hgiven⟩ := hlodged.leave
  exact ⟨held, hcovered, h.nonnull, regions, hgiven⟩

theorem take {held : Multiset Holding} (h : given.Kept memory (held + others))
    (hcovered : Multiset.Rel Asset.Covered extra.blocks held) :
    (given + extra).Kept memory others := by
  obtain ⟨regions, hgiven⟩ := h.lodged
  exact ⟨h.nonnull, regions, hgiven.take hcovered⟩

theorem part (h : assets.Kept memory others) (hle : given ≤ assets) :
    ∃ others', given.Kept memory others' := by
  obtain ⟨extra, rfl⟩ := Multiset.le_iff_exists_add.1 hle
  obtain ⟨held, -, hgiven⟩ := h.leave
  exact ⟨held + others, hgiven⟩

theorem covered_block {held : Multiset Holding}
    (h : Multiset.Rel Asset.Covered (blocks {.block address layout}) held)
    (hpos : 0 < layout.size) :
    ∃ holding, held = {holding} ∧ holding.address = address ∧ 0 < holding.recorded := by
  rw [blocks_block, ← Multiset.cons_zero, Multiset.rel_cons_left] at h
  obtain ⟨holding, rest, hblock, hrest, rfl⟩ := h
  obtain rfl := Multiset.rel_zero_left.1 hrest
  cases hblock with
  | block hfits hvalid => exact ⟨holding, rfl, rfl, Nat.lt_of_lt_of_le hpos hfits.2⟩

theorem address_pos (h : Kept {.block address layout} memory others) (hpos : 0 < layout.size) :
    0 < address := by
  obtain ⟨regions, held, hcovered, hretains⟩ := h.lodged
  obtain ⟨holding, rfl, rfl, hrecorded⟩ := covered_block hcovered hpos
  exact h.nonnull.address_pos hretains (by simp) hrecorded

theorem address_ne
    (h : Kept ({.block address layout} + {.block address' layout'}) memory others)
    (hpos : 0 < layout.size) (hpos' : 0 < layout'.size) : address ≠ address' := by
  obtain ⟨held', hcovered', hfirst⟩ := h.leave
  obtain ⟨regions, held, hcovered, hretains⟩ := hfirst.lodged
  obtain ⟨holding, rfl, rfl, hrecorded⟩ := covered_block hcovered hpos
  obtain ⟨holding', rfl, rfl, hrecorded'⟩ := covered_block hcovered' hpos'
  -- The two blocks stand for two holdings even if they are equal, since assets are multisets.
  have hapart : holding.span.Apart holding'.span :=
    hretains.apart holding (by simp) holding' (by simp)
  intro hsame
  have hmine : holding.address ∈ holding.span := Span.start_mem hrecorded
  have hother : holding'.address ∈ holding'.span := Span.start_mem hrecorded'
  exact Span.apart_iff.1 hapart holding.address ⟨hmine, hsame ▸ hother⟩

end Assets.Kept

/-! ## Effects -/

/-- Wherever the assets are kept, what the effect leaves is kept afterwards, and blocks of
others stay where they are. -/
def Effect.Transfers {α : Type} (effect : Effect α) (given : Assets) (left : α → Assets) : Prop :=
  ∀ (store : Store) (others : Multiset Holding), given.Kept store.memory others →
    (left (effect store).1).Kept (effect store).2.memory others

namespace Effect

variable {α β : Type} {given : Assets} {middle left : α → Assets}

theorem Manages.transfers {effect : Effect α} (h : effect.Manages given left) :
    effect.Transfers given left := by
  intro store others hkept
  obtain ⟨regions, hlodged⟩ := hkept.lodged
  obtain ⟨hsettles, hspends⟩ := h store regions others hlodged
  have hafter := (hsettles.lodged hspends hlodged).1
  obtain ⟨entries, -, hspent⟩ := hspends
  exact ⟨hkept.nonnull.spent hspent, regions, hafter⟩

theorem transfers_pure {value : α} (h : given = left value) :
    Transfers (pure value) given left :=
  (manages_pure h).transfers

theorem Transfers.bind {effect : Effect α} {next : α → Effect β} {last : β → Assets}
    (heffect : effect.Transfers given middle)
    (hnext : ∀ value, (next value).Transfers (middle value) last) :
    Transfers (effect >>= next) given last := by
  intro store others hkept
  rw [bind_apply]
  exact hnext _ _ others (heffect store others hkept)

theorem Transfers.frame {effect : Effect α} (h : effect.Transfers given left) (extra : Assets) :
    effect.Transfers (given + extra) (fun value => left value + extra) := by
  intro store others hkept
  obtain ⟨held, hcovered, hpart⟩ := hkept.leave
  exact (h store (held + others) hpart).take hcovered

end Effect

/-! ## Attempts -/

def Attempt.Transfers {α : Type} (attempt : Attempt α) (given : Assets) (made : α → Assets)
    (lost : Assets) : Prop :=
  Effect.Transfers attempt.run given (Assets.afterwards made lost)

namespace Attempt

variable {α β : Type} {given lost : Assets} {made : α → Assets}

theorem transfers_iff {attempt : Attempt α} :
    attempt.Transfers given made lost ↔
      ∀ (store : Store) (others : Multiset Holding), given.Kept store.memory others →
        (Assets.afterwards made lost (attempt store).1).Kept (attempt store).2.memory others :=
  Iff.rfl

theorem transfers_pure {value : α} (h : given = made value) :
    Transfers (pure value) given made lost := by
  have hpure : Effect.Transfers (Pure.pure (.ok value)) given (Assets.afterwards made lost) :=
    Effect.transfers_pure h
  exact hpure

theorem Transfers.bind {attempt : Attempt α} {next : α → Attempt β} {final : β → Assets}
    (hattempt : attempt.Transfers given made lost)
    (hnext : ∀ value, (next value).Transfers (made value) final lost) :
    Transfers (attempt >>= next) given final lost := by
  rw [transfers_iff] at hattempt ⊢
  intro store others hkept
  have hbetween := hattempt store others hkept
  rw [bind_apply]
  generalize attempt store = run at hbetween
  obtain ⟨answer, between⟩ := run
  cases answer with
  | ok value => exact hnext value between others hbetween
  | error kind => exact hbetween

theorem Transfers.frame {attempt : Attempt α} (h : attempt.Transfers given made lost)
    (extra : Assets) :
    attempt.Transfers (given + extra) (fun value => made value + extra) (lost + extra) := by
  have hframed := Effect.Transfers.frame h extra
  intro store others hkept
  have hafter := hframed store others hkept
  generalize attempt.run store = run at hafter
  obtain ⟨answer, after⟩ := run
  cases answer with
  | ok value => exact hafter
  | error kind => exact hafter

theorem Transfers.undoing {attempt : Attempt α} {undo : Effect Unit} {rest : Assets}
    (hattempt : attempt.Transfers given made lost) (hundo : undo.Transfers lost (fun _ => rest)) :
    Transfers (attempt.undoing undo) given made rest := by
  rw [transfers_iff] at hattempt ⊢
  intro store others hkept
  have hbetween := hattempt store others hkept
  rw [undoing_apply]
  generalize attempt store = run at hbetween
  obtain ⟨answer, between⟩ := run
  cases answer with
  | ok value => exact hbetween
  | error kind => exact hundo between others hbetween

end Attempt

namespace Allocator

theorem transfers_allocate {layout : Layout} (hvalid : layout.Valid) :
    (allocate layout).Transfers 0 (fun block => {.block block.address layout}) 0 := by
  have hgranted : (allocate layout).Manages 0 (fun block => {.block block.address layout}) 0 :=
    (turns_allocate layout).manages (spends_allocate hvalid)
  exact Effect.Manages.transfers hgranted

theorem transfers_deallocate (address : Nat) (layout : Layout) :
    (deallocate address layout).Transfers {.block address layout} (fun _ => 0) :=
  (manages_deallocate address layout).transfers

end Allocator

namespace Attempt

/-- Doing something while a block is held, as all owners do that place a value. -/
theorem holding_transfers {α : Type} {given : Assets} {layout : Layout} (hvalid : layout.Valid)
    {unused : Effect Unit} {body : Block → Attempt α} {part : α → Assets}
    (hunused : unused.Transfers given (fun _ => 0))
    (hbody : ∀ block, (body block).Transfers given part 0) :
    (holding layout unused body).Transfers given
      (fun held => {.block held.1.address layout} + part held.2) 0 := by
  have hframed := (Allocator.transfers_allocate hvalid).frame given
  rw [zero_add] at hframed
  apply (hframed.undoing hunused).bind
  intro block
  have hinner := (hbody block).frame {Asset.block block.address layout}
  rw [zero_add, add_comm given] at hinner
  apply (hinner.undoing (Allocator.transfers_deallocate block.address layout)).bind
  intro result
  apply transfers_pure
  rw [add_comm]

end Attempt
end Freehold
