import Freehold.Proofs.Memory.Lockstep
import Freehold.Proofs.Memory.Resizing

/-!
# The contract of resizing

The same contract holds for every allocator, in every state that can be reached, for every
block in use and for every size that is asked for.  It covers the three answers there are:
a block grows where it lies, it is moved, or the request is refused.
-/

namespace Freehold

namespace AllocatorState

/-- The block that an answer describes belongs to its owner alone. -/
structure Secures (state : AllocatorState) (holding : Holding) (size : Nat) (block : Block)
    (memory : Memory) : Prop where
  usable : ∀ address ∈ block.span,
    memory.backend.Occupied address ∧ memory.backend.Reach state.regions address
  apart : ∀ other ∈ state.held.erase holding, other.span.Apart block.span
  spares : ∀ other ∈ state.held.erase holding, ∀ address ∈ other.span,
    memory.bytes address = state.memory.bytes address
  carries : ∀ offset < size,
    memory.bytes (block.address + offset) = state.memory.bytes (holding.address + offset)

/-- The old place of a block that was moved has come back, once. -/
structure Returns (state : AllocatorState) (holding : Holding) (size wanted : Nat) (block : Block)
    (memory : Memory) : Prop where
  /-- An allocator that uses memory again has exactly the new place in use instead. -/
  exact : state.memory.backend.Reuses → ∀ address, memory.backend.Occupied address ↔
    (state.memory.backend.Occupied address ∧ address ∉ holding.span) ∨ address ∈ block.span
  /-- A copy is one request for a block and one return of a block. -/
  once : state.memory.backend.Copies → ∃ moved,
    state.memory.allocate ⟨wanted, holding.align⟩ = .ok (block, moved) ∧
      memory.backend = (moved.deallocate holding.address (holding.layout size)).backend

/-- What the owner of a block may rely on when it asks for another size of it. -/
structure Contract (state : AllocatorState) (holding : Holding) (size wanted : Nat) : Prop where
  keepsInPlace : wanted ≤ size →
    state.memory.expand holding.address (holding.layout size) wanted = .ok (size, state.memory)
  grows : ∀ count memory,
    state.memory.expand holding.address (holding.layout size) wanted = .ok (count, memory) →
      size ≤ count ∧ wanted ≤ count ∧
        state.Secures holding size ⟨holding.address, count⟩ memory
  keeps : wanted ≤ size →
    state.memory.reallocate holding.address (holding.layout size) wanted =
      .ok (⟨holding.address, size⟩, state.memory)
  moves : ∀ block memory,
    state.memory.reallocate holding.address (holding.layout size) wanted = .ok (block, memory) →
      size ≤ block.size ∧ wanted ≤ block.size ∧ holding.align ∣ block.address ∧
        state.Secures holding size block memory ∧
        (block.address ≠ holding.address → state.Returns holding size wanted block memory)
  /-- A refused request leaves the allocator and all bytes as they were, also if the
  refusal was planned or is put on record. -/
  refuses : ∀ store : Store, store.memory = state.memory →
    (∀ kind store',
      Allocator.expand holding.address (holding.layout size) wanted store = (.error kind, store') →
        store'.memory = state.memory) ∧
    ∀ kind store',
      Allocator.reallocate holding.address (holding.layout size) wanted store =
        (.error kind, store') → store'.memory = state.memory
  forgoes : (∀ refusal,
      state.memory.expand holding.address (holding.layout size) wanted = .error refusal →
        state.perform (.expand holding size wanted) = state) ∧
    ∀ refusal,
      state.memory.reallocate holding.address (holding.layout size) wanted = .error refusal →
        state.perform (.reallocate holding size wanted) = state

variable {state : AllocatorState} {holding : Holding} {size wanted : Nat} {block : Block}
  {memory : Memory}

theorem InOrder.secures (h : state.InOrder) (hheld : holding ∈ state.held) {count : Nat}
    (hresizes : state.memory.Resizes holding wanted count block memory) (hle : size ≤ count)
    (hcontinues : state.memory.backend.Continues memory.backend) :
    state.Secures holding size block memory := by
  have hkept := h.kept holding hheld
  have hwithin := hresizes.passes.within hcontinues h.bounded hkept.reach
  have hpart : ∀ address ∈ block.span, address ∈ (holding.resized wanted block).span := by
    intro address hin
    rw [Span.mem_iff] at hin ⊢
    simp only [Block.span, Holding.span, Holding.resized] at hin ⊢
    omega
  have hothers : ∀ other ∈ state.held.erase holding, ∀ address ∈ other.span,
      state.memory.backend.Occupied address := fun other hother =>
    (h.kept other (List.mem_of_mem_erase hother)).houses.occupied
  constructor
  · intro address hin
    have hresized := hpart address hin
    exact ⟨hresizes.passes.occupied address hresized, hwithin.2.2 address hresized⟩
  · intro other hother
    rw [Span.apart_iff]
    rintro address ⟨hin, hboth⟩
    exact h.apart_erase hheld other hother address hin
      (hresizes.passes.fresh address (hpart address hboth) (hothers other hother address hin))
  · intro other hother address hin
    exact hresizes.passes.keeps address (hothers other hother address hin)
      (h.apart_erase hheld other hother address hin)
  · intro offset hlt
    exact hresizes.carries offset (Nat.lt_of_lt_of_le hlt hle)

theorem le_carried (hfits : holding.Fits size) (wanted : Nat) :
    size ≤ Memory.carried holding size wanted := by
  unfold Memory.carried
  split
  · exact hfits.2
  · exact Nat.le_refl size

/-- A resized block is large enough. -/
theorem sizes_of_reallocate {memory memory' : Memory}
    (h : memory.reallocate holding.address (holding.layout size) wanted = .ok (block, memory')) :
    size ≤ block.size ∧ wanted ≤ block.size := by
  rcases (Memory.reallocate_granted h).1 with ⟨hle, rfl⟩ | ⟨hlt, hsize, -⟩
  · exact ⟨Nat.le_refl size, hle⟩
  · have hround := Word.le_roundUp wanted memory.backend.granule_pos
    have hgrows : size < wanted := hlt
    omega

theorem sizes_of_expand {memory memory' : Memory} {count : Nat}
    (h : memory.expand holding.address (holding.layout size) wanted = .ok (count, memory')) :
    size ≤ count ∧ wanted ≤ count := by
  rcases (Memory.expand_granted h).1 with ⟨hle, hsame⟩ | ⟨hlt, hsize⟩
  · have hcount : count = size := hsame
    exact ⟨Nat.le_of_eq hcount.symm, hcount ▸ hle⟩
  · have hround := Word.le_roundUp wanted memory.backend.granule_pos
    have hgrows : size < wanted := hlt
    omega

theorem InOrder.returns (h : state.InOrder) (hheld : holding ∈ state.held)
    (hfits : holding.Fits size) (hmoved : block.address ≠ holding.address)
    (hanswer : state.memory.reallocate holding.address (holding.layout size) wanted =
      .ok (block, memory)) :
    state.Returns holding size wanted block memory := by
  have hhoused := (h.kept holding hheld).houses
  have hresizes := Memory.reallocate_resizes h.orderly hhoused hfits hanswer
  constructor
  · intro hreuses address
    have hspan : (holding.resized wanted block).span = block.span := by
      rcases (Memory.reallocate_granted hanswer).1 with ⟨-, rfl⟩ | ⟨hlt, hsize, -⟩
      · exact absurd rfl hmoved
      · rw [Memory.resized_eq_of hhoused hfits hlt hsize]
        rfl
    have hexact := Memory.exact_reallocate hreuses h.orderly hhoused hfits hanswer
    have hiff := hresizes.passes.occupied_iff hexact address
    rwa [hspan] at hiff
  · intro hcopies
    have hcopied : state.memory.reallocateByCopy holding.address (holding.layout size) wanted =
        .ok (block, memory) := by
      have hcases := Memory.reallocate_ok hanswer
      cases hbackend : state.memory.backend with
      | stack arena | freeList list | basic list =>
        rw [hbackend] at hcases
        exact hcases
      | heap heap | pages pages =>
        rw [hbackend] at hcopies
        exact hcopies.elim
    rcases Memory.reallocateByCopy_ok hcopied with
      ⟨-, rfl, -⟩ | ⟨-, haddress, -⟩ | ⟨-, -, moved, hfound, rfl⟩
    · exact absurd rfl hmoved
    · exact absurd haddress hmoved
    · exact ⟨moved, hfound, Memory.backend_deallocate_bytes moved _ _ _⟩

theorem InOrder.contract (h : state.InOrder) (hheld : holding ∈ state.held)
    (hfits : holding.Fits size) (wanted : Nat) : state.Contract holding size wanted := by
  have hkept := h.kept holding hheld
  constructor
  · exact fun hle => h.laid.expand_of_le holding.address hle
  · intro count memory hgrown
    obtain ⟨hold, hnew⟩ := sizes_of_expand hgrown
    have hresizes := Memory.expand_resizes h.orderly hkept.houses hfits hgrown
    exact ⟨hold, hnew, h.secures hheld hresizes hfits.2 (Memory.continues_expand hgrown)⟩
  · exact fun hle => state.memory.reallocate_of_le holding.address hle
  · intro block memory hanswer
    obtain ⟨hold, hnew⟩ := sizes_of_reallocate hanswer
    have hresizes := Memory.reallocate_resizes h.orderly hkept.houses hfits hanswer
    refine ⟨hold, hnew, (reallocate_aligned hkept hfits hanswer).1, ?_, ?_⟩
    · exact h.secures hheld hresizes (le_carried hfits wanted)
        (Memory.continues_reallocate hanswer)
    · exact fun hmoved => h.returns hheld hfits hmoved hanswer
  · rintro store hmemory
    rw [← hmemory]
    constructor
    · intro kind store' hrefused
      have hanswered := Allocator.expand_answered holding.address (holding.layout size) wanted store
      rw [hrefused] at hanswered
      exact hanswered
    · intro kind store' hrefused
      have hanswered :=
        Allocator.reallocate_answered holding.address (holding.layout size) wanted store
      rw [hrefused] at hanswered
      exact hanswered
  · constructor
    · intro refusal hrefused
      show state.resized holding wanted (Except.map _ _) = state
      rw [hrefused]
      rfl
    · intro refusal hrefused
      show state.resized holding wanted _ = state
      rw [hrefused]
      rfl

/-- Every block in use can be resized by the contract, whatever has happened before. -/
theorem resize_contract {memory : Memory} (hunused : memory.backend.Unused)
    {occurrences : List Occurrence}
    (hpermitted : (AllocatorState.mk memory [] []).Permitted occurrences)
    {holding : Holding} (hheld : holding ∈ ((AllocatorState.mk memory [] []).live occurrences).held)
    {size : Nat} (hfits : holding.Fits size) (wanted : Nat) :
    ((AllocatorState.mk memory [] []).live occurrences).Contract holding size wanted :=
  ((inOrder_unused hunused).live hpermitted).contract hheld hfits wanted

/-- A list gets its second region while blocks are in use.  One block is written to and has
been refused to grow before. -/
def hemmedIn : List Occurrence :=
  [.demand (.addRegion ⟨4096, 200⟩), .demand (.allocate ⟨24, 8⟩),
    .demand (.allocateZeroed ⟨16, 32⟩), .write ⟨4096, 8, 24, 32⟩ 23 171,
    .demand (.expand ⟨4096, 8, 24, 32⟩ 24 48),
    .demand (.addRegion ⟨8200, 300⟩), .demand (.expand ⟨4128, 32, 16, 16⟩ 16 40),
    .demand (.reallocate ⟨4128, 32, 40, 48⟩ 48 60), .advise 4096 32 .dontNeed]

theorem resize_contract_hemmedIn :
    (({} : FreeList) = {} ∧
      (AllocatorState.mk ⟨.freeList {}, fun _ => 0⟩ [] []).Permitted hemmedIn ∧
      ⟨4096, 8, 24, 32⟩ ∈
        ((AllocatorState.mk ⟨.freeList {}, fun _ => 0⟩ [] []).live hemmedIn).held ∧
      Holding.Fits ⟨4096, 8, 24, 32⟩ 30) ∧
    ((AllocatorState.mk ⟨.freeList {}, fun _ => 0⟩ [] []).live hemmedIn).Contract
      ⟨4096, 8, 24, 32⟩ 30 90 :=
  have hpermitted : (AllocatorState.mk ⟨.freeList {}, fun _ => 0⟩ [] []).Permitted hemmedIn := by
    decide +kernel
  have hheld : ⟨4096, 8, 24, 32⟩ ∈
      ((AllocatorState.mk ⟨.freeList {}, fun _ => 0⟩ [] []).live hemmedIn).held := by decide +kernel
  have hfits : Holding.Fits ⟨4096, 8, 24, 32⟩ 30 := by decide
  have hunused : Backend.Unused (.freeList {}) := rfl
  ⟨⟨rfl, hpermitted, hheld, hfits⟩, resize_contract hunused hpermitted hheld hfits 90⟩

end AllocatorState
end Freehold
