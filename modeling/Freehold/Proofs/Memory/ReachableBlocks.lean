import Freehold.Proofs.Memory.Neighbours
import Freehold.Proofs.Memory.Requests

/-!
# Blocks in a reachable memory

A state is reachable if it comes about, from a memory that is not used yet, by what is
permitted.  Any of the blocks that a reachable state has are in use in its memory.  A user
that knows some of these blocks may ask for another one, and may resize or give back one
that it knows: all others stay in use.
-/

namespace Freehold

/-! ## Reachable states -/

namespace AllocatorState

variable {state : AllocatorState}

/-- The state comes about from a memory that is not used yet, by what is permitted. -/
def Reachable (state : AllocatorState) : Prop :=
  ∃ memory occurrences, memory.backend.Unused ∧ Permitted { memory := memory } occurrences ∧
    state = live { memory := memory } occurrences

theorem Permitted.concat {occurrences : List Occurrence} (h : state.Permitted occurrences)
    {occurrence : Occurrence} (hpermits : (state.live occurrences).Permits occurrence) :
    state.Permitted (occurrences ++ [occurrence]) := by
  induction occurrences generalizing state with
  | nil => exact ⟨hpermits, trivial⟩
  | cons first later ih => exact ⟨h.1, ih h.2 hpermits⟩

theorem Reachable.undergo (h : state.Reachable) {occurrence : Occurrence}
    (hpermits : state.Permits occurrence) : (state.undergo occurrence).Reachable := by
  obtain ⟨memory, occurrences, hunused, hpermitted, rfl⟩ := h
  refine ⟨memory, occurrences ++ [occurrence], hunused, hpermitted.concat hpermits, ?_⟩
  unfold live
  rw [List.foldl_append]
  rfl

theorem Reachable.perform (h : state.Reachable) (demand : Demand)
    (hpermits : state.Permits (.demand demand)) : (state.perform demand).Reachable :=
  h.undergo hpermits

end AllocatorState

/-! ## Blocks in use -/

namespace Memory

variable {memory memory' : Memory} {regions : List Span} {held others : Multiset Holding}
  {layout : Layout} {block : Block} {holding : Holding} {size wanted : Nat}

/-- In a reachable state with this memory and these regions the blocks are in use. -/
def InUse (memory : Memory) (regions : List Span) (held : Multiset Holding) : Prop :=
  ∃ state : AllocatorState, state.Reachable ∧ state.memory = memory ∧ state.regions = regions ∧
    held ≤ state.held

namespace InUse

theorem mono (h : memory.InUse regions held) (hle : others ≤ held) :
    memory.InUse regions others := by
  obtain ⟨state, hreachable, hmemory, hregions, hheld⟩ := h
  exact ⟨state, hreachable, hmemory, hregions, hle.trans hheld⟩

theorem granted (h : memory.InUse regions others) (hvalid : layout.Valid)
    (hgranted : memory.allocate layout = .ok (block, memory')) :
    memory'.InUse regions (.of layout block ::ₘ others) := by
  obtain ⟨state, hreachable, rfl, rfl, hheld⟩ := h
  have hnext := hreachable.perform (.allocate layout) hvalid
  simp only [AllocatorState.perform, hgranted, AllocatorState.received] at hnext
  exact ⟨_, hnext, rfl, rfl, Multiset.cons_le_cons _ hheld⟩

/-- Another block that is in use stays in use when one is taken from the list. -/
theorem le_erase {list : List Holding} (h : holding ::ₘ others ≤ list) :
    others ≤ (list.erase holding : Multiset Holding) := by
  have hle := Multiset.erase_le_erase holding h
  rwa [Multiset.erase_cons_head, Multiset.coe_erase] at hle

section Known

variable (h : memory.InUse regions (holding ::ₘ others)) (hfits : holding.Fits size)

include h hfits

theorem expanded {count : Nat}
    (hgrown : memory.expand holding.address (holding.layout size) wanted = .ok (count, memory')) :
    memory'.InUse regions (holding.resized wanted ⟨holding.address, count⟩ ::ₘ others) := by
  obtain ⟨state, hreachable, rfl, rfl, hheld⟩ := h
  have hknown : holding ∈ state.held := Multiset.mem_of_le hheld (Multiset.mem_cons_self _ _)
  have hnext := hreachable.perform (.expand holding size wanted) ⟨hknown, hfits⟩
  simp only [AllocatorState.perform, hgrown, Except.map, AllocatorState.resized] at hnext
  exact ⟨_, hnext, rfl, rfl, Multiset.cons_le_cons _ (le_erase hheld)⟩

theorem reallocated
    (hmoved : memory.reallocate holding.address (holding.layout size) wanted =
      .ok (block, memory')) :
    memory'.InUse regions (holding.resized wanted block ::ₘ others) := by
  obtain ⟨state, hreachable, rfl, rfl, hheld⟩ := h
  have hknown : holding ∈ state.held := Multiset.mem_of_le hheld (Multiset.mem_cons_self _ _)
  have hnext := hreachable.perform (.reallocate holding size wanted) ⟨hknown, hfits⟩
  simp only [AllocatorState.perform, hmoved, AllocatorState.resized] at hnext
  exact ⟨_, hnext, rfl, rfl, Multiset.cons_le_cons _ (le_erase hheld)⟩

theorem returned :
    (memory.deallocate holding.address (holding.layout size)).InUse regions others := by
  obtain ⟨state, hreachable, rfl, rfl, hheld⟩ := h
  have hknown : holding ∈ state.held := Multiset.mem_of_le hheld (Multiset.mem_cons_self _ _)
  have hnext := hreachable.perform (.deallocate holding size) ⟨hknown, hfits⟩
  exact ⟨_, hnext, rfl, rfl, le_erase hheld⟩

end Known

theorem advised (h : memory.InUse regions held) (address count : Nat) (hint : UsageHint) :
    (memory.advise address count hint).InUse regions held := by
  obtain ⟨state, hreachable, rfl, rfl, hheld⟩ := h
  have hnext : (state.undergo (.advise address count hint)).Reachable :=
    hreachable.undergo trivial
  exact ⟨_, hnext, rfl, rfl, hheld⟩

end InUse
end Memory
end Freehold
