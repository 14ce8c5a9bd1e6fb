import Freehold.Proofs.FreeList.Words
import Freehold.Proofs.Memory.Lasting
import Freehold.Proofs.Memory.StackWords

/-!
# Memories in machine words

The operations of an arena and of a free list compute in words whatever has happened before:
the buffer or the regions end below the limit of a word, what is free and what is held lies
within them, and the free bytes are counted right.  The other allocators leave their sizes to
the system; they are taken as they are.
-/

namespace Freehold

/-! ## The computations -/

namespace Memory

def allocateInWords (memory : Memory) (layout : Layout) :
    Option (Except Refusal (Block × Memory)) :=
  match memory.backend with
  | .stack arena =>
    (arena.allocateInWords layout).map fun answer =>
      answer.map fun found => (found.1, { memory with backend := .stack found.2 })
  | .freeList list =>
    (list.allocateInWords layout).map fun answer =>
      answer.map fun found => (found.1, memory.withList .freeList found.2)
  | .basic _ | .heap _ | .pages _ => some (memory.allocate layout)

def expandInWords (memory : Memory) (address : Nat) (layout : Layout) (wanted : Nat) :
    Option (Except Refusal (Nat × Memory)) :=
  match memory.backend with
  | .stack arena =>
    (arena.expandInWords address layout wanted).map fun answer =>
      answer.map fun found => (found.1, { memory with backend := .stack found.2 })
  | .freeList list =>
    (list.expandInWords address layout wanted).map fun answer =>
      answer.map fun found => (found.1, memory.withList .freeList found.2)
  | .basic _ | .heap _ | .pages _ => some (memory.expand address layout wanted)

def deallocateInWords (memory : Memory) (address : Nat) (layout : Layout) : Option Memory :=
  match memory.backend with
  | .stack arena =>
    (arena.deallocateInWords address layout).map fun arena =>
      { memory with backend := .stack arena }
  | .freeList list =>
    (list.deallocateInWords address layout).map fun list => memory.withList .freeList list
  | .basic _ | .heap _ | .pages _ => some (memory.deallocate address layout)

def addRegionInWords (memory : Memory) (region : Span) : Option Memory :=
  match memory.backend with
  | .freeList list => (list.addRegionInWords region).map fun list => memory.withList .freeList list
  | .stack _ | .basic _ | .heap _ | .pages _ => some (memory.addRegion region)

def reallocateByCopyInWords (memory : Memory) (address : Nat) (layout : Layout) (wanted : Nat) :
    Option (Except Refusal (Block × Memory)) :=
  if wanted ≤ layout.size then pure (.ok (⟨address, layout.size⟩, memory))
  else do
    match ← memory.expandInWords address layout wanted with
    | .ok (size, grown) => pure (.ok (⟨address, size⟩, grown))
    | .error _ => do
      match ← Layout.ofInWords wanted layout.align with
      | none => pure (.error { kind := .integerOverflow })
      | some fresh => do
        match ← memory.allocateInWords fresh with
        | .error refusal => pure (.error refusal)
        | .ok (block, moved) => do
          let copied :=
            { moved with bytes := moved.bytes.copy address block.address layout.size }
          let left ← copied.deallocateInWords address layout
          pure (.ok (block, left))

def reallocateInWords (memory : Memory) (address : Nat) (layout : Layout) (wanted : Nat) :
    Option (Except Refusal (Block × Memory)) :=
  match memory.backend with
  | .stack _ | .freeList _ | .basic _ => memory.reallocateByCopyInWords address layout wanted
  | .heap _ | .pages _ => some (memory.reallocate address layout wanted)

end Memory

/-! ## The count of free bytes -/

/-- The free bytes are counted right. -/
def Backend.Tallied : Backend → Prop
  | .freeList list | .basic list => list.freeBytes = FreeList.total list.spans
  | .stack _ | .heap _ | .pages _ => True

namespace FreeList

variable {list list' : FreeList}

theorem tallied_allocate (htotal : list.freeBytes = total list.spans) {layout : Layout}
    {block : Block} (h : list.allocate layout = .ok (block, list')) :
    list'.freeBytes = total list'.spans := by
  rcases allocate_ok h with ⟨-, -, rfl⟩ | ⟨-, start, spans, hcarve, -, rfl⟩
  · exact htotal
  · have hleft := total_of_carve
      (Nat.lt_of_lt_of_le granule_pos (Nat.le_max_right _ _)) hcarve
    dsimp only
    omega

theorem tallied_expand (htotal : list.freeBytes = total list.spans) {address wanted size : Nat}
    {layout : Layout} (h : list.expand address layout wanted = .ok (size, list')) :
    list'.freeBytes = total list'.spans := by
  rcases expand_ok h with ⟨-, -, rfl⟩ | ⟨-, -, -, rfl⟩ | ⟨-, spans, habsorb, -, rfl⟩
  · exact htotal
  · exact htotal
  · have hleft := total_of_absorb habsorb
    dsimp only
    omega

theorem tallied_give (htotal : list.freeBytes = total list.spans) (span : Span) :
    (list.give span).freeBytes = total (list.give span).spans := by
  unfold give
  dsimp only
  rw [total_insert, htotal]

theorem tallied_deallocate (htotal : list.freeBytes = total list.spans) (address : Nat)
    (layout : Layout) :
    (list.deallocate address layout).freeBytes = total (list.deallocate address layout).spans := by
  unfold deallocate
  split
  · exact htotal
  · exact tallied_give htotal _

theorem tallied_addRegion (htotal : list.freeBytes = total list.spans) (region : Span) :
    (list.addRegion region).freeBytes = total (list.addRegion region).spans := by
  unfold addRegion
  split
  · exact htotal
  · exact tallied_give htotal _

end FreeList

theorem Backend.tallied_lasting : Backend.Lasting Backend.Tallied where
  heap _ := trivial
  pages _ := trivial
  allocate {memory _ _ _} h hanswer := by
    have hcases := Memory.allocate_ok hanswer
    cases hbackend : memory.backend with
    | stack arena | heap heap | pages pages =>
      rw [hbackend] at hcases
      obtain ⟨books, -, rfl⟩ := hcases
      trivial
    | freeList list | basic list =>
      rw [hbackend] at hcases h
      obtain ⟨list', hfound, rfl⟩ := hcases
      exact FreeList.tallied_allocate h hfound
  expand {memory _ _ _ _ _} h hanswer := by
    have hcases := Memory.expand_ok hanswer
    cases hbackend : memory.backend with
    | stack arena | pages pages =>
      rw [hbackend] at hcases
      obtain ⟨books, -, rfl⟩ := hcases
      trivial
    | basic list | heap heap =>
      rw [hbackend] at hcases
      obtain ⟨-, -, rfl⟩ := hcases
      exact h
    | freeList list =>
      rw [hbackend] at hcases h
      obtain ⟨list', hfound, rfl⟩ := hcases
      exact FreeList.tallied_expand h hfound
  deallocate {memory} address layout h := by
    unfold Memory.deallocate
    cases hbackend : memory.backend with
    | stack arena | heap heap | pages pages => trivial
    | freeList list | basic list =>
      rw [hbackend] at h
      exact FreeList.tallied_deallocate h address layout
  addRegion {memory} region h := by
    unfold Memory.addRegion
    cases hbackend : memory.backend with
    | stack arena | heap heap | pages pages =>
      rw [hbackend] at h
      dsimp only
      rw [hbackend]
      exact h
    | freeList list | basic list =>
      rw [hbackend] at h
      exact FreeList.tallied_addRegion h region
  reset _ _ := trivial

/-! ## Memory below the limit -/

namespace Backend

/-- The allocator is an arena or a free list, and its memory ends below the limit of a word. -/
def Below (regions : List Span) : Backend → Prop
  | .stack arena => arena.base + arena.capacity < Word.limit
  | .freeList _ => ∀ region ∈ regions, region.stop < Word.limit
  | .basic _ | .heap _ | .pages _ => False

/-- An allocator that can compute in words. -/
structure Solid (regions : List Span) (backend : Backend) : Prop where
  orderly : backend.Orderly
  bounded : backend.Bounded regions
  tallied : backend.Tallied
  below : backend.Below regions

variable {regions : List Span} {backend backend' : Backend}

theorem Below.continues (h : backend.Below regions) (hcontinues : backend.Continues backend') :
    backend'.Below regions := by
  cases backend <;> cases backend' <;> try exact hcontinues.elim
  case stack.stack arena arena' =>
    obtain ⟨hbase, hcapacity, -⟩ := hcontinues
    show arena'.base + arena'.capacity < Word.limit
    rw [hbase, hcapacity]
    exact h
  all_goals exact h

theorem Below.reach_lt (h : backend.Below regions) {address : Nat}
    (hreach : backend.Reach regions address) : address + 1 < Word.limit := by
  cases backend with
  | stack arena =>
    have hstop : arena.base + arena.capacity < Word.limit := h
    have hlt := hreach.2
    omega
  | freeList list =>
    obtain ⟨region, hregion, hin⟩ := hreach
    have hstop : region.stop < Word.limit := h region hregion
    have hlt : address < region.stop := hin.2
    omega
  | basic list | heap heap | pages pages => exact h.elim

/-- A span within reach ends below the limit. -/
theorem Below.stop_lt (h : backend.Below regions) {span : Span} (hpos : 0 < span.size)
    (hreach : ∀ address ∈ span, backend.Reach regions address) : span.stop < Word.limit := by
  have hlast : span.start + (span.size - 1) ∈ span := by
    rw [Span.mem_iff]
    omega
  have hlt := h.reach_lt (hreach _ hlast)
  unfold Span.stop
  omega

theorem Solid.counted {list : FreeList} (h : Solid regions (.freeList list)) : list.Counted where
  tidy := h.orderly
  below span hmem :=
    h.below.stop_lt (h.orderly.granular span hmem).pos fun address hin =>
      h.bounded address ⟨span, hmem, hin⟩
  freeBytes_eq := h.tallied

end Backend

namespace Memory

variable {memory memory' : Memory} {regions : List Span} {layout : Layout} {block : Block}
  {holding : Holding} {size wanted : Nat}

theorem solid_allocate (h : memory.backend.Solid regions) (hvalid : layout.Valid)
    (hanswer : memory.allocate layout = .ok (block, memory')) :
    memory'.backend.Solid regions ∧
      ∀ holding, memory.backend.Keeps regions holding → memory'.backend.Keeps regions holding := by
  have hpasses := (allocate_grants h.orderly hvalid hanswer).passes
  have hcontinues := continues_allocate hanswer
  have hnothing : ∀ address ∈ Span.nothing, memory.backend.Reach regions address :=
    fun address hin => absurd hin (Span.not_mem_nothing address)
  refine ⟨⟨hpasses.orderly, (hpasses.within hcontinues h.bounded hnothing).1,
    Backend.tallied_lasting.allocate h.tallied hanswer, h.below.continues hcontinues⟩, ?_⟩
  intro holding hkept
  exact AllocatorState.keeps_of_passes hpasses hcontinues h.bounded hnothing hkept
    fun address _ => Span.not_mem_nothing address

/-! ## No step wraps -/

theorem allocateInWords_eq (h : memory.backend.Solid regions) (hvalid : layout.Valid) :
    memory.allocateInWords layout = some (memory.allocate layout) := by
  unfold allocateInWords allocate
  cases hbackend : memory.backend with
  | stack arena =>
    rw [hbackend] at h
    dsimp only
    rw [arena.allocateInWords_eq h.bounded h.below hvalid]
    rfl
  | freeList list =>
    rw [hbackend] at h
    dsimp only
    rw [h.counted.allocateInWords_eq layout]
    rfl
  | basic list | heap heap | pages pages => rfl

theorem addRegionInWords_eq (h : memory.backend.Solid regions) {region : Span}
    (hapart : ∀ other ∈ regions, Span.Apart other region) (hstop : region.stop < Word.limit) :
    memory.addRegionInWords region = some (memory.addRegion region) := by
  unfold addRegionInWords addRegion
  cases hbackend : memory.backend with
  | stack arena | basic list | heap heap | pages pages => rfl
  | freeList list =>
    rw [hbackend] at h
    dsimp only
    rw [h.counted.addRegionInWords_eq hstop fun address hin hfree => ?_]
    · rfl
    · obtain ⟨other, hother, hboth⟩ := h.bounded address hfree
      exact Span.apart_iff.1 (hapart other hother) address ⟨hboth, hin⟩

section Held

variable (h : memory.backend.Solid regions) (hkept : memory.backend.Keeps regions holding)
  (hfilled : 0 < holding.recorded)

include h hkept hfilled

/-- A block ends below the limit. -/
theorem stop_lt_of_kept : holding.address + holding.recorded < Word.limit := by
  have hstop : holding.span.stop < Word.limit := h.below.stop_lt hfilled hkept.reach
  exact hstop

variable (hfits : holding.Fits size)

include hfits

theorem expandInWords_eq (wanted : Nat) :
    memory.expandInWords holding.address (holding.layout size) wanted =
      some (memory.expand holding.address (holding.layout size) wanted) := by
  have hstop := stop_lt_of_kept h hkept hfilled
  have hround := hkept.houses.roundUp_of_fits hfits
  have hsize : size ≤ holding.recorded := hfits.2
  unfold expandInWords expand
  cases hbackend : memory.backend with
  | stack arena =>
    rw [hbackend] at h hkept
    have hstart := (hkept.reach holding.address (by
      rw [Span.mem_iff]
      simp only [Holding.span]
      omega)).1
    have hend : holding.address + size < Word.limit := by omega
    dsimp only
    rw [StackArena.expandInWords_eq hstart hend]
    rfl
  | freeList list =>
    rw [hbackend] at h hround
    have hwhole : Word.roundUp (holding.layout size).size FreeList.granule = holding.recorded :=
      hround
    have hend : holding.address + Word.roundUp (holding.layout size).size FreeList.granule <
        Word.limit := by
      rw [hwhole]
      exact hstop
    dsimp only
    rw [h.counted.expandInWords_eq hend]
    rfl
  | basic list | heap heap | pages pages => rfl

theorem deallocateInWords_eq :
    memory.deallocateInWords holding.address (holding.layout size) =
      some (memory.deallocate holding.address (holding.layout size)) := by
  have hstop := stop_lt_of_kept h hkept hfilled
  have hround := hkept.houses.roundUp_of_fits hfits
  have hsize : size ≤ holding.recorded := hfits.2
  unfold deallocateInWords deallocate
  cases hbackend : memory.backend with
  | stack arena =>
    rw [hbackend] at h hkept
    have hstart := (hkept.reach holding.address (by
      rw [Span.mem_iff]
      simp only [Holding.span]
      omega)).1
    have hend : holding.address + size < Word.limit := by omega
    dsimp only
    rw [StackArena.deallocateInWords_eq hstart hend]
    rfl
  | freeList list =>
    rw [hbackend] at h hkept hround
    have hwhole : Word.roundUp (holding.layout size).size FreeList.granule = holding.recorded :=
      hround
    have hend : holding.address + Word.roundUp (holding.layout size).size FreeList.granule <
        Word.limit := by
      rw [hwhole]
      exact hstop
    have hgiven : 0 < size → FreeList.Given list.spans
        (FreeList.insert ⟨holding.address, Word.roundUp size FreeList.granule⟩ list.spans)
        ⟨holding.address, Word.roundUp size FreeList.granule⟩ := by
      intro hpos
      have hback := deallocate_given lists_freeList h.orderly hkept.houses hfits hpos
      have hspan : holding.span = ⟨holding.address, Word.roundUp size FreeList.granule⟩ :=
        congrArg (Span.mk holding.address) hround.symm
      rw [hspan] at hback
      exact hback
    dsimp only
    rw [h.counted.deallocateInWords_eq hend hgiven]
    rfl
  | basic list | heap heap | pages pages => rfl

theorem reallocateByCopyInWords_eq (hpower : holding.align ≤ 1 <<< 63) (wanted : Nat) :
    memory.reallocateByCopyInWords holding.address (holding.layout size) wanted =
      some (memory.reallocateByCopy holding.address (holding.layout size) wanted) := by
  have halign : (holding.layout size).align ≤ 1 <<< 63 := hpower
  unfold reallocateByCopyInWords reallocateByCopy
  by_cases hle : wanted ≤ (holding.layout size).size
  · rw [if_pos hle, if_pos hle]
    rfl
  rw [if_neg hle, if_neg hle, expandInWords_eq h hkept hfilled hfits, Layout.ofInWords_eq halign]
  simp only [Option.bind_eq_bind, Option.bind_some]
  cases memory.expand holding.address (holding.layout size) wanted with
  | ok grown => rfl
  | error refusal =>
    dsimp only
    cases hfresh : Layout.of? wanted (holding.layout size).align with
    | none => rfl
    | some fresh =>
      obtain ⟨hvalid, rfl⟩ := Layout.of?_eq_some_iff.1 hfresh
      dsimp only
      rw [allocateInWords_eq h hvalid]
      simp only [Option.bind_some]
      cases hmoved : memory.allocate ⟨wanted, (holding.layout size).align⟩ with
      | error refusal => rfl
      | ok found =>
        obtain ⟨block, moved⟩ := found
        obtain ⟨hsolid, hstays⟩ := solid_allocate h hvalid hmoved
        have hleft (bytes) : deallocateInWords { moved with bytes } holding.address
            (holding.layout size) =
              some (deallocate { moved with bytes } holding.address (holding.layout size)) :=
          deallocateInWords_eq hsolid (hstays holding hkept) hfilled hfits
        dsimp only
        rw [hleft]
        rfl

theorem reallocateInWords_eq (hpower : holding.align ≤ 1 <<< 63) (wanted : Nat) :
    memory.reallocateInWords holding.address (holding.layout size) wanted =
      some (memory.reallocate holding.address (holding.layout size) wanted) := by
  have hcopied := reallocateByCopyInWords_eq h hkept hfilled hfits hpower wanted
  unfold reallocateInWords reallocate
  cases hbackend : memory.backend with
  | stack arena | freeList list | basic list => exact hcopied
  | heap heap | pages pages => rfl

end Held

end Memory
end Freehold
