import Mathlib.Algebra.Order.Group.Multiset
import Freehold.Proofs.Memory.Resizing

/-!
# Neighbours in a memory

Several users may hold blocks of one memory.  Whatever one of them does with its own blocks,
and with the blocks that it gets in addition, the blocks of the others stay where they are,
with all their bytes.
-/

namespace Freehold

/-- The bytes of the blocks are as they were. -/
def Memory.Spares (memory memory' : Memory) (others : Multiset Holding) : Prop :=
  ∀ holding ∈ others, ∀ address ∈ holding.span, memory'.bytes address = memory.bytes address

namespace Memory.Spares

variable {memory middle memory' : Memory} {others : Multiset Holding}

theorem refl (memory : Memory) (others : Multiset Holding) : memory.Spares memory others :=
  fun _ _ _ _ => rfl

theorem trans (h : memory.Spares middle others) (hnext : middle.Spares memory' others) :
    memory.Spares memory' others := fun holding hmem address hin =>
  (hnext holding hmem address hin).trans (h holding hmem address hin)

theorem mono {fewer : Multiset Holding} (h : memory.Spares memory' others)
    (hsub : fewer ⊆ others) : memory.Spares memory' fewer :=
  fun holding hmem => h holding (hsub hmem)

end Memory.Spares

namespace AllocatorState

/-- What a user does with its own blocks.  Regions and resets concern everybody, and so may a
hint about memory that the user does not hold. -/
def Occurrence.Private : Occurrence → Prop
  | .demand (.addRegion _) | .advise _ _ _ | .reset => False
  | .demand _ | .write _ _ _ => True

/-- What the user holds, and what others hold. -/
def beside (state : AllocatorState) (others : List Holding) : AllocatorState :=
  { state with held := state.held ++ others }

variable {state : AllocatorState} {others : List Holding}

theorem beside_received (layout : Layout) (answer : Except Refusal (Block × Memory)) :
    (state.beside others).received layout answer =
      (state.received layout answer).beside others := by
  cases answer with
  | error refusal => rfl
  | ok found => rfl

theorem beside_resized {holding : Holding} (hheld : holding ∈ state.held) (wanted : Nat)
    (answer : Except Refusal (Block × Memory)) :
    (state.beside others).resized holding wanted answer =
      (state.resized holding wanted answer).beside others := by
  cases answer with
  | error refusal => rfl
  | ok found =>
    simp only [resized, beside, List.erase_append_left others hheld, List.cons_append]

/-- It makes no difference to the user what others hold. -/
theorem beside_undergo {occurrence : Occurrence} (hprivate : occurrence.Private)
    (hpermits : state.Permits occurrence) :
    (state.beside others).undergo occurrence = (state.undergo occurrence).beside others := by
  cases occurrence with
  | demand demand =>
    cases demand with
    | addRegion region => exact hprivate.elim
    | allocate layout => exact beside_received layout _
    | allocateZeroed layout => exact beside_received layout _
    | expand holding size wanted => exact beside_resized hpermits.1 wanted _
    | reallocate holding size wanted => exact beside_resized hpermits.1 wanted _
    | deallocate holding size =>
      simp only [undergo, perform, beside, List.erase_append_left others hpermits.1]
  | write holding offset byte => rfl
  | advise address count hint => exact hprivate.elim
  | reset => exact hprivate.elim

theorem Permits.beside {occurrence : Occurrence} (hprivate : occurrence.Private)
    (hpermits : state.Permits occurrence) : (state.beside others).Permits occurrence := by
  cases occurrence with
  | demand demand =>
    cases demand with
    | addRegion region => exact hprivate.elim
    | allocate layout | allocateZeroed layout => exact hpermits
    | expand holding size wanted | reallocate holding size wanted | deallocate holding size =>
      exact ⟨List.mem_append_left others hpermits.1, hpermits.2⟩
  | write holding offset byte => exact ⟨List.mem_append_left others hpermits.1, hpermits.2⟩
  | advise address count hint => exact hprivate.elim
  | reset => exact hprivate.elim

/-- Blocks that are apart from what is given back keep their bytes. -/
theorem InOrder.spares (h : (state.beside others).InOrder) {memory : Memory} {given taken : Span}
    (hpasses : Passes state.memory memory given taken)
    (hout : ∀ other ∈ others, ∀ address ∈ other.span, address ∉ given) :
    state.memory.Spares memory others := fun other hother address hin =>
  hpasses.keeps address
    ((h.kept other (List.mem_append_right state.held hother)).houses.occupied address hin)
    (hout other hother address hin)

theorem InOrder.apart_own (h : (state.beside others).InOrder) {holding : Holding}
    (hheld : holding ∈ state.held) :
    ∀ other ∈ others, ∀ address ∈ other.span, address ∉ holding.span := by
  intro other hother address hin hmine
  have hapart := (List.pairwise_append.1 h.apart).2.2 holding hheld other hother
  exact Span.apart_iff.1 hapart address ⟨hmine, hin⟩

theorem InOrder.spares_received (h : (state.beside others).InOrder) (layout : Layout)
    {answer : Except Refusal (Block × Memory)}
    (hanswer : ∀ block memory, answer = .ok (block, memory) →
      state.memory.Grants layout block memory) :
    state.memory.Spares (state.received layout answer).memory others := by
  cases hgranted : answer with
  | error refusal => exact .refl state.memory others
  | ok found =>
    exact h.spares (hanswer found.1 found.2 hgranted).passes
      fun _ _ address _ => Span.not_mem_nothing address

theorem InOrder.spares_resized (h : (state.beside others).InOrder) {holding : Holding}
    (hheld : holding ∈ state.held) {wanted : Nat} {answer : Except Refusal (Block × Memory)}
    (hanswer : ∀ block memory, answer = .ok (block, memory) →
      ∃ count, state.memory.Resizes holding wanted count block memory) :
    state.memory.Spares (state.resized holding wanted answer).memory others := by
  cases hgranted : answer with
  | error refusal => exact .refl state.memory others
  | ok found =>
    obtain ⟨count, hresizes⟩ := hanswer found.1 found.2 hgranted
    exact h.spares hresizes.passes (h.apart_own hheld)

/-- One thing that a user does leaves the blocks of others alone. -/
theorem InOrder.undergo_beside (h : (state.beside others).InOrder) {occurrence : Occurrence}
    (hprivate : occurrence.Private) (hpermits : state.Permits occurrence) :
    ((state.undergo occurrence).beside others).InOrder ∧
      state.memory.Spares (state.undergo occurrence).memory others := by
  constructor
  · rw [← beside_undergo hprivate hpermits]
    exact h.undergo (hpermits.beside hprivate)
  have hhoused : ∀ holding ∈ state.held, state.memory.backend.Houses holding :=
    fun holding hheld => (h.kept holding (List.mem_append_left others hheld)).houses
  cases occurrence with
  | demand demand =>
    cases demand with
    | addRegion region => exact hprivate.elim
    | allocate layout =>
      exact h.spares_received layout fun block memory hfound =>
        Memory.allocate_grants h.orderly hpermits hfound
    | allocateZeroed layout =>
      exact h.spares_received layout fun block memory hfound =>
        (Memory.allocateZeroed_grants h.orderly hpermits hfound).1
    | expand holding size wanted =>
      refine h.spares_resized hpermits.1 fun block memory hanswer => ?_
      obtain ⟨⟨count, grown⟩, hgrown, heq⟩ := Except.of_map_ok hanswer
      obtain ⟨rfl, rfl⟩ := Prod.mk.inj heq
      exact ⟨_, Memory.expand_resizes h.orderly (hhoused holding hpermits.1) hpermits.2 hgrown⟩
    | reallocate holding size wanted =>
      refine h.spares_resized hpermits.1 fun block memory hanswer => ?_
      exact ⟨_, Memory.reallocate_resizes h.orderly (hhoused holding hpermits.1) hpermits.2 hanswer⟩
    | deallocate holding size =>
      exact h.spares
        (Memory.deallocate_passes h.orderly (hhoused holding hpermits.1) hpermits.2)
        (h.apart_own hpermits.1)
  | write holding offset byte =>
    obtain ⟨hheld, hlt⟩ := hpermits
    intro other hother address hin
    refine Bytes.fill_of_not_mem fun hwritten => h.apart_own hheld other hother address hin ?_
    rw [Span.mem_iff]
    simp only [Holding.span]
    omega
  | advise address count hint => exact hprivate.elim
  | reset => exact hprivate.elim

theorem regions_undergo {occurrence : Occurrence} (hprivate : occurrence.Private) :
    (state.undergo occurrence).regions = state.regions := by
  cases occurrence with
  | demand demand =>
    cases demand with
    | addRegion region => exact hprivate.elim
    | allocate layout =>
      simp only [undergo, perform, received]
      split <;> rfl
    | allocateZeroed layout =>
      simp only [undergo, perform, received]
      split <;> rfl
    | expand holding size wanted =>
      simp only [undergo, perform, resized]
      split <;> rfl
    | reallocate holding size wanted =>
      simp only [undergo, perform, resized]
      split <;> rfl
    | deallocate holding size => rfl
  | write holding offset byte => rfl
  | advise address count hint => exact hprivate.elim
  | reset => exact hprivate.elim

/-- What one thing leaves alone, all that a user does leaves alone. -/
theorem InOrder.live_beside (h : (state.beside others).InOrder) {occurrences : List Occurrence}
    (hprivate : ∀ occurrence ∈ occurrences, occurrence.Private)
    (hpermitted : state.Permitted occurrences) :
    ((state.live occurrences).beside others).InOrder ∧
      (state.live occurrences).regions = state.regions ∧
      state.memory.Spares (state.live occurrences).memory others := by
  induction occurrences generalizing state with
  | nil => exact ⟨h, rfl, .refl state.memory others⟩
  | cons occurrence later ih =>
    have hfirst := hprivate occurrence List.mem_cons_self
    obtain ⟨hafter, hspares⟩ := h.undergo_beside hfirst hpermitted.1
    obtain ⟨hlast, hregions, hlater⟩ :=
      ih hafter (fun other hmem => hprivate other (List.mem_cons_of_mem _ hmem)) hpermitted.2
    exact ⟨hlast, hregions.trans (regions_undergo hfirst), hspares.trans hlater⟩

theorem InOrder.perm (h : state.InOrder) {held : List Holding} (hperm : state.held.Perm held) :
    InOrder { state with held := held } where
  orderly := h.orderly
  bounded := h.bounded
  laid := h.laid
  kept holding hmem := h.kept holding (hperm.mem_iff.2 hmem)
  apart := hperm.pairwise h.apart fun hapart => hapart.symm

end AllocatorState

/-! ## Memories that retain blocks -/

/-- The memory keeps the blocks that are held, in whatever order they are listed.  The regions
of a free list lie in the lower half of the addresses, where address zero is not used. -/
structure Memory.Retains (memory : Memory) (regions : List Span) (held : Multiset Holding) :
    Prop where
  ordered : ∃ list : List Holding, (list : Multiset Holding) = held ∧
    (AllocatorState.mk memory list regions).InOrder
  low : ∀ region ∈ regions, 0 < region.start ∧ region.stop ≤ 1 <<< 63

namespace Memory.Retains

variable {memory memory' : Memory} {regions : List Span} {others : Multiset Holding}

theorem inOrder {held : List Holding} (h : memory.Retains regions held) :
    (AllocatorState.mk memory held regions).InOrder := by
  obtain ⟨list, hlist, hordered⟩ := h.ordered
  exact hordered.perm (Multiset.coe_eq_coe.1 hlist)

theorem of_inOrder {held : List Holding} (h : (AllocatorState.mk memory held regions).InOrder)
    (hlow : ∀ region ∈ regions, 0 < region.start ∧ region.stop ≤ 1 <<< 63) :
    memory.Retains regions held := ⟨⟨held, rfl, h⟩, hlow⟩

theorem of_unused (h : memory.backend.Unused) : memory.Retains [] 0 :=
  of_inOrder (AllocatorState.inOrder_unused h) (by simp)

/-- Whatever a user does with its own blocks, the memory goes on hosting those of others. -/
theorem live {mine : List Holding} (h : memory.Retains regions (mine + others))
    (occurrences : List AllocatorState.Occurrence)
    (hprivate : ∀ occurrence ∈ occurrences, occurrence.Private)
    (hpermitted : (AllocatorState.mk memory mine regions).Permitted occurrences) :
    (((AllocatorState.mk memory mine regions).live occurrences).memory).Retains regions
        (((AllocatorState.mk memory mine regions).live occurrences).held + others) ∧
      memory.Spares ((AllocatorState.mk memory mine regions).live occurrences).memory others := by
  induction others using Quotient.inductionOn with
  | _ list =>
    have hordered : ((AllocatorState.mk memory mine regions).beside list).InOrder := h.inOrder
    obtain ⟨hafter, hregions, hspares⟩ := hordered.live_beside hprivate hpermitted
    generalize (AllocatorState.mk memory mine regions).live occurrences = state at *
    obtain ⟨reached, held, regions'⟩ := state
    obtain rfl : regions' = regions := hregions
    exact ⟨of_inOrder hafter h.low, hspares⟩

/-- No two users have a byte in common. -/
theorem apart {mine : Multiset Holding} (h : memory.Retains regions (mine + others)) :
    ∀ block ∈ mine, ∀ other ∈ others, block.span.Apart other.span := by
  induction mine using Quotient.inductionOn with
  | _ first =>
    induction others using Quotient.inductionOn with
    | _ second =>
      have hordered : (AllocatorState.mk memory (first ++ second) regions).InOrder := h.inOrder
      exact fun block hmine other hother =>
        (List.pairwise_append.1 hordered.apart).2.2 block hmine other hother

theorem granted (h : memory.Retains regions others) {layout : Layout} (hvalid : layout.Valid)
    {block : Block} (hgranted : memory.allocate layout = .ok (block, memory')) :
    memory'.Retains regions (.of layout block ::ₘ others) ∧ memory.Spares memory' others := by
  have hnone : memory.Retains regions (([] : List Holding) + others) := by simpa using h
  have hlive := hnone.live [.demand (.allocate layout)]
    (fun occurrence hmem => by rw [List.mem_singleton.1 hmem]; trivial) ⟨hvalid, trivial⟩
  have hreached : (AllocatorState.mk memory [] regions).live [.demand (.allocate layout)] =
      ⟨memory', [.of layout block], regions⟩ := by
    simp only [AllocatorState.live, List.foldl_cons, List.foldl_nil, AllocatorState.undergo,
      AllocatorState.perform, hgranted, AllocatorState.received]
  rw [hreached] at hlive
  simpa using hlive

theorem returned {holding : Holding} (h : memory.Retains regions (holding ::ₘ others)) {size : Nat}
    (hfits : holding.Fits size) :
    (memory.deallocate holding.address (holding.layout size)).Retains regions others ∧
      memory.Spares (memory.deallocate holding.address (holding.layout size)) others := by
  have hmine : memory.Retains regions ((↑[holding] : Multiset Holding) + others) := by simpa using h
  have hlive := hmine.live [.demand (.deallocate holding size)]
    (fun occurrence hmem => by rw [List.mem_singleton.1 hmem]; trivial)
    ⟨⟨List.mem_singleton_self holding, hfits⟩, trivial⟩
  have hreached : (AllocatorState.mk memory [holding] regions).live
      [.demand (.deallocate holding size)] =
      ⟨memory.deallocate holding.address (holding.layout size), [], regions⟩ := by
    simp only [AllocatorState.live, List.foldl_cons, List.foldl_nil, AllocatorState.undergo,
      AllocatorState.perform, List.erase_cons_head]
  rw [hreached] at hlive
  simpa using hlive

/-- A block of a free list ends where a region ends, and begins at its alignment or later. -/
theorem bounded_of_lists (h : memory.Retains regions others) {layout : Layout}
    (hvalid : layout.Valid) {block : Block}
    (hgranted : memory.allocate layout = .ok (block, memory')) (hpos : 0 < block.size)
    (hlists : ∀ address, memory'.backend.Reach regions address →
      ∃ region ∈ regions, address ∈ region) :
    block.size + layout.align ≤ 1 <<< 63 := by
  have hkept : memory'.backend.Keeps regions (.of layout block) := by
    obtain ⟨list, hlist, hordered⟩ := (h.granted hvalid hgranted).1.ordered
    refine hordered.kept _ (Multiset.mem_coe.1 ?_)
    rw [hlist]
    exact Multiset.mem_cons_self _ _
  have hinside : ∀ offset < block.size, ∃ region ∈ regions, block.address + offset ∈ region :=
    fun offset hlt => hlists _ (hkept.reach _ (Holding.offset_mem hlt))
  obtain ⟨first, hfirst, hstart⟩ := hinside 0 hpos
  obtain ⟨last, hlast, hstop⟩ := hinside (block.size - 1) (by omega)
  rw [Span.mem_iff] at hstart hstop
  have hlow := (h.low first hfirst).1
  have hhigh := (h.low last hlast).2
  have halign : layout.align ≤ block.address := Nat.le_of_dvd (by omega) hkept.aligned
  have hend : last.start + last.size ≤ 1 <<< 63 := hhigh
  omega

/-- The whole of a block that was granted could have been asked for. -/
theorem valid_of_granted (h : memory.Retains regions others) {layout : Layout}
    (hvalid : layout.Valid) {block : Block}
    (hgranted : memory.allocate layout = .ok (block, memory')) :
    Layout.Valid ⟨block.size, layout.align⟩ := by
  refine ⟨hvalid.1, ?_⟩
  show block.size + layout.align ≤ 1 <<< 63
  have hfits := hvalid.2
  obtain ⟨hsize, -⟩ := Memory.allocate_granted hvalid hgranted
  have hbounded := h.bounded_of_lists hvalid hgranted
  have hcases := Memory.allocate_ok hgranted
  by_cases hzero : block.size = 0
  · omega
  have hpos := Nat.pos_of_ne_zero hzero
  cases hbackend : memory.backend with
  | stack arena | heap heap =>
    rw [hbackend] at hsize
    have hexact : block.size = layout.size := hsize.trans (Word.roundUp_one layout.size)
    omega
  | freeList list | basic list =>
    rw [hbackend] at hcases
    obtain ⟨list', -, rfl⟩ := hcases
    exact hbounded hpos fun address hreach => hreach
  | pages pages =>
    rw [hbackend] at hcases
    obtain ⟨pages', hfound, -⟩ := hcases
    rcases PageMap.allocate_ok hfound with ⟨-, rfl, -⟩ | ⟨-, halign, hobtained⟩
    · exact absurd rfl hzero
    · -- The pages begin at a page, and not at the first one.
      obtain ⟨hunits, ⟨hstart, hstop, hpage, -⟩, -⟩ := PageMap.obtain?_some hobtained
      have hfirst : pages.pageSize ≤ block.address := Nat.le_of_dvd hstart hpage
      have hend : block.address + block.size ≤ 1 <<< 63 := hunits ▸ hstop
      omega

end Memory.Retains
end Freehold
