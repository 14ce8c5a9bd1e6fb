import Freehold.Proofs.FreeList.Accounts
import Freehold.Proofs.Memory.Extent
import Freehold.Proofs.Memory.Headers
import Freehold.Proofs.Memory.Requests

/-!
# Blocks of another size

A user may ask for another size of a block at any time, whatever has become of the memory
since it was set up.  A block that grows in place stays where it is and takes memory that
nobody holds; a block that is moved keeps its bytes and gives its old place back; a request
that is refused leaves no trace.
-/

namespace Freehold

/-- A region that is apart from what is free becomes free, as far as it can be used. -/
theorem FreeList.free_addRegion {list : FreeList} {region : Span} (htidy : Tidy list.spans)
    (hfresh : ∀ address ∈ region, ¬ Free list.spans address) :
    Tidy (list.addRegion region).spans ∧
      ∀ address, Free (list.addRegion region).spans address →
        Free list.spans address ∨ address ∈ region := by
  have hpart := usable_largest region
  unfold addRegion
  by_cases hzero : (usable region).size = 0
  · rw [if_pos hzero]
    exact ⟨htidy, fun _ hfree => Or.inl hfree⟩
  · rw [if_neg hzero]
    have hgranular : (usable region).Granular :=
      ⟨hpart.start, hpart.size, Nat.pos_of_ne_zero hzero⟩
    have hgiven := insert_given hgranular htidy fun other hother => by
      rw [Span.apart_iff]
      rintro address ⟨hinOther, hin⟩
      exact hfresh address (hpart.inside address hin) ⟨other, hother, hinOther⟩
    refine ⟨hgiven.tidy, fun address hfree => ?_⟩
    exact ((hgiven.free_iff address).1 hfree).imp_right (hpart.inside address)

/-! ## Reachable states -/

/-- An allocator before its first request.  A free list has no region yet. -/
def Backend.Unused : Backend → Prop
  | .stack arena => arena.used = 0
  | .freeList list | .basic list => list = {}
  | .heap books => books.used = []
  | .pages books => books.mapped = []

/-- The allocator keeps a block that lies within its reach and is aligned.  On a page map the
alignment of a block that is not empty divides a page. -/
structure Backend.Keeps (backend : Backend) (regions : List Span) (holding : Holding) : Prop where
  houses : backend.Houses holding
  reach : ∀ address ∈ holding.span, backend.Reach regions address
  aligned : holding.align ∣ holding.address
  suits : 0 < holding.recorded → backend.Suits holding.align

namespace AllocatorState

/-- What may happen to a memory and the blocks in use. -/
inductive Occurrence where
  | demand (demand : Demand)
  | write (holding : Holding) (offset : Nat) (byte : UInt8)
  | advise (address count : Nat) (hint : UsageHint)
  /-- A stack arena forgets its blocks. -/
  | reset
  deriving DecidableEq

def undergo (state : AllocatorState) : Occurrence → AllocatorState
  | .demand demand => state.perform demand
  | .write holding offset byte =>
    { state with
      memory :=
        { state.memory with
          bytes := state.memory.bytes.fill (holding.address + offset) 1 byte } }
  | .advise address count hint =>
    { state with memory := state.memory.advise address count hint }
  | .reset =>
    match state.memory.backend with
    | .stack arena =>
      { state with
        memory := { state.memory with backend := .stack arena.reset }
        held := [] }
    | .freeList _ | .basic _ | .heap _ | .pages _ => state

/-- A region is apart from the earlier ones; a block is asked for with a valid layout, and
used while it is held and with a size that fits it. -/
def Permits (state : AllocatorState) : Occurrence → Prop
  | .demand (.addRegion region) => ∀ other ∈ state.regions, Span.Apart other region
  | .demand (.allocate layout) | .demand (.allocateZeroed layout) => layout.Valid
  | .demand (.expand holding size _) | .demand (.reallocate holding size _)
  | .demand (.deallocate holding size) => holding ∈ state.held ∧ holding.Fits size
  | .write holding offset _ => holding ∈ state.held ∧ offset < holding.recorded
  | .advise _ _ _ | .reset => True

instance (state : AllocatorState) : (occurrence : Occurrence) → Decidable (state.Permits occurrence)
  | .demand (.addRegion _) => inferInstanceAs (Decidable (∀ other ∈ _, _))
  | .demand (.allocate _) | .demand (.allocateZeroed _) =>
    inferInstanceAs (Decidable (Layout.Valid _))
  | .demand (.expand _ _ _) | .demand (.reallocate _ _ _) | .demand (.deallocate _ _)
  | .write _ _ _ => inferInstanceAs (Decidable (_ ∧ _))
  | .advise _ _ _ | .reset => inferInstanceAs (Decidable True)

def live (state : AllocatorState) (occurrences : List Occurrence) : AllocatorState :=
  occurrences.foldl undergo state

/-- Everything that happens is permitted when its turn comes. -/
def Permitted (state : AllocatorState) : List Occurrence → Prop
  | [] => True
  | occurrence :: later => state.Permits occurrence ∧ (state.undergo occurrence).Permitted later

instance decidablePermitted (state : AllocatorState) :
    (occurrences : List Occurrence) → Decidable (state.Permitted occurrences)
  | [] => .isTrue trivial
  | occurrence :: later =>
    have := decidablePermitted (state.undergo occurrence) later
    inferInstanceAs (Decidable (_ ∧ _))

/-- What every reachable state has. -/
structure InOrder (state : AllocatorState) : Prop where
  orderly : state.memory.backend.Orderly
  bounded : state.memory.backend.Bounded state.regions
  laid : state.memory.Laid
  kept : ∀ holding ∈ state.held, state.memory.backend.Keeps state.regions holding
  apart : state.held.Pairwise fun first second => first.span.Apart second.span

theorem inOrder_unused {memory : Memory} (h : memory.backend.Unused) :
    InOrder { memory := memory } := by
  obtain ⟨backend, bytes⟩ := memory
  refine ⟨?_, ?_, ?_, by simp, List.Pairwise.nil⟩
  · cases backend with
    | stack arena | pages books => trivial
    | freeList list | basic list =>
      obtain rfl : list = {} := h
      exact FreeList.tidy_nil
    | heap books =>
      have hnone : books.used = [] := h
      show books.used.Pairwise Span.Apart ∧ ∀ span ∈ books.used, 0 < span.size
      simp [hnone]
  · cases backend with
    | stack arena =>
      have hnone : arena.used = 0 := h
      show arena.used ≤ arena.capacity
      omega
    | freeList list | basic list =>
      obtain rfl : list = {} := h
      intro address hfree
      exact absurd hfree (FreeList.not_free_nil address)
    | heap books | pages books => trivial
  · cases backend with
    | stack arena | heap books | pages books => exact Memory.laid_of_headless fun _ => rfl
    | freeList list | basic list =>
      obtain rfl : list = {} := h
      exact Memory.laid_of_headless fun _ => rfl

variable {state : AllocatorState}

/-- The other blocks are apart from a block in use. -/
theorem InOrder.apart_erase (h : state.InOrder) {holding : Holding}
    (hheld : holding ∈ state.held) :
    ∀ other ∈ state.held.erase holding, ∀ address ∈ other.span, address ∉ holding.span := by
  intro other hother address hin hmine
  have hfront := (List.perm_cons_erase hheld).pairwise h.apart fun hapart => hapart.symm
  exact Span.apart_iff.1 ((List.pairwise_cons.1 hfront).1 other hother) address ⟨hmine, hin⟩

/-- A block that is not touched is kept. -/
theorem keeps_of_passes {memory memory' : Memory} {given taken : Span} {regions : List Span}
    (hpasses : Passes memory memory' given taken)
    (hcontinues : memory.backend.Continues memory'.backend)
    (hbounded : memory.backend.Bounded regions)
    (hgiven : ∀ address ∈ given, memory.backend.Reach regions address) {holding : Holding}
    (h : memory.backend.Keeps regions holding)
    (hout : ∀ address ∈ holding.span, address ∉ given) :
    memory'.backend.Keeps regions holding where
  houses := hpasses.houses h.houses hout
  reach address hin :=
    (hpasses.within hcontinues hbounded hgiven).2.1 address (h.reach address hin)
  aligned := h.aligned
  suits hfilled := (h.suits hfilled).congr hpasses.units

/-- Some blocks stay, and there may be a new one. -/
theorem InOrder.pass (h : state.InOrder) {memory : Memory} {given taken : Span}
    (hpasses : Passes state.memory memory given taken)
    (hcontinues : state.memory.backend.Continues memory.backend) (hlaid : memory.Laid)
    (hgiven : ∀ address ∈ given, state.memory.backend.Reach state.regions address)
    {stays : List Holding} (hstays : stays.Sublist state.held)
    (hout : ∀ holding ∈ stays, ∀ address ∈ holding.span, address ∉ given)
    {new : Option Holding}
    (hnew : ∀ holding, new = some holding → holding.span = taken ∧ memory.backend.Houses holding ∧
      holding.align ∣ holding.address ∧
      (0 < holding.recorded → state.memory.backend.Suits holding.align)) :
    InOrder { state with memory := memory, held := new.toList ++ stays } := by
  obtain ⟨hbounded, hreach, htaken⟩ := hpasses.within hcontinues h.bounded hgiven
  have hold : ∀ holding ∈ stays, memory.backend.Keeps state.regions holding :=
    fun holding hmem =>
      keeps_of_passes hpasses hcontinues h.bounded hgiven (h.kept holding (hstays.subset hmem))
        (hout holding hmem)
  have hapart := h.apart.sublist hstays
  cases new with
  | none => exact ⟨hpasses.orderly, hbounded, hlaid, hold, hapart⟩
  | some fresh =>
    obtain ⟨hspan, hhoused, haligned, hsuits⟩ := hnew fresh rfl
    refine ⟨hpasses.orderly, hbounded, hlaid, ?_, ?_⟩
    · intro holding hmem
      rcases List.mem_cons.1 hmem with rfl | hmem
      · refine ⟨hhoused, ?_, haligned, fun hfilled => (hsuits hfilled).congr hpasses.units⟩
        rw [hspan]
        exact htaken
      · exact hold holding hmem
    · refine List.pairwise_cons.2 ⟨fun holding hmem => ?_, hapart⟩
      refine Span.apart_iff.2 fun address ⟨hin, hother⟩ => ?_
      have hused := (h.kept holding (hstays.subset hmem)).houses.occupied address hother
      exact hout holding hmem address hother (hpasses.fresh address (hspan ▸ hin) hused)

theorem InOrder.received (h : state.InOrder) {layout : Layout} (hvalid : layout.Valid)
    {answer : Except Refusal (Block × Memory)}
    (hanswer : ∀ block memory, answer = .ok (block, memory) → ∃ plain,
      state.memory.allocate layout = .ok (block, plain) ∧ memory.backend = plain.backend ∧
        memory.Laid ∧ state.memory.Grants layout block memory) :
    (state.received layout answer).InOrder := by
  cases hgranted : answer with
  | error refusal => exact h
  | ok found =>
    obtain ⟨block, memory⟩ := found
    obtain ⟨plain, hfound, hbooks, hlaid, hgrants⟩ := hanswer block memory hgranted
    have hcontinues : state.memory.backend.Continues memory.backend := by
      rw [hbooks]
      exact Memory.continues_allocate hfound
    obtain ⟨hsize, haligned⟩ := Memory.allocate_granted hvalid hfound
    have hnew : ∀ holding, some (Holding.of layout block) = some holding →
        holding.span = block.span ∧ memory.backend.Houses holding ∧
          holding.align ∣ holding.address ∧
          (0 < holding.recorded → state.memory.backend.Suits holding.align) := by
      rintro _ ⟨⟩
      refine ⟨rfl, hgrants.houses, haligned, fun hfilled => ?_⟩
      have hpos : 0 < layout.size := by
        refine Nat.pos_of_ne_zero fun hzero => ?_
        rw [hzero, Word.roundUp_zero] at hsize
        exact absurd hfilled (Nat.not_lt_of_le (Nat.le_of_eq hsize))
      exact Memory.suits_of_allocate hvalid hpos hfound
    exact h.pass hgrants.passes hcontinues hlaid
      (fun address hin => absurd hin (Span.not_mem_nothing address)) (List.Sublist.refl _)
      (fun _ _ address _ => Span.not_mem_nothing address) hnew

/-- A block that is resized is aligned as before. -/
theorem reallocate_aligned {memory memory' : Memory} {regions : List Span} {holding : Holding}
    (hkept : memory.backend.Keeps regions holding) {size wanted : Nat}
    (hfits : holding.Fits size) {block : Block}
    (h : memory.reallocate holding.address (holding.layout size) wanted = .ok (block, memory')) :
    holding.align ∣ block.address ∧ (0 < block.size → memory.backend.Suits holding.align) := by
  have hsuits : 0 < size → memory.backend.Suits holding.align := fun hpos =>
    hkept.suits (Nat.lt_of_lt_of_le hpos hfits.2)
  by_cases hunits : FreeList.granule < memory.backend.granule
  · obtain ⟨pages, hpages⟩ := Backend.exists_pages hunits
    have hcases := Memory.reallocate_ok h
    rw [hpages] at hcases hsuits ⊢
    obtain ⟨pages', hfound, -⟩ := hcases
    rcases PageMap.reallocate_ok hfound with
      ⟨-, rfl, -⟩ | ⟨-, hpos, hvalid, hanew⟩ | ⟨hpos, -, -, hplace⟩
    · exact ⟨hkept.aligned, hsuits⟩
    · obtain ⟨hzero, -⟩ | ⟨-, hfine, -⟩ := PageMap.allocate_ok hanew
      · exact absurd hzero (Nat.ne_of_gt hpos)
      · refine ⟨(PageMap.allocate_aligned hvalid hanew).2, fun _ _ => ?_⟩
        exact Word.isPowerOfTwo_dvd_of_le hvalid.1 pages.pageSize_isPowerOfTwo hfine
    · refine ⟨?_, fun _ => hsuits hpos⟩
      rcases hplace with ⟨haddress, -⟩ | ⟨moved, hobtain, -⟩
      · rw [haddress]
        exact hkept.aligned
      · exact Nat.dvd_trans (hsuits hpos pages.granule_lt_pageSize)
          (PageMap.obtain?_aligned hobtain)
  · refine ⟨?_, fun _ hless => absurd hless hunits⟩
    rcases (Memory.reallocate_granted h).1 with ⟨-, rfl⟩ | ⟨-, -, haddress | haligned⟩
    · exact hkept.aligned
    · rw [haddress]
      exact hkept.aligned
    · exact haligned fun hless => absurd hless hunits

/-- Among pages only a block that has bytes grows in place. -/
theorem filled_of_expand {memory memory' : Memory} {regions : List Span} {holding : Holding}
    (hkept : memory.backend.Keeps regions holding) {size wanted count : Nat}
    (hfits : holding.Fits size) (hunits : FreeList.granule < memory.backend.granule)
    (h : memory.expand holding.address (holding.layout size) wanted = .ok (count, memory'))
    (hfilled : 0 < count) : 0 < holding.recorded := by
  have hround := hkept.houses.roundUp_of_fits hfits
  obtain ⟨pages, hpages⟩ := Backend.exists_pages hunits
  have hcases := Memory.expand_ok h
  rw [hpages] at hcases hround
  obtain ⟨pages', hfound, -⟩ := hcases
  have hold : Word.roundUp (holding.layout size).size pages.pageSize = holding.recorded := hround
  have hplace := PageMap.expand_ok hfound
  rw [hold] at hplace
  rcases hplace with ⟨-, rfl, -⟩ | ⟨-, -, ⟨rfl, -⟩ | ⟨-, hgrown⟩⟩
  · exact Nat.lt_of_lt_of_le hfilled hfits.2
  · exact hfilled
  · exact (PageMap.growAt?_some hgrown).1

theorem InOrder.resized (h : state.InOrder) {holding : Holding} (hheld : holding ∈ state.held)
    {wanted : Nat} {answer : Except Refusal (Block × Memory)}
    (hanswer : ∀ block memory, answer = .ok (block, memory) →
      (∃ count, state.memory.Resizes holding wanted count block memory) ∧
        state.memory.backend.Continues memory.backend ∧ memory.Laid ∧
        holding.align ∣ block.address ∧
        (0 < block.size → state.memory.backend.Suits holding.align)) :
    (state.resized holding wanted answer).InOrder := by
  cases hgranted : answer with
  | error refusal => exact h
  | ok found =>
    obtain ⟨block, memory⟩ := found
    obtain ⟨⟨count, hresizes⟩, hcontinues, hlaid, haligned, hsuits⟩ :=
      hanswer block memory hgranted
    have hnew : ∀ new, some (holding.resized wanted block) = some new →
        new.span = (holding.resized wanted block).span ∧ memory.backend.Houses new ∧
          new.align ∣ new.address ∧
          (0 < new.recorded → state.memory.backend.Suits new.align) := by
      rintro _ ⟨⟩
      refine ⟨rfl, hresizes.houses, haligned, fun hfilled => ?_⟩
      by_cases hbefore : 0 < holding.recorded
      · exact (h.kept holding hheld).suits hbefore
      · have hrecorded : 0 < max holding.recorded block.size := hfilled
        exact hsuits (by omega)
    exact h.pass hresizes.passes hcontinues hlaid (h.kept holding hheld).reach
      List.erase_sublist (h.apart_erase hheld) hnew

theorem InOrder.addRegion (h : state.InOrder) {region : Span}
    (hapart : ∀ other ∈ state.regions, Span.Apart other region) :
    (state.perform (.addRegion region)).InOrder := by
  have hlaid := h.laid.addRegion region
  have houtside : ∀ address, (∃ other ∈ state.regions, address ∈ other) → address ∉ region := by
    rintro address ⟨other, hother, hin⟩ hboth
    exact Span.apart_iff.1 (hapart other hother) address ⟨hin, hboth⟩
  obtain ⟨⟨backend, bytes⟩, held, regions⟩ := state
  cases backend with
  | stack arena | heap heap | pages pages =>
    refine ⟨h.orderly, h.bounded, hlaid, fun holding hmem => ?_, h.apart⟩
    have hkept := h.kept holding hmem
    exact ⟨hkept.houses, hkept.reach, hkept.aligned, hkept.suits⟩
  | freeList list | basic list =>
    have htidy : FreeList.Tidy list.spans := h.orderly
    have hadded := FreeList.free_addRegion htidy fun address hin hfree =>
      houtside address (h.bounded address hfree) hin
    refine ⟨hadded.1, ?_, hlaid, fun holding hmem => ?_, h.apart⟩
    · intro address hfree
      rcases hadded.2 address hfree with hbefore | hin
      · obtain ⟨other, hother, hin⟩ := h.bounded address hbefore
        exact ⟨other, List.mem_cons_of_mem _ hother, hin⟩
      · exact ⟨region, List.mem_cons_self, hin⟩
    · have hkept := h.kept holding hmem
      refine ⟨⟨hkept.houses.rounded, ?_, hkept.houses.footing⟩, ?_, hkept.aligned, hkept.suits⟩
      · intro address hin hfree
        rcases hadded.2 address hfree with hbefore | hboth
        · exact hkept.houses.occupied address hin hbefore
        · exact houtside address (hkept.reach address hin) hboth
      · intro address hin
        obtain ⟨other, hother, hinside⟩ := hkept.reach address hin
        exact ⟨other, List.mem_cons_of_mem _ hother, hinside⟩

/-- What is written outside of the memory that can be handed out changes nothing else. -/
theorem InOrder.rewrite (h : state.InOrder) {bytes : Bytes}
    (hsame : ∀ address, ¬ state.memory.backend.Occupied address →
      bytes address = state.memory.bytes address) :
    InOrder { state with memory := { state.memory with bytes := bytes } } :=
  ⟨h.orderly, h.bounded, h.laid.rewrite h.orderly hsame, h.kept, h.apart⟩

theorem InOrder.performed (h : state.InOrder) {demand : Demand}
    (hpermits : state.Permits (.demand demand)) : (state.perform demand).InOrder := by
  cases demand with
  | addRegion region => exact h.addRegion hpermits
  | allocate layout =>
    refine h.received hpermits fun block memory hfound => ?_
    exact ⟨memory, hfound, rfl, Memory.laid_allocate hfound,
      Memory.allocate_grants h.orderly hpermits hfound⟩
  | allocateZeroed layout =>
    refine h.received hpermits fun block memory hfound => ?_
    have hlaid := Memory.Laid.allocateZeroed hfound h.orderly hpermits
    obtain ⟨hgrants, -⟩ := Memory.allocateZeroed_grants h.orderly hpermits hfound
    obtain ⟨plain, hplain, rfl⟩ := Memory.allocateZeroed_ok hfound
    exact ⟨plain, hplain, rfl, hlaid, hgrants⟩
  | expand holding size wanted =>
    obtain ⟨hheld, hfits⟩ := hpermits
    have hkept := h.kept holding hheld
    refine h.resized hheld fun block memory hanswer => ?_
    obtain ⟨⟨count, grown⟩, hgrown, heq⟩ := Except.of_map_ok hanswer
    obtain ⟨rfl, rfl⟩ := Prod.mk.inj heq
    exact ⟨⟨_, Memory.expand_resizes h.orderly hkept.houses hfits hgrown⟩,
      Memory.continues_expand hgrown, h.laid.expand hgrown, hkept.aligned,
      fun hfilled hunits =>
        hkept.suits (filled_of_expand hkept hfits hunits hgrown hfilled) hunits⟩
  | reallocate holding size wanted =>
    obtain ⟨hheld, hfits⟩ := hpermits
    have hkept := h.kept holding hheld
    refine h.resized hheld fun block memory hanswer => ?_
    obtain ⟨haligned, hsuits⟩ := reallocate_aligned hkept hfits hanswer
    exact ⟨⟨_, Memory.reallocate_resizes h.orderly hkept.houses hfits hanswer⟩,
      Memory.continues_reallocate hanswer, h.laid.reallocate hanswer, haligned, hsuits⟩
  | deallocate holding size =>
    obtain ⟨hheld, hfits⟩ := hpermits
    have hkept := h.kept holding hheld
    have hnone : ∀ new, (none : Option Holding) = some new → new.span = Span.nothing ∧
        (state.memory.deallocate holding.address (holding.layout size)).backend.Houses new ∧
        new.align ∣ new.address ∧
        (0 < new.recorded → state.memory.backend.Suits new.align) := by simp
    exact h.pass (Memory.deallocate_passes h.orderly hkept.houses hfits)
      (Memory.continues_deallocate state.memory holding.address (holding.layout size))
      (Memory.laid_deallocate state.memory holding.address (holding.layout size)) hkept.reach
      List.erase_sublist (h.apart_erase hheld) hnone

/-- Whatever happens, the memory stays in order with the blocks in use. -/
theorem InOrder.undergo (h : state.InOrder) {occurrence : Occurrence}
    (hpermits : state.Permits occurrence) : (state.undergo occurrence).InOrder := by
  cases occurrence with
  | demand demand => exact h.performed hpermits
  | write holding offset byte =>
    obtain ⟨hheld, hlt⟩ := hpermits
    refine h.rewrite fun address hfree => Bytes.fill_of_not_mem fun hin => hfree ?_
    refine (h.kept holding hheld).houses.occupied address ?_
    rw [Span.mem_iff]
    simp only [Holding.span]
    omega
  | advise address count hint =>
    have hbooks := Memory.backend_advise state.memory address count hint
    obtain ⟨horderly, hbounded, hlaid, hkept, hapart⟩ := h
    rw [← hbooks] at horderly hbounded hkept
    refine ⟨horderly, hbounded, ?_, hkept, hapart⟩
    show (state.memory.advise address count hint).Laid
    unfold Memory.advise
    split
    · rename_i pages hpages
      exact Memory.laid_of_headless fun _ => by rw [hpages]; rfl
    · exact hlaid
  | reset =>
    obtain ⟨⟨backend, bytes⟩, held, regions⟩ := state
    cases backend with
    | stack arena =>
      have horderly : (Backend.stack arena.reset).Orderly := trivial
      refine ⟨horderly, Nat.zero_le arena.capacity, Memory.laid_of_headless fun _ => rfl, ?_,
        List.Pairwise.nil⟩
      intro holding hmem
      cases hmem
    | freeList list | basic list | heap heap | pages pages => exact h

theorem InOrder.live (h : state.InOrder) {occurrences : List Occurrence}
    (hpermitted : state.Permitted occurrences) : (state.live occurrences).InOrder := by
  induction occurrences generalizing state with
  | nil => exact h
  | cons occurrence later ih => exact ih (h.undergo hpermitted.1) hpermitted.2

end AllocatorState
end Freehold
