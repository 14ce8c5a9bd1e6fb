import Freehold.Proofs.Memory.Resizing

/-!
# Hints about memory

A hint names any part of a block.  Only the system works in whole pages: the start of the part
is rounded down and its end is extended, so discarding it clears every page that it overlaps.
Blocks begin and end at pages, hence these pages belong to the block.  No other block is
touched, and what is lost besides the named part is on the first and the last page of it.
-/

namespace Freehold

/-! ## Pages that are reached -/

namespace PageMap

variable {pages : PageMap} {start count address : Nat}

theorem first_le (hdvd : pages.pageSize ∣ start) (h : start ≤ address) :
    start ≤ address / pages.pageSize * pages.pageSize := by
  rw [← Nat.div_mul_cancel hdvd]
  exact Nat.mul_le_mul_right _ (Nat.div_le_div_right h)

/-- The pages that a hint reaches are those on which there is a byte of the range that the
system is given. -/
theorem mem_advised_iff : address ∈ pages.advised start count ↔
    ∃ byte, start / pages.pageSize * pages.pageSize ≤ byte ∧ byte < start + count ∧
      byte / pages.pageSize = address / pages.pageSize := by
  have hpos := pages.pageSize_pos
  have hle : start / pages.pageSize * pages.pageSize ≤ start := Nat.div_mul_le_self _ _
  have hdvd : pages.pageSize ∣ start / pages.pageSize * pages.pageSize := Nat.dvd_mul_left _ _
  simp only [advised, Span.mem_iff]
  rw [← Word.roundUp_add_of_dvd hpos hdvd, Word.lt_roundUp_iff hpos]
  generalize start / pages.pageSize * pages.pageSize = first at *
  rw [show first + (count + (start - first)) = start + count by omega]
  constructor
  · rintro ⟨hfirst, hlt⟩
    exact ⟨_, first_le hdvd hfirst, hlt, Nat.mul_div_left _ hpos⟩
  · rintro ⟨byte, hfirst, hlt, hpage⟩
    have hbyte := first_le hdvd hfirst
    rw [hpage] at hbyte
    refine ⟨Nat.le_trans hbyte (Nat.div_mul_le_self _ _), ?_⟩
    rw [← hpage]
    exact Nat.lt_of_le_of_lt (Nat.div_mul_le_self _ _) hlt

/-- Whole pages reach no further than themselves. -/
theorem advised_of_dvd (hstart : pages.pageSize ∣ start) (hcount : pages.pageSize ∣ count) :
    pages.advised start count = ⟨start, count⟩ := by
  unfold advised
  dsimp only
  rw [Nat.div_mul_cancel hstart, Nat.sub_self, Nat.add_zero, Word.roundUp_of_dvd hcount]

/-- A part of a block of whole pages reaches no further than the block. -/
theorem advised_within {block : Span} (hfirst : pages.pageSize ∣ block.start)
    (hsize : pages.pageSize ∣ block.size) (hstart : block.start ≤ start)
    (hstop : start + count ≤ block.stop) (h : address ∈ pages.advised start count) :
    address ∈ block := by
  obtain ⟨byte, hle, hlt, hpage⟩ := mem_advised_iff.1 h
  have hbyte : byte / pages.pageSize * pages.pageSize ≤ byte := Nat.div_mul_le_self _ _
  have haddress : address / pages.pageSize * pages.pageSize ≤ address := Nat.div_mul_le_self _ _
  have hafter : block.start ≤ byte / pages.pageSize * pages.pageSize :=
    first_le hfirst (Nat.le_trans (first_le hfirst hstart) hle)
  rw [hpage] at hafter hbyte
  have hbefore : address < Word.roundUp block.stop pages.pageSize := by
    rw [Word.lt_roundUp_iff pages.pageSize_pos]
    omega
  have hwhole : pages.pageSize ∣ block.stop := Nat.dvd_add hfirst hsize
  rw [Word.roundUp_of_dvd hwhole] at hbefore
  exact ⟨Nat.le_trans hafter haddress, hbefore⟩

end PageMap

namespace Memory

variable {memory : Memory} {start count : Nat}

theorem advise_kept {hint : UsageHint} (hother : hint ≠ .dontNeed) :
    memory.advise start count hint = memory := by
  unfold advise
  split
  · exact absurd rfl hother
  · rfl

theorem discard_bytes {pages : PageMap} (hpages : memory.backend = .pages pages) {address : Nat} :
    (memory.advise start count .dontNeed).bytes address =
      if address ∈ pages.advised start count then 0 else memory.bytes address := by
  unfold advise
  rw [hpages]
  rfl

end Memory

/-! ## Blocks of whole pages -/

theorem PageMap.allocate_at_page {pages pages' : PageMap} {layout : Layout} {block : Block}
    (h : pages.allocate layout = .ok (block, pages')) (hfilled : 0 < block.size) :
    pages.pageSize ∣ block.address := by
  rcases allocate_ok h with ⟨-, rfl, -⟩ | ⟨-, -, hobtain⟩
  · cases hfilled
  · exact obtain?_aligned hobtain

namespace AllocatorState

/-- Among pages every block that has bytes begins at a page. -/
def Paged (state : AllocatorState) : Prop :=
  FreeList.granule < state.memory.backend.granule →
    ∀ holding ∈ state.held, 0 < holding.recorded →
      state.memory.backend.granule ∣ holding.address

variable {state : AllocatorState}

theorem Paged.of_granule {next : AllocatorState}
    (hsame : next.memory.backend.granule = state.memory.backend.granule)
    (h : FreeList.granule < state.memory.backend.granule → ∀ holding ∈ next.held,
      0 < holding.recorded → state.memory.backend.granule ∣ holding.address) : next.Paged := by
  unfold Paged
  rw [hsame]
  exact h

theorem allocate_paged {memory memory' : Memory} {layout : Layout} {block : Block}
    (hanswer : memory.allocate layout = .ok (block, memory'))
    (hunits : FreeList.granule < memory.backend.granule) (hfilled : 0 < block.size) :
    memory.backend.granule ∣ block.address := by
  obtain ⟨pages, hpages⟩ := Backend.exists_pages hunits
  have hcases := Memory.allocate_ok hanswer
  rw [hpages] at hcases ⊢
  obtain ⟨pages', hfound, -⟩ := hcases
  exact PageMap.allocate_at_page hfound hfilled

theorem reallocate_paged {memory memory' : Memory} {address wanted : Nat} {layout : Layout}
    {block : Block} (hanswer : memory.reallocate address layout wanted = .ok (block, memory'))
    (hunits : FreeList.granule < memory.backend.granule)
    (hold : 0 < layout.size → memory.backend.granule ∣ address) (hfilled : 0 < block.size) :
    memory.backend.granule ∣ block.address := by
  obtain ⟨pages, hpages⟩ := Backend.exists_pages hunits
  have hcases := Memory.reallocate_ok hanswer
  rw [hpages] at hcases hold ⊢
  obtain ⟨pages', hfound, -⟩ := hcases
  rcases PageMap.reallocate_ok hfound with
    ⟨-, rfl, -⟩ | ⟨-, -, -, hanew⟩ | ⟨hpos, -, -, ⟨haddress, -⟩ | ⟨moved, hobtain, -⟩⟩
  · exact hold hfilled
  · exact PageMap.allocate_at_page hanew hfilled
  · rw [haddress]
    exact hold hpos
  · exact PageMap.obtain?_aligned hobtain

/-- A block that has bytes has some after it was resized. -/
theorem reallocate_filled {memory memory' : Memory} {holding : Holding} {size wanted : Nat}
    (hhouses : memory.backend.Houses holding) (hfits : holding.Fits size) {block : Block}
    (hanswer : memory.reallocate holding.address (holding.layout size) wanted =
      .ok (block, memory'))
    (hfilled : 0 < max holding.recorded block.size) : 0 < block.size := by
  have hrounded := hhouses.roundUp_of_fits hfits
  have hle := Word.le_roundUp wanted memory.backend.granule_pos
  rcases (Memory.reallocate_granted hanswer).1 with ⟨-, rfl⟩ | ⟨hlt, hsize, -⟩
  · show 0 < size
    refine Nat.pos_of_ne_zero fun hzero => ?_
    rw [hzero, Word.roundUp_zero] at hrounded
    have hnone : max holding.recorded size = 0 := by omega
    exact Nat.ne_of_gt hfilled hnone
  · omega

theorem Paged.received (h : state.Paged) {layout : Layout}
    {answer : Except Refusal (Block × Memory)}
    (hanswer : ∀ block memory, answer = .ok (block, memory) → ∃ plain,
      state.memory.allocate layout = .ok (block, plain) ∧ memory.backend = plain.backend) :
    (state.received layout answer).Paged := by
  cases hgranted : answer with
  | error refusal => exact h
  | ok found =>
    obtain ⟨block, memory⟩ := found
    obtain ⟨plain, hfound, hbooks⟩ := hanswer block memory hgranted
    have hsame : memory.backend.granule = state.memory.backend.granule := by
      rw [hbooks]
      exact Memory.granule_allocate hfound
    refine .of_granule hsame fun hunits holding hmem hfilled => ?_
    rcases List.mem_cons.1 hmem with rfl | hmem
    · exact allocate_paged hfound hunits hfilled
    · exact h hunits holding hmem hfilled

theorem Paged.resized (h : state.Paged) {holding : Holding} {wanted : Nat}
    {answer : Except Refusal (Block × Memory)}
    (hanswer : ∀ block memory, answer = .ok (block, memory) →
      memory.backend.granule = state.memory.backend.granule ∧
        (FreeList.granule < state.memory.backend.granule →
          0 < max holding.recorded block.size →
          state.memory.backend.granule ∣ block.address)) :
    (state.resized holding wanted answer).Paged := by
  cases hgranted : answer with
  | error refusal => exact h
  | ok found =>
    obtain ⟨block, memory⟩ := found
    obtain ⟨hsame, hnew⟩ := hanswer block memory hgranted
    refine .of_granule hsame fun hunits other hmem hfilled => ?_
    rcases List.mem_cons.1 hmem with rfl | hmem
    · exact hnew hunits hfilled
    · exact h hunits other (List.mem_of_mem_erase hmem) hfilled

theorem Paged.performed (h : state.Paged) (horder : state.InOrder) {demand : Demand}
    (hpermits : state.Permits (.demand demand)) : (state.perform demand).Paged := by
  cases demand with
  | addRegion region => exact .of_granule (state.memory.granule_addRegion region) h
  | allocate layout => exact h.received fun block memory hfound => ⟨memory, hfound, rfl⟩
  | allocateZeroed layout =>
    refine h.received fun block memory hfound => ?_
    obtain ⟨plain, hplain, rfl⟩ := Memory.allocateZeroed_ok hfound
    exact ⟨plain, hplain, rfl⟩
  | expand holding size wanted =>
    obtain ⟨hheld, hfits⟩ := hpermits
    refine h.resized fun block memory hanswer => ?_
    obtain ⟨⟨count, grown⟩, hgrown, heq⟩ := Except.of_map_ok hanswer
    obtain ⟨rfl, rfl⟩ := Prod.mk.inj heq
    refine ⟨(Memory.expand_granted hgrown).2, fun hunits hfilled => ?_⟩
    -- A block that has bytes after it has grown in place had some before.
    refine h hunits holding hheld ?_
    rcases Nat.eq_zero_or_pos holding.recorded with hzero | hpos
    · rw [hzero, Nat.zero_max] at hfilled
      exact filled_of_expand (horder.kept holding hheld) hfits hunits hgrown hfilled
    · exact hpos
  | reallocate holding size wanted =>
    obtain ⟨hheld, hfits⟩ := hpermits
    refine h.resized fun block memory hanswer => ?_
    refine ⟨(Memory.reallocate_granted hanswer).2, fun hunits hfilled => ?_⟩
    refine reallocate_paged hanswer hunits (fun hpos => ?_) ?_
    · exact h hunits holding hheld (Nat.lt_of_lt_of_le hpos hfits.2)
    · exact reallocate_filled (horder.kept holding hheld).houses hfits hanswer hfilled
  | deallocate holding size =>
    refine .of_granule (Memory.granule_deallocate _ _ _) fun hunits other hmem => ?_
    exact h hunits other (List.mem_of_mem_erase hmem)

theorem Paged.undergo (h : state.Paged) (horder : state.InOrder) {occurrence : Occurrence}
    (hpermits : state.Permits occurrence) : (state.undergo occurrence).Paged := by
  cases occurrence with
  | demand demand => exact h.performed horder hpermits
  | write holding offset byte => exact h
  | advise address count hint =>
    exact .of_granule (congrArg Backend.granule (Memory.backend_advise _ _ _ _)) h
  | reset =>
    obtain ⟨⟨backend, bytes⟩, held, regions⟩ := state
    cases backend with
    | stack arena =>
      intro _ holding hmem
      cases hmem
    | freeList list | basic list | heap heap | pages pages => exact h

theorem Paged.live (h : state.Paged) (horder : state.InOrder) {occurrences : List Occurrence}
    (hpermitted : state.Permitted occurrences) : (state.live occurrences).Paged := by
  induction occurrences generalizing state with
  | nil => exact h
  | cons first later ih =>
    exact ih (h.undergo horder hpermitted.1) (horder.undergo hpermitted.1) hpermitted.2

/-! ## What a hint changes -/

/-- What comes of a hint about `count` bytes of a block from an offset on.  The bytes that a
discarded range takes with it are on its first and on its last page. -/
structure Hinted (state : AllocatorState) (pages : PageMap) (holding : Holding) (offset count : Nat)
    (hint : UsageHint) (after : Memory) : Prop where
  books : after.backend = state.memory.backend
  /-- Only a range that is discarded changes any contents. -/
  kept : hint ≠ .dontNeed → after = state.memory
  outside : ∀ address, address ∉ holding.span →
    after.bytes address = state.memory.bytes address
  neighbours : ∀ other ∈ state.held.erase holding, ∀ address ∈ other.span,
    after.bytes address = state.memory.bytes address
  discarded : hint = .dontNeed → ∀ address,
    after.bytes address =
      if address ∈ pages.advised (holding.address + offset) count then 0
      else state.memory.bytes address
  /-- Whole pages take nothing with them. -/
  whole : pages.pageSize ∣ offset → pages.pageSize ∣ count →
    ∀ address, ¬ (holding.address + offset ≤ address ∧ address < holding.address + offset + count) →
      after.bytes address = state.memory.bytes address

theorem Paged.hinted (h : state.Paged) (horder : state.InOrder) {pages : PageMap}
    (hpages : state.memory.backend = .pages pages) {holding : Holding}
    (hheld : holding ∈ state.held) (hfilled : 0 < holding.recorded) {offset count : Nat}
    (hwithin : offset + count ≤ holding.recorded) (hint : UsageHint) :
    Hinted state pages holding offset count hint
      (state.memory.advise (holding.address + offset) count hint) := by
  have hgranule : state.memory.backend.granule = pages.pageSize := congrArg Backend.granule hpages
  have hfirst : pages.pageSize ∣ holding.address := by
    rw [← hgranule]
    exact h (hgranule ▸ pages.granule_lt_pageSize) holding hheld hfilled
  have hsize : pages.pageSize ∣ holding.recorded := by
    rw [(horder.kept holding hheld).houses.rounded, hgranule]
    exact Word.dvd_roundUp _ _
  have hunreached {address : Nat}
      (hout : address ∉ pages.advised (holding.address + offset) count) :
      (state.memory.advise (holding.address + offset) count hint).bytes address =
        state.memory.bytes address := by
    by_cases hdiscard : hint = .dontNeed
    · rw [hdiscard, Memory.discard_bytes hpages, if_neg hout]
    · rw [Memory.advise_kept hdiscard]
  have houtside {address : Nat} (hout : address ∉ holding.span) :
      address ∉ pages.advised (holding.address + offset) count := fun hin =>
    hout (PageMap.advised_within hfirst hsize (Nat.le_add_right _ _)
      (by simp only [Holding.span, Span.stop]; omega) hin)
  constructor
  case books => exact Memory.backend_advise _ _ _ _
  case kept => exact Memory.advise_kept
  case outside => exact fun address hout => hunreached (houtside hout)
  case neighbours =>
    intro other hother address hin
    exact hunreached (houtside (horder.apart_erase hheld other hother address hin))
  case discarded =>
    rintro rfl address
    exact Memory.discard_bytes hpages
  case whole =>
    intro hoffset hcount address hout
    refine hunreached ?_
    rw [PageMap.advised_of_dvd ((Nat.dvd_add_iff_right hfirst).1 hoffset) hcount]
    exact hout

/-- In every state that can be reached among pages, a hint about a part of a block changes
nothing outside of the block and nothing besides the pages that the part overlaps. -/
theorem hints_stay_in_block {memory : Memory} (hunused : memory.backend.Unused)
    {occurrences : List Occurrence}
    (hpermitted : (AllocatorState.mk memory [] []).Permitted occurrences)
    {pages : PageMap}
    (hpages : ((AllocatorState.mk memory [] []).live occurrences).memory.backend = .pages pages)
    {holding : Holding} (hheld : holding ∈ ((AllocatorState.mk memory [] []).live occurrences).held)
    (hfilled : 0 < holding.recorded) {offset count : Nat}
    (hwithin : offset + count ≤ holding.recorded) (hint : UsageHint) :
    Hinted ((AllocatorState.mk memory [] []).live occurrences) pages holding offset count hint
      (((AllocatorState.mk memory [] []).live occurrences).memory.advise
        (holding.address + offset) count hint) := by
  have horder := inOrder_unused hunused
  have hpaged : Paged ⟨memory, [], []⟩ := fun _ _ hmem => absurd hmem List.not_mem_nil
  exact (hpaged.live horder hpermitted).hinted (horder.live hpermitted) hpages hheld hfilled
    hwithin hint

/-- Two pages in one block, the first byte of which is written. -/
def inked : List Occurrence :=
  [.demand (.allocate ⟨8192, 8⟩), .write ⟨65536, 8, 8192, 8192⟩ 0 7,
    .write ⟨65536, 8, 8192, 8192⟩ 5000 9]

def inkedMemory : Memory := ((AllocatorState.mk ⟨.pages {}, fun _ => 0⟩ [] []).live inked).memory

theorem hints_stay_in_block_inked :
    (AllocatorState.mk ⟨.pages {}, fun _ => 0⟩ [] []).Permitted inked ∧
      Hinted ((AllocatorState.mk ⟨.pages {}, fun _ => 0⟩ [] []).live inked)
        { mapped := [⟨65536, 8192⟩], met := 1 } ⟨65536, 8, 8192, 8192⟩ 100 10 .dontNeed
        (inkedMemory.advise 65636 10 .dontNeed) := by
  have hpermitted : (AllocatorState.mk ⟨.pages {}, fun _ => 0⟩ [] []).Permitted inked := by
    decide +kernel
  have hunused : Backend.Unused (.pages {}) := rfl
  have hheld : Holding.mk 65536 8 8192 8192 ∈
      ((AllocatorState.mk ⟨.pages {}, fun _ => 0⟩ [] []).live inked).held := by decide +kernel
  exact ⟨hpermitted, hints_stay_in_block hunused hpermitted rfl hheld (by decide) (by decide) _⟩

/-- Ten bytes are discarded, of a block that is held: a byte before them on their page is lost
too, and the byte on the next page stays.  Discarding no bytes at all loses the same byte. -/
theorem discard_clears_page_mates :
    ((AllocatorState.mk ⟨.pages {}, fun _ => 0⟩ [] []).Permitted inked ∧
      Holding.mk 65536 8 8192 8192 ∈
        ((AllocatorState.mk ⟨.pages {}, fun _ => 0⟩ [] []).live inked).held ∧ 100 + 10 ≤ 8192) ∧
    (inkedMemory.bytes 65536 = 7 ∧
      (inkedMemory.advise (65536 + 100) 10 .dontNeed).bytes 65536 = 0 ∧
      (inkedMemory.advise (65536 + 100) 0 .dontNeed).bytes 65536 = 0) ∧
    (inkedMemory.advise (65536 + 100) 10 .dontNeed).bytes (65536 + 5000) = 9 := by
  decide +kernel

end AllocatorState
end Freehold
