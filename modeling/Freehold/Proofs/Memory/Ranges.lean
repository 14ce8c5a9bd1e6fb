import Freehold.Proofs.Memory.Refusals
import Freehold.Proofs.Memory.Words

/-!
# Answers within the range of a word

An arena or a free list answers a request with a block that is large enough and ends below the
limit of a word, or says that a size, or a lack of room for it, is to blame.  So a request for
which there is no room anywhere in its memory is refused, and with it every request that is too
large for a word.
-/

namespace Freehold

/-- A size, or a lack of room for it, is to blame. -/
def ErrorKind.OfSize (kind : ErrorKind) : Prop :=
  kind = .integerOverflow ∨ kind = .allocationFailed ∨ kind = .inPlaceGrowthFailed

theorem ErrorKind.ofSize_integerOverflow : ErrorKind.OfSize .integerOverflow := Or.inl rfl

theorem ErrorKind.ofSize_allocationFailed : ErrorKind.OfSize .allocationFailed :=
  Or.inr (Or.inl rfl)

theorem ErrorKind.ofSize_inPlaceGrowthFailed : ErrorKind.OfSize .inPlaceGrowthFailed :=
  Or.inr (Or.inr rfl)

/-! ## What a refusal blames -/

/-- If there is a refusal, it blames a size. -/
def BlamesSize {γ : Type} : Except Refusal γ → Prop
  | .ok _ => True
  | .error refusal => refusal.kind.OfSize

theorem BlamesSize.map {γ δ : Type} {answer : Except Refusal γ} (h : BlamesSize answer)
    (change : γ → δ) : BlamesSize (answer.map change) := by
  cases answer with
  | ok value => trivial
  | error refusal => exact h

namespace StackArena

variable (arena : StackArena)

theorem allocate_blames (layout : Layout) : BlamesSize (arena.allocate layout) := by
  unfold allocate
  split
  · trivial
  split
  · exact ErrorKind.ofSize_allocationFailed
  split
  · exact ErrorKind.ofSize_allocationFailed
  split
  · exact ErrorKind.ofSize_allocationFailed
  · trivial

theorem expand_blames (address : Nat) (layout : Layout) (wanted : Nat) :
    BlamesSize (arena.expand address layout wanted) := by
  unfold expand
  split
  · trivial
  split
  · exact ErrorKind.ofSize_inPlaceGrowthFailed
  split
  · exact ErrorKind.ofSize_inPlaceGrowthFailed
  split
  · exact ErrorKind.ofSize_inPlaceGrowthFailed
  · trivial

end StackArena

namespace FreeList

variable (list : FreeList)

theorem allocate_blames (layout : Layout) : BlamesSize (list.allocate layout) := by
  unfold allocate
  split
  · trivial
  split
  · exact ErrorKind.ofSize_integerOverflow
  split
  · exact ErrorKind.ofSize_allocationFailed
  · trivial

theorem expand_blames (address : Nat) (layout : Layout) (wanted : Nat) :
    BlamesSize (list.expand address layout wanted) := by
  unfold expand
  split
  · trivial
  split
  · split
    · trivial
    split
    · exact ErrorKind.ofSize_inPlaceGrowthFailed
    · trivial
  · exact ErrorKind.ofSize_integerOverflow

end FreeList

namespace Memory

variable {memory : Memory} {regions : List Span} (h : memory.backend.Below regions)

include h

theorem allocate_blames (layout : Layout) : BlamesSize (memory.allocate layout) := by
  unfold allocate
  cases hbackend : memory.backend with
  | stack arena => exact (arena.allocate_blames layout).map _
  | freeList list => exact (list.allocate_blames layout).map _
  | basic list | heap heap | pages pages =>
    rw [hbackend] at h
    exact h.elim

theorem expand_blames (address : Nat) (layout : Layout) (wanted : Nat) :
    BlamesSize (memory.expand address layout wanted) := by
  unfold expand
  cases hbackend : memory.backend with
  | stack arena => exact (arena.expand_blames address layout wanted).map _
  | freeList list => exact (list.expand_blames address layout wanted).map _
  | basic list | heap heap | pages pages =>
    rw [hbackend] at h
    exact h.elim

theorem reallocateByCopy_blames (address : Nat) (layout : Layout) (wanted : Nat) :
    BlamesSize (memory.reallocateByCopy address layout wanted) := by
  unfold reallocateByCopy
  split
  · trivial
  split
  · trivial
  split
  · exact ErrorKind.ofSize_integerOverflow
  rename_i fresh _
  have hblames := allocate_blames h fresh
  split
  · rename_i refusal hrefused
    rwa [hrefused] at hblames
  · trivial

/-- Only the heap and the system have a way of their own to resize a block. -/
theorem reallocate_eq (address : Nat) (layout : Layout) (wanted : Nat) :
    memory.reallocate address layout wanted = memory.reallocateByCopy address layout wanted := by
  unfold reallocate
  cases hbackend : memory.backend with
  | stack arena | freeList list | basic list => rfl
  | heap heap | pages pages =>
    rw [hbackend] at h
    exact h.elim

end Memory

/-! ## Room in memory -/

namespace Backend

variable {regions : List Span} {backend backend' : Backend}

/-- Nowhere in the memory of the allocator is there an aligned place for so many bytes, rounded
up to whole units. -/
def Lacks (regions : List Span) (backend : Backend) (layout : Layout) : Prop :=
  ∀ span : Span, layout.align ∣ span.start →
    Word.roundUp layout.size backend.granule ≤ span.size →
      ∃ address ∈ span, ¬ backend.Reach regions address

theorem Continues.reach (h : backend.Continues backend') {address : Nat}
    (hreach : backend'.Reach regions address) : backend.Reach regions address := by
  cases backend <;> cases backend' <;> try exact h.elim
  case stack.stack arena arena' =>
    obtain ⟨hbase, hcapacity, -⟩ := h
    simpa only [Reach, hbase, hcapacity] using hreach
  all_goals exact hreach

/-- An answer to a request that computes in words.  A block is large enough and ends below the
limit; a refusal blames a size; and where there is no room, there is a refusal. -/
structure Meets {σ : Type} (regions : List Span) (backend : Backend) (layout : Layout)
    (answer : Except Refusal (Block × σ)) : Prop where
  served : ∀ block rest, answer = .ok (block, rest) →
    layout.size ≤ block.size ∧ block.address + block.size < Word.limit
  refused : ∀ refusal, answer = .error refusal → refusal.kind.OfSize
  lacking : backend.Lacks regions layout → ∃ refusal, answer = .error refusal

/-- A block that is handed out, with the place that it shows to be there. -/
structure Places (regions : List Span) (backend : Backend) (layout : Layout) (block : Block)
    (place : Span) : Prop where
  large : layout.size ≤ block.size
  stop_lt : block.address + block.size < Word.limit
  aligned : layout.align ∣ place.start
  room : Word.roundUp layout.size backend.granule ≤ place.size
  reach : ∀ address ∈ place, backend.Reach regions address

theorem Places.not_lacks {layout : Layout} {block : Block} {place : Span}
    (h : backend.Places regions layout block place) : ¬ backend.Lacks regions layout := by
  intro hlacks
  obtain ⟨address, hin, hout⟩ := hlacks place h.aligned h.room
  exact hout (h.reach address hin)

theorem Meets.of_places {σ : Type} {layout : Layout} {answer : Except Refusal (Block × σ)}
    (hblames : BlamesSize answer)
    (hplaces : ∀ block rest, answer = .ok (block, rest) →
      ∃ place, backend.Places regions layout block place) :
    backend.Meets regions layout answer where
  served block rest hanswer := by
    obtain ⟨place, hplace⟩ := hplaces block rest hanswer
    exact ⟨hplace.large, hplace.stop_lt⟩
  refused refusal hanswer := by
    rw [hanswer] at hblames
    exact hblames
  lacking hlacks := by
    cases hanswer : answer with
    | error refusal => exact ⟨refusal, rfl⟩
    | ok found =>
      obtain ⟨place, hplace⟩ := hplaces found.1 found.2 hanswer
      exact absurd hlacks hplace.not_lacks

end Backend

namespace Memory

variable {memory memory' : Memory} {regions : List Span} {layout : Layout} {block : Block}
  {holding : Holding} {size wanted count : Nat}

theorem dangling_of_allocate (h : memory.backend.Below regions) (hzero : layout.size = 0)
    (hanswer : memory.allocate layout = .ok (block, memory')) : block = .dangling layout.align := by
  have hcases := allocate_ok hanswer
  cases hbackend : memory.backend with
  | stack arena =>
    rw [hbackend] at hcases
    obtain ⟨arena', hfound, -⟩ := hcases
    rcases StackArena.allocate_ok hfound with ⟨-, hblock, -⟩ | ⟨hpos, -⟩
    · exact hblock
    · omega
  | freeList list =>
    rw [hbackend] at hcases
    obtain ⟨list', hfound, -⟩ := hcases
    rcases FreeList.allocate_ok hfound with ⟨-, hblock, -⟩ | ⟨hpos, -⟩
    · exact hblock
    · omega
  | basic list | heap heap | pages pages =>
    rw [hbackend] at h
    exact h.elim

section Solid

variable (h : memory.backend.Solid regions)

include h

theorem allocate_places (hvalid : layout.Valid)
    (hanswer : memory.allocate layout = .ok (block, memory')) :
    memory.backend.Places regions layout block block.span := by
  obtain ⟨hsize, haligned⟩ := allocate_granted hvalid hanswer
  have hcontinues := continues_allocate hanswer
  have hpasses := (allocate_grants h.orderly hvalid hanswer).passes
  have htaken := (hpasses.within hcontinues h.bounded fun address hin =>
    absurd hin (Span.not_mem_nothing address)).2.2
  have hlarge : layout.size ≤ block.size := hsize ▸ Word.le_roundUp _ memory.backend.granule_pos
  refine ⟨hlarge, ?_, haligned, Nat.le_of_eq hsize.symm, fun address hin =>
    hcontinues.reach (htaken address hin)⟩
  rcases Nat.eq_zero_or_pos block.size with hnone | hpos
  · rw [dangling_of_allocate h.below (by omega) hanswer]
    exact Nat.lt_of_le_of_lt hvalid.align_le (by decide)
  · have hstop : block.span.stop < Word.limit :=
      (h.below.continues hcontinues).stop_lt hpos htaken
    exact hstop

theorem allocate_meets (hvalid : layout.Valid) :
    memory.backend.Meets regions layout (memory.allocate layout) :=
  .of_places (allocate_blames h.below layout) fun _ _ hanswer =>
    ⟨_, allocate_places h hvalid hanswer⟩

variable (hkept : memory.backend.Keeps regions holding) (hfilled : 0 < holding.recorded)

include hkept hfilled

theorem resizes_places (hfits : holding.Fits size)
    (hresizes : memory.Resizes holding wanted count block memory')
    (hcontinues : memory.backend.Continues memory'.backend)
    (hsize : (wanted ≤ size ∧ block.size = size) ∨
      block.size = Word.roundUp wanted memory.backend.granule)
    (haligned : holding.align ∣ block.address) :
    memory.backend.Places regions (holding.layout wanted) block
      (holding.resized wanted block).span := by
  have htaken := (hresizes.passes.within hcontinues h.bounded hkept.reach).2.2
  have hround := hkept.houses.roundUp_of_fits hfits
  have hunits := Word.le_roundUp wanted memory.backend.granule_pos
  have hrecorded : (holding.resized wanted block).span.size = max holding.recorded block.size := rfl
  have hstop := (h.below.continues hcontinues).stop_lt (by omega) htaken
  refine ⟨?_, ?_, haligned, ?_, fun address hin => hcontinues.reach (htaken address hin)⟩
  · show wanted ≤ block.size
    omega
  · have hend : block.address + max holding.recorded block.size < Word.limit := hstop
    omega
  · show Word.roundUp wanted memory.backend.granule ≤ max holding.recorded block.size
    rcases hsize with ⟨hle, -⟩ | hsize
    · have hmono := Word.roundUp_mono memory.backend.granule_pos hle
      omega
    · omega

theorem expand_places (hfits : holding.Fits size) {count : Nat}
    (hanswer : memory.expand holding.address (holding.layout size) wanted = .ok (count, memory')) :
    ∃ place, memory.backend.Places regions (holding.layout wanted) ⟨holding.address, count⟩ place :=
  ⟨_, resizes_places h hkept hfilled hfits
    (expand_resizes h.orderly hkept.houses hfits hanswer) (continues_expand hanswer)
    ((expand_granted hanswer).1.imp_right And.right) hkept.aligned⟩

theorem reallocate_places (hfits : holding.Fits size)
    (hanswer : memory.reallocate holding.address (holding.layout size) wanted =
      .ok (block, memory')) :
    ∃ place, memory.backend.Places regions (holding.layout wanted) block place := by
  have hsize : (wanted ≤ size ∧ block.size = size) ∨
      block.size = Word.roundUp wanted memory.backend.granule := by
    rcases (reallocate_granted hanswer).1 with ⟨hle, rfl⟩ | ⟨-, hrounded, -⟩
    · exact Or.inl ⟨hle, rfl⟩
    · exact Or.inr hrounded
  exact ⟨_, resizes_places h hkept hfilled hfits
    (reallocate_resizes h.orderly hkept.houses hfits hanswer) (continues_reallocate hanswer) hsize
    (AllocatorState.reallocate_aligned hkept hfits hanswer).1⟩

theorem expand_meets (hfits : holding.Fits size) (wanted : Nat) :
    memory.backend.Meets regions (holding.layout wanted)
      ((memory.expand holding.address (holding.layout size) wanted).map fun grown =>
        ((⟨holding.address, grown.1⟩ : Block), grown.2)) := by
  have hblames := expand_blames h.below holding.address (holding.layout size) wanted
  refine .of_places (hblames.map _) fun block rest hanswer => ?_
  obtain ⟨grown, hgrown, heq⟩ := Except.of_map_ok hanswer
  obtain ⟨rfl, -⟩ := Prod.mk.inj heq
  exact expand_places h hkept hfilled hfits hgrown

theorem reallocate_meets (hfits : holding.Fits size) (wanted : Nat) :
    memory.backend.Meets regions (holding.layout wanted)
      (memory.reallocate holding.address (holding.layout size) wanted) := by
  refine .of_places ?_ fun block rest hanswer => reallocate_places h hkept hfilled hfits hanswer
  rw [reallocate_eq h.below]
  exact reallocateByCopy_blames h.below _ _ _

end Solid

end Memory

/-! ## Reachable states -/

namespace AllocatorState

variable {state : AllocatorState}

section Held

variable {good : Holding → Prop}
  (hnew : ∀ layout block, layout.Valid → good (.of layout block))
  (hresized : ∀ holding wanted block, good holding → good (holding.resized wanted block))

include hnew in
theorem good_of_received (hgood : ∀ holding ∈ state.held, good holding) {layout : Layout}
    (hvalid : layout.Valid) (answer : Except Refusal (Block × Memory)) :
    ∀ holding ∈ (state.received layout answer).held, good holding := by
  cases answer with
  | error refusal => exact hgood
  | ok found =>
    intro holding hmem
    rcases List.mem_cons.1 hmem with rfl | hmem
    · exact hnew layout found.1 hvalid
    · exact hgood holding hmem

include hresized in
theorem good_of_resized (hgood : ∀ holding ∈ state.held, good holding) {holding : Holding}
    (hheld : holding ∈ state.held) (wanted : Nat) (answer : Except Refusal (Block × Memory)) :
    ∀ other ∈ (state.resized holding wanted answer).held, good other := by
  cases answer with
  | error refusal => exact hgood
  | ok found =>
    intro other hmem
    rcases List.mem_cons.1 hmem with rfl | hmem
    · exact hresized holding wanted found.1 (hgood holding hheld)
    · exact hgood other (List.mem_of_mem_erase hmem)

include hnew hresized

/-- What holds of every new block, and of a block that is resized, holds of all blocks in use. -/
theorem good_of_undergo (hgood : ∀ holding ∈ state.held, good holding) {occurrence : Occurrence}
    (hpermits : state.Permits occurrence) :
    ∀ holding ∈ (state.undergo occurrence).held, good holding := by
  cases occurrence with
  | demand demand =>
    cases demand with
    | addRegion region => exact hgood
    | allocate layout | allocateZeroed layout => exact good_of_received hnew hgood hpermits _
    | expand holding size wanted | reallocate holding size wanted =>
      exact good_of_resized hresized hgood hpermits.1 wanted _
    | deallocate holding size =>
      exact fun other hmem => hgood other (List.mem_of_mem_erase hmem)
  | write holding offset byte | advise address count hint => exact hgood
  | reset =>
    obtain ⟨⟨backend, bytes⟩, held, regions⟩ := state
    cases backend with
    | stack arena => exact fun holding hmem => nomatch hmem
    | freeList list | basic list | heap heap | pages pages => exact hgood

theorem good_of_live (hgood : ∀ holding ∈ state.held, good holding)
    {occurrences : List Occurrence} (hpermitted : state.Permitted occurrences) :
    ∀ holding ∈ (state.live occurrences).held, good holding := by
  induction occurrences generalizing state with
  | nil => exact hgood
  | cons occurrence later ih =>
    exact ih (good_of_undergo hnew hresized hgood hpermitted.1) hpermitted.2

end Held

/-- A state in which the allocator computes in words. -/
structure Solid (state : AllocatorState) : Prop where
  backend : state.memory.backend.Solid state.regions
  kept : ∀ holding ∈ state.held, state.memory.backend.Keeps state.regions holding
  align_le : ∀ holding ∈ state.held, holding.align ≤ 1 <<< 63

theorem solid_live {memory : Memory} (hunused : memory.backend.Unused)
    {occurrences : List Occurrence} (hpermitted : Permitted { memory := memory } occurrences)
    (hbelow : (live { memory := memory } occurrences).memory.backend.Below
      (live { memory := memory } occurrences).regions) :
    (live { memory := memory } occurrences).Solid := by
  have horder := (inOrder_unused hunused).live hpermitted
  have htallied : memory.backend.Tallied := by
    cases hbackend : memory.backend with
    | stack arena | heap heap | pages pages => trivial
    | freeList list | basic list =>
      rw [hbackend] at hunused
      obtain rfl : list = {} := hunused
      rfl
  refine ⟨⟨horder.orderly, horder.bounded, Backend.tallied_lasting.live htallied occurrences,
    hbelow⟩, horder.kept, ?_⟩
  refine good_of_live ?_ ?_ (fun holding hmem => nomatch hmem) hpermitted
  · exact fun layout block hvalid => hvalid.align_le
  · exact fun holding wanted block hle => hle

/-- Every request is computed without a step that wraps, and what is answered meets it. -/
structure Reckons (state : AllocatorState) : Prop where
  allocate : ∀ layout : Layout, layout.Valid →
    state.memory.allocateInWords layout = some (state.memory.allocate layout) ∧
      state.memory.backend.Meets state.regions layout (state.memory.allocate layout)
  expand : ∀ holding ∈ state.held, ∀ size wanted, 0 < holding.recorded → holding.Fits size →
    state.memory.expandInWords holding.address (holding.layout size) wanted =
        some (state.memory.expand holding.address (holding.layout size) wanted) ∧
      state.memory.backend.Meets state.regions (holding.layout wanted)
        ((state.memory.expand holding.address (holding.layout size) wanted).map fun grown =>
          ((⟨holding.address, grown.1⟩ : Block), grown.2))
  reallocateByCopy : ∀ holding ∈ state.held, ∀ size wanted, 0 < holding.recorded →
    holding.Fits size →
      state.memory.reallocateByCopyInWords holding.address (holding.layout size) wanted =
          some (state.memory.reallocateByCopy holding.address (holding.layout size) wanted) ∧
        state.memory.backend.Meets state.regions (holding.layout wanted)
          (state.memory.reallocateByCopy holding.address (holding.layout size) wanted)
  deallocate : ∀ holding ∈ state.held, ∀ size, 0 < holding.recorded → holding.Fits size →
    state.memory.deallocateInWords holding.address (holding.layout size) =
      some (state.memory.deallocate holding.address (holding.layout size))
  addRegion : ∀ region : Span, (∀ other ∈ state.regions, Span.Apart other region) →
    region.stop < Word.limit →
      state.memory.addRegionInWords region = some (state.memory.addRegion region)

theorem Solid.reckons (h : state.Solid) : state.Reckons where
  allocate layout hvalid :=
    ⟨Memory.allocateInWords_eq h.backend hvalid, Memory.allocate_meets h.backend hvalid⟩
  expand holding hheld size wanted hfilled hfits := by
    have hkept := h.kept holding hheld
    exact ⟨Memory.expandInWords_eq h.backend hkept hfilled hfits wanted,
      Memory.expand_meets h.backend hkept hfilled hfits wanted⟩
  reallocateByCopy holding hheld size wanted hfilled hfits := by
    have hkept := h.kept holding hheld
    have hmeets := Memory.reallocate_meets h.backend hkept hfilled hfits wanted
    rw [Memory.reallocate_eq h.backend.below] at hmeets
    exact ⟨Memory.reallocateByCopyInWords_eq h.backend hkept hfilled hfits
      (h.align_le holding hheld) wanted, hmeets⟩
  deallocate holding hheld size hfilled hfits :=
    Memory.deallocateInWords_eq h.backend (h.kept holding hheld) hfilled hfits
  addRegion _ hapart hstop := Memory.addRegionInWords_eq h.backend hapart hstop

end AllocatorState

/-! ## Calls -/

namespace Allocator

variable {γ : Type}

/-- A request that is counted and put on record.  The memory computes its answer in words. -/
def countedInWords (ask : Memory → Option (Except Refusal (γ × Memory)))
    (call : Except ErrorKind γ → Call) : Reckoning γ := fun store =>
  (ask store.memory).map fun answer => counted (fun _ => answer) call store

def allocateInWords (layout : Layout) : Reckoning Block :=
  countedInWords (fun memory => memory.allocateInWords layout) (Call.allocate layout)

def reallocateInWords (address : Nat) (layout : Layout) (wanted : Nat) : Reckoning Block :=
  countedInWords (fun memory => memory.reallocateInWords address layout wanted)
    (Call.reallocate address layout.size wanted)

def expandInWords (address : Nat) (layout : Layout) (wanted : Nat) : Reckoning Nat := fun store =>
  (store.memory.expandInWords address layout wanted).map fun answer =>
    (do
      let answer ← consult fun _ => answer
      Effect.record (.call (.expand address layout.size wanted answer))
      pure answer : Effect (Except ErrorKind Nat)) store

variable {store : Store}

theorem exact_counted {ask : Memory → Except Refusal (γ × Memory)}
    {ask' : Memory → Option (Except Refusal (γ × Memory))}
    (h : ask' store.memory = some (ask store.memory)) (call : Except ErrorKind γ → Call) :
    (countedInWords ask' call).Exact (counted ask call) store := by
  unfold Reckoning.Exact countedInWords counted
  rw [h, Option.map_some, Effect.bind_apply, Effect.bind_apply]
  cases (refusedByPlan store).1 with
  | true => rfl
  | false => rfl

theorem exact_expand {address wanted : Nat} {layout : Layout}
    (h : store.memory.expandInWords address layout wanted =
      some (store.memory.expand address layout wanted)) :
    (expandInWords address layout wanted).Exact (expand address layout wanted) store := by
  unfold Reckoning.Exact expandInWords
  rw [h]
  rfl

/-- An answer to a request that stays within the range of a word.  A request that is refused
leaves the memory alone. -/
def Ranged (regions : List Span) (memory : Memory) (layout : Layout) :
    Except ErrorKind Block × Store → Prop
  | (.ok block, _) =>
    layout.size ≤ block.size ∧ block.address + block.size < Word.limit ∧
      ¬ memory.backend.Lacks regions layout
  | (.error kind, after) => kind.OfSize ∧ after.memory = memory

theorem counted_ranged {ask : Memory → Except Refusal (Block × Memory)} {regions : List Span}
    {layout : Layout} (hmeets : store.memory.backend.Meets regions layout (ask store.memory))
    (call : Except ErrorKind Block → Call) :
    Ranged regions store.memory layout (counted ask call store) := by
  unfold counted
  rw [Effect.bind_apply]
  cases hrefused : (refusedByPlan store).1 with
  | true => exact ⟨ErrorKind.ofSize_allocationFailed, rfl⟩
  | false =>
    simp only [Bool.false_eq_true, if_false, Effect.bind_apply]
    have hanswered := consult_answered ask (refusedByPlan store).2
    cases hanswer : consult ask (refusedByPlan store).2 with
    | mk answer middle =>
      rw [hanswer] at hanswered
      cases answer with
      | ok block =>
        have hfound : ask store.memory = .ok (block, middle.memory) := hanswered
        obtain ⟨hlarge, hstop⟩ := hmeets.served block middle.memory hfound
        refine ⟨hlarge, hstop, fun hlacks => ?_⟩
        obtain ⟨refusal, hrefusal⟩ := hmeets.lacking hlacks
        cases hrefusal.symm.trans hfound
      | error kind =>
        obtain ⟨-, refusal, hrefusal, rfl⟩ := consult_spared hanswer
        exact ⟨hmeets.refused refusal hrefusal, hanswered⟩

section Allocate

variable {regions : List Span} {layout : Layout} (h : store.memory.backend.Solid regions)
  (hvalid : layout.Valid)

include h hvalid

theorem allocate_exact : (allocateInWords layout).Exact (allocate layout) store :=
  exact_counted (Memory.allocateInWords_eq h hvalid) _

theorem allocate_ranged : Ranged regions store.memory layout (allocate layout store) :=
  counted_ranged (Memory.allocate_meets h hvalid) _

end Allocate

end Allocator
end Freehold
