import Freehold.Proofs.Memory.Contract
import Freehold.Proofs.Memory.Sizes

/-!
# Runs that differ in sizes

The same requests are made of two allocators of the same kind.  Each time a block is
resized or given back, either run passes a size of its own that fits the block.  Step by step
both allocators keep the same books, both users hold the same blocks, and they are told the
same.
-/

namespace Freehold
namespace AllocatorState

/-- What is to be done, but for the size that is passed for a block.  A block is named by its
place among the blocks in use, of which the latest comes first. -/
inductive Request where
  | addRegion (region : Span)
  | allocate (layout : Layout)
  | allocateZeroed (layout : Layout)
  | expand (place wanted : Nat)
  | reallocate (place wanted : Nat)
  | deallocate (place : Nat)
  | write (place offset : Nat) (byte : UInt8)
  | advise (address count : Nat) (hint : UsageHint)
  deriving DecidableEq

/-- A request, and the size that is passed for its block. -/
abbrev Step := Request × Nat

/-- What happens in a step, if there is a block at its place. -/
def occurrence? (state : AllocatorState) : Step → Option Occurrence
  | (.addRegion region, _) => some (.demand (.addRegion region))
  | (.allocate layout, _) => some (.demand (.allocate layout))
  | (.allocateZeroed layout, _) => some (.demand (.allocateZeroed layout))
  | (.expand place wanted, size) =>
    state.held[place]?.map fun holding => .demand (.expand holding size wanted)
  | (.reallocate place wanted, size) =>
    state.held[place]?.map fun holding => .demand (.reallocate holding size wanted)
  | (.deallocate place, size) =>
    state.held[place]?.map fun holding => .demand (.deallocate holding size)
  | (.write place offset byte, _) =>
    state.held[place]?.map fun holding => .write holding offset byte
  | (.advise address count hint, _) => some (.advise address count hint)

def attend (state : AllocatorState) (step : Step) : AllocatorState :=
  match state.occurrence? step with
  | none => state
  | some occurrence => state.undergo occurrence

/-- There is a block at the place of the step, and its size fits that block. -/
def Admits (state : AllocatorState) (step : Step) : Prop :=
  match state.occurrence? step with
  | none => False
  | some occurrence => state.Permits occurrence

instance (state : AllocatorState) (step : Step) : Decidable (state.Admits step) :=
  match h : state.occurrence? step with
  | none => .isFalse (by simp [Admits, h])
  | some occurrence => decidable_of_iff (state.Permits occurrence) (by simp [Admits, h])

def attendAll (state : AllocatorState) (steps : List Step) : AllocatorState :=
  steps.foldl attend state

/-- Every step is admitted when its turn comes. -/
def AdmitsAll (state : AllocatorState) : List Step → Prop
  | [] => True
  | step :: later => state.Admits step ∧ (state.attend step).AdmitsAll later

instance decidableAdmitsAll (state : AllocatorState) :
    (steps : List Step) → Decidable (state.AdmitsAll steps)
  | [] => .isTrue trivial
  | step :: later =>
    have := decidableAdmitsAll (state.attend step) later
    inferInstanceAs (Decidable (_ ∧ _))

/-! ## What is compared -/

/-- The same books, and the same blocks in use. -/
structure Twin (first second : AllocatorState) : Prop where
  books : first.memory.backend = second.memory.backend
  held : first.held = second.held
  regions : first.regions = second.regions

/-- What the user is told: the address of a block, or why the demand was refused. -/
def told (state : AllocatorState) (step : Step) : Option (Except Refusal Nat) :=
  match state.occurrence? step with
  | some (.demand demand) => (state.memory.answer demand).map (·.map Block.address)
  | _ => none

/-- The range in whole granules that the allocator takes a block to have. -/
def range? (state : AllocatorState) (step : Step) : Option Span :=
  match state.occurrence? step with
  | some (.demand (.expand holding size _)) | some (.demand (.reallocate holding size _))
  | some (.demand (.deallocate holding size)) =>
    some ⟨holding.address, Word.roundUp size state.memory.backend.granule⟩
  | _ => none

/-- A block that is moved keeps every byte up to the largest size that was asked for. -/
def Preserves (state : AllocatorState) (step : Step) : Prop :=
  match state.occurrence? step with
  | some (.demand (.reallocate holding size wanted)) => ∀ block memory,
    state.memory.reallocate holding.address (holding.layout size) wanted = .ok (block, memory) →
      ∀ offset < holding.requested,
        memory.bytes (block.address + offset) = state.memory.bytes (holding.address + offset)
  | _ => True

/-- The two runs do not differ in a step. -/
structure SameStep (first second : AllocatorState) (step step' : Step) : Prop where
  told : first.told step = second.told step'
  range : first.range? step = second.range? step'
  preserves : first.Preserves step ∧ second.Preserves step'

/-! ## One run -/

/-- The allocator stays of its kind, and recorded sizes are words. -/
structure Lasting (state : AllocatorState) : Prop where
  rounds : state.memory.backend.Rounds
  words : ∀ holding ∈ state.held, holding.recorded < Word.limit

/-- What every state of a run has. -/
structure Steady (state : AllocatorState) : Prop extends state.Lasting where
  inOrder : state.InOrder

variable {state first second : AllocatorState}

theorem Steady.standsFor (h : state.Steady) {holding : Holding} (hheld : holding ∈ state.held)
    {size : Nat} (hfits : holding.Fits size) : state.memory.StandsFor size holding :=
  ⟨h.rounds, h.words holding hheld, (h.inOrder.kept holding hheld).houses.roundUp_of_fits hfits⟩

theorem rounds_addRegion {memory : Memory} (hrounds : memory.backend.Rounds) (region : Span) :
    (memory.addRegion region).backend.Rounds := by
  unfold Memory.addRegion
  split
  · trivial
  · rename_i hbackend
    rw [hbackend] at hrounds
    exact hrounds.elim
  · exact hrounds

theorem Lasting.received (h : state.Lasting) {layout : Layout}
    {answer : Except Refusal (Block × Memory)}
    (hanswer : ∀ block memory, answer = .ok (block, memory) →
      memory.backend.Rounds ∧ block.size < Word.limit) :
    (state.received layout answer).Lasting := by
  cases hgranted : answer with
  | error refusal => exact h
  | ok found =>
    obtain ⟨hrounds, hword⟩ := hanswer found.1 found.2 hgranted
    exact ⟨hrounds, List.forall_mem_cons.2 ⟨hword, h.words⟩⟩

theorem Lasting.resized (h : state.Lasting) {holding : Holding} (hheld : holding ∈ state.held)
    {wanted : Nat} {answer : Except Refusal (Block × Memory)}
    (hanswer : ∀ block memory, answer = .ok (block, memory) →
      memory.backend.Rounds ∧ block.size < Word.limit) :
    (state.resized holding wanted answer).Lasting := by
  cases hgranted : answer with
  | error refusal => exact h
  | ok found =>
    obtain ⟨hrounds, hword⟩ := hanswer found.1 found.2 hgranted
    refine ⟨hrounds, List.forall_mem_cons.2 ⟨?_, fun other hother => ?_⟩⟩
    · exact Nat.max_lt.2 ⟨h.words holding hheld, hword⟩
    · exact h.words other (List.mem_of_mem_erase hother)

theorem allocate_word {memory memory' : Memory} (hrounds : memory.backend.Rounds)
    {layout : Layout} (hvalid : layout.Valid) {block : Block}
    (hfound : memory.allocate layout = .ok (block, memory')) :
    memory'.backend.Rounds ∧ block.size < Word.limit := by
  refine ⟨(Memory.continues_allocate hfound).rounds hrounds, ?_⟩
  rw [(Memory.allocate_granted hvalid hfound).1]
  exact hvalid.roundUp_lt memory.backend

theorem Steady.performed (h : state.Steady) {demand : Demand}
    (hpermits : state.Permits (.demand demand)) : (state.perform demand).Lasting := by
  have hlasting := h.toLasting
  cases demand with
  | addRegion region => exact ⟨rounds_addRegion h.rounds region, h.words⟩
  | allocate layout =>
    exact hlasting.received fun block memory hfound => allocate_word h.rounds hpermits hfound
  | allocateZeroed layout =>
    refine hlasting.received fun block memory hfound => ?_
    obtain ⟨plain, hplain, rfl⟩ := Memory.allocateZeroed_ok hfound
    have hword := allocate_word h.rounds hpermits hplain
    exact hword
  | expand holding size wanted =>
    have hstands := h.standsFor hpermits.1 hpermits.2
    refine hlasting.resized hpermits.1 fun block memory hanswer => ?_
    obtain ⟨⟨answer, grown⟩, hgrown, heq⟩ := Except.of_map_ok hanswer
    obtain ⟨rfl, rfl⟩ := Prod.mk.inj heq
    exact ⟨(Memory.continues_expand hgrown).rounds h.rounds, hstands.expand_word hgrown⟩
  | reallocate holding size wanted =>
    have hstands := h.standsFor hpermits.1 hpermits.2
    refine hlasting.resized hpermits.1 fun block memory hanswer => ?_
    exact ⟨(Memory.continues_reallocate hanswer).rounds h.rounds, hstands.reallocate_word hanswer⟩
  | deallocate holding size =>
    exact ⟨(Memory.continues_deallocate _ _ _).rounds h.rounds,
      fun other hother => h.words other (List.mem_of_mem_erase hother)⟩

theorem Steady.undergo (h : state.Steady) {occurrence : Occurrence}
    (hpermits : state.Permits occurrence) : (state.undergo occurrence).Steady := by
  suffices hlasting : (state.undergo occurrence).Lasting from
    ⟨hlasting, h.inOrder.undergo hpermits⟩
  cases occurrence with
  | demand demand => exact h.performed hpermits
  | write holding offset byte => exact ⟨h.rounds, h.words⟩
  | advise address count hint =>
    refine ⟨?_, h.words⟩
    show (state.memory.advise address count hint).backend.Rounds
    rw [Memory.backend_advise]
    exact h.rounds
  | reset =>
    -- only a stack arena can be reset
    have hrounds := h.rounds
    unfold AllocatorState.undergo
    cases hbackend : state.memory.backend with
    | stack arena =>
      rw [hbackend] at hrounds
      exact hrounds.elim
    | freeList | basic | heap | pages => exact h.toLasting

theorem Steady.attend (h : state.Steady) {step : Step} (hadmits : state.Admits step) :
    (state.attend step).Steady := by
  unfold Admits at hadmits
  unfold AllocatorState.attend
  cases hoccurrence : state.occurrence? step with
  | none =>
    rw [hoccurrence] at hadmits
    exact hadmits.elim
  | some occurrence =>
    rw [hoccurrence] at hadmits
    exact h.undergo hadmits

/-! ## Two runs -/

theorem Twin.received (h : first.Twin second) {layout : Layout}
    {answer answer' : Except Refusal (Block × Memory)} (hagree : Agree answer answer') :
    (first.received layout answer).Twin (second.received layout answer') := by
  cases hagree with
  | refused refusal => exact h
  | answered block hbooks => exact ⟨hbooks, congrArg (_ :: ·) h.held, h.regions⟩

theorem Twin.resized (h : first.Twin second) {holding : Holding} {wanted : Nat}
    {answer answer' : Except Refusal (Block × Memory)}
    (hmatches : Matches holding wanted answer answer') :
    (first.resized holding wanted answer).Twin (second.resized holding wanted answer') := by
  cases hmatches with
  | refused refusal => exact h
  | answered haddress hheld hbooks =>
    refine ⟨hbooks, ?_, h.regions⟩
    show _ :: first.held.erase holding = _ :: second.held.erase holding
    rw [hheld, h.held]

/-- A block at a place that is admitted is in use, and the size fits it. -/
theorem Admits.place {place : Nat} {make : Holding → Occurrence} {step : Step}
    (hadmits : state.Admits step)
    (hmake : state.occurrence? step = state.held[place]?.map make) :
    ∃ holding, state.held[place]? = some holding ∧ state.Permits (make holding) := by
  unfold Admits at hadmits
  rw [hmake] at hadmits
  cases hplace : state.held[place]? with
  | none =>
    rw [hplace] at hadmits
    exact hadmits.elim
  | some holding =>
    rw [hplace] at hadmits
    exact ⟨holding, rfl, hadmits⟩

theorem Steady.preserves (h : state.Steady) {step : Step} (hadmits : state.Admits step) :
    state.Preserves step := by
  unfold Admits at hadmits
  unfold Preserves
  split
  · rename_i holding size wanted hoccurrence
    rw [hoccurrence] at hadmits
    have hhoused := (h.inOrder.kept holding hadmits.1).houses
    intro block memory hanswer offset hlt
    have hresizes := Memory.reallocate_resizes h.inOrder.orderly hhoused hadmits.2 hanswer
    exact hresizes.carries offset
      (Nat.lt_of_lt_of_le hlt (Nat.le_trans hadmits.2.1 (le_carried hadmits.2 wanted)))
  · trivial

/-- The block at a place is the same in both runs. -/
theorem Twin.place (h : first.Twin second) {place : Nat} {make make' : Holding → Occurrence}
    {step step' : Step}
    (hadmits : first.Admits step) (hadmits' : second.Admits step')
    (hmake : first.occurrence? step = first.held[place]?.map make)
    (hmake' : second.occurrence? step' = second.held[place]?.map make') :
    ∃ holding, first.occurrence? step = some (make holding) ∧
      second.occurrence? step' = some (make' holding) ∧
      first.Permits (make holding) ∧ second.Permits (make' holding) := by
  obtain ⟨holding, hplace, hpermits⟩ := hadmits.place hmake
  obtain ⟨holding', hplace', hpermits'⟩ := hadmits'.place hmake'
  obtain rfl : holding = holding' := by
    rw [h.held, hplace'] at hplace
    exact (Option.some.inj hplace).symm
  exact ⟨holding, hmake.trans (congrArg (Option.map make) hplace),
    hmake'.trans (congrArg (Option.map make') hplace'), hpermits, hpermits'⟩

/-- Answers that match name the same address or the same refusal. -/
theorem addresses_of_matches {holding : Holding} {wanted : Nat}
    {answer answer' : Except Refusal (Block × Memory)}
    (hmatches : Matches holding wanted answer answer') :
    (answer.map Prod.fst).map Block.address = (answer'.map Prod.fst).map Block.address := by
  cases hmatches with
  | refused refusal => rfl
  | answered haddress hheld hbooks => exact congrArg Except.ok haddress

theorem answer_expand (memory : Memory) (holding : Holding) (size wanted : Nat) :
    memory.answer (.expand holding size wanted) =
      some (((memory.expand holding.address (holding.layout size) wanted).map fun grown =>
        ((⟨holding.address, grown.1⟩ : Block), grown.2)).map Prod.fst) := by
  simp only [Memory.answer]
  cases memory.expand holding.address (holding.layout size) wanted with
  | error refusal => rfl
  | ok grown => rfl

/-- Whatever sizes are passed, a step leads twins to twins, and the users are told the same. -/
theorem Twin.attend (h : first.Twin second) (hfirst : first.Steady) (hsecond : second.Steady)
    {request : Request} {size size' : Nat} (hadmits : first.Admits (request, size))
    (hadmits' : second.Admits (request, size')) :
    (first.attend (request, size)).Twin (second.attend (request, size')) ∧
      first.told (request, size) = second.told (request, size') ∧
      first.range? (request, size) = second.range? (request, size') := by
  cases request with
  | addRegion region =>
    refine ⟨⟨?_, h.held, congrArg (region :: ·) h.regions⟩, rfl, rfl⟩
    exact Memory.backend_addRegion_congr h.books region
  | allocate layout =>
    refine ⟨h.received (Memory.agree_allocate h.books layout), ?_, rfl⟩
    exact congrArg (Option.map _) (Memory.answer_congr h.books (.allocate layout))
  | allocateZeroed layout =>
    refine ⟨h.received (Memory.agree_allocateZeroed h.books layout), ?_, rfl⟩
    exact congrArg (Option.map _) (Memory.answer_congr h.books (.allocateZeroed layout))
  | write place offset byte =>
    obtain ⟨holding, hfound, hfound', -⟩ := h.place hadmits hadmits' rfl rfl
    unfold AllocatorState.attend told range?
    rw [hfound, hfound']
    exact ⟨⟨h.books, h.held, h.regions⟩, rfl, rfl⟩
  | advise address count hint =>
    refine ⟨⟨?_, h.held, h.regions⟩, rfl, rfl⟩
    show (first.memory.advise address count hint).backend =
      (second.memory.advise address count hint).backend
    rw [Memory.backend_advise, Memory.backend_advise, h.books]
  | expand place wanted =>
    obtain ⟨holding, hfound, hfound', hpermits, hpermits'⟩ := h.place hadmits hadmits' rfl rfl
    have hstands := hfirst.standsFor hpermits.1 hpermits.2
    have hstands' := hsecond.standsFor hpermits'.1 hpermits'.2
    have hmatches := hstands.expand_matches hstands' h.books wanted
    unfold AllocatorState.attend told range?
    rw [hfound, hfound']
    refine ⟨h.resized hmatches, ?_, ?_⟩
    · dsimp only
      rw [answer_expand, answer_expand]
      exact congrArg some (addresses_of_matches hmatches)
    · dsimp only
      rw [hstands.round, hstands'.round]
  | reallocate place wanted =>
    obtain ⟨holding, hfound, hfound', hpermits, hpermits'⟩ := h.place hadmits hadmits' rfl rfl
    have hstands := hfirst.standsFor hpermits.1 hpermits.2
    have hstands' := hsecond.standsFor hpermits'.1 hpermits'.2
    have hmatches := hstands.reallocate_matches hstands' h.books wanted
    unfold AllocatorState.attend told range?
    rw [hfound, hfound']
    refine ⟨h.resized hmatches, ?_, ?_⟩
    · exact congrArg some (addresses_of_matches hmatches)
    · dsimp only
      rw [hstands.round, hstands'.round]
  | deallocate place =>
    obtain ⟨holding, hfound, hfound', hpermits, hpermits'⟩ := h.place hadmits hadmits' rfl rfl
    have hstands := hfirst.standsFor hpermits.1 hpermits.2
    have hstands' := hsecond.standsFor hpermits'.1 hpermits'.2
    unfold AllocatorState.attend told range?
    rw [hfound, hfound']
    refine ⟨⟨hstands.deallocate_eq hstands' h.books, ?_, h.regions⟩, rfl, ?_⟩
    · exact congrArg (List.erase · holding) h.held
    · dsimp only
      rw [hstands.round, hstands'.round]

/-- Twins stay twins as long as the requests are the same, and no step tells them apart. -/
theorem Twin.attendAll (h : first.Twin second) (hfirst : first.Steady) (hsecond : second.Steady)
    {steps steps' : List Step} (hrequests : steps.map Prod.fst = steps'.map Prod.fst)
    (hadmits : first.AdmitsAll steps) (hadmits' : second.AdmitsAll steps') (count : Nat) :
    (first.attendAll (steps.take count)).Twin (second.attendAll (steps'.take count)) ∧
      ∀ step step', steps[count]? = some step → steps'[count]? = some step' →
        SameStep (first.attendAll (steps.take count)) (second.attendAll (steps'.take count))
          step step' := by
  induction steps generalizing first second steps' count with
  | nil =>
    obtain rfl := List.map_eq_nil_iff.1 hrequests.symm
    rw [List.take_nil]
    exact ⟨h, fun _ _ hstep => by cases hstep⟩
  | cons step later ih =>
    cases steps' with
    | nil => cases hrequests
    | cons step' later' =>
      obtain ⟨request, size⟩ := step
      obtain ⟨request', size'⟩ := step'
      obtain ⟨rfl, hlater⟩ := List.cons.inj hrequests
      obtain ⟨hhead, hrest⟩ := hadmits
      obtain ⟨hhead', hrest'⟩ := hadmits'
      obtain ⟨htwin, htold, hrange⟩ := h.attend hfirst hsecond hhead hhead'
      cases count with
      | zero =>
        refine ⟨h, ?_⟩
        rintro _ _ ⟨⟩ ⟨⟩
        exact ⟨htold, hrange, hfirst.preserves hhead, hsecond.preserves hhead'⟩
      | succ count =>
        exact ih htwin (hfirst.attend hhead) (hsecond.attend hhead') hlater hrest hrest' count

/-- It makes no difference which size that lies between request and record is passed for a
block.  After any number of steps, two runs with the same requests have equal books and hold
the same blocks, and the next step tells both users the same and takes the same range. -/
theorem fitting_sizes_interchangeable {memory memory' : Memory} (hunused : memory.backend.Unused)
    (hrounds : memory.backend.Rounds) (hbooks : memory.backend = memory'.backend)
    {steps steps' : List Step} (hrequests : steps.map Prod.fst = steps'.map Prod.fst)
    (hadmits : (AllocatorState.mk memory [] []).AdmitsAll steps)
    (hadmits' : (AllocatorState.mk memory' [] []).AdmitsAll steps') (count : Nat) :
    ((AllocatorState.mk memory [] []).attendAll (steps.take count)).Twin
        ((AllocatorState.mk memory' [] []).attendAll (steps'.take count)) ∧
      ∀ step step', steps[count]? = some step → steps'[count]? = some step' →
        SameStep ((AllocatorState.mk memory [] []).attendAll (steps.take count))
          ((AllocatorState.mk memory' [] []).attendAll (steps'.take count)) step step' := by
  have htwin : (AllocatorState.mk memory [] []).Twin (AllocatorState.mk memory' [] []) :=
    ⟨hbooks, rfl, rfl⟩
  have hsteady : (AllocatorState.mk memory [] []).Steady :=
    ⟨⟨hrounds, by simp⟩, inOrder_unused hunused⟩
  have hsteady' : (AllocatorState.mk memory' [] []).Steady :=
    ⟨⟨hbooks ▸ hrounds, by simp⟩, inOrder_unused (hbooks ▸ hunused)⟩
  exact htwin.attendAll hsteady hsteady' hrequests hadmits hadmits' count

/-- One block is hemmed in by another one, so that it has to be moved. -/
def hemmedRequests : List Request :=
  [.addRegion ⟨8192, 512⟩, .allocate ⟨24, 8⟩, .allocate ⟨40, 8⟩, .expand 1 30, .write 0 29 171,
    .reallocate 0 5000, .deallocate 1, .reallocate 0 100, .expand 0 10000]

/-- The smallest sizes that fit each block. -/
def tightSizes : List Nat := [0, 0, 0, 24, 0, 30, 40, 30, 100]

/-- Sizes that were recorded by a free list, or that lie below them. -/
def looseSizes : List Nat := [0, 0, 0, 32, 0, 31, 47, 32, 111]

theorem fitting_sizes_interchangeable_hemmedRequests :
    (AllocatorState.mk ⟨.freeList {}, fun _ => 0⟩ [] []).AdmitsAll (hemmedRequests.zip tightSizes) ∧
      (AllocatorState.mk ⟨.freeList {}, fun _ => 1⟩ [] []).AdmitsAll
        (hemmedRequests.zip looseSizes) ∧
      ((AllocatorState.mk ⟨.freeList {}, fun _ => 0⟩ [] []).attendAll
          ((hemmedRequests.zip tightSizes).take 8)).Twin
        ((AllocatorState.mk ⟨.freeList {}, fun _ => 1⟩ [] []).attendAll
          ((hemmedRequests.zip looseSizes).take 8)) ∧
      SameStep
        ((AllocatorState.mk ⟨.freeList {}, fun _ => 0⟩ [] []).attendAll
          ((hemmedRequests.zip tightSizes).take 8))
        ((AllocatorState.mk ⟨.freeList {}, fun _ => 1⟩ [] []).attendAll
          ((hemmedRequests.zip looseSizes).take 8))
        (.expand 0 10000, 100) (.expand 0 10000, 111) := by
  have hadmits : (AllocatorState.mk ⟨.freeList {}, fun _ => 0⟩ [] []).AdmitsAll
      (hemmedRequests.zip tightSizes) := by decide +kernel
  have hadmits' : (AllocatorState.mk ⟨.freeList {}, fun _ => 1⟩ [] []).AdmitsAll
      (hemmedRequests.zip looseSizes) := by decide +kernel
  have hunused : Backend.Unused (.freeList {}) := rfl
  have hrounds : Backend.Rounds (.freeList {}) := trivial
  have hbooks : (Memory.mk (.freeList {}) fun _ => 0).backend =
      (Memory.mk (.freeList {}) fun _ => 1).backend := rfl
  have hrequests : (hemmedRequests.zip tightSizes).map Prod.fst =
      (hemmedRequests.zip looseSizes).map Prod.fst := by decide
  obtain ⟨htwin, hstep⟩ := fitting_sizes_interchangeable hunused hrounds hbooks hrequests hadmits
    hadmits' 8
  exact ⟨hadmits, hadmits', htwin, hstep _ _ rfl rfl⟩

end AllocatorState
end Freehold
