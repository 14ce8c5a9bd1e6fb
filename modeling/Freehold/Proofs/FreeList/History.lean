import Mathlib.Data.List.Perm.Basic
import Mathlib.Data.List.Nodup
import Freehold.Proofs.FreeList.Conservation
import Freehold.Proofs.Memory.Contents

/-!
# Free lists forget their history

The spans of a tidy list are the maximal runs of free addresses, so the list is determined
by which addresses are free.  These are the addresses of the regions that no live block
takes up.  So two runs that were given the same regions and hold the same blocks have the
same list, however they came to it, and answer alike from then on.
-/

namespace Freehold

/-- A run of addresses with a property that neither of its neighbours has. -/
structure Span.MaximalRun (Vacant : Nat → Prop) (span : Span) : Prop where
  pos : 0 < span.size
  inside : ∀ address ∈ span, Vacant address
  before : ∀ address, address + 1 = span.start → ¬ Vacant address
  after : ¬ Vacant span.stop

namespace Span.MaximalRun

variable {Vacant : Nat → Prop} {first second : Span} {address : Nat}

theorem start_mem (h : first.MaximalRun Vacant) : first.start ∈ first := by
  have hpos := h.pos
  rw [Span.mem_iff]
  omega

theorem start_le (hfirst : first.MaximalRun Vacant) (hsecond : second.MaximalRun Vacant)
    (hin : address ∈ first) (hin' : address ∈ second) : second.start ≤ first.start := by
  rw [Span.mem_iff] at hin hin'
  by_contra hlt
  apply hsecond.before (second.start - 1) (by omega)
  apply hfirst.inside
  rw [Span.mem_iff]
  omega

theorem stop_le (hfirst : first.MaximalRun Vacant) (hsecond : second.MaximalRun Vacant)
    (hin : address ∈ first) (hin' : address ∈ second) : first.stop ≤ second.stop := by
  rw [Span.mem_iff] at hin hin'
  by_contra hlt
  apply hsecond.after
  apply hfirst.inside
  unfold Span.stop at *
  rw [Span.mem_iff]
  omega

/-- Two maximal runs with a common address are the same. -/
theorem eq_of_mem (hfirst : first.MaximalRun Vacant) (hsecond : second.MaximalRun Vacant)
    (hin : address ∈ first) (hin' : address ∈ second) : first = second := by
  have hstart : first.start = second.start :=
    Nat.le_antisymm (hsecond.start_le hfirst hin' hin) (hfirst.start_le hsecond hin hin')
  have hstop : first.stop = second.stop :=
    Nat.le_antisymm (hfirst.stop_le hsecond hin hin') (hsecond.stop_le hfirst hin' hin)
  obtain ⟨start, size⟩ := first
  obtain ⟨start', size'⟩ := second
  unfold Span.stop at hstop
  simp only [Span.mk.injEq] at *
  omega

end Span.MaximalRun

namespace FreeList

variable {spans spans' : List Span}

theorem Tidy.apart (h : Tidy spans) {first second : Span} (hfirst : first ∈ spans)
    (hsecond : second ∈ spans) :
    first = second ∨ first.stop < second.start ∨ second.stop < first.start := by
  induction spans with
  | nil => cases hfirst
  | cons head rest ih =>
    obtain ⟨-, hlater, hrest⟩ := tidy_cons.1 h
    rcases List.mem_cons.1 hfirst with rfl | hfirst'
    · rcases List.mem_cons.1 hsecond with rfl | hsecond'
      · exact Or.inl rfl
      · exact Or.inr (Or.inl (hlater second hsecond'))
    · rcases List.mem_cons.1 hsecond with rfl | hsecond'
      · exact Or.inr (Or.inr (hlater first hfirst'))
      · exact ih hrest hfirst' hsecond'

/-- The spans of a tidy list are the maximal runs of free addresses. -/
theorem Tidy.mem_iff (h : Tidy spans) {span : Span} :
    span ∈ spans ↔ span.MaximalRun (Free spans) := by
  have hmaximal : ∀ span ∈ spans, span.MaximalRun (Free spans) := by
    intro span hmem
    have hpos := (h.granular span hmem).pos
    refine ⟨hpos, fun address hin => ⟨span, hmem, hin⟩, ?_, ?_⟩
    · rintro address hnext ⟨other, hother, hin⟩
      rw [Span.mem_iff] at hin
      have happart := h.apart hmem hother
      unfold Span.stop at happart
      rcases happart with rfl | hlt | hlt
      all_goals omega
    · rintro ⟨other, hother, hin⟩
      rw [Span.mem_iff] at hin
      have happart := h.apart hmem hother
      unfold Span.stop at *
      rcases happart with rfl | hlt | hlt
      all_goals omega
  constructor
  · exact hmaximal span
  · intro hrun
    obtain ⟨other, hother, hin⟩ := hrun.inside span.start hrun.start_mem
    rw [hrun.eq_of_mem (hmaximal other hother) hrun.start_mem hin]
    exact hother

theorem Tidy.nodup (h : Tidy spans) : spans.Nodup := by
  refine h.gaps.imp_of_mem ?_
  intro first second hfirst _ hlt heq
  have hpos := (h.granular first hfirst).pos
  subst heq
  unfold Span.stop at hlt
  omega

/-- A tidy list is determined by its free addresses. -/
theorem Tidy.ext (h : Tidy spans) (h' : Tidy spans')
    (hfree : ∀ address, Free spans address ↔ Free spans' address) : spans = spans' := by
  have hsame : Free spans = Free spans' := funext fun address => propext (hfree address)
  have hperm : spans.Perm spans' := by
    rw [List.perm_ext_iff_of_nodup h.nodup h'.nodup]
    intro span
    rw [h.mem_iff, h'.mem_iff, hsame]
  refine List.Perm.eq_of_pairwise ?_ h.gaps h'.gaps hperm
  intro first second hfirst hsecond hlt hgt
  unfold Span.stop at *
  omega

end FreeList

namespace AllocatorState

/-- A free list with no regions, of which nothing is held. -/
def fresh (bytes : Bytes) : AllocatorState where
  memory := { backend := .freeList {}, bytes := bytes }

/-- A live block: its address and its size in whole granules. -/
def Live (state : AllocatorState) (block : Span) : Prop :=
  0 < block.size ∧ ∃ holding ∈ state.held, holding.granules = block

/-- An address of the granules of a region that no block takes up. -/
def Vacant (state : AllocatorState) (address : Nat) : Prop :=
  (∃ region ∈ state.regions, address ∈ FreeList.usable region) ∧
    ∀ block, state.Live block → address ∉ block

variable {state state' : AllocatorState}

theorem vacant_congr (hregions : ∀ region, region ∈ state.regions ↔ region ∈ state'.regions)
    (hlive : ∀ block, state.Live block ↔ state'.Live block) :
    state.Vacant = state'.Vacant := by
  funext address
  simp only [Vacant, hregions, hlive]

theorem free_iff_vacant {list : FreeList}
    (h : list.Accounts state.held state.regions) (address : Nat) :
    FreeList.Free list.spans address ↔ state.Vacant address := by
  constructor
  · intro hfree
    refine ⟨(h.owned_iff address).1 (Or.inr hfree), ?_⟩
    rintro block ⟨-, holding, hmem, rfl⟩ hin
    exact h.freeApart holding hmem address hin hfree
  · rintro ⟨howned, hvacant⟩
    rcases (h.owned_iff address).2 howned with ⟨holding, hmem, hin⟩ | hfree
    · have hpos : 0 < holding.granules.size := by
        rw [Span.mem_iff] at hin
        omega
      exact absurd hin (hvacant holding.granules ⟨hpos, holding, hmem, rfl⟩)
    · exact hfree

/-- The books of a free list are settled by what is vacant. -/
theorem backend_eq_of_vacant (h : state.Balanced) (h' : state'.Balanced)
    (hvacant : state.Vacant = state'.Vacant) :
    state.memory.backend = state'.memory.backend := by
  obtain ⟨list, hlist, haccounts⟩ := h
  obtain ⟨list', hlist', haccounts'⟩ := h'
  have hspans : list.spans = list'.spans := by
    apply haccounts.tidy.ext haccounts'.tidy
    intro address
    rw [free_iff_vacant haccounts, free_iff_vacant haccounts', hvacant]
  have hbytes : list.freeBytes = list'.freeBytes := by
    rw [haccounts.freeBytes_eq, haccounts'.freeBytes_eq, hspans]
  rw [hlist, hlist']
  obtain ⟨spans, freeBytes⟩ := list
  obtain ⟨spans', freeBytes'⟩ := list'
  simp only at hspans hbytes
  rw [hspans, hbytes]

/-! ## Runs -/

theorem balanced_run (bytes : Bytes) {demands : List Demand}
    (hlawful : (fresh bytes).Lawful demands) : ((fresh bytes).run demands).Balanced :=
  run_induction Balanced (fun _ _ hgood hallowed => Balanced.perform hgood hallowed)
    ⟨{}, rfl, FreeList.Accounts.initial⟩ hlawful

theorem run_append (state : AllocatorState) (earlier later : List Demand) :
    state.run (earlier ++ later) = (state.run earlier).run later := List.foldl_append

theorem lawful_append {earlier later : List Demand} (hearlier : state.Lawful earlier)
    (hlater : (state.run earlier).Lawful later) : state.Lawful (earlier ++ later) := by
  induction earlier generalizing state with
  | nil => exact hlater
  | cons demand earlier ih => exact ⟨hearlier.1, ih hearlier.2 hlater⟩

/-- The demands that give up the blocks of the holdings, each with a size that fits. -/
def giveUp (frees : List (Holding × Nat)) : List Demand :=
  frees.map fun free => .deallocate free.1 free.2

theorem regions_giveUp (state : AllocatorState) (frees : List (Holding × Nat)) :
    (state.run (giveUp frees)).regions = state.regions := by
  induction frees generalizing state with
  | nil => rfl
  | cons free later ih => exact ih (state.perform (.deallocate free.1 free.2))

/-- What was held is held still, or was given up. -/
theorem held_giveUp {frees : List (Holding × Nat)} (hlawful : state.Lawful (giveUp frees)) :
    state.held.Perm (frees.map Prod.fst ++ (state.run (giveUp frees)).held) := by
  induction frees generalizing state with
  | nil => exact List.Perm.refl _
  | cons free later ih =>
    obtain ⟨hallowed, hlater⟩ := hlawful
    have hheld : free.1 ∈ state.held := hallowed.1
    exact (List.perm_cons_erase hheld).trans ((ih hlater).cons free.1)

theorem regions_register (state : AllocatorState) (order : List Span) :
    (state.run (order.map .addRegion)).regions = order.reverse ++ state.regions := by
  induction order generalizing state with
  | nil => rfl
  | cons region later ih =>
    have hrest := ih (state.perform (.addRegion region))
    rw [List.map_cons, List.reverse_cons, List.append_assoc]
    exact hrest

theorem held_register (state : AllocatorState) (order : List Span) :
    (state.run (order.map .addRegion)).held = state.held := by
  induction order generalizing state with
  | nil => rfl
  | cons region later ih => exact ih (state.perform (.addRegion region))

/-- Regions that are apart may be registered one after the other. -/
theorem lawful_register {order : List Span} (hnone : state.held = [])
    (hapart : (state.regions.reverse ++ order).Pairwise Span.Apart) :
    state.Lawful (order.map .addRegion) := by
  induction order generalizing state with
  | nil => trivial
  | cons region later ih =>
    refine ⟨⟨?_, ?_⟩, ?_⟩
    · intro other hother
      exact (List.pairwise_append.1 hapart).2.2 other (List.mem_reverse.2 hother) region
        (by simp)
    · intro holding hmem
      rw [hnone] at hmem
      cases hmem
    · have hregions : (state.perform (.addRegion region)).regions = region :: state.regions :=
        rfl
      have hheld : (state.perform (.addRegion region)).held = [] := hnone
      apply ih hheld
      rw [hregions, List.reverse_cons, List.append_assoc]
      exact hapart

theorem regions_received (state : AllocatorState) (layout : Layout)
    (answer : Except Refusal (Block × Memory)) :
    (state.received layout answer).regions = state.regions := by
  cases answer with
  | error refusal => rfl
  | ok found => rfl

theorem regions_resized (state : AllocatorState) (holding : Holding) (wanted : Nat)
    (answer : Except Refusal (Block × Memory)) :
    (state.resized holding wanted answer).regions = state.regions := by
  cases answer with
  | error refusal => rfl
  | ok found => rfl

theorem regions_apart (bytes : Bytes) {demands : List Demand}
    (hlawful : (fresh bytes).Lawful demands) :
    ((fresh bytes).run demands).regions.Pairwise Span.Apart := by
  refine run_induction (fun state => state.regions.Pairwise Span.Apart) ?_
    List.Pairwise.nil hlawful
  intro state demand hapart hallowed
  cases demand with
  | addRegion region =>
    refine List.pairwise_cons.2 ⟨fun other hother => ?_, hapart⟩
    exact (hallowed.1 other hother).symm
  | allocate layout => exact (regions_received state layout _).symm ▸ hapart
  | allocateZeroed layout => exact (regions_received state layout _).symm ▸ hapart
  | expand holding size wanted => exact (regions_resized state holding wanted _).symm ▸ hapart
  | reallocate holding size wanted =>
    exact (regions_resized state holding wanted _).symm ▸ hapart
  | deallocate holding size => exact hapart

theorem live_perm (hperm : state.held.Perm state'.held) (block : Span) :
    state.Live block ↔ state'.Live block := by
  unfold Live
  simp only [hperm.mem_iff]

/-! ## What no longer matters -/

theorem backend_run_eq (bytes bytes' : Bytes) {demands demands' : List Demand}
    (hlawful : (fresh bytes).Lawful demands) (hlawful' : (fresh bytes').Lawful demands')
    (hregions : ∀ region, region ∈ ((fresh bytes).run demands).regions ↔
      region ∈ ((fresh bytes').run demands').regions)
    (hlive : ∀ block, ((fresh bytes).run demands).Live block ↔
      ((fresh bytes').run demands').Live block) :
    ((fresh bytes).run demands).memory.backend = ((fresh bytes').run demands').memory.backend :=
  backend_eq_of_vacant (balanced_run bytes hlawful) (balanced_run bytes' hlawful')
    (vacant_congr hregions hlive)

/-- Blocks may be given up in any order. -/
theorem backend_giveUp_perm (bytes : Bytes) {demands : List Demand}
    (hlawful : (fresh bytes).Lawful demands) {frees frees' : List (Holding × Nat)}
    (hfrees : ((fresh bytes).run demands).Lawful (giveUp frees))
    (hfrees' : ((fresh bytes).run demands).Lawful (giveUp frees'))
    (hperm : (frees.map Prod.fst).Perm (frees'.map Prod.fst)) :
    (((fresh bytes).run demands).run (giveUp frees)).memory.backend =
      (((fresh bytes).run demands).run (giveUp frees')).memory.backend := by
  have hheld : (((fresh bytes).run demands).run (giveUp frees)).held.Perm
      (((fresh bytes).run demands).run (giveUp frees')).held := by
    have hsame := (held_giveUp hfrees).symm.trans (held_giveUp hfrees')
    exact (List.perm_append_left_iff _).1 ((hperm.append_right _).symm.trans hsame)
  rw [← run_append, ← run_append] at hheld ⊢
  apply backend_run_eq bytes bytes (lawful_append hlawful hfrees)
    (lawful_append hlawful hfrees')
  · intro region
    simp only [run_append, regions_giveUp]
  · exact live_perm hheld

/-- Once every block is given up, the list is as it was when it had the regions alone. -/
theorem backend_giveUp_all (bytes bytes' : Bytes) {demands : List Demand}
    (hlawful : (fresh bytes).Lawful demands) {frees : List (Holding × Nat)}
    (hfrees : ((fresh bytes).run demands).Lawful (giveUp frees))
    (hall : (frees.map Prod.fst).Perm ((fresh bytes).run demands).held) {order : List Span}
    (horder : order.Perm ((fresh bytes).run demands).regions) :
    (((fresh bytes).run demands).run (giveUp frees)).memory.backend =
      ((fresh bytes').run (order.map .addRegion)).memory.backend := by
  have hnone : (((fresh bytes).run demands).run (giveUp frees)).held = [] := by
    have hlength := ((held_giveUp hfrees).symm.trans hall.symm).length_eq
    rw [List.length_append] at hlength
    exact List.eq_nil_of_length_eq_zero (by omega)
  have hapart : order.Pairwise Span.Apart :=
    horder.symm.pairwise (regions_apart bytes hlawful) fun h => h.symm
  rw [← run_append] at hnone ⊢
  apply backend_run_eq bytes bytes' (lawful_append hlawful hfrees)
    (lawful_register rfl hapart)
  · intro region
    rw [run_append, regions_giveUp, regions_register, List.mem_append, List.mem_reverse,
      horder.mem_iff]
    simp [fresh]
  · intro block
    unfold Live
    rw [hnone, held_register]
    simp [fresh]

/-- The regions registered and the blocks held settle the whole state of a free list and
all that it will answer; how it came to them does not matter. -/
theorem freeList_forgets (bytes bytes' : Bytes) {demands demands' : List Demand}
    (hlawful : (fresh bytes).Lawful demands) (hlawful' : (fresh bytes').Lawful demands')
    (hregions : ∀ region, region ∈ ((fresh bytes).run demands).regions ↔
      region ∈ ((fresh bytes').run demands').regions)
    (hlive : ∀ block, ((fresh bytes).run demands).Live block ↔
      ((fresh bytes').run demands').Live block) :
    (∃ list,
      ((fresh bytes).run demands).memory.backend = .freeList list ∧
      ((fresh bytes').run demands').memory.backend = .freeList list ∧
      list.spans.Pairwise (fun earlier later => earlier.stop < later.start) ∧
      (∀ span, span ∈ list.spans ↔ span.MaximalRun ((fresh bytes).run demands).Vacant) ∧
      list.freeBytes = FreeList.total list.spans) ∧
    (∀ later, ((fresh bytes).run demands).answers later =
      ((fresh bytes').run demands').answers later) ∧
    (∀ frees frees', ((fresh bytes).run demands).Lawful (giveUp frees) →
      ((fresh bytes).run demands).Lawful (giveUp frees') →
      (frees.map Prod.fst).Perm (frees'.map Prod.fst) →
      (((fresh bytes).run demands).run (giveUp frees)).memory.backend =
        (((fresh bytes).run demands).run (giveUp frees')).memory.backend) ∧
    ∀ frees, ((fresh bytes).run demands).Lawful (giveUp frees) →
      (frees.map Prod.fst).Perm ((fresh bytes).run demands).held →
      ∀ order : List Span, order.Perm ((fresh bytes).run demands).regions →
        (((fresh bytes).run demands).run (giveUp frees)).memory.backend =
          ((fresh bytes').run (order.map .addRegion)).memory.backend := by
  have hsame := backend_run_eq bytes bytes' hlawful hlawful' hregions hlive
  refine ⟨?_, fun later => answers_congr hsame later, ?_, ?_⟩
  · obtain ⟨list, hlist, haccounts⟩ := balanced_run bytes hlawful
    refine ⟨list, hlist, hsame ▸ hlist, haccounts.tidy.gaps, ?_, haccounts.freeBytes_eq⟩
    intro span
    have hfree : FreeList.Free list.spans = ((fresh bytes).run demands).Vacant :=
      funext fun address => propext (free_iff_vacant haccounts address)
    rw [haccounts.tidy.mem_iff, hfree]
  · intro frees frees' hfrees hfrees' hperm
    exact backend_giveUp_perm bytes hlawful hfrees hfrees' hperm
  · intro frees hfrees hall order horder
    exact backend_giveUp_all bytes bytes' hlawful hfrees hall horder

/-- A block is taken at the lowest address, and another one behind it comes and goes. -/
def straightHistory : List Demand :=
  [.addRegion ⟨1024, 512⟩, .allocate ⟨40, 8⟩, .addRegion ⟨1536, 256⟩, .allocate ⟨100, 64⟩,
    .deallocate ⟨1088, 64, 100, 112⟩ 105]

/-- The regions come in another order, a request is refused, and a smaller block grows. -/
def crookedHistory : List Demand :=
  [.addRegion ⟨1536, 256⟩, .addRegion ⟨1024, 512⟩, .allocateZeroed ⟨10, 4⟩,
    .allocate ⟨4000, 8⟩, .expand ⟨1024, 4, 10, 16⟩ 12 44]

theorem freeList_forgets_crookedHistory :
    (fresh fun _ => 0).Lawful straightHistory ∧ (fresh fun _ => 1).Lawful crookedHistory ∧
      (∀ region, region ∈ ((fresh fun _ => 0).run straightHistory).regions ↔
        region ∈ ((fresh fun _ => 1).run crookedHistory).regions) ∧
      (∀ block, ((fresh fun _ => 0).run straightHistory).Live block ↔
        ((fresh fun _ => 1).run crookedHistory).Live block) ∧
      ∀ later, ((fresh fun _ => 0).run straightHistory).answers later =
        ((fresh fun _ => 1).run crookedHistory).answers later := by
  have hlawful : (fresh fun _ => 0).Lawful straightHistory := by decide +kernel
  have hlawful' : (fresh fun _ => 1).Lawful crookedHistory := by decide +kernel
  have hregions : ((fresh fun _ => 0).run straightHistory).regions =
      [⟨1536, 256⟩, ⟨1024, 512⟩] := by decide +kernel
  have hregions' : ((fresh fun _ => 1).run crookedHistory).regions =
      [⟨1024, 512⟩, ⟨1536, 256⟩] := by decide +kernel
  have hheld : ((fresh fun _ => 0).run straightHistory).held = [⟨1024, 8, 40, 48⟩] := by
    decide +kernel
  have hheld' : ((fresh fun _ => 1).run crookedHistory).held = [⟨1024, 4, 44, 48⟩] := by
    decide +kernel
  have hsame : ∀ region, region ∈ ((fresh fun _ => 0).run straightHistory).regions ↔
      region ∈ ((fresh fun _ => 1).run crookedHistory).regions := by
    intro region
    rw [hregions, hregions']
    simp [or_comm]
  have hlive : ∀ block, ((fresh fun _ => 0).run straightHistory).Live block ↔
      ((fresh fun _ => 1).run crookedHistory).Live block := by
    intro block
    simp [Live, hheld, hheld', Holding.granules]
  exact ⟨hlawful, hlawful', hsame, hlive,
    (freeList_forgets (fun _ => 0) (fun _ => 1) hlawful hlawful' hsame hlive).2.1⟩

end AllocatorState
end Freehold
