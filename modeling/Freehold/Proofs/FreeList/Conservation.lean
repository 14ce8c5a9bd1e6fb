import Freehold.Proofs.FreeList.Accounts

/-!
# Conservation of the memory of a free list

Whatever is asked of a free list by someone who keeps to the blocks that he holds, the
account stays balanced.  A region adds its granules to the free ones, a block is taken
out of the free memory and later given back to it, and a block that grows in place
takes what it grows by.  A call that moves a block is made of these.
-/

namespace Freehold
namespace FreeList
namespace Accounts

variable {list : FreeList} {held : List Holding} {regions : List Span}

theorem free_in_region (h : Accounts list held regions) {address : Nat}
    (hfree : Free list.spans address) : ∃ region ∈ regions, address ∈ region := by
  obtain ⟨region, hmem, hin⟩ := (h.owned_iff address).1 (Or.inr hfree)
  exact ⟨region, hmem, (usable_largest region).inside address hin⟩

theorem afterRegion (h : Accounts list held regions) {region : Span}
    (hapart : ∀ other ∈ regions, Span.Apart other region)
    (hempty : ∀ holding ∈ held, holding.recorded = 0 → holding.address ∉ region) :
    Accounts (list.addRegion region) held (region :: regions) := by
  have hinside := (usable_largest region).inside
  have hfresh : ∀ address ∈ usable region, ∀ other ∈ regions, address ∉ usable other := by
    intro address hin other hother hinOther
    have hboth := Span.apart_iff.1 (hapart other hother) address
    exact hboth ⟨(usable_largest other).inside address hinOther, hinside address hin⟩
  have hsound : ∀ holding ∈ held, holding.Sound (region :: regions) := by
    intro holding hmem
    have hold := h.sound holding hmem
    refine ⟨hold.rounded, hold.aligned, hold.whole, ?_⟩
    intro hzero other hother
    rcases List.mem_cons.1 hother with rfl | hother
    · exact hempty holding hmem hzero
    · exact hold.emptyOutside hzero other hother
  unfold addRegion
  split
  · rename_i hzero
    refine ⟨h.tidy, hsound, h.heldApart, h.freeApart, ?_, h.freeBytes_eq⟩
    intro address
    have hout : address ∉ usable region := by
      rw [Span.mem_iff]
      omega
    simp only [h.owned_iff address, List.mem_cons, exists_eq_or_imp, hout, false_or]
  · rename_i hpos
    have hgranular : (usable region).Granular :=
      ⟨(usable_largest region).start, (usable_largest region).size, Nat.pos_of_ne_zero hpos⟩
    have hgiven := insert_given hgranular h.tidy (by
      intro other hother
      rw [Span.apart_iff]
      rintro address ⟨hinOther, hin⟩
      obtain ⟨owner, howner, hinOwner⟩ :=
        (h.owned_iff address).1 (Or.inr ⟨other, hother, hinOther⟩)
      exact hfresh address hin owner howner hinOwner)
    constructor
    · exact hgiven.tidy
    · exact hsound
    · exact h.heldApart
    · intro holding hmem address hin hfree
      rcases (hgiven.free_iff address).1 hfree with hfree | hinRegion
      · exact h.freeApart holding hmem address hin hfree
      · obtain ⟨owner, howner, hinOwner⟩ :=
          (h.owned_iff address).1 (Or.inl ⟨holding, hmem, hin⟩)
        exact hfresh address hinRegion owner howner hinOwner
    · intro address
      simp only [List.mem_cons, exists_eq_or_imp, ← h.owned_iff address]
      unfold FreeList.give
      rw [hgiven.free_iff, ← or_assoc, or_comm]
    · unfold FreeList.give
      dsimp only
      rw [hgiven.total_eq, h.freeBytes_eq]

theorem afterAllocate (h : Accounts list held regions) {layout : Layout}
    (hvalid : layout.Valid)
    (hempty : layout.size = 0 → ∀ region ∈ regions, layout.align ∉ region)
    {block : Block} {list' : FreeList} (hok : list.allocate layout = .ok (block, list')) :
    Accounts list' (.of layout block :: held) regions := by
  rcases allocate_ok hok with ⟨hzero, rfl, rfl⟩ | ⟨hpos, start, spans, hcarve, rfl, rfl⟩
  · have hsound : (Holding.of layout (.dangling layout.align)).Sound regions := by
      refine ⟨?_, Nat.dvd_refl _, fun hpos => absurd hpos (Nat.lt_irrefl 0),
        fun _ => hempty hzero⟩
      show 0 = Word.roundUp layout.size granule
      rw [hzero]
      rfl
    apply h.exchange [] [_]
    · simpa using hsound
    · simp
    · intro address
      simp [hsound.not_mem_of_empty rfl address]
  · obtain ⟨hdvdAlign, hdvdGranule⟩ := dvd_max_granule hvalid.1
    have hroundPos := Word.roundUp_pos granule_pos hpos
    obtain ⟨hstart, htaken⟩ := carve_taken (Word.dvd_roundUp layout.size granule) hroundPos
      hdvdGranule (Nat.lt_of_lt_of_le granule_pos (Nat.le_max_right _ _)) h.tidy hcarve
    have hsound : (Holding.of layout ⟨start, Word.roundUp layout.size granule⟩).Sound
        regions := by
      refine ⟨rfl, Nat.dvd_trans hdvdAlign hstart,
        fun _ => Nat.dvd_trans hdvdGranule hstart, ?_⟩
      intro hzero
      exact absurd hzero (Nat.ne_of_gt hroundPos)
    have hgranules := hsound.granules_eq
    have htake := h.take (hgranules ▸ htaken) hsound
    rw [hgranules] at htake
    exact htake

/-- A block that keeps its place and its granules may change the sizes that fit it. -/
theorem afterResize {holding : Holding} (h : Accounts list (holding :: held) regions)
    {wanted answer : Nat} (hwanted : Word.roundUp wanted granule ≤ holding.recorded)
    (hanswer : answer ≤ holding.recorded) :
    Accounts list (holding.resized wanted ⟨holding.address, answer⟩ :: held) regions := by
  have hold := h.sound holding (by simp)
  have hrecorded : (holding.resized wanted ⟨holding.address, answer⟩).recorded =
      holding.recorded := Nat.max_eq_left hanswer
  have hround : Word.roundUp (max holding.requested wanted) granule = holding.recorded := by
    rw [hold.rounded]
    apply Word.roundUp_eq_of_between granule_pos (Nat.le_max_left _ _)
    rw [← hold.rounded]
    apply Nat.max_le.2
    refine ⟨?_, Nat.le_trans (Word.le_roundUp wanted granule_pos) hwanted⟩
    rw [hold.rounded]
    exact Word.le_roundUp _ granule_pos
  have hsound : (holding.resized wanted ⟨holding.address, answer⟩).Sound regions := by
    refine ⟨hrecorded.trans hround.symm, hold.aligned, ?_, ?_⟩
    · rw [hrecorded]
      exact hold.whole
    · rw [hrecorded]
      exact hold.emptyOutside
  have hgranules : (holding.resized wanted ⟨holding.address, answer⟩).granules =
      holding.granules := by
    rw [hsound.granules_eq, hold.granules_eq, hrecorded]
    rfl
  apply h.exchange [holding] [_]
  · simpa using hsound
  · simp
  · simp [hgranules]

theorem resized_of_growth {holding : Holding}
    (hrounded : holding.recorded = Word.roundUp holding.requested granule) {wanted : Nat}
    (hlt : holding.recorded < Word.roundUp wanted granule) :
    holding.resized wanted ⟨holding.address, Word.roundUp wanted granule⟩ =
      ⟨holding.address, holding.align, wanted, Word.roundUp wanted granule⟩ := by
  have hwanted : holding.requested ≤ wanted := by
    apply Nat.le_of_lt
    apply Nat.lt_of_not_le
    intro hle
    have hmono := Word.roundUp_mono granule_pos hle
    rw [← hrounded] at hmono
    omega
  unfold Holding.resized
  rw [Nat.max_eq_right hwanted, Nat.max_eq_right (Nat.le_of_lt hlt)]

/-- A block grows by what is taken out of the free memory behind it. -/
theorem afterGrowth {holding : Holding} (h : Accounts list (holding :: held) regions)
    {wanted : Nat} (hlt : holding.recorded < Word.roundUp wanted granule) {spans : List Span}
    (habsorb : absorb (holding.address + holding.recorded)
      (Word.roundUp wanted granule - holding.recorded) list.spans = some spans) :
    Accounts ⟨spans, list.freeBytes - (Word.roundUp wanted granule - holding.recorded)⟩
      (⟨holding.address, holding.align, wanted, Word.roundUp wanted granule⟩ :: held)
      regions := by
  have hold := h.sound holding (by simp)
  -- what the block grows by is first held by itself, and then joined to the block
  have hextra : granule ∣ Word.roundUp wanted granule - holding.recorded := by
    apply Nat.dvd_sub (Word.dvd_roundUp _ _)
    rw [hold.rounded]
    exact Word.dvd_roundUp _ _
  have htaken := absorb_taken hextra (Nat.sub_pos_of_lt hlt) h.tidy habsorb
  have hpos : 0 < holding.recorded := by
    rcases Nat.eq_zero_or_pos holding.recorded with hzero | hpos
    · obtain ⟨region, hregion, hin⟩ := h.free_in_region
        (htaken.inside holding.address (by rw [Span.mem_iff]; dsimp only; omega))
      exact absurd hin (hold.emptyOutside hzero region hregion)
    · exact hpos
  have hwhole := hold.whole hpos
  have hgrowth : Holding.Sound ⟨holding.address + holding.recorded, 1,
      Word.roundUp wanted granule - holding.recorded,
      Word.roundUp wanted granule - holding.recorded⟩ regions := by
    refine ⟨(Word.roundUp_of_dvd hextra).symm, Nat.one_dvd _, fun _ => ?_, fun hzero => ?_⟩
    · apply Nat.dvd_add hwhole
      rw [hold.rounded]
      exact Word.dvd_roundUp _ _
    · dsimp only at hzero
      omega
  have hsound : Holding.Sound
      ⟨holding.address, holding.align, wanted, Word.roundUp wanted granule⟩ regions := by
    refine ⟨rfl, hold.aligned, fun _ => hwhole, fun hzero => ?_⟩
    dsimp only at hzero
    omega
  have htake := h.take (hgrowth.granules_eq ▸ htaken) hgrowth
  rw [hgrowth.granules_eq] at htake
  apply htake.exchange [_, holding] [_]
  · simpa using hsound
  · simp
  · intro address
    simp only [List.mem_cons, List.not_mem_nil, or_false, exists_eq_or_imp,
      exists_eq_left, hsound.granules_eq, hgrowth.granules_eq, hold.granules_eq,
      Span.mem_iff]
    omega

theorem afterExpand {holding : Holding} (h : Accounts list (holding :: held) regions)
    {size wanted : Nat} (hfits : holding.Fits size) {answer : Nat} {list' : FreeList}
    (hok : list.expand holding.address (holding.layout size) wanted = .ok (answer, list')) :
    Accounts list' (holding.resized wanted ⟨holding.address, answer⟩ :: held) regions := by
  have hold := h.sound holding (by simp)
  have hround : Word.roundUp (holding.layout size).size granule = holding.recorded :=
    hold.roundUp_of_fits hfits
  rcases expand_ok hok with ⟨hle, rfl, rfl⟩ | ⟨-, hle, rfl, rfl⟩ | ⟨hlt, spans, habsorb, rfl, rfl⟩
  · apply h.afterResize _ hfits.2
    rw [← hround]
    exact Word.roundUp_mono granule_pos hle
  · exact h.afterResize (hround ▸ hle) (Nat.le_of_eq hround)
  · rw [hround] at hlt habsorb ⊢
    rw [resized_of_growth hold.rounded hlt]
    exact h.afterGrowth hlt habsorb

theorem afterDeallocate {holding : Holding} (h : Accounts list (holding :: held) regions)
    {size : Nat} (hfits : holding.Fits size) :
    Accounts (list.deallocate holding.address (holding.layout size)) held regions := by
  have hold := h.sound holding (by simp)
  have hround := hold.roundUp_of_fits hfits
  unfold deallocate
  split
  · rename_i hzero
    have hnone : holding.recorded = 0 := by
      rw [← hround, show size = 0 from hzero]
      rfl
    apply h.exchange [holding] []
    · simp
    · exact List.Pairwise.nil
    · intro address
      simp [hold.not_mem_of_empty hnone address]
  · rename_i hpos
    have hrecorded : 0 < holding.recorded :=
      Nat.lt_of_lt_of_le (Nat.pos_of_ne_zero hpos) hfits.2
    have hgive := h.give (insert_given (hold.granular hrecorded) h.tidy (by
      intro other hother
      rw [Span.apart_iff]
      rintro address ⟨hinOther, hin⟩
      exact h.freeApart holding (by simp) address hin ⟨other, hother, hinOther⟩))
    rw [hold.granules_eq, ← hround] at hgive
    exact hgive

end Accounts
end FreeList

/-! ## Calls of the interface -/

namespace Memory

variable {memory memory' : Memory} {list : FreeList}

theorem allocate_ok_of_list (hlist : memory.backend = .freeList list) {layout : Layout}
    {block : Block} (hok : memory.allocate layout = .ok (block, memory')) :
    ∃ list', list.allocate layout = .ok (block, list') ∧
      memory'.backend = .freeList list' := by
  unfold allocate at hok
  rw [hlist] at hok
  dsimp only at hok
  cases hanswer : list.allocate layout with
  | error refusal => simp [hanswer, Except.map] at hok
  | ok found =>
    simp only [hanswer, Except.map, Except.ok.injEq, Prod.mk.injEq] at hok
    obtain ⟨rfl, rfl⟩ := hok
    exact ⟨found.2, rfl, rfl⟩

theorem allocateZeroed_ok_of_list (hlist : memory.backend = .freeList list)
    {layout : Layout} {block : Block}
    (hok : memory.allocateZeroed layout = .ok (block, memory')) :
    ∃ list', list.allocate layout = .ok (block, list') ∧
      memory'.backend = .freeList list' := by
  unfold allocateZeroed allocateThenClear at hok
  rw [hlist] at hok
  dsimp only at hok
  cases hanswer : memory.allocate layout with
  | error refusal => simp [hanswer, Except.map] at hok
  | ok found =>
    simp only [hanswer, Except.map, Except.ok.injEq, Prod.mk.injEq] at hok
    obtain ⟨rfl, rfl⟩ := hok
    obtain ⟨list', hlist', hbackend⟩ : ∃ list', list.allocate layout = .ok (found.1, list') ∧
        found.2.backend = .freeList list' := allocate_ok_of_list hlist hanswer
    exact ⟨list', hlist', hbackend⟩

theorem expand_ok_of_list (hlist : memory.backend = .freeList list)
    {address wanted size : Nat} {layout : Layout}
    (hok : memory.expand address layout wanted = .ok (size, memory')) :
    ∃ list', list.expand address layout wanted = .ok (size, list') ∧
      memory'.backend = .freeList list' := by
  unfold expand at hok
  rw [hlist] at hok
  dsimp only at hok
  cases hanswer : list.expand address layout wanted with
  | error refusal => simp [hanswer, Except.map] at hok
  | ok found =>
    simp only [hanswer, Except.map, Except.ok.injEq, Prod.mk.injEq] at hok
    obtain ⟨rfl, rfl⟩ := hok
    exact ⟨found.2, rfl, rfl⟩

theorem deallocate_of_list (hlist : memory.backend = .freeList list) (address : Nat)
    (layout : Layout) :
    (memory.deallocate address layout).backend =
      .freeList (list.deallocate address layout) := by
  unfold deallocate
  rw [hlist]
  rfl

/-- A block is resized where it lies, or it is given back once another is there. -/
theorem reallocate_ok_of_list (hlist : memory.backend = .freeList list)
    {address wanted : Nat} {layout : Layout} {block : Block}
    (hok : memory.reallocate address layout wanted = .ok (block, memory')) :
    (wanted ≤ layout.size ∧ block = ⟨address, layout.size⟩ ∧ memory' = memory) ∨
      (∃ size list', list.expand address layout wanted = .ok (size, list') ∧
        block = ⟨address, size⟩ ∧ memory'.backend = .freeList list') ∨
      (layout.size < wanted ∧ ∃ list',
        Layout.Valid ⟨wanted, layout.align⟩ ∧
        list.allocate ⟨wanted, layout.align⟩ = .ok (block, list') ∧
        memory'.backend = .freeList (list'.deallocate address layout)) := by
  unfold reallocate at hok
  rw [hlist] at hok
  dsimp only at hok
  unfold reallocateByCopy at hok
  split at hok
  · rename_i hle
    obtain ⟨rfl, rfl⟩ := Prod.mk.inj (Except.ok.inj hok)
    exact Or.inl ⟨hle, rfl, rfl⟩
  rename_i hgrows
  split at hok
  · rename_i size grown hexpand
    obtain ⟨rfl, rfl⟩ := Prod.mk.inj (Except.ok.inj hok)
    obtain ⟨list', hanswer, hbackend⟩ := expand_ok_of_list hlist hexpand
    exact Or.inr (Or.inl ⟨size, list', hanswer, rfl, hbackend⟩)
  split at hok
  · contradiction
  rename_i fresh hfresh
  obtain ⟨hvalid, rfl⟩ := Layout.of?_eq_some_iff.1 hfresh
  split at hok
  · contradiction
  rename_i found moved hallocate
  obtain ⟨rfl, rfl⟩ := Prod.mk.inj (Except.ok.inj hok)
  obtain ⟨list', hanswer, hbackend⟩ := allocate_ok_of_list hlist hallocate
  refine Or.inr (Or.inr ⟨Nat.lt_of_not_le hgrows, list', hvalid, hanswer, ?_⟩)
  have hcopied : Backend.freeList list' =
      { moved with bytes := moved.bytes.copy address found.address layout.size }.backend :=
    hbackend.symm
  exact deallocate_of_list hcopied.symm address layout

theorem addRegion_of_list (hlist : memory.backend = .freeList list) (region : Span) :
    (memory.addRegion region).backend = .freeList (list.addRegion region) := by
  unfold addRegion
  rw [hlist]
  rfl

end Memory

namespace AllocatorState

/-- The memory is a free list whose account agrees with what is held of it. -/
def Balanced (state : AllocatorState) : Prop :=
  ∃ list, state.memory.backend = .freeList list ∧
    list.Accounts state.held state.regions

variable {state : AllocatorState}

theorem Balanced.accounts_front {list : FreeList} {holding : Holding}
    (h : list.Accounts state.held state.regions) (hheld : holding ∈ state.held) :
    list.Accounts (holding :: state.held.erase holding) state.regions :=
  h.perm (List.perm_cons_erase hheld)

theorem Balanced.afterReceived (h : state.Balanced) {layout : Layout}
    (hvalid : layout.Valid)
    (hempty : layout.size = 0 → ∀ region ∈ state.regions, layout.align ∉ region)
    {answer : Except Refusal (Block × Memory)}
    (hanswer : ∀ list, state.memory.backend = .freeList list →
      ∀ block memory, answer = .ok (block, memory) →
        ∃ list', list.allocate layout = .ok (block, list') ∧
          memory.backend = .freeList list') :
    (state.received layout answer).Balanced := by
  obtain ⟨list, hlist, haccounts⟩ := h
  cases answer with
  | error refusal => exact ⟨list, hlist, haccounts⟩
  | ok found =>
    obtain ⟨list', hok, hbackend⟩ := hanswer list hlist found.1 found.2 rfl
    exact ⟨list', hbackend, haccounts.afterAllocate hvalid hempty hok⟩

theorem Balanced.afterExpand (h : state.Balanced) {holding : Holding} {size wanted : Nat}
    (hheld : holding ∈ state.held) (hfits : holding.Fits size) :
    (state.perform (.expand holding size wanted)).Balanced := by
  obtain ⟨list, hlist, haccounts⟩ := h
  show (state.resized holding wanted ((state.memory.expand _ _ _).map _)).Balanced
  cases hok : state.memory.expand holding.address (holding.layout size) wanted with
  | error refusal => exact ⟨list, hlist, haccounts⟩
  | ok grown =>
    obtain ⟨list', hanswer, hbackend⟩ := Memory.expand_ok_of_list hlist hok
    exact ⟨list', hbackend, (accounts_front haccounts hheld).afterExpand hfits hanswer⟩

theorem Balanced.afterReallocate (h : state.Balanced) {holding : Holding}
    {size wanted : Nat} (hheld : holding ∈ state.held) (hfits : holding.Fits size) :
    (state.perform (.reallocate holding size wanted)).Balanced := by
  obtain ⟨list, hlist, haccounts⟩ := h
  have hfront := accounts_front haccounts hheld
  have hsound := haccounts.sound holding hheld
  show (state.resized holding wanted (state.memory.reallocate _ _ _)).Balanced
  cases hok : state.memory.reallocate holding.address (holding.layout size) wanted with
  | error refusal => exact ⟨list, hlist, haccounts⟩
  | ok moved =>
    obtain ⟨block, memory'⟩ := moved
    rcases Memory.reallocate_ok_of_list hlist hok with
      ⟨hle, rfl, rfl⟩ | ⟨answer, list', hanswer, rfl, hbackend⟩ |
        ⟨hgrows, list', hvalid, hanswer, hbackend⟩
    · refine ⟨list, hlist, hfront.afterResize ?_ hfits.2⟩
      rw [← hsound.roundUp_of_fits hfits]
      exact Word.roundUp_mono FreeList.granule_pos hle
    · exact ⟨list', hbackend, hfront.afterExpand hfits hanswer⟩
    · -- both blocks are held until the contents are moved
      have hboth := hfront.afterAllocate hvalid
        (fun hzero => absurd hgrows (by simp only at hzero; omega)) hanswer
      have hlast := (hboth.perm (List.Perm.swap _ _ _)).afterDeallocate hfits
      have hmoved : holding.resized wanted block =
          .of ⟨wanted, (holding.layout size).align⟩ block := by
        have hrequested : holding.requested ≤ wanted :=
          Nat.le_trans hfits.1 (Nat.le_of_lt hgrows)
        have hfresh := hboth.sound (.of ⟨wanted, (holding.layout size).align⟩ block) (by simp)
        have hrecorded : holding.recorded ≤ block.size := by
          have hblock : block.size = Word.roundUp wanted FreeList.granule := hfresh.rounded
          rw [hblock, hsound.rounded]
          exact Word.roundUp_mono FreeList.granule_pos hrequested
        unfold Holding.resized Holding.of
        rw [Nat.max_eq_right hrequested, Nat.max_eq_right hrecorded]
        rfl
      refine ⟨_, hbackend, ?_⟩
      unfold resized
      dsimp only
      rw [hmoved]
      exact hlast

theorem Balanced.afterDeallocate (h : state.Balanced) {holding : Holding} {size : Nat}
    (hheld : holding ∈ state.held) (hfits : holding.Fits size) :
    (state.perform (.deallocate holding size)).Balanced := by
  obtain ⟨list, hlist, haccounts⟩ := h
  exact ⟨_, Memory.deallocate_of_list hlist holding.address (holding.layout size),
    (accounts_front haccounts hheld).afterDeallocate hfits⟩

theorem Balanced.perform (h : state.Balanced) {demand : Demand}
    (hallowed : state.Allows demand) : (state.perform demand).Balanced := by
  cases demand with
  | addRegion region =>
    obtain ⟨list, hlist, haccounts⟩ := h
    exact ⟨_, Memory.addRegion_of_list hlist region,
      haccounts.afterRegion hallowed.1 hallowed.2⟩
  | allocate layout =>
    exact h.afterReceived hallowed.1 hallowed.2 fun list hlist block memory hok =>
      Memory.allocate_ok_of_list hlist hok
  | allocateZeroed layout =>
    exact h.afterReceived hallowed.1 hallowed.2 fun list hlist block memory hok =>
      Memory.allocateZeroed_ok_of_list hlist hok
  | expand holding size wanted => exact h.afterExpand hallowed.1 hallowed.2
  | reallocate holding size wanted => exact h.afterReallocate hallowed.1 hallowed.2
  | deallocate holding size => exact h.afterDeallocate hallowed.1 hallowed.2

/-- No byte of a free list is lost or owned twice, whatever is asked of it and in
whatever order. -/
theorem freeList_conserved (bytes : Bytes) (demands : List Demand)
    (hlawful : Lawful ⟨⟨.freeList {}, bytes⟩, [], []⟩ demands) :
    ∃ list,
      (run ⟨⟨.freeList {}, bytes⟩, [], []⟩ demands).memory.backend = .freeList list ∧
      list.Accounts (run ⟨⟨.freeList {}, bytes⟩, [], []⟩ demands).held
        (run ⟨⟨.freeList {}, bytes⟩, [], []⟩ demands).regions ∧
      ∀ region ∈ (run ⟨⟨.freeList {}, bytes⟩, [], []⟩ demands).regions,
        (FreeList.usable region).LargestGranular region := by
  have hrun := run_induction Balanced
    (fun state demand hgood hallowed => Balanced.perform hgood hallowed)
    ⟨{}, rfl, FreeList.Accounts.initial⟩ hlawful
  obtain ⟨list, hlist, haccounts⟩ := hrun
  exact ⟨list, hlist, haccounts, fun region _ => FreeList.usable_largest region⟩

/-- Two blocks of which one grows in place and one is moved, and an empty one. -/
def growthAndMove : List Demand :=
  [.addRegion ⟨1000, 500⟩, .addRegion ⟨1500, 300⟩, .allocate ⟨40, 8⟩,
    .allocateZeroed ⟨100, 64⟩, .expand ⟨1088, 64, 100, 112⟩ 105 150,
    .reallocate ⟨1008, 8, 40, 48⟩ 44 200, .allocate ⟨0, 8⟩,
    .deallocate ⟨1088, 64, 150, 160⟩ 155]

theorem freeList_conserved_growthAndMove :
    Lawful ⟨⟨.freeList {}, fun _ => 0⟩, [], []⟩ growthAndMove ∧
      ∃ list,
        (run ⟨⟨.freeList {}, fun _ => 0⟩, [], []⟩ growthAndMove).memory.backend =
          .freeList list ∧
        list.Accounts (run ⟨⟨.freeList {}, fun _ => 0⟩, [], []⟩ growthAndMove).held
          (run ⟨⟨.freeList {}, fun _ => 0⟩, [], []⟩ growthAndMove).regions ∧
        ∀ region ∈ (run ⟨⟨.freeList {}, fun _ => 0⟩, [], []⟩ growthAndMove).regions,
          (FreeList.usable region).LargestGranular region :=
  ⟨by decide +kernel, freeList_conserved (fun _ => 0) growthAndMove (by decide +kernel)⟩

end AllocatorState
end Freehold
