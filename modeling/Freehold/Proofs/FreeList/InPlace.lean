import Freehold.Proofs.FreeList.FirstFit

/-!
# Growth in place

A block grows in place by the bytes between its old end and its new one.  The walk looks for
a span that starts at the old end.  As the byte before is taken and spans are maximal, free
bytes at the old end can only be the front of such a span, so the walk finds them whenever
they are free, and finds nothing where one of them is taken.
-/

namespace Freehold
namespace FreeList

variable {spans : List Span} {span : Span} {address extra : Nat}

/-- The walk reaches every span of a tidy list. -/
theorem absorb_of_mem (htidy : Tidy spans) (hmem : span ∈ spans) (hextra : extra ≤ span.size) :
    ∃ rest, absorb span.start extra spans = some rest := by
  induction spans with
  | nil => cases hmem
  | cons head rest ih =>
    obtain ⟨hhead, hlater, hrest⟩ := tidy_cons.1 htidy
    unfold absorb
    rcases List.mem_cons.1 hmem with rfl | hmem
    · rw [if_neg (Nat.lt_irrefl _), if_pos rfl, if_neg (Nat.not_lt.2 hextra)]
      split
      · exact ⟨_, rfl⟩
      · exact ⟨_, rfl⟩
    · have hgap := hlater span hmem
      have hpos := hhead.pos
      unfold Span.stop at hgap
      obtain ⟨left, hleft⟩ := ih hrest hmem
      rw [if_neg (by omega), if_neg (by omega), hleft]
      exact ⟨_, rfl⟩

/-- Behind a byte that is taken, bytes can be absorbed exactly when all of them are free. -/
theorem absorb_iff (htidy : Tidy spans) (hgranular : granule ∣ extra) (hpos : 0 < extra)
    (hbefore : ∀ byte, byte + 1 = address → ¬ Free spans byte) :
    (∃ rest, absorb address extra spans = some rest) ↔
      ∀ byte ∈ (⟨address, extra⟩ : Span), Free spans byte := by
  constructor
  · rintro ⟨rest, habsorb⟩
    exact (absorb_taken hgranular hpos htidy habsorb).inside
  · intro hfree
    obtain ⟨span, hmem, hleft, hright⟩ := htidy.run_inside ⟨address, extra⟩ hpos hfree
    unfold Span.stop at hright
    dsimp only at hleft hright
    have hstart : span.start = address := by
      by_contra hlower
      apply hbefore (address - 1) (by omega)
      refine ⟨span, hmem, ?_⟩
      rw [Span.mem_iff]
      omega
    rw [← hstart]
    exact absorb_of_mem htidy hmem (by omega)

/-! ## Requests -/

variable {list : FreeList} {layout : Layout} {wanted : Nat}

/-- What a block of the layout at the address would grow by. -/
def growth (address : Nat) (layout : Layout) (wanted : Nat) : Span :=
  ⟨address + Word.roundUp layout.size granule,
    Word.roundUp wanted granule - Word.roundUp layout.size granule⟩

/-- The answers to a request for growth.  The granules of the block may be enough already,
the new size may not fit a word, and otherwise it depends on the bytes behind the block. -/
theorem expand_exact (htidy : Tidy list.spans) (hbytes : list.freeBytes = total list.spans)
    (hgrows : layout.size < wanted)
    (hfits : Word.roundUp layout.size granule < Word.limit)
    (hbefore : ∀ byte, byte + 1 = address + Word.roundUp layout.size granule →
      ¬ Free list.spans byte) :
    (Word.roundUp wanted granule ≤ Word.roundUp layout.size granule ∧
      list.expand address layout wanted = .ok (Word.roundUp layout.size granule, list)) ∨
    (Word.limit ≤ Word.roundUp wanted granule ∧
      list.expand address layout wanted = .error { kind := .integerOverflow }) ∨
    (Word.roundUp layout.size granule < Word.roundUp wanted granule ∧
      Word.roundUp wanted granule < Word.limit ∧
      ((¬ (∀ byte ∈ growth address layout wanted, Free list.spans byte) ∧
          list.expand address layout wanted = .error { kind := .inPlaceGrowthFailed }) ∨
        ((∀ byte ∈ growth address layout wanted, Free list.spans byte) ∧
          ∃ list', list.expand address layout wanted = .ok (Word.roundUp wanted granule, list') ∧
            list.Reduced list' (growth address layout wanted)))) := by
  have hold : Word.roundUp? layout.size granule = some (Word.roundUp layout.size granule) :=
    Word.fit?_eq_some_iff.2 ⟨hfits, rfl⟩
  unfold expand
  rw [if_neg (Nat.not_le.2 hgrows), hold]
  cases hnew : Word.roundUp? wanted granule with
  | none => exact .inr (.inl ⟨Word.fit?_eq_none_iff.1 hnew, rfl⟩)
  | some new =>
    obtain ⟨hnewFits, rfl⟩ := Word.fit?_eq_some_iff.1 hnew
    dsimp only
    by_cases hle : Word.roundUp wanted granule ≤ Word.roundUp layout.size granule
    · exact .inl ⟨hle, if_pos hle⟩
    · have hlt := Nat.lt_of_not_le hle
      have hgranular : granule ∣ (growth address layout wanted).size :=
        Nat.dvd_sub (Word.dvd_roundUp _ _) (Word.dvd_roundUp _ _)
      have hpos : 0 < (growth address layout wanted).size := Nat.sub_pos_of_lt hlt
      have hiff := absorb_iff htidy hgranular hpos hbefore
      rw [if_neg hle]
      refine .inr (.inr ⟨hlt, hnewFits, ?_⟩)
      cases habsorb : absorb (address + Word.roundUp layout.size granule)
          (Word.roundUp wanted granule - Word.roundUp layout.size granule) list.spans with
      | none =>
        refine .inl ⟨fun hfree => ?_, rfl⟩
        obtain ⟨rest, hrest⟩ := hiff.2 hfree
        exact Option.some_ne_none rest (hrest.symm.trans habsorb)
      | some rest =>
        have htaken := absorb_taken hgranular hpos htidy habsorb
        refine .inr ⟨hiff.1 ⟨rest, habsorb⟩, _, rfl, htaken.tidy, htaken.inside,
          htaken.free_iff, ?_⟩
        have htotal := htaken.total_add
        unfold growth at htotal ⊢
        dsimp only at htotal ⊢
        omega

end FreeList

namespace Memory

theorem expand_of_list {memory : Memory} {list : FreeList}
    (hlist : memory.backend = .freeList list) (address : Nat) (layout : Layout) (wanted : Nat) :
    memory.expand address layout wanted = (list.expand address layout wanted).map fun found =>
      (found.1, memory.withList .freeList found.2) := by
  unfold expand
  rw [hlist]

end Memory

namespace AllocatorState

/-- How a free list answers when a block is to grow in place.  Sizes count as rounded up to
whole granules. -/
structure GrowsExactly (state : AllocatorState) (list : FreeList) (holding : Holding)
    (size wanted : Nat) : Prop where
  served_iff :
    (∃ answer memory, state.memory.expand holding.address (holding.layout size) wanted =
      .ok (answer, memory)) ↔
    Word.roundUp wanted FreeList.granule ≤ Word.roundUp size FreeList.granule ∨
      ∀ byte ∈ FreeList.growth holding.address (holding.layout size) wanted,
        FreeList.Free list.spans byte
  /-- Granules that the block takes up already are enough. -/
  kept : Word.roundUp wanted FreeList.granule ≤ Word.roundUp size FreeList.granule →
    state.memory.expand holding.address (holding.layout size) wanted =
      .ok (Word.roundUp size FreeList.granule, state.memory.withList .freeList list)
  /-- Otherwise the block takes exactly what it grows by. -/
  grown : Word.roundUp size FreeList.granule < Word.roundUp wanted FreeList.granule →
    ∀ answer memory, state.memory.expand holding.address (holding.layout size) wanted =
      .ok (answer, memory) →
    answer = Word.roundUp wanted FreeList.granule ∧
      ∃ list', memory = state.memory.withList .freeList list' ∧
        list.Reduced list' (FreeList.growth holding.address (holding.layout size) wanted)
  refused : ∀ refusal, state.memory.expand holding.address (holding.layout size) wanted =
      .error refusal →
    (refusal.kind = .integerOverflow ↔ Word.limit ≤ Word.roundUp wanted FreeList.granule) ∧
      (refusal.kind = .integerOverflow ∨ refusal.kind = .inPlaceGrowthFailed) ∧
      state.perform (.expand holding size wanted) = state

variable {state : AllocatorState} {list : FreeList} {holding : Holding} {size wanted : Nat}

/-- What a block takes up ends in a region. -/
theorem granules_lt_of_regions (h : list.Accounts state.held state.regions)
    (hlow : ∀ region ∈ state.regions, region.stop < Word.limit) (hheld : holding ∈ state.held)
    (hpos : 0 < holding.recorded) : holding.address + holding.recorded < Word.limit := by
  have hgranules := (h.sound holding hheld).granules_eq
  have hlast : holding.address + holding.recorded - 1 ∈ holding.granules := by
    rw [hgranules, Span.mem_iff]
    dsimp only
    omega
  obtain ⟨region, hregion, hin⟩ := (h.owned_iff _).1 (.inl ⟨holding, hheld, hlast⟩)
  have hstop := ((FreeList.usable_largest region).inside _ hin).2
  have hend := hlow region hregion
  omega

/-- Free bytes end below the end of the address space. -/
theorem growth_lt_of_regions (h : list.Accounts state.held state.regions)
    (hlow : ∀ region ∈ state.regions, region.stop < Word.limit) {address : Nat}
    {layout : Layout}
    (hlt : Word.roundUp layout.size FreeList.granule < Word.roundUp wanted FreeList.granule)
    (hfree : ∀ byte ∈ FreeList.growth address layout wanted, FreeList.Free list.spans byte) :
    Word.roundUp wanted FreeList.granule < Word.limit := by
  have hlast : address + Word.roundUp wanted FreeList.granule - 1 ∈
      FreeList.growth address layout wanted := by
    unfold FreeList.growth
    rw [Span.mem_iff]
    dsimp only
    omega
  obtain ⟨region, hregion, hin⟩ := h.free_in_region (hfree _ hlast)
  have hstop := hin.2
  have hend := hlow region hregion
  omega

theorem GrowsExactly.of_refusal {kind : ErrorKind}
    (hanswer : state.memory.expand holding.address (holding.layout size) wanted =
      .error { kind := kind })
    (hlt : Word.roundUp size FreeList.granule < Word.roundUp wanted FreeList.granule)
    (htaken : ¬ ∀ byte ∈ FreeList.growth holding.address (holding.layout size) wanted,
      FreeList.Free list.spans byte)
    (hover : kind = .integerOverflow ↔ Word.limit ≤ Word.roundUp wanted FreeList.granule)
    (hkind : kind = .integerOverflow ∨ kind = .inPlaceGrowthFailed) :
    state.GrowsExactly list holding size wanted := by
  constructor
  case served_iff =>
    constructor
    · rintro ⟨answer, memory, hok⟩
      cases hok.symm.trans hanswer
    · rintro (hle | hfree)
      · exact absurd hle (Nat.not_le.2 hlt)
      · exact absurd hfree htaken
  case kept => exact fun hle => absurd hle (Nat.not_le.2 hlt)
  case grown =>
    intro _ answer memory hok
    cases hok.symm.trans hanswer
  case refused =>
    intro refusal herror
    obtain rfl := Except.error.inj (herror.symm.trans hanswer)
    refine ⟨hover, hkind, ?_⟩
    simp only [perform, hanswer, Except.map, resized]

theorem growsExactly_of_accounts (hlist : state.memory.backend = .freeList list)
    (h : list.Accounts state.held state.regions)
    (hlow : ∀ region ∈ state.regions, region.stop < Word.limit) (hheld : holding ∈ state.held)
    (hpos : 0 < holding.recorded) (hfits : holding.Fits size) (hgrows : size < wanted) :
    state.GrowsExactly list holding size wanted := by
  have hsound := h.sound holding hheld
  have hround : Word.roundUp size FreeList.granule = holding.recorded :=
    hsound.roundUp_of_fits hfits
  have hend := granules_lt_of_regions h hlow hheld hpos
  have hwords : Word.roundUp (holding.layout size).size FreeList.granule < Word.limit := by
    show Word.roundUp size FreeList.granule < Word.limit
    omega
  -- the last byte of the block is taken, so no free span reaches over its end
  have hbefore : ∀ byte, byte + 1 = holding.address + Word.roundUp size FreeList.granule →
      ¬ FreeList.Free list.spans byte := by
    intro byte hnext
    apply h.freeApart holding hheld
    rw [hsound.granules_eq, Span.mem_iff]
    dsimp only
    omega
  have hanswer := Memory.expand_of_list hlist holding.address (holding.layout size) wanted
  rcases FreeList.expand_exact h.tidy h.freeBytes_eq hgrows hwords hbefore with
    ⟨hle, heq⟩ | ⟨hover, heq⟩ | ⟨hlt, hbelow, ⟨htaken, heq⟩ | ⟨hfree, list', heq, hreduced⟩⟩
  · rw [heq] at hanswer
    constructor
    case served_iff => exact ⟨fun _ => .inl hle, fun _ => ⟨_, _, hanswer⟩⟩
    case kept => exact fun _ => hanswer
    case grown => exact fun hlt => absurd hle (Nat.not_le.2 hlt)
    case refused =>
      intro refusal herror
      cases herror.symm.trans hanswer
  · rw [heq] at hanswer
    have hlt := Nat.lt_of_lt_of_le hwords hover
    refine .of_refusal hanswer hlt (fun hfree => ?_) ⟨fun _ => hover, fun _ => rfl⟩ (.inl rfl)
    exact absurd (growth_lt_of_regions h hlow hlt hfree) (Nat.not_lt.2 hover)
  · rw [heq] at hanswer
    refine .of_refusal hanswer hlt htaken ⟨fun hkind => ?_, fun hover => ?_⟩ (.inr rfl)
    · cases hkind
    · exact absurd hbelow (Nat.not_lt.2 hover)
  · rw [heq] at hanswer
    constructor
    case served_iff => exact ⟨fun _ => .inr hfree, fun _ => ⟨_, _, hanswer⟩⟩
    case kept => exact fun hle => absurd hle (Nat.not_le.2 hlt)
    case grown =>
      intro _ answer memory hok
      obtain ⟨rfl, rfl⟩ := Prod.mk.inj (Except.ok.inj (hok.symm.trans hanswer))
      exact ⟨rfl, list', rfl, hreduced⟩
    case refused =>
      intro refusal herror
      cases herror.symm.trans hanswer

/-- A block of a free list grows in place exactly when its granules are enough already or
the bytes up to its new end are free, and takes exactly these bytes.  Otherwise the request
is refused, and nothing changes. -/
theorem freeList_grows_exactly (bytes : Bytes) {demands : List Demand}
    (hlawful : (fresh bytes).Lawful demands)
    (hlow : ∀ region ∈ ((fresh bytes).run demands).regions, region.stop < Word.limit)
    {holding : Holding} (hheld : holding ∈ ((fresh bytes).run demands).held)
    (hpos : 0 < holding.recorded) {size wanted : Nat} (hfits : holding.Fits size)
    (hgrows : size < wanted) :
    ∃ list, ((fresh bytes).run demands).memory.backend = .freeList list ∧
      (∀ byte, FreeList.Free list.spans byte ↔ ((fresh bytes).run demands).Vacant byte) ∧
      ((fresh bytes).run demands).GrowsExactly list holding size wanted := by
  obtain ⟨list, hlist, haccounts⟩ := balanced_run bytes hlawful
  exact ⟨list, hlist, fun byte => free_iff_vacant haccounts byte,
    growsExactly_of_accounts hlist haccounts hlow hheld hpos hfits hgrows⟩

/-- A block with a gap behind it, which another block closes. -/
def closedGap : List Demand :=
  [.addRegion ⟨1024, 512⟩, .addRegion ⟨4096, 256⟩, .allocate ⟨40, 8⟩, .allocate ⟨100, 8⟩,
    .allocate ⟨64, 16⟩, .deallocate ⟨1072, 8, 100, 112⟩ 105]

theorem freeList_grows_exactly_closedGap :
    (fresh fun _ => 0).Lawful closedGap ∧
      (∀ region ∈ ((fresh fun _ => 0).run closedGap).regions, region.stop < Word.limit) ∧
      ⟨1024, 8, 40, 48⟩ ∈ ((fresh fun _ => 0).run closedGap).held ∧
      Holding.Fits ⟨1024, 8, 40, 48⟩ 44 ∧
      ∃ list, ((fresh fun _ => 0).run closedGap).memory.backend = .freeList list ∧
        (∀ byte ∈ (⟨1072, 112⟩ : Span), FreeList.Free list.spans byte) ∧
        ¬ ∀ byte ∈ (⟨1072, 128⟩ : Span), FreeList.Free list.spans byte := by
  have hlawful : (fresh fun _ => 0).Lawful closedGap := by decide +kernel
  have hlow : ∀ region ∈ ((fresh fun _ => 0).run closedGap).regions,
      region.stop < Word.limit := by decide +kernel
  have hheld : ⟨1024, 8, 40, 48⟩ ∈ ((fresh fun _ => 0).run closedGap).held := by decide +kernel
  have hfits : Holding.Fits ⟨1024, 8, 40, 48⟩ 44 := by decide
  refine ⟨hlawful, hlow, hheld, hfits, ?_⟩
  obtain ⟨list, hlist, -, hwhole⟩ :=
    freeList_grows_exactly (fun _ => 0) hlawful hlow hheld (by decide) hfits
      (by decide : 44 < 150)
  obtain ⟨list', hlist', -, hbeyond⟩ :=
    freeList_grows_exactly (fun _ => 0) hlawful hlow hheld (by decide) hfits
      (by decide : 44 < 161)
  obtain rfl : list = list' := Backend.freeList.inj (hlist.symm.trans hlist')
  refine ⟨list, hlist, ?_, fun hfree => ?_⟩
  · have hanswer : (((fresh fun _ => 0).run closedGap).memory.expand 1024
        ⟨44, 8⟩ 150).toOption.map Prod.fst = some 160 := by decide +kernel
    cases hok : ((fresh fun _ => 0).run closedGap).memory.expand 1024 ⟨44, 8⟩ 150 with
    | error refusal =>
      rw [hok] at hanswer
      contradiction
    | ok found =>
      rcases hwhole.served_iff.1 ⟨_, _, hok⟩ with hle | hfree
      · exact absurd hle (by decide)
      · exact hfree
  · obtain ⟨answer, memory, hok⟩ := hbeyond.served_iff.2 (.inr hfree)
    have hanswer : (((fresh fun _ => 0).run closedGap).memory.expand 1024
        ⟨44, 8⟩ 161).toOption.isNone := by decide +kernel
    have hok : ((fresh fun _ => 0).run closedGap).memory.expand 1024 ⟨44, 8⟩ 161 =
        .ok (answer, memory) := hok
    rw [hok] at hanswer
    contradiction

end AllocatorState
end Freehold
