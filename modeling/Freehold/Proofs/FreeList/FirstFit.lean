import Mathlib.Order.Bounds.Basic
import Freehold.Proofs.FreeList.History

/-!
# First fit

An address fits a request when it is a multiple of the alignment and starts a run of free
bytes that is long enough.  In a tidy list such a run lies within one span, because spans do
not touch, and the walk finds the lowest one.  Where an address computation overflows, no
later span has a run either: later spans start higher, so that the least multiple of the
alignment in them is not lower, and every span ends below the end of the address space.
-/

namespace Freehold
namespace FreeList

variable {spans rest : List Span} {span : Span} {size align address : Nat}

/-- A multiple of the alignment that starts a run of free bytes. -/
def Fits (spans : List Span) (size align address : Nat) : Prop :=
  align ∣ address ∧ ∀ byte ∈ (⟨address, size⟩ : Span), Free spans byte

theorem Tidy.of_append {earlier later : List Span} (h : Tidy (earlier ++ later)) : Tidy later :=
  ⟨fun span hmem => h.granular span (List.mem_append_right earlier hmem),
    (List.pairwise_append.1 h.gaps).2.1⟩

/-- A run of free bytes lies within one span. -/
theorem Tidy.run_inside (h : Tidy spans) (run : Span) (hpos : 0 < run.size)
    (hfree : ∀ byte ∈ run, Free spans byte) :
    ∃ span ∈ spans, span.start ≤ run.start ∧ run.stop ≤ span.stop := by
  obtain ⟨span, hmem, hin⟩ := hfree run.start (by rw [Span.mem_iff]; omega)
  refine ⟨span, hmem, hin.1, ?_⟩
  by_contra hlong
  -- The byte right after a span is never free, as no other span touches it.
  apply (h.mem_iff.1 hmem).after
  apply hfree
  have hstart := hin.2
  unfold Span.stop at *
  rw [Span.mem_iff]
  omega

theorem fits_of_inside (hdvd : align ∣ address) (hmem : span ∈ spans)
    (hleft : span.start ≤ address) (hright : address + size ≤ span.stop) :
    Fits spans size align address := by
  refine ⟨hdvd, fun byte hin => ⟨span, hmem, ?_⟩⟩
  unfold Span.stop at hright
  rw [Span.mem_iff] at hin ⊢
  dsimp only at hin
  omega

theorem Fits.inside (h : Fits spans size align address) (htidy : Tidy spans)
    (hpos : 0 < size) :
    ∃ span ∈ spans, span.start ≤ address ∧ address + size ≤ span.stop :=
  htidy.run_inside ⟨address, size⟩ hpos h.2

/-- What fits is not below the place that is tried in the first span, and does not reach the
end of the address space. -/
theorem Fits.bounds (h : Fits (span :: rest) size align address)
    (htidy : Tidy (span :: rest)) (hpos : 0 < size)
    (hlow : ∀ other ∈ span :: rest, other.stop < Word.limit) :
    Word.roundUp span.start align ≤ address ∧ address + size < Word.limit := by
  obtain ⟨owner, hmem, hleft, hright⟩ := h.inside htidy hpos
  have hend := hlow owner hmem
  have hstart : span.start ≤ owner.start := by
    rcases List.mem_cons.1 hmem with rfl | hlater
    · exact Nat.le_refl _
    · have hgap := (tidy_cons.1 htidy).2.1 owner hlater
      unfold Span.stop at hgap
      omega
  exact ⟨Word.roundUp_le h.1 (Nat.le_trans hstart hleft), by omega⟩

/-- A first span that is too short is passed over. -/
theorem fits_cons_of_short (htidy : Tidy (span :: rest)) (hpos : 0 < size)
    (hshort : span.stop < Word.roundUp span.start align + size) :
    Fits (span :: rest) size align address ↔ Fits rest size align address := by
  constructor
  · intro h
    obtain ⟨owner, hmem, hleft, hright⟩ := h.inside htidy hpos
    rcases List.mem_cons.1 hmem with rfl | hlater
    · have hle := Word.roundUp_le h.1 hleft
      omega
    · exact fits_of_inside h.1 hlater hleft hright
  · rintro ⟨hdvd, hfree⟩
    exact ⟨hdvd, fun byte hin => free_cons.2 (Or.inr (hfree byte hin))⟩

/-- The walk ends early only where nothing fits any more. -/
theorem not_fits_of_overflow (htidy : Tidy (span :: rest)) (hpos : 0 < size)
    (hlow : ∀ other ∈ span :: rest, other.stop < Word.limit)
    (hover : (Word.roundUp? span.start align).bind (Word.add? · size) = none) :
    ¬ Fits (span :: rest) size align address := by
  intro h
  obtain ⟨hle, hend⟩ := h.bounds htidy hpos hlow
  have hstart : Word.roundUp? span.start align = some (Word.roundUp span.start align) :=
    Word.fit?_eq_some_iff.2 ⟨by omega, rfl⟩
  rw [hstart, Option.bind_some] at hover
  have hlimit : Word.limit ≤ Word.roundUp span.start align + size :=
    Word.fit?_eq_none_iff.1 hover
  omega

/-- What the walk does at a span: it ends, it goes on to the next span, or it takes the
request out of this one. -/
theorem carve_cons (size align : Nat) (span : Span) (rest : List Span) :
    ((Word.roundUp? span.start align).bind (Word.add? · size) = none ∧
      carve size align (span :: rest) = none) ∨
    (span.stop < Word.roundUp span.start align + size ∧
      carve size align (span :: rest) =
        (carve size align rest).map fun found => (found.1, span :: found.2)) ∨
    (Word.roundUp span.start align + size ≤ span.stop ∧
      ∃ left, carve size align (span :: rest) = some (Word.roundUp span.start align, left)) := by
  simp only [carve]
  cases hfirst : Word.roundUp? span.start align with
  | none => exact Or.inl ⟨rfl, rfl⟩
  | some first =>
    obtain ⟨-, rfl⟩ := Word.fit?_eq_some_iff.1 hfirst
    rw [Option.bind_some]
    dsimp only
    cases hstop : Word.add? (Word.roundUp span.start align) size with
    | none => exact Or.inl ⟨rfl, rfl⟩
    | some stop =>
      obtain ⟨-, rfl⟩ := Word.fit?_eq_some_iff.1 hstop
      dsimp only
      by_cases hshort : span.stop < Word.roundUp span.start align + size
      · exact Or.inr (Or.inl ⟨hshort, if_pos hshort⟩)
      · refine Or.inr (Or.inr ⟨Nat.le_of_not_lt hshort, ?_⟩)
        rw [if_neg hshort]
        by_cases hgap : span.start < Word.roundUp span.start align
        · exact ⟨_, if_pos hgap⟩
        · exact ⟨_, if_neg hgap⟩

theorem not_fits_of_carve (htidy : Tidy spans) (hpos : 0 < size)
    (hlow : ∀ span ∈ spans, span.stop < Word.limit) (hcarve : carve size align spans = none) :
    ¬ Fits spans size align address := by
  -- The rest of a tidy list is tidy and ends as low, so the walk may go on from any span.
  induction spans with
  | nil =>
    intro h
    obtain ⟨owner, hmem, -⟩ := h.inside htidy hpos
    cases hmem
  | cons span rest ih =>
    rcases carve_cons size align span rest with ⟨hover, -⟩ | ⟨hshort, heq⟩ | ⟨-, left, heq⟩
    · exact not_fits_of_overflow htidy hpos hlow hover
    · rw [fits_cons_of_short htidy hpos hshort]
      exact ih (tidy_cons.1 htidy).2.2
        (fun other hmem => hlow other (List.mem_cons_of_mem span hmem))
        (Option.map_eq_none_iff.1 (heq.symm.trans hcarve))
    · rw [heq] at hcarve
      contradiction

/-- A request is carved out at the lowest address that fits it. -/
theorem isLeast_of_carve (htidy : Tidy spans) (hpos : 0 < size) (halign : 0 < align)
    (hlow : ∀ span ∈ spans, span.stop < Word.limit) {start : Nat} {left : List Span}
    (hcarve : carve size align spans = some (start, left)) :
    IsLeast {address | Fits spans size align address} start := by
  induction spans generalizing start left with
  | nil => simp [carve] at hcarve
  | cons span rest ih =>
    rcases carve_cons size align span rest with ⟨-, heq⟩ | ⟨hshort, heq⟩ | ⟨hlong, left', heq⟩
    · rw [heq] at hcarve
      contradiction
    · obtain ⟨⟨start', left'⟩, hfound, hpair⟩ := Option.map_eq_some_iff.1 (heq.symm.trans hcarve)
      obtain ⟨rfl, rfl⟩ := Prod.mk.inj hpair
      simp only [fits_cons_of_short htidy hpos hshort]
      exact ih (tidy_cons.1 htidy).2.2
        (fun other hmem => hlow other (List.mem_cons_of_mem span hmem)) hfound
    · obtain ⟨rfl, -⟩ := Prod.mk.inj (Option.some.inj (heq.symm.trans hcarve))
      constructor
      · exact fits_of_inside (Word.dvd_roundUp span.start align) List.mem_cons_self
          (Word.le_roundUp span.start halign) hlong
      · intro address hfits
        exact (Fits.bounds hfits htidy hpos hlow).1

/-! ## Requests -/

theorem roundUp?_size {layout : Layout} (hvalid : layout.Valid) :
    Word.roundUp? layout.size granule = some (Word.roundUp layout.size granule) := by
  have hsize := hvalid.size_lt
  have hround := Word.roundUp_lt layout.size granule_pos
  refine Word.fit?_eq_some_iff.2 ⟨?_, rfl⟩
  unfold granule at *
  unfold Word.limit
  omega

variable {list : FreeList} {layout : Layout}

/-- A request that is not empty is answered as it is carved. -/
theorem allocate_of_pos (hvalid : layout.Valid) (hpos : 0 < layout.size) :
    list.allocate layout =
      match carve (Word.roundUp layout.size granule) (max layout.align granule) list.spans with
      | none => .error { kind := .allocationFailed, remark := some (noSpan layout) }
      | some (start, spans) =>
        .ok (⟨start, Word.roundUp layout.size granule⟩,
          ⟨spans, list.freeBytes - Word.roundUp layout.size granule⟩) := by
  unfold allocate
  rw [if_neg (Nat.ne_of_gt hpos)]
  generalize hrounded : Word.roundUp? layout.size granule = rounded
  obtain rfl := hrounded.symm.trans (roundUp?_size hvalid)
  rfl

def Suits (list : FreeList) (layout : Layout) (address : Nat) : Prop :=
  Fits list.spans (Word.roundUp layout.size granule) (max layout.align granule) address

/-- What was taken off a list, and that it was counted. -/
structure Reduced (list list' : FreeList) (taken : Span) : Prop where
  tidy : Tidy list'.spans
  inside : ∀ byte ∈ taken, Free list.spans byte
  free_iff : ∀ byte, Free list'.spans byte ↔ Free list.spans byte ∧ byte ∉ taken
  freeBytes_add : list'.freeBytes + taken.size = list.freeBytes

/-- The answers of a list to a request: the lowest address that fits, or that nothing does. -/
theorem allocate_first_fit (htidy : Tidy list.spans)
    (hbytes : list.freeBytes = total list.spans)
    (hlow : ∀ span ∈ list.spans, span.stop < Word.limit) (hvalid : layout.Valid)
    (hpos : 0 < layout.size) :
    (list.allocate layout =
        .error { kind := .allocationFailed, remark := some (noSpan layout) } ∧
      ∀ address, ¬ list.Suits layout address) ∨
    ∃ start list',
      list.allocate layout = .ok (⟨start, Word.roundUp layout.size granule⟩, list') ∧
      IsLeast {address | list.Suits layout address} start ∧
      list.Reduced list' ⟨start, Word.roundUp layout.size granule⟩ := by
  have hround : 0 < Word.roundUp layout.size granule := Word.roundUp_pos granule_pos hpos
  have halign : 0 < max layout.align granule :=
    Nat.lt_of_lt_of_le granule_pos (Nat.le_max_right _ _)
  rw [allocate_of_pos hvalid hpos]
  cases hcarve : carve (Word.roundUp layout.size granule) (max layout.align granule)
    list.spans with
  | none => exact Or.inl ⟨rfl, fun address => not_fits_of_carve htidy hround hlow hcarve⟩
  | some found =>
    obtain ⟨start, left⟩ := found
    obtain ⟨-, htaken⟩ := carve_taken (Word.dvd_roundUp layout.size granule) hround
      (dvd_max_granule hvalid.1).2 halign htidy hcarve
    refine Or.inr ⟨start, _, rfl, isLeast_of_carve htidy hround halign hlow hcarve,
      htaken.tidy, htaken.inside, htaken.free_iff, ?_⟩
    have htotal := htaken.total_add
    dsimp only at htotal ⊢
    omega

end FreeList

namespace Memory

variable {memory : Memory} {list : FreeList}

theorem allocate_of_list (hlist : memory.backend = .freeList list) (layout : Layout) :
    memory.allocate layout = (list.allocate layout).map fun found =>
      (found.1, memory.withList .freeList found.2) := by
  unfold allocate
  rw [hlist]

end Memory

namespace AllocatorState

/-- How a free list answers a request that is not empty.  Where the walk over its spans ends
early because an address computation overflows, no later span would have fitted. -/
structure FirstFit (state : AllocatorState) (list : FreeList) (layout : Layout) : Prop where
  served_iff : (∃ block memory, state.memory.allocate layout = .ok (block, memory)) ↔
    ∃ address, list.Suits layout address
  served : ∀ block memory, state.memory.allocate layout = .ok (block, memory) →
    IsLeast {address | list.Suits layout address} block.address ∧
      block.size = Word.roundUp layout.size FreeList.granule ∧
      ∃ list', memory = state.memory.withList .freeList list' ∧ list.Reduced list' block.span
  refused : ∀ refusal, state.memory.allocate layout = .error refusal →
    refusal = { kind := .allocationFailed, remark := some (FreeList.noSpan layout) } ∧
      state.perform (.allocate layout) = state
  unhidden : ∀ earlier span later, list.spans = earlier ++ span :: later →
    (Word.roundUp? span.start (max layout.align FreeList.granule)).bind
      (Word.add? · (Word.roundUp layout.size FreeList.granule)) = none →
    ∀ address, ¬ FreeList.Fits (span :: later) (Word.roundUp layout.size FreeList.granule)
      (max layout.align FreeList.granule) address

variable {state : AllocatorState} {list : FreeList} {layout : Layout}

theorem stop_lt_of_regions {held : List Holding} {regions : List Span}
    (h : list.Accounts held regions) (hlow : ∀ region ∈ regions, region.stop < Word.limit) :
    ∀ span ∈ list.spans, span.stop < Word.limit := by
  intro span hmem
  have hpos := (h.tidy.granular span hmem).pos
  have hlast : span.stop - 1 ∈ span := by
    unfold Span.stop
    rw [Span.mem_iff]
    omega
  obtain ⟨region, hregion, hin⟩ := h.free_in_region ⟨span, hmem, hlast⟩
  have hend := hlow region hregion
  have hlt := hin.2
  omega

theorem firstFit_of_accounts (hlist : state.memory.backend = .freeList list)
    (h : list.Accounts state.held state.regions)
    (hlow : ∀ region ∈ state.regions, region.stop < Word.limit) (hvalid : layout.Valid)
    (hpos : 0 < layout.size) : state.FirstFit list layout := by
  have hends := stop_lt_of_regions h hlow
  have hunhidden : ∀ earlier span later, list.spans = earlier ++ span :: later →
      (Word.roundUp? span.start (max layout.align FreeList.granule)).bind
        (Word.add? · (Word.roundUp layout.size FreeList.granule)) = none →
      ∀ address, ¬ FreeList.Fits (span :: later) (Word.roundUp layout.size FreeList.granule)
        (max layout.align FreeList.granule) address := by
    intro earlier span later hspans hover address
    have htidy := h.tidy
    rw [hspans] at htidy hends
    exact FreeList.not_fits_of_overflow htidy.of_append
      (Word.roundUp_pos FreeList.granule_pos hpos)
      (fun other hmem => hends other (List.mem_append_right earlier hmem)) hover
  have hallocate := Memory.allocate_of_list hlist layout
  rcases FreeList.allocate_first_fit h.tidy h.freeBytes_eq hends hvalid hpos with
    ⟨hrefused, hnone⟩ | ⟨start, list', hgranted, hleast, hreduced⟩
  · have hanswer : state.memory.allocate layout =
        .error { kind := .allocationFailed, remark := some (FreeList.noSpan layout) } := by
      rw [hallocate, hrefused]
      rfl
    constructor
    case served_iff => simp [hanswer, hnone]
    case served => simp [hanswer]
    case refused =>
      intro refusal herror
      obtain rfl := Except.error.inj (herror.symm.trans hanswer)
      simp [perform, received, hanswer]
    case unhidden => exact hunhidden
  · have hanswer : state.memory.allocate layout =
        .ok (⟨start, Word.roundUp layout.size FreeList.granule⟩,
          state.memory.withList .freeList list') := by
      rw [hallocate, hgranted]
      rfl
    constructor
    case served_iff => exact ⟨fun _ => ⟨start, hleast.1⟩, fun _ => ⟨_, _, hanswer⟩⟩
    case served =>
      intro block memory hok
      obtain ⟨rfl, rfl⟩ := Prod.mk.inj (Except.ok.inj (hok.symm.trans hanswer))
      exact ⟨hleast, rfl, list', rfl, hreduced⟩
    case refused => simp [hanswer]
    case unhidden => exact hunhidden

/-- A free list serves a request that is not empty at the lowest address that is aligned and
starts a run of free bytes of the rounded size, if there is one, and takes exactly that run.
Otherwise it refuses the request and nothing changes. -/
theorem freeList_first_fit (bytes : Bytes) {demands : List Demand}
    (hlawful : (fresh bytes).Lawful demands)
    (hlow : ∀ region ∈ ((fresh bytes).run demands).regions, region.stop < Word.limit)
    {layout : Layout} (hvalid : layout.Valid) (hpos : 0 < layout.size) :
    ∃ list, ((fresh bytes).run demands).memory.backend = .freeList list ∧
      (∀ byte, FreeList.Free list.spans byte ↔ ((fresh bytes).run demands).Vacant byte) ∧
      ((fresh bytes).run demands).FirstFit list layout := by
  obtain ⟨list, hlist, haccounts⟩ := balanced_run bytes hlawful
  exact ⟨list, hlist, fun byte => free_iff_vacant haccounts byte,
    firstFit_of_accounts hlist haccounts hlow hvalid hpos⟩

/-- Three regions, of which the last one starts beyond the last multiple of the alignment
that is asked for. -/
def farReaches : List Demand :=
  [.addRegion ⟨1024, 512⟩, .addRegion ⟨(1 <<< 62) - 64, 256⟩,
    .addRegion ⟨3 * (1 <<< 62) + 16, 4096⟩]

theorem freeList_first_fit_farReaches :
    (fresh fun _ => 0).Lawful farReaches ∧
      (∀ region ∈ ((fresh fun _ => 0).run farReaches).regions, region.stop < Word.limit) ∧
      ∃ list, ((fresh fun _ => 0).run farReaches).memory.backend = .freeList list ∧
        IsLeast {address | FreeList.Fits list.spans 112 (1 <<< 62) address} (1 <<< 62) ∧
        ∀ address, ¬ FreeList.Fits list.spans 256 (1 <<< 62) address := by
  have hlawful : (fresh fun _ => 0).Lawful farReaches := by decide +kernel
  have hlow : ∀ region ∈ ((fresh fun _ => 0).run farReaches).regions,
      region.stop < Word.limit := by decide +kernel
  refine ⟨hlawful, hlow, ?_⟩
  obtain ⟨list, hlist, -, hfirst⟩ :=
    freeList_first_fit (fun _ => 0) hlawful hlow
      (by decide +kernel : Layout.Valid ⟨100, 1 <<< 62⟩) (by decide)
  obtain ⟨list', hlist', -, hsecond⟩ :=
    freeList_first_fit (fun _ => 0) hlawful hlow
      (by decide +kernel : Layout.Valid ⟨250, 1 <<< 62⟩) (by decide)
  obtain rfl : list = list' := Backend.freeList.inj (hlist.symm.trans hlist')
  refine ⟨list, hlist, ?_, ?_⟩
  · have hanswer : (((fresh fun _ => 0).run farReaches).memory.allocate
        ⟨100, 1 <<< 62⟩).toOption.map Prod.fst = some ⟨1 <<< 62, 112⟩ := by decide +kernel
    cases hok : ((fresh fun _ => 0).run farReaches).memory.allocate ⟨100, 1 <<< 62⟩ with
    | error refusal =>
      rw [hok] at hanswer
      contradiction
    | ok found =>
      obtain ⟨block, memory⟩ := found
      rw [hok] at hanswer
      obtain rfl : block = ⟨1 <<< 62, 112⟩ := Option.some.inj hanswer
      exact (hfirst.served _ _ hok).1
  · intro address hfits
    obtain ⟨block, memory, hok⟩ := hsecond.served_iff.2 ⟨address, hfits⟩
    have hanswer : (((fresh fun _ => 0).run farReaches).memory.allocate
        ⟨250, 1 <<< 62⟩).toOption.isNone := by decide +kernel
    rw [hok] at hanswer
    contradiction

end AllocatorState
end Freehold
