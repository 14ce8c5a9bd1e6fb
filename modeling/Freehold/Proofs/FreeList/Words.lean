import Freehold.Proofs.FreeList.Accounts
import Freehold.Proofs.Words

/-!
# Free lists in machine words

A free list checks how a size is rounded and where a request would start and end.  The ends of
spans, the sizes of what is left or joined, and the count of free bytes are not checked.  They
are words because every span ends below the limit, because no two spans overlap, and because
the count is the sum of the sizes of all spans.
-/

namespace Freehold
namespace FreeList

/-! ## The computations -/

def carveInWords (size align : Nat) : List Span → Option (Option (Nat × List Span))
  | [] => pure none
  | span :: rest => do
    let stop ← Word.add? span.start span.size
    match Word.roundUp? span.start align with
    | none => pure none
    | some first =>
      match Word.add? first size with
      | none => pure none
      | some last =>
        if stop < last then do
          let found? ← carveInWords size align rest
          pure (found?.map fun found => (found.1, span :: found.2))
        else do
          let tail ←
            if last < stop then do
              let offset ← Word.sub? last span.start
              let start ← Word.add? span.start offset
              let left ← Word.sub? stop last
              pure (⟨start, left⟩ :: rest)
            else pure rest
          let gap ← Word.sub? first span.start
          let address ← Word.add? span.start gap
          if span.start < first then pure (some (address, ⟨span.start, gap⟩ :: tail))
          else pure (some (address, tail))

def joinInWords (span : Span) : List Span → Option (List Span)
  | [] => pure [span]
  | next :: rest => do
    let stop ← Word.add? span.start span.size
    if stop = next.start then do
      let size ← Word.add? span.size next.size
      pure (⟨span.start, size⟩ :: rest)
    else pure (span :: next :: rest)

/-- The end of every span on the way is computed. -/
def insertInWords (span : Span) : List Span → Option (List Span)
  | [] => pure [span]
  | prev :: rest =>
    if span.start < prev.start then joinInWords span (prev :: rest)
    else do
      let stop ← Word.add? prev.start prev.size
      if stop = span.start then do
        let size ← Word.add? prev.size span.size
        joinInWords ⟨prev.start, size⟩ rest
      else do
        let later ← insertInWords span rest
        pure (prev :: later)

def absorbInWords (address extra : Nat) : List Span → Option (Option (List Span))
  | [] => pure none
  | span :: rest =>
    if address < span.start then pure none
    else if span.start = address then
      if span.size < extra then pure none
      else if extra < span.size then do
        let start ← Word.add? address extra
        let left ← Word.sub? span.size extra
        pure (some (⟨start, left⟩ :: rest))
      else pure (some rest)
    else do
      let later? ← absorbInWords address extra rest
      pure (later?.map (span :: ·))

def giveInWords (list : FreeList) (span : Span) : Option FreeList := do
  let spans ← insertInWords span list.spans
  let freeBytes ← Word.add? list.freeBytes span.size
  pure { spans, freeBytes }

/-- Whole granules are counted by a division and a product. -/
def addRegionInWords (list : FreeList) (region : Span) : Option FreeList := do
  let offset ← Word.fit? (Word.roundUp region.start granule - region.start)
  let size ← Word.mul? ((region.size - offset) / granule) granule
  if size = 0 then pure list
  else do
    let start ← Word.add? region.start offset
    list.giveInWords ⟨start, size⟩

def allocateInWords (list : FreeList) (layout : Layout) :
    Option (Except Refusal (Block × FreeList)) :=
  if layout.size = 0 then pure (.ok (.dangling layout.align, list))
  else
    match Word.roundUp? layout.size granule with
    | none => pure (.error { kind := .integerOverflow })
    | some size => do
      match ← carveInWords size (max layout.align granule) list.spans with
      | none => pure (.error { kind := .allocationFailed, remark := some (noSpan layout) })
      | some (start, spans) => do
        let freeBytes ← Word.sub? list.freeBytes size
        pure (.ok (⟨start, size⟩, { spans, freeBytes }))

def expandInWords (list : FreeList) (address : Nat) (layout : Layout) (wanted : Nat) :
    Option (Except Refusal (Nat × FreeList)) :=
  if wanted ≤ layout.size then pure (.ok (layout.size, list))
  else
    match Word.roundUp? layout.size granule, Word.roundUp? wanted granule with
    | some old, some new =>
      if new ≤ old then pure (.ok (old, list))
      else do
        let stop ← Word.add? address old
        let extra ← Word.sub? new old
        match ← absorbInWords stop extra list.spans with
        | none => pure (.error { kind := .inPlaceGrowthFailed })
        | some spans => do
          let freeBytes ← Word.sub? list.freeBytes extra
          pure (.ok (new, { spans, freeBytes }))
    | _, _ => pure (.error { kind := .integerOverflow })

/-- Here the rounding is not checked. -/
def deallocateInWords (list : FreeList) (address : Nat) (layout : Layout) : Option FreeList :=
  if layout.size = 0 then pure list
  else do
    let size ← Word.roundUp? layout.size granule
    list.giveInWords ⟨address, size⟩

/-! ## The count of free bytes -/

variable {size align address extra start : Nat} {span : Span} {spans rest : List Span}

theorem total_of_carve (hpos : 0 < align) (h : carve size align spans = some (start, rest)) :
    total rest + size = total spans := by
  induction spans generalizing start rest with
  | nil => cases h
  | cons span spans ih =>
    unfold carve at h
    split at h
    · cases h
    rename_i first hfirst
    split at h
    · cases h
    rename_i last hlast
    obtain ⟨-, rfl⟩ := Word.fit?_eq_some_iff.1 hfirst
    obtain ⟨-, rfl⟩ := Word.fit?_eq_some_iff.1 hlast
    have hle := Word.le_roundUp span.start hpos
    split at h
    · obtain ⟨found, hfound, heq⟩ := Option.map_eq_some_iff.1 h
      obtain ⟨rfl, rfl⟩ := Prod.mk.inj heq
      have htotal := ih hfound
      simp only [total_cons]
      omega
    · rename_i hfits
      have hstop : span.stop = span.start + span.size := rfl
      by_cases hgap : span.start < Word.roundUp span.start align <;>
        by_cases htail : Word.roundUp span.start align + size < span.stop
      all_goals
        simp only [hgap, htail, if_true, if_false, Option.some.injEq, Prod.mk.injEq] at h
        obtain ⟨-, rfl⟩ := h
        simp only [total_cons]
        omega

theorem total_of_absorb (h : absorb address extra spans = some rest) :
    total rest + extra = total spans := by
  induction spans generalizing rest with
  | nil => cases h
  | cons span spans ih =>
    unfold absorb at h
    split at h
    · cases h
    split at h
    · split at h
      · cases h
      · split at h
        all_goals
          obtain rfl := Option.some.inj h
          simp only [total_cons]
          omega
    · obtain ⟨left, hleft, rfl⟩ := Option.map_eq_some_iff.1 h
      have htotal := ih hleft
      simp only [total_cons]
      omega

theorem total_join (span : Span) (spans : List Span) :
    total (join span spans) = total spans + span.size := by
  cases spans with
  | nil => simp [join]
  | cons next rest =>
    simp only [join]
    split
    all_goals
      simp only [total_cons]
      omega

theorem total_insert (span : Span) (spans : List Span) :
    total (insert span spans) = total spans + span.size := by
  induction spans with
  | nil => simp [insert]
  | cons prev rest ih =>
    unfold insert
    split
    · exact total_join span _
    split
    · rw [total_join]
      simp only [total_cons]
      omega
    · simp only [total_cons, ih]
      omega

/-- Spans that do not overlap have no more bytes than there are addresses below their ends. -/
theorem Tidy.total_le (h : Tidy spans) {bound : Nat} (hbelow : ∀ span ∈ spans, span.stop ≤ bound)
    {floor : Nat} (hfloor : ∀ span ∈ spans, floor ≤ span.start) (hle : floor ≤ bound) :
    floor + total spans ≤ bound := by
  induction spans generalizing floor with
  | nil => exact hle
  | cons span rest ih =>
    obtain ⟨-, hlater, hrest⟩ := tidy_cons.1 h
    have hstop := hbelow span List.mem_cons_self
    have hstart := hfloor span List.mem_cons_self
    have htail := ih hrest (fun other hmem => hbelow other (List.mem_cons_of_mem _ hmem))
      (fun later hmem => Nat.le_of_lt (hlater later hmem)) hstop
    simp only [total_cons]
    unfold Span.stop at htail
    omega

/-! ## No step wraps -/

/-- The spans end below the limit. -/
def Below (spans : List Span) : Prop := ∀ span ∈ spans, span.stop < Word.limit

theorem Below.tail (h : Below (span :: spans)) : Below spans :=
  fun other hmem => h other (List.mem_cons_of_mem _ hmem)

theorem Below.head (h : Below (span :: spans)) : span.start + span.size < Word.limit :=
  h span List.mem_cons_self

theorem Tidy.total_lt (h : Tidy spans) (hbelow : Below spans) : total spans < Word.limit := by
  have hlimit : 0 < Word.limit := by decide
  have hends : ∀ span ∈ spans, span.stop ≤ Word.limit - 1 :=
    fun span hmem => Nat.le_sub_one_of_lt (hbelow span hmem)
  have hle := h.total_le hends (fun _ _ => Nat.zero_le _) (Nat.zero_le _)
  omega

theorem carveInWords_eq (hpos : 0 < align) (h : Below spans) :
    carveInWords size align spans = some (carve size align spans) := by
  induction spans with
  | nil => rfl
  | cons span rest ih =>
    have hstop := h.head
    unfold carveInWords carve Span.stop
    rw [Word.add?_eq hstop]
    simp only [Option.bind_eq_bind, Option.bind_some]
    cases hfirst : Word.roundUp? span.start align with
    | none => rfl
    | some first =>
      obtain ⟨-, rfl⟩ := Word.fit?_eq_some_iff.1 hfirst
      have hle := Word.le_roundUp span.start hpos
      dsimp only
      cases hlast : Word.add? (Word.roundUp span.start align) size with
      | none => rfl
      | some last =>
        obtain ⟨hword, rfl⟩ := Word.fit?_eq_some_iff.1 hlast
        dsimp only
        by_cases hshort : span.start + span.size < Word.roundUp span.start align + size
        · rw [if_pos hshort, if_pos hshort, ih h.tail]
          rfl
        rw [if_neg hshort, if_neg hshort, Word.sub?_eq (by omega), Word.sub?_eq (by omega),
          Word.sub?_eq hle]
        simp only [Option.bind_some]
        rw [Word.add?_eq (by omega), Word.add?_eq (by omega), Nat.add_sub_cancel' hle,
          Nat.add_sub_cancel' (by omega)]
        split
        · split <;> rfl
        · split <;> rfl

theorem joinInWords_eq (hspan : span.stop < Word.limit) (h : Below spans) :
    joinInWords span spans = some (join span spans) := by
  cases spans with
  | nil => rfl
  | cons next rest =>
    have hnext := h.head
    have hstop : span.start + span.size < Word.limit := hspan
    unfold joinInWords join Span.stop
    rw [Word.add?_eq hstop]
    simp only [Option.bind_eq_bind, Option.bind_some]
    split
    · rw [Word.add?_eq (by omega)]
      rfl
    · rfl

theorem insertInWords_eq (hspan : span.stop < Word.limit) (h : Below spans) :
    insertInWords span spans = some (insert span spans) := by
  induction spans with
  | nil => rfl
  | cons prev rest ih =>
    have hprev := h.head
    have hstop : span.start + span.size < Word.limit := hspan
    unfold insertInWords insert Span.stop
    by_cases hbefore : span.start < prev.start
    · rw [if_pos hbefore, if_pos hbefore]
      exact joinInWords_eq hspan h
    rw [if_neg hbefore, if_neg hbefore, Word.add?_eq hprev]
    simp only [Option.bind_eq_bind, Option.bind_some]
    by_cases htouch : prev.start + prev.size = span.start
    · have hjoined : Span.stop ⟨prev.start, prev.size + span.size⟩ < Word.limit := by
        show prev.start + (prev.size + span.size) < Word.limit
        omega
      rw [if_pos htouch, if_pos htouch, Word.add?_eq (by omega)]
      exact joinInWords_eq hjoined h.tail
    · rw [if_neg htouch, if_neg htouch, ih h.tail]
      rfl

theorem absorbInWords_eq (h : Below spans) :
    absorbInWords address extra spans = some (absorb address extra spans) := by
  induction spans with
  | nil => rfl
  | cons span rest ih =>
    have hstop := h.head
    unfold absorbInWords absorb
    split
    · rfl
    split
    · split
      · rfl
      split
      · rw [Word.add?_eq (by omega), Word.sub?_eq (by omega)]
        rfl
      · rfl
    · rw [ih h.tail]
      rfl

/-- A list that computes in words: it is tidy, it ends below the limit, and it counts its free
bytes right. -/
structure Counted (list : FreeList) : Prop where
  tidy : Tidy list.spans
  below : Below list.spans
  freeBytes_eq : list.freeBytes = total list.spans

variable {list : FreeList} {layout : Layout}

theorem Below.given {whole : List Span} {given : Span} (h : Below spans)
    (hgiven : Given spans whole given) (hstop : given.stop < Word.limit) : Below whole := by
  intro span hmem
  have hpos := (hgiven.tidy.granular span hmem).pos
  have hlast : span.start + (span.size - 1) ∈ span := by
    rw [Span.mem_iff]
    omega
  rcases (hgiven.free_iff _).1 ⟨span, hmem, hlast⟩ with ⟨other, hother, hin⟩ | hin
  all_goals
    rw [Span.mem_iff] at hin
    unfold Span.stop at *
  · have hbelow : other.start + other.size < Word.limit := h other hother
    omega
  · omega

namespace Counted

theorem giveInWords_eq (h : list.Counted) (hstop : span.stop < Word.limit)
    (hgiven : Given list.spans (insert span list.spans) span) :
    list.giveInWords span = some (list.give span) := by
  have htotal := hgiven.tidy.total_lt (h.below.given hgiven hstop)
  rw [total_insert, ← h.freeBytes_eq] at htotal
  unfold giveInWords give
  rw [insertInWords_eq hstop h.below, Word.add?_eq htotal]
  rfl

theorem addRegionInWords_eq (h : list.Counted) {region : Span} (hstop : region.stop < Word.limit)
    (hapart : ∀ address ∈ region, ¬ Free list.spans address) :
    list.addRegionInWords region = some (list.addRegion region) := by
  have hword : region.start + region.size < Word.limit := hstop
  have hround := Word.le_roundUp region.start granule_pos
  have hclose := Word.roundUp_lt region.start granule_pos
  have hgranule : granule < Word.limit := by decide
  have hpart := usable_largest region
  have hwhole := Nat.div_mul_le_self
    (region.size - (Word.roundUp region.start granule - region.start)) granule
  unfold addRegionInWords addRegion
  rw [Word.fit?_eq_some_iff.2
    ⟨(by omega : Word.roundUp region.start granule - region.start < Word.limit), rfl⟩]
  simp only [Option.bind_eq_bind, Option.bind_some]
  rw [Word.mul?_eq (by omega)]
  simp only [Option.bind_some]
  have hsize : (usable region).size =
      (region.size - (Word.roundUp region.start granule - region.start)) / granule * granule := rfl
  by_cases hzero : (usable region).size = 0
  · rw [if_pos hzero, if_pos (hsize ▸ hzero)]
    rfl
  · have hpos := Nat.pos_of_ne_zero hzero
    have hgranular : (usable region).Granular := ⟨hpart.start, hpart.size, hpos⟩
    have hgiven : Given list.spans (insert (usable region) list.spans) (usable region) := by
      refine insert_given hgranular h.tidy fun other hother => ?_
      rw [Span.apart_iff]
      rintro address ⟨hin, hboth⟩
      exact hapart address (hpart.inside address hboth) ⟨other, hother, hin⟩
    have hends : (usable region).stop < Word.limit := by
      show Word.roundUp region.start granule + (usable region).size < Word.limit
      omega
    rw [if_neg hzero, if_neg (hsize ▸ hzero), Word.add?_eq (by omega), Option.bind_some,
      Nat.add_sub_cancel' hround]
    exact h.giveInWords_eq hends hgiven

theorem allocateInWords_eq (h : list.Counted) (layout : Layout) :
    list.allocateInWords layout = some (list.allocate layout) := by
  have hpos : 0 < max layout.align granule := Nat.lt_of_lt_of_le granule_pos (Nat.le_max_right _ _)
  unfold allocateInWords allocate
  by_cases hzero : layout.size = 0
  · rw [if_pos hzero, if_pos hzero]
    rfl
  rw [if_neg hzero, if_neg hzero]
  cases Word.roundUp? layout.size granule with
  | none => rfl
  | some size =>
    dsimp only
    rw [carveInWords_eq hpos h.below]
    simp only [Option.bind_eq_bind, Option.bind_some]
    cases hcarve : carve size (max layout.align granule) list.spans with
    | none => rfl
    | some found =>
      obtain ⟨start, rest⟩ := found
      have htotal := total_of_carve hpos hcarve
      have hbytes := h.freeBytes_eq
      dsimp only
      rw [Word.sub?_eq (by omega)]
      rfl

theorem expandInWords_eq (h : list.Counted)
    (hstop : address + Word.roundUp layout.size granule < Word.limit) (wanted : Nat) :
    list.expandInWords address layout wanted = some (list.expand address layout wanted) := by
  unfold expandInWords expand
  by_cases hle : wanted ≤ layout.size
  · rw [if_pos hle, if_pos hle]
    rfl
  rw [if_neg hle, if_neg hle, Word.roundUp?_eq (by omega)]
  cases hnew : Word.roundUp? wanted granule with
  | none => rfl
  | some new =>
    dsimp only
    by_cases henough : new ≤ Word.roundUp layout.size granule
    · rw [if_pos henough, if_pos henough]
      rfl
    rw [if_neg henough, if_neg henough, Word.add?_eq hstop, Word.sub?_eq (by omega)]
    simp only [Option.bind_eq_bind, Option.bind_some]
    rw [absorbInWords_eq h.below]
    simp only [Option.bind_some]
    cases habsorb : absorb _ _ list.spans with
    | none => rfl
    | some rest =>
      have htotal := total_of_absorb habsorb
      have hbytes := h.freeBytes_eq
      dsimp only
      rw [Word.sub?_eq (by omega)]
      rfl

theorem deallocateInWords_eq (h : list.Counted)
    (hstop : address + Word.roundUp layout.size granule < Word.limit)
    (hgiven : 0 < layout.size → Given list.spans
      (insert ⟨address, Word.roundUp layout.size granule⟩ list.spans)
      ⟨address, Word.roundUp layout.size granule⟩) :
    list.deallocateInWords address layout = some (list.deallocate address layout) := by
  unfold deallocateInWords deallocate
  by_cases hzero : layout.size = 0
  · rw [if_pos hzero, if_pos hzero]
    rfl
  · rw [if_neg hzero, if_neg hzero, Word.roundUp?_eq (by omega)]
    exact h.giveInWords_eq hstop (hgiven (Nat.pos_of_ne_zero hzero))

end Counted

end FreeList
end Freehold
