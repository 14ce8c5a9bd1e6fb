import Freehold.Memory.FreeList

/-!
# Tidy free lists

A free list is tidy when its spans are whole granules in address order and no two of
them touch.  A list changes in two ways.  Memory is taken out of it, by carving a
request out of a span or by absorbing the front of one, and memory is given to it, by
inserting a span.  Both keep a list tidy, and both change the free addresses and the
number of free bytes by exactly the span that is taken or given.

The last part says once what the answers of a list can be; nothing later looks into
the calls again.
-/

namespace Freehold

/-- Whole granules, and at least one of them. -/
structure Span.Granular (span : Span) : Prop where
  start : FreeList.granule ∣ span.start
  size : FreeList.granule ∣ span.size
  pos : 0 < span.size

theorem Span.Granular.stop {span : Span} (h : span.Granular) :
    FreeList.granule ∣ span.stop :=
  Nat.dvd_add h.start h.size

theorem Span.Granular.start_mem {span : Span} (h : span.Granular) : span.start ∈ span := by
  have hpos := h.pos
  rw [Span.mem_iff]
  omega

namespace FreeList

structure Tidy (spans : List Span) : Prop where
  granular : ∀ span ∈ spans, span.Granular
  gaps : spans.Pairwise fun earlier later => earlier.stop < later.start

def Free (spans : List Span) (address : Nat) : Prop := ∃ span ∈ spans, address ∈ span

def total (spans : List Span) : Nat := spans.foldr (fun span sum => span.size + sum) 0

@[simp] theorem not_free_nil (address : Nat) : ¬ Free [] address := by
  simp [Free]

@[simp] theorem free_cons {span : Span} {rest : List Span} {address : Nat} :
    Free (span :: rest) address ↔ address ∈ span ∨ Free rest address := by
  simp [Free]

@[simp] theorem free_append {front back : List Span} {address : Nat} :
    Free (front ++ back) address ↔ Free front address ∨ Free back address := by
  simp only [Free, List.mem_append, or_and_right, exists_or]

@[simp] theorem total_nil : total [] = 0 := rfl

@[simp] theorem total_cons (span : Span) (rest : List Span) :
    total (span :: rest) = span.size + total rest := rfl

theorem tidy_nil : Tidy [] := ⟨by simp, List.Pairwise.nil⟩

theorem tidy_cons {span : Span} {rest : List Span} :
    Tidy (span :: rest) ↔
      span.Granular ∧ (∀ later ∈ rest, span.stop < later.start) ∧ Tidy rest := by
  constructor
  · intro h
    have hgaps := List.pairwise_cons.1 h.gaps
    exact ⟨h.granular span (by simp), hgaps.1,
      fun later hlater => h.granular later (by simp [hlater]), hgaps.2⟩
  · rintro ⟨hspan, hlater, hrest⟩
    constructor
    · intro other hother
      rcases List.mem_cons.1 hother with rfl | hother
      · exact hspan
      · exact hrest.granular other hother
    · exact List.pairwise_cons.2 ⟨hlater, hrest.gaps⟩

/-- A tidy list stays tidy behind a span that ends before everything that is free in
it. -/
theorem tidy_cons_of_free {span : Span} {rest : List Span} (hspan : span.Granular)
    (hrest : Tidy rest) (hafter : ∀ address, Free rest address → span.stop < address) :
    Tidy (span :: rest) := by
  refine tidy_cons.2 ⟨hspan, ?_, hrest⟩
  intro later hlater
  exact hafter later.start ⟨later, hlater, (hrest.granular later hlater).start_mem⟩

theorem Tidy.lt_of_free {span : Span} {rest : List Span} (h : Tidy (span :: rest))
    {address : Nat} (hfree : Free rest address) : span.stop < address := by
  obtain ⟨later, hlater, hin⟩ := hfree
  have hgap := (tidy_cons.1 h).2.1 later hlater
  rw [Span.mem_iff] at hin
  omega

/-! ## Taking memory -/

/-- The second list is what is left of the first one without the span. -/
structure Taken (spans rest : List Span) (taken : Span) : Prop where
  tidy : Tidy rest
  inside : ∀ address ∈ taken, Free spans address
  free_iff : ∀ address, Free rest address ↔ Free spans address ∧ address ∉ taken
  total_add : total rest + taken.size = total spans

theorem Taken.cons {span taken : Span} {spans rest : List Span}
    (h : Taken spans rest taken) (htidy : Tidy (span :: spans)) :
    Taken (span :: spans) (span :: rest) taken := by
  constructor
  · apply tidy_cons_of_free (tidy_cons.1 htidy).1 h.tidy
    intro address hfree
    exact htidy.lt_of_free ((h.free_iff address).1 hfree).1
  · intro address hin
    exact free_cons.2 (Or.inr (h.inside address hin))
  · intro address
    rw [free_cons, free_cons, h.free_iff]
    have hout : address ∈ span → address ∉ taken := by
      intro hspan htaken
      have hlt := htidy.lt_of_free (h.inside address htaken)
      rw [Span.mem_iff] at hspan
      unfold Span.stop at hlt
      omega
    constructor
    · rintro (hspan | ⟨hfree, htaken⟩)
      · exact ⟨Or.inl hspan, hout hspan⟩
      · exact ⟨Or.inr hfree, htaken⟩
    · rintro ⟨hspan | hfree, htaken⟩
      · exact Or.inl hspan
      · exact Or.inr ⟨hfree, htaken⟩
  · have htotal := h.total_add
    simp only [total_cons]
    omega

/-- What a cut inside a span leaves of it: a part before the cut and a part after it,
where they are not empty. -/
theorem without_of_inside {span cut : Span} (hpos : 0 < cut.size)
    (hleft : span.start ≤ cut.start) (hright : cut.stop ≤ span.stop) :
    span.without cut =
      (if span.start < cut.start then [⟨span.start, cut.start - span.start⟩] else []) ++
        (if cut.stop < span.stop then [⟨cut.stop, span.stop - cut.stop⟩] else []) := by
  have hstart : min cut.start span.stop = cut.start := by
    unfold Span.stop at *
    omega
  have hstop : max cut.stop span.start = cut.stop := by
    unfold Span.stop at *
    omega
  unfold Span.without
  rw [hstart, hstop]
  simp only [List.filter_cons, List.filter_nil, decide_eq_true_eq, Nat.sub_pos_iff_lt]
  split <;> split <;> rfl

/-- What is left of a span around a cut lies before the cut or behind it. -/
theorem piece_of_without {span cut piece : Span} (hpos : 0 < cut.size)
    (hleft : span.start ≤ cut.start) (hright : cut.stop ≤ span.stop)
    (hmem : piece ∈ span.without cut) :
    (span.start < cut.start ∧ piece = ⟨span.start, cut.start - span.start⟩) ∨
      (cut.stop < span.stop ∧ piece = ⟨cut.stop, span.stop - cut.stop⟩) := by
  rw [without_of_inside hpos hleft hright] at hmem
  simpa using hmem

theorem tidy_without {span cut : Span} {rest : List Span} (htidy : Tidy (span :: rest))
    (hcut : cut.Granular) (hleft : span.start ≤ cut.start) (hright : cut.stop ≤ span.stop) :
    Tidy (span.without cut ++ rest) := by
  obtain ⟨hspan, hlater, hrest⟩ := tidy_cons.1 htidy
  constructor
  · intro piece hmem
    rcases List.mem_append.1 hmem with hmem | hmem
    · rcases piece_of_without hcut.pos hleft hright hmem with ⟨hlt, rfl⟩ | ⟨hlt, rfl⟩
      · exact ⟨hspan.start, Nat.dvd_sub hcut.start hspan.start, Nat.sub_pos_of_lt hlt⟩
      · exact ⟨hcut.stop, Nat.dvd_sub hspan.stop hcut.stop, Nat.sub_pos_of_lt hlt⟩
    · exact hrest.granular piece hmem
  · refine List.pairwise_append.2 ⟨?_, hrest.gaps, ?_⟩
    · rw [without_of_inside hcut.pos hleft hright]
      refine List.pairwise_append.2 ⟨?_, ?_, ?_⟩
      · split <;> simp
      · split <;> simp
      · intro front hfront back hback
        simp only [List.mem_ite_nil_right, List.mem_singleton] at hfront hback
        obtain ⟨hlt, rfl⟩ := hfront
        obtain ⟨-, rfl⟩ := hback
        have hpos := hcut.pos
        unfold Span.stop at *
        dsimp only
        omega
    · intro piece hmem later hlaterMem
      have hgap := hlater later hlaterMem
      have hpos := hcut.pos
      rcases piece_of_without hpos hleft hright hmem with ⟨hlt, rfl⟩ | ⟨hlt, rfl⟩
      all_goals
        unfold Span.stop at *
        dsimp only
        omega

theorem total_without {span cut : Span} (rest : List Span) (hpos : 0 < cut.size)
    (hleft : span.start ≤ cut.start) (hright : cut.stop ≤ span.stop) :
    total (span.without cut ++ rest) =
      (cut.start - span.start) + (span.stop - cut.stop) + total rest := by
  rw [without_of_inside hpos hleft hright]
  by_cases hfront : span.start < cut.start <;> by_cases hback : cut.stop < span.stop
  all_goals
    simp only [hfront, hback, if_true, if_false, List.cons_append, List.nil_append,
      total_cons]
    omega

/-- The parts of a span around a cut inside it are what is left of the span. -/
theorem taken_without {span cut : Span} {rest : List Span} (htidy : Tidy (span :: rest))
    (hcut : cut.Granular) (hleft : span.start ≤ cut.start) (hright : cut.stop ≤ span.stop) :
    Taken (span :: rest) (span.without cut ++ rest) cut := by
  constructor
  · exact tidy_without htidy hcut hleft hright
  · intro address hin
    refine free_cons.2 (Or.inl ?_)
    rw [Span.mem_iff] at hin ⊢
    unfold Span.stop at hright
    omega
  · intro address
    have hfree : Free (span.without cut) address ↔ address ∈ span ∧ address ∉ cut :=
      Span.mem_without
    have hout : Free rest address → address ∉ cut := by
      intro hlate hin
      have hlt := htidy.lt_of_free hlate
      rw [Span.mem_iff] at hin
      unfold Span.stop at *
      omega
    rw [free_append, free_cons, hfree]
    constructor
    · rintro (⟨hin, hcut⟩ | hlate)
      · exact ⟨Or.inl hin, hcut⟩
      · exact ⟨Or.inr hlate, hout hlate⟩
    · rintro ⟨hin | hlate, hcut⟩
      · exact Or.inl ⟨hin, hcut⟩
      · exact Or.inr hlate
  · have hpos := hcut.pos
    rw [total_without rest hpos hleft hright, total_cons]
    unfold Span.stop at *
    omega

theorem carve_taken {size align : Nat} (hsize : granule ∣ size) (hpos : 0 < size)
    (halign : granule ∣ align) (halignPos : 0 < align) {spans : List Span}
    (htidy : Tidy spans) {start : Nat} {rest : List Span}
    (hcarve : carve size align spans = some (start, rest)) :
    align ∣ start ∧ Taken spans rest ⟨start, size⟩ := by
  induction spans generalizing start rest with
  | nil => simp [carve] at hcarve
  | cons span spans ih =>
    obtain ⟨hspan, hlater, hspans⟩ := tidy_cons.1 htidy
    unfold carve at hcarve
    split at hcarve
    · contradiction
    rename_i first hfirst
    obtain ⟨-, hfirst⟩ := Word.fit?_eq_some_iff.1 hfirst
    split at hcarve
    · contradiction
    rename_i stop hstop
    obtain ⟨-, hstop⟩ := Word.fit?_eq_some_iff.1 hstop
    split at hcarve
    · -- the span is too short, so the request is carved out of a later one
      obtain ⟨⟨start', rest'⟩, hfound, heq⟩ := Option.map_eq_some_iff.1 hcarve
      obtain ⟨rfl, rfl⟩ := Prod.mk.inj heq
      obtain ⟨hdvd, htaken⟩ := ih hspans hfound
      exact ⟨hdvd, htaken.cons htidy⟩
    · rename_i hlong
      have hdvd : align ∣ first := hfirst ▸ Word.dvd_roundUp span.start align
      have hleft : span.start ≤ first := hfirst ▸ Word.le_roundUp span.start halignPos
      have hcut : Span.Granular ⟨first, size⟩ := ⟨Nat.dvd_trans halign hdvd, hsize, hpos⟩
      have hright : Span.stop ⟨first, size⟩ ≤ span.stop := by
        show first + size ≤ span.stop
        omega
      have htaken := taken_without htidy hcut hleft hright
      rw [without_of_inside hpos hleft hright] at htaken
      have hfront : Span.stop ⟨first, size⟩ = stop := hstop
      simp only [hfront] at htaken
      by_cases hgap : span.start < first <;> by_cases htail : stop < span.stop
      all_goals
        simp only [hgap, htail, if_true, if_false, Option.some.injEq, Prod.mk.injEq] at hcarve
        obtain ⟨rfl, rfl⟩ := hcarve
        refine ⟨hdvd, ?_⟩
        simpa [hgap, htail] using htaken

theorem absorb_taken {address extra : Nat} (hextra : granule ∣ extra) (hpos : 0 < extra)
    {spans : List Span} (htidy : Tidy spans) {rest : List Span}
    (habsorb : absorb address extra spans = some rest) :
    Taken spans rest ⟨address, extra⟩ := by
  induction spans generalizing rest with
  | nil => simp [absorb] at habsorb
  | cons span spans ih =>
    unfold absorb at habsorb
    split at habsorb
    · contradiction
    split at habsorb
    · rename_i hstart
      split at habsorb
      · contradiction
      rename_i hlong
      have haddress : granule ∣ address := hstart ▸ (tidy_cons.1 htidy).1.start
      have hcut : Span.Granular ⟨address, extra⟩ := ⟨haddress, hextra, hpos⟩
      have hright : Span.stop ⟨address, extra⟩ ≤ span.stop := by
        show address + extra ≤ span.start + span.size
        omega
      have htaken := taken_without htidy hcut (Nat.le_of_eq hstart) hright
      rw [without_of_inside hpos (Nat.le_of_eq hstart) hright] at htaken
      have hrest : span.stop - (address + extra) = span.size - extra := by
        unfold Span.stop
        omega
      have hfits : address + extra < span.stop ↔ extra < span.size := by
        unfold Span.stop
        omega
      have hfront : Span.stop ⟨address, extra⟩ = address + extra := rfl
      simp only [hfront, hstart, Nat.lt_irrefl, hrest, hfits] at htaken
      split at habsorb
      all_goals
        rename_i htail
        simp only [Option.some.injEq] at habsorb
        subst habsorb
        simpa [htail] using htaken
    · -- the span lies before the address
      obtain ⟨rest', hfound, rfl⟩ := Option.map_eq_some_iff.1 habsorb
      exact (ih (tidy_cons.1 htidy).2.2 hfound).cons htidy

/-! ## Giving memory -/

/-- The second list is the first one and the span. -/
structure Given (spans whole : List Span) (given : Span) : Prop where
  tidy : Tidy whole
  free_iff : ∀ address, Free whole address ↔ Free spans address ∨ address ∈ given
  total_eq : total whole = total spans + given.size

theorem Given.cons {span given : Span} {spans whole : List Span} (h : Given spans whole given)
    (htidy : Tidy (span :: spans)) (hafter : span.stop < given.start) :
    Given (span :: spans) (span :: whole) given := by
  constructor
  · apply tidy_cons_of_free (tidy_cons.1 htidy).1 h.tidy
    intro address hfree
    rcases (h.free_iff address).1 hfree with hfree | hin
    · exact htidy.lt_of_free hfree
    · rw [Span.mem_iff] at hin
      omega
  · intro address
    rw [free_cons, free_cons, h.free_iff, or_assoc]
  · have htotal := h.total_eq
    simp only [total_cons]
    omega

/-- A span before all others is put in front of them, or joined to the first one. -/
theorem join_given {span : Span} {spans : List Span} (hspan : span.Granular)
    (htidy : Tidy spans) (hbefore : ∀ later ∈ spans, span.stop ≤ later.start) :
    Given spans (join span spans) span := by
  cases spans with
  | nil =>
    refine ⟨tidy_cons.2 ⟨hspan, by simp, tidy_nil⟩, ?_, by simp [join]⟩
    intro address
    simp [join]
  | cons next rest =>
    obtain ⟨hnext, hlater, hrest⟩ := tidy_cons.1 htidy
    have hle := hbefore next (by simp)
    simp only [join]
    split
    · rename_i htouch
      have hstop : Span.stop ⟨span.start, span.size + next.size⟩ = next.stop := by
        unfold Span.stop at *
        dsimp only
        omega
      refine ⟨tidy_cons.2 ⟨?_, ?_, hrest⟩, ?_, ?_⟩
      · have hpos := hspan.pos
        exact ⟨hspan.start, Nat.dvd_add hspan.size hnext.size, by dsimp only; omega⟩
      · rw [hstop]
        exact hlater
      · intro address
        rw [free_cons, free_cons]
        have hin : address ∈ (⟨span.start, span.size + next.size⟩ : Span) ↔
            address ∈ next ∨ address ∈ span := by
          simp only [Span.mem_iff]
          unfold Span.stop at htouch
          omega
        rw [hin, or_right_comm]
      · simp only [total_cons]
        omega
    · rename_i happart
      refine ⟨tidy_cons.2 ⟨hspan, ?_, htidy⟩, ?_, ?_⟩
      · intro later hmem
        rcases List.mem_cons.1 hmem with rfl | hmem
        · omega
        · have hgap := hlater later hmem
          unfold Span.stop at *
          omega
      · intro address
        rw [free_cons, or_comm]
      · simp only [total_cons]
        omega

theorem insert_given {span : Span} (hspan : span.Granular) {spans : List Span}
    (htidy : Tidy spans) (hapart : ∀ other ∈ spans, Span.Apart other span) :
    Given spans (insert span spans) span := by
  induction spans with
  | nil => exact join_given hspan htidy (by simp)
  | cons prev rest ih =>
    obtain ⟨hprev, hlater, hrest⟩ := tidy_cons.1 htidy
    have hposPrev := hprev.pos
    have hposSpan := hspan.pos
    have happart := hapart prev (by simp)
    unfold Span.Apart at happart
    unfold insert
    split
    · -- the span lies before the whole list
      rename_i hlt
      have hstop : span.stop ≤ prev.start := by
        unfold Span.stop at *
        omega
      apply join_given hspan htidy
      intro later hmem
      rcases List.mem_cons.1 hmem with rfl | hmem
      · exact hstop
      · have hgap := hlater later hmem
        unfold Span.stop at *
        omega
    · rename_i hge
      have hstop : prev.stop ≤ span.start := by
        unfold Span.stop at *
        omega
      split
      · -- the span continues the first one, and may reach the second one
        rename_i htouch
        have hwhole : Span.Granular ⟨prev.start, prev.size + span.size⟩ :=
          ⟨hprev.start, Nat.dvd_add hprev.size hspan.size, Nat.add_pos_left hposPrev _⟩
        have hjoined := join_given hwhole hrest (by
          intro later hmem
          have hgap := hlater later hmem
          have hother := hapart later (by simp [hmem])
          have hposLater := (hrest.granular later hmem).pos
          unfold Span.Apart Span.stop at *
          dsimp only
          omega)
        refine ⟨hjoined.tidy, ?_, ?_⟩
        · intro address
          have hin : address ∈ (⟨prev.start, prev.size + span.size⟩ : Span) ↔
              address ∈ prev ∨ address ∈ span := by
            simp only [Span.mem_iff]
            unfold Span.stop at htouch
            omega
          rw [hjoined.free_iff, hin, free_cons, ← or_assoc, or_comm (a := Free rest address)]
        · rw [hjoined.total_eq, total_cons]
          dsimp only
          omega
      · rename_i hne
        apply (ih hrest fun other hmem => hapart other (by simp [hmem])).cons htidy
        omega

/-! ## Answers -/

theorem granule_pos : 0 < granule := by decide

theorem allocate_ok {list list' : FreeList} {layout : Layout} {block : Block}
    (h : list.allocate layout = .ok (block, list')) :
    (layout.size = 0 ∧ block = .dangling layout.align ∧ list' = list) ∨
      (0 < layout.size ∧ ∃ start spans,
        carve (Word.roundUp layout.size granule) (max layout.align granule) list.spans =
          some (start, spans) ∧
        block = ⟨start, Word.roundUp layout.size granule⟩ ∧
        list' = ⟨spans, list.freeBytes - Word.roundUp layout.size granule⟩) := by
  unfold allocate at h
  split at h
  · rename_i hzero
    obtain ⟨rfl, rfl⟩ := Prod.mk.inj (Except.ok.inj h)
    exact Or.inl ⟨hzero, rfl, rfl⟩
  · rename_i hpos
    split at h
    · contradiction
    rename_i size hsize
    obtain ⟨-, rfl⟩ := Word.fit?_eq_some_iff.1 hsize
    split at h
    · contradiction
    rename_i start spans hcarve
    obtain ⟨rfl, rfl⟩ := Prod.mk.inj (Except.ok.inj h)
    exact Or.inr ⟨Nat.pos_of_ne_zero hpos, start, spans, hcarve, rfl, rfl⟩

theorem expand_ok {list list' : FreeList} {address wanted size : Nat} {layout : Layout}
    (h : list.expand address layout wanted = .ok (size, list')) :
    (wanted ≤ layout.size ∧ size = layout.size ∧ list' = list) ∨
      (layout.size < wanted ∧
        Word.roundUp wanted granule ≤ Word.roundUp layout.size granule ∧
        size = Word.roundUp layout.size granule ∧ list' = list) ∨
      (Word.roundUp layout.size granule < Word.roundUp wanted granule ∧ ∃ spans,
        absorb (address + Word.roundUp layout.size granule)
          (Word.roundUp wanted granule - Word.roundUp layout.size granule) list.spans =
          some spans ∧
        size = Word.roundUp wanted granule ∧
        list' = ⟨spans, list.freeBytes -
          (Word.roundUp wanted granule - Word.roundUp layout.size granule)⟩) := by
  unfold expand at h
  split at h
  · rename_i hle
    obtain ⟨rfl, rfl⟩ := Prod.mk.inj (Except.ok.inj h)
    exact Or.inl ⟨hle, rfl, rfl⟩
  · rename_i hgrows
    split at h
    · rename_i old new hold hnew
      obtain ⟨-, rfl⟩ := Word.fit?_eq_some_iff.1 hold
      obtain ⟨-, rfl⟩ := Word.fit?_eq_some_iff.1 hnew
      split at h
      · rename_i hle
        obtain ⟨rfl, rfl⟩ := Prod.mk.inj (Except.ok.inj h)
        exact Or.inr (Or.inl ⟨Nat.lt_of_not_le hgrows, hle, rfl, rfl⟩)
      · rename_i hlt
        split at h
        · contradiction
        rename_i spans habsorb
        obtain ⟨rfl, rfl⟩ := Prod.mk.inj (Except.ok.inj h)
        exact Or.inr (Or.inr ⟨Nat.lt_of_not_le hlt, spans, habsorb, rfl, rfl⟩)
    · contradiction

theorem dvd_max_granule {align : Nat} (h : align.isPowerOfTwo) :
    align ∣ max align granule ∧ granule ∣ max align granule := by
  obtain ⟨exponent, rfl⟩ := h
  have hgranule : granule = 2 ^ 4 := rfl
  rw [hgranule]
  rcases Nat.le_total exponent 4 with hle | hle
  · have hpow := Nat.pow_le_pow_right (n := 2) (by decide) hle
    rw [Nat.max_eq_right hpow]
    exact ⟨Nat.pow_dvd_pow 2 hle, Nat.dvd_refl _⟩
  · have hpow := Nat.pow_le_pow_right (n := 2) (by decide) hle
    rw [Nat.max_eq_left hpow]
    exact ⟨Nat.dvd_refl _, Nat.pow_dvd_pow 2 hle⟩

end FreeList
end Freehold
