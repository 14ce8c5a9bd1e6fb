import Freehold.Proofs.FreeList.Tidy
import Freehold.Proofs.Memory.AllocatorState

/-!
# The account of a free list

No byte is lost and none is owned twice: the blocks held and the free spans divide
exactly the whole granules of the regions among them.  The account changes in three
ways.  A holding takes up memory that was free, its memory becomes free again, and
holdings make way for others that take up the same memory.
-/

namespace Freehold

/-- The largest run of whole granules in a region. -/
structure Span.LargestGranular (part region : Span) : Prop where
  start : FreeList.granule ∣ part.start
  size : FreeList.granule ∣ part.size
  inside : ∀ address ∈ part, address ∈ region
  largest : ∀ other : Span, FreeList.granule ∣ other.start → FreeList.granule ∣ other.size →
    (∀ address ∈ other, address ∈ region) → ∀ address ∈ other, address ∈ part

/-- What a block takes up in a free list: its size, rounded up to whole granules. -/
def Holding.granules (holding : Holding) : Span :=
  ⟨holding.address, Word.roundUp holding.recorded FreeList.granule⟩

/-- What is true of a holding by itself. -/
structure Holding.Sound (holding : Holding) (regions : List Span) : Prop where
  rounded : holding.recorded = Word.roundUp holding.requested FreeList.granule
  aligned : holding.align ∣ holding.address
  whole : 0 < holding.recorded → FreeList.granule ∣ holding.address
  emptyOutside : holding.recorded = 0 → ∀ region ∈ regions, holding.address ∉ region

theorem Holding.Sound.roundUp_of_fits {holding : Holding} {regions : List Span}
    (h : holding.Sound regions) {size : Nat} (hfits : holding.Fits size) :
    Word.roundUp size FreeList.granule = holding.recorded := by
  rw [h.rounded]
  exact Word.roundUp_eq_of_between FreeList.granule_pos hfits.1 (h.rounded ▸ hfits.2)

theorem Holding.Sound.granules_eq {holding : Holding} {regions : List Span}
    (h : holding.Sound regions) : holding.granules = ⟨holding.address, holding.recorded⟩ := by
  unfold Holding.granules
  rw [Word.roundUp_of_dvd]
  rw [h.rounded]
  exact Word.dvd_roundUp _ _

theorem Holding.Sound.granular {holding : Holding} {regions : List Span}
    (h : holding.Sound regions) (hpos : 0 < holding.recorded) : holding.granules.Granular := by
  rw [h.granules_eq]
  exact ⟨h.whole hpos, h.rounded ▸ Word.dvd_roundUp _ _, hpos⟩

theorem Holding.Sound.not_mem_of_empty {holding : Holding} {regions : List Span}
    (h : holding.Sound regions) (hzero : holding.recorded = 0) (address : Nat) :
    address ∉ holding.granules := by
  rw [h.granules_eq, Span.mem_iff]
  dsimp only
  omega

namespace FreeList

theorem usable_largest (region : Span) : (usable region).LargestGranular region := by
  have hstart : region.start ≤ Word.roundUp region.start granule :=
    Word.le_roundUp _ granule_pos
  have hsize : (usable region).size ≤
      region.size - (Word.roundUp region.start granule - region.start) :=
    Nat.div_mul_le_self _ _
  constructor
  · exact Word.dvd_roundUp _ _
  · exact Nat.dvd_mul_left _ _
  · intro address hin
    rw [Span.mem_iff] at hin ⊢
    unfold usable at hin hsize
    dsimp only at hin hsize
    omega
  · intro other hotherStart hotherSize hinside address hin
    have hpos : 0 < other.size := by
      rw [Span.mem_iff] at hin
      omega
    have hfirst := hinside other.start (by rw [Span.mem_iff]; omega)
    have hlast := hinside (other.start + other.size - 1) (by rw [Span.mem_iff]; omega)
    have hbefore : Word.roundUp region.start granule ≤ other.start :=
      Word.roundUp_le hotherStart hfirst.1
    -- the end of the other run is so many whole granules after the usable start
    have hdvd := Word.dvd_roundUp region.start granule
    rw [Span.mem_iff] at hin hlast ⊢
    unfold usable granule at *
    dsimp only at *
    omega

/-- The account of a free list with the blocks held and the regions handed over. -/
structure Accounts (list : FreeList) (held : List Holding) (regions : List Span) : Prop where
  tidy : Tidy list.spans
  sound : ∀ holding ∈ held, holding.Sound regions
  heldApart : held.Pairwise fun first second =>
    ∀ address ∈ first.granules, address ∉ second.granules
  freeApart : ∀ holding ∈ held, ∀ address ∈ holding.granules, ¬ Free list.spans address
  owned_iff : ∀ address,
    (∃ holding ∈ held, address ∈ holding.granules) ∨ Free list.spans address ↔
      ∃ region ∈ regions, address ∈ usable region
  freeBytes_eq : list.freeBytes = total list.spans

namespace Accounts

variable {list : FreeList} {held : List Holding} {regions : List Span}

theorem initial : Accounts {} [] [] := by
  constructor <;> simp [tidy_nil]

theorem perm {held' : List Holding} (h : Accounts list held regions)
    (hperm : held.Perm held') : Accounts list held' regions := by
  have hmem : ∀ holding, holding ∈ held' ↔ holding ∈ held := fun holding => hperm.mem_iff.symm
  constructor
  · exact h.tidy
  · exact fun holding hin => h.sound holding ((hmem holding).1 hin)
  · refine hperm.pairwise h.heldApart ?_
    intro first second hapart address hsecond hfirst
    exact hapart address hfirst hsecond
  · exact fun holding hin => h.freeApart holding ((hmem holding).1 hin)
  · intro address
    simp only [hmem]
    exact h.owned_iff address
  · exact h.freeBytes_eq

/-- Some holdings make way for others that take up the same memory. -/
theorem exchange (olds news : List Holding) (h : Accounts list (olds ++ held) regions)
    (hsound : ∀ holding ∈ news, holding.Sound regions)
    (hapart : news.Pairwise fun first second =>
      ∀ address ∈ first.granules, address ∉ second.granules)
    (hsame : ∀ address, (∃ holding ∈ news, address ∈ holding.granules) ↔
      ∃ holding ∈ olds, address ∈ holding.granules) :
    Accounts list (news ++ held) regions := by
  obtain ⟨-, hheld, hcross⟩ := List.pairwise_append.1 h.heldApart
  constructor
  · exact h.tidy
  · intro holding hmem
    rcases List.mem_append.1 hmem with hmem | hmem
    · exact hsound holding hmem
    · exact h.sound holding (List.mem_append_right olds hmem)
  · refine List.pairwise_append.2 ⟨hapart, hheld, ?_⟩
    intro new hnew other hother address hin
    obtain ⟨old, hold, hinOld⟩ := (hsame address).1 ⟨new, hnew, hin⟩
    exact hcross old hold other hother address hinOld
  · intro holding hmem address hin
    rcases List.mem_append.1 hmem with hmem | hmem
    · obtain ⟨old, hold, hinOld⟩ := (hsame address).1 ⟨holding, hmem, hin⟩
      exact h.freeApart old (List.mem_append_left held hold) address hinOld
    · exact h.freeApart holding (List.mem_append_right olds hmem) address hin
  · intro address
    rw [← h.owned_iff address]
    simp only [List.mem_append, or_and_right, exists_or, hsame address]
  · exact h.freeBytes_eq

/-- A holding takes up memory that was free before. -/
theorem take (h : Accounts list held regions) {rest : List Span} {fresh : Holding}
    (htaken : Taken list.spans rest fresh.granules) (hsound : fresh.Sound regions) :
    Accounts ⟨rest, list.freeBytes - fresh.granules.size⟩ (fresh :: held) regions := by
  constructor
  · exact htaken.tidy
  · intro holding hmem
    rcases List.mem_cons.1 hmem with rfl | hmem
    · exact hsound
    · exact h.sound holding hmem
  · refine List.pairwise_cons.2 ⟨?_, h.heldApart⟩
    intro other hother address hin hinOther
    exact h.freeApart other hother address hinOther (htaken.inside address hin)
  · intro holding hmem address hin hfree
    obtain ⟨hfree, hout⟩ := (htaken.free_iff address).1 hfree
    rcases List.mem_cons.1 hmem with rfl | hmem
    · exact hout hin
    · exact h.freeApart holding hmem address hin hfree
  · intro address
    have hinside := htaken.inside address
    rw [← h.owned_iff address]
    simp only [List.mem_cons, exists_eq_or_imp, htaken.free_iff]
    by_cases hin : address ∈ fresh.granules
    · simp [hin, hinside hin]
    · simp [hin]
  · have htotal := htaken.total_add
    have hbytes := h.freeBytes_eq
    dsimp only
    omega

theorem give {holding : Holding} (h : Accounts list (holding :: held) regions)
    {whole : List Span} (hgiven : Given list.spans whole holding.granules) :
    Accounts ⟨whole, list.freeBytes + holding.granules.size⟩ held regions := by
  obtain ⟨hapart, hheld⟩ := List.pairwise_cons.1 h.heldApart
  constructor
  · exact hgiven.tidy
  · exact fun other hmem => h.sound other (List.mem_cons_of_mem holding hmem)
  · exact hheld
  · intro other hmem address hin hfree
    rcases (hgiven.free_iff address).1 hfree with hfree | hinHolding
    · exact h.freeApart other (List.mem_cons_of_mem holding hmem) address hin hfree
    · exact hapart other hmem address hinHolding hin
  · intro address
    rw [← h.owned_iff address, hgiven.free_iff]
    simp only [List.mem_cons, exists_eq_or_imp]
    rw [← or_assoc, or_comm, ← or_assoc]
  · rw [hgiven.total_eq, h.freeBytes_eq]

end Accounts
end FreeList
end Freehold
