import Freehold.Proofs.Memory.Resizing

/-!
# Sizes between request and record

A user may pass any size for a block that lies between what it asked for and what was
recorded.  A free list and a page map round the size up to their granule, and all these sizes
round up to the recorded one.  So the size that is passed shows in the answer alone, and there
only if the block is large enough already.
-/

namespace Freehold

/-- Allocators that reserve whole granules and can extend a block. -/
def Backend.Rounds : Backend → Prop
  | .freeList _ | .pages _ => True
  | .stack _ | .basic _ | .heap _ => False

theorem Backend.Continues.rounds {backend backend' : Backend} (h : backend.Continues backend')
    (hrounds : backend.Rounds) : backend'.Rounds := by
  cases backend <;> cases backend' <;> simp_all [Continues, Rounds]

section Rounding

variable {size recorded granule : Nat}

theorem Word.roundUp?_congr (h : roundUp size granule = recorded) :
    roundUp? size granule = roundUp? recorded granule := by
  unfold roundUp?
  rw [h, roundUp_of_dvd (h ▸ dvd_roundUp size granule)]

theorem Word.eq_zero_iff_of_roundUp (hpos : 0 < granule) (h : roundUp size granule = recorded) :
    size = 0 ↔ recorded = 0 := by
  constructor
  · rintro rfl
    rw [← h, roundUp_zero]
  · intro hzero
    have hle := le_roundUp size hpos
    omega

/-- A size that is not above the recorded one takes up the same granules. -/
theorem Word.roundUp?_within (hpos : 0 < granule) (h : roundUp size granule = recorded)
    (hword : recorded < limit) {wanted : Nat} (hgrows : size < wanted) (hle : wanted ≤ recorded) :
    roundUp? size granule = some recorded ∧ roundUp? wanted granule = some recorded := by
  have hwanted : roundUp wanted granule = recorded :=
    (roundUp_eq_of_between hpos (Nat.le_of_lt hgrows) (h.symm ▸ hle)).trans h
  exact ⟨fit?_eq_some_iff.2 ⟨h.symm ▸ hword, h⟩, fit?_eq_some_iff.2 ⟨hwanted.symm ▸ hword, hwanted⟩⟩

end Rounding

namespace FreeList

variable (list : FreeList) (address : Nat) (layout : Layout) {wanted recorded : Nat}
  (h : Word.roundUp layout.size granule = recorded)

include h

theorem expand_within (hword : recorded < Word.limit) (hle : wanted ≤ recorded) :
    ∃ answer ≤ recorded, list.expand address layout wanted = .ok (answer, list) := by
  unfold expand
  by_cases hfits : wanted ≤ layout.size
  · exact ⟨layout.size, h ▸ Word.le_roundUp _ granule_pos, if_pos hfits⟩
  · obtain ⟨hold, hnew⟩ := Word.roundUp?_within granule_pos h hword (Nat.lt_of_not_le hfits) hle
    refine ⟨recorded, Nat.le_refl _, ?_⟩
    rw [if_neg hfits, hold, hnew]
    exact if_pos (Nat.le_refl _)

theorem expand_beyond (hlt : recorded < wanted) :
    list.expand address layout wanted = list.expand address ⟨recorded, layout.align⟩ wanted := by
  have hle : layout.size ≤ recorded := h ▸ Word.le_roundUp _ granule_pos
  have hsmall : ¬ wanted ≤ layout.size := by omega
  unfold expand
  rw [if_neg hsmall, if_neg (Nat.not_le_of_lt hlt), Word.roundUp?_congr h]

theorem deallocate_fitting :
    list.deallocate address layout = list.deallocate address ⟨recorded, layout.align⟩ := by
  have hempty := Word.eq_zero_iff_of_roundUp granule_pos h
  have hround : Word.roundUp recorded granule = recorded :=
    Word.roundUp_of_dvd (h ▸ Word.dvd_roundUp _ _)
  unfold deallocate
  simp only [hempty, h, hround]

end FreeList

namespace PageMap

variable (pages : PageMap) (address : Nat) (layout : Layout) {wanted recorded : Nat}
  (h : Word.roundUp layout.size pages.pageSize = recorded)

include h

theorem expand_within (hword : recorded < Word.limit) (hle : wanted ≤ recorded) :
    ∃ answer ≤ recorded, pages.expand address layout wanted = .ok (answer, pages) := by
  unfold expand
  by_cases hfits : wanted ≤ layout.size
  · exact ⟨layout.size, h ▸ Word.le_roundUp _ pages.pageSize_pos, if_pos hfits⟩
  · obtain ⟨hold, hnew⟩ :=
      Word.roundUp?_within pages.pageSize_pos h hword (Nat.lt_of_not_le hfits) hle
    refine ⟨recorded, Nat.le_refl _, ?_⟩
    rw [if_neg hfits, hold, hnew]
    exact if_pos (Nat.le_refl _)

theorem expand_beyond (hlt : recorded < wanted) :
    pages.expand address layout wanted = pages.expand address ⟨recorded, layout.align⟩ wanted := by
  have hle : layout.size ≤ recorded := h ▸ Word.le_roundUp _ pages.pageSize_pos
  have hsmall : ¬ wanted ≤ layout.size := by omega
  unfold expand
  rw [if_neg hsmall, if_neg (Nat.not_le_of_lt hlt), Word.roundUp?_congr h]

theorem reallocate_within (hword : recorded < Word.limit) (hle : wanted ≤ recorded) :
    ∃ answer ≤ recorded,
      pages.reallocate address layout wanted = .ok (⟨address, answer⟩, pages) := by
  unfold reallocate
  by_cases hfits : wanted ≤ layout.size
  · exact ⟨layout.size, h ▸ Word.le_roundUp _ pages.pageSize_pos, if_pos hfits⟩
  · have hempty := Word.eq_zero_iff_of_roundUp pages.pageSize_pos h
    obtain ⟨hold, hnew⟩ :=
      Word.roundUp?_within pages.pageSize_pos h hword (Nat.lt_of_not_le hfits) hle
    refine ⟨recorded, Nat.le_refl _, ?_⟩
    rw [if_neg hfits, if_neg (by omega), hold, hnew]
    exact if_pos (Nat.le_refl _)

theorem reallocate_beyond (hlt : recorded < wanted) :
    pages.reallocate address layout wanted =
      pages.reallocate address ⟨recorded, layout.align⟩ wanted := by
  have hle : layout.size ≤ recorded := h ▸ Word.le_roundUp _ pages.pageSize_pos
  have hsmall : ¬ wanted ≤ layout.size := by omega
  have hempty := Word.eq_zero_iff_of_roundUp pages.pageSize_pos h
  unfold reallocate
  rw [if_neg hsmall, if_neg (Nat.not_le_of_lt hlt), Word.roundUp?_congr h]
  simp only [hempty]

theorem deallocate_fitting :
    pages.deallocate address layout = pages.deallocate address ⟨recorded, layout.align⟩ := by
  have hempty := Word.eq_zero_iff_of_roundUp pages.pageSize_pos h
  have hround : Word.roundUp recorded pages.pageSize = recorded :=
    Word.roundUp_of_dvd (h ▸ Word.dvd_roundUp _ _)
  unfold deallocate
  simp only [hempty, h, hround]

end PageMap

/-! ## Sizes that fit no word -/

/-- The whole granules of a valid size fit a word. -/
theorem Layout.Valid.roundUp_lt {layout : Layout} (hvalid : layout.Valid) (backend : Backend) :
    Word.roundUp layout.size backend.granule < Word.limit := by
  have hsize := hvalid.size_lt
  have hround := Word.roundUp_lt layout.size backend.granule_pos
  have hsmall := backend.granule_le
  have hlimit : Word.limit = 1 <<< 63 + 1 <<< 63 := rfl
  omega

theorem Layout.of?_none_of_overflow {wanted align : Nat} {backend : Backend}
    (hover : Word.roundUp? wanted backend.granule = none) : Layout.of? wanted align = none := by
  cases hfresh : Layout.of? wanted align with
  | none => rfl
  | some fresh =>
    obtain ⟨hvalid, rfl⟩ := Layout.of?_eq_some_iff.1 hfresh
    exact absurd (hvalid.roundUp_lt backend) (Nat.not_lt.2 (Word.fit?_eq_none_iff.1 hover))

namespace Memory

variable {memory : Memory} {layout : Layout} {address wanted : Nat}

theorem expand_overflow (hrounds : memory.backend.Rounds) (hgrows : ¬ wanted ≤ layout.size)
    (hover : Word.roundUp? wanted memory.backend.granule = none) :
    memory.expand address layout wanted = .error { kind := .integerOverflow } := by
  unfold expand
  cases hbackend : memory.backend with
  | stack arena | basic list | heap heap =>
    rw [hbackend] at hrounds
    exact hrounds.elim
  | freeList list =>
    have hnone : Word.roundUp? wanted FreeList.granule = none := by rwa [hbackend] at hover
    dsimp only
    unfold FreeList.expand
    rw [if_neg hgrows, hnone]
    cases Word.roundUp? layout.size FreeList.granule <;> rfl
  | pages pages =>
    have hnone : Word.roundUp? wanted pages.pageSize = none := by rwa [hbackend] at hover
    dsimp only
    unfold PageMap.expand
    rw [if_neg hgrows, hnone]
    cases Word.roundUp? layout.size pages.pageSize <;> rfl

theorem reallocate_overflow (hrounds : memory.backend.Rounds) (hgrows : ¬ wanted ≤ layout.size)
    (hover : Word.roundUp? wanted memory.backend.granule = none) :
    memory.reallocate address layout wanted = .error { kind := .integerOverflow } := by
  have hgrown : memory.expand address layout wanted = _ := expand_overflow hrounds hgrows hover
  have hlayout : Layout.of? wanted layout.align = none := Layout.of?_none_of_overflow hover
  unfold reallocate
  cases hbackend : memory.backend with
  | stack arena | basic list | heap heap =>
    rw [hbackend] at hrounds
    exact hrounds.elim
  | freeList list =>
    dsimp only
    unfold reallocateByCopy
    rw [if_neg hgrows, hgrown, hlayout]
  | pages pages =>
    have hnone : Word.roundUp? wanted pages.pageSize = none := by rwa [hbackend] at hover
    dsimp only
    unfold PageMap.reallocate
    rw [if_neg hgrows, hlayout, hnone]
    split
    · rfl
    · cases Word.roundUp? layout.size pages.pageSize <;> rfl

end Memory

/-! ## Answers that match -/

/-- The same refusal, or answers after which the block is held alike and the books are
equal. -/
inductive Matches (holding : Holding) (wanted : Nat) :
    Except Refusal (Block × Memory) → Except Refusal (Block × Memory) → Prop
  | refused (refusal : Refusal) : Matches holding wanted (.error refusal) (.error refusal)
  | answered {block block' : Block} {first second : Memory}
    (haddress : block.address = block'.address)
    (hheld : holding.resized wanted block = holding.resized wanted block')
    (hbooks : first.backend = second.backend) :
    Matches holding wanted (.ok (block, first)) (.ok (block', second))

theorem Matches.of_agree {holding : Holding} {wanted : Nat}
    {answer answer' : Except Refusal (Block × Memory)} (h : Agree answer answer') :
    Matches holding wanted answer answer' := by
  cases h with
  | refused refusal => exact .refused refusal
  | answered block hbooks => exact .answered rfl rfl hbooks

/-- A block that need not grow is held as before, whatever size is answered. -/
theorem Matches.of_within {holding : Holding} {wanted answer answer' : Nat}
    {first second : Memory} (hanswer : answer ≤ holding.recorded)
    (hanswer' : answer' ≤ holding.recorded) (hbooks : first.backend = second.backend) :
    Matches holding wanted (.ok (⟨holding.address, answer⟩, first))
      (.ok (⟨holding.address, answer'⟩, second)) := by
  refine .answered rfl ?_ hbooks
  unfold Holding.resized
  rw [Nat.max_eq_left hanswer, Nat.max_eq_left hanswer']

namespace Memory

/-- A size stands for what was recorded of a block: it takes up the same granules. -/
structure StandsFor (memory : Memory) (size : Nat) (holding : Holding) : Prop where
  rounds : memory.backend.Rounds
  word : holding.recorded < Word.limit
  round : Word.roundUp size memory.backend.granule = holding.recorded

namespace StandsFor

variable {memory first second : Memory} {holding : Holding} {size size' wanted : Nat}

theorem size_le (h : memory.StandsFor size holding) : size ≤ holding.recorded :=
  h.round ▸ Word.le_roundUp size memory.backend.granule_pos

theorem transfer (h : memory.StandsFor size holding) {other : Memory}
    (hrounds : other.backend.Rounds) (hgranule : other.backend.granule = memory.backend.granule) :
    other.StandsFor size holding :=
  ⟨hrounds, h.word, hgranule ▸ h.round⟩

theorem expand_within (h : memory.StandsFor size holding) (hle : wanted ≤ holding.recorded) :
    ∃ answer ≤ holding.recorded, ∃ grown,
      memory.expand holding.address (holding.layout size) wanted = .ok (answer, grown) ∧
        grown.backend = memory.backend := by
  obtain ⟨hrounds, hword, hround⟩ := h
  unfold expand
  cases hbackend : memory.backend with
  | stack arena | basic list | heap heap =>
    rw [hbackend] at hrounds
    exact hrounds.elim
  | freeList list =>
    rw [hbackend] at hround
    obtain ⟨answer, hanswer, hok⟩ :=
      list.expand_within holding.address (holding.layout size) hround hword hle
    exact ⟨answer, hanswer, memory.withList .freeList list, congrArg (Except.map _) hok, rfl⟩
  | pages pages =>
    rw [hbackend] at hround
    obtain ⟨answer, hanswer, hok⟩ :=
      pages.expand_within holding.address (holding.layout size) hround hword hle
    exact ⟨answer, hanswer, ⟨.pages pages, _⟩, congrArg (Except.map _) hok, rfl⟩

theorem reallocate_within (h : memory.StandsFor size holding) (hle : wanted ≤ holding.recorded) :
    ∃ answer ≤ holding.recorded, ∃ resized,
      memory.reallocate holding.address (holding.layout size) wanted =
        .ok (⟨holding.address, answer⟩, resized) ∧ resized.backend = memory.backend := by
  have hgrown := h.expand_within hle
  have hsize := h.size_le
  obtain ⟨hrounds, hword, hround⟩ := h
  unfold reallocate
  cases hbackend : memory.backend with
  | stack arena | basic list | heap heap =>
    rw [hbackend] at hrounds
    exact hrounds.elim
  | freeList list =>
    dsimp only
    unfold reallocateByCopy
    by_cases hfits : wanted ≤ (holding.layout size).size
    · exact ⟨size, hsize, memory, if_pos hfits, hbackend⟩
    · obtain ⟨answer, hanswer, grown, hok, hbooks⟩ := hgrown
      refine ⟨answer, hanswer, grown, ?_, hbooks.trans hbackend⟩
      rw [if_neg hfits, hok]
  | pages pages =>
    rw [hbackend] at hround
    obtain ⟨answer, hanswer, hok⟩ :=
      pages.reallocate_within holding.address (holding.layout size) hround hword hle
    exact ⟨answer, hanswer, ⟨.pages pages, _⟩, congrArg (Except.map _) hok, rfl⟩

section Pairs

variable (h : first.StandsFor size holding) (h' : second.StandsFor size' holding)
  (hbooks : first.backend = second.backend)

include h h' hbooks

theorem expand_beyond (hlt : holding.recorded < wanted) :
    Agree (first.expand holding.address (holding.layout size) wanted)
      (second.expand holding.address (holding.layout size') wanted) := by
  obtain ⟨hrounds, -, hround⟩ := h
  have hround' := h'.round
  unfold expand
  rw [← hbooks] at hround' ⊢
  cases hbackend : first.backend with
  | stack arena | basic list | heap heap =>
    rw [hbackend] at hrounds
    exact hrounds.elim
  | freeList list =>
    rw [hbackend] at hround hround'
    dsimp only
    rw [list.expand_beyond holding.address (holding.layout size) hround hlt,
      list.expand_beyond holding.address (holding.layout size') hround' hlt]
    exact .of_map _ fun _ => rfl
  | pages pages =>
    rw [hbackend] at hround hround'
    dsimp only
    rw [pages.expand_beyond holding.address (holding.layout size) hround hlt,
      pages.expand_beyond holding.address (holding.layout size') hround' hlt]
    exact .of_map _ fun _ => rfl

/-- What is given back is what was recorded. -/
theorem deallocate_eq :
    (first.deallocate holding.address (holding.layout size)).backend =
      (second.deallocate holding.address (holding.layout size')).backend := by
  obtain ⟨hrounds, -, hround⟩ := h
  have hround' := h'.round
  unfold deallocate
  rw [← hbooks] at hround' ⊢
  cases hbackend : first.backend with
  | stack arena | basic list | heap heap =>
    rw [hbackend] at hrounds
    exact hrounds.elim
  | freeList list =>
    rw [hbackend] at hround hround'
    dsimp only
    rw [list.deallocate_fitting holding.address (holding.layout size) hround,
      list.deallocate_fitting holding.address (holding.layout size') hround']
    rfl
  | pages pages =>
    rw [hbackend] at hround hround'
    dsimp only
    rw [pages.deallocate_fitting holding.address (holding.layout size) hround,
      pages.deallocate_fitting holding.address (holding.layout size') hround']
    rfl

/-- A block that has to grow is moved alike, whatever size is passed: only the number of
bytes that are copied depends on it. -/
theorem reallocateByCopy_beyond (hlt : holding.recorded < wanted) :
    Agree (first.reallocateByCopy holding.address (holding.layout size) wanted)
      (second.reallocateByCopy holding.address (holding.layout size') wanted) := by
  have hexpand := expand_beyond h h' hbooks hlt
  have hsmall : ¬ wanted ≤ (holding.layout size).size :=
    Nat.not_le_of_lt (Nat.lt_of_le_of_lt h.size_le hlt)
  have hsmall' : ¬ wanted ≤ (holding.layout size').size :=
    Nat.not_le_of_lt (Nat.lt_of_le_of_lt h'.size_le hlt)
  unfold reallocateByCopy
  rw [if_neg hsmall, if_neg hsmall']
  generalize first.expand holding.address (holding.layout size) wanted = grown at hexpand ⊢
  generalize second.expand holding.address (holding.layout size') wanted = grown' at hexpand ⊢
  cases hexpand with
  | answered answer hgrown => exact .answered _ hgrown
  | refused refusal =>
    have hlayout : Layout.of? wanted (holding.layout size').align =
        Layout.of? wanted (holding.layout size).align := rfl
    dsimp only
    rw [hlayout]
    split
    · exact .refused _
    rename_i fresh hfresh
    rcases (agree_allocate hbooks fresh).either with
      ⟨refusal, hrefused, hrefused'⟩ | ⟨block, moved, moved', hfound, hfound', hmoved⟩
    · rw [hrefused, hrefused']
      exact .refused refusal
    · rw [hfound, hfound']
      have hkept : moved.StandsFor size holding :=
        h.transfer ((continues_allocate hfound).rounds h.rounds) (granule_allocate hfound)
      have hkept' : moved'.StandsFor size' holding :=
        h'.transfer ((continues_allocate hfound').rounds h'.rounds) (granule_allocate hfound')
      refine .answered block ?_
      exact deallocate_eq (hkept.transfer hkept.rounds rfl) (hkept'.transfer hkept'.rounds rfl)
        hmoved

theorem reallocate_beyond (hlt : holding.recorded < wanted) :
    Agree (first.reallocate holding.address (holding.layout size) wanted)
      (second.reallocate holding.address (holding.layout size') wanted) := by
  have hcopy := reallocateByCopy_beyond h h' hbooks hlt
  obtain ⟨hrounds, -, hround⟩ := h
  have hround' := h'.round
  unfold reallocate
  rw [← hbooks] at hround' ⊢
  cases hbackend : first.backend with
  | stack arena | basic list | heap heap =>
    rw [hbackend] at hrounds
    exact hrounds.elim
  | freeList list => exact hcopy
  | pages pages =>
    rw [hbackend] at hround hround'
    dsimp only
    rw [pages.reallocate_beyond holding.address (holding.layout size) hround hlt,
      pages.reallocate_beyond holding.address (holding.layout size') hround' hlt]
    exact .of_map _ fun _ => rfl

theorem expand_matches (wanted : Nat) :
    Matches holding wanted
      ((first.expand holding.address (holding.layout size) wanted).map
        fun grown => (⟨holding.address, grown.1⟩, grown.2))
      ((second.expand holding.address (holding.layout size') wanted).map
        fun grown => (⟨holding.address, grown.1⟩, grown.2)) := by
  by_cases hle : wanted ≤ holding.recorded
  · obtain ⟨answer, hanswer, grown, hok, hgrown⟩ := h.expand_within hle
    obtain ⟨answer', hanswer', grown', hok', hgrown'⟩ := h'.expand_within hle
    rw [hok, hok']
    exact .of_within hanswer hanswer' (hgrown.trans (hbooks.trans hgrown'.symm))
  · have hagree := expand_beyond h h' hbooks (Nat.lt_of_not_le hle)
    exact .of_agree (hagree.map (Block.mk holding.address) (fun _ => rfl) fun _ => rfl)

theorem reallocate_matches (wanted : Nat) :
    Matches holding wanted
      (first.reallocate holding.address (holding.layout size) wanted)
      (second.reallocate holding.address (holding.layout size') wanted) := by
  by_cases hle : wanted ≤ holding.recorded
  · obtain ⟨answer, hanswer, resized, hok, hresized⟩ := h.reallocate_within hle
    obtain ⟨answer', hanswer', resized', hok', hresized'⟩ := h'.reallocate_within hle
    rw [hok, hok']
    exact .of_within hanswer hanswer' (hresized.trans (hbooks.trans hresized'.symm))
  · exact .of_agree (reallocate_beyond h h' hbooks (Nat.lt_of_not_le hle))

end Pairs

/-! ## Recorded sizes are words -/

variable {memory' : Memory}

theorem expand_word (h : memory.StandsFor size holding) {answer : Nat}
    (hok : memory.expand holding.address (holding.layout size) wanted = .ok (answer, memory')) :
    answer < Word.limit := by
  rcases (expand_granted hok).1 with ⟨-, rfl⟩ | ⟨hlt, rfl⟩
  · exact Nat.lt_of_le_of_lt h.size_le h.word
  · by_contra hover
    have hnone := Word.fit?_eq_none_iff.2 (Nat.le_of_not_lt hover)
    cases hok.symm.trans (expand_overflow h.rounds (Nat.not_le_of_lt hlt) hnone)

theorem reallocate_word (h : memory.StandsFor size holding) {block : Block}
    (hok : memory.reallocate holding.address (holding.layout size) wanted =
      .ok (block, memory')) :
    block.size < Word.limit := by
  rcases (reallocate_granted hok).1 with ⟨-, rfl⟩ | ⟨hlt, hsize, -⟩
  · exact Nat.lt_of_le_of_lt h.size_le h.word
  · rw [hsize]
    by_contra hover
    have hnone := Word.fit?_eq_none_iff.2 (Nat.le_of_not_lt hover)
    cases hok.symm.trans (reallocate_overflow h.rounds (Nat.not_le_of_lt hlt) hnone)

end StandsFor
end Memory
end Freehold
