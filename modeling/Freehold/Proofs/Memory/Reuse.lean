import Freehold.Proofs.Memory.Arena
import Freehold.Proofs.Memory.Headers

/-!
# One place of an arena used again and again

The last block of a stack arena stays where it is however often it is resized, and the arena
recognises it by the size it has come to.  When it is given back, the arena is used up to
the start of the block.  The padding in front of the first block is used up once: whatever
is asked for next with an alignment not above that of the first block starts at the same
place, so a block that is used for a short time again and again never uses up the arena.
-/

namespace Freehold

namespace StackArena

/-- The arena is used up to an offset and knows no last block. -/
def clearedFrom (arena : StackArena) (start : Nat) : StackArena :=
  { arena with used := start, last := none }

/-- The arena is used up to the end of its last block. -/
def toppedBy (arena : StackArena) (start size : Nat) : StackArena :=
  { arena with used := start + size, last := some start }

variable (arena : StackArena) {start size : Nat}

theorem lastStart?_toppedBy (start size : Nat) :
    (arena.toppedBy start size).lastStart? (arena.base + start) size = some start := by
  have hoffset : (arena.toppedBy start size).offset? (arena.base + start) = some start := by
    have hin : (arena.toppedBy start size).base ≤ arena.base + start := Nat.le_add_right _ _
    unfold offset?
    rw [if_pos hin]
    exact congrArg some (Nat.add_sub_cancel_left _ _)
  unfold lastStart?
  rw [hoffset]
  exact if_pos ⟨rfl, rfl⟩

/-- The last block grows where it lies, or not at all. -/
theorem expand_toppedBy (start align : Nat) {wanted : Nat} (hgrows : size < wanted) :
    (arena.toppedBy start size).expand (arena.base + start) ⟨size, align⟩ wanted =
      if arena.capacity < start + wanted ∨ Word.limit ≤ start + wanted then
        .error { kind := .inPlaceGrowthFailed }
      else .ok (wanted, arena.toppedBy start wanted) := by
  have hlast : (arena.toppedBy start size).lastStart? (arena.base + start)
      (Layout.mk size align).size = some start := arena.lastStart?_toppedBy start size
  exact expand_of_lastStart? hlast hgrows

theorem deallocate_toppedBy (align : Nat) (hpos : 0 < size) :
    (arena.toppedBy start size).deallocate (arena.base + start) ⟨size, align⟩ =
      arena.clearedFrom start := by
  have hlast : (arena.toppedBy start size).lastStart? (arena.base + start)
      (Layout.mk size align).size = some start := arena.lastStart?_toppedBy start size
  exact deallocate_of_lastStart? hpos hlast

/-- What does not fit behind the start of the last block does not fit behind its end. -/
theorem allocate_toppedBy_refused (size align : Nat) {wanted : Nat} (hpos : 0 < wanted)
    (hfull : arena.capacity < start + wanted ∨ Word.limit ≤ start + wanted) :
    ∃ refusal, (arena.toppedBy start size).allocate ⟨wanted, align⟩ = .error refusal := by
  have hfilled : 0 < (Layout.mk wanted align).size := hpos
  have hcases := (arena.toppedBy start size).allocate_cases hfilled
  obtain ⟨-, refusal, hrefused, -⟩ | ⟨hroom, hsmall, -⟩ := hcases
  · exact ⟨refusal, hrefused⟩
  · -- The first fit is not below the end of the last block, hence not below its start.
    have habove : start + size ≤ (arena.toppedBy start size).firstFit align := Nat.le_add_right _ _
    have hcapacity : (arena.toppedBy start size).capacity = arena.capacity := rfl
    dsimp only at hroom hsmall
    omega

/-- At an aligned offset no padding is needed. -/
theorem firstFit_clearedFrom {align : Nat} (hpos : 0 < align)
    (hdvd : align ∣ arena.base + start) : (arena.clearedFrom start).firstFit align = start := by
  have hfit := (arena.clearedFrom start).base_add_firstFit hpos
  have hround : Word.roundUp (arena.base + start) align = arena.base + start :=
    Word.roundUp_of_dvd hdvd
  have hsame : arena.base + (arena.clearedFrom start).firstFit align = arena.base + start :=
    hfit.trans hround
  omega

end StackArena

/-- What may be asked for in a place with some alignment and some room. -/
structure Layout.Suits (layout : Layout) (align room : Nat) : Prop where
  valid : layout.Valid
  filled : 0 < layout.size
  coarse : layout.align ≤ align
  fits : layout.size ≤ room

/-- A block in use, with the memory that it lies in. -/
structure Loan where
  block : Block
  align : Nat
  memory : Memory

namespace Loan

/-- What the user of a block does before it gives the block back. -/
inductive Act where
  | expand (wanted : Nat)
  | reallocate (wanted : Nat)
  | write (bytes : Bytes)

/-- The current layout of the block. -/
def layout (loan : Loan) : Layout := ⟨loan.block.size, loan.align⟩

/-- A request that is refused changes nothing. -/
def act (loan : Loan) : Act → Loan
  | .expand wanted =>
    match loan.memory.expand loan.block.address loan.layout wanted with
    | .error _ => loan
    | .ok (size, memory) => { loan with block := ⟨loan.block.address, size⟩, memory := memory }
  | .reallocate wanted =>
    match loan.memory.reallocate loan.block.address loan.layout wanted with
    | .error _ => loan
    | .ok (block, memory) => { loan with block := block, memory := memory }
  | .write bytes => { loan with memory := { loan.memory with bytes := bytes } }

def after (loan : Loan) (acts : List Act) : Loan := acts.foldl act loan

def giveBack (loan : Loan) : Memory := loan.memory.deallocate loan.block.address loan.layout

/-- The block is the last one of an arena, and starts at an offset. -/
structure Tops (loan : Loan) (arena : StackArena) (start : Nat) : Prop where
  backend : loan.memory.backend = .stack (arena.toppedBy start loan.block.size)
  address : loan.block.address = arena.base + start
  filled : 0 < loan.block.size

variable {loan : Loan} {arena : StackArena} {start : Nat}

/-- A longer last block. -/
theorem Tops.expand (h : loan.Tops arena start) {wanted : Nat} (hgrows : loan.block.size < wanted) :
    loan.memory.expand loan.block.address loan.layout wanted =
      if arena.capacity < start + wanted ∨ Word.limit ≤ start + wanted then
        .error { kind := .inPlaceGrowthFailed }
      else
        .ok (wanted, { loan.memory with backend := .stack (arena.toppedBy start wanted) }) := by
  have hgrown := arena.expand_toppedBy start loan.align hgrows
  unfold Memory.expand
  rw [h.backend, h.address]
  dsimp only [layout]
  rw [hgrown]
  split
  · rfl
  · rfl

/-- The last block is never moved: what does not fit in its place fits nowhere. -/
theorem Tops.reallocate (h : loan.Tops arena start) {wanted : Nat}
    (hgrows : loan.block.size < wanted) :
    (∃ refusal, loan.memory.reallocate loan.block.address loan.layout wanted = .error refusal) ∨
      loan.memory.reallocate loan.block.address loan.layout wanted =
        .ok (⟨loan.block.address, wanted⟩,
          { loan.memory with backend := .stack (arena.toppedBy start wanted) }) := by
  have hcopies : loan.memory.reallocate loan.block.address loan.layout wanted =
      loan.memory.reallocateByCopy loan.block.address loan.layout wanted := by
    unfold Memory.reallocate
    rw [h.backend]
  have hgrowing : ¬ wanted ≤ loan.layout.size := Nat.not_le_of_lt hgrows
  rw [hcopies]
  unfold Memory.reallocateByCopy
  rw [if_neg hgrowing, h.expand hgrows]
  by_cases hfull : arena.capacity < start + wanted ∨ Word.limit ≤ start + wanted
  · left
    rw [if_pos hfull]
    dsimp only
    split
    · exact ⟨_, rfl⟩
    · rename_i fresh hfresh
      obtain ⟨-, rfl⟩ := Layout.of?_eq_some_iff.1 hfresh
      have hpos : 0 < wanted := Nat.lt_of_le_of_lt (Nat.zero_le _) hgrows
      obtain ⟨refusal, hrefused⟩ :=
        arena.allocate_toppedBy_refused loan.block.size loan.layout.align hpos hfull
      have hnowhere : loan.memory.allocate ⟨wanted, loan.layout.align⟩ = .error refusal := by
        unfold Memory.allocate
        rw [h.backend]
        dsimp only
        rw [hrefused]
        rfl
      rw [hnowhere]
      exact ⟨refusal, rfl⟩
  · right
    rw [if_neg hfull]

/-- Whatever is done with the last block, it stays the last one and where it is. -/
theorem Tops.act (h : loan.Tops arena start) (act : Act) : (loan.act act).Tops arena start := by
  have hlonger : ∀ {wanted : Nat}, loan.block.size < wanted → 0 < wanted :=
    fun hgrows => Nat.lt_of_le_of_lt (Nat.zero_le _) hgrows
  cases act with
  | expand wanted =>
    unfold Loan.act
    dsimp only
    rcases Nat.lt_or_ge loan.block.size wanted with hgrows | hle
    · rw [h.expand hgrows]
      by_cases hfull : arena.capacity < start + wanted ∨ Word.limit ≤ start + wanted
      · rw [if_pos hfull]
        exact h
      · rw [if_neg hfull]
        exact ⟨rfl, h.address, hlonger hgrows⟩
    · have hlaid : loan.memory.Laid := Memory.laid_of_headless fun _ => by rw [h.backend]; rfl
      rw [hlaid.expand_of_le loan.block.address hle]
      exact h
  | reallocate wanted =>
    unfold Loan.act
    dsimp only
    rcases Nat.lt_or_ge loan.block.size wanted with hgrows | hle
    · obtain ⟨refusal, hrefused⟩ | hgranted := h.reallocate hgrows
      · rw [hrefused]
        exact h
      · rw [hgranted]
        exact ⟨rfl, h.address, hlonger hgrows⟩
    · rw [loan.memory.reallocate_of_le loan.block.address hle]
      exact h
  | write bytes => exact ⟨h.backend, h.address, h.filled⟩

theorem Tops.after (h : loan.Tops arena start) (acts : List Act) :
    (loan.after acts).Tops arena start := by
  induction acts generalizing loan with
  | nil => exact h
  | cons first later ih => exact ih (h.act first)

theorem Tops.giveBack (h : loan.Tops arena start) :
    loan.giveBack.backend = .stack (arena.clearedFrom start) := by
  unfold Loan.giveBack Memory.deallocate
  rw [h.backend, h.address]
  exact congrArg Backend.stack (arena.deallocate_toppedBy loan.align h.filled)

end Loan

namespace Memory

/-- One use of a block: what is asked for, and what is done with it. -/
structure Round where
  layout : Layout
  acts : List Loan.Act

/-- The block is asked for, used and given back.  The answer is where it was. -/
def round (memory : Memory) (round : Round) : Except Refusal (Nat × Memory) :=
  (memory.allocate round.layout).map fun found =>
    (found.1.address,
      ((Loan.mk found.1 round.layout.align found.2).after round.acts).giveBack)

/-- One use after the other, up to the first that is refused. -/
def rounds (memory : Memory) : List Round → Except Refusal (List Nat × Memory)
  | [] => .ok ([], memory)
  | first :: later =>
    match memory.round first with
    | .error refusal => .error refusal
    | .ok (address, next) =>
      (next.rounds later).map fun found => (address :: found.1, found.2)

variable {memory : Memory} {arena : StackArena} {start : Nat} {layout : Layout}

/-- A new block is the last one of its arena. -/
theorem tops_of_allocate (hbackend : memory.backend = .stack arena) (hpos : 0 < layout.size)
    {block : Block} {granted : Memory} (hgranted : memory.allocate layout = .ok (block, granted)) :
    (Loan.mk block layout.align granted).Tops arena (arena.firstFit layout.align) := by
  unfold allocate at hgranted
  rw [hbackend] at hgranted
  dsimp only at hgranted
  obtain ⟨-, refusal, hrefused, -⟩ | ⟨-, -, hfound⟩ := arena.allocate_cases hpos
  · rw [hrefused] at hgranted
    cases hgranted
  · rw [hfound] at hgranted
    obtain ⟨rfl, rfl⟩ := Prod.mk.inj (Except.ok.inj hgranted)
    exact ⟨rfl, rfl, hpos⟩

/-- A cleared place is handed out again, without padding. -/
theorem allocate_again (hbackend : memory.backend = .stack (arena.clearedFrom start))
    (hcapacity : arena.capacity < Word.limit) {align : Nat} (halign : align.isPowerOfTwo)
    (hdvd : align ∣ arena.base + start) (hsuits : layout.Suits align (arena.capacity - start)) :
    memory.allocate layout =
      .ok (⟨arena.base + start, layout.size⟩,
        { memory with backend := .stack (arena.toppedBy start layout.size) }) := by
  have hfiner : layout.align ∣ arena.base + start :=
    Nat.dvd_trans (Word.isPowerOfTwo_dvd_of_le hsuits.valid.1 halign hsuits.coarse) hdvd
  have hfit := arena.firstFit_clearedFrom (Nat.pos_of_isPowerOfTwo hsuits.valid.1) hfiner
  have hroom : start + layout.size ≤ arena.capacity := by
    have hfilled := hsuits.filled
    have hfits := hsuits.fits
    omega
  unfold allocate
  rw [hbackend]
  dsimp only
  obtain ⟨hfull, -⟩ | ⟨-, -, hfound⟩ := (arena.clearedFrom start).allocate_cases hsuits.filled
  · have hsame : (arena.clearedFrom start).capacity = arena.capacity := rfl
    rw [hfit] at hfull
    omega
  · rw [hfound, hfit]
    rfl

/-- Each round uses the same place and leaves it as it was. -/
theorem rounds_again (hcapacity : arena.capacity < Word.limit) {align : Nat}
    (halign : align.isPowerOfTwo) (hdvd : align ∣ arena.base + start) {rounds : List Round}
    (hsuits : ∀ round ∈ rounds, round.layout.Suits align (arena.capacity - start))
    (hbackend : memory.backend = .stack (arena.clearedFrom start)) :
    ∃ final, memory.rounds rounds = .ok (rounds.map fun _ => arena.base + start, final) ∧
      final.backend = .stack (arena.clearedFrom start) := by
  induction rounds generalizing memory with
  | nil => exact ⟨memory, rfl, hbackend⟩
  | cons first later ih =>
    have hgranted := allocate_again hbackend hcapacity halign hdvd (hsuits first (by simp))
    have htops : (Loan.mk ⟨arena.base + start, first.layout.size⟩ first.layout.align
        { memory with backend := .stack (arena.toppedBy start first.layout.size) }).Tops
        arena start := ⟨rfl, rfl, (hsuits first (by simp)).filled⟩
    obtain ⟨final, hrounds, hfinal⟩ :=
      ih (fun round hmem => hsuits round (List.mem_cons_of_mem _ hmem))
        (htops.after first.acts).giveBack
    refine ⟨final, ?_, hfinal⟩
    unfold Memory.rounds Memory.round
    rw [hgranted]
    dsimp only [Except.map]
    rw [hrounds]
    rfl

/-- A block of an arena that is used and given back leaves the arena used up to its start.
From then on every request that the place suits is granted there, and any number of rounds
uses no more of the arena. -/
theorem reuse_exact (hbackend : memory.backend = .stack arena)
    (hcapacity : arena.capacity < Word.limit) (hvalid : layout.Valid) (hpos : 0 < layout.size)
    {block : Block} {granted : Memory} (hgranted : memory.allocate layout = .ok (block, granted))
    (acts : List Loan.Act) :
    let start := block.address - arena.base
    let loan := (Loan.mk block layout.align granted).after acts
    arena.base + start = block.address ∧ loan.block.address = block.address ∧
      loan.giveBack.backend = .stack { arena with used := start, last := none } ∧
      (∀ later : Layout, later.Suits layout.align (arena.capacity - start) →
        ∃ next, loan.giveBack.allocate later = .ok (⟨block.address, later.size⟩, next) ∧
          next.backend =
            .stack { arena with used := start + later.size, last := some start }) ∧
      ∀ rounds : List Round,
        (∀ round ∈ rounds, round.layout.Suits layout.align (arena.capacity - start)) →
          ∃ final, loan.giveBack.rounds rounds = .ok (rounds.map fun _ => block.address, final) ∧
            final.backend = .stack { arena with used := start, last := none } := by
  intro start loan
  have hfirst := tops_of_allocate hbackend hpos hgranted
  have haddress : block.address = arena.base + arena.firstFit layout.align := hfirst.address
  have hstart : start = arena.firstFit layout.align := by
    show block.address - arena.base = _
    omega
  have hdvd : layout.align ∣ arena.base + start := by
    rw [hstart, arena.base_add_firstFit (Nat.pos_of_isPowerOfTwo hvalid.1)]
    exact Word.dvd_roundUp _ _
  have hplace : arena.base + start = block.address := by rw [hstart, haddress]
  have hlast : loan.Tops arena start := hstart ▸ hfirst.after acts
  have hcleared := hlast.giveBack
  refine ⟨hplace, hlast.address.trans hplace, hcleared, ?_, ?_⟩
  · intro later hsuits
    rw [← hplace]
    exact ⟨_, allocate_again hcleared hcapacity hvalid.1 hdvd hsuits, rfl⟩
  · intro rounds hsuits
    rw [← hplace]
    exact rounds_again hcapacity hvalid.1 hdvd hsuits hcleared

/-- An arena at an odd address, with some of it in use. -/
def skewed : Memory := { backend := .stack ⟨1003, 100, 7, some 2⟩ }

/-- Its next block lies behind some padding. -/
def padded : Loan :=
  { block := ⟨1024, 10⟩
    align := 16
    memory := { skewed with backend := .stack ⟨1003, 100, 31, some 21⟩ } }

/-- Two of these requests ask for more than there is. -/
def firstUse : List Loan.Act :=
  [.expand 40, .expand 80, .write fun _ => 9, .reallocate 60, .reallocate 500]

def laterUses : List Round :=
  [⟨⟨79, 1⟩, []⟩, ⟨⟨8, 8⟩, [.expand 16, .reallocate 17]⟩, ⟨⟨3, 16⟩, [.reallocate 79, .expand 80]⟩]

theorem reuse_exact_skewed :
    (skewed.allocate ⟨10, 16⟩ = .ok (padded.block, padded.memory) ∧
      ∀ round ∈ laterUses, round.layout.Suits 16 (100 - 21)) ∧
    (padded.after firstUse).block = ⟨1024, 60⟩ ∧
    (padded.after firstUse).giveBack.backend = .stack ⟨1003, 100, 21, none⟩ ∧
    ∃ final, (padded.after firstUse).giveBack.rounds laterUses = .ok ([1024, 1024, 1024], final) ∧
      final.backend = .stack ⟨1003, 100, 21, none⟩ := by
  have hgranted : skewed.allocate ⟨10, 16⟩ = .ok (padded.block, padded.memory) := rfl
  have hsuits : ∀ round ∈ laterUses, round.layout.Suits 16 (100 - 21) := by
    have hchecked : ∀ round ∈ laterUses, round.layout.Valid ∧ 0 < round.layout.size ∧
        round.layout.align ≤ 16 ∧ round.layout.size ≤ 100 - 21 := by decide +kernel
    intro round hmem
    obtain ⟨hvalid, hfilled, hcoarse, hfits⟩ := hchecked round hmem
    exact ⟨hvalid, hfilled, hcoarse, hfits⟩
  have hbackend : skewed.backend = .stack ⟨1003, 100, 7, some 2⟩ := rfl
  obtain ⟨-, -, hcleared, -, hrounds⟩ :=
    reuse_exact hbackend (by decide) (by decide) (by decide) hgranted firstUse
  exact ⟨⟨hgranted, hsuits⟩, by decide +kernel, hcleared, hrounds laterUses hsuits⟩

end Memory
end Freehold
