import Mathlib.Order.Bounds.Basic
import Freehold.Proofs.Memory.Arena
import Freehold.Proofs.Memory.Privacy

/-!
# Runs of a stack arena

A user names its blocks, has them resized, gives them back and resets the arena, in any
sequence.  The arena stays in order with the blocks in use throughout.  What it answers to
the next request then follows: only the last block grows in place or makes room when it is
given back, and a new block is refused exactly when it does not fit above the used part.
-/

namespace Freehold

namespace BlockTable

variable {table : BlockTable} {arena : StackArena} {base capacity : Nat}

/-- The blocks in use, each under its name. -/
def held (table : BlockTable) (name : Nat) : Option Holding :=
  (table.blocks name).map TrackedBlock.holding

theorem held_eq {name : Nat} {tracked : TrackedBlock} (h : table.blocks name = some tracked) :
    table.held name = some tracked.holding := by
  unfold held
  rw [h]
  rfl

theorem put_held (table : BlockTable) (memory : Memory) (name : Nat)
    (tracked : Option TrackedBlock) :
    (table.put memory name tracked).held =
      Function.update table.held name (tracked.map TrackedBlock.holding) := by
  funext other
  by_cases hsame : other = name
  · subst hsame
    rw [Function.update_self]
    show Option.map _ (if other = other then tracked else _) = _
    rw [if_pos rfl]
  · rw [Function.update_of_ne hsame]
    show Option.map _ (if other = name then tracked else _) = _
    rw [if_neg hsame]
    rfl

/-- The memory is an arena over the given buffer, in order with the blocks in use. -/
structure Rests (table : BlockTable) (base capacity : Nat) (arena : StackArena) : Prop where
  backend : table.memory.backend = .stack arena
  base_eq : arena.base = base
  capacity_eq : arena.capacity = capacity
  ordered : arena.Ordered table.held

theorem Rests.put (h : table.Rests base capacity arena) {memory : Memory} {name : Nat}
    {tracked : Option TrackedBlock} {arena' : StackArena}
    (hbackend : memory.backend = .stack arena')
    (hkeeps : arena.Keeps arena'
      (Function.update table.held name (tracked.map TrackedBlock.holding))) :
    (table.put memory name tracked).Rests base capacity arena' where
  backend := hbackend
  base_eq := hkeeps.base.trans h.base_eq
  capacity_eq := hkeeps.capacity.trans h.capacity_eq
  ordered := by
    rw [put_held]
    exact hkeeps.ordered

theorem Rests.received (h : table.Rests base capacity arena) {name : Nat} {layout : Layout}
    (hvalid : layout.Valid) (hfree : table.blocks name = none)
    (known : Block → Nat → Option UInt8) {answer : Except Refusal (Block × Memory)}
    (hanswer : ∀ block memory, answer = .ok (block, memory) →
      ∃ plain, table.memory.allocate layout = .ok (block, plain) ∧
        memory.backend = plain.backend) :
    ∃ arena', (table.received name layout known answer).Rests base capacity arena' := by
  cases hgranted : answer with
  | error refusal => exact ⟨arena, h⟩
  | ok found =>
    obtain ⟨plain, hfound, hbackend⟩ := hanswer found.1 found.2 hgranted
    have hcases := Memory.allocate_ok hfound
    rw [h.backend] at hcases
    obtain ⟨arena', hallocated, rfl⟩ := hcases
    have hnone : table.held name = none := by
      unfold held
      rw [hfree]
      rfl
    exact ⟨arena', h.put hbackend (h.ordered.allocate hvalid hallocated (Or.inl hnone))⟩

/-- A block of another size: it stayed, it grew in place, or it made way for a new one. -/
theorem Rests.reallocated (h : table.Rests base capacity arena) {name : Nat}
    {tracked : TrackedBlock}
    (hheld : table.blocks name = some tracked) {wanted : Nat} {block : Block} {memory : Memory}
    (hanswer : table.memory.reallocate tracked.holding.address
      (tracked.holding.layout tracked.holding.recorded) wanted = .ok (block, memory)) :
    ∃ arena', memory.backend = .stack arena' ∧
      arena.Keeps arena'
        (Function.update table.held name (some (tracked.holding.resized wanted block))) := by
  have hnamed := held_eq hheld
  have hexact := h.ordered.exact name tracked.holding hnamed
  have hcases := Memory.reallocate_ok hanswer
  rw [h.backend] at hcases
  rcases Memory.reallocateByCopy_ok hcases with
    ⟨hle, rfl, rfl⟩ | ⟨-, haddress, hgrown⟩ | ⟨hlt, hvalid, moved, hfound, rfl⟩
  · exact ⟨arena, h.backend, h.ordered.keep hnamed hle⟩
  · obtain ⟨address, answer⟩ := block
    obtain rfl : address = tracked.holding.address := haddress
    have hgrowth := Memory.expand_ok hgrown
    rw [h.backend] at hgrowth
    obtain ⟨arena', hfound, rfl⟩ := hgrowth
    exact ⟨arena', rfl, h.ordered.expand hnamed hfound⟩
  · have hmoved := Memory.allocate_ok hfound
    rw [h.backend] at hmoved
    obtain ⟨arena', hallocated, rfl⟩ := hmoved
    have hpos : 0 < wanted := Nat.lt_of_le_of_lt (Nat.zero_le _) hlt
    have hsize : block.size = wanted := (StackArena.allocate_aligned hvalid hallocated).1
    have hresized : tracked.holding.resized wanted block =
        .of ⟨wanted, tracked.holding.align⟩ block := by
      have hgrows : tracked.holding.recorded < wanted := hlt
      unfold Holding.resized Holding.of
      rw [Nat.max_eq_right (by omega), Nat.max_eq_right (by omega)]
    rw [hresized]
    refine ⟨arena', ?_, h.ordered.allocate hvalid hallocated (Or.inr hpos)⟩
    exact congrArg Backend.stack (h.ordered.deallocate_replaced hpos hallocated hnamed)

theorem Rests.resized (h : table.Rests base capacity arena) {name : Nat} {tracked : TrackedBlock}
    {wanted : Nat} (kept : Nat) {answer : Except Refusal (Block × Memory)}
    (hanswer : ∀ block memory, answer = .ok (block, memory) →
      ∃ arena', memory.backend = .stack arena' ∧ arena.Keeps arena'
        (Function.update table.held name (some (tracked.holding.resized wanted block)))) :
    ∃ arena', (table.resized name tracked wanted kept answer).Rests base capacity arena' := by
  cases answer with
  | error refusal => exact ⟨arena, h⟩
  | ok found =>
    obtain ⟨arena', hbackend, hkeeps⟩ := hanswer found.1 found.2 rfl
    exact ⟨arena', h.put hbackend hkeeps⟩

theorem Rests.apply (h : table.Rests base capacity arena) {name : Nat} {tracked : TrackedBlock}
    (hheld : table.blocks name = some tracked) {use : Use} (hfits : use.Fits tracked.holding) :
    ∃ arena', (table.apply name tracked use).Rests base capacity arena' := by
  have hnamed := held_eq hheld
  have hexact := h.ordered.exact name tracked.holding hnamed
  -- The arena records the exact size of a block, so no other size fits it.
  have hfull : ∀ size, tracked.holding.Fits size → size = tracked.holding.recorded :=
    fun size hfits => Nat.le_antisymm hfits.2 (hexact ▸ hfits.1)
  cases use with
  | write offset byte =>
    refine ⟨arena, h.put h.backend ?_⟩
    show arena.Keeps arena (Function.update table.held name (some tracked.holding))
    rw [← hnamed, Function.update_eq_self]
    exact ⟨rfl, rfl, h.ordered⟩
  | expand size wanted =>
    obtain rfl := hfull size hfits
    refine h.resized _ fun block memory hanswer => ?_
    obtain ⟨⟨answer, grown⟩, hgrown, heq⟩ := Except.of_map_ok hanswer
    obtain ⟨rfl, rfl⟩ := Prod.mk.inj heq
    have hgrowth := Memory.expand_ok hgrown
    rw [h.backend] at hgrowth
    obtain ⟨arena', hfound, rfl⟩ := hgrowth
    exact ⟨arena', rfl, h.ordered.expand hnamed hfound⟩
  | reallocate size wanted =>
    obtain rfl := hfull size hfits
    exact h.resized _ fun block memory hanswer => h.reallocated hheld hanswer
  | deallocate size =>
    obtain rfl := hfull size hfits
    refine ⟨_, h.put ?_ (h.ordered.deallocate hnamed)⟩
    unfold Memory.deallocate
    rw [h.backend]

/-- One deed keeps the arena in order with the blocks in use. -/
theorem Rests.perform (h : table.Rests base capacity arena) {deed : Deed}
    (hallows : table.Allows deed) :
    ∃ arena', (table.perform deed).Rests base capacity arena' := by
  cases deed with
  | allocate name layout =>
    exact h.received hallows.2 hallows.1 _ fun block memory hfound => ⟨memory, hfound, rfl⟩
  | allocateZeroed name layout =>
    refine h.received hallows.2 hallows.1 _ fun block memory hfound => ?_
    obtain ⟨plain, hplain, rfl⟩ := Memory.allocateZeroed_ok hfound
    exact ⟨plain, hplain, rfl⟩
  | use name use =>
    obtain ⟨tracked, hheld, hfits⟩ := hallows
    rw [perform_use hheld]
    exact h.apply hheld hfits
  | reset =>
    rw [perform_reset h.backend]
    exact ⟨arena.reset, rfl, h.base_eq, h.capacity_eq, h.ordered.reset⟩

theorem Rests.run (h : table.Rests base capacity arena) {deeds : List Deed}
    (hlawful : table.Lawful deeds) :
    ∃ arena', (table.run deeds).Rests base capacity arena' := by
  induction deeds generalizing table arena with
  | nil => exact ⟨arena, h⟩
  | cons deed later ih =>
    obtain ⟨arena', hrests⟩ := h.perform hlawful.1
    exact ih hrests hlawful.2

/-- The answer to a request for a block that belongs at an address. -/
def Answers (table : BlockTable) (base capacity : Nat) (layout : Layout) (address : Nat) : Prop :=
  ((capacity < address - base + layout.size ∨ Word.limit ≤ address - base + layout.size) ∧
    ∃ refusal, refusal.kind = .allocationFailed ∧
      table.memory.allocate layout = .error refusal ∧
      table.memory.allocateZeroed layout = .error refusal ∧
      ∀ name, table.perform (.allocate name layout) = table ∧
        table.perform (.allocateZeroed name layout) = table) ∨
  (address - base + layout.size ≤ capacity ∧ address - base + layout.size < Word.limit ∧
    (∃ memory, table.memory.allocate layout = .ok (⟨address, layout.size⟩, memory)) ∧
    ∃ memory, table.memory.allocateZeroed layout = .ok (⟨address, layout.size⟩, memory))

/-- What an arena over the given buffer answers, and what it does not do. -/
structure Arranged (table : BlockTable) (base capacity : Nat) (arena : StackArena) : Prop where
  rests : table.Rests base capacity arena
  balanced : arena.used + arena.remaining = capacity
  /-- The last block is given back and makes room for the next one. -/
  returnsLast : ∀ name holding start, arena.Topped table.held name holding start →
    table.memory.deallocate holding.address (holding.layout holding.recorded) =
      { table.memory with backend := .stack { arena with used := start, last := none } }
  /-- The last block grows in place as far as the buffer reaches. -/
  growsLast : ∀ name holding start wanted, arena.Topped table.held name holding start →
    holding.recorded < wanted →
    table.memory.expand holding.address (holding.layout holding.recorded) wanted =
      if capacity < start + wanted ∨ Word.limit ≤ start + wanted then
        .error { kind := .inPlaceGrowthFailed }
      else
        .ok (wanted,
          { table.memory with backend := .stack { arena with used := start + wanted } })
  /-- Any other block can neither be given back nor grow. -/
  keepsOthers : ∀ name holding, table.held name = some holding → 0 < holding.recorded →
    (∀ start, ¬ arena.Topped table.held name holding start) →
    table.memory.deallocate holding.address (holding.layout holding.recorded) =
        table.memory ∧
      ∀ wanted, holding.recorded < wanted →
        table.memory.expand holding.address (holding.layout holding.recorded) wanted =
          .error { kind := .inPlaceGrowthFailed }
  /-- A new block goes to the first aligned address at or above the used part, and it is
  refused exactly if it would not end within the buffer or within the range of a word. -/
  places : ∀ layout address, layout.Valid → 0 < layout.size →
    IsLeast {above | base + arena.used ≤ above ∧ layout.align ∣ above} address →
    table.Answers base capacity layout address

theorem Rests.expand_eq (h : table.Rests base capacity arena) (address : Nat) (layout : Layout)
    (wanted : Nat) :
    table.memory.expand address layout wanted =
      (arena.expand address layout wanted).map fun found =>
        (found.1, { table.memory with backend := .stack found.2 }) := by
  unfold Memory.expand
  rw [h.backend]

theorem Rests.allocate_eq (h : table.Rests base capacity arena) (layout : Layout) :
    table.memory.allocate layout =
      (arena.allocate layout).map fun found =>
        (found.1, { table.memory with backend := .stack found.2 }) := by
  unfold Memory.allocate
  rw [h.backend]

theorem Rests.allocateZeroed_eq (h : table.Rests base capacity arena) (layout : Layout) :
    table.memory.allocateZeroed layout = table.memory.allocateThenClear layout := by
  unfold Memory.allocateZeroed
  rw [h.backend]

theorem Rests.deallocate_eq (h : table.Rests base capacity arena) (address : Nat)
    (layout : Layout) :
    table.memory.deallocate address layout =
      { table.memory with backend := .stack (arena.deallocate address layout) } := by
  unfold Memory.deallocate
  rw [h.backend]

theorem Rests.places (h : table.Rests base capacity arena) {layout : Layout} {address : Nat}
    (hvalid : layout.Valid) (hpos : 0 < layout.size)
    (hleast : IsLeast {above | base + arena.used ≤ above ∧ layout.align ∣ above} address) :
    table.Answers base capacity layout address := by
  have halign := Nat.pos_of_isPowerOfTwo hvalid.1
  have hround := arena.base_add_firstFit halign
  have hfirst : arena.firstFit layout.align = address - base := by
    have hfound : arena.base + arena.firstFit layout.align = address := by
      rw [hround]
      refine (hleast.unique ⟨⟨?_, Word.dvd_roundUp _ _⟩, ?_⟩).symm
      · rw [← h.base_eq]
        exact Word.le_roundUp _ halign
      · rintro above ⟨hle, hdvd⟩
        rw [← h.base_eq] at hle
        exact Word.roundUp_le hdvd hle
    have hbase := h.base_eq
    omega
  have hplace : arena.base + arena.firstFit layout.align = address := by
    have hlow := hleast.1.1
    have hbase := h.base_eq
    omega
  have hcases := arena.allocate_cases hpos
  rw [hplace, hfirst, h.capacity_eq] at hcases
  have hzeroed := h.allocateZeroed_eq layout
  unfold Memory.allocateThenClear at hzeroed
  rw [h.allocate_eq] at hzeroed
  rcases hcases with ⟨hlarge, refusal, hrefused, hkind⟩ | ⟨hroom, hsmall, hgranted⟩
  · have hplain : table.memory.allocate layout = .error refusal := by
      rw [h.allocate_eq, hrefused]
      rfl
    have hclear : table.memory.allocateZeroed layout = .error refusal := by
      rw [hzeroed, hrefused]
      rfl
    refine Or.inl ⟨hlarge, refusal, hkind, hplain, hclear, fun name => ⟨?_, ?_⟩⟩
    all_goals
      unfold BlockTable.perform
      dsimp only
    · rw [hplain]
      rfl
    · rw [hclear]
      rfl
  · have hplain := h.allocate_eq layout
    rw [hgranted] at hplain hzeroed
    exact Or.inr ⟨hroom, hsmall, ⟨_, hplain⟩, ⟨_, hzeroed⟩⟩

theorem Rests.arranged (h : table.Rests base capacity arena) :
    table.Arranged base capacity arena where
  rests := h
  balanced := by
    rw [← h.capacity_eq]
    exact Nat.add_sub_cancel' h.ordered.within
  returnsLast name holding start htop := by
    rw [h.deallocate_eq, StackArena.deallocate_of_lastStart? htop.filled htop.lastStart?_eq]
  growsLast name holding start wanted htop hgrows := by
    rw [h.expand_eq, StackArena.expand_of_lastStart? htop.lastStart?_eq hgrows, h.capacity_eq]
    split
    all_goals rfl
  keepsOthers name holding hheld _ hother := by
    have hnone := h.ordered.lastStart?_eq_none hheld hother
    refine ⟨?_, fun wanted hgrows => ?_⟩
    · rw [h.deallocate_eq, StackArena.deallocate_of_lastStart?_none hnone, ← h.backend]
    · rw [h.expand_eq, StackArena.expand_of_lastStart?_none hnone hgrows]
      rfl
  places _ _ hvalid hpos hleast := h.places hvalid hpos hleast

/-- An arena over any buffer at any address is in order with the blocks in use after every
lawful run. -/
theorem arena_arranged {base capacity : Nat} {bytes : Bytes} {deeds : List Deed}
    (hlawful : (BlockTable.mk ⟨.stack { base, capacity }, bytes⟩ fun _ => none).Lawful deeds) :
    ∃ arena, ((BlockTable.mk ⟨.stack { base, capacity }, bytes⟩ fun _ => none).run deeds).Arranged
      base capacity arena := by
  have hstart : (BlockTable.mk ⟨.stack { base, capacity }, bytes⟩ fun _ => none).Rests base capacity
      { base, capacity } := ⟨rfl, rfl, rfl, .vacant base capacity⟩
  obtain ⟨arena, hrests⟩ := hstart.run hlawful
  exact ⟨arena, hrests.arranged⟩

/-- A block is passed by and moves above its neighbour, which can then not be given back;
a start is used again, a request is refused, and at last the arena is reset. -/
def passingBy : List Deed :=
  [.allocate 0 ⟨10, 8⟩, .allocate 1 ⟨3, 4⟩, .use 0 (.expand 10 20), .use 1 (.expand 3 7),
    .use 0 (.reallocate 10 30), .use 1 (.deallocate 7), .use 0 (.reallocate 30 40),
    .use 0 (.deallocate 40), .allocate 1 ⟨5, 16⟩, .allocateZeroed 2 ⟨80, 1⟩,
    .allocate 2 ⟨9, 2⟩, .use 2 (.write 8 77), .use 1 (.expand 5 6), .reset,
    .allocate 0 ⟨16, 32⟩, .allocate 1 ⟨8, 1⟩]

theorem arena_arranged_passingBy :
    (BlockTable.mk ⟨.stack { base := 1003, capacity := 100 }, fun _ => 0⟩ fun _ => none).Lawful
        passingBy ∧
      ∃ arena, ((BlockTable.mk ⟨.stack { base := 1003, capacity := 100 }, fun _ => 0⟩
        fun _ => none).run passingBy).Arranged 1003 100 arena :=
  have hlawful : (BlockTable.mk ⟨.stack { base := 1003, capacity := 100 }, fun _ => 0⟩
      fun _ => none).Lawful passingBy := by decide +kernel
  ⟨hlawful, arena_arranged hlawful⟩

end BlockTable
end Freehold
