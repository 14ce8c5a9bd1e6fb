import Mathlib.Logic.Function.Basic
import Freehold.Proofs.Memory.Passing

/-!
# Order in a stack arena

A stack arena remembers how much of its buffer is used and where the last block starts, and
it recognises that block by its start and its size.  The two numbers are tied to the blocks
in use: the last block is one of them, it ends where the used part ends, and all others lie
below it.  Hence a block that is not the last one is never taken for it, whatever was given
back, grown, refused or moved before.
-/

namespace Freehold

namespace StackArena

variable {arena arena' : StackArena} {held : Nat → Option Holding}

/-- Where the last block starts, and that it is one of the blocks in use and above all
others. -/
structure Topped (arena : StackArena) (held : Nat → Option Holding) (name : Nat)
    (holding : Holding) (start : Nat) : Prop where
  recalled : arena.last = some start
  live : held name = some holding
  filled : 0 < holding.recorded
  starts : holding.address = arena.base + start
  ends : start + holding.recorded = arena.used
  above : ∀ other neighbour, other ≠ name → held other = some neighbour →
    0 < neighbour.recorded → neighbour.address + neighbour.recorded ≤ holding.address

/-- The order between an arena and the blocks in use, each under its name. -/
structure Ordered (arena : StackArena) (held : Nat → Option Holding) : Prop where
  within : arena.used ≤ arena.capacity
  exact : ∀ name holding, held name = some holding → holding.requested = holding.recorded
  aligned : ∀ name holding, held name = some holding → holding.align ∣ holding.address
  inside : ∀ name holding, held name = some holding → 0 < holding.recorded →
    arena.base ≤ holding.address ∧ holding.address + holding.recorded ≤ arena.base + arena.used
  apart : ∀ name other holding neighbour, name ≠ other → held name = some holding →
    held other = some neighbour → holding.span.Apart neighbour.span
  topped : ∀ start, arena.last = some start →
    ∃ name holding, arena.Topped held name holding start

theorem Ordered.vacant (base capacity : Nat) : Ordered { base, capacity } fun _ => none where
  within := Nat.zero_le capacity
  exact _ _ hheld := nomatch hheld
  aligned _ _ hheld := nomatch hheld
  inside _ _ hheld := nomatch hheld
  apart _ _ _ _ _ hheld := nomatch hheld
  topped _ hlast := nomatch hlast

theorem Ordered.reset (_ : arena.Ordered held) : arena.reset.Ordered fun _ => none :=
  .vacant arena.base arena.capacity

/-! ## The last block -/

/-- A block that the arena takes for the last one is the last one. -/
theorem Ordered.topped_of_lastStart? (h : arena.Ordered held) {name start : Nat}
    {holding : Holding} (hheld : held name = some holding)
    (hlast : arena.lastStart? holding.address holding.recorded = some start) :
    arena.Topped held name holding start := by
  obtain ⟨haddress, hends⟩ := lastStart?_some hlast
  have hrecalled : arena.last = some start := by
    unfold lastStart? offset? at hlast
    rw [if_pos (by omega)] at hlast
    dsimp only at hlast
    split at hlast
    · rename_i hfound
      exact hfound.1.trans hlast
    · contradiction
  obtain ⟨top, crown, htop⟩ := h.topped start hrecalled
  have hcrown := htop.ends
  have hfilled := htop.filled
  by_cases hsame : name = top
  · subst hsame
    obtain rfl := Option.some.inj (hheld.symm.trans htop.live)
    exact htop
  · -- Both blocks would occupy the addresses from the same start to the end.
    have hapart := h.apart name top holding crown hsame hheld htop.live
    have hstart := htop.starts
    simp only [Span.Apart, Span.stop, Holding.span] at hapart
    omega

theorem Topped.lastStart?_eq {name start : Nat} {holding : Holding}
    (h : arena.Topped held name holding start) :
    arena.lastStart? holding.address holding.recorded = some start := by
  have hoffset : arena.offset? holding.address = some start := by
    unfold offset?
    rw [h.starts, if_pos (Nat.le_add_right _ _), Nat.add_sub_cancel_left]
  unfold lastStart?
  rw [hoffset]
  exact if_pos ⟨h.recalled, h.ends⟩

/-- A block that is not the last one is not taken for it. -/
theorem Ordered.lastStart?_eq_none (h : arena.Ordered held) {name : Nat} {holding : Holding}
    (hheld : held name = some holding)
    (hother : ∀ start, ¬ arena.Topped held name holding start) :
    arena.lastStart? holding.address holding.recorded = none := by
  cases hlast : arena.lastStart? holding.address holding.recorded with
  | none => rfl
  | some start => exact absurd (h.topped_of_lastStart? hheld hlast) (hother start)

/-! ## One block changes -/

theorem held_update {name other : Nat} {new : Option Holding} {holding : Holding}
    (h : Function.update held name new other = some holding) :
    (other = name ∧ new = some holding) ∨ (other ≠ name ∧ held other = some holding) := by
  by_cases hsame : other = name
  · subst hsame
    rw [Function.update_self] at h
    exact Or.inl ⟨rfl, h⟩
  · rw [Function.update_of_ne hsame] at h
    exact Or.inr ⟨hsame, h⟩

/-- One block is exchanged for another above a floor that no other block reaches. -/
theorem Ordered.exchange (h : arena.Ordered held) (arena' : StackArena)
    (hbase : arena'.base = arena.base) (hwithin : arena'.used ≤ arena'.capacity)
    {floor : Nat} (hfloor : floor ≤ arena'.used)
    {name : Nat} {new : Option Holding}
    (hothers : ∀ other neighbour, other ≠ name → held other = some neighbour →
      0 < neighbour.recorded → neighbour.address + neighbour.recorded ≤ arena.base + floor)
    (hexact : ∀ holding, new = some holding →
      holding.requested = holding.recorded ∧ holding.align ∣ holding.address)
    (hplaced : ∀ holding, new = some holding → 0 < holding.recorded →
      arena.base + floor ≤ holding.address ∧
        holding.address + holding.recorded ≤ arena.base + arena'.used)
    (htopped : ∀ start, arena'.last = some start →
      ∃ top crown, arena'.Topped (Function.update held name new) top crown start) :
    arena'.Ordered (Function.update held name new) := by
  have hclear : ∀ other holding neighbour, other ≠ name → new = some holding →
      held other = some neighbour → holding.span.Apart neighbour.span := by
    intro other holding neighbour hother hnew hheld
    have hbelow := hothers other neighbour hother hheld
    have habove := hplaced holding hnew
    simp only [Span.Apart, Span.stop, Holding.span]
    omega
  refine ⟨hwithin, ?_, ?_, ?_, ?_, htopped⟩
  · intro other holding hheld
    rcases held_update hheld with ⟨-, hnew⟩ | ⟨-, hold⟩
    · exact (hexact holding hnew).1
    · exact h.exact other holding hold
  · intro other holding hheld
    rcases held_update hheld with ⟨-, hnew⟩ | ⟨-, hold⟩
    · exact (hexact holding hnew).2
    · exact h.aligned other holding hold
  · intro other holding hheld hfilled
    rw [hbase]
    rcases held_update hheld with ⟨-, hnew⟩ | ⟨hother, hold⟩
    · have habove := hplaced holding hnew hfilled
      omega
    · have hinside := h.inside other holding hold hfilled
      have hbelow := hothers other holding hother hold hfilled
      omega
  · -- At most one of the two blocks is the new one.
    intro first second holding neighbour hne hfirst hsecond
    rcases held_update hfirst with ⟨rfl, hnew⟩ | ⟨hother, hold⟩
    · rcases held_update hsecond with ⟨rfl, -⟩ | ⟨hother, hold⟩
      · exact absurd rfl hne
      · exact hclear second holding neighbour hother hnew hold
    · rcases held_update hsecond with ⟨rfl, hnew⟩ | ⟨-, hold'⟩
      · exact (hclear first neighbour holding hother hnew hold).symm
      · exact h.apart first second holding neighbour hne hold hold'

/-- The new block is the last one. -/
theorem topped_update {name : Nat} {holding : Holding} {start : Nat}
    (hrecalled : arena.last = some start) (hfilled : 0 < holding.recorded)
    (hstarts : holding.address = arena.base + start) (hends : start + holding.recorded = arena.used)
    (habove : ∀ other neighbour, other ≠ name → held other = some neighbour →
      0 < neighbour.recorded → neighbour.address + neighbour.recorded ≤ holding.address) :
    arena.Topped (Function.update held name (some holding)) name holding start where
  recalled := hrecalled
  live := Function.update_self ..
  filled := hfilled
  starts := hstarts
  ends := hends
  above other neighbour hother hheld := by
    rw [Function.update_of_ne hother] at hheld
    exact habove other neighbour hother hheld

/-- The last block stays the last one when another one becomes empty or is given back. -/
theorem Topped.update {top start name : Nat} {crown : Holding}
    (h : arena.Topped held top crown start) (hother : top ≠ name) {new : Option Holding}
    (hempty : ∀ holding, new = some holding → holding.recorded = 0) :
    arena.Topped (Function.update held name new) top crown start where
  recalled := h.recalled
  live := (Function.update_of_ne hother ..).trans h.live
  filled := h.filled
  starts := h.starts
  ends := h.ends
  above other neighbour hne hheld hfilled := by
    rcases held_update hheld with ⟨-, hnew⟩ | ⟨-, hold⟩
    · have hzero := hempty neighbour hnew
      omega
    · exact h.above other neighbour hne hold hfilled

/-- A block that is not the last one is given back, or one without bytes is handed out:
the arena stays as it is. -/
theorem Ordered.stay (h : arena.Ordered held) {name : Nat} {new : Option Holding}
    (hother : ∀ holding start, ¬ arena.Topped held name holding start)
    (hempty : ∀ holding, new = some holding → holding.recorded = 0)
    (hexact : ∀ holding, new = some holding →
      holding.requested = holding.recorded ∧ holding.align ∣ holding.address) :
    arena.Ordered (Function.update held name new) := by
  refine h.exchange arena rfl h.within (Nat.le_refl _) ?_ hexact ?_ ?_
  · intro other neighbour _ hheld hfilled
    exact (h.inside other neighbour hheld hfilled).2
  · intro holding hnew hfilled
    have hzero := hempty holding hnew
    omega
  · intro start hrecalled
    obtain ⟨top, crown, htop⟩ := h.topped start hrecalled
    refine ⟨top, crown, htop.update ?_ hempty⟩
    rintro rfl
    exact hother crown start htop

/-! ## What the arena does -/

/-- Where the first aligned address at or above the used part lies. -/
def firstFit (arena : StackArena) (align : Nat) : Nat :=
  arena.used + padding (arena.base + arena.used) align

theorem base_add_firstFit (arena : StackArena) {align : Nat} (hpos : 0 < align) :
    arena.base + arena.firstFit align = Word.roundUp (arena.base + arena.used) align := by
  rw [firstFit, ← Nat.add_assoc]
  exact address_of_padding _ hpos

/-- A request for bytes is refused exactly when its end at the first fit lies beyond the
buffer or cannot be represented. -/
theorem allocate_cases (arena : StackArena) {layout : Layout} (hpos : 0 < layout.size) :
    ((arena.capacity < arena.firstFit layout.align + layout.size ∨
        Word.limit ≤ arena.firstFit layout.align + layout.size) ∧
      ∃ refusal, arena.allocate layout = .error refusal ∧ refusal.kind = .allocationFailed) ∨
    (arena.firstFit layout.align + layout.size ≤ arena.capacity ∧
      arena.firstFit layout.align + layout.size < Word.limit ∧
      arena.allocate layout =
        .ok (⟨arena.base + arena.firstFit layout.align, layout.size⟩,
          { arena with
            used := arena.firstFit layout.align + layout.size
            last := some (arena.firstFit layout.align) })) := by
  unfold allocate
  rw [if_neg (Nat.ne_of_gt hpos)]
  cases hstart : Word.add? arena.used (padding (arena.base + arena.used) layout.align) with
  | none =>
    have hlarge : Word.limit ≤ arena.firstFit layout.align := Word.fit?_eq_none_iff.1 hstart
    exact Or.inl ⟨Or.inr (Nat.le_trans hlarge (Nat.le_add_right _ _)), _, rfl, rfl⟩
  | some start =>
    obtain ⟨-, hfit⟩ := Word.fit?_eq_some_iff.1 hstart
    obtain rfl : arena.firstFit layout.align = start := hfit
    dsimp only
    cases hstop : Word.add? (arena.firstFit layout.align) layout.size with
    | none => exact Or.inl ⟨Or.inr (Word.fit?_eq_none_iff.1 hstop), _, rfl, rfl⟩
    | some stop =>
      obtain ⟨hsmall, rfl⟩ := Word.fit?_eq_some_iff.1 hstop
      dsimp only
      split
      · rename_i hlarge
        exact Or.inl ⟨Or.inl hlarge, _, rfl, rfl⟩
      · rename_i hroom
        exact Or.inr ⟨Nat.le_of_not_lt hroom, hsmall, rfl⟩

theorem expand_of_lastStart? {address start wanted : Nat} {layout : Layout}
    (hlast : arena.lastStart? address layout.size = some start) (hgrows : layout.size < wanted) :
    arena.expand address layout wanted =
      if arena.capacity < start + wanted ∨ Word.limit ≤ start + wanted then
        .error { kind := .inPlaceGrowthFailed }
      else .ok (wanted, { arena with used := start + wanted }) := by
  unfold expand
  rw [if_neg (Nat.not_le_of_lt hgrows), hlast]
  dsimp only
  cases hstop : Word.add? start wanted with
  | none =>
    rw [if_pos (Or.inr (Word.fit?_eq_none_iff.1 hstop))]
  | some stop =>
    obtain ⟨hsmall, rfl⟩ := Word.fit?_eq_some_iff.1 hstop
    have hfits : ¬ Word.limit ≤ start + wanted := Nat.not_le_of_lt hsmall
    simp only [hfits, or_false]

theorem expand_of_lastStart?_none {address wanted : Nat} {layout : Layout}
    (hlast : arena.lastStart? address layout.size = none) (hgrows : layout.size < wanted) :
    arena.expand address layout wanted = .error { kind := .inPlaceGrowthFailed } := by
  unfold expand
  rw [if_neg (Nat.not_le_of_lt hgrows), hlast]

theorem deallocate_of_lastStart? {address start : Nat} {layout : Layout} (hpos : 0 < layout.size)
    (hlast : arena.lastStart? address layout.size = some start) :
    arena.deallocate address layout = { arena with used := start, last := none } := by
  unfold deallocate
  rw [if_neg (Nat.ne_of_gt hpos), hlast]

theorem deallocate_of_lastStart?_none {address : Nat} {layout : Layout}
    (hlast : arena.lastStart? address layout.size = none) :
    arena.deallocate address layout = arena := by
  unfold deallocate
  rw [hlast]
  exact ite_self _

/-! ## One step -/

/-- A step keeps the buffer and leads from order to order. -/
structure Keeps (arena arena' : StackArena) (held' : Nat → Option Holding) : Prop where
  base : arena'.base = arena.base
  capacity : arena'.capacity = arena.capacity
  ordered : arena'.Ordered held'

/-- A block that need not grow is left as it is. -/
theorem Ordered.keep (h : arena.Ordered held) {name : Nat} {holding : Holding}
    (hheld : held name = some holding) {wanted : Nat} (hle : wanted ≤ holding.recorded) :
    arena.Keeps arena (Function.update held name
      (some (holding.resized wanted ⟨holding.address, holding.recorded⟩))) := by
  have hexact := h.exact name holding hheld
  have hsame : holding.resized wanted ⟨holding.address, holding.recorded⟩ = holding := by
    unfold Holding.resized
    rw [Nat.max_self, Nat.max_eq_left (hexact ▸ hle)]
  rw [hsame, ← hheld, Function.update_eq_self]
  exact ⟨rfl, rfl, h⟩

/-- A new block lies above all others, the one that it may replace included. -/
theorem Ordered.allocate (h : arena.Ordered held) {layout : Layout} (hvalid : layout.Valid)
    {block : Block} (hfound : arena.allocate layout = .ok (block, arena')) {name : Nat}
    (hfree : held name = none ∨ 0 < layout.size) :
    arena.Keeps arena' (Function.update held name (some (.of layout block))) := by
  have hsound : block.size = layout.size ∧ layout.align ∣ block.address :=
    allocate_aligned hvalid hfound
  have hexact : ∀ holding, some (Holding.of layout block) = some holding →
      holding.requested = holding.recorded ∧ holding.align ∣ holding.address := by
    rintro _ ⟨⟩
    exact ⟨hsound.1.symm, hsound.2⟩
  rcases Nat.eq_zero_or_pos layout.size with hzero | hpos
  · have hnone : held name = none := hfree.resolve_right (by omega)
    obtain ⟨-, -, rfl⟩ | ⟨hpos, -⟩ := allocate_ok hfound
    · refine ⟨rfl, rfl, h.stay ?_ ?_ hexact⟩
      · intro holding start htop
        cases hnone.symm.trans htop.live
      · rintro _ ⟨⟩
        exact hsound.1.trans hzero
    · omega
  · obtain ⟨-, refusal, hrefused, -⟩ | ⟨hroom, -, hgranted⟩ := arena.allocate_cases hpos
    · cases hrefused.symm.trans hfound
    · obtain ⟨rfl, rfl⟩ := Prod.mk.inj (Except.ok.inj (hgranted.symm.trans hfound))
      have hbelow : arena.used ≤ arena.firstFit layout.align := Nat.le_add_right _ _
      have hothers : ∀ other neighbour, other ≠ name → held other = some neighbour →
          0 < neighbour.recorded →
          neighbour.address + neighbour.recorded ≤ arena.base + arena.used :=
        fun other neighbour _ hheld hfilled => (h.inside other neighbour hheld hfilled).2
      refine ⟨rfl, rfl, h.exchange _ ?_ hroom ?_ hothers hexact ?_ ?_⟩
      · rfl
      · show arena.used ≤ arena.firstFit layout.align + layout.size
        omega
      · rintro _ ⟨⟩ -
        simp only [Holding.of]
        omega
      · rintro _ ⟨⟩
        refine ⟨name, _, topped_update rfl hpos rfl rfl ?_⟩
        intro other neighbour hother hheld hfilled
        have hended := hothers other neighbour hother hheld hfilled
        simp only [Holding.of]
        omega

theorem Ordered.expand (h : arena.Ordered held) {name : Nat} {holding : Holding}
    (hheld : held name = some holding) {wanted answer : Nat}
    (hgrown : arena.expand holding.address (holding.layout holding.recorded) wanted =
      .ok (answer, arena')) :
    arena.Keeps arena' (Function.update held name
      (some (holding.resized wanted ⟨holding.address, answer⟩))) := by
  have hexact := h.exact name holding hheld
  rcases Nat.lt_or_ge holding.recorded wanted with hlt | hle
  · cases hlast : arena.lastStart? holding.address holding.recorded with
    | none =>
      have hrefused : arena.expand holding.address (holding.layout holding.recorded) wanted =
          .error { kind := .inPlaceGrowthFailed } := expand_of_lastStart?_none hlast hlt
      cases hrefused.symm.trans hgrown
    | some start =>
      rw [expand_of_lastStart? hlast hlt] at hgrown
      split at hgrown
      · cases hgrown
      rename_i hroom
      obtain ⟨rfl, rfl⟩ := Prod.mk.inj (Except.ok.inj hgrown)
      have htop := h.topped_of_lastStart? hheld hlast
      have hstarts := htop.starts
      have hresized : holding.resized wanted ⟨holding.address, wanted⟩ =
          { holding with requested := wanted, recorded := wanted } := by
        unfold Holding.resized
        dsimp only
        rw [Nat.max_eq_right (by omega), Nat.max_eq_right (by omega)]
      rw [hresized]
      have hothers : ∀ other neighbour, other ≠ name → held other = some neighbour →
          0 < neighbour.recorded → neighbour.address + neighbour.recorded ≤ arena.base + start := by
        intro other neighbour hother hneighbour hfilled
        rw [← hstarts]
        exact htop.above other neighbour hother hneighbour hfilled
      refine ⟨rfl, rfl, h.exchange _ ?_ ?_ (Nat.le_add_right start wanted) hothers ?_ ?_ ?_⟩
      · rfl
      · show start + wanted ≤ arena.capacity
        omega
      · rintro _ ⟨⟩
        exact ⟨rfl, h.aligned name holding hheld⟩
      · rintro _ ⟨⟩ -
        dsimp only
        omega
      · rintro start' hrecalled
        obtain rfl := Option.some.inj (htop.recalled.symm.trans hrecalled)
        have hfilled : 0 < wanted := Nat.lt_of_le_of_lt (Nat.zero_le _) hlt
        exact ⟨name, _, topped_update hrecalled hfilled hstarts rfl htop.above⟩
  · have hsame := expand_ok hgrown
    obtain ⟨-, rfl, rfl⟩ | ⟨hlt, -⟩ := hsame
    · exact h.keep hheld hle
    · exact absurd hlt (Nat.not_lt_of_le hle)

theorem Ordered.deallocate (h : arena.Ordered held) {name : Nat} {holding : Holding}
    (hheld : held name = some holding) :
    arena.Keeps (arena.deallocate holding.address (holding.layout holding.recorded))
      (Function.update held name none) := by
  have hnone : ∀ holding, (none : Option Holding) = some holding →
      holding.requested = holding.recorded ∧ holding.align ∣ holding.address := nofun
  cases hlast : arena.lastStart? holding.address holding.recorded with
  | none =>
    rw [deallocate_of_lastStart?_none hlast]
    refine ⟨rfl, rfl, h.stay ?_ nofun hnone⟩
    intro crown start htop
    obtain rfl := Option.some.inj (htop.live.symm.trans hheld)
    cases htop.lastStart?_eq.symm.trans hlast
  | some start =>
    have htop := h.topped_of_lastStart? hheld hlast
    rw [deallocate_of_lastStart? htop.filled hlast]
    refine ⟨rfl, rfl, h.exchange _ ?_ ?_ (Nat.le_refl start) ?_ hnone (by simp) (by simp)⟩
    · rfl
    · have hends := htop.ends
      have hwithin := h.within
      show start ≤ arena.capacity
      omega
    · intro other neighbour hother hneighbour hfilled
      rw [← htop.starts]
      exact htop.above other neighbour hother hneighbour hfilled

/-- A block that made way for a new one is not the last one, so the arena does not take it
back. -/
theorem Ordered.deallocate_replaced (h : arena.Ordered held) {layout : Layout}
    (hpos : 0 < layout.size) {block : Block}
    (hfound : arena.allocate layout = .ok (block, arena')) {name : Nat} {holding : Holding}
    (hheld : held name = some holding) :
    arena'.deallocate holding.address (holding.layout holding.recorded) = arena' := by
  rcases Nat.eq_zero_or_pos holding.recorded with hzero | hfilled
  · unfold StackArena.deallocate
    exact if_pos hzero
  · refine deallocate_of_lastStart?_none ?_
    cases hlast : arena'.lastStart? holding.address (holding.layout holding.recorded).size with
    | none => rfl
    | some start =>
      obtain ⟨haddress, hends⟩ := lastStart?_some hlast
      obtain ⟨hzero, -⟩ | ⟨-, first, rfl, -, rfl⟩ := allocate_ok hfound
      · omega
      · have hinside := h.inside name holding hheld hfilled
        have hsize : (holding.layout holding.recorded).size = holding.recorded := rfl
        dsimp only at haddress hends
        omega

end StackArena

end Freehold
