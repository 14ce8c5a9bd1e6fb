import Freehold.Proofs.Habits
import Freehold.Proofs.Memory.Neighbours
import Freehold.Proofs.Placing.EffectAccounting

/-!
# Assets in a memory

The record of a run says what was asked of the allocator, and so what has become of the
memory.  If the blocks among some assets are lodged in a memory, and the record turns the
assets into others, then the blocks among those are lodged in the memory afterwards.  What
belongs to others is spared all the while, and objects that were not among the assets have
numbers that were not given to any object before.

Code that is accounted for in this way may rely on the memory that it runs on.
-/

namespace Freehold

/-! ## What becomes of memory and numbers -/

/-- What new blocks and new objects are drawn from. -/
structure Means where
  memory : Memory
  /-- The number of the last object. -/
  serials : Nat

def Store.means (store : Store) : Means := ⟨store.memory, store.serials⟩

namespace Entry

/-- The entry draws on nothing. -/
def isIdle : Entry → Bool
  | .event happening => !happening.isBirth
  | .log _ _ | .relocation _ _ | .call (.allocate _ (.error _)) => true
  | .call _ => false

/-- What an entry stands for, as far as memory and numbers are concerned. -/
inductive Spends : Entry → Means → Means → Prop
  | idle {entry : Entry} (h : entry.isIdle) (means : Means) : Spends entry means means
  | born (value : Int) (means : Means) :
    Spends (.event (.created (means.serials + 1) value)) means
      { means with serials := means.serials + 1 }
  | granted {layout : Layout} {block : Block} {means : Means} {memory : Memory}
      (hvalid : layout.Valid) (h : means.memory.allocate layout = .ok (block, memory)) :
    Spends (.call (.allocate layout (.ok block))) means { means with memory := memory }
  | returned (address : Nat) (layout : Layout) (means : Means) :
    Spends (.call (.deallocate address layout)) means
      { means with memory := means.memory.deallocate address layout }

/-- The number of the object that the entry is about. -/
def serial? : Entry → Option Nat
  | .event (.created serial _) | .event (.completed serial _) | .event (.moved serial)
  | .event (.dropped serial _) => some serial
  | _ => none

end Entry

/-- What a stretch of the record, its latest entry first, stands for. -/
inductive Spent (means : Means) : List Entry → Means → Prop
  | nothing : Spent means [] means
  | entry {middle after : Means} {entries : List Entry} {entry : Entry}
      (hearlier : Spent means entries middle) (h : entry.Spends middle after) :
    Spent means (entry :: entries) after

theorem Spent.append {means middle after : Means} {later entries : List Entry}
    (hlater : Spent middle later after) (hearlier : Spent means entries middle) :
    Spent means (later ++ entries) after := by
  induction hlater with
  | nothing => exact hearlier
  | entry _ h ih => exact .entry ih h

theorem Spent.idle {entries : List Entry} (h : ∀ entry ∈ entries, entry.isIdle) (means : Means) :
    Spent means entries means := by
  induction entries with
  | nil => exact .nothing
  | cons entry earlier ih =>
    exact .entry (ih fun other hmem => h other (List.mem_cons_of_mem entry hmem))
      (.idle (h entry List.mem_cons_self) means)

/-- What was put on record between two stores stands for all that has become of memory and
numbers. -/
def Store.Spends (before after : Store) : Prop :=
  ∃ entries, after.trace = entries ++ before.trace ∧ Spent before.means entries after.means

theorem Store.Spends.habit : Habit Store.Spends where
  refl _ := ⟨[], rfl, .nothing⟩
  trans h hnext := by
    obtain ⟨earlier, htrace, hspent⟩ := h
    obtain ⟨later, hlater, hspent'⟩ := hnext
    refine ⟨later ++ earlier, ?_, hspent'.append hspent⟩
    rw [hlater, htrace, List.append_assoc]

theorem Allocator.spends_allocate {layout : Layout} (hvalid : layout.Valid) :
    Effect.Leads Store.Spends (Allocator.allocate layout).run := by
  intro store
  obtain ⟨remarks, htrace, hremarks, hnone⟩ := Allocator.allocate_trace layout store
  have hanswered := Allocator.allocate_answered layout store
  have hserials : (Allocator.allocate layout store).2.serials = store.serials := by
    obtain ⟨answered, hanswered, hrun⟩ := Allocator.allocate_apply layout store
    rw [hrun]
    rcases hanswered with rfl | rfl
    · rfl
    · unfold consult
      split
      · rfl
      · split
        · rfl
        · unfold Effect.log
          split
          · rfl
          · rfl
  show Store.Spends store (Allocator.allocate layout store).2
  generalize Allocator.allocate layout store = run at *
  obtain ⟨answer, after⟩ := run
  cases answer with
  | ok block =>
    rw [hnone block rfl] at htrace
    have hafter : after.means = { store.means with memory := after.memory } := by
      unfold Store.means
      rw [show after.serials = store.serials from hserials]
    refine ⟨[.call (.allocate layout (.ok block))], htrace, ?_⟩
    rw [hafter]
    exact .entry .nothing (.granted hvalid hanswered)
  | error kind =>
    have hafter : after.means = store.means := by
      unfold Store.means
      rw [show after.serials = store.serials from hserials,
        show after.memory = store.memory from hanswered]
    refine ⟨.call (.allocate layout (.error kind)) :: remarks, htrace, ?_⟩
    rw [hafter]
    refine .entry (.idle (fun entry hmem => ?_) store.means) (.idle rfl store.means)
    have hlog := hremarks entry hmem
    cases entry with
    | log level message => rfl
    | event | call | relocation => cases hlog

theorem Allocator.spends_deallocate (address : Nat) (layout : Layout) :
    (Allocator.deallocate address layout).Leads Store.Spends :=
  fun store => ⟨[_], rfl, .entry .nothing (.returned address layout store.means)⟩

/-- The code of a leaf type draws on memory and numbers as the record says. -/
theorem Store.Spends.leafHabit {leaf : Leaf}
    (hdraws : ∀ layout, leaf.Draws layout → layout.Valid) : LeafHabit Store.Spends leaf where
  toHabit := habit
  bears datum store := by
    cases hidentity : leaf.identity with
    | silent =>
      simp only [Leaf.born, hidentity]
      exact habit.refl store
    | anonymous =>
      simp only [Leaf.born, hidentity]
      exact ⟨[_], rfl, .entry .nothing (.idle rfl store.means)⟩
    | numbered =>
      simp only [Leaf.born, hidentity]
      exact ⟨[_], rfl, .entry .nothing (.born datum.toInt store.means)⟩
  announces event hevent store := by
    refine ⟨[.event event], rfl, .entry .nothing (.idle ?_ store.means)⟩
    show (!event.isBirth) = true
    rw [hevent]
    rfl
  plans store := by
    show Store.Spends store (Attempt.hook store).2
    unfold Attempt.hook
    split
    · exact habit.refl store
    · exact ⟨[], rfl, .nothing⟩
    · exact ⟨[], rfl, .nothing⟩
  draws layout h := Allocator.spends_allocate (hdraws layout h)
  deallocates := Allocator.spends_deallocate

/-! ## Lodging -/

namespace Asset

def isBlock : Asset → Bool
  | .object _ => false
  | .block _ _ => true

/-- A block that is held under a size that fits it.  All of it could have been asked for. -/
inductive Covered : Asset → Holding → Prop
  | block {holding : Holding} {size : Nat} (hfits : holding.Fits size)
      (hvalid : (holding.layout holding.recorded).Valid) :
    Covered (.block holding.address (holding.layout size)) holding

end Asset

namespace Assets

def blocks (assets : Assets) : Multiset Asset := assets.filter fun asset => asset.isBlock

@[simp] theorem blocks_zero : blocks 0 = 0 := rfl

@[simp] theorem blocks_add (first second : Assets) :
    blocks (first + second) = first.blocks + second.blocks := Multiset.filter_add _ _ _

@[simp] theorem blocks_object (serial : Option Nat) : blocks {.object serial} = 0 := rfl

@[simp] theorem blocks_block (address : Nat) (layout : Layout) :
    blocks {.block address layout} = {.block address layout} := rfl

/-- These are the blocks among the assets, and the memory retains them beside blocks of others. -/
structure Occupies (assets : Assets) (held : Multiset Holding) (memory : Memory)
    (regions : List Span) (others : Multiset Holding) : Prop where
  covered : Multiset.Rel Asset.Covered assets.blocks held
  retains : memory.Retains regions (held + others)

def Lodged (assets : Assets) (memory : Memory) (regions : List Span)
    (others : Multiset Holding) : Prop :=
  ∃ held, assets.Occupies held memory regions others

variable {given extra : Assets} {memory : Memory} {regions : List Span}
  {others held : Multiset Holding}

@[simp] theorem lodged_zero : Lodged 0 memory regions others ↔ memory.Retains regions others := by
  constructor
  · rintro ⟨held, hcovered, hretains⟩
    obtain rfl := Multiset.rel_zero_left.1 hcovered
    rwa [zero_add] at hretains
  · intro hretains
    refine ⟨0, Multiset.Rel.zero, ?_⟩
    rwa [zero_add]

/-- A part of the assets may be left to others. -/
theorem Lodged.leave (h : (given + extra).Lodged memory regions others) :
    ∃ held, Multiset.Rel Asset.Covered extra.blocks held ∧
      given.Lodged memory regions (held + others) := by
  obtain ⟨held, hcovered, hretains⟩ := h
  rw [blocks_add, Multiset.rel_add_left] at hcovered
  obtain ⟨first, second, hfirst, hsecond, rfl⟩ := hcovered
  refine ⟨second, hsecond, first, hfirst, ?_⟩
  rwa [← add_assoc]

theorem Lodged.take (h : given.Lodged memory regions (held + others))
    (hcovered : Multiset.Rel Asset.Covered extra.blocks held) :
    (given + extra).Lodged memory regions others := by
  obtain ⟨mine, hmine, hretains⟩ := h
  refine ⟨mine + held, ?_, ?_⟩
  · rw [blocks_add]
    exact hmine.add hcovered
  · rwa [add_assoc]

/-- A block that is lodged could have been asked for under its layout. -/
theorem Lodged.valid {address : Nat} {layout : Layout}
    (h : Lodged {.block address layout} memory regions others) : layout.Valid := by
  obtain ⟨held, hcovered, -⟩ := h
  rw [blocks_block, ← Multiset.cons_zero, Multiset.rel_cons_left] at hcovered
  obtain ⟨holding, rest, hblock, -, -⟩ := hcovered
  cases hblock with
  | @block _ size hfits hvalid =>
    have hle : size ≤ holding.recorded := hfits.2
    have hroom : holding.recorded + holding.align ≤ 1 <<< 63 := hvalid.2
    refine ⟨hvalid.1, ?_⟩
    show size + holding.align ≤ 1 <<< 63
    omega

theorem Lodged.congr {other : Assets} (h : given.Lodged memory regions others)
    (hblocks : other.blocks = given.blocks) : other.Lodged memory regions others := by
  obtain ⟨held, hcovered, hretains⟩ := h
  exact ⟨held, hblocks ▸ hcovered, hretains⟩

/-- No object among the assets has a number after the last one. -/
def Numbered (assets : Assets) (last : Nat) : Prop :=
  ∀ serial, .object (some serial) ∈ assets → serial ≤ last

theorem numbered_zero (last : Nat) : Numbered 0 last := by simp [Numbered]

end Assets

namespace Trade

variable {entry : Entry} {taken got : Assets} {means means' : Means}

/-- Only calls of the allocator trade blocks. -/
theorem blocks_of_idle (h : Trade entry taken got) (hidle : entry.isIdle) :
    got.blocks = taken.blocks := by
  cases h with
  | granted | expanded | notExpanded | reallocated | notReallocated | returned | advised =>
    cases hidle
  | _ => simp

/-- One entry: what it gives is lodged if what it takes was, and all others are spared. -/
theorem lodged (h : Trade entry taken got) (hspends : entry.Spends means means')
    {regions : List Span} {others : Multiset Holding}
    (hlodged : taken.Lodged means.memory regions others) :
    got.Lodged means'.memory regions others ∧ means.memory.Spares means'.memory others := by
  cases hspends with
  | idle hidle => exact ⟨hlodged.congr (h.blocks_of_idle hidle), .refl _ _⟩
  | born value =>
    cases h with
    | born => exact ⟨hlodged.congr rfl, .refl _ _⟩
  | @granted layout block _ memory hvalid hgranted =>
    cases h with
    | @granted _ _ size hfits =>
      have hretains := Assets.lodged_zero.1 hlodged
      obtain ⟨hafter, hspares⟩ := hretains.granted hvalid hgranted
      refine ⟨⟨{.of layout block}, ?_, ?_⟩, hspares⟩
      · rw [Assets.blocks_block, ← Multiset.cons_zero, ← Multiset.cons_zero]
        exact .cons (.block hfits (hretains.valid_of_granted hvalid hgranted)) .zero
      · rwa [Multiset.singleton_add]
  | returned address layout =>
    cases h with
    | returned =>
      obtain ⟨held, hcovered, hretains⟩ := hlodged
      rw [Assets.blocks_block, ← Multiset.cons_zero, Multiset.rel_cons_left] at hcovered
      obtain ⟨holding, rest, hblock, hrest, rfl⟩ := hcovered
      obtain rfl := Multiset.rel_zero_left.1 hrest
      rw [Multiset.cons_zero, Multiset.singleton_add] at hretains
      cases hblock with
      | block hfits hvalid =>
        obtain ⟨hafter, hspares⟩ := hretains.returned hfits
        exact ⟨Assets.lodged_zero.2 hafter, hspares⟩

/-- One entry: it is about an object among the assets or about a new one, and gives no other. -/
theorem fresh (h : Trade entry taken got) (hspends : entry.Spends means means') :
    means.serials ≤ means'.serials ∧
      (∀ serial, .object (some serial) ∈ got →
        .object (some serial) ∈ taken ∨ means.serials < serial) ∧
      ∀ serial, entry.serial? = some serial →
        .object (some serial) ∈ taken ∨ means.serials < serial := by
  cases hspends with
  | idle hidle =>
    refine ⟨Nat.le_refl _, ?_, ?_⟩
    · cases h with
      | born => cases hidle
      | granted | expanded | notExpanded | reallocated | notReallocated | returned | advised =>
        cases hidle
      | _ => simp
    · cases h with
      | born => cases hidle
      | _ => simp [Entry.serial?]
  | born value =>
    refine ⟨Nat.le_succ _, ?_, ?_⟩
    · cases h with
      | born => simp
    · intro serial hserial
      cases hserial
      exact Or.inr (Nat.lt_succ_self _)
  | granted hvalid hgranted =>
    cases h with
    | granted hfits => simp [Entry.serial?]
  | returned address layout =>
    cases h with
    | returned => simp [Entry.serial?]

theorem numbered (h : Trade entry taken got) (hspends : entry.Spends means means')
    (htaken : taken.Numbered means.serials) : got.Numbered means'.serials := by
  unfold Assets.Numbered at *
  cases hspends with
  | idle hidle =>
    cases h with
    | born => cases hidle
    | granted | expanded | notExpanded | reallocated | notReallocated | returned | advised =>
      cases hidle
    | completed | moved => exact htaken
    | _ => simp
  | born value =>
    cases h with
    | born => simp
  | granted hvalid hgranted =>
    cases h with
    | granted hfits => simp
  | returned address layout =>
    cases h with
    | returned => simp

end Trade

namespace Settles

variable {given left : Assets} {entries : List Entry} {means means' : Means}

theorem lodged (h : Settles given entries left) (hspent : Spent means entries means')
    {regions : List Span} {others : Multiset Holding}
    (hlodged : given.Lodged means.memory regions others) :
    left.Lodged means'.memory regions others ∧ means.memory.Spares means'.memory others := by
  induction h generalizing means' with
  | nothing =>
    cases hspent
    exact ⟨hlodged, .refl _ _⟩
  | @entry taken got rest entries entry _ htrade ih =>
    cases hspent with
    | @entry middle _ _ _ hearlier hspends =>
      obtain ⟨hbefore, hspares⟩ := ih hearlier
      obtain ⟨held, hcovered, htaken⟩ := hbefore.leave
      obtain ⟨hgot, hsparing⟩ := htrade.lodged hspends htaken
      exact ⟨hgot.take hcovered,
        hspares.trans (hsparing.mono (Multiset.subset_of_le (Multiset.le_add_left _ _)))⟩

theorem fresh (h : Settles given entries left) (hspent : Spent means entries means') :
    means.serials ≤ means'.serials ∧
      (∀ serial, .object (some serial) ∈ left →
        .object (some serial) ∈ given ∨ means.serials < serial) ∧
      ∀ entry ∈ entries, ∀ serial, entry.serial? = some serial →
        .object (some serial) ∈ given ∨ means.serials < serial := by
  induction h generalizing means' with
  | nothing =>
    cases hspent
    exact ⟨Nat.le_refl _, fun _ hmem => Or.inl hmem, by simp⟩
  | @entry taken got rest entries entry _ htrade ih =>
    cases hspent with
    | @entry middle _ _ _ hearlier hspends =>
      obtain ⟨hmono, hheld, hnamed⟩ := ih hearlier
      obtain ⟨hmono', hgot, hname⟩ := htrade.fresh hspends
      have htaken : ∀ serial, .object (some serial) ∈ taken →
          .object (some serial) ∈ given ∨ means.serials < serial :=
        fun serial hmem => hheld serial (Multiset.mem_add.2 (Or.inl hmem))
      refine ⟨hmono.trans hmono', ?_, ?_⟩
      · intro serial hmem
        rcases Multiset.mem_add.1 hmem with hmem | hmem
        · rcases hgot serial hmem with hbefore | hnew
          · exact htaken serial hbefore
          · exact Or.inr (Nat.lt_of_le_of_lt hmono hnew)
        · exact hheld serial (Multiset.mem_add.2 (Or.inr hmem))
      · intro other hother serial hserial
        rcases List.mem_cons.1 hother with rfl | hother
        · rcases hname serial hserial with hbefore | hnew
          · exact htaken serial hbefore
          · exact Or.inr (Nat.lt_of_le_of_lt hmono hnew)
        · exact hnamed other hother serial hserial

theorem numbered (h : Settles given entries left) (hspent : Spent means entries means')
    (hgiven : given.Numbered means.serials) : left.Numbered means'.serials := by
  induction h generalizing means' with
  | nothing =>
    cases hspent
    exact hgiven
  | @entry taken got rest entries entry hsettles htrade ih =>
    cases hspent with
    | @entry middle _ _ _ hearlier hspends =>
      have hbefore := ih hearlier
      have hmono := (htrade.fresh hspends).1
      have hgot := htrade.numbered hspends fun serial hmem =>
        hbefore serial (Multiset.mem_add.2 (Or.inl hmem))
      intro serial hmem
      rcases Multiset.mem_add.1 hmem with hmine | hrest
      · exact hgot serial hmine
      · exact (hbefore serial (Multiset.mem_add.2 (Or.inr hrest))).trans hmono

end Settles
end Freehold
