import Mathlib.Order.BooleanAlgebra.Set
import Freehold.Proofs.Memory.Resizing
import Freehold.Proofs.Vec.AnchoredRows
import Freehold.Proofs.Vec.Backing

/-!
# Vacant slots

A relocation is safe when the element is there and its new slot is free.  The slots that are
live are followed through a whole operation, one relocation after the other: opening a gap
starts at the free end of the vector, closing one starts at the gap, and growth fills a block
that nobody else holds.  What is live in the end are the slots below the new length.
-/

namespace Freehold

/-- The type with all its values moved by their bytes, or one at a time. -/
def Element.withBitwise {α : Type} (element : Element α) (bitwise : Bool) : Element α :=
  { element with bitwise := bitwise }

/-! ## Passages -/

/-- The live spots after an element has left one of them for another spot. -/
def Spot.passed (live : Set Spot) (source target : Spot) : Set Spot :=
  {spot | spot = target ∨ spot ∈ live ∧ spot ≠ source}

/-- One after the other, elements leave spots where they live for free spots of the room. -/
inductive Passage (room : Set Spot) : Set Spot → List (Spot × Spot) → Set Spot → Prop
  | done (live : Set Spot) : Passage room live [] live
  | move {live after : Set Spot} {source target : Spot} {later : List (Spot × Spot)}
    (hlive : source ∈ live) (hother : target ≠ source) (hroom : target ∈ room)
    (hfree : target ∉ live) (hrest : Passage room (Spot.passed live source target) later after) :
    Passage room live ((source, target) :: later) after

namespace Passage

variable {room live middle after : Set Spot} {moves next : List (Spot × Spot)}

theorem trans (h : Passage room live moves middle) (hnext : Passage room middle next after) :
    Passage room live (moves ++ next) after := by
  induction h with
  | done live => exact hnext
  | move hlive hother hroom hfree hrest ih => exact .move hlive hother hroom hfree (ih hnext)

theorem single {source target : Spot} (hlive : source ∈ live) (hother : target ≠ source)
    (hroom : target ∈ room) (hfree : target ∉ live) :
    Passage room live [(source, target)] (Spot.passed live source target) :=
  .move hlive hother hroom hfree (.done _)

/-- A free spot is filled before an element leaves it. -/
theorem filled (h : Passage room live moves after) {spot target : Spot} (hfree : spot ∉ live)
    {first later : List (Spot × Spot)} (hmoves : moves = first ++ (spot, target) :: later) :
    ∃ move ∈ first, move.2 = spot := by
  induction h generalizing first with
  | done live => simp at hmoves
  | @move live _ source place rest hlive _ _ _ _ ih =>
    cases first with
    | nil =>
      obtain ⟨hmove, -⟩ := List.cons.inj hmoves
      obtain ⟨rfl, -⟩ := Prod.mk.inj hmove
      exact absurd hlive hfree
    | cons move first =>
      obtain ⟨rfl, hrest⟩ := List.cons.inj hmoves
      by_cases hplace : spot = place
      · exact ⟨_, List.mem_cons_self, hplace.symm⟩
      · have hstill : spot ∉ Spot.passed live source place := by
          rintro (heq | ⟨hin, -⟩)
          · exact hplace heq
          · exact hfree hin
        obtain ⟨move, hmem, htarget⟩ := ih hstill hrest
        exact ⟨move, List.mem_cons_of_mem _ hmem, htarget⟩

/-- Between two relocations from one spot there is one to it. -/
theorem refilled (h : Passage room live moves after) {spot target other : Spot}
    {first between later : List (Spot × Spot)}
    (hmoves : moves = first ++ (spot, target) :: (between ++ (spot, other) :: later)) :
    ∃ move ∈ between, move.2 = spot := by
  induction h generalizing first with
  | done live => simp at hmoves
  | @move live _ source place rest _ hother _ _ hrest ih =>
    cases first with
    | cons move first => exact ih (List.cons.inj hmoves).2
    | nil =>
      obtain ⟨hmove, hlater⟩ := List.cons.inj hmoves
      obtain ⟨rfl, rfl⟩ := Prod.mk.inj hmove
      refine hrest.filled ?_ hlater
      rintro (heq | ⟨-, hout⟩)
      · exact hother heq.symm
      · exact hout rfl

end Passage

/-- A spot that was read out, or that an element has left, is filled again before an element
leaves it. -/
def Refills (taken : Set Spot) (moves : List (Spot × Spot)) : Prop :=
  ∀ first spot target later, moves = first ++ (spot, target) :: later →
    (spot ∈ taken → ∃ move ∈ first, move.2 = spot) ∧
      ∀ earlier other between, first = earlier ++ (spot, other) :: between →
        ∃ move ∈ between, move.2 = spot

theorem Passage.refills {room live after taken : Set Spot} {moves : List (Spot × Spot)}
    (h : Passage room live moves after) (htaken : ∀ spot ∈ taken, spot ∉ live) :
    Refills taken moves := by
  intro first spot target later hmoves
  refine ⟨fun hin => h.filled (htaken spot hin) hmoves, ?_⟩
  rintro earlier other between rfl
  rw [List.append_assoc, List.cons_append] at hmoves
  exact h.refilled hmoves

/-! ## Live slots -/

/-- The spots of the slots that are live. -/
def Slots.lives {α : Type} (buffer : Nat) (slots : Slots α) : Set Spot :=
  {spot | ∃ index, (slots.read index).isSome ∧ spot = .slot buffer index}

namespace Vec

variable {α β γ : Type}

def lives (vec : Vec α) : Set Spot := vec.slots.lives vec.buffer

/-- The spots of the buffer. -/
def room (vec : Vec α) : Set Spot := {spot | ∃ index < vec.capacity, spot = .slot vec.buffer index}

/-- Just the slots below the length are live. -/
def Exact (vec : Vec α) : Prop := ∀ index, (vec.slots.read index).isSome ↔ index < vec.length

theorem slot_mem_lives {buffer index : Nat} {slots : Slots α} :
    Spot.slot buffer index ∈ slots.lives buffer ↔ (slots.read index).isSome := by
  constructor
  · rintro ⟨other, hlive, heq⟩
    obtain ⟨-, rfl⟩ := Spot.slot_inj.1 heq
    exact hlive
  · intro hlive
    exact ⟨index, hlive, rfl⟩

theorem Exact.live {vec : Vec α} (h : vec.Exact) : vec.Live := fun index hlt => (h index).2 hlt

theorem Shows.exact {κ : Type} {view : α → κ} {vec : Vec α} {items : List κ}
    (h : vec.Shows view items) : vec.Exact := by
  intro index
  have hread := congrArg Option.isSome (h.read_eq index)
  rw [Option.isSome_map] at hread
  rw [hread, h.length_eq, isSome_getElem?]

theorem Exact.shows {vec : Vec α} (h : vec.Exact) :
    vec.Shows (fun _ => ()) (List.replicate vec.length ()) := by
  refine ⟨List.length_replicate.symm, fun index => ?_⟩
  rw [List.getElem?_replicate]
  have hlive := h index
  split
  · rename_i hlt
    obtain ⟨value, hvalue⟩ := Option.isSome_iff_exists.1 (hlive.2 hlt)
    rw [hvalue]
    rfl
  · rename_i hge
    rw [Option.not_isSome_iff_eq_none.1 fun hsome => hge (hlive.1 hsome)]
    rfl

theorem lives_moveSlot (element : Element α) (buffer : Nat) {source target : Nat}
    {slots : Slots α} (hlive : (slots.read source).isSome) (hne : target ≠ source)
    (store : Store) :
    (moveSlot element buffer source target slots store).1.lives buffer =
      Spot.passed (slots.lives buffer) (.slot buffer source) (.slot buffer target) := by
  have hkeeps : element.toMovable.Keeps fun _ => () := fun _ _ _ _ => rfl
  have hseen : (Slots.seen (fun _ => ()) slots source).isSome := by
    rwa [Slots.seen, Option.isSome_map]
  have hread (index : Nat) :
      ((moveSlot element buffer source target slots store).1.read index).isSome ↔
        index = target ∨ index ≠ source ∧ (slots.read index).isSome := by
    have hmoved := congrArg Option.isSome (seen_moveSlot hkeeps hseen hne buffer store index)
    rw [Slots.seen, Option.isSome_map] at hmoved
    rw [hmoved]
    by_cases htarget : index = target
    · simp only [htarget, if_true, hseen, true_or]
    · by_cases hsource : index = source
      · simp [hsource, hne.symm]
      · simp [htarget, hsource, Slots.seen]
  ext spot
  constructor
  · rintro ⟨index, hin, rfl⟩
    rcases (hread index).1 hin with rfl | ⟨hsource, hbefore⟩
    · exact Or.inl rfl
    · refine Or.inr ⟨slot_mem_lives.2 hbefore, fun heq => hsource ?_⟩
      exact (Spot.slot_inj.1 heq).2
  · rintro (rfl | ⟨⟨index, hbefore, rfl⟩, hout⟩)
    · exact slot_mem_lives.2 ((hread target).2 (Or.inl rfl))
    · refine slot_mem_lives.2 ((hread index).2 (Or.inr ⟨?_, hbefore⟩))
      rintro rfl
      exact hout rfl

/-! ### Shifting -/

/-- Moving up starts next to a free slot, and every move frees the target of the next one. -/
theorem shiftUp_passage (element : Element α) {room : Set Spot} {buffer index count : Nat}
    {slots : Slots α}
    (hroom : ∀ place, index ≤ place → place ≤ index + count → Spot.slot buffer place ∈ room)
    (hlive : ∀ place, index ≤ place → place < index + count → (slots.read place).isSome)
    (hfree : ¬ (slots.read (index + count)).isSome) (store : Store) :
    Passage room (slots.lives buffer) (rises buffer index count)
      ((shiftUp element buffer index count slots store).1.lives buffer) := by
  induction count generalizing slots store with
  | zero => exact .done _
  | succ count ih =>
    have hlast := hlive (index + count) (by omega) (by omega)
    have hmoved := lives_moveSlot element buffer hlast (Nat.succ_ne_self (index + count)) store
    have hread (place : Nat) (hsource : place ≠ index + count)
        (htarget : place ≠ index + count + 1) :=
      read_moveSlot element buffer slots store hsource htarget
    have hrises : rises buffer index (count + 1) =
        (.slot buffer (index + count), .slot buffer (index + count + 1)) ::
          rises buffer index count := by
      simp [rises, List.range'_concat]
    unfold shiftUp
    rw [Effect.bind_apply, hrises]
    generalize moveSlot element buffer (index + count) (index + count + 1) slots store = run
      at hmoved hread ⊢
    refine .move (slot_mem_lives.2 hlast) ?_ (hroom _ (by omega) (by omega)) ?_ ?_
    · intro heq
      have hindex := (Spot.slot_inj.1 heq).2
      omega
    · exact fun hin => hfree (slot_mem_lives.1 hin)
    · rw [← hmoved]
      refine ih (fun place hle hle' => hroom place hle (by omega)) ?_ ?_ run.2
      · intro place hle hlt
        rw [hread place (by omega) (by omega)]
        exact hlive place hle (by omega)
      · intro hfilled
        have hin : Spot.slot buffer (index + count) ∈ run.1.lives buffer :=
          slot_mem_lives.2 hfilled
        rw [hmoved] at hin
        rcases hin with heq | ⟨-, hout⟩
        · have hindex := (Spot.slot_inj.1 heq).2
          omega
        · exact hout rfl

/-- Moving down starts at the gap, and every move frees the target of the next one. -/
theorem shiftDown_passage (element : Element α) {room : Set Spot} {buffer index count : Nat}
    {slots : Slots α}
    (hroom : ∀ place, index ≤ place → place < index + count → Spot.slot buffer place ∈ room)
    (hlive : ∀ place, index < place → place ≤ index + count → (slots.read place).isSome)
    (hfree : ¬ (slots.read index).isSome) (store : Store) :
    Passage room (slots.lives buffer) (falls buffer index count)
      ((shiftDown element buffer index count slots store).1.lives buffer) := by
  induction count generalizing index slots store with
  | zero => exact .done _
  | succ count ih =>
    have hnext := hlive (index + 1) (by omega) (by omega)
    have hmoved := lives_moveSlot element buffer hnext (Nat.succ_ne_self index).symm store
    have hread (place : Nat) (hsource : place ≠ index + 1) (htarget : place ≠ index) :=
      read_moveSlot element buffer slots store hsource htarget
    have hfalls : falls buffer index (count + 1) =
        (.slot buffer (index + 1), .slot buffer index) :: falls buffer (index + 1) count := by
      simp [falls, List.range'_succ]
    unfold shiftDown
    rw [Effect.bind_apply, hfalls]
    generalize moveSlot element buffer (index + 1) index slots store = run at hmoved hread ⊢
    refine .move (slot_mem_lives.2 hnext) ?_ (hroom _ (by omega) (by omega)) ?_ ?_
    · intro heq
      have hindex := (Spot.slot_inj.1 heq).2
      omega
    · exact fun hin => hfree (slot_mem_lives.1 hin)
    · rw [← hmoved]
      refine ih (fun place hle hlt => hroom place (by omega) (by omega)) ?_ ?_ run.2
      · intro place hlt hle
        rw [hread place (by omega) (by omega)]
        exact hlive place (by omega) (by omega)
      · intro hfilled
        have hin : Spot.slot buffer (index + 1) ∈ run.1.lives buffer := slot_mem_lives.2 hfilled
        rw [hmoved] at hin
        rcases hin with heq | ⟨-, hout⟩
        · have hindex := (Spot.slot_inj.1 heq).2
          omega
        · exact hout rfl

theorem lives_clear (buffer : Nat) (slots : Slots α) (index : Nat) :
    (slots.clear index).lives buffer = slots.lives buffer \ {.slot buffer index} := by
  ext spot
  constructor
  · rintro ⟨place, hlive, rfl⟩
    have hne : place ≠ index := by
      rintro rfl
      rw [Slots.read_clear_self] at hlive
      cases hlive
    rw [Slots.read_clear_of_ne _ hne] at hlive
    exact ⟨slot_mem_lives.2 hlive, fun heq => hne (Spot.slot_inj.1 heq).2⟩
  · rintro ⟨⟨place, hlive, rfl⟩, hout⟩
    refine slot_mem_lives.2 ?_
    rwa [Slots.read_clear_of_ne _ fun heq => hout (by rw [heq]; rfl)]

theorem lives_write (buffer : Nat) {slots : Slots α} {index : Nat}
    (hfree : slots.read index = none) (value : α) :
    (slots.write index value).lives buffer \ {.slot buffer index} = slots.lives buffer := by
  ext spot
  constructor
  · rintro ⟨⟨place, hlive, rfl⟩, hout⟩
    refine slot_mem_lives.2 ?_
    rwa [Slots.read_write_of_ne _ _ fun heq => hout (by rw [heq]; rfl)] at hlive
  · rintro ⟨place, hlive, rfl⟩
    have hne : place ≠ index := by
      rintro rfl
      rw [hfree] at hlive
      cases hlive
    refine ⟨slot_mem_lives.2 ?_, fun heq => hne (Spot.slot_inj.1 heq).2⟩
    rwa [Slots.read_write_of_ne _ _ hne]

theorem slot_mem_room {vec : Vec α} {index : Nat} (h : index < vec.capacity) :
    Spot.slot vec.buffer index ∈ vec.room := ⟨index, h, rfl⟩

theorem openGap_passage {element : Element α} (hbitwise : element.bitwise = false) {vec : Vec α}
    (h : vec.Exact) {index : Nat} (hindex : index ≤ vec.length)
    (hroom : vec.length < vec.capacity) (store : Store) :
    Passage vec.room vec.lives (rises vec.buffer index (vec.length - index))
      ((vec.openGap element index store).1.lives vec.buffer) := by
  unfold openGap
  rw [hbitwise]
  refine shiftUp_passage element ?_ ?_ ?_ store
  · intro place _ hle
    exact slot_mem_room (by omega)
  · intro place _ hlt
    exact h.live place (by omega)
  · intro hlive
    have hlt := (h _).1 hlive
    omega

theorem read_openGap (element : Element α) {vec : Vec α} (h : vec.Exact) {index : Nat}
    (hindex : index ≤ vec.length) (store : Store) :
    (vec.openGap element index store).1.read index = none := by
  have hgap := seen_openGap (faithful_unit element) h.shows hindex store index
  rw [if_neg (Nat.lt_irrefl index), if_pos rfl] at hgap
  exact Option.map_eq_none_iff.1 hgap

theorem closeGap_passage {element : Element α} (hbitwise : element.bitwise = false) {vec : Vec α}
    (h : vec.Exact) {index : Nat} (hindex : index < vec.length)
    (hroom : vec.length ≤ vec.capacity) (store : Store) :
    Passage vec.room (vec.lives \ {.slot vec.buffer index})
      (falls vec.buffer index (vec.length - index - 1))
      ((vec.closeGap element index store).1.lives vec.buffer) := by
  unfold closeGap lives
  rw [hbitwise, ← lives_clear]
  refine shiftDown_passage element ?_ ?_ ?_ store
  · intro place _ hlt
    exact slot_mem_room (by omega)
  · intro place hlt hle
    rw [Slots.read_clear_of_ne _ (by omega)]
    exact h.live place (by omega)
  · simp

/-! ### Moving to another buffer -/

/-- The live slots while the first elements are in the new buffer already. -/
def halfway (source target : Nat) (slots : Slots α) (count : Nat) : Set Spot :=
  {spot | (∃ index, count ≤ index ∧ (slots.read index).isSome ∧ spot = .slot source index) ∨
    ∃ index < count, spot = .slot target index}

theorem halfway_zero (source target : Nat) (slots : Slots α) :
    halfway source target slots 0 = slots.lives source := by
  ext spot
  constructor
  · rintro (⟨index, -, hlive, rfl⟩ | ⟨index, hlt, -⟩)
    · exact slot_mem_lives.2 hlive
    · cases hlt
  · rintro ⟨index, hlive, rfl⟩
    exact Or.inl ⟨index, Nat.zero_le index, hlive, rfl⟩

theorem halfway_succ {source target : Nat} (hne : target ≠ source) (slots : Slots α)
    (count : Nat) :
    Spot.passed (halfway source target slots count) (.slot source count) (.slot target count) =
      halfway source target slots (count + 1) := by
  ext spot
  constructor
  · rintro (rfl | ⟨⟨index, hle, hlive, rfl⟩ | ⟨index, hlt, rfl⟩, hout⟩)
    · exact Or.inr ⟨count, Nat.lt_succ_self count, rfl⟩
    · refine Or.inl ⟨index, Nat.lt_of_le_of_ne hle ?_, hlive, rfl⟩
      rintro rfl
      exact hout rfl
    · exact Or.inr ⟨index, Nat.lt_succ_of_lt hlt, rfl⟩
  · rintro (⟨index, hle, hlive, rfl⟩ | ⟨index, hlt, rfl⟩)
    · refine Or.inr ⟨Or.inl ⟨index, Nat.le_of_succ_le hle, hlive, rfl⟩, fun heq => ?_⟩
      have hindex := (Spot.slot_inj.1 heq).2
      omega
    · rcases Nat.lt_succ_iff_lt_or_eq.1 hlt with hbefore | rfl
      · exact Or.inr ⟨Or.inr ⟨index, hbefore, rfl⟩, fun heq => hne (Spot.slot_inj.1 heq).1⟩
      · exact Or.inl rfl

theorem transfers_passage {room : Set Spot} {source target : Nat} (hne : target ≠ source)
    {slots : Slots α} {count : Nat} (hroom : ∀ index < count, Spot.slot target index ∈ room)
    (hlive : ∀ index < count, (slots.read index).isSome) :
    Passage room (slots.lives source) (transfers source target count)
      (halfway source target slots count) := by
  induction count with
  | zero =>
    rw [halfway_zero]
    exact .done _
  | succ count ih =>
    have htransfers : transfers source target (count + 1) =
        transfers source target count ++ [(.slot source count, .slot target count)] := by
      simp [transfers, List.range_succ]
    have hlast := hlive count (Nat.lt_succ_self count)
    rw [htransfers, ← halfway_succ hne]
    refine (ih (fun index hlt => hroom index (by omega)) fun index hlt =>
      hlive index (by omega)).trans (.single ?_ ?_ (hroom count (Nat.lt_succ_self count)) ?_)
    · exact Or.inl ⟨count, Nat.le_refl count, hlast, rfl⟩
    · exact fun heq => hne (Spot.slot_inj.1 heq).1
    · rintro (⟨index, -, -, heq⟩ | ⟨index, hlt, heq⟩)
      · exact hne (Spot.slot_inj.1 heq).1
      · have hindex := (Spot.slot_inj.1 heq).2
        omega

theorem read_migrate (element : Element α) {vec : Vec α} (h : vec.Live) (target : Nat)
    (store : Store) (index : Nat) :
    ((migrate element vec.buffer target vec.slots vec.length store).1.read index).isSome ↔
      index < vec.length := by
  have hkeeps : element.toMovable.Keeps fun _ => () := fun _ _ _ _ => rfl
  have hmoved := congrArg Option.isSome
    (migrate_read hkeeps vec.buffer target vec.slots vec.length store index)
  rw [Option.isSome_map] at hmoved
  rw [hmoved]
  split
  · rename_i hlt
    simp [h index hlt, hlt]
  · rename_i hge
    simp [hge]

theorem migrate_passage (element : Element α) {room : Set Spot} {vec : Vec α} (h : vec.Exact)
    {target : Nat} (hne : target ≠ vec.buffer)
    (hroom : ∀ index < vec.length, Spot.slot target index ∈ room) (store : Store) :
    Passage room vec.lives (transfers vec.buffer target vec.length)
      ((migrate element vec.buffer target vec.slots vec.length store).1.lives target) := by
  have hread := read_migrate element h.live target store
  have hlast : (migrate element vec.buffer target vec.slots vec.length store).1.lives target =
      halfway vec.buffer target vec.slots vec.length := by
    ext spot
    constructor
    · rintro ⟨index, hlive, rfl⟩
      exact Or.inr ⟨index, (hread index).1 hlive, rfl⟩
    · rintro (⟨index, hle, hlive, rfl⟩ | ⟨index, hlt, rfl⟩)
      · exact absurd ((h index).1 hlive) (Nat.not_lt_of_le hle)
      · exact slot_mem_lives.2 ((hread index).2 hlt)
  rw [hlast]
  exact transfers_passage hne hroom h.live

/-! ## Whole operations -/

/-- From one vector to the next the elements go from live slots to free ones.  What is taken
was read out before them, and what is placed is written after them. -/
structure Rearranges (stock : Stock α γ) (vec : Vec α) (store : Store) (taken : Set Spot)
    (next : Vec α) (placed : Set Spot) (after : Store) : Prop where
  moves : ∃ moves, stock.Relocates store after moves ∧
    Passage next.room (vec.lives \ taken) moves (next.lives \ placed) ∧ Refills taken moves
  was_live : taken ⊆ vec.lives
  is_live : placed ⊆ next.lives
  exact : next.Exact

/-- What succeeds is good, and what fails relocates nothing. -/
def Achieves {δ : Type} (stock : Stock α γ) (store : Store) (good : δ → Store → Prop) :
    Except ErrorKind δ × Store → Prop
  | (.ok result, after) => good result after
  | (.error _, after) => stock.Relocates store after []

/-- The memory keeps a block where the buffer is. -/
def Lodged (element : Element α) (memory : Memory) (vec : Vec α) : Prop :=
  element.layout.size ≠ 0 → 0 < vec.capacity →
    memory.backend.Orderly ∧ ∃ holding, memory.backend.Houses holding ∧
      holding.address = vec.buffer ∧ 0 < holding.recorded

variable {stock : Stock α γ} {vec next : Vec α} {store after : Store}

theorem lives_of_length_eq_zero (h : vec.Exact) (hempty : vec.length = 0) (buffer : Nat) :
    vec.slots.lives buffer = ∅ := by
  ext spot
  constructor
  · rintro ⟨index, hlive, -⟩
    have hlt := (h index).1 hlive
    omega
  · exact False.elim

/-- The relocations, given what they do to the live slots. -/
theorem moves_of_passage {taken placed : Set Spot} {moves : List (Spot × Spot)}
    (hmoves : stock.Relocates store after moves)
    (h : Passage next.room (vec.lives \ taken) moves (next.lives \ placed)) :
    ∃ moves, stock.Relocates store after moves ∧
      Passage next.room (vec.lives \ taken) moves (next.lives \ placed) ∧ Refills taken moves :=
  ⟨moves, hmoves, h, h.refills fun _ hin hlive => hlive.2 hin⟩

theorem Rearranges.still (hlives : next.lives = vec.lives) (hexact : next.Exact)
    (hidle : stock.Relocates store after []) : vec.Rearranges stock store ∅ next ∅ after where
  moves := by
    refine moves_of_passage hidle ?_
    rw [hlives]
    exact .done _
  was_live := Set.empty_subset _
  is_live := Set.empty_subset _
  exact := hexact

/-- A block that is granted lies elsewhere than a block in use. -/
theorem allocate_ne {layout : Layout} (hvalid : layout.Valid) (hpos : 0 < layout.size)
    (horderly : store.memory.backend.Orderly) {holding : Holding}
    (hhouses : store.memory.backend.Houses holding) (hfilled : 0 < holding.recorded)
    {block : Block} (h : Allocator.allocate layout store = (.ok block, after)) :
    block.address ≠ holding.address := by
  have hanswered := Allocator.allocate_answered layout store
  rw [h] at hanswered
  have hfound : store.memory.allocate layout = .ok (block, after.memory) := hanswered
  have hgrants := Memory.allocate_grants horderly hvalid hfound
  have hsize := (Memory.allocate_granted hvalid hfound).1
  have hle := Word.le_roundUp layout.size store.memory.backend.granule_pos
  intro heq
  have hmine : holding.address ∈ holding.span := by
    rw [Span.mem_iff]
    simp only [Holding.span]
    omega
  have htheirs : holding.address ∈ block.span := by
    rw [Span.mem_iff]
    simp only [Block.span]
    omega
  exact Span.not_mem_nothing _ (hgrants.passes.fresh _ htheirs (hhouses.occupied _ hmine))

/-- The ways in which a reservation goes. -/
theorem reserve_cases {motive : Except ErrorKind (Vec α) × Store → Prop} {element : Element α}
    {capacity : Nat} (henough : motive (.ok vec, store))
    (hfailed : ∀ kind, motive (.error kind, store))
    (hfirst : ∀ wanted, vec.capacity < capacity →
      element.layout.array? capacity = some wanted → vec.bufferLayout? element = none →
      motive ((Allocator.allocate wanted >>= fun block => pure (vec.adopt element block)) store))
    (hregrow : ∀ held wanted, vec.capacity < capacity →
      element.layout.array? capacity = some wanted → vec.bufferLayout? element = some held →
      motive (vec.regrow element held wanted store)) :
    motive (vec.reserve element capacity store) := by
  unfold reserve
  by_cases hle : capacity ≤ vec.capacity
  · rw [if_pos hle]
    exact henough
  rw [if_neg hle]
  have hmore := Nat.lt_of_not_le hle
  cases hwanted : element.layout.array? capacity with
  | none => exact hfailed .integerOverflow
  | some wanted =>
    cases hheld : vec.bufferLayout? element with
    | none => exact hfirst wanted hmore hwanted hheld
    | some held => exact hregrow held wanted hmore hwanted hheld

/-- A growth leaves every element live, in its old slot or in the same slot of a new block. -/
def Grown (stock : Stock α γ) (vec : Vec α) (store : Store) :
    Except ErrorKind (Vec α) × Store → Prop :=
  Achieves stock store fun grown after =>
    vec.Rearranges stock store ∅ grown ∅ after ∧ grown.length = vec.length

theorem grown_enough (hexact : vec.Exact) : Grown stock vec store (.ok vec, store) :=
  ⟨.still rfl hexact (.refl stock store), rfl⟩

theorem relocations_moving (first second last : Call) (moves : List (Spot × Spot)) :
    relocations ([.call first] ++ [.call second] ++ relocating moves ++ [.call last]) = moves := by
  rw [relocations_append, relocations_append, relocations_relocating]
  exact List.append_nil _

theorem move_grown (hexact : vec.Exact) {held wanted : Layout} {middle : Store}
    {kind : ErrorKind}
    (hexpand : Course stock store
      [.call (.expand vec.buffer held.size wanted.size (.error kind))] middle)
    (hvalid : wanted.Valid) (hpos : 0 < wanted.size) (horderly : middle.memory.backend.Orderly)
    {holding : Holding} (hhouses : middle.memory.backend.Houses holding)
    (haddress : holding.address = vec.buffer) (hfilled : 0 < holding.recorded)
    (hroom : ∀ grown after, vec.move stock.element held wanted middle = (.ok grown, after) →
      vec.length ≤ grown.capacity) :
    Grown stock vec store (vec.move stock.element held wanted middle) := by
  have hboth := hexpand.trans (.single (.allocate wanted middle))
  unfold move at hroom ⊢
  rw [Attempt.bind_apply] at hroom ⊢
  cases hrun : Allocator.allocate wanted middle with
  | mk answer between =>
    rw [hrun] at hboth hroom
    cases answer with
    | error kind => exact hboth.relocates
    | ok block =>
      have hne : block.address ≠ vec.buffer := by
        rw [← haddress]
        exact allocate_ne hvalid hpos horderly hhouses hfilled hrun
      have hmigrated : Course stock between _ _ :=
        migrate_course vec.buffer block.address hexact.live between
      have hfreed := (hboth.trans hmigrated).trans (.single (.deallocate vec.buffer held _))
      have hcourse := log_course hfreed .trace (relocatedElements vec.length block.size)
      have hread := read_migrate stock.element hexact.live block.address between
      refine ⟨⟨moves_of_passage ⟨_, hcourse, relocations_moving _ _ _ _⟩ ?_, Set.empty_subset _,
        Set.empty_subset _, hread⟩, rfl⟩
      rw [Set.sdiff_empty, Set.sdiff_empty]
      refine migrate_passage stock.element hexact hne ?_ between
      intro index hlt
      exact ⟨index, Nat.lt_of_lt_of_le hlt (hroom _ _ rfl), rfl⟩

theorem length_le_of_grows {capacity : Nat} {run : Except ErrorKind (Vec α) × Store}
    (h : Grows stock.element (fun _ => ()) vec capacity run.1) (hexact : vec.Exact)
    {grown : Vec α} (hrun : run = (.ok grown, after)) : vec.length ≤ grown.capacity := by
  rw [hrun] at h
  have hlength := (h.1 _ hexact.shows).length_eq
  rw [List.length_replicate] at hlength
  have hroom := h.2.1.length_le
  omega

section Growing

variable (hbitwise : stock.element.bitwise = false) (hexact : vec.Exact)
  (hroomy : vec.Roomy stock.element) (hlodged : vec.Lodged stock.element store.memory)

include hbitwise hexact hroomy hlodged

theorem regrow_grown {capacity : Nat} {held wanted : Layout} (hmore : vec.capacity < capacity)
    (hwanted : stock.element.layout.array? capacity = some wanted)
    (hheld : vec.bufferLayout? stock.element = some held) :
    Grown stock vec store (vec.regrow stock.element held wanted store) := by
  obtain ⟨hvalid, rfl⟩ := array?_layout hwanted
  obtain ⟨hsized, hfilled⟩ : stock.element.layout.size ≠ 0 ∧ 0 < vec.capacity := by
    unfold bufferLayout? at hheld
    split at hheld
    · cases hheld
    · omega
  obtain ⟨horderly, holding, hhouses, haddress, hrecorded⟩ := hlodged hsized hfilled
  have hpos : 0 < stock.element.layout.size * capacity :=
    Nat.mul_pos (Nat.pos_of_ne_zero hsized) (Nat.zero_lt_of_lt hmore)
  have hasked : Course stock store _ _ :=
    .single (.expand vec.buffer held (stock.element.layout.size * capacity) store)
  have hanswered := Allocator.expand_answered vec.buffer held
    (stock.element.layout.size * capacity) store
  unfold regrow
  rw [Attempt.bind_apply, Attempt.lift_apply]
  cases hrun : Allocator.expand vec.buffer held (stock.element.layout.size * capacity) store with
  | mk answer middle =>
    have hrun' : (Allocator.expand vec.buffer held (stock.element.layout.size * capacity)).run
        store = (answer, middle) := hrun
    rw [hrun] at hasked hanswered
    rw [hrun']
    cases answer with
    | ok size =>
      have hcourse := log_course hasked .trace (grewInPlace size)
      exact ⟨.still rfl hexact hcourse.relocates, rfl⟩
    | error kind =>
      have hmemory : middle.memory = store.memory := hanswered
      dsimp only
      rw [hbitwise]
      rw [← hmemory] at horderly hhouses
      refine move_grown hexact hasked hvalid hpos horderly hhouses haddress hrecorded ?_
      intro grown after hmoved
      exact length_le_of_grows (move_grows (faithful_unit stock.element hbitwise) hroomy hsized
        hmore held _ rfl middle) hexact hmoved

theorem reserve_grown {capacity : Nat} (hword : capacity < Word.limit) :
    Grown stock vec store (vec.reserve stock.element capacity store) := by
  refine reserve_cases (grown_enough hexact) (fun _ => .refl stock store) ?_ ?_
  · intro wanted hmore hwanted hheld
    have hsized : stock.element.layout.size ≠ 0 := fun hsizeless =>
      absurd (hroomy.le_capacity hsizeless hword) (Nat.not_le_of_lt hmore)
    have hempty : vec.length = 0 :=
      Nat.le_zero.1 (capacity_eq_zero hsized hmore hwanted hheld ▸ hroomy.length_le)
    have hasked : Course stock store _ _ := .single (.allocate wanted store)
    rw [Attempt.bind_apply]
    generalize Allocator.allocate wanted store = run at hasked ⊢
    obtain ⟨answer, after⟩ := run
    cases answer with
    | error kind => exact hasked.relocates
    | ok block =>
      have hnone := lives_of_length_eq_zero hexact hempty
      exact ⟨.still ((hnone block.address).trans (hnone vec.buffer).symm) hexact hasked.relocates,
        rfl⟩
  · intro held wanted hmore hwanted hheld
    exact regrow_grown hbitwise hexact hroomy hlodged hmore hwanted hheld

theorem growForOne_grown : Grown stock vec store (vec.growForOne stock.element store) := by
  unfold growForOne
  by_cases hroom : vec.length < vec.capacity
  · rw [if_pos hroom]
    exact grown_enough hexact
  rw [if_neg hroom]
  by_cases hnone : vec.capacity = 0
  · rw [if_pos hnone]
    exact reserve_grown hbitwise hexact hroomy hlodged (by decide)
  rw [if_neg hnone]
  cases hcapacity : Word.mul? vec.capacity 2 with
  | none => exact .refl stock store
  | some capacity =>
    obtain ⟨hword, rfl⟩ := Word.fit?_eq_some_iff.1 hcapacity
    exact reserve_grown hbitwise hexact hroomy hlodged hword

/-- An insertion opens the gap, in a buffer that may be a new one, and then fills it. -/
theorem insert_rearranges (index : Nat) (value : α) :
    Achieves stock store (fun next after =>
        vec.Rearranges stock store ∅ next {.slot next.buffer index} after ∧
          next.length = vec.length + 1)
      (vec.insert stock.element index value store) := by
  by_cases houtside : vec.length < index
  · rw [VecCall.insert_apply, if_pos houtside]
    exact stock.idle_destroy value store
  have hgrown := growForOne_grown hbitwise hexact hroomy hlodged
  have hgrows := growForOne_grows (faithful_unit stock.element) hroomy store
  have hinside : index ≤ (List.replicate vec.length ()).length := by
    rw [List.length_replicate]
    omega
  have hbecomes := insert_becomes (faithful_unit stock.element) hexact.shows hroomy hinside value
    store
  rw [VecCall.insert_apply, if_neg houtside] at hbecomes ⊢
  generalize vec.growForOne stock.element store = run at hgrown hgrows hbecomes ⊢
  obtain ⟨answer, middle⟩ := run
  cases answer with
  | error kind => exact Stock.Relocates.trans hgrown (stock.idle_destroy value middle)
  | ok grown =>
    obtain ⟨⟨⟨moves, hmoves, hpassage, -⟩, -, -, hfull⟩, hlength⟩ := hgrown
    have hindex : index ≤ grown.length := by omega
    have hopened := openGap_passage hbitwise hfull hindex (Grows.room hexact.shows hgrows) middle
    have hsteps := VecCall.openGap_relocates hbitwise hfull.live hindex middle
    have hgap := read_openGap stock.element hfull hindex middle
    rw [Set.sdiff_empty, Set.sdiff_empty] at hpassage
    refine ⟨⟨moves_of_passage (hmoves.trans hsteps) ?_, Set.empty_subset _, ?_,
      hbecomes.shows.exact⟩, ?_⟩
    · rw [Set.sdiff_empty]
      show Passage grown.room vec.lives _ (Slots.lives grown.buffer (Slots.write _ index value) \ _)
      rw [lives_write grown.buffer hgap]
      exact hpassage.trans hopened
    · rintro _ rfl
      exact slot_mem_lives.2 (by rw [Slots.read_write_self]; rfl)
    · show grown.length + 1 = _
      rw [hlength]

end Growing

/-- A removal reads the element out and closes the gap in the same buffer. -/
theorem remove_rearranges (hbitwise : stock.element.bitwise = false) (hexact : vec.Exact)
    (hroomy : vec.Roomy stock.element) (index : Nat) (store : Store) :
    Achieves stock store (fun taken after =>
        vec.slots.read index = some taken.1 ∧
          vec.Rearranges stock store {.slot vec.buffer index} taken.2 ∅ after ∧
          taken.2.length + 1 = vec.length)
      (vec.remove stock.element index store) := by
  by_cases hinside : index < vec.length
  case neg =>
    unfold remove
    rw [if_neg hinside]
    exact .refl stock store
  have hlisted : index < (List.replicate vec.length ()).length := by
    rwa [List.length_replicate]
  obtain ⟨value, next, hremove, -, hfollows⟩ := remove_inside (faithful_unit stock.element)
    hexact.shows hroomy hlisted store
  have hsteps := VecCall.closeGap_relocates hbitwise hexact.live index store
  have hclosed := closeGap_passage hbitwise hexact hinside hroomy.length_le store
  have hread := hexact.live index hinside
  unfold remove at hremove ⊢
  rw [if_pos hinside] at hremove ⊢
  cases hslot : vec.slots.read index with
  | none =>
    rw [hslot] at hread
    cases hread
  | some found =>
    rw [hslot] at hremove
    obtain ⟨-, rfl⟩ := Prod.mk.inj (Except.ok.inj hremove)
    refine ⟨rfl, ⟨moves_of_passage hsteps ?_, ?_, Set.empty_subset _, hfollows.shows.exact⟩, ?_⟩
    · rw [Set.sdiff_empty]
      exact hclosed
    · rintro _ rfl
      exact slot_mem_lives.2 hread
    · exact Nat.sub_add_cancel (Nat.zero_lt_of_lt hinside)

/-- Reserving, inserting and removing relocate live elements to free slots only, and leave
just the slots below the new length live. -/
structure Spares (stock : Stock α γ) (vec : Vec α) (store : Store) : Prop where
  reserve : ∀ capacity, capacity < Word.limit →
    Grown stock vec store (vec.reserve stock.element capacity store)
  insert : ∀ index value, Achieves stock store (fun next after =>
      vec.Rearranges stock store ∅ next {.slot next.buffer index} after ∧
        next.length = vec.length + 1)
    (vec.insert stock.element index value store)
  remove : ∀ index, Achieves stock store (fun taken after =>
      vec.slots.read index = some taken.1 ∧
        vec.Rearranges stock store {.slot vec.buffer index} taken.2 ∅ after ∧
        taken.2.length + 1 = vec.length)
    (vec.remove stock.element index store)

/-- The memory has a lawful past, and what backs the vector is in use. -/
def Homed (element : Element α) (memory : Memory) (vec : Vec α) : Prop :=
  ∃ (start : Memory) (occurrences : List AllocatorState.Occurrence) (held : List Holding),
    start.backend.Unused ∧ AllocatorState.Permitted { memory := start } occurrences ∧
      memory = (AllocatorState.live { memory := start } occurrences).memory ∧
      Backed element memory.backend.granule (some vec) held ∧
      ∀ holding ∈ held, holding ∈ (AllocatorState.live { memory := start } occurrences).held

theorem Homed.lodged {element : Element α} {memory : Memory} (h : vec.Homed element memory) :
    vec.Lodged element memory := by
  obtain ⟨start, occurrences, held, hunused, hpermitted, rfl, hbacked, hheld⟩ := h
  have horder := (AllocatorState.inOrder_unused hunused).live hpermitted
  intro hsized hpos
  cases hbacked with
  | sizeless hzero => exact absurd hzero hsized
  | fresh _ hnone => omega
  | @block _ holding _ _ hbacks =>
    have hkept := horder.kept holding (hheld holding (List.mem_singleton_self holding))
    have hroom := Nat.mul_pos (Nat.pos_of_ne_zero hsized) hpos
    exact ⟨horder.orderly, holding, hkept.houses, hbacks.address_eq,
      Nat.lt_of_lt_of_le hroom hbacks.within⟩

/-! ## Elements that are moved by their bytes -/

/-- Shifting the bytes and relocating one element after the other leave the same in every
slot. -/
structure ShiftsAlike (element : Element α) {κ : Type} (view : α → κ) (vec : Vec α) : Prop where
  opens : ∀ index, index ≤ vec.length → ∀ store place,
    Slots.seen view (vec.openGap (element.withBitwise true) index store).1 place =
      Slots.seen view (vec.openGap (element.withBitwise false) index store).1 place
  closes : ∀ index, index < vec.length → ∀ store place,
    Slots.seen view (vec.closeGap (element.withBitwise true) index store).1 place =
      Slots.seen view (vec.closeGap (element.withBitwise false) index store).1 place

theorem Exact.shiftsAlike (h : vec.Exact) {element : Element α} {κ : Type} {view : α → κ}
    (hkeeps : element.toMovable.Keeps view) : vec.ShiftsAlike element view := by
  have hseen {slots : Slots α} {place : Nat} (hlive : (slots.read place).isSome) :
      (Slots.seen view slots place).isSome := by
    rwa [Slots.seen, Option.isSome_map]
  have hkeeps' : (element.withBitwise false).toMovable.Keeps view := hkeeps
  constructor
  case opens =>
    intro index hindex store place
    refine (seen_shiftUp hkeeps' vec.buffer index ?_ store place).symm
    intro source _ hlt
    exact hseen (h.live source (by omega))
  case closes =>
    intro index hindex store place
    refine (seen_shiftDown hkeeps' vec.buffer ?_ store place).symm
    intro source hlt hle
    refine hseen ?_
    rw [Slots.read_clear_of_ne _ (by omega)]
    exact h.live source (by omega)

end Vec

/-! ## Vectors of a row -/

namespace Row

variable {α γ : Type} {stock : Stock α γ} {row : Row α}

/-- For vectors it does not matter whether the elements are valid anywhere. -/
theorem Reached.exact {care : Care} (hbitwise : stock.element.bitwise = false)
    (h : Reached stock care row) {name : Nat} {vec : Vec α} (hrow : row name = some vec) :
    vec.Exact ∧ vec.Roomy stock.element := by
  have hanchors : stock.Anchors care fun _ _ => True :=
    { elementwise := hbitwise
      relocates := fun _ _ _ _ _ => trivial
      settles := fun _ _ => trivial
      builds := Or.inr fun _ _ _ _ _ _ => trivial
      copies := Or.inr fun _ _ _ _ _ _ => trivial }
  obtain ⟨⟨items, hshows⟩, hroomy, -⟩ := h.moored hanchors name vec hrow
  exact ⟨hshows.exact, hroomy⟩

/-- No relocation overwrites a live element, and none moves an element that is not there.  The
shift of bytes leaves the slots as such relocations would, and whatever the elements are, every
call leaves just the slots below the length live. -/
theorem moves_spare_elements (stock : Stock α γ) :
    (stock.element.bitwise = false → ∀ (care : Care) (row : Row α), Reached stock care row →
      ∀ name vec, row name = some vec →
        ∀ store : Store, vec.Homed stock.element store.memory → vec.Spares stock store) ∧
    (∀ (κ : Type) (view : α → κ), stock.element.toMovable.Keeps view →
      ∀ vec : Vec α, vec.Exact → vec.ShiftsAlike stock.element view) ∧
    ∀ vec : Vec α, vec.Exact → vec.Roomy stock.element →
      ∀ call : VecCall α γ, call.InWord → ∀ store next,
        (call.act stock.element stock.builder vec store).1.2 = some next →
          next.Exact ∧ next.Roomy stock.element := by
  refine ⟨?_, fun κ view hkeeps vec hexact => hexact.shiftsAlike hkeeps, ?_⟩
  · intro hbitwise care row hreached name vec hrow store hhomed
    obtain ⟨hexact, hroomy⟩ := hreached.exact hbitwise hrow
    have hlodged := hhomed.lodged
    exact
      { reserve := fun _ hword => Vec.reserve_grown hbitwise hexact hroomy hlodged hword
        insert := Vec.insert_rearranges hbitwise hexact hroomy hlodged
        remove := fun index => Vec.remove_rearranges hbitwise hexact hroomy index store }
  · intro vec hexact hroomy call hword store next hnext
    have hrefines := VecCall.act_refines stock.builder (Vec.faithful_unit stock.element)
      hexact.shows hroomy call hword store
    have hfollows := hrefines.follows next hnext
    exact ⟨hfollows.shows.exact, hfollows.roomy⟩

/-- Two elements in an arena of their own. -/
def paired : List (VecDeed Piece Datum) :=
  [.call 0 (.create none), .call 0 (.push { datum := .number 1 }),
    .call 0 (.push { datum := .number 2 })]

def arenaStore : Store where
  memory := { backend := .stack { base := 4096, capacity := 4096 } }

/-- The vector has the first block of the arena, and somebody else has the second one. -/
def neighbours : List AllocatorState.Occurrence :=
  [.demand (.allocate ⟨192, 8⟩), .demand (.allocate ⟨16, 8⟩)]

def pairedVec : Vec Piece where
  buffer := 4096
  capacity := 8
  length := 2
  slots := #[some { datum := .number 1, anchor := some (.slot 4096 0) },
    some { datum := .number 2, anchor := some (.slot 4096 1) }]

def neighboursStore : Store where
  memory := (AllocatorState.live { memory := arenaStore.memory } neighbours).memory

/-- The vector has to move to get more room. -/
theorem moves_spare_elements_paired :
    tendedRun Catalogue.anchored.stock Catalogue.anchored.care (fun _ => none) arenaStore
        paired 0 = some pairedVec ∧
      pairedVec.Homed Catalogue.anchored.element neighboursStore.memory ∧
      pairedVec.Spares Catalogue.anchored.stock neighboursStore ∧
      ((pairedVec.reserve Catalogue.anchored.element 9 neighboursStore).1.toOption.map
        Vec.buffer) = some 4304 ∧
      pairedVec.ShiftsAlike Catalogue.anchored.element VecHistory.pieceView ∧
      (∀ next, ((VecCall.remove 0 : VecCall Piece Datum).act Catalogue.anchored.element
        Catalogue.anchored.builder pairedVec neighboursStore).1.2 = some next → next.Exact) := by
  have hwords : ∀ deed ∈ paired, deed.InWord := by
    intro deed hmem
    simp only [paired, List.mem_cons, List.not_mem_nil, or_false] at hmem
    rcases hmem with rfl | rfl | rfl
    all_goals exact trivial
  have hreached : Reached Catalogue.anchored.stock Catalogue.anchored.care
      (tendedRun _ _ (fun _ => none) arenaStore paired) := Reached.start.afterRun hwords _
  have hrow : tendedRun Catalogue.anchored.stock Catalogue.anchored.care (fun _ => none)
      arenaStore paired 0 = some pairedVec := rfl
  have hhomed : pairedVec.Homed Catalogue.anchored.element neighboursStore.memory := by
    refine ⟨arenaStore.memory, neighbours, [⟨4096, 8, 192, 192⟩], rfl, by decide, rfl, ?_,
      by decide⟩
    exact .block (by decide) (by decide)
      ⟨rfl, rfl, by decide, by decide, by decide, by decide, by decide,
        fun h => absurd h (by decide : ¬ FreeList.granule < 1)⟩
  have hspare := moves_spare_elements Catalogue.anchored.stock
  obtain ⟨hexact, hroomy⟩ := hreached.exact rfl hrow
  refine ⟨hrow, hhomed, hspare.1 rfl _ _ hreached 0 pairedVec hrow neighboursStore hhomed, rfl, ?_,
    ?_⟩
  · exact hspare.2.1 _ _ (VecHistory.leaf_faithful Catalogue.anchored rfl) pairedVec hexact
  · intro next hnext
    exact (hspare.2.2 pairedVec hexact hroomy (.remove 0) trivial neighboursStore next hnext).1

end Row
end Freehold
