import Freehold.Proofs.Memory.Ranges
import Freehold.Proofs.Vec.Backing

/-!
# Vectors in machine words

A vector checks the product that is the size of a buffer, the doubled capacity, and a capacity
that is asked for by its distance from the length.  It does not check the addresses of its
slots, the length, or the number of elements behind an insertion.  These are words because the
buffer ends below the limit, and because a vector without a buffer has elements without a size.

What is computed in words reaches as far as the requests to the allocator.  A buffer from which
the elements were moved is given back after their code has run.
-/

namespace Freehold

/-- The address of a slot. -/
def Layout.slotInWords (element : Layout) (buffer index : Nat) : Option Nat := do
  let offset ← Word.mul? element.size index
  Word.add? buffer offset

theorem Layout.slotInWords_eq {element : Layout} {buffer index count : Nat}
    (hstop : buffer + element.size * count < Word.limit) (hle : index ≤ count) :
    element.slotInWords buffer index = some (buffer + element.size * index) := by
  have hoffset : element.size * index ≤ element.size * count := Nat.mul_le_mul_left _ hle
  unfold slotInWords
  rw [Word.mul?_eq (by omega)]
  exact Word.add?_eq (by omega)

namespace Vec

variable {α : Type}

/-! ## The computations -/

section Computations

variable (element : Element α)

def bufferLayoutInWords (vec : Vec α) : Option (Option Layout) :=
  if element.layout.size = 0 ∨ vec.capacity = 0 then pure none
  else element.layout.arrayInWords vec.capacity

def adoptInWords (vec : Vec α) (block : Block) : Option (Vec α) := do
  let capacity ← Word.div? block.size element.layout.size
  pure { vec with buffer := block.address, capacity }

def migrateInWords (source target : Nat) (slots : Slots α) : Nat → Reckoning (Slots α)
  | 0 => pure #[]
  | count + 1 => do
    let moved ← migrateInWords source target slots count
    let _ ← Reckoning.step (element.layout.slotInWords source count)
    let _ ← Reckoning.step (element.layout.slotInWords target count)
    match slots.read count with
    | none => pure moved
    | some value => do
      let value ← Reckoning.perform
        (element.relocateRecorded (.slot source count) (.slot target count) value)
      pure (moved.write count value)

def resizeInWords (vec : Vec α) (held wanted : Layout) : Reckoning (Vec α) := do
  let block ← Allocator.reallocateInWords vec.buffer held wanted.size
  Reckoning.perform (Effect.log .trace (resizedBuffer block.size))
  Reckoning.step (vec.adoptInWords element block)

def moveInWords (vec : Vec α) (held wanted : Layout) : Reckoning (Vec α) := do
  let block ← Allocator.allocateInWords wanted
  let slots ← migrateInWords element vec.buffer block.address vec.slots vec.length
  Reckoning.perform (Allocator.deallocate vec.buffer held)
  Reckoning.perform (Effect.log .trace (relocatedElements vec.length block.size))
  let moved ← Reckoning.step (vec.adoptInWords element block)
  pure { moved with slots := slots }

def regrowInWords (vec : Vec α) (held wanted : Layout) : Reckoning (Vec α) := do
  match ← (Allocator.expandInWords vec.buffer held wanted.size).caught with
  | .ok size => do
    Reckoning.perform (Effect.log .trace (grewInPlace size))
    let capacity ← Reckoning.step (Word.div? size element.layout.size)
    pure { vec with capacity }
  | .error _ =>
    if element.bitwise then vec.resizeInWords element held wanted
    else vec.moveInWords element held wanted

def reserveInWords (vec : Vec α) (capacity : Nat) : Reckoning (Vec α) :=
  if capacity ≤ vec.capacity then pure vec
  else do
    match ← Reckoning.step (element.layout.arrayInWords capacity) with
    | none => throw .integerOverflow
    | some wanted => do
      match ← Reckoning.step (vec.bufferLayoutInWords element) with
      | none => do
        let block ← Allocator.allocateInWords wanted
        Reckoning.step (vec.adoptInWords element block)
      | some held => vec.regrowInWords element held wanted

def reserveAdditionalInWords (vec : Vec α) (additional : Nat) : Reckoning (Vec α) :=
  match Word.add? vec.length additional with
  | none => throw .integerOverflow
  | some capacity => vec.reserveInWords element capacity

def growForOneInWords (vec : Vec α) : Reckoning (Vec α) :=
  if vec.length < vec.capacity then pure vec
  else if vec.capacity = 0 then vec.reserveInWords element firstCapacity
  else
    match Word.mul? vec.capacity 2 with
    | none => throw .integerOverflow
    | some capacity => vec.reserveInWords element capacity

def appendInWords (vec : Vec α) (value : α) : Option (Vec α) := do
  let _ ← element.layout.slotInWords vec.buffer vec.length
  let length ← Word.add? vec.length 1
  pure { vec with length, slots := vec.slots.write vec.length value }

def pushInWords (vec : Vec α) (value : α) : Reckoning (Vec α) := do
  let vec ← (vec.growForOneInWords element).undoing (Reckoning.perform (element.destroy value))
  Reckoning.step (vec.appendInWords element value)

def shiftUpInWords (buffer index : Nat) : Nat → Slots α → Reckoning (Slots α)
  | 0, slots => pure slots
  | count + 1, slots => do
    let source ← Reckoning.step (Word.add? index count)
    let target ← Reckoning.step (Word.add? source 1)
    let _ ← Reckoning.step (element.layout.slotInWords buffer source)
    let _ ← Reckoning.step (element.layout.slotInWords buffer target)
    let slots ← Reckoning.perform (moveSlot element buffer source target slots)
    shiftUpInWords buffer index count slots

/-- All bytes behind the gap are counted when they are moved at once. -/
def openGapInWords (vec : Vec α) (index : Nat) : Reckoning (Slots α) :=
  if element.bitwise then do
    let _ ← Reckoning.step (element.layout.slotInWords vec.buffer index)
    let target ← Reckoning.step (Word.add? index 1)
    let _ ← Reckoning.step (element.layout.slotInWords vec.buffer target)
    let count ← Reckoning.step (Word.sub? vec.length index)
    let _ ← Reckoning.step (Word.mul? element.layout.size count)
    pure (vec.slots.shift index target count)
  else do
    let count ← Reckoning.step (Word.sub? vec.length index)
    shiftUpInWords element vec.buffer index count vec.slots

def insertInWords (vec : Vec α) (index : Nat) (value : α) : Reckoning (Vec α) := do
  if vec.length < index then
    Reckoning.perform (element.destroy value)
    throw .outOfRange
  else
    let vec ← (vec.growForOneInWords element).undoing (Reckoning.perform (element.destroy value))
    let slots ← vec.openGapInWords element index
    let _ ← Reckoning.step (element.layout.slotInWords vec.buffer index)
    let length ← Reckoning.step (Word.add? vec.length 1)
    pure { vec with length, slots := slots.write index value }

end Computations

/-! ## What a vector relies on -/

/-- The allocator computes in words, and a vector that has a buffer has it from the allocator. -/
structure Sound (element : Element α) (regions : List Span) (memory : Memory) (vec : Vec α) :
    Prop where
  solid : memory.backend.Solid regions
  valid : element.layout.Valid
  roomy : vec.Roomy element
  word : vec.buffer < Word.limit
  block : element.layout.size ≠ 0 → 0 < vec.capacity → ∃ holding,
    memory.backend.Keeps regions holding ∧ holding.address = vec.buffer ∧
      holding.align = element.layout.align ∧ holding.Fits (element.layout.size * vec.capacity)

variable {element : Element α} {regions : List Span} {memory : Memory} {vec : Vec α}
  {store : Store} {capacity : Nat}

namespace Sound

theorem stop_lt (h : vec.Sound element regions memory) :
    vec.buffer + element.layout.size * vec.capacity < Word.limit := by
  have hword := h.word
  rcases Nat.eq_zero_or_pos (element.layout.size * vec.capacity) with hnone | hpos
  · omega
  · obtain ⟨holding, hkept, haddress, -, hfits⟩ := h.block
      (Nat.ne_of_gt (Nat.pos_of_mul_pos_right hpos)) (Nat.pos_of_mul_pos_left hpos)
    have hroom := hfits.2
    have hstop := Memory.stop_lt_of_kept h.solid hkept (by omega)
    omega

theorem capacity_lt (h : vec.Sound element regions memory) : vec.capacity < Word.limit := by
  by_cases hsized : element.layout.size = 0
  · rw [h.roomy.sizeless hsized]
    decide
  · have hstop := h.stop_lt
    have hle := Nat.le_mul_of_pos_left vec.capacity (Nat.pos_of_ne_zero hsized)
    omega

/-- A block that does not grow where it lies is still there. -/
theorem of_refused (h : vec.Sound element regions store.memory) {address wanted : Nat}
    {layout : Layout} {kind : ErrorKind} {after : Store}
    (hrefused : Allocator.expand address layout wanted store = (.error kind, after)) :
    vec.Sound element regions after.memory := by
  have hanswered := Allocator.expand_answered address layout wanted store
  rw [hrefused] at hanswered
  have hmemory : after.memory = store.memory := hanswered
  rw [hmemory]
  exact h

end Sound

/-- A growth that stays within the range of a word: a vector that has grown has the room that was
asked for, and one that has not is left alone with its memory. -/
def Served (element : Element α) (regions : List Span) (memory : Memory) (vec : Vec α)
    (capacity : Nat) : Except ErrorKind (Vec α) × Store → Prop
  | (.ok grown, _) =>
    grown.length = vec.length ∧ capacity ≤ grown.capacity ∧ grown.capacity < Word.limit ∧
      grown.buffer + element.layout.size * grown.capacity < Word.limit ∧
      (vec.capacity < capacity → ¬ memory.backend.Lacks regions
        ⟨element.layout.size * capacity, element.layout.align⟩)
  | (.error kind, after) => kind.OfSize ∧ after.memory = memory

/-- The room of a vector that has room for one more element. -/
def nextCapacity (vec : Vec α) : Nat :=
  if vec.length < vec.capacity then vec.capacity
  else if vec.capacity = 0 then firstCapacity
  else vec.capacity * 2

theorem length_lt_nextCapacity (h : vec.Roomy element) : vec.length < vec.nextCapacity := by
  have hlength := h.length_le
  unfold nextCapacity firstCapacity
  split
  · assumption
  split
  · omega
  · omega

theorem served_unchanged (h : vec.Sound element regions memory) (hle : capacity ≤ vec.capacity)
    (store : Store) : vec.Served element regions memory capacity (.ok vec, store) :=
  ⟨rfl, hle, h.capacity_lt, h.stop_lt, fun hmore => absurd hle (Nat.not_le_of_lt hmore)⟩

theorem served_of_block {grown : Vec α} {size : Nat} (hsized : element.layout.size ≠ 0)
    (hsize : element.layout.size * capacity ≤ size) (hstop : grown.buffer + size < Word.limit)
    (hroom : ¬ memory.backend.Lacks regions
      ⟨element.layout.size * capacity, element.layout.align⟩)
    (hcapacity : grown.capacity = size / element.layout.size)
    (hlength : grown.length = vec.length) :
    vec.Served element regions memory capacity (.ok grown, store) := by
  have hwithin : element.layout.size * grown.capacity ≤ size := by
    rw [hcapacity]
    exact Nat.mul_div_le _ _
  have hword := Nat.le_mul_of_pos_left grown.capacity (Nat.pos_of_ne_zero hsized)
  refine ⟨hlength, ?_, by omega, by omega, fun _ => hroom⟩
  rw [hcapacity]
  exact le_div_of_mul_le hsized hsize

theorem adoptInWords_eq (hsized : element.layout.size ≠ 0) (vec : Vec α) (block : Block) :
    vec.adoptInWords element block = some (vec.adopt element block) := by
  unfold adoptInWords
  rw [Word.div?_eq hsized]
  rfl

theorem exact_migrate {source target count : Nat} (slots : Slots α)
    (hsource : source + element.layout.size * count < Word.limit)
    (htarget : target + element.layout.size * count < Word.limit) (store : Store) :
    (migrateInWords element source target slots count).Exact
      (ExceptT.lift (migrate element source target slots count)) store := by
  induction count with
  | zero => rfl
  | succ count ih =>
    have hmore : element.layout.size * count ≤ element.layout.size * (count + 1) :=
      Nat.mul_le_mul_left _ (Nat.le_succ count)
    unfold migrateInWords migrate
    rw [Attempt.lift_bind]
    refine (ih (by omega) (by omega)).bind fun moved middle _ => ?_
    refine .step (Layout.slotInWords_eq hsource (Nat.le_succ count)) ?_
    refine .step (Layout.slotInWords_eq htarget (Nat.le_succ count)) ?_
    cases slots.read count with
    | none => exact Reckoning.exact_pure _ _
    | some value =>
      rw [Attempt.lift_bind]
      exact (Reckoning.exact_perform _ _).bind fun _ _ _ => Reckoning.exact_pure _ _

theorem bufferLayoutInWords_eq (hvalid : element.layout.Valid) (vec : Vec α) :
    vec.bufferLayoutInWords element = some (vec.bufferLayout? element) := by
  unfold bufferLayoutInWords bufferLayout?
  split
  · rfl
  · exact Layout.arrayInWords_eq hvalid vec.capacity

/-! ## Growth -/

/-- If there is a layout for more elements, there is one for those that have room. -/
theorem bufferLayout?_of_array? (hsized : element.layout.size ≠ 0) (hpos : 0 < vec.capacity)
    (hmore : vec.capacity < capacity) {wanted : Layout}
    (hwanted : element.layout.array? capacity = some wanted) :
    vec.bufferLayout? element =
      some ⟨element.layout.size * vec.capacity, element.layout.align⟩ := by
  have hfewer : element.layout.array? vec.capacity ≠ none :=
    Layout.array?_ne_none_of_le (Nat.le_of_lt hmore) (by simp [hwanted])
  obtain ⟨layout, hlayout⟩ := Option.ne_none_iff_exists'.1 hfewer
  unfold bufferLayout?
  rw [if_neg (by omega), hlayout, (array?_layout hlayout).2]

section Growth

variable (h : vec.Sound element regions store.memory)

include h

theorem move_exact (hsized : element.layout.size ≠ 0) (hmore : vec.capacity < capacity)
    (held : Layout) {wanted : Layout} (hwanted : element.layout.array? capacity = some wanted) :
    (vec.moveInWords element held wanted).Exact (vec.move element held wanted) store := by
  obtain ⟨hvalid, rfl⟩ := array?_layout hwanted
  have hranged := Allocator.allocate_ranged h.solid hvalid
  have hlength : element.layout.size * vec.length ≤ element.layout.size * vec.capacity :=
    Nat.mul_le_mul_left _ h.roomy.length_le
  have hlt := size_lt hsized hmore
  have hsource := h.stop_lt
  refine (Allocator.allocate_exact h.solid hvalid).bind fun block middle hrun => ?_
  rw [hrun] at hranged
  obtain ⟨hlarge, hstop, -⟩ := hranged
  dsimp only at hlarge
  refine (exact_migrate vec.slots (by omega) (by omega) middle).bind fun slots _ _ => ?_
  refine (Reckoning.exact_perform _ _).bind fun _ _ _ => ?_
  refine (Reckoning.exact_perform _ _).bind fun _ _ _ => ?_
  exact .step (adoptInWords_eq hsized vec block) (Reckoning.exact_pure _ _)

theorem move_served (hsized : element.layout.size ≠ 0) (held : Layout) {wanted : Layout}
    (hwanted : element.layout.array? capacity = some wanted) :
    vec.Served element regions store.memory capacity (vec.move element held wanted store) := by
  obtain ⟨hvalid, rfl⟩ := array?_layout hwanted
  have hranged := Allocator.allocate_ranged h.solid hvalid
  unfold move
  rw [Attempt.bind_apply]
  generalize Allocator.allocate _ store = run at hranged ⊢
  obtain ⟨answer, middle⟩ := run
  cases answer with
  | error kind => exact hranged
  | ok block =>
    obtain ⟨hlarge, hstop, hroom⟩ := hranged
    have hserved : vec.Served element regions store.memory capacity
        (.ok (vec.adopt element block), middle) :=
      served_of_block hsized hlarge hstop hroom rfl rfl
    exact hserved

section Held

variable (hsized : element.layout.size ≠ 0) (hpos : 0 < vec.capacity)

include hsized hpos

/-- The block of the vector, with the layout that is computed for it. -/
theorem held_block : ∃ holding, store.memory.backend.Keeps regions holding ∧
    holding.address = vec.buffer ∧ 0 < holding.recorded ∧ holding.align = element.layout.align ∧
      holding.align ≤ 1 <<< 63 ∧ holding.Fits (element.layout.size * vec.capacity) ∧
      holding.layout (element.layout.size * vec.capacity) =
        ⟨element.layout.size * vec.capacity, element.layout.align⟩ := by
  obtain ⟨holding, hkept, haddress, halign, hfits⟩ := h.block hsized hpos
  have hroom := Nat.mul_pos (Nat.pos_of_ne_zero hsized) hpos
  refine ⟨holding, hkept, haddress, Nat.lt_of_lt_of_le hroom hfits.2, halign, ?_, hfits, ?_⟩
  · rw [halign]
    exact h.valid.align_le
  · rw [Holding.layout, halign]

theorem resize_exact (wanted : Layout) :
    (vec.resizeInWords element ⟨element.layout.size * vec.capacity, element.layout.align⟩
        wanted).Exact
      (vec.resize element ⟨element.layout.size * vec.capacity, element.layout.align⟩ wanted)
      store := by
  obtain ⟨holding, hkept, haddress, hfilled, -, hpower, hfits, hlayout⟩ :=
    held_block h hsized hpos
  have hasked := Memory.reallocateInWords_eq h.solid hkept hfilled hfits hpower wanted.size
  rw [haddress, hlayout] at hasked
  refine Reckoning.Exact.bind (Allocator.exact_counted hasked _) fun block middle _ => ?_
  refine (Reckoning.exact_perform _ _).bind fun _ _ _ => ?_
  exact .last (adoptInWords_eq hsized vec block)

theorem resize_served {wanted : Layout}
    (hwanted : wanted = ⟨element.layout.size * capacity, element.layout.align⟩) :
    vec.Served element regions store.memory capacity (vec.resize element
      ⟨element.layout.size * vec.capacity, element.layout.align⟩ wanted store) := by
  subst hwanted
  obtain ⟨holding, hkept, haddress, hfilled, halign, -, hfits, hlayout⟩ :=
    held_block h hsized hpos
  have hmeets := Memory.reallocate_meets h.solid hkept hfilled hfits
    (element.layout.size * capacity)
  rw [haddress, hlayout, Holding.layout, halign] at hmeets
  have hranged : Allocator.Ranged regions store.memory
      ⟨element.layout.size * capacity, element.layout.align⟩ (Allocator.reallocate vec.buffer
        ⟨element.layout.size * vec.capacity, element.layout.align⟩
        (element.layout.size * capacity) store) := Allocator.counted_ranged hmeets _
  unfold resize
  rw [Attempt.bind_apply]
  generalize Allocator.reallocate vec.buffer _ _ store = run at hranged ⊢
  obtain ⟨answer, middle⟩ := run
  cases answer with
  | error kind => exact hranged
  | ok block =>
    obtain ⟨hlarge, hstop, hroom⟩ := hranged
    have hserved : vec.Served element regions store.memory capacity
        (.ok (vec.adopt element block), middle) :=
      served_of_block hsized hlarge hstop hroom rfl rfl
    exact hserved

theorem regrow_exact (hmore : vec.capacity < capacity) {wanted : Layout}
    (hwanted : element.layout.array? capacity = some wanted) :
    (vec.regrowInWords element ⟨element.layout.size * vec.capacity, element.layout.align⟩
        wanted).Exact
      (vec.regrow element ⟨element.layout.size * vec.capacity, element.layout.align⟩ wanted)
      store := by
  obtain ⟨holding, hkept, haddress, hfilled, -, -, hfits, hlayout⟩ := held_block h hsized hpos
  have hasked := Memory.expandInWords_eq h.solid hkept hfilled hfits wanted.size
  rw [haddress, hlayout] at hasked
  refine (Allocator.exact_expand hasked).caught.bind fun answer middle hrun => ?_
  cases answer with
  | ok size =>
    refine (Reckoning.exact_perform _ _).bind fun _ _ _ => ?_
    exact .step (Word.div?_eq hsized) (Reckoning.exact_pure _ _)
  | error kind =>
    have hrefused : Allocator.expand vec.buffer
        ⟨element.layout.size * vec.capacity, element.layout.align⟩ wanted.size store =
          (.error kind, middle) := by
      rw [Attempt.lift_apply] at hrun
      obtain ⟨hkind, hmiddle⟩ := Prod.mk.inj hrun
      exact Prod.ext (Except.ok.inj hkind) hmiddle
    have hsound := h.of_refused hrefused
    dsimp only
    cases element.bitwise with
    | true => exact resize_exact hsound hsized hpos wanted
    | false => exact move_exact hsound hsized hmore _ hwanted

theorem regrow_served {wanted : Layout}
    (hwanted : element.layout.array? capacity = some wanted) :
    vec.Served element regions store.memory capacity (vec.regrow element
      ⟨element.layout.size * vec.capacity, element.layout.align⟩ wanted store) := by
  obtain ⟨holding, hkept, haddress, hfilled, halign, -, hfits, hlayout⟩ :=
    held_block h hsized hpos
  have hlayouts := (array?_layout hwanted).2
  have hanswered := Allocator.expand_answered vec.buffer
    ⟨element.layout.size * vec.capacity, element.layout.align⟩ wanted.size store
  unfold regrow
  rw [Attempt.bind_apply, Attempt.lift_apply]
  cases hrun : (Allocator.expand vec.buffer
      ⟨element.layout.size * vec.capacity, element.layout.align⟩ wanted.size).run store with
  | mk answer middle =>
    have hrun' : Allocator.expand vec.buffer
        ⟨element.layout.size * vec.capacity, element.layout.align⟩ wanted.size store =
          (answer, middle) := hrun
    rw [hrun'] at hanswered
    cases answer with
    | ok size =>
      have hgrown : store.memory.expand holding.address
          (holding.layout (element.layout.size * vec.capacity))
          (element.layout.size * capacity) = .ok (size, middle.memory) := by
        rw [haddress, hlayout]
        rw [hlayouts] at hanswered
        exact hanswered
      obtain ⟨place, hplace⟩ := Memory.expand_places h.solid hkept hfilled hfits hgrown
      rw [haddress, Holding.layout, halign] at hplace
      have hserved : vec.Served element regions store.memory capacity
          (.ok (vec.adopt element ⟨vec.buffer, size⟩), middle) :=
        served_of_block hsized hplace.large hplace.stop_lt hplace.not_lacks rfl rfl
      exact hserved
    | error kind =>
      have hsound := h.of_refused hrun'
      have hmemory : middle.memory = store.memory := hanswered
      rw [← hmemory]
      dsimp only
      cases element.bitwise with
      | true => exact resize_served hsound hsized hpos hlayouts
      | false => exact move_served hsound hsized _ hwanted

end Held

theorem reserve_exact (hword : capacity < Word.limit) :
    (vec.reserveInWords element capacity).Exact (vec.reserve element capacity) store := by
  unfold reserveInWords reserve
  by_cases hle : capacity ≤ vec.capacity
  · rw [if_pos hle, if_pos hle]
    exact Reckoning.exact_pure _ _
  have hmore := Nat.lt_of_not_le hle
  have hsized : element.layout.size ≠ 0 := fun hzero => hle (h.roomy.le_capacity hzero hword)
  rw [if_neg hle, if_neg hle]
  refine .step (Layout.arrayInWords_eq h.valid capacity) ?_
  cases hwanted : element.layout.array? capacity with
  | none => exact Reckoning.exact_throw _ _
  | some wanted =>
    refine .step (bufferLayoutInWords_eq h.valid vec) ?_
    rcases Nat.eq_zero_or_pos vec.capacity with hnone | hpos
    · rw [bufferLayout?, if_pos (Or.inr hnone)]
      refine (Allocator.allocate_exact h.solid (array?_layout hwanted).1).bind
        fun block middle _ => ?_
      exact .last (adoptInWords_eq hsized vec block)
    · rw [bufferLayout?_of_array? hsized hpos hmore hwanted]
      exact regrow_exact h hsized hpos hmore hwanted

theorem reserve_served (hword : capacity < Word.limit) :
    vec.Served element regions store.memory capacity (vec.reserve element capacity store) := by
  unfold reserve
  by_cases hle : capacity ≤ vec.capacity
  · rw [if_pos hle]
    exact served_unchanged h hle store
  have hmore := Nat.lt_of_not_le hle
  have hsized : element.layout.size ≠ 0 := fun hzero => hle (h.roomy.le_capacity hzero hword)
  rw [if_neg hle]
  cases hwanted : element.layout.array? capacity with
  | none => exact ⟨ErrorKind.ofSize_integerOverflow, rfl⟩
  | some wanted =>
    rcases Nat.eq_zero_or_pos vec.capacity with hnone | hpos
    · obtain ⟨hvalid, rfl⟩ := array?_layout hwanted
      have hranged := Allocator.allocate_ranged h.solid hvalid
      rw [bufferLayout?, if_pos (Or.inr hnone)]
      dsimp only
      rw [Attempt.bind_apply]
      generalize Allocator.allocate _ store = run at hranged ⊢
      obtain ⟨answer, middle⟩ := run
      cases answer with
      | error kind => exact hranged
      | ok block =>
        obtain ⟨hlarge, hstop, hroom⟩ := hranged
        have hserved : vec.Served element regions store.memory capacity
            (.ok (vec.adopt element block), middle) :=
          served_of_block hsized hlarge hstop hroom rfl rfl
        exact hserved
    · rw [bufferLayout?_of_array? hsized hpos hmore hwanted]
      exact regrow_served h hsized hpos hwanted

theorem reserveAdditional_exact (additional : Nat) :
    (vec.reserveAdditionalInWords element additional).Exact
      (vec.reserveAdditional element additional) store := by
  unfold reserveAdditionalInWords reserveAdditional
  cases hcapacity : Word.add? vec.length additional with
  | none => exact Reckoning.exact_throw _ _
  | some capacity =>
    obtain ⟨hword, rfl⟩ := Word.fit?_eq_some_iff.1 hcapacity
    exact reserve_exact h hword

theorem reserveAdditional_served (additional : Nat) :
    vec.Served element regions store.memory (vec.length + additional)
      (vec.reserveAdditional element additional store) := by
  unfold reserveAdditional
  cases hcapacity : Word.add? vec.length additional with
  | none => exact ⟨ErrorKind.ofSize_integerOverflow, rfl⟩
  | some capacity =>
    obtain ⟨hword, rfl⟩ := Word.fit?_eq_some_iff.1 hcapacity
    exact reserve_served h hword

theorem growForOne_exact :
    (vec.growForOneInWords element).Exact (vec.growForOne element) store := by
  unfold growForOneInWords growForOne
  split
  · exact Reckoning.exact_pure _ _
  split
  · exact reserve_exact h (by decide)
  · cases hcapacity : Word.mul? vec.capacity 2 with
    | none => exact Reckoning.exact_throw _ _
    | some capacity =>
      obtain ⟨hword, rfl⟩ := Word.fit?_eq_some_iff.1 hcapacity
      exact reserve_exact h hword

theorem growForOne_served :
    vec.Served element regions store.memory vec.nextCapacity (vec.growForOne element store) := by
  unfold growForOne nextCapacity
  split
  · exact served_unchanged h (Nat.le_refl _) store
  split
  · exact reserve_served h (by decide)
  · cases hcapacity : Word.mul? vec.capacity 2 with
    | none => exact ⟨ErrorKind.ofSize_integerOverflow, rfl⟩
    | some capacity =>
      obtain ⟨hword, rfl⟩ := Word.fit?_eq_some_iff.1 hcapacity
      exact reserve_served h hword

/-! ## Insertions -/

theorem push_exact (value : α) :
    (vec.pushInWords element value).Exact (vec.push element value) store := by
  have hserved := growForOne_served h
  have hnext := length_lt_nextCapacity h.roomy
  refine ((growForOne_exact h).undoing fun middle => Reckoning.exact_perform _ _).bind
    fun grown middle hrun => .last ?_
  rw [Attempt.undoing_ok hrun] at hserved
  obtain ⟨hlength, hroom, hword, hstop, -⟩ := hserved
  have hinside : grown.length ≤ grown.capacity := by omega
  unfold appendInWords append
  rw [Layout.slotInWords_eq hstop hinside, Word.add?_eq (by omega)]
  rfl

end Growth

section Shifting

variable (hstop : vec.buffer + element.layout.size * capacity < Word.limit)
  (hword : capacity < Word.limit)

include hstop hword

theorem exact_shiftUp {index count : Nat} (hroom : index + count < capacity) (slots : Slots α)
    (store : Store) :
    (shiftUpInWords element vec.buffer index count slots).Exact
      (ExceptT.lift (shiftUp element vec.buffer index count slots)) store := by
  induction count generalizing slots store with
  | zero => rfl
  | succ count ih =>
    unfold shiftUpInWords shiftUp
    rw [Attempt.lift_bind]
    refine .step (Word.add?_eq (by omega)) (.step (Word.add?_eq (by omega)) ?_)
    refine .step (Layout.slotInWords_eq hstop (by omega)) ?_
    refine .step (Layout.slotInWords_eq hstop (by omega)) ?_
    exact (Reckoning.exact_perform _ _).bind fun slots middle _ => ih (by omega) slots middle

theorem openGap_exact {index : Nat} (hindex : index ≤ vec.length) (hroom : vec.length < capacity)
    (store : Store) :
    (vec.openGapInWords element index).Exact (ExceptT.lift (vec.openGap element index)) store := by
  have hcount : element.layout.size * (vec.length - index) ≤ element.layout.size * capacity :=
    Nat.mul_le_mul_left _ (by omega)
  unfold openGapInWords openGap
  cases element.bitwise with
  | true =>
    refine .step (Layout.slotInWords_eq hstop (by omega)) (.step (Word.add?_eq (by omega)) ?_)
    refine .step (Layout.slotInWords_eq hstop (by omega)) (.step (Word.sub?_eq hindex) ?_)
    exact .step (Word.mul?_eq (by omega)) (Reckoning.exact_pure _ _)
  | false =>
    exact .step (Word.sub?_eq hindex) (exact_shiftUp hstop hword (by omega) vec.slots store)

end Shifting

theorem insert_exact (h : vec.Sound element regions store.memory) (index : Nat) (value : α) :
    (vec.insertInWords element index value).Exact (vec.insert element index value) store := by
  have hserved := growForOne_served h
  have hnext := length_lt_nextCapacity h.roomy
  unfold insertInWords Vec.insert
  by_cases houtside : vec.length < index
  · rw [if_pos houtside, if_pos houtside]
    exact (Reckoning.exact_perform _ _).bind fun _ _ _ => Reckoning.exact_throw _ _
  rw [if_neg houtside, if_neg houtside]
  refine ((growForOne_exact h).undoing fun middle => Reckoning.exact_perform _ _).bind
    fun grown middle hrun => ?_
  rw [Attempt.undoing_ok hrun] at hserved
  obtain ⟨hlength, hroom, hword, hstop, -⟩ := hserved
  refine (openGap_exact hstop hword (by omega) (by omega) middle).bind fun slots after _ => ?_
  refine .step (Layout.slotInWords_eq hstop (by omega)) (.step (Word.add?_eq (by omega)) ?_)
  exact Reckoning.exact_pure _ _

end Vec
end Freehold
