import Freehold.Proofs.Memory.Record
import Freehold.Proofs.Vec.ListRefinement
import Freehold.Proofs.Vec.Twins

/-!
# Moves of elements

What a vector does is a course of steps: relocations, calls of the allocator, and between
them the code of its elements and lines for the log.  The course of a growth tells which
elements were relocated, in which order, and between which calls; the course of any other
part of a call tells which elements were shifted to open or to close a gap.
-/

namespace Freehold

/-! ## Courses -/

section Courses

variable {α γ : Type}

/-- One step of a vector, with the relocation or the call that it is. -/
inductive Step (stock : Stock α γ) : Store → List Entry → Store → Prop
  | relocate (source target : Spot) (value : α) (store : Store) :
    Step stock store [.relocation source target]
      (stock.element.relocateRecorded source target value store).2
  | allocate (layout : Layout) (store : Store) :
    Step stock store [.call (.allocate layout (Allocator.allocate layout store).1)]
      (Allocator.allocate layout store).2
  | expand (address : Nat) (layout : Layout) (wanted : Nat) (store : Store) :
    Step stock store
      [.call (.expand address layout.size wanted
        (Allocator.expand address layout wanted store).1)]
      (Allocator.expand address layout wanted store).2
  | deallocate (address : Nat) (layout : Layout) (store : Store) :
    Step stock store [.call (.deallocate address layout)]
      (Allocator.deallocate address layout store).2
  | advise (address count : Nat) (hint : UsageHint) (store : Store) :
    Step stock store [.call (.advise address count hint)]
      (Allocator.advise address count hint store).2
  | log (level : Level) (message : String) (store : Store) :
    Step stock store [] (Effect.log level message store).2
  | destroy (value : α) (store : Store) :
    Step stock store [] (stock.element.destroy value store).2
  | construct (spot : Spot) (args : γ) (store : Store) :
    Step stock store [] (stock.builder.constructAt spot args store).2
  | copy (spot : Spot) (value : α) (store : Store) :
    Step stock store [] (stock.copier.cloneAt spot value store).2

/-- From one store to another by some steps, one after the other. -/
inductive Course (stock : Stock α γ) : Store → List Entry → Store → Prop
  | done (store : Store) : Course stock store [] store
  | step {before middle after : Store} {first later : List Entry}
    (hfirst : Step stock before first middle) (hlater : Course stock middle later after) :
    Course stock before (first ++ later) after

/-- From one store to another by steps of which these are the relocations. -/
def Stock.Relocates (stock : Stock α γ) (before after : Store) (moves : List (Spot × Spot)) :
    Prop :=
  ∃ steps, Course stock before steps after ∧ relocations steps = moves

/-- The effect comes to a course without relocations. -/
def Stock.Idle {δ : Type} (stock : Stock α γ) (effect : Effect δ) : Prop :=
  effect.Leads fun before after => stock.Relocates before after []

/-- The code of the elements puts no relocations on record, which is left to the vectors. -/
structure Stock.Tacit (stock : Stock α γ) : Prop where
  relocates : ∀ source target value, (stock.element.relocate source target value).Still
  destroys : ∀ value, (stock.element.destroy value).Still
  builds : ∀ spot args, Attempt.Still (stock.builder.constructAt spot args)
  copies : ∀ spot value, Attempt.Still (stock.copier.cloneAt spot value)

variable {stock : Stock α γ} {before middle after : Store} {steps later : List Entry}
  {moves next : List (Spot × Spot)}

theorem Course.single (h : Step stock before steps after) : Course stock before steps after := by
  have hcourse := Course.step h (.done after)
  rwa [List.append_nil] at hcourse

theorem Course.trans (h : Course stock before steps middle)
    (hlater : Course stock middle later after) : Course stock before (steps ++ later) after := by
  induction h with
  | done store => exact hlater
  | step hfirst hrest ih =>
    rw [List.append_assoc]
    exact .step hfirst (ih hlater)

theorem Course.relocates (h : Course stock before steps after) :
    stock.Relocates before after (relocations steps) := ⟨steps, h, rfl⟩

namespace Stock

theorem Relocates.refl (stock : Stock α γ) (store : Store) : stock.Relocates store store [] :=
  ⟨[], .done store, rfl⟩

theorem Relocates.trans (h : stock.Relocates before middle moves)
    (hnext : stock.Relocates middle after next) : stock.Relocates before after (moves ++ next) := by
  obtain ⟨steps, hcourse, rfl⟩ := h
  obtain ⟨later, hlater, rfl⟩ := hnext
  exact ⟨steps ++ later, hcourse.trans hlater, relocations_append steps later⟩

theorem habit (stock : Stock α γ) :
    Habit fun before after => stock.Relocates before after [] where
  refl := .refl stock
  trans h hnext := h.trans hnext

theorem idle_destroy (stock : Stock α γ) (value : α) : stock.Idle (stock.element.destroy value) :=
  fun store => (Course.single (.destroy value store)).relocates

theorem idle_construct (stock : Stock α γ) (spot : Spot) (args : γ) :
    stock.Idle (stock.builder.constructAt spot args).run :=
  fun store => (Course.single (.construct spot args store)).relocates

theorem idle_copy (stock : Stock α γ) (spot : Spot) (value : α) :
    stock.Idle (stock.copier.cloneAt spot value).run :=
  fun store => (Course.single (.copy spot value store)).relocates

theorem idle_destroyAll (stock : Stock α γ) (values : List α) :
    stock.Idle (stock.element.destroyAll values) := by
  induction values with
  | nil => exact stock.habit.pure ()
  | cons value rest ih => exact stock.habit.bind (idle_destroy stock value) fun _ => ih

theorem idle_clear (stock : Stock α γ) (vec : Vec α) : stock.Idle (vec.clear stock.element) := by
  unfold Vec.clear
  refine stock.habit.bind (idle_destroyAll stock vec.toList) fun _ => ?_
  cases vec.bufferLayout? stock.element with
  | none => exact stock.habit.pure _
  | some held =>
    by_cases hlarge : Vec.discardThreshold ≤ held.size
    · simp only [hlarge, if_true]
      refine stock.habit.bind (fun store => ?_) fun _ => stock.habit.pure _
      exact (Course.single (.advise _ _ _ store)).relocates
    · simp only [hlarge, if_false]
      exact stock.habit.pure _

theorem idle_drop (stock : Stock α γ) (vec : Vec α) : stock.Idle (vec.drop stock.element) := by
  unfold Vec.drop
  refine stock.habit.bind (idle_destroyAll stock vec.toList) fun _ => ?_
  cases vec.bufferLayout? stock.element with
  | none => exact stock.habit.pure _
  | some held => exact fun store => (Course.single (.deallocate _ _ store)).relocates

end Stock

/-- The record of a tacit type lists the relocations of a course. -/
theorem Course.on_record (htacit : stock.Tacit) (h : Course stock before steps after) :
    before.Moves after (relocations steps) := by
  induction h with
  | done store => exact .refl store
  | step hfirst _ ih =>
    rw [relocations_append]
    refine Store.Moves.trans ?_ ih
    cases hfirst with
    | relocate source target value =>
      have hrecord (store : Store) : store.Moves
          (Effect.record (.relocation source target) store).2 [(source, target)] :=
        ⟨[.relocation source target], rfl, rfl⟩
      -- The vector records the relocation before the code of the element runs.
      exact (hrecord _).trans (htacit.relocates source target value _)
    | allocate layout => exact Allocator.still_allocate layout _
    | expand address layout wanted => exact Allocator.still_expand address layout wanted _
    | deallocate address layout => exact Allocator.still_deallocate address layout _
    | advise address count hint => exact Allocator.still_advise address count hint _
    | log level message => exact Effect.still_log level message _
    | destroy value => exact htacit.destroys value _
    | construct spot args => exact htacit.builds spot args _
    | copy spot value => exact htacit.copies spot value _

end Courses

/-! ## Moving elements -/

namespace Vec

variable {α γ : Type} {stock : Stock α γ}

/-- The entries for some relocations. -/
def relocating (moves : List (Spot × Spot)) : List Entry :=
  moves.map fun move => .relocation move.1 move.2

@[simp] theorem relocations_relocating (moves : List (Spot × Spot)) :
    relocations (relocating moves) = moves := by
  unfold relocations relocating
  rw [List.filterMap_map]
  exact List.filterMap_some

/-- From every slot up to a count to the same slot of another buffer. -/
def transfers (source target count : Nat) : List (Spot × Spot) :=
  (List.range count).map fun index => (.slot source index, .slot target index)

/-- From each of some slots to the slot after it, the last one first. -/
def rises (buffer index count : Nat) : List (Spot × Spot) :=
  (List.range' index count).reverse.map fun place =>
    (.slot buffer place, .slot buffer (place + 1))

/-- To each of some slots from the slot after it, the first one first. -/
def falls (buffer index count : Nat) : List (Spot × Spot) :=
  (List.range' index count).map fun place => (.slot buffer (place + 1), .slot buffer place)

theorem length_rises (buffer index count : Nat) : (rises buffer index count).length = count := by
  simp [rises]

theorem length_falls (buffer index count : Nat) : (falls buffer index count).length = count := by
  simp [falls]

theorem read_moveSlot (element : Element α) (buffer : Nat) {source target : Nat}
    (slots : Slots α) (store : Store) {index : Nat} (hsource : index ≠ source)
    (htarget : index ≠ target) :
    (moveSlot element buffer source target slots store).1.read index = slots.read index := by
  unfold moveSlot
  cases slots.read source with
  | none => rfl
  | some value =>
    show Slots.read ((slots.clear source).write target _) index = _
    rw [Slots.read_write_of_ne _ _ htarget, Slots.read_clear_of_ne _ hsource]

theorem moveSlot_course {slots : Slots α} {source : Nat} (hlive : (slots.read source).isSome)
    (buffer target : Nat) (store : Store) :
    Course stock store (relocating [(.slot buffer source, .slot buffer target)])
      (moveSlot stock.element buffer source target slots store).2 := by
  unfold moveSlot
  cases hslot : slots.read source with
  | none =>
    rw [hslot] at hlive
    cases hlive
  | some value => exact .single (.relocate _ _ value store)

theorem migrate_course (source target : Nat) {slots : Slots α} {count : Nat}
    (hlive : ∀ index, index < count → (slots.read index).isSome) (store : Store) :
    Course stock store (relocating (transfers source target count))
      (migrate stock.element source target slots count store).2 := by
  induction count with
  | zero => exact .done store
  | succ count ih =>
    have hearlier := ih fun index hlt => hlive index (Nat.lt_succ_of_lt hlt)
    have hlast := hlive count (Nat.lt_succ_self count)
    have htransfers : relocating (transfers source target (count + 1)) =
        relocating (transfers source target count) ++
          [.relocation (.slot source count) (.slot target count)] := by
      simp [relocating, transfers, List.range_succ]
    unfold migrate
    rw [Effect.bind_apply, htransfers]
    cases hslot : slots.read count with
    | none =>
      rw [hslot] at hlast
      cases hlast
    | some value => exact hearlier.trans (.single (.relocate _ _ value _))

theorem shiftUp_course (buffer index : Nat) {count : Nat} {slots : Slots α}
    (hlive : ∀ place, index ≤ place → place < index + count → (slots.read place).isSome)
    (store : Store) :
    Course stock store (relocating (rises buffer index count))
      (shiftUp stock.element buffer index count slots store).2 := by
  induction count generalizing slots store with
  | zero => exact .done store
  | succ count ih =>
    have hfirst : Course stock store _ _ :=
      moveSlot_course (hlive (index + count) (by omega) (by omega)) buffer (index + count + 1)
        store
    have hrises : relocating (rises buffer index (count + 1)) =
        relocating [(.slot buffer (index + count), .slot buffer (index + count + 1))] ++
          relocating (rises buffer index count) := by
      simp [relocating, rises, List.range'_concat]
    unfold shiftUp
    rw [Effect.bind_apply, hrises]
    refine hfirst.trans (ih ?_ _)
    intro place hle hlt
    rw [read_moveSlot stock.element buffer slots store (by omega) (by omega)]
    exact hlive place hle (by omega)

theorem shiftDown_course (buffer : Nat) {index count : Nat} {slots : Slots α}
    (hlive : ∀ place, index < place → place ≤ index + count → (slots.read place).isSome)
    (store : Store) :
    Course stock store (relocating (falls buffer index count))
      (shiftDown stock.element buffer index count slots store).2 := by
  induction count generalizing index slots store with
  | zero => exact .done store
  | succ count ih =>
    have hfirst : Course stock store _ _ :=
      moveSlot_course (hlive (index + 1) (by omega) (by omega)) buffer index store
    have hfalls : relocating (falls buffer index (count + 1)) =
        relocating [(.slot buffer (index + 1), .slot buffer index)] ++
          relocating (falls buffer (index + 1) count) := by
      simp [relocating, falls, List.range'_succ]
    unfold shiftDown
    rw [Effect.bind_apply, hfalls]
    refine hfirst.trans (ih ?_ _)
    intro place hlt hle
    rw [read_moveSlot stock.element buffer slots store (by omega) (by omega)]
    exact hlive place (by omega) (by omega)

/-! ## Growth -/

/-- The elements of the vector are there. -/
def Live (vec : Vec α) : Prop := ∀ index, index < vec.length → (vec.slots.read index).isSome

/-- The ways in which a vector of elements with a relocation of their own gets more room, or
does not. -/
inductive Growth (stock : Stock α γ) (vec : Vec α) (store : Store) :
    Except ErrorKind (Vec α) × Store → Prop
  | enough : Growth stock vec store (.ok vec, store)
  /-- A vector without a buffer gets one. -/
  | first {wanted : Layout} {block : Block} {after : Store} (hempty : vec.length = 0)
    (hcourse : Course stock store [.call (.allocate wanted (.ok block))] after) :
    Growth stock vec store (.ok (vec.adopt stock.element block), after)
  | inPlace {held wanted : Layout} {size : Nat} {after : Store}
    (hcourse : Course stock store
      [.call (.expand vec.buffer held.size wanted.size (.ok size))] after) :
    Growth stock vec store (.ok { vec with capacity := size / stock.element.layout.size }, after)
  | moved {held wanted : Layout} {block : Block} {kind : ErrorKind} {middle after : Store}
    (hcourse : Course stock store
      ([.call (.expand vec.buffer held.size wanted.size (.error kind)),
          .call (.allocate wanted (.ok block))] ++
        relocating (transfers vec.buffer block.address vec.length) ++
        [.call (.deallocate vec.buffer held)]) after) :
    Growth stock vec store
      (.ok { vec.adopt stock.element block with
        slots := (migrate stock.element vec.buffer block.address vec.slots vec.length
          middle).1 }, after)
  | failed {kind : ErrorKind} {after : Store} (hidle : stock.Relocates store after []) :
    Growth stock vec store (.error kind, after)

theorem log_course {before after : Store} {steps : List Entry} (h : Course stock before steps after)
    (level : Level) (message : String) :
    Course stock before steps (Effect.log level message after).2 := by
  have hlogged := h.trans (.single (.log level message after))
  rwa [List.append_nil] at hlogged

theorem move_growth {vec : Vec α} (hlive : vec.Live) (held wanted : Layout)
    {store middle : Store} {kind : ErrorKind}
    (hexpand : Course stock store
      [.call (.expand vec.buffer held.size wanted.size (.error kind))] middle) :
    Growth stock vec store (vec.move stock.element held wanted middle) := by
  have hboth := hexpand.trans (.single (.allocate wanted middle))
  unfold move
  rw [Attempt.bind_apply]
  generalize Allocator.allocate wanted middle = run at hboth ⊢
  obtain ⟨answer, after⟩ := run
  cases answer with
  | error kind => exact .failed hboth.relocates
  | ok block =>
    have hmigrated : Course stock after _ _ :=
      migrate_course vec.buffer block.address hlive after
    have hfreed := (hboth.trans hmigrated).trans (.single (.deallocate vec.buffer held _))
    exact .moved (log_course hfreed .trace (relocatedElements vec.length block.size))

theorem regrow_growth (hbitwise : stock.element.bitwise = false) {vec : Vec α}
    (hlive : vec.Live) (held wanted : Layout) (store : Store) :
    Growth stock vec store (vec.regrow stock.element held wanted store) := by
  have hasked : Course stock store _ _ :=
    .single (.expand vec.buffer held wanted.size store)
  unfold regrow
  rw [Attempt.bind_apply, Attempt.lift_apply]
  cases hrun : Allocator.expand vec.buffer held wanted.size store with
  | mk answer middle =>
    have hrun' : (Allocator.expand vec.buffer held wanted.size).run store = (answer, middle) :=
      hrun
    rw [hrun] at hasked
    rw [hrun']
    cases answer with
    | ok size => exact .inPlace (log_course hasked .trace (grewInPlace size))
    | error kind =>
      dsimp only
      rw [hbitwise]
      exact move_growth hlive held wanted hasked

/-- A vector that holds no block although a larger one has a layout has no room at all. -/
theorem capacity_eq_zero {element : Element α} {vec : Vec α} {capacity : Nat} {wanted : Layout}
    (hsized : element.layout.size ≠ 0) (hmore : vec.capacity < capacity)
    (hwanted : element.layout.array? capacity = some wanted)
    (hheld : vec.bufferLayout? element = none) : vec.capacity = 0 := by
  by_contra hpos
  rw [bufferLayout?, if_neg (by omega)] at hheld
  exact Layout.array?_ne_none_of_le (Nat.le_of_lt hmore) (by simp [hwanted]) hheld

section Room

variable {vec : Vec α} (hbitwise : stock.element.bitwise = false) (hlive : vec.Live)
  (hroomy : vec.Roomy stock.element)

include hbitwise hlive hroomy

theorem reserve_growth {capacity : Nat}
    (hword : stock.element.layout.size = 0 → capacity < Word.limit) (store : Store) :
    Growth stock vec store (vec.reserve stock.element capacity store) := by
  unfold reserve
  by_cases hle : capacity ≤ vec.capacity
  · rw [if_pos hle]
    exact .enough
  rw [if_neg hle]
  have hsized : stock.element.layout.size ≠ 0 := fun hsizeless =>
    hle (hroomy.le_capacity hsizeless (hword hsizeless))
  cases hwanted : stock.element.layout.array? capacity with
  | none => exact .failed (.refl stock store)
  | some wanted =>
    cases hheld : vec.bufferLayout? stock.element with
    | some held => exact regrow_growth hbitwise hlive held wanted store
    | none =>
      -- Without a block there is no room, hence there are no elements to be moved.
      have hnone := capacity_eq_zero hsized (Nat.lt_of_not_le hle) hwanted hheld
      have hempty : vec.length = 0 := Nat.le_zero.1 (hnone ▸ hroomy.length_le)
      have hasked : Course stock store _ _ := .single (.allocate wanted store)
      dsimp only
      rw [Attempt.bind_apply]
      generalize Allocator.allocate wanted store = run at hasked ⊢
      obtain ⟨answer, after⟩ := run
      cases answer with
      | error kind => exact .failed hasked.relocates
      | ok block => exact .first hempty hasked

theorem reserveAdditional_growth (additional : Nat) (store : Store) :
    Growth stock vec store (vec.reserveAdditional stock.element additional store) := by
  unfold reserveAdditional
  cases hcapacity : Word.add? vec.length additional with
  | none => exact .failed (.refl stock store)
  | some capacity =>
    obtain ⟨hword, rfl⟩ := Word.fit?_eq_some_iff.1 hcapacity
    exact reserve_growth hbitwise hlive hroomy (fun _ => hword) store

theorem growForOne_growth (store : Store) :
    Growth stock vec store (vec.growForOne stock.element store) := by
  unfold growForOne
  by_cases hroom : vec.length < vec.capacity
  · rw [if_pos hroom]
    exact .enough
  rw [if_neg hroom]
  by_cases hnone : vec.capacity = 0
  · rw [if_pos hnone]
    exact reserve_growth hbitwise hlive hroomy (fun _ => by decide) store
  rw [if_neg hnone]
  cases hcapacity : Word.mul? vec.capacity 2 with
  | none => exact .failed (.refl stock store)
  | some capacity =>
    obtain ⟨hword, rfl⟩ := Word.fit?_eq_some_iff.1 hcapacity
    exact reserve_growth hbitwise hlive hroomy (fun _ => hword) store

end Room

namespace Growth

variable {vec grown : Vec α} {store after : Store}

theorem length_eq (h : Growth stock vec store (.ok grown, after)) :
    grown.length = vec.length := by
  cases h with
  | enough | first | inPlace | moved => rfl

theorem live (h : Growth stock vec store (.ok grown, after)) (hlive : vec.Live) :
    grown.Live := by
  cases h with
  | enough | first | inPlace => exact hlive
  | @moved held wanted block kind middle =>
    intro index hlt
    have hinside : index < vec.length := hlt
    have hkeeps : stock.element.toMovable.Keeps fun _ => () := fun _ _ _ _ => rfl
    have hread := congrArg Option.isSome
      (migrate_read hkeeps vec.buffer block.address vec.slots vec.length middle index)
    rw [if_pos hinside, Option.isSome_map, Option.isSome_map, hlive index hinside] at hread
    exact hread

/-- The growth of a vector without elements relocates nothing. -/
theorem idle {run : Except ErrorKind (Vec α) × Store} (h : Growth stock vec store run)
    (hempty : vec.length = 0) : stock.Relocates store run.2 [] := by
  cases h with
  | enough => exact .refl stock store
  | first hempty hcourse => exact hcourse.relocates
  | inPlace hcourse => exact hcourse.relocates
  | moved hcourse =>
    rw [hempty] at hcourse
    exact hcourse.relocates
  | failed hidle => exact hidle

end Growth

end Vec

/-! ## Calls -/

namespace VecCall

variable {α β : Type}

/-- The growth that a call begins with. -/
def growing (element : Element α) (vec : Vec α) : VecCall α β → Attempt (Vec α)
  | reserve capacity => vec.reserve element capacity
  | reserveAdditional additional => vec.reserveAdditional element additional
  | push _ | emplace _ => vec.growForOne element
  | insert index _ => if vec.length < index then pure vec else vec.growForOne element
  | _ => pure vec

/-- The elements that a call shifts after the growth was answered. -/
def shifting (vec : Vec α) (grown : Except ErrorKind (Vec α)) :
    VecCall α β → List (Spot × Spot)
  | insert index _ =>
    match grown with
    | .error _ => []
    | .ok grown => Vec.rises grown.buffer index (vec.length - index)
  | remove index => Vec.falls vec.buffer index (vec.length - index - 1)
  | _ => []

theorem attempting_store (vec : Vec α) (attempt : Attempt (Vec α)) (store : Store) :
    (attempting vec attempt store).2 = (attempt store).2 := by
  rw [attempting_apply]
  rcases attempt store with ⟨answer, middle⟩
  cases answer with
  | error kind => rfl
  | ok next => rfl

theorem emplace_idle (stock : Stock α β) (vec : Vec α) (args : β) (store : Store) :
    stock.Relocates (vec.growForOne stock.element store).2
      (vec.emplace stock.element stock.builder args store).2 [] := by
  unfold Vec.emplace
  simp only [ExceptT.run, Effect.bind_apply]
  generalize vec.growForOne stock.element store = run
  obtain ⟨answer, middle⟩ := run
  cases answer with
  | error kind => exact .refl stock middle
  | ok grown =>
    have hbuilt : stock.Relocates middle (stock.builder.constructAt _ args middle).2 [] :=
      stock.idle_construct (.slot grown.buffer grown.length) args middle
    dsimp only
    rw [Effect.bind_apply]
    generalize stock.builder.constructAt _ args middle = built at hbuilt ⊢
    obtain ⟨answer, after⟩ := built
    cases answer with
    | error kind => exact hbuilt
    | ok value => exact hbuilt

section Shifts

variable {stock : Stock α β} {vec : Vec α} (hbitwise : stock.element.bitwise = false)
  (hlive : vec.Live)

include hbitwise hlive

theorem openGap_relocates {index : Nat} (hindex : index ≤ vec.length) (store : Store) :
    stock.Relocates store (vec.openGap stock.element index store).2
      (Vec.rises vec.buffer index (vec.length - index)) := by
  unfold Vec.openGap
  rw [hbitwise]
  refine ⟨_, Vec.shiftUp_course vec.buffer index ?_ store, Vec.relocations_relocating _⟩
  intro place _ hlt
  exact hlive place (by omega)

theorem closeGap_relocates (index : Nat) (store : Store) :
    stock.Relocates store (vec.closeGap stock.element index store).2
      (Vec.falls vec.buffer index (vec.length - index - 1)) := by
  unfold Vec.closeGap
  rw [hbitwise]
  refine ⟨_, Vec.shiftDown_course vec.buffer ?_ store, Vec.relocations_relocating _⟩
  intro place hlt hle
  rw [Slots.read_clear_of_ne _ (by omega)]
  exact hlive place (by omega)

theorem remove_relocates (index : Nat) (store : Store) :
    stock.Relocates store (vec.remove stock.element index store).2
      (Vec.falls vec.buffer index (vec.length - index - 1)) := by
  unfold Vec.remove
  by_cases hinside : index < vec.length
  · rw [if_pos hinside]
    have hslot := hlive index hinside
    cases hread : vec.slots.read index with
    | none =>
      rw [hread] at hslot
      cases hslot
    | some value => exact closeGap_relocates hbitwise hlive index store
  · have hnone : vec.length - index - 1 = 0 := by omega
    rw [if_neg hinside, hnone]
    exact .refl stock store

variable (hroomy : vec.Roomy stock.element)

include hroomy

theorem growing_growth {call : VecCall α β} (hword : call.InWord) (store : Store) :
    Vec.Growth stock vec store (call.growing stock.element vec store) := by
  have hone := Vec.growForOne_growth hbitwise hlive hroomy store
  cases call with
  | reserve capacity => exact Vec.reserve_growth hbitwise hlive hroomy (fun _ => hword) store
  | reserveAdditional additional =>
    exact Vec.reserveAdditional_growth hbitwise hlive hroomy additional store
  | push | emplace => exact hone
  | insert index value =>
    show Vec.Growth stock vec store
      ((if vec.length < index then pure vec else vec.growForOne stock.element : Attempt _) store)
    by_cases houtside : vec.length < index
    · rw [if_pos houtside]
      exact .enough
    · rw [if_neg houtside]
      exact hone
  | create | remove | pop | tryPop | tryGet | indexed | clear | drop => exact .enough

theorem insert_relocates (index : Nat) (value : α) (store : Store) :
    stock.Relocates
      ((insert index value : VecCall α β).growing stock.element vec store).2
      (vec.insert stock.element index value store).2
      ((insert index value : VecCall α β).shifting vec
        ((insert index value : VecCall α β).growing stock.element vec store).1) := by
  have hgrowth := Vec.growForOne_growth hbitwise hlive hroomy store
  rw [insert_apply]
  unfold growing
  by_cases houtside : vec.length < index
  · have hnone : vec.length - index = 0 := by omega
    simp only [houtside, if_true, Attempt.pure_apply, shifting, hnone]
    exact stock.idle_destroy value store
  · simp only [houtside, if_false]
    generalize vec.growForOne stock.element store = run at hgrowth ⊢
    obtain ⟨answer, middle⟩ := run
    cases answer with
    | error kind => exact stock.idle_destroy value middle
    | ok grown =>
      have hlength := hgrowth.length_eq
      have hopened := openGap_relocates hbitwise (hgrowth.live hlive)
        (show index ≤ grown.length by omega) middle
      rw [hlength] at hopened
      exact hopened

/-- After its growth was answered, a call relocates the elements that it shifts. -/
theorem act_relocates (call : VecCall α β) (store : Store) :
    stock.Relocates (call.growing stock.element vec store).2
      (call.act stock.element stock.builder vec store).2
      (call.shifting vec (call.growing stock.element vec store).1) := by
  cases call with
  | reserve | reserveAdditional =>
    simp only [act, attempting_store]
    exact .refl stock _
  | push value =>
    simp only [act, attempting_store, push_apply, growing]
    generalize vec.growForOne stock.element store = run
    obtain ⟨answer, middle⟩ := run
    cases answer with
    | error kind => exact stock.idle_destroy value middle
    | ok grown => exact .refl stock middle
  | emplace args =>
    have hbuilt := emplace_idle stock vec args store
    simp only [act, Effect.bind_apply]
    generalize vec.emplace stock.element stock.builder args store = run at hbuilt ⊢
    obtain ⟨⟨answer, next⟩, middle⟩ := run
    cases answer with
    | error kind => exact hbuilt
    | ok done => exact hbuilt
  | insert index value =>
    simp only [act, attempting_store]
    exact insert_relocates hbitwise hlive hroomy index value store
  | remove index =>
    have hclosed := remove_relocates hbitwise hlive index store
    simp only [act, Effect.bind_apply, ExceptT.run]
    generalize vec.remove stock.element index store = run at hclosed ⊢
    obtain ⟨answer, middle⟩ := run
    cases answer with
    | error kind => exact hclosed
    | ok taken => exact hclosed
  | create => exact .refl stock store
  | pop =>
    simp only [act]
    cases vec.pop with
    | none => exact .refl stock store
    | some taken => exact .refl stock store
  | tryPop =>
    simp only [act]
    cases vec.tryPop with
    | error kind => exact .refl stock store
    | ok taken => exact .refl stock store
  | tryGet index =>
    simp only [act]
    cases vec.tryGet index with
    | error kind => exact .refl stock store
    | ok value => exact .refl stock store
  | indexed index =>
    simp only [act]
    cases vec.indexed index with
    | error trap => exact .refl stock store
    | ok value => exact .refl stock store
  | clear => exact stock.idle_clear vec store
  | drop => exact stock.idle_drop vec store

end Shifts

end VecCall
end Freehold
