import Freehold.Proofs.Memory.Lockstep
import Freehold.Proofs.Vec.ListRefinement

/-!
# Twin types

Twin types are alike but for how their values are moved: those of one type are moved by
their bytes, those of the other by a relocation of their own that keeps what a view shows.
Vectors of twin types are in step: whatever one of them does in one piece the other does
value by value, with the same requests answered in the same way.
-/

namespace Freehold

/-- All that a vector has to know of a type. -/
structure Stock (α γ : Type) where
  element : Element α
  builder : Builder γ α
  copier : Copier α

/-- The views show the same. -/
def SameView {α β κ : Type} (view : α → κ) (view' : β → κ) (value : α) (value' : β) : Prop :=
  view value = view' value'

/-- The first type is bitwise, the second one relocates value by value, and otherwise they
do the same. -/
structure Twins {α β γ κ : Type} (first : Stock α γ) (second : Stock β γ) (view : α → κ)
    (view' : β → κ) : Prop where
  bitwise : first.element.bitwise = true
  elementwise : second.element.bitwise = false
  sized : first.element.layout.size ≠ 0
  layout_eq : first.element.layout = second.element.layout
  keeps : second.element.toMovable.Keeps view'
  quiet : ∀ source target value, (second.element.relocate source target value).Quiet
  destroys : ∀ value value', SameView view view' value value' →
    Lockstep (fun _ _ => True) (first.element.destroy value) (second.element.destroy value')
  builds : ∀ spot args, Attempt.InStep (SameView view view')
    (first.builder.constructAt spot args) (second.builder.constructAt spot args)
  clones : ∀ spot value value', SameView view view' value value' →
    Attempt.InStep (SameView view view') (first.copier.cloneAt spot value)
      (second.copier.cloneAt spot value')

/-! ## Moving values is an aside -/

/-- Relocations put nothing on record but asides. -/
def Element.Discreet {α : Type} (element : Element α) : Prop :=
  element.bitwise = false → ∀ source target value, (element.relocate source target value).Quiet

namespace Vec

section Moving

variable {α : Type} {element : Element α}
  (hquiet : ∀ source target value, (element.relocate source target value).Quiet)

include hquiet

theorem quiet_relocateRecorded (source target : Spot) (value : α) :
    (element.relocateRecorded source target value).Quiet :=
  (Effect.quiet_record rfl).bind fun _ => hquiet source target value

theorem quiet_moveSlot (buffer source target : Nat) (slots : Slots α) :
    (moveSlot element buffer source target slots).Quiet := by
  unfold moveSlot
  cases slots.read source with
  | none => exact Effect.quiet_pure slots
  | some value =>
    exact (quiet_relocateRecorded hquiet _ _ value).bind fun _ => Effect.quiet_pure _

theorem quiet_shiftUp (buffer index count : Nat) (slots : Slots α) :
    (shiftUp element buffer index count slots).Quiet := by
  induction count generalizing slots with
  | zero => exact Effect.quiet_pure slots
  | succ count ih => exact (quiet_moveSlot hquiet _ _ _ slots).bind ih

theorem quiet_shiftDown (buffer index count : Nat) (slots : Slots α) :
    (shiftDown element buffer index count slots).Quiet := by
  induction count generalizing index slots with
  | zero => exact Effect.quiet_pure slots
  | succ count ih => exact (quiet_moveSlot hquiet _ _ _ slots).bind (ih (index + 1))

theorem quiet_migrate (source target : Nat) (slots : Slots α) (count : Nat) :
    (migrate element source target slots count).Quiet := by
  induction count with
  | zero => exact Effect.quiet_pure _
  | succ count ih =>
    refine ih.bind fun moved => ?_
    cases slots.read count with
    | none => exact Effect.quiet_pure moved
    | some value =>
      exact (quiet_relocateRecorded hquiet _ _ value).bind fun _ => Effect.quiet_pure _

end Moving

section Gaps

variable {α : Type} {element : Element α} (hdiscreet : element.Discreet)

include hdiscreet

theorem quiet_openGap (vec : Vec α) (index : Nat) : (vec.openGap element index).Quiet := by
  unfold openGap
  cases hbitwise : element.bitwise with
  | true => exact Effect.quiet_pure _
  | false => exact quiet_shiftUp (hdiscreet hbitwise) _ _ _ _

theorem quiet_closeGap (vec : Vec α) (index : Nat) : (vec.closeGap element index).Quiet := by
  unfold closeGap
  cases hbitwise : element.bitwise with
  | true => exact Effect.quiet_pure _
  | false => exact quiet_shiftDown (hdiscreet hbitwise) _ _ _ _

end Gaps

/-! ## Growth -/

/-- The same buffer with the same room. -/
structure SameBuffer {α β : Type} (vec : Vec α) (vec' : Vec β) : Prop where
  buffer_eq : vec.buffer = vec'.buffer
  capacity_eq : vec.capacity = vec'.capacity

end Vec

namespace Twins

variable {α β γ κ : Type} {first : Stock α γ} {second : Stock β γ} {view : α → κ}
  {view' : β → κ} {vec : Vec α} {vec' : Vec β}

theorem faithful (h : Twins first second view view') : Vec.Faithful first.element view := by
  intro hbitwise
  rw [h.bitwise] at hbitwise
  cases hbitwise

theorem faithful' (h : Twins first second view view') : Vec.Faithful second.element view' :=
  fun _ => h.keeps

theorem discreet (h : Twins first second view view') : first.element.Discreet := by
  intro hbitwise
  rw [h.bitwise] at hbitwise
  cases hbitwise

theorem discreet' (h : Twins first second view view') : second.element.Discreet :=
  fun _ => h.quiet

theorem bufferLayout?_eq (h : Twins first second view view') (hbuffer : vec.SameBuffer vec') :
    vec.bufferLayout? first.element = vec'.bufferLayout? second.element := by
  unfold Vec.bufferLayout?
  rw [h.layout_eq, hbuffer.capacity_eq]

theorem adopt (h : Twins first second view view') (block : Block) :
    (vec.adopt first.element block).SameBuffer (vec'.adopt second.element block) := by
  refine ⟨rfl, ?_⟩
  show block.size / first.element.layout.size = block.size / second.element.layout.size
  rw [h.layout_eq]

/-- One resizes its buffer and the other moves its values, and it comes to the same. -/
theorem resize_move (h : Twins first second view view') (hbuffer : vec.SameBuffer vec')
    {held wanted : Layout} (hgrows : held.size < wanted.size) (halign : held.align = wanted.align)
    (hvalid : wanted.Valid) {store store' : Store} (hparallel : Parallel store store')
    (hrefused : ∃ refusal, store.memory.expand vec.buffer held wanted.size = .error refusal) :
    Matching Vec.SameBuffer (vec.resize first.element held wanted store).1
        (vec'.move second.element held wanted store').1 ∧
      Parallel (vec.resize first.element held wanted store).2
        (vec'.move second.element held wanted store').2 := by
  have hcalls := Allocator.reallocate_allocate hparallel hgrows halign hvalid hrefused
  unfold Vec.resize Vec.move
  rw [Attempt.bind_apply, Attempt.bind_apply]
  generalize Allocator.reallocate vec.buffer held wanted.size store = run at hcalls ⊢
  generalize Allocator.allocate wanted store' = run' at hcalls ⊢
  obtain ⟨answer, middle⟩ := run
  obtain ⟨answer', middle'⟩ := run'
  dsimp only at hcalls
  rcases hcalls with ⟨kind, rfl, rfl, hnext⟩ | ⟨block, rfl, rfl, hnext⟩
  · exact ⟨.failed kind, hnext⟩
  · have hmigrated :=
      Vec.quiet_migrate h.quiet vec'.buffer block.address vec'.slots vec'.length middle'
    have hreplaced := hnext _ hmigrated
    rw [hbuffer.buffer_eq] at hreplaced
    have hadopted : (vec.adopt first.element block).SameBuffer (vec'.adopt second.element block) :=
      h.adopt block
    refine ⟨.done ⟨rfl, hadopted.capacity_eq⟩, ?_⟩
    exact hreplaced.onward (Effect.quiet_log _ _) (Effect.quiet_log _ _)

theorem regrow_inStep (h : Twins first second view view') (hbuffer : vec.SameBuffer vec')
    {held wanted : Layout} (hgrows : held.size < wanted.size) (halign : held.align = wanted.align)
    (hvalid : wanted.Valid) :
    Attempt.InStep Vec.SameBuffer (vec.regrow first.element held wanted)
      (vec'.regrow second.element held wanted) := by
  intro store store' hparallel
  have hexpand := Allocator.expand_inStep vec.buffer held wanted.size store store' hparallel
  show Matching Vec.SameBuffer (vec.regrow first.element held wanted store).1
      (vec'.regrow second.element held wanted store').1 ∧
    Parallel (vec.regrow first.element held wanted store).2
      (vec'.regrow second.element held wanted store').2
  unfold Vec.regrow
  rw [Attempt.bind_apply, Attempt.bind_apply, Attempt.lift_apply, Attempt.lift_apply,
    ← hbuffer.buffer_eq]
  cases hrun : (Allocator.expand vec.buffer held wanted.size).run store with
  | mk answer middle =>
    rw [hrun] at hexpand
    generalize (Allocator.expand vec.buffer held wanted.size).run store' = run' at hexpand ⊢
    obtain ⟨answer', middle'⟩ := run'
    obtain ⟨hmatching, hnext⟩ := hexpand
    cases hmatching with
    | done hsize =>
      subst hsize
      refine ⟨.done ⟨rfl, ?_⟩,
        hnext.onward (Effect.quiet_log _ _) (Effect.quiet_log _ _)⟩
      exact congrArg (fun layout => _ / layout.size) h.layout_eq
    | failed kind =>
      -- The resize of the first vector asks for growth in place once more, in vain.
      dsimp only
      rw [h.bitwise, h.elementwise]
      exact h.resize_move hbuffer hgrows halign hvalid hnext (Allocator.expand_refused hrun)

theorem reserve_inStep (h : Twins first second view view') (hbuffer : vec.SameBuffer vec')
    (capacity : Nat) :
    Attempt.InStep Vec.SameBuffer (vec.reserve first.element capacity)
      (vec'.reserve second.element capacity) := by
  unfold Vec.reserve
  rw [← hbuffer.capacity_eq, ← h.bufferLayout?_eq hbuffer, ← h.layout_eq]
  by_cases hle : capacity ≤ vec.capacity
  · rw [if_pos hle, if_pos hle]
    exact .pure hbuffer
  rw [if_neg hle, if_neg hle]
  cases hwanted : first.element.layout.array? capacity with
  | none => exact .throw .integerOverflow
  | some wanted =>
    cases hheld : vec.bufferLayout? first.element with
    | none =>
      refine (Allocator.allocate_inStep wanted).bind fun block block' hsame => ?_
      subst hsame
      exact .pure (h.adopt block)
    | some held =>
      obtain ⟨hvalid, rfl⟩ := Layout.of?_eq_some_iff.1 hwanted
      unfold Vec.bufferLayout? at hheld
      split at hheld
      · cases hheld
      obtain ⟨-, rfl⟩ := Layout.of?_eq_some_iff.1 hheld
      have hgrows : first.element.layout.size * vec.capacity <
          first.element.layout.size * capacity :=
        Nat.mul_lt_mul_of_pos_left (Nat.lt_of_not_le hle) (Nat.pos_of_ne_zero h.sized)
      exact h.regrow_inStep hbuffer hgrows rfl hvalid

theorem reserveAdditional_inStep (h : Twins first second view view')
    (hbuffer : vec.SameBuffer vec') (hlength : vec.length = vec'.length) (additional : Nat) :
    Attempt.InStep Vec.SameBuffer (vec.reserveAdditional first.element additional)
      (vec'.reserveAdditional second.element additional) := by
  unfold Vec.reserveAdditional
  rw [← hlength]
  cases Word.add? vec.length additional with
  | none => exact .throw .integerOverflow
  | some capacity => exact h.reserve_inStep hbuffer capacity

theorem growForOne_inStep (h : Twins first second view view') (hbuffer : vec.SameBuffer vec')
    (hlength : vec.length = vec'.length) :
    Attempt.InStep Vec.SameBuffer (vec.growForOne first.element)
      (vec'.growForOne second.element) := by
  unfold Vec.growForOne
  rw [← hlength, ← hbuffer.capacity_eq]
  by_cases hroom : vec.length < vec.capacity
  · rw [if_pos hroom, if_pos hroom]
    exact .pure hbuffer
  rw [if_neg hroom, if_neg hroom]
  by_cases hnone : vec.capacity = 0
  · rw [if_pos hnone, if_pos hnone]
    exact h.reserve_inStep hbuffer Vec.firstCapacity
  rw [if_neg hnone, if_neg hnone]
  cases Word.mul? vec.capacity 2 with
  | none => exact .throw .integerOverflow
  | some capacity => exact h.reserve_inStep hbuffer capacity

theorem openGap (h : Twins first second view view') (vec : Vec α) (vec' : Vec β) (index : Nat) :
    Lockstep (fun _ _ => True) (vec.openGap first.element index)
      (vec'.openGap second.element index) :=
  .quiet (Vec.quiet_openGap h.discreet vec index) (Vec.quiet_openGap h.discreet' vec' index)
    fun _ _ => trivial

theorem closeGap (h : Twins first second view view') (vec : Vec α) (vec' : Vec β) (index : Nat) :
    Lockstep (fun _ _ => True) (vec.closeGap first.element index)
      (vec'.closeGap second.element index) :=
  .quiet (Vec.quiet_closeGap h.discreet vec index) (Vec.quiet_closeGap h.discreet' vec' index)
    fun _ _ => trivial

end Twins

/-! ## Vectors abreast -/

/-- The vectors have the same buffer with the same room and show the same items. -/
structure Abreast {α β γ κ : Type} (first : Stock α γ) (second : Stock β γ) (view : α → κ)
    (view' : β → κ) (items : List κ) (vec : Vec α) (vec' : Vec β) : Prop where
  buffer : vec.SameBuffer vec'
  shows : vec.Shows view items
  shows' : vec'.Shows view' items
  roomy : vec.Roomy first.element
  roomy' : vec'.Roomy second.element

namespace Abreast

variable {α β γ κ : Type} {first : Stock α γ} {second : Stock β γ} {view : α → κ}
  {view' : β → κ} {vec next : Vec α} {vec' next' : Vec β} {items : List κ}

theorem length_eq (h : Abreast first second view view' items vec vec') :
    vec.length = vec'.length := h.shows.length_eq.trans h.shows'.length_eq.symm

theorem of_follows (hbuffer : next.SameBuffer next')
    (hfollows : Vec.Follows first.element view vec next items)
    (hfollows' : Vec.Follows second.element view' vec' next' items) :
    Abreast first second view view' items next next' :=
  ⟨hbuffer, hfollows.shows, hfollows'.shows, hfollows.roomy, hfollows'.roomy⟩

/-- Attempts that go to the same buffer and are known to show the items. -/
theorem of_becomes {attempt : Attempt (Vec α)} {attempt' : Attempt (Vec β)}
    (hbuffer : Attempt.InStep Vec.SameBuffer attempt attempt')
    (hbecomes : ∀ store, Vec.Becomes first.element view vec items (attempt store).1)
    (hbecomes' : ∀ store, Vec.Becomes second.element view' vec' items (attempt' store).1) :
    Attempt.InStep (Abreast first second view view' items) attempt attempt' :=
  (hbuffer.knowing hbecomes hbecomes').mono fun _ _ hboth =>
    .of_follows hboth.1 hboth.2.1 hboth.2.2

theorem destroyAll_lockstep (htwins : Twins first second view view') {values : List α}
    {values' : List β} (hsame : values.map view = values'.map view') :
    Lockstep (fun _ _ => True) (first.element.destroyAll values)
      (second.element.destroyAll values') := by
  induction values generalizing values' with
  | nil =>
    cases values' with
    | nil => exact .pure trivial
    | cons value' later' => cases hsame
  | cons value later ih =>
    cases values' with
    | nil => cases hsame
    | cons value' later' =>
      obtain ⟨hvalue, hlater⟩ := List.cons.inj hsame
      exact (htwins.destroys value value' hvalue).bind fun _ _ _ => ih hlater

theorem destroyAll (h : Abreast first second view view' items vec vec')
    (htwins : Twins first second view view') :
    Lockstep (fun _ _ => True) (first.element.destroyAll vec.toList)
      (second.element.destroyAll vec'.toList) := by
  refine destroyAll_lockstep htwins ?_
  rw [h.shows.toList_eq, h.shows'.toList_eq]

/-! ### Putting elements in -/

theorem append (h : Abreast first second view view' items vec vec')
    (hroom : vec.length < vec.capacity) {value : α} {value' : β}
    (hsame : SameView view view' value value') :
    Abreast first second view view' (items ++ [view value]) (vec.append value)
      (vec'.append value') := by
  have hroom' : vec'.length < vec'.capacity := by
    rw [← h.length_eq, ← h.buffer.capacity_eq]
    exact hroom
  have hfollows := (Vec.Follows.refl h.shows h.roomy).append hroom value
  have hfollows' := (Vec.Follows.refl h.shows' h.roomy').append hroom' value'
  rw [← show view value = view' value' from hsame] at hfollows'
  exact .of_follows ⟨h.buffer.buffer_eq, h.buffer.capacity_eq⟩ hfollows hfollows'

/-- Buffers that grow alike, by attempts that are known to keep what the vectors show. -/
theorem of_grows (h : Abreast first second view view' items vec vec') {capacity capacity' : Nat}
    {attempt : Attempt (Vec α)} {attempt' : Attempt (Vec β)}
    (hbuffer : Attempt.InStep Vec.SameBuffer attempt attempt')
    (hgrows : ∀ store, Vec.Grows first.element view vec capacity (attempt store).1)
    (hgrows' : ∀ store, Vec.Grows second.element view' vec' capacity' (attempt' store).1) :
    Attempt.InStep
      (fun grown grown' => Abreast first second view view' items grown grown' ∧
        capacity ≤ grown.capacity)
      attempt attempt' := by
  refine (hbuffer.knowing hgrows hgrows').mono ?_
  rintro grown grown' ⟨hbuffer, ⟨hshows, hroomy, -, hroom⟩, ⟨hshows', hroomy', -, -⟩⟩
  exact ⟨⟨hbuffer, hshows items h.shows, hshows' items h.shows', hroomy, hroomy'⟩, hroom⟩

theorem reserve (h : Abreast first second view view' items vec vec')
    (htwins : Twins first second view view') (capacity : Nat) :
    Attempt.InStep
      (fun grown grown' => Abreast first second view view' items grown grown' ∧
        capacity ≤ grown.capacity)
      (vec.reserve first.element capacity) (vec'.reserve second.element capacity) := by
  have hsized' : second.element.layout.size ≠ 0 := htwins.layout_eq ▸ htwins.sized
  exact h.of_grows (htwins.reserve_inStep h.buffer capacity)
    (Vec.reserve_grows_of_sized htwins.faithful h.roomy htwins.sized capacity)
    (Vec.reserve_grows_of_sized htwins.faithful' h.roomy' hsized' capacity)

theorem reserveAdditional (h : Abreast first second view view' items vec vec')
    (htwins : Twins first second view view') (additional : Nat) :
    Attempt.InStep
      (fun grown grown' => Abreast first second view view' items grown grown' ∧
        vec.length + additional ≤ grown.capacity)
      (vec.reserveAdditional first.element additional)
      (vec'.reserveAdditional second.element additional) :=
  h.of_grows (htwins.reserveAdditional_inStep h.buffer h.length_eq additional)
    (Vec.reserveAdditional_grows htwins.faithful h.roomy additional)
    (Vec.reserveAdditional_grows htwins.faithful' h.roomy' additional)

theorem growForOne (h : Abreast first second view view' items vec vec')
    (htwins : Twins first second view view') :
    Attempt.InStep
      (fun grown grown' => Abreast first second view view' items grown grown' ∧
        grown.length < grown.capacity)
      (vec.growForOne first.element) (vec'.growForOne second.element) := by
  refine (h.of_grows (htwins.growForOne_inStep h.buffer h.length_eq)
    (Vec.growForOne_grows htwins.faithful h.roomy)
    (Vec.growForOne_grows htwins.faithful' h.roomy')).mono ?_
  rintro grown grown' ⟨hgrown, hroom⟩
  rw [h.shows.length_eq, ← hgrown.shows.length_eq] at hroom
  exact ⟨hgrown, hroom⟩

theorem push (h : Abreast first second view view' items vec vec')
    (htwins : Twins first second view view') {value : α} {value' : β}
    (hsame : SameView view view' value value') :
    Attempt.InStep (Abreast first second view view' (items ++ [view value]))
      (vec.push first.element value) (vec'.push second.element value') := by
  refine ((h.growForOne htwins).undoing (htwins.destroys value value' hsame)).bind ?_
  rintro grown grown' ⟨hgrown, hroom⟩
  exact .pure (hgrown.append hroom hsame)

theorem insert (h : Abreast first second view view' items vec vec')
    (htwins : Twins first second view view') (index : Nat) {value : α} {value' : β}
    (hsame : SameView view view' value value') :
    Attempt.InStep (Abreast first second view view' (items.insertIdx index (view value)))
      (vec.insert first.element index value) (vec'.insert second.element index value') := by
  have hdestroys := htwins.destroys value value' hsame
  by_cases houtside : vec.length < index
  · have houtside' : vec'.length < index := h.length_eq ▸ houtside
    unfold Vec.insert
    rw [if_pos houtside, if_pos houtside']
    exact (Attempt.InStep.lift hdestroys).bind fun _ _ _ => .throw .outOfRange
  · have houtside' : ¬ vec'.length < index := h.length_eq ▸ houtside
    have hinside : index ≤ items.length := by
      rw [← h.shows.length_eq]
      exact Nat.le_of_not_lt houtside
    have hbuffer : Attempt.InStep Vec.SameBuffer (vec.insert first.element index value)
        (vec'.insert second.element index value') := by
      unfold Vec.insert
      rw [if_neg houtside, if_neg houtside']
      refine ((htwins.growForOne_inStep h.buffer h.length_eq).undoing hdestroys).bind ?_
      intro grown grown' hgrown
      refine (Attempt.InStep.lift (htwins.openGap grown grown' index)).bind fun _ _ _ => ?_
      exact .pure ⟨hgrown.buffer_eq, hgrown.capacity_eq⟩
    have hbecomes := Vec.insert_becomes htwins.faithful h.shows h.roomy hinside value
    have hbecomes' := Vec.insert_becomes htwins.faithful' h.shows' h.roomy' hinside value'
    rw [← show view value = view' value' from hsame] at hbecomes'
    exact of_becomes hbuffer hbecomes hbecomes'

/-- An element that is built in place is the last one, whether it is asked for or not. -/
theorem emplace (h : Abreast first second view view' items vec vec')
    (htwins : Twins first second view view') (args : γ) :
    Lockstep
      (fun built built' => built.1 = built'.1 ∧
        (∃ after, Abreast first second view view' after built.2 built'.2) ∧
        (built.2.get? vec.length).map view = (built'.2.get? vec'.length).map view')
      (vec.emplace first.element first.builder args)
      (vec'.emplace second.element second.builder args) := by
  have hget : ∀ {after : List κ} {next : Vec α} {next' : Vec β},
      Abreast first second view view' after next next' →
        (next.get? vec.length).map view = (next'.get? vec'.length).map view' := by
    intro after next next' habreast
    rw [habreast.shows.get?_eq, habreast.shows'.get?_eq, h.length_eq]
  refine Lockstep.bind (h.growForOne htwins) fun answer answer' hmatching => ?_
  cases hmatching with
  | failed kind => exact .pure ⟨rfl, ⟨items, h⟩, hget h⟩
  | done hgrown =>
    rename_i grown grown'
    obtain ⟨hgrown, hroom⟩ := hgrown
    have hspot : Spot.slot grown.buffer grown.length = Spot.slot grown'.buffer grown'.length := by
      rw [hgrown.buffer.buffer_eq, hgrown.length_eq]
    have hbuilds := htwins.builds (.slot grown.buffer grown.length) args
    dsimp only
    rw [← hspot]
    refine Lockstep.bind hbuilds fun built built' hmatching => ?_
    cases hmatching with
    | failed kind => exact .pure ⟨rfl, ⟨items, hgrown⟩, hget hgrown⟩
    | done hsame =>
      have hnext := hgrown.append hroom hsame
      exact .pure ⟨rfl, ⟨_, hnext⟩, hget hnext⟩

/-! ### Taking elements out -/

/-- What is known of an element that was taken out, and of the vector without it. -/
def Leaves (element : Element α) (view : α → κ) (vec : Vec α) (items : List κ) :
    Except ErrorKind (α × Vec α) → Prop
  | .ok (_, next) => Vec.Follows element view vec next items
  | .error _ => True

theorem remove_leaves {element : Element α} (hfaithful : Vec.Faithful element view)
    (hshows : vec.Shows view items) (hroomy : vec.Roomy element) {index : Nat}
    (hinside : index < items.length) (store : Store) :
    Leaves element view vec (items.eraseIdx index) (vec.remove element index store).1 := by
  obtain ⟨value, next, hremove, -, hfollows⟩ :=
    Vec.remove_inside hfaithful hshows hroomy hinside store
  rw [hremove]
  exact hfollows

theorem remove (h : Abreast first second view view' items vec vec')
    (htwins : Twins first second view view') (index : Nat) :
    Attempt.InStep
      (fun taken taken' => SameView view view' taken.1 taken'.1 ∧
        Abreast first second view view' (items.eraseIdx index) taken.2 taken'.2)
      (vec.remove first.element index) (vec'.remove second.element index) := by
  by_cases hinside : index < items.length
  · have hlt : index < vec.length := h.shows.length_eq ▸ hinside
    have hlt' : index < vec'.length := h.shows'.length_eq ▸ hinside
    have hread := h.shows.read_eq index
    have hread' := h.shows'.read_eq index
    rw [List.getElem?_eq_getElem hinside] at hread hread'
    obtain ⟨value, hvalue, hview⟩ := Option.map_eq_some_iff.1 hread
    obtain ⟨value', hvalue', hview'⟩ := Option.map_eq_some_iff.1 hread'
    have hbuffer : Attempt.InStep
        (fun taken taken' => SameView view view' taken.1 taken'.1 ∧ taken.2.SameBuffer taken'.2)
        (vec.remove first.element index) (vec'.remove second.element index) := by
      unfold Vec.remove
      rw [if_pos hlt, if_pos hlt', hvalue, hvalue']
      refine (Attempt.InStep.lift (htwins.closeGap vec vec' index)).bind fun _ _ _ => ?_
      exact .pure ⟨hview.trans hview'.symm, h.buffer.buffer_eq, h.buffer.capacity_eq⟩
    refine (hbuffer.knowing (remove_leaves htwins.faithful h.shows h.roomy hinside)
      (remove_leaves htwins.faithful' h.shows' h.roomy' hinside)).mono ?_
    rintro taken taken' ⟨⟨hsame, hbuffer⟩, hleaves, hleaves'⟩
    exact ⟨hsame, .of_follows hbuffer hleaves hleaves'⟩
  · have hge : ¬ index < vec.length := h.shows.length_eq ▸ hinside
    have hge' : ¬ index < vec'.length := h.shows'.length_eq ▸ hinside
    unfold Vec.remove
    rw [if_neg hge, if_neg hge']
    exact .throw .outOfRange

theorem pop_buffer {value : α} (hpop : vec.pop = some (value, next)) :
    next.buffer = vec.buffer ∧ next.capacity = vec.capacity := by
  unfold Vec.pop at hpop
  split at hpop
  · cases hpop
  · obtain ⟨last, -, heq⟩ := Option.map_eq_some_iff.1 hpop
    obtain ⟨-, rfl⟩ := Prod.mk.inj heq
    exact ⟨rfl, rfl⟩

/-- Both vectors are empty, or both give up the last element. -/
theorem pop (h : Abreast first second view view' items vec vec') :
    (vec.pop = none ∧ vec'.pop = none) ∨
      ∃ value value' next next', vec.pop = some (value, next) ∧
        vec'.pop = some (value', next') ∧ SameView view view' value value' ∧
        Abreast first second view view' items.dropLast next next' := by
  rcases List.eq_nil_or_concat items with rfl | ⟨rest, last, rfl⟩
  · exact Or.inl ⟨Vec.pop_nil h.shows, Vec.pop_nil h.shows'⟩
  · have hshows := h.shows
    have hshows' := h.shows'
    rw [List.concat_eq_append] at hshows hshows' ⊢
    obtain ⟨value, next, hpop, hview, hfollows⟩ := Vec.pop_concat hshows h.roomy
    obtain ⟨value', next', hpop', hview', hfollows'⟩ := Vec.pop_concat hshows' h.roomy'
    obtain ⟨hbuffer, hcapacity⟩ := pop_buffer hpop
    obtain ⟨hbuffer', hcapacity'⟩ := pop_buffer hpop'
    refine Or.inr ⟨value, value', next, next', hpop, hpop', hview.trans hview'.symm, ?_⟩
    rw [List.dropLast_concat]
    refine .of_follows ⟨?_, ?_⟩ hfollows hfollows'
    · rw [hbuffer, hbuffer', h.buffer.buffer_eq]
    · rw [hcapacity, hcapacity', h.buffer.capacity_eq]

/-! ### Giving up all elements -/

theorem clear (h : Abreast first second view view' items vec vec')
    (htwins : Twins first second view view') :
    Lockstep (Abreast first second view view' []) (vec.clear first.element)
      (vec'.clear second.element) := by
  have hcleared : Abreast first second view view' [] { vec with length := 0, slots := #[] }
      { vec' with length := 0, slots := #[] } :=
    ⟨⟨h.buffer.buffer_eq, h.buffer.capacity_eq⟩, ⟨rfl, fun _ => rfl⟩, ⟨rfl, fun _ => rfl⟩,
      ⟨Nat.zero_le _, h.roomy.sizeless⟩, ⟨Nat.zero_le _, h.roomy'.sizeless⟩⟩
  unfold Vec.clear
  rw [← htwins.bufferLayout?_eq h.buffer]
  refine (h.destroyAll htwins).bind fun _ _ _ => ?_
  cases vec.bufferLayout? first.element with
  | none => exact .pure hcleared
  | some held =>
    have hadvised := Allocator.advise_lockstep vec.buffer held.size .dontNeed
    by_cases hlarge : Vec.discardThreshold ≤ held.size
    · simp only [hlarge, if_true]
      rw [← h.buffer.buffer_eq] at hcleared ⊢
      exact hadvised.bind fun _ _ _ => .pure hcleared
    · simp only [hlarge, if_false]
      exact .pure hcleared

theorem drop (h : Abreast first second view view' items vec vec')
    (htwins : Twins first second view view') :
    Lockstep (fun _ _ => True) (vec.drop first.element) (vec'.drop second.element) := by
  unfold Vec.drop
  rw [← htwins.bufferLayout?_eq h.buffer, ← h.buffer.buffer_eq]
  refine (h.destroyAll htwins).bind fun _ _ _ => ?_
  cases vec.bufferLayout? first.element with
  | none => exact .pure trivial
  | some held => exact Allocator.deallocate_lockstep vec.buffer held

end Abreast
end Freehold
