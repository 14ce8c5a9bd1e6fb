import Freehold.Proofs.Attempt
import Freehold.Proofs.Memory.Requests
import Freehold.Vec.Buffer

/-!
# Growth of buffers

A vector shows a list through a view of its elements, which is what a relocation does
not change.  Growing the buffer, in place, by the allocator or by moving the elements,
makes the room that is asked for and changes nothing that the vector shows.  Where it
fails, that room was not there before, and an allocator or a size is to blame.
-/

namespace Freehold

/-- A relocation changes nothing that the view shows. -/
def Movable.Keeps {α κ : Type} (type : Movable α) (view : α → κ) : Prop :=
  ∀ source target value store, view (type.relocate source target value store).1 = view value

theorem Movable.Keeps.recorded {α κ : Type} {type : Movable α} {view : α → κ}
    (h : type.Keeps view) (source target : Spot) (value : α) (store : Store) :
    view (type.relocateRecorded source target value store).1 = view value :=
  h source target value _

namespace Vec

variable {α κ : Type} {element : Element α} {view : α → κ}

structure Shows (view : α → κ) (vec : Vec α) (items : List κ) : Prop where
  length_eq : vec.length = items.length
  read_eq : ∀ index, (vec.slots.read index).map view = items[index]?

/-- The elements have room; those without a size have all the room that there is. -/
structure Roomy (element : Element α) (vec : Vec α) : Prop where
  length_le : vec.length ≤ vec.capacity
  sizeless : element.layout.size = 0 → vec.capacity = Word.greatest

theorem map_values {slots : Slots α} {items : List κ}
    (h : ∀ index, (slots.read index).map view = items[index]?) (count : Nat) :
    (slots.values count).map view = items.take count := by
  induction count with
  | zero => rfl
  | succ count ih =>
    have hlast : (slots.values (count + 1)).map view =
        (slots.values count).map view ++ ((slots.read count).map view).toList := by
      unfold Slots.values
      rw [List.range_succ, List.filterMap_append, List.map_append]
      cases hslot : slots.read count with
      | none => simp [hslot]
      | some value => simp [hslot]
    rw [hlast, ih, h, List.take_add_one]

theorem Shows.toList_eq {vec : Vec α} {items : List κ} (h : vec.Shows view items) :
    vec.toList.map view = items := by
  unfold toList
  rw [map_values h.read_eq, h.length_eq, List.take_length]

theorem migrate_read (hkeeps : element.toMovable.Keeps view) (source target : Nat)
    (slots : Slots α) (count : Nat) (store : Store) (index : Nat) :
    ((migrate element source target slots count store).1.read index).map view =
      if index < count then (slots.read index).map view else none := by
  induction count with
  | zero => simp [migrate, Effect.pure_apply]
  | succ count ih =>
    unfold migrate
    rw [Effect.bind_apply]
    generalize migrate element source target slots count store = moved at ih ⊢
    have hlt : index ≠ count → (index < count + 1 ↔ index < count) := by omega
    cases hslot : slots.read count with
    | none =>
      dsimp only
      rw [Effect.pure_apply, ih]
      by_cases heq : index = count
      · subst heq
        simp [hslot]
      · simp only [hlt heq]
    | some value =>
      dsimp only
      rw [Effect.bind_apply, Effect.pure_apply]
      by_cases heq : index = count
      · subst heq
        simp [hslot, hkeeps.recorded]
      · rw [Slots.read_write_of_ne _ _ heq, ih]
        simp only [hlt heq]

/-- What growing a buffer to a capacity comes to. -/
def Grows (element : Element α) (view : α → κ) (vec : Vec α) (capacity : Nat) :
    Except ErrorKind (Vec α) → Prop
  | .ok grown =>
    (∀ items, vec.Shows view items → grown.Shows view items) ∧ grown.Roomy element ∧
      vec.capacity ≤ grown.capacity ∧ capacity ≤ grown.capacity
  | .error kind => kind.OfRequest

/-- Elements that are moved by a relocation of their own keep what is viewed. -/
def Faithful (element : Element α) (view : α → κ) : Prop :=
  element.bitwise = false → element.toMovable.Keeps view

theorem le_div_of_mul_le {element : Element α} {size capacity : Nat}
    (hsized : element.layout.size ≠ 0) (h : element.layout.size * capacity ≤ size) :
    capacity ≤ size / element.layout.size := by
  rw [Nat.le_div_iff_mul_le (Nat.pos_of_ne_zero hsized), Nat.mul_comm]
  exact h

/-- A larger block gives room for what was asked, wherever the elements are. -/
theorem grows_of_block {vec grown : Vec α} {capacity size : Nat} (hroomy : vec.Roomy element)
    (hsized : element.layout.size ≠ 0) (hmore : vec.capacity < capacity)
    (hsize : element.layout.size * capacity ≤ size)
    (hcapacity : grown.capacity = size / element.layout.size)
    (hlength : grown.length = vec.length)
    (hshows : ∀ items, vec.Shows view items → grown.Shows view items) :
    Grows element view vec capacity (.ok grown) := by
  have hroom := le_div_of_mul_le hsized hsize
  have hlength' := hroomy.length_le
  refine ⟨hshows, ⟨?_, fun hzero => absurd hzero hsized⟩, ?_, ?_⟩
  · omega
  · omega
  · omega

theorem resize_grows {vec : Vec α} {capacity : Nat} (hroomy : vec.Roomy element)
    (hsized : element.layout.size ≠ 0) (hmore : vec.capacity < capacity)
    (held wanted : Layout) (hwanted : wanted.size = element.layout.size * capacity)
    (store : Store) :
    Grows element view vec capacity (vec.resize element held wanted store).1 := by
  have hfulfils := Allocator.reallocate_fulfils vec.buffer held wanted.size store
  unfold resize
  rw [Attempt.bind_apply]
  generalize Allocator.reallocate vec.buffer held wanted.size store = run at hfulfils ⊢
  obtain ⟨answer, middle⟩ := run
  cases answer with
  | error kind => exact hfulfils
  | ok block =>
    exact grows_of_block hroomy hsized hmore (hwanted ▸ hfulfils) rfl rfl
      fun items h => ⟨h.length_eq, h.read_eq⟩

theorem move_grows (hkeeps : element.toMovable.Keeps view) {vec : Vec α} {capacity : Nat}
    (hroomy : vec.Roomy element) (hsized : element.layout.size ≠ 0)
    (hmore : vec.capacity < capacity) (held wanted : Layout)
    (hwanted : wanted.size = element.layout.size * capacity) (store : Store) :
    Grows element view vec capacity (vec.move element held wanted store).1 := by
  have hfulfils := Allocator.allocate_fulfils wanted store
  unfold move
  rw [Attempt.bind_apply]
  generalize Allocator.allocate wanted store = run at hfulfils ⊢
  obtain ⟨answer, middle⟩ := run
  cases answer with
  | error kind => exact hfulfils
  | ok block =>
    refine grows_of_block hroomy hsized hmore (hwanted ▸ hfulfils) rfl rfl ?_
    intro items h
    refine ⟨h.length_eq, fun index => ?_⟩
    have hread := migrate_read hkeeps vec.buffer block.address vec.slots vec.length middle index
    refine hread.trans ?_
    rw [h.read_eq]
    split
    · rfl
    · rw [List.getElem?_eq_none]
      have hlength := h.length_eq
      omega

theorem regrow_grows (hfaithful : Faithful element view) {vec : Vec α} {capacity : Nat}
    (hroomy : vec.Roomy element) (hsized : element.layout.size ≠ 0)
    (hmore : vec.capacity < capacity) (held wanted : Layout)
    (hwanted : wanted.size = element.layout.size * capacity) (store : Store) :
    Grows element view vec capacity (vec.regrow element held wanted store).1 := by
  unfold regrow
  rw [Attempt.bind_apply, Attempt.lift_apply]
  cases hrun : (Allocator.expand vec.buffer held wanted.size).run store with
  | mk answer middle =>
    cases answer with
    | ok size =>
      have hsize : wanted.size ≤ size := Allocator.expand_ok hrun
      exact grows_of_block hroomy hsized hmore (hwanted ▸ hsize) rfl rfl
        fun items h => ⟨h.length_eq, h.read_eq⟩
    | error kind =>
      cases hbitwise : element.bitwise with
      | true => exact resize_grows hroomy hsized hmore held wanted hwanted middle
      | false =>
        exact move_grows (hfaithful hbitwise) hroomy hsized hmore held wanted hwanted middle

theorem grows_unchanged {vec : Vec α} (hroomy : vec.Roomy element) {capacity : Nat}
    (hle : capacity ≤ vec.capacity) : Grows element view vec capacity (.ok vec) :=
  ⟨fun _ h => h, hroomy, Nat.le_refl _, hle⟩

theorem reserve_grows_of_sized (hfaithful : Faithful element view) {vec : Vec α}
    (hroomy : vec.Roomy element) (hsized : element.layout.size ≠ 0) (capacity : Nat)
    (store : Store) :
    Grows element view vec capacity (vec.reserve element capacity store).1 := by
  unfold reserve
  split
  · rename_i hle
    exact grows_unchanged hroomy hle
  rename_i hmore
  cases hwanted : element.layout.array? capacity with
  | none => exact ErrorKind.ofRequest_integerOverflow
  | some wanted =>
    obtain ⟨-, rfl⟩ := Layout.of?_eq_some_iff.1 hwanted
    cases vec.bufferLayout? element with
    | none =>
      have hfulfils := Allocator.allocate_fulfils
        ⟨element.layout.size * capacity, element.layout.align⟩ store
      dsimp only
      rw [Attempt.bind_apply]
      generalize Allocator.allocate _ store = run at hfulfils ⊢
      obtain ⟨answer, middle⟩ := run
      cases answer with
      | error kind => exact hfulfils
      | ok block =>
        exact grows_of_block hroomy hsized (Nat.lt_of_not_le hmore) hfulfils rfl rfl
          fun items h => ⟨h.length_eq, h.read_eq⟩
    | some held =>
      exact regrow_grows hfaithful hroomy hsized (Nat.lt_of_not_le hmore) held _ rfl store

/-- Elements without a size have room for any count that is a word. -/
theorem Roomy.le_capacity {vec : Vec α} (hroomy : vec.Roomy element)
    (hsizeless : element.layout.size = 0) {capacity : Nat} (hword : capacity < Word.limit) :
    capacity ≤ vec.capacity := by
  have hall := hroomy.sizeless hsizeless
  unfold Word.greatest at hall
  omega

theorem reserve_grows (hfaithful : Faithful element view) {vec : Vec α}
    (hroomy : vec.Roomy element) {capacity : Nat}
    (hword : element.layout.size = 0 → capacity < Word.limit) (store : Store) :
    Grows element view vec capacity (vec.reserve element capacity store).1 := by
  by_cases hsized : element.layout.size = 0
  · have hle := hroomy.le_capacity hsized (hword hsized)
    unfold reserve
    rw [if_pos hle]
    exact grows_unchanged hroomy hle
  · exact reserve_grows_of_sized hfaithful hroomy hsized capacity store

theorem reserveAdditional_grows (hfaithful : Faithful element view) {vec : Vec α}
    (hroomy : vec.Roomy element) (additional : Nat) (store : Store) :
    Grows element view vec (vec.length + additional)
      (vec.reserveAdditional element additional store).1 := by
  unfold reserveAdditional
  cases hcapacity : Word.add? vec.length additional with
  | none => exact ErrorKind.ofRequest_integerOverflow
  | some capacity =>
    obtain ⟨hword, rfl⟩ := Word.fit?_eq_some_iff.1 hcapacity
    exact reserve_grows hfaithful hroomy (fun _ => hword) store

theorem growForOne_grows (hfaithful : Faithful element view) {vec : Vec α}
    (hroomy : vec.Roomy element) (store : Store) :
    Grows element view vec (vec.length + 1) (vec.growForOne element store).1 := by
  have hlength := hroomy.length_le
  have hweaken : ∀ {capacity : Nat} {answer : Except ErrorKind (Vec α)},
      vec.length + 1 ≤ capacity → Grows element view vec capacity answer →
        Grows element view vec (vec.length + 1) answer := by
    intro capacity answer hle h
    cases answer with
    | error kind => exact h
    | ok grown => exact ⟨h.1, h.2.1, h.2.2.1, Nat.le_trans hle h.2.2.2⟩
  unfold growForOne
  split
  · rename_i hlt
    exact grows_unchanged hroomy hlt
  split
  · rename_i hzero
    refine hweaken ?_ (reserve_grows hfaithful hroomy (fun _ => by decide) store)
    unfold firstCapacity
    omega
  rename_i hpos
  cases hcapacity : Word.mul? vec.capacity 2 with
  | none => exact ErrorKind.ofRequest_integerOverflow
  | some capacity =>
    obtain ⟨hword, rfl⟩ := Word.fit?_eq_some_iff.1 hcapacity
    refine hweaken ?_ (reserve_grows hfaithful hroomy (fun _ => hword) store)
    omega

/-! ## Room to spare

A vector that has the room that is asked for is not grown, and growing it cannot fail. -/

theorem lt_of_reserve_error {vec : Vec α} {capacity : Nat} {kind : ErrorKind}
    {store after : Store} (h : vec.reserve element capacity store = (.error kind, after)) :
    vec.capacity < capacity := by
  refine Nat.lt_of_not_le fun hle => ?_
  unfold reserve at h
  rw [if_pos hle] at h
  cases h

theorem lt_of_reserveAdditional_error {vec : Vec α} {additional : Nat} {kind : ErrorKind}
    {store after : Store}
    (h : vec.reserveAdditional element additional store = (.error kind, after)) :
    min vec.capacity Word.greatest < vec.length + additional := by
  unfold reserveAdditional at h
  cases hcapacity : Word.add? vec.length additional with
  | none =>
    have hgreat : Word.limit ≤ vec.length + additional :=
      Nat.le_of_not_lt fun hlt => by simp [Word.add?, Word.fit?, hlt] at hcapacity
    have hgreatest : Word.greatest < Word.limit := by decide
    omega
  | some capacity =>
    obtain ⟨-, rfl⟩ := Word.fit?_eq_some_iff.1 hcapacity
    rw [hcapacity] at h
    exact Nat.lt_of_le_of_lt (Nat.min_le_left _ _) (lt_of_reserve_error h)

theorem lt_of_growForOne_error {vec : Vec α} {kind : ErrorKind} {store after : Store}
    (h : vec.growForOne element store = (.error kind, after)) :
    vec.capacity < vec.length + 1 := by
  refine Nat.lt_of_not_le fun hlt => ?_
  unfold growForOne at h
  rw [if_pos (Nat.lt_of_succ_le hlt)] at h
  cases h

end Vec
end Freehold
