import Mathlib.Data.List.Nodup
import Freehold.Element.Catalogue
import Freehold.Element.Composite
import Freehold.Proofs.Attempt
import Freehold.Proofs.Memory.Record

/-!
# Moving composed values

The values of leaf types inside a composed value are told apart by the positions that lead to
them.  Moving the composed value moves each of them on its own, from its position in the old
place to the same position in the new one, and leaves everything else of the value as it is.
-/

namespace Freehold

/-! ## Positions -/

namespace Spot

/-- Where positions inside positions lead to. -/
def follow : Spot → List Nat → Spot
  | whole, [] => whole
  | whole, index :: path => (whole.part index).follow path

def depth : Spot → Nat
  | part whole _ => whole.depth + 1
  | _ => 0

theorem depth_follow (whole : Spot) (path : List Nat) :
    (whole.follow path).depth = whole.depth + path.length := by
  induction path generalizing whole with
  | nil => rfl
  | cons index path ih =>
    rw [follow, ih, depth, List.length_cons]
    omega

/-- Different paths lead to different places. -/
theorem follow_injective (whole : Spot) : Function.Injective whole.follow := by
  suffices h : ∀ (first second : List Nat) (whole other : Spot), first.length = second.length →
      whole.follow first = other.follow second → whole = other ∧ first = second by
    intro first second heq
    have hdepth := congrArg depth heq
    rw [depth_follow, depth_follow] at hdepth
    exact (h first second whole whole (by omega) heq).2
  intro first
  induction first with
  | nil =>
    intro second whole other hlength heq
    obtain rfl := List.length_eq_zero_iff.1 hlength.symm
    exact ⟨heq, rfl⟩
  | cons index path ih =>
    intro second whole other hlength heq
    cases second with
    | nil => cases hlength
    | cons next rest =>
      obtain ⟨hpart, rfl⟩ := ih rest _ _ (Nat.succ.inj hlength) heq
      cases hpart
      exact ⟨rfl, rfl⟩

end Spot

/-! ## Occupants -/

/-- A value of a leaf type inside a composed value, at the position where its path ends. -/
structure Occupant where
  leaf : Leaf
  path : List Nat
  piece : Piece

namespace Occupant

def under (index : Nat) (occupant : Occupant) : Occupant :=
  { occupant with path := index :: occupant.path }

/-- The occupant made valid in a place. -/
def settled (whole : Spot) (occupant : Occupant) : Occupant :=
  { occupant with piece := occupant.leaf.anchorAt (whole.follow occupant.path) occupant.piece }

/-- From where to where the occupant goes when the whole moves. -/
def way (source target : Spot) (occupant : Occupant) : Spot × Spot :=
  (source.follow occupant.path, target.follow occupant.path)

/-- What goes on record when the occupant is moved by the relocation of its own type. -/
def entries (source target : Spot) (occupant : Occupant) : List Entry :=
  if occupant.leaf.anchored then
    .relocation (source.follow occupant.path) (target.follow occupant.path) ::
      (occupant.piece.serial.map fun serial => Entry.event (.moved serial)).toList
  else []

theorem entries_of_free {occupant : Occupant} (h : occupant.leaf.anchored = false)
    (source target : Spot) : occupant.entries source target = [] := by
  unfold entries
  rw [h]
  rfl

theorem relocations_entries (source target : Spot) (occupant : Occupant) :
    relocations (occupant.entries source target) =
      if occupant.leaf.anchored then [occupant.way source target] else [] := by
  unfold entries
  split
  · cases occupant.piece.serial with
    | none => rfl
    | some serial => rfl
  · rfl

theorem announced_entries (source target : Spot) (occupant : Occupant) :
    (occupant.entries source target).filterMap Entry.event? =
      if occupant.leaf.anchored then (occupant.piece.serial.map Event.moved).toList else [] := by
  unfold entries
  split
  · cases occupant.piece.serial with
    | none => rfl
    | some serial => rfl
  · rfl

/-- Nothing but relocations and their announcements goes on record. -/
theorem entries_kind {source target : Spot} {occupant : Occupant} {entry : Entry}
    (h : entry ∈ occupant.entries source target) :
    entry = .relocation (source.follow occupant.path) (target.follow occupant.path) ∨
      ∃ serial, entry = .event (.moved serial) := by
  unfold entries at h
  split at h
  · rcases List.mem_cons.1 h with hentry | hentry
    · exact .inl hentry
    · obtain ⟨serial, -, rfl⟩ := Option.map_eq_some_iff.1 (Option.mem_toList.1 hentry)
      exact .inr ⟨serial, rfl⟩
  · cases h

/-- What goes on record for the occupants of a part. -/
theorem entries_under (source target : Spot) (index : Nat) (occupants : List Occupant) :
    (occupants.map (under index)).flatMap (·.entries source target) =
      occupants.flatMap (·.entries (source.part index) (target.part index)) :=
  List.flatMap_map ..

end Occupant

/-- The store once some more entries are on record. -/
def Store.noting (store : Store) (entries : List Entry) : Store :=
  { store with trace := entries.reverse ++ store.trace }

namespace Store

theorem noting_append (store : Store) (first second : List Entry) :
    (store.noting first).noting second = store.noting (first ++ second) := by
  unfold noting
  rw [List.reverse_append, List.append_assoc]

end Store

namespace Composite

/-- The leaf types that a type is composed from. -/
def leafTypes : Composite → List Leaf
  | leaf type => [type]
  | option inner | array inner | cell inner | staged inner => inner.leafTypes

/-- What is inside the parts of a value, which have consecutive positions. -/
def occupantsFrom (occupants : α → List Occupant) (index : Nat) : List α → List Occupant
  | [] => []
  | value :: rest =>
    (occupants value).map (.under index) ++ occupantsFrom occupants (index + 1) rest

/-- The values of leaf types that are present in a value.  There is none behind an absent
value, nor behind one that is not completed yet. -/
def occupants : (type : Composite) → type.Carrier → List Occupant
  | leaf type, piece => [⟨type, [], piece⟩]
  | option inner, value => occupantsFrom inner.occupants 0 (Option.toList value)
  | array inner, values => occupantsFrom inner.occupants 0 values
  | cell inner, value => inner.occupants value
  | staged inner, value => occupantsFrom inner.occupants 0 (Option.toList value)

/-- The value apart from where its address-dependent leaves believe to be. -/
def unanchored : (type : Composite) → type.Carrier → type.Carrier
  | leaf type, piece => if type.anchored then { piece with anchor := none } else piece
  | option inner, value => Option.map inner.unanchored value
  | array inner, values => List.map inner.unanchored values
  | cell inner, value => inner.unanchored value
  | staged inner, value => Option.map inner.unanchored value

/-- What goes on record when a value is moved by the relocation of its type. -/
def journey (type : Composite) (source target : Spot) (value : type.Carrier) : List Entry :=
  (type.occupants value).flatMap (·.entries source target)

/-- Moves a value as containers do: by its bytes where that is enough, and otherwise by the
relocation of its type. -/
def move (type : Composite) (source target : Spot) (value : type.Carrier) :
    Effect type.Carrier :=
  if type.bitwise then pure value else type.relocate source target value

/-! ## Occupants of the parts -/

section Parts

variable {α : Type} {occupants : α → List Occupant} {occupant : Occupant}

theorem mem_occupantsFrom {index : Nat} {values : List α}
    (h : occupant ∈ occupantsFrom occupants index values) :
    ∃ value ∈ values, ∃ part ∈ occupants value, ∃ position, index ≤ position ∧
      part.under position = occupant := by
  induction values generalizing index with
  | nil => cases h
  | cons value rest ih =>
    rcases List.mem_append.1 h with hfirst | hrest
    · obtain ⟨part, hpart, heq⟩ := List.mem_map.1 hfirst
      exact ⟨value, List.mem_cons_self, part, hpart, index, Nat.le_refl index, heq⟩
    · obtain ⟨other, hother, part, hpart, position, hposition, heq⟩ := ih hrest
      exact ⟨other, List.mem_cons_of_mem value hother, part, hpart, position, by omega, heq⟩

/-- Parts at different positions have nothing in common, so all paths stay apart. -/
theorem occupantsFrom_apart (h : ∀ value, ((occupants value).map Occupant.path).Nodup)
    (index : Nat) (values : List α) :
    ((occupantsFrom occupants index values).map Occupant.path).Nodup := by
  induction values generalizing index with
  | nil => exact List.nodup_nil
  | cons value rest ih =>
    have hunder : ((occupants value).map (.under index)).map Occupant.path =
        ((occupants value).map Occupant.path).map (index :: ·) := by
      rw [List.map_map, List.map_map]
      rfl
    rw [occupantsFrom, List.map_append, hunder]
    refine ((h value).map List.cons_injective).append (ih (index + 1)) fun path hpath hlater => ?_
    obtain ⟨tail, -, rfl⟩ := List.mem_map.1 hpath
    obtain ⟨later, hmem, hpath⟩ := List.mem_map.1 hlater
    obtain ⟨_, _, part, _, position, hposition, rfl⟩ := mem_occupantsFrom hmem
    have hhead : position = index := (List.cons.inj hpath).1
    omega

theorem occupantsFrom_settled {settle : Spot → α → α}
    (h : ∀ spot value, occupants (settle spot value) = (occupants value).map (.settled spot))
    (spot : Spot) (index : Nat) (values : List α) :
    occupantsFrom occupants index
        (values.mapIdx fun offset value => settle (spot.part (index + offset)) value) =
      (occupantsFrom occupants index values).map (.settled spot) := by
  induction values generalizing index with
  | nil => rfl
  | cons value rest ih =>
    have hrest := ih (index + 1)
    simp only [Nat.add_right_comm index 1] at hrest
    rw [List.mapIdx_cons, occupantsFrom, occupantsFrom, List.map_append, h]
    refine congrArg₂ (· ++ ·) ?_ hrest
    rw [List.map_map, List.map_map]
    rfl

/-- What settling leaves as it is in each part, it leaves as it is in all of them. -/
theorem map_settled {γ : Type} {forget : α → γ} {settle : Nat → α → α}
    (h : ∀ index value, forget (settle index value) = forget value) (values : List α) :
    (values.mapIdx settle).map forget = values.map forget := by
  refine List.ext_getElem (by simp only [List.length_map, List.length_mapIdx]) fun index _ _ => ?_
  simp only [List.getElem_map, List.getElem_mapIdx, h]

/-- If every part is moved occupant by occupant, so are all of them, in index order. -/
theorem relocateFrom_apply {move : Spot → Spot → α → Effect α} {settle : Spot → α → α}
    (h : ∀ source target value store, move source target value store =
      (settle target value, store.noting ((occupants value).flatMap (·.entries source target))))
    (source target : Spot) (index : Nat) (values : List α) (store : Store) :
    relocateFrom move source target index values store =
      (values.mapIdx fun offset value => settle (target.part (index + offset)) value,
        store.noting
          ((occupantsFrom occupants index values).flatMap (·.entries source target))) := by
  induction values generalizing index store with
  | nil => rfl
  | cons value rest ih =>
    rw [relocateFrom, Effect.bind_apply, h, Effect.bind_apply, ih, Store.noting_append,
      occupantsFrom, List.flatMap_append, Occupant.entries_under, List.mapIdx_cons]
    simp only [Nat.add_right_comm index 1]
    rfl

/-- A present value is moved as the only part of its whole. -/
theorem present_apply {move : Spot → Spot → α → Effect α} {settle : Spot → α → α}
    (h : ∀ source target value store, move source target value store =
      (settle target value, store.noting ((occupants value).flatMap (·.entries source target))))
    (source target : Spot) (value : α) (store : Store) :
    (some <$> move (source.part 0) (target.part 0) value : Effect (Option α)) store =
      (some (settle (target.part 0) value),
        store.noting ((occupantsFrom occupants 0 [value]).flatMap (·.entries source target))) := by
  rw [← bind_pure_comp, Effect.bind_apply, h, occupantsFrom, occupantsFrom, List.append_nil,
    Occupant.entries_under]
  rfl

end Parts

/-! ## Flags -/

theorem bitwise_iff (type : Composite) :
    type.bitwise = true ↔ ∀ leaf ∈ type.leafTypes, leaf.element.bitwise = true := by
  induction type with
  | leaf type => simp only [bitwise, leafTypes, List.forall_mem_singleton]
  | option inner ih => exact ih
  | array inner ih => exact ih
  | cell inner ih => exact ih
  | staged inner ih => exact ih

/-- Every occupant of a value is of a leaf type that the type is composed from. -/
theorem leaf_mem (type : Composite) (value : type.Carrier) {occupant : Occupant}
    (h : occupant ∈ type.occupants value) : occupant.leaf ∈ type.leafTypes := by
  induction type generalizing occupant with
  | leaf type =>
    obtain rfl := List.mem_singleton.1 h
    exact List.mem_singleton_self type
  | cell inner ih => exact ih value h
  | option inner ih | array inner ih | staged inner ih =>
    obtain ⟨part, -, inside, hinside, position, -, rfl⟩ := mem_occupantsFrom h
    have hleaf : inside.leaf ∈ inner.leafTypes := ih part hinside
    exact hleaf

theorem occupant_free {type : Composite} (hbitwise : type.bitwise = true) {value : type.Carrier}
    {occupant : Occupant} (h : occupant ∈ type.occupants value) :
    occupant.leaf.anchored = false := by
  have hleaf := type.bitwise_iff.1 hbitwise occupant.leaf (type.leaf_mem value h)
  exact Bool.not_eq_true' .. |>.mp hleaf

theorem paths_apart (type : Composite) (value : type.Carrier) :
    ((type.occupants value).map Occupant.path).Nodup := by
  induction type with
  | leaf type => exact List.nodup_singleton _
  | cell inner ih => exact ih value
  | option inner ih | array inner ih | staged inner ih => exact occupantsFrom_apart ih 0 _

/-! ## Settled values -/

theorem occupants_settle (type : Composite) (spot : Spot) (value : type.Carrier) :
    type.occupants (type.settle spot value) = (type.occupants value).map (.settled spot) := by
  induction type generalizing spot with
  | leaf type => rfl
  | cell inner ih => exact ih spot value
  | array inner ih =>
    have hparts := occupantsFrom_settled (fun spot value => ih spot value) spot 0 value
    simp only [Nat.zero_add] at hparts
    exact hparts
  | option inner ih | staged inner ih =>
    cases value with
    | none => rfl
    | some value => exact occupantsFrom_settled (fun spot value => ih spot value) spot 0 [value]

theorem unanchored_settle (type : Composite) (spot : Spot) (value : type.Carrier) :
    type.unanchored (type.settle spot value) = type.unanchored value := by
  induction type generalizing spot with
  | leaf type =>
    simp only [settle, unanchored, Leaf.anchorAt]
    cases type.anchored with
    | false => rfl
    | true => rfl
  | cell inner ih => exact ih spot value
  | array inner ih =>
    exact map_settled (fun index part => ih (spot.part index) part) value
  | option inner ih | staged inner ih =>
    cases value with
    | none => rfl
    | some value => exact congrArg some (ih _ value)

/-- Values of a bitwise type do not depend on where they are. -/
theorem settle_of_bitwise {type : Composite} (h : type.bitwise = true) (spot : Spot)
    (value : type.Carrier) : type.settle spot value = value := by
  induction type generalizing spot with
  | leaf type =>
    have hfree : type.anchored = false := Bool.not_eq_true' .. |>.mp h
    simp only [settle, Leaf.anchorAt, hfree]
    rfl
  | cell inner ih => exact ih h spot value
  | array inner ih =>
    change List inner.Carrier at value
    have hparts := map_settled
      (fun index part => congrArg id (ih h (spot.part index) part)) value
    exact (List.map_id _).symm.trans (hparts.trans (List.map_id value))
  | option inner ih | staged inner ih =>
    cases value with
    | none => rfl
    | some value => exact congrArg some (ih h _ value)

/-! ## Relocation -/

section Relocation

variable (type : Composite) (source target : Spot) (value : type.Carrier) (store : Store)

theorem journey_of_bitwise (h : type.bitwise = true) : type.journey source target value = [] :=
  List.flatMap_eq_nil_iff.2 fun _ hmem =>
    Occupant.entries_of_free (occupant_free h hmem) source target

/-- A leaf value is moved by its own type, or by its bytes. -/
theorem carry_leaf (type : Leaf) (source target : Spot) (piece : Piece) (store : Store) :
    type.element.carry source target piece store =
      (type.anchorAt target piece,
        store.noting (Occupant.entries source target ⟨type, [], piece⟩)) := by
  unfold Movable.carry Occupant.entries Leaf.anchorAt
  cases hanchored : type.anchored with
  | false =>
    have hbitwise : type.element.bitwise = true := Bool.not_eq_true' .. |>.mpr hanchored
    rw [if_pos hbitwise]
    rfl
  | true =>
    have hbitwise : ¬type.element.bitwise = true := by
      simp only [Leaf.element, hanchored, Bool.not_true, Bool.false_eq_true, not_false_eq_true]
    rw [if_neg hbitwise]
    show type.relocate source target piece _ = _
    unfold Leaf.relocate
    rw [if_pos hanchored]
    obtain ⟨datum, serial, anchor, drawn⟩ := piece
    cases serial with
    | none => rfl
    | some serial => rfl

/-- For a bitwise type nothing has to be settled and nothing goes on record. -/
theorem pure_of_bitwise (h : type.bitwise = true) :
    (pure value : Effect type.Carrier) store =
      (type.settle target value, store.noting (type.journey source target value)) := by
  rw [settle_of_bitwise h, journey_of_bitwise type source target value h]
  rfl

/-- The relocation of a type moves the occupants one by one, and leaves the value that its
user would have got by putting it into the new place by hand. -/
theorem relocate_apply :
    type.relocate source target value store =
      (type.settle target value, store.noting (type.journey source target value)) := by
  induction type generalizing source target store with
  | leaf type =>
    refine (carry_leaf type source target value store).trans ?_
    rw [journey, occupants, List.flatMap_singleton]
    rfl
  | cell inner ih => exact ih source target value store
  | array inner ih =>
    change List inner.Carrier at value
    by_cases hbitwise : inner.bitwise = true
    · refine Eq.trans ?_ (pure_of_bitwise (array inner) source target value store hbitwise)
      exact congrFun (if_pos hbitwise) store
    · have hloop := relocateFrom_apply ih source target 0 value store
      simp only [Nat.zero_add] at hloop
      exact (congrFun (if_neg hbitwise) store).trans hloop
  | option inner ih =>
    cases value with
    | none => rfl
    | some value =>
      by_cases hbitwise : inner.bitwise = true
      · refine Eq.trans ?_
          (pure_of_bitwise (option inner) source target (some value) store hbitwise)
        rw [relocate, if_pos hbitwise]
      · refine (congrFun (if_neg hbitwise) store).trans ?_
        exact present_apply ih source target value store
  | staged inner ih =>
    cases value with
    | none => rfl
    | some value => exact present_apply ih source target value store

/-- Containers move a value so, and note its relocation if it has one. -/
theorem carry_eq_move :
    type.movable.carry source target value store =
      type.move source target value
        (if type.bitwise then store else store.noting [.relocation source target]) := by
  unfold Movable.carry move
  by_cases hbitwise : type.bitwise = true
  · rw [if_pos hbitwise, if_pos hbitwise]
    exact congrFun (if_pos hbitwise) store
  · rw [if_neg hbitwise, if_neg hbitwise]
    exact congrFun (if_neg hbitwise) store

theorem move_apply :
    type.move source target value store =
      (type.settle target value, store.noting (type.journey source target value)) := by
  unfold move
  split
  · exact pure_of_bitwise type source target value store ‹_›
  · exact type.relocate_apply source target value store

theorem relocations_journey :
    relocations (type.journey source target value) =
      ((type.occupants value).filter (·.leaf.anchored)).map (·.way source target) := by
  unfold journey
  induction type.occupants value with
  | nil => rfl
  | cons occupant rest ih =>
    rw [List.flatMap_cons, relocations_append, ih, Occupant.relocations_entries]
    cases hanchored : occupant.leaf.anchored with
    | false => rw [List.filter_cons_of_neg (by simp [hanchored])]; rfl
    | true => rw [List.filter_cons_of_pos (by exact hanchored)]; rfl

theorem announced_journey :
    (type.journey source target value).filterMap Entry.event? =
      ((type.occupants value).filter (·.leaf.anchored)).filterMap
        (·.piece.serial.map Event.moved) := by
  unfold journey
  induction type.occupants value with
  | nil => rfl
  | cons occupant rest ih =>
    rw [List.flatMap_cons, List.filterMap_append, ih, Occupant.announced_entries]
    cases hanchored : occupant.leaf.anchored with
    | false => rw [List.filter_cons_of_neg (by simp [hanchored])]; rfl
    | true =>
      rw [List.filter_cons_of_pos (by exact hanchored), List.filterMap_cons]
      cases occupant.piece.serial with
      | none => rfl
      | some serial => rfl

/-- No occupant goes the same way as another one. -/
theorem ways_apart :
    (((type.occupants value).filter (·.leaf.anchored)).map (·.way source target)).Nodup := by
  have hpaths : (((type.occupants value).filter (·.leaf.anchored)).map Occupant.path).Nodup :=
    (type.paths_apart value).sublist (List.filter_sublist.map _)
  refine List.Nodup.of_map Prod.fst ?_
  rw [List.map_map]
  have hways : Prod.fst ∘ Occupant.way source target = source.follow ∘ Occupant.path := rfl
  rw [hways, ← List.map_map]
  exact hpaths.map source.follow_injective

end Relocation

/-- What moving a value of a composed type comes to: the value that is left in the new place
and the entries that go on record. -/
structure MovesWhole (type : Composite) (source target : Spot) (value moved : type.Carrier)
    (entries : List Entry) : Prop where
  /-- Nothing is different but where address-dependent leaves believe to be. -/
  same : type.unanchored moved = type.unanchored value
  /-- The same leaf values are present at the same positions. -/
  occupants : type.occupants moved = (type.occupants value).map (.settled target)
  /-- Every address-dependent leaf value is valid in the new place. -/
  valid : ∀ occupant ∈ type.occupants moved, occupant.leaf.anchored = true →
    occupant.piece.anchor = some (target.follow occupant.path)
  /-- Each of them was relocated from its old position to the same position in the new
  place, in order, and nothing else was. -/
  relocated : relocations entries =
    ((type.occupants value).filter (·.leaf.anchored)).map (·.way source target)
  once : (relocations entries).Nodup
  announced : entries.filterMap Entry.event? =
    ((type.occupants value).filter (·.leaf.anchored)).filterMap (·.piece.serial.map Event.moved)
  /-- Nothing else befell a leaf value, so none was built or destroyed. -/
  quiet : ∀ entry ∈ entries,
    entry.relocation?.isSome ∨ ∃ serial, entry = .event (.moved serial)

theorem movesWhole (type : Composite) (source target : Spot) (value : type.Carrier) :
    type.MovesWhole source target value (type.settle target value)
      (type.journey source target value) where
  same := type.unanchored_settle target value
  occupants := type.occupants_settle target value
  valid occupant hmem hanchored := by
    rw [occupants_settle] at hmem
    obtain ⟨before, -, rfl⟩ := List.mem_map.1 hmem
    exact congrArg Piece.anchor (if_pos hanchored)
  relocated := type.relocations_journey source target value
  once := by
    rw [relocations_journey]
    exact type.ways_apart source target value
  announced := type.announced_journey source target value
  quiet entry hmem := by
    obtain ⟨occupant, -, hentry⟩ := List.mem_flatMap.1 hmem
    obtain rfl | hmoved := Occupant.entries_kind hentry
    · exact .inl rfl
    · exact .inr hmoved

/-- A composed type is bitwise exactly when its leaf types are, and then its relocation does
what a copy of the bytes does.  Moving a value as containers do changes nothing but the
record, where the address-dependent leaves are relocated one by one. -/
theorem composed_value_moves_whole (type : Composite) (source target : Spot)
    (value : type.Carrier) (store : Store) :
    (type.bitwise = true ↔ ∀ leaf ∈ type.leafTypes, leaf.element.bitwise = true) ∧
      (∃ moved entries,
        type.move source target value store = (moved, store.noting entries) ∧
          type.MovesWhole source target value moved entries) ∧
      (type.bitwise = true → type.relocate source target value store = (value, store)) ∧
      type.movable.carry source target value store =
        type.move source target value
          (if type.bitwise then store else store.noting [.relocation source target]) := by
  refine ⟨type.bitwise_iff, ?_, fun hbitwise => ?_, type.carry_eq_move source target value store⟩
  · exact ⟨_, _, type.move_apply source target value store,
      type.movesWhole source target value⟩
  · rw [relocate_apply, settle_of_bitwise hbitwise, journey_of_bitwise type _ _ _ hbitwise]
    rfl

/-- In an array of optional values only the present ones are relocated. -/
example (piece : Piece) :
    relocations ((array (option (leaf Catalogue.anchored))).journey (.own "old") (.own "new")
      [some piece, none, some piece]) =
      [(((Spot.own "old").part 0).part 0, ((Spot.own "new").part 0).part 0),
        (((Spot.own "old").part 2).part 0, ((Spot.own "new").part 2).part 0)] :=
  relocations_journey _ _ _ _

end Composite
end Freehold
