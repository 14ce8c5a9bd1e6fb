import Freehold.Proofs.Vec.Shifting

/-!
# Operations of vectors on lists

Each operation of a vector does to the list that it shows what the operation of that
name does to any list, or it fails and leaves the list as it was.
-/

namespace Freehold
namespace Vec

variable {α β κ : Type} {element : Element α} {view : α → κ} {vec : Vec α} {items : List κ}

theorem Shows.seen_eq (h : vec.Shows view items) (index : Nat) :
    Slots.seen view vec.slots index = items[index]? := h.read_eq index

theorem Shows.live (h : vec.Shows view items) {index : Nat} (hlt : index < vec.length) :
    (Slots.seen view vec.slots index).isSome := by
  rw [h.seen_eq, List.getElem?_eq_getElem (h.length_eq ▸ hlt)]
  rfl

theorem Shows.get?_eq (h : vec.Shows view items) (index : Nat) :
    (vec.get? index).map view = items[index]? := by
  unfold get?
  split
  · exact h.read_eq index
  · rename_i hge
    rw [List.getElem?_eq_none (by have hlength := h.length_eq; omega)]
    rfl

theorem empty_shows (element : Element α) (view : α → κ) : (empty element).Shows view [] :=
  ⟨rfl, fun _ => rfl⟩

theorem empty_roomy (element : Element α) : (empty element).Roomy element := by
  refine ⟨Nat.zero_le _, ?_⟩
  intro hzero
  simp [empty, hzero]

/-- The vector shows the items and has room for them, and the buffer is not smaller. -/
structure Follows (element : Element α) (view : α → κ) (vec next : Vec α) (items : List κ) :
    Prop where
  shows : next.Shows view items
  roomy : next.Roomy element
  capacity_le : vec.capacity ≤ next.capacity

theorem Follows.refl (hshows : vec.Shows view items) (hroomy : vec.Roomy element) :
    Follows element view vec vec items := ⟨hshows, hroomy, Nat.le_refl _⟩

/-- A result that shows the items, unless an allocator or a size is to blame. -/
def Becomes (element : Element α) (view : α → κ) (vec : Vec α) (items : List κ) :
    Except ErrorKind (Vec α) → Prop
  | .ok next => Follows element view vec next items
  | .error kind => kind.OfRequest

theorem Grows.becomes {capacity : Nat} {answer : Except ErrorKind (Vec α)}
    (hshows : vec.Shows view items) (h : Grows element view vec capacity answer) :
    Becomes element view vec items answer := by
  cases answer with
  | error kind => exact h
  | ok grown => exact ⟨h.1 items hshows, h.2.1, h.2.2.1⟩

/-! ## Putting elements in -/

theorem Follows.append {grown : Vec α} (h : Follows element view vec grown items)
    (hroom : grown.length < grown.capacity) (value : α) :
    Follows element view vec (grown.append value) (items ++ [view value]) := by
  refine ⟨⟨?_, ?_⟩, ⟨hroom, h.roomy.sizeless⟩, h.capacity_le⟩
  · simp [Vec.append, h.shows.length_eq]
  · intro index
    have hlength := h.shows.length_eq
    show Slots.seen view (grown.slots.write grown.length value) index = _
    by_cases heq : index = grown.length
    · subst heq
      simp [Slots.seen, hlength]
    · rw [Slots.seen, Slots.read_write_of_ne _ _ heq, h.shows.read_eq]
      rcases Nat.lt_or_ge index items.length with hlt | hge
      · rw [List.getElem?_append_left hlt]
      · rw [List.getElem?_eq_none hge, List.getElem?_eq_none]
        rw [List.length_append, List.length_singleton]
        omega

theorem Grows.room {grown : Vec α} (hshows : vec.Shows view items)
    (h : Grows element view vec (vec.length + 1) (.ok grown)) : grown.length < grown.capacity := by
  have hlength := (h.1 items hshows).length_eq
  have hlength' := hshows.length_eq
  have hcapacity := h.2.2.2
  omega

theorem push_becomes (hfaithful : Faithful element view) (hshows : vec.Shows view items)
    (hroomy : vec.Roomy element) (value : α) (store : Store) :
    Becomes element view vec (items ++ [view value]) (vec.push element value store).1 := by
  have hgrows := growForOne_grows hfaithful hroomy store
  unfold push
  rw [Attempt.bind_apply, Attempt.undoing_apply]
  generalize vec.growForOne element store = run at hgrows ⊢
  obtain ⟨answer, middle⟩ := run
  cases answer with
  | error kind => exact hgrows
  | ok grown => exact (Grows.becomes hshows hgrows).append (Grows.room hshows hgrows) value

theorem seen_openGap (hfaithful : Faithful element view) (hshows : vec.Shows view items)
    {index : Nat} (hindex : index ≤ vec.length) (store : Store) (other : Nat) :
    Slots.seen view (vec.openGap element index store).1 other =
      if other < index then items[other]?
      else if other = index then none
      else items[other - 1]? := by
  have hshift : Slots.seen view (vec.openGap element index store).1 other =
      Slots.seen view (vec.slots.shift index (index + 1) (vec.length - index)) other := by
    unfold openGap
    cases hbitwise : element.bitwise with
    | true => rfl
    | false =>
      refine seen_shiftUp (hfaithful hbitwise) vec.buffer index ?_ store other
      intro source _ hlt
      exact hshows.live (by omega)
  have hlength := hshows.length_eq
  rw [hshift, seen_shift]
  simp only [hshows.seen_eq]
  split
  · rw [if_neg (by omega), if_neg (by omega)]
    congr 1
    omega
  split
  · rename_i hout hin
    by_cases heq : other = index
    · rw [if_neg (by omega), if_pos heq]
    · omega
  · rename_i hout hout'
    by_cases hlt : other < index
    · rw [if_pos hlt]
    · have hge : vec.length ≤ other := by omega
      rw [if_neg hlt, List.getElem?_eq_none (by omega)]
      split
      · rfl
      · rw [List.getElem?_eq_none (by omega)]

theorem insert_becomes (hfaithful : Faithful element view) (hshows : vec.Shows view items)
    (hroomy : vec.Roomy element) {index : Nat} (hindex : index ≤ items.length) (value : α)
    (store : Store) :
    Becomes element view vec (items.insertIdx index (view value))
      (vec.insert element index value store).1 := by
  have hgrows := growForOne_grows hfaithful hroomy store
  have hinside : ¬ vec.length < index := by
    rw [hshows.length_eq]
    omega
  unfold insert
  rw [if_neg hinside, Attempt.bind_apply, Attempt.undoing_apply]
  generalize vec.growForOne element store = run at hgrows ⊢
  obtain ⟨answer, middle⟩ := run
  cases answer with
  | error kind => exact hgrows
  | ok grown =>
    have hbecomes : Follows element view vec grown items := Grows.becomes hshows hgrows
    have hlength := hbecomes.shows.length_eq
    have hgap := seen_openGap hfaithful hbecomes.shows (hlength ▸ hindex) middle
    refine ⟨⟨?_, ?_⟩, ⟨?_, hbecomes.roomy.sizeless⟩, hbecomes.capacity_le⟩
    · show grown.length + 1 = _
      rw [List.length_insertIdx_of_le_length hindex, hlength]
    · intro other
      show Slots.seen view ((grown.openGap element index middle).1.write index value) other = _
      rw [List.getElem?_insertIdx]
      by_cases heq : other = index
      · subst heq
        simp [Slots.seen, hindex]
      · rw [Slots.seen, Slots.read_write_of_ne _ _ heq]
        refine (hgap other).trans ?_
        simp only [heq, if_false]
    · exact Grows.room hshows hgrows

def Emplaced (element : Element α) (builder : Builder β α) (view : α → κ) (vec : Vec α)
    (items : List κ) (args : β) : Except ErrorKind Unit × Vec α → Prop
  | (.error kind, next) =>
    Follows element view vec next items ∧
      ((vec.capacity < vec.length + 1 ∧ kind.OfRequest) ∨
        ∃ spot before after, builder.constructAt spot args before = (.error kind, after))
  | (.ok (), next) =>
    ∃ value spot before after, builder.constructAt spot args before = (.ok value, after) ∧
      next.get? vec.length = some value ∧
      Follows element view vec next (items ++ [view value])

theorem emplace_emplaced (hfaithful : Faithful element view) (hshows : vec.Shows view items)
    (hroomy : vec.Roomy element) (builder : Builder β α) (args : β) (store : Store) :
    Emplaced element builder view vec items args
      (vec.emplace element builder args store).1 := by
  have hgrows := growForOne_grows hfaithful hroomy store
  unfold emplace
  simp only [ExceptT.run, Effect.bind_apply]
  generalize hrun : vec.growForOne element store = run at hgrows ⊢
  obtain ⟨answer, middle⟩ := run
  cases answer with
  | error kind =>
    exact ⟨.refl hshows hroomy, Or.inl ⟨lt_of_growForOne_error hrun, hgrows⟩⟩
  | ok grown =>
    have hfollows : Follows element view vec grown items := Grows.becomes hshows hgrows
    dsimp only
    rw [Effect.bind_apply]
    cases hbuild : builder.constructAt (.slot grown.buffer grown.length) args middle with
    | mk built after =>
      dsimp only
      cases built with
      | error kind => exact ⟨hfollows, Or.inr ⟨_, _, _, hbuild⟩⟩
      | ok value =>
        refine ⟨value, _, _, _, hbuild, ?_, hfollows.append (Grows.room hshows hgrows) value⟩
        have hlength : grown.length = vec.length := by
          rw [hfollows.shows.length_eq, hshows.length_eq]
        show (grown.append value).get? vec.length = some value
        simp [get?, Vec.append, hlength]

/-! ## Taking elements out -/

theorem seen_closeGap (hfaithful : Faithful element view) (hshows : vec.Shows view items)
    {index : Nat} (hindex : index < vec.length) (store : Store) (other : Nat) :
    Slots.seen view (vec.closeGap element index store).1 other =
      (items.eraseIdx index)[other]? := by
  have hcleared : ∀ place, Slots.seen view (vec.slots.clear index) place =
      if place = index then none else items[place]? := by
    intro place
    unfold Slots.seen
    split
    · rename_i heq
      subst heq
      simp
    · rename_i hne
      rw [Slots.read_clear_of_ne _ hne, hshows.read_eq]
  have hshift : Slots.seen view (vec.closeGap element index store).1 other =
      Slots.seen view
        ((vec.slots.clear index).shift (index + 1) index (vec.length - index - 1)) other := by
    unfold closeGap
    cases hbitwise : element.bitwise with
    | true => rfl
    | false =>
      refine seen_shiftDown (hfaithful hbitwise) vec.buffer ?_ store other
      intro source hlt hle
      rw [hcleared, if_neg (by omega), ← hshows.seen_eq]
      exact hshows.live (by omega)
  have hlength := hshows.length_eq
  rw [hshift, seen_shift, List.getElem?_eraseIdx]
  simp only [hcleared]
  split
  · rename_i hin
    rw [if_neg (by omega), if_neg (by omega)]
    congr 1
    omega
  split
  · rw [if_neg (by omega), List.getElem?_eq_none (by omega)]
  · by_cases hlt : other < index
    · rw [if_neg (by omega), if_pos hlt]
    · rw [if_neg hlt, List.getElem?_eq_none (by omega : items.length ≤ other + 1)]
      split
      · rfl
      · exact List.getElem?_eq_none (by omega)

theorem remove_inside (hfaithful : Faithful element view) (hshows : vec.Shows view items)
    (hroomy : vec.Roomy element) {index : Nat} (hindex : index < items.length)
    (store : Store) :
    ∃ value next, (vec.remove element index store).1 = .ok (value, next) ∧
      items[index]? = some (view value) ∧
      Follows element view vec next (items.eraseIdx index) := by
  have hlength := hshows.length_eq
  have hinside : index < vec.length := hlength ▸ hindex
  have hlive := hshows.live hinside
  unfold Slots.seen at hlive
  cases hslot : vec.slots.read index with
  | none =>
    rw [hslot] at hlive
    cases hlive
  | some value =>
    refine ⟨value, { vec with
      length := vec.length - 1, slots := (vec.closeGap element index store).1 }, ?_, ?_, ?_⟩
    · unfold remove
      rw [if_pos hinside, hslot]
      rfl
    · rw [← hshows.read_eq, hslot]
      rfl
    · refine ⟨⟨?_, ?_⟩, ⟨?_, hroomy.sizeless⟩, Nat.le_refl _⟩
      · show vec.length - 1 = _
        rw [List.length_eraseIdx_of_lt hindex, hlength]
      · intro other
        exact seen_closeGap hfaithful hshows hinside store other
      · have hroom := hroomy.length_le
        show vec.length - 1 ≤ vec.capacity
        omega

theorem remove_outside (hshows : vec.Shows view items) {index : Nat}
    (hindex : items.length ≤ index) (store : Store) :
    (vec.remove element index store).1 = .error .outOfRange := by
  have houtside : ¬ index < vec.length := by
    rw [hshows.length_eq]
    omega
  unfold remove
  rw [if_neg houtside]
  rfl

theorem pop_nil (hshows : vec.Shows view []) : vec.pop = none := by
  unfold pop
  exact if_pos hshows.length_eq

theorem pop_concat {last : κ} (hshows : vec.Shows view (items ++ [last]))
    (hroomy : vec.Roomy element) :
    ∃ value next, vec.pop = some (value, next) ∧ view value = last ∧
      Follows element view vec next items := by
  have hlength : vec.length = items.length + 1 := by
    rw [hshows.length_eq, List.length_append, List.length_singleton]
  have hlast := hshows.read_eq items.length
  rw [List.getElem?_concat_length] at hlast
  obtain ⟨value, hvalue, hview⟩ := Option.map_eq_some_iff.1 hlast
  refine ⟨value, { vec with
    length := items.length, slots := vec.slots.clear items.length }, ?_, hview, ?_⟩
  · unfold pop
    rw [if_neg (by omega), hlength]
    simp [hvalue]
  · refine ⟨⟨rfl, ?_⟩, ⟨?_, hroomy.sizeless⟩, Nat.le_refl _⟩
    · intro index
      by_cases heq : index = items.length
      · subst heq
        simp
      · show (Slots.read (vec.slots.clear items.length) index).map view = _
        rw [Slots.read_clear_of_ne _ heq, hshows.read_eq]
        rcases Nat.lt_or_ge index items.length with hlt | hge
        · rw [List.getElem?_append_left hlt]
        · rw [List.getElem?_eq_none hge, List.getElem?_eq_none]
          rw [List.length_append, List.length_singleton]
          omega
    · have hroom := hroomy.length_le
      show items.length ≤ vec.capacity
      omega

theorem clear_follows (hroomy : vec.Roomy element) (store : Store) :
    Follows element view vec (vec.clear element store).1 [] := by
  have hclear : (vec.clear element store).1 = { vec with length := 0, slots := #[] } := by
    unfold clear
    cases vec.bufferLayout? element with
    | none => rfl
    | some held =>
      dsimp only
      split
      · rfl
      · rfl
  rw [hclear]
  exact ⟨⟨rfl, fun _ => rfl⟩, ⟨Nat.zero_le _, hroomy.sizeless⟩, Nat.le_refl _⟩

end Vec
end Freehold
