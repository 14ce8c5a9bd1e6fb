import Freehold.Proofs.Vec.Moves

/-!
# Elements that are valid at their slots

The validity of an element may depend on the spot where it is.  A relocation makes a value
that is valid at its source valid at its target, and the owner of a vector settles a value
that was moved in.  So every operation leaves every element valid at its own slot, whether
the buffer has moved or not.
-/

namespace Freehold

/-- What the owner of a vector settles besides the values that were moved in: elements that
were built, and copies. -/
structure Care where
  built : Bool := false
  copied : Bool := false

/-- Values are made valid where they come to be, or the owner sees to it. -/
structure Stock.Anchors {α γ : Type} (stock : Stock α γ) (care : Care)
    (valid : Spot → α → Prop) : Prop where
  elementwise : stock.element.bitwise = false
  relocates : ∀ source target value store, valid source value →
    valid target (stock.element.relocate source target value store).1
  settles : ∀ spot value, valid spot (stock.element.settle spot value)
  builds : care.built = true ∨ ∀ spot args store value after,
    stock.builder.constructAt spot args store = (.ok value, after) → valid spot value
  copies : care.copied = true ∨ ∀ spot source store value after,
    stock.copier.cloneAt spot source store = (.ok value, after) → valid spot value

variable {α β : Type}

/-- The value in a slot is valid there. -/
def Slots.Holds (valid : Spot → α → Prop) (buffer : Nat) (slots : Slots α) (index : Nat) :
    Prop :=
  ∃ value, slots.read index = some value ∧ valid (.slot buffer index) value

/-- Every element is valid at its own slot. -/
def Vec.Anchored (valid : Spot → α → Prop) (vec : Vec α) : Prop :=
  ∀ index, index < vec.length → vec.slots.Holds valid vec.buffer index

namespace Vec

variable {element : Element α} {valid : Spot → α → Prop} {vec : Vec α}

theorem holds_of_read {buffer : Nat} {slots slots' : Slots α} {index : Nat}
    (h : slots.Holds valid buffer index) (hread : slots'.read index = slots.read index) :
    slots'.Holds valid buffer index := by
  obtain ⟨value, hvalue, hvalid⟩ := h
  exact ⟨value, hread.trans hvalue, hvalid⟩

theorem Anchored.live (h : vec.Anchored valid) : vec.Live := by
  intro index hlt
  obtain ⟨value, hvalue, -⟩ := h index hlt
  rw [hvalue]
  rfl

/-! ## Relocating elements -/

section Relocating

variable (hrelocates : ∀ source target value store, valid source value →
  valid target (element.relocate source target value store).1)

include hrelocates

theorem holds_moveSlot {buffer source : Nat} {slots : Slots α}
    (h : slots.Holds valid buffer source) (target : Nat) (store : Store) :
    (moveSlot element buffer source target slots store).1.Holds valid buffer target := by
  obtain ⟨value, hvalue, hvalid⟩ := h
  unfold moveSlot
  rw [hvalue]
  exact ⟨_, Slots.read_write_self _ _ _, hrelocates _ _ value _ hvalid⟩

theorem holds_shiftUp {buffer index count : Nat} {slots : Slots α}
    (h : ∀ place, index ≤ place → place < index + count → slots.Holds valid buffer place)
    (store : Store) :
    (∀ place, index < place → place ≤ index + count →
      (shiftUp element buffer index count slots store).1.Holds valid buffer place) ∧
    ∀ place, place < index ∨ index + count < place →
      (shiftUp element buffer index count slots store).1.read place = slots.read place := by
  induction count generalizing slots store with
  | zero =>
    refine ⟨?_, fun _ _ => rfl⟩
    intro place hlt hle
    omega
  | succ count ih =>
    -- The last element goes first; it is not touched again by the moves below it.
    have hmoved := holds_moveSlot hrelocates (h (index + count) (by omega) (by omega))
      (index + count + 1) store
    have hread : ∀ place, place ≠ index + count → place ≠ index + count + 1 →
        (moveSlot element buffer (index + count) (index + count + 1) slots store).1.read place =
          slots.read place :=
      fun place hsource htarget => read_moveSlot element buffer slots store hsource htarget
    unfold shiftUp
    rw [Effect.bind_apply]
    generalize moveSlot element buffer (index + count) (index + count + 1) slots store = run
      at hmoved hread ⊢
    have hlater : ∀ place, index ≤ place → place < index + count →
        run.1.Holds valid buffer place := by
      intro place hle hlt
      exact holds_of_read (h place hle (by omega)) (hread place (by omega) (by omega))
    obtain ⟨hshifted, hrest⟩ := ih hlater run.2
    constructor
    · intro place hlt hle
      by_cases hlast : place = index + count + 1
      · subst hlast
        exact holds_of_read hmoved (hrest _ (by omega))
      · exact hshifted place hlt (by omega)
    · intro place houtside
      rw [hrest place (by omega), hread place (by omega) (by omega)]

theorem holds_shiftDown {buffer index count : Nat} {slots : Slots α}
    (h : ∀ place, index < place → place ≤ index + count → slots.Holds valid buffer place)
    (store : Store) :
    (∀ place, index ≤ place → place < index + count →
      (shiftDown element buffer index count slots store).1.Holds valid buffer place) ∧
    ∀ place, place < index ∨ index + count < place →
      (shiftDown element buffer index count slots store).1.read place = slots.read place := by
  induction count generalizing index slots store with
  | zero =>
    refine ⟨?_, fun _ _ => rfl⟩
    intro place hle hlt
    omega
  | succ count ih =>
    have hmoved := holds_moveSlot hrelocates (h (index + 1) (by omega) (by omega)) index store
    have hread : ∀ place, place ≠ index + 1 → place ≠ index →
        (moveSlot element buffer (index + 1) index slots store).1.read place =
          slots.read place :=
      fun place hsource htarget => read_moveSlot element buffer slots store hsource htarget
    unfold shiftDown
    rw [Effect.bind_apply]
    generalize moveSlot element buffer (index + 1) index slots store = run at hmoved hread ⊢
    have hlater : ∀ place, index + 1 < place → place ≤ index + 1 + count →
        run.1.Holds valid buffer place := by
      intro place hlt hle
      exact holds_of_read (h place (by omega) (by omega)) (hread place (by omega) (by omega))
    obtain ⟨hshifted, hrest⟩ := ih hlater run.2
    constructor
    · intro place hle hlt
      by_cases hfirst : place = index
      · subst hfirst
        exact holds_of_read hmoved (hrest _ (by omega))
      · exact hshifted place (by omega) (by omega)
    · intro place houtside
      rw [hrest place (by omega), hread place (by omega) (by omega)]

theorem holds_migrate {source : Nat} (target : Nat) {slots : Slots α} {count : Nat}
    (h : ∀ index, index < count → slots.Holds valid source index) (store : Store)
    {index : Nat} (hlt : index < count) :
    (migrate element source target slots count store).1.Holds valid target index := by
  induction count with
  | zero => exact absurd hlt (Nat.not_lt_zero index)
  | succ count ih =>
    obtain ⟨value, hvalue, hvalid⟩ := h count (Nat.lt_succ_self count)
    have hearlier := ih fun place hplace => h place (Nat.lt_succ_of_lt hplace)
    unfold migrate
    rw [Effect.bind_apply, hvalue]
    generalize migrate element source target slots count store = moved at hearlier ⊢
    by_cases hlast : index = count
    · subst hlast
      exact ⟨_, Slots.read_write_self _ _ _, hrelocates _ _ value _ hvalid⟩
    · exact holds_of_read (hearlier (by omega)) (Slots.read_write_of_ne _ _ hlast)

/-- Around the gap all elements are valid. -/
theorem holds_openGap (hbitwise : element.bitwise = false) (h : vec.Anchored valid)
    {index : Nat} (hindex : index ≤ vec.length) (store : Store) {place : Nat}
    (hplace : place ≤ vec.length) (hne : place ≠ index) :
    (vec.openGap element index store).1.Holds valid vec.buffer place := by
  unfold openGap
  rw [hbitwise]
  have hsources : ∀ source, index ≤ source → source < index + (vec.length - index) →
      vec.slots.Holds valid vec.buffer source := by
    intro source _ hlt
    exact h source (by omega)
  obtain ⟨hshifted, hrest⟩ := holds_shiftUp hrelocates hsources store
  by_cases hbelow : place < index
  · exact holds_of_read (h place (by omega)) (hrest place (Or.inl hbelow))
  · exact hshifted place (by omega) (by omega)

theorem holds_closeGap (hbitwise : element.bitwise = false) (h : vec.Anchored valid)
    (index : Nat) (store : Store) {place : Nat} (hplace : place + 1 < vec.length) :
    (vec.closeGap element index store).1.Holds valid vec.buffer place := by
  unfold closeGap
  rw [hbitwise]
  have hkept : ∀ source, source < vec.length → source ≠ index →
      (vec.slots.clear index).Holds valid vec.buffer source := by
    intro source hlt hne
    exact holds_of_read (h source hlt) (Slots.read_clear_of_ne _ hne)
  have hsources : ∀ source, index < source → source ≤ index + (vec.length - index - 1) →
      (vec.slots.clear index).Holds valid vec.buffer source := by
    intro source hlt hle
    exact hkept source (by omega) (by omega)
  obtain ⟨hshifted, hrest⟩ := holds_shiftDown hrelocates hsources store
  by_cases hbelow : place < index
  · exact holds_of_read (hkept place (by omega) (by omega)) (hrest place (Or.inl hbelow))
  · exact hshifted place (by omega) (by omega)

end Relocating

/-- Whichever way a vector gets more room, its elements are valid afterwards. -/
theorem Growth.anchored {γ : Type} {stock : Stock α γ}
    (hrelocates : ∀ source target value store, valid source value →
      valid target (stock.element.relocate source target value store).1)
    {grown : Vec α} {store after : Store}
    (hgrowth : Growth stock vec store (.ok grown, after)) (h : vec.Anchored valid) :
    grown.Anchored valid := by
  cases hgrowth with
  | enough | inPlace => exact h
  | first hempty =>
    intro index hlt
    have hinside : index < vec.length := hlt
    omega
  | moved =>
    intro index hlt
    exact holds_migrate hrelocates _ h _ hlt

/-! ## Settling elements -/

theorem Anchored.append (h : vec.Anchored valid) {value : α}
    (hvalid : valid (.slot vec.buffer vec.length) value) : (vec.append value).Anchored valid := by
  intro index hlt
  have hle : index ≤ vec.length := Nat.le_of_lt_succ hlt
  by_cases hlast : index = vec.length
  · subst hlast
    exact ⟨value, Slots.read_write_self _ _ _, hvalid⟩
  · exact holds_of_read (h index (by omega)) (Slots.read_write_of_ne _ _ hlast)

theorem settleAt_length (vec : Vec α) (index : Nat) :
    (vec.settleAt element index).length = vec.length := by
  unfold settleAt
  split
  · rfl
  · rfl

/-- Settling the only element that may not be valid makes all of them valid. -/
theorem settleAt_anchored (hsettles : ∀ spot value, valid spot (element.settle spot value))
    {index : Nat} (hlive : index < vec.length → (vec.slots.read index).isSome)
    (h : ∀ place, place < vec.length → place ≠ index → vec.slots.Holds valid vec.buffer place) :
    (vec.settleAt element index).Anchored valid := by
  intro place hlt
  rw [settleAt_length] at hlt
  unfold settleAt get?
  by_cases hinside : index < vec.length
  · obtain ⟨value, hvalue⟩ := Option.isSome_iff_exists.1 (hlive hinside)
    rw [if_pos hinside, hvalue]
    by_cases hplace : place = index
    · subst hplace
      exact ⟨_, Slots.read_write_self _ _ _, hsettles _ value⟩
    · exact holds_of_read (h place hlt hplace) (Slots.read_write_of_ne _ _ hplace)
  · rw [if_neg hinside]
    exact h place hlt (by omega)

theorem settleAt_append (hsettles : ∀ spot value, valid spot (element.settle spot value))
    (h : vec.Anchored valid) (value : α) :
    ((vec.append value).settleAt element vec.length).Anchored valid := by
  refine settleAt_anchored hsettles ?_ ?_
  · intro _
    exact Option.isSome_iff_exists.2 ⟨value, Slots.read_write_self _ _ _⟩
  · intro place hlt hne
    have hle : place ≤ vec.length := Nat.le_of_lt_succ hlt
    exact holds_of_read (h place (by omega)) (Slots.read_write_of_ne _ _ hne)

theorem settleAll_anchored (hsettles : ∀ spot value, valid spot (element.settle spot value))
    (hlive : vec.Live) : (vec.settleAll element).Anchored valid := by
  intro index hlt
  obtain ⟨value, hvalue⟩ := Option.isSome_iff_exists.1 (hlive index hlt)
  refine ⟨element.settle (.slot vec.buffer index) value, ?_, hsettles _ value⟩
  show (vec.slots.mapLive _).read index = _
  rw [Slots.read_mapLive, hvalue]
  rfl

end Vec

/-! ## Calls -/

namespace VecCall

/-- The vector after its owner has settled what was moved in by the call. -/
def tended (element : Element α) (built : Bool) (vec : Vec α) :
    VecCall α β → Reply α → Vec α → Vec α
  | push _, .done, next => next.settleAt element vec.length
  | insert index _, .done, next => next.settleAt element index
  | emplace _, .shown _, next => if built then next.settleAt element vec.length else next
  | _, _, next => next

variable {stock : Stock α β} {care : Care} {valid : Spot → α → Prop} {vec : Vec α}

/-- A call that leaves a vector, which its owner tends to, leaves every element valid. -/
def Keeps (stock : Stock α β) (care : Care) (valid : Spot → α → Prop) (vec : Vec α)
    (call : VecCall α β) (answer : Reply α × Option (Vec α)) : Prop :=
  ∀ next, answer.2 = some next →
    (call.tended stock.element care.built vec answer.1 next).Anchored valid

theorem keeps_same (h : vec.Anchored valid) {call : VecCall α β} {reply : Reply α}
    (hsame : call.tended stock.element care.built vec reply vec = vec) :
    call.Keeps stock care valid vec (reply, some vec) := by
  intro next hnext
  obtain rfl := Option.some.inj hnext
  rw [hsame]
  exact h

theorem attempting_keeps (h : vec.Anchored valid) {call : VecCall α β}
    {attempt : Attempt (Vec α)} {store : Store}
    (hdone : ∀ next after, attempt store = (.ok next, after) →
      (call.tended stock.element care.built vec .done next).Anchored valid)
    (hfailed : ∀ kind, call.tended stock.element care.built vec (.failed kind) vec = vec) :
    call.Keeps stock care valid vec (attempting vec attempt store).1 := by
  rw [attempting_apply]
  cases hrun : attempt store with
  | mk answer after =>
    cases answer with
    | error kind => exact keeps_same h (hfailed kind)
    | ok next =>
      intro other hother
      obtain rfl := Option.some.inj hother
      exact hdone next after hrun

theorem push_keeps (hanchors : stock.Anchors care valid) (h : vec.Anchored valid) {store : Store}
    (hgrowth : Vec.Growth stock vec store (vec.growForOne stock.element store))
    (value : α) :
    (push value).Keeps stock care valid vec
      ((push value).act stock.element stock.builder vec store).1 := by
  refine attempting_keeps h (fun next after hnext => ?_) fun _ => rfl
  rw [push_apply] at hnext
  generalize vec.growForOne stock.element store = run at hgrowth hnext
  obtain ⟨answer, middle⟩ := run
  cases answer with
  | error kind => cases hnext
  | ok grown =>
    obtain rfl := Except.ok.inj (Prod.mk.inj hnext).1
    show (Vec.settleAt stock.element (grown.append value) vec.length).Anchored valid
    rw [← hgrowth.length_eq]
    exact Vec.settleAt_append hanchors.settles (hgrowth.anchored hanchors.relocates h) value

theorem insert_keeps (hanchors : stock.Anchors care valid) (h : vec.Anchored valid)
    {store : Store}
    (hgrowth : Vec.Growth stock vec store (vec.growForOne stock.element store))
    (index : Nat) (value : α) :
    (insert index value).Keeps stock care valid vec
      ((insert index value).act stock.element stock.builder vec store).1 := by
  refine attempting_keeps h (fun next after hnext => ?_) fun _ => rfl
  rw [insert_apply] at hnext
  by_cases houtside : vec.length < index
  · rw [if_pos houtside] at hnext
    cases hnext
  rw [if_neg houtside] at hnext
  generalize vec.growForOne stock.element store = run at hgrowth hnext
  obtain ⟨answer, middle⟩ := run
  cases answer with
  | error kind => cases hnext
  | ok grown =>
    obtain rfl := Except.ok.inj (Prod.mk.inj hnext).1
    have hlength := hgrowth.length_eq
    have hgrown := hgrowth.anchored hanchors.relocates h
    refine Vec.settleAt_anchored hanchors.settles ?_ ?_
    · intro _
      exact Option.isSome_iff_exists.2 ⟨value, Slots.read_write_self _ _ _⟩
    · intro place hlt hne
      have hle : place ≤ grown.length := Nat.le_of_lt_succ hlt
      have hgap := Vec.holds_openGap hanchors.relocates hanchors.elementwise hgrown
        (show index ≤ grown.length by omega) middle hle hne
      exact Vec.holds_of_read hgap (Slots.read_write_of_ne _ _ hne)

theorem emplace_keeps (hanchors : stock.Anchors care valid) (h : vec.Anchored valid)
    {store : Store}
    (hgrowth : Vec.Growth stock vec store (vec.growForOne stock.element store))
    (args : β) :
    (emplace args).Keeps stock care valid vec
      ((emplace args).act stock.element stock.builder vec store).1 := by
  simp only [act, Vec.emplace, Effect.bind_apply, ExceptT.run]
  generalize vec.growForOne stock.element store = run at hgrowth ⊢
  obtain ⟨answer, middle⟩ := run
  cases answer with
  | error kind => exact keeps_same h rfl
  | ok grown =>
    have hlength := hgrowth.length_eq
    have hgrown := hgrowth.anchored hanchors.relocates h
    dsimp only
    rw [Effect.bind_apply]
    cases hbuild : stock.builder.constructAt (.slot grown.buffer grown.length) args middle with
    | mk built after =>
      cases built with
      | error kind =>
        intro next hnext
        obtain rfl := Option.some.inj hnext
        exact hgrown
      | ok value =>
        have hget : (grown.append value).get? vec.length = some value := by
          simp [Vec.get?, Vec.append, hlength]
        show (emplace args).Keeps stock care valid vec
          ((((grown.append value).get? vec.length).map Reply.shown).getD .done,
            some (grown.append value))
        rw [hget]
        intro next hnext
        obtain rfl := Option.some.inj hnext
        show (if care.built = true then (grown.append value).settleAt stock.element vec.length
          else grown.append value).Anchored valid
        by_cases hcare : care.built = true
        · rw [if_pos hcare, ← hlength]
          exact Vec.settleAt_append hanchors.settles hgrown value
        · rw [if_neg hcare]
          have hbuilds := hanchors.builds.resolve_left hcare
          exact hgrown.append (hbuilds _ _ _ _ _ hbuild)

theorem remove_keeps (hanchors : stock.Anchors care valid) (h : vec.Anchored valid)
    (index : Nat) (store : Store) :
    (remove index).Keeps stock care valid vec
      ((remove index).act stock.element stock.builder vec store).1 := by
  simp only [act, Vec.remove, Effect.bind_apply, ExceptT.run]
  by_cases hinside : index < vec.length
  · obtain ⟨value, hvalue, -⟩ := h index hinside
    rw [if_pos hinside, hvalue]
    intro next hnext
    obtain rfl := Option.some.inj hnext
    intro place hlt
    have hplace : place < vec.length - 1 := hlt
    exact Vec.holds_closeGap hanchors.relocates hanchors.elementwise h index store (by omega)
  · rw [if_neg hinside]
    exact keeps_same h rfl

theorem pop_anchored (h : vec.Anchored valid) {value : α} {next : Vec α}
    (hpop : vec.pop = some (value, next)) : next.Anchored valid := by
  unfold Vec.pop at hpop
  split at hpop
  · cases hpop
  · obtain ⟨last, -, heq⟩ := Option.map_eq_some_iff.1 hpop
    obtain ⟨-, rfl⟩ := Prod.mk.inj heq
    intro index hlt
    have hinside : index < vec.length - 1 := hlt
    exact Vec.holds_of_read (h index (by omega)) (Slots.read_clear_of_ne _ (by omega))

theorem clear_length (element : Element α) (vec : Vec α) (store : Store) :
    (vec.clear element store).1.length = 0 := by
  unfold Vec.clear
  cases vec.bufferLayout? element with
  | none => rfl
  | some held =>
    dsimp only
    split
    · rfl
    · rfl

/-- Every call keeps the elements valid, as the owner sees to what was moved in. -/
theorem act_keeps (hanchors : stock.Anchors care valid) (h : vec.Anchored valid)
    (hroomy : vec.Roomy stock.element) {call : VecCall α β} (hword : call.InWord) (store : Store) :
    call.Keeps stock care valid vec (call.act stock.element stock.builder vec store).1 := by
  have hgrowth := growing_growth hanchors.elementwise h.live hroomy hword store
  have hone := Vec.growForOne_growth hanchors.elementwise h.live hroomy store
  cases call with
  | reserve capacity =>
    refine attempting_keeps h (fun next after hnext => ?_) fun _ => rfl
    have hgrown : Vec.Growth stock vec store
        (vec.reserve stock.element capacity store) := hgrowth
    rw [hnext] at hgrown
    exact hgrown.anchored hanchors.relocates h
  | reserveAdditional additional =>
    refine attempting_keeps h (fun next after hnext => ?_) fun _ => rfl
    have hgrown : Vec.Growth stock vec store
        (vec.reserveAdditional stock.element additional store) := hgrowth
    rw [hnext] at hgrown
    exact hgrown.anchored hanchors.relocates h
  | push value => exact push_keeps hanchors h hone value
  | emplace args => exact emplace_keeps hanchors h hone args
  | insert index value => exact insert_keeps hanchors h hone index value
  | remove index => exact remove_keeps hanchors h index store
  | create => exact keeps_same h rfl
  | pop =>
    simp only [act]
    cases hpop : vec.pop with
    | none => exact keeps_same h rfl
    | some taken =>
      intro next hnext
      obtain rfl := Option.some.inj hnext
      exact pop_anchored h hpop
  | tryPop =>
    simp only [act, Vec.tryPop]
    cases hpop : vec.pop with
    | none => exact keeps_same h rfl
    | some taken =>
      intro next hnext
      obtain rfl := Option.some.inj hnext
      exact pop_anchored h hpop
  | tryGet index =>
    simp only [act]
    cases vec.tryGet index with
    | error kind => exact keeps_same h rfl
    | ok value => exact keeps_same h rfl
  | indexed index =>
    simp only [act]
    cases vec.indexed index with
    | error trap => exact keeps_same h rfl
    | ok value => exact keeps_same h rfl
  | clear =>
    intro next hnext
    obtain rfl := Option.some.inj hnext
    intro index hlt
    have hzero : (vec.clear stock.element store).1.length = 0 := clear_length _ _ _
    have hinside : index < (vec.clear stock.element store).1.length := hlt
    omega
  | drop =>
    intro next hnext
    cases hnext

end VecCall
end Freehold
