import Freehold.Proofs.Vec.AnchoredTwins

/-!
# Agreement of vectors of twin types

Several vectors of one type work on the same allocator, and so do as many vectors of its
twin.  Under the same calls they stay in step: the replies, the elements, the buffers and the
allocator are the same after every call, and the records match.
-/

namespace Freehold

/-- Two values that the views show alike. -/
structure TwinValue {α β κ : Type} (view : α → κ) (view' : β → κ) where
  first : α
  second : β
  alike : SameView view view' first second

def VecCall.map {α β γ : Type} (f : α → β) : VecCall α γ → VecCall β γ
  | create capacity? => create capacity?
  | reserve capacity => reserve capacity
  | reserveAdditional additional => reserveAdditional additional
  | push value => push (f value)
  | emplace args => emplace args
  | insert index value => insert index (f value)
  | remove index => remove index
  | pop => pop
  | tryPop => tryPop
  | tryGet index => tryGet index
  | indexed index => indexed index
  | clear => clear
  | drop => drop

/-! ## One call -/

/-- A reply that shows what was found. -/
theorem Reply.map_shown {α κ : Type} (seen : α → κ) (found : Option α) :
    ((found.map Reply.shown).getD .done).map seen =
      ((found.map seen).map Reply.shown).getD .done := by
  cases found with
  | none => rfl
  | some value => rfl

section Answers

variable {α β γ κ : Type} (first : Stock α γ) (second : Stock β γ) (view : α → κ)
  (view' : β → κ)

/-- There is no vector on either side, or the vectors are abreast. -/
inductive Sides : Option (Vec α) → Option (Vec β) → Prop
  | none : Sides none none
  | some {items : List κ} {vec : Vec α} {vec' : Vec β}
    (h : Abreast first second view view' items vec vec') : Sides (some vec) (some vec')

/-- The replies show the same, and so do the vectors afterwards. -/
structure SameAnswer (answer : Reply α × Option (Vec α)) (answer' : Reply β × Option (Vec β)) :
    Prop where
  reply : answer.1.map view = answer'.1.map view'
  sides : Sides first second view view' answer.2 answer'.2

variable {first second view view'}

/-- What vectors abreast have in common is the same on both sides. -/
theorem Sides.map_eq {δ : Type} {see : Vec α → δ} {see' : Vec β → δ}
    (hsee : ∀ {items : List κ} {vec : Vec α} {vec' : Vec β},
      Abreast first second view view' items vec vec' → see vec = see' vec')
    {vec? : Option (Vec α)} {vec'? : Option (Vec β)}
    (h : Sides first second view view' vec? vec'?) : vec?.map see = vec'?.map see' := by
  cases h with
  | none => rfl
  | some habreast => exact congrArg Option.some (hsee habreast)

end Answers

namespace Abreast

variable {α β γ κ : Type} {first : Stock α γ} {second : Stock β γ} {view : α → κ}
  {view' : β → κ} {vec : Vec α} {vec' : Vec β} {items : List κ}

theorem attempting (h : Abreast first second view view' items vec vec')
    {attempt : Attempt (Vec α)} {attempt' : Attempt (Vec β)} {after : List κ}
    (hattempt : Attempt.InStep (Abreast first second view view' after) attempt attempt') :
    Lockstep (SameAnswer first second view view') (VecCall.attempting vec attempt)
      (VecCall.attempting vec' attempt') := by
  refine Lockstep.bind hattempt fun answer answer' hmatching => ?_
  cases hmatching with
  | failed kind => exact .pure ⟨rfl, .some h⟩
  | done hnext => exact .pure ⟨rfl, .some hnext⟩

theorem get?_eq (h : Abreast first second view view' items vec vec') (index : Nat) :
    (vec.get? index).map view = (vec'.get? index).map view' := by
  rw [h.shows.get?_eq, h.shows'.get?_eq]

/-- An element is found in both vectors or in neither. -/
theorem get?_either (h : Abreast first second view view' items vec vec') (index : Nat) :
    (vec.get? index = none ∧ vec'.get? index = none) ∨
      ∃ value value', vec.get? index = some value ∧ vec'.get? index = some value' ∧
        SameView view view' value value' := by
  have hget := h.get?_eq index
  cases hfound : vec.get? index with
  | none =>
    rw [hfound] at hget
    exact Or.inl ⟨rfl, Option.map_eq_none_iff.1 hget.symm⟩
  | some value =>
    rw [hfound] at hget
    obtain ⟨value', hfound', hsame⟩ := Option.map_eq_some_iff.1 hget.symm
    exact Or.inr ⟨value, value', rfl, hfound', hsame.symm⟩

theorem act_lockstep (h : Abreast first second view view' items vec vec')
    (htwins : Twins first second view view') (call : VecCall (TwinValue view view') γ) :
    Lockstep (SameAnswer first second view view')
      ((call.map TwinValue.first).act first.element first.builder vec)
      ((call.map TwinValue.second).act second.element second.builder vec') := by
  cases call with
  | create capacity? => exact .pure ⟨rfl, .some h⟩
  | reserve capacity =>
    exact h.attempting ((h.reserve htwins capacity).mono fun _ _ hboth => hboth.1)
  | reserveAdditional additional =>
    exact h.attempting ((h.reserveAdditional htwins additional).mono fun _ _ hboth => hboth.1)
  | push value => exact h.attempting (h.push htwins value.alike)
  | insert index value => exact h.attempting (h.insert htwins index value.alike)
  | emplace args =>
    refine (h.emplace htwins args).bind fun built built' hbuilt => ?_
    obtain ⟨answer, next⟩ := built
    obtain ⟨answer', next'⟩ := built'
    obtain ⟨rfl, ⟨after, hafter⟩, hget⟩ := hbuilt
    cases answer with
    | error kind => exact .pure ⟨rfl, .some hafter⟩
    | ok done =>
      refine .pure ⟨?_, .some hafter⟩
      dsimp only at hget ⊢
      generalize next.get? vec.length = last at hget ⊢
      generalize next'.get? vec'.length = last' at hget ⊢
      rw [Reply.map_shown, Reply.map_shown, hget]
  | remove index =>
    refine Lockstep.bind (h.remove htwins index) fun answer answer' hmatching => ?_
    cases hmatching with
    | failed kind => exact .pure ⟨rfl, .some h⟩
    | done hboth => exact .pure ⟨congrArg Reply.taken hboth.1, .some hboth.2⟩
  | pop =>
    simp only [VecCall.map, VecCall.act]
    rcases h.pop with ⟨hpop, hpop'⟩ | ⟨value, value', next, next', hpop, hpop', hsame, hnext⟩
    · rw [hpop, hpop']
      exact .pure ⟨rfl, .some h⟩
    · rw [hpop, hpop']
      exact .pure ⟨congrArg Reply.taken hsame, .some hnext⟩
  | tryPop =>
    simp only [VecCall.map, VecCall.act, Vec.tryPop]
    rcases h.pop with ⟨hpop, hpop'⟩ | ⟨value, value', next, next', hpop, hpop', hsame, hnext⟩
    · rw [hpop, hpop']
      exact .pure ⟨rfl, .some h⟩
    · rw [hpop, hpop']
      exact .pure ⟨congrArg Reply.taken hsame, .some hnext⟩
  | tryGet index =>
    simp only [VecCall.map, VecCall.act, Vec.tryGet]
    rcases h.get?_either index with ⟨hfound, hfound'⟩ | ⟨value, value', hfound, hfound', hsame⟩
    · rw [hfound, hfound']
      exact .pure ⟨rfl, .some h⟩
    · rw [hfound, hfound']
      exact .pure ⟨congrArg Reply.shown hsame, .some h⟩
  | indexed index =>
    simp only [VecCall.map, VecCall.act, Vec.indexed, ← h.length_eq]
    rcases h.get?_either index with ⟨hfound, hfound'⟩ | ⟨value, value', hfound, hfound', hsame⟩
    · rw [hfound, hfound']
      exact .pure ⟨rfl, .some h⟩
    · rw [hfound, hfound']
      exact .pure ⟨congrArg Reply.shown hsame, .some h⟩
  | clear => exact (h.clear htwins).bind fun next next' hnext => .pure ⟨rfl, .some hnext⟩
  | drop => exact (h.drop htwins).bind fun _ _ _ => .pure ⟨rfl, .none⟩

/-! ### Calls on no vector -/

theorem empty (htwins : Twins first second view view') :
    Abreast first second view view' [] (Vec.empty first.element) (Vec.empty second.element) := by
  refine ⟨⟨?_, ?_⟩, Vec.empty_shows _ _, Vec.empty_shows _ _, Vec.empty_roomy _,
    Vec.empty_roomy _⟩
  · show first.element.layout.align = second.element.layout.align
    rw [htwins.layout_eq]
  · unfold Vec.empty
    rw [htwins.layout_eq]

theorem created (htwins : Twins first second view view') (capacity? : Option Nat) :
    Attempt.InStep (Abreast first second view view' [])
      (VecHistory.created first.element capacity?)
      (VecHistory.created second.element capacity?) := by
  cases capacity? with
  | none => exact .pure (.empty htwins)
  | some capacity =>
    exact ((Abreast.empty htwins).reserve htwins capacity).mono fun _ _ hboth => hboth.1

/-! ### Copies -/

theorem copyAll (htwins : Twins first second view view') {values : List α} {values' : List β}
    (hsame : values.map view = values'.map view') {copied : List κ} {copy : Vec α}
    {copy' : Vec β} (h : Abreast first second view view' copied copy copy')
    (hroom : copy.length + values.length ≤ copy.capacity) :
    Attempt.InStep (fun copy copy' => ∃ after, Abreast first second view view' after copy copy')
      (Vec.copyAll first.element first.copier copy values)
      (Vec.copyAll second.element second.copier copy' values') := by
  induction values generalizing values' copied copy copy' with
  | nil =>
    cases values' with
    | nil => exact .pure ⟨copied, h⟩
    | cons value' later' => cases hsame
  | cons value later ih =>
    cases values' with
    | nil => cases hsame
    | cons value' later' =>
      obtain ⟨hvalue, hlater⟩ := List.cons.inj hsame
      have hspot : Spot.slot copy.buffer copy.length = Spot.slot copy'.buffer copy'.length := by
        rw [h.buffer.buffer_eq, h.length_eq]
      have hcloned := htwins.clones (.slot copy.buffer copy.length) value value' hvalue
      unfold Vec.copyAll
      rw [← hspot]
      refine (hcloned.undoing (h.drop htwins)).bind fun fresh fresh' hfresh => ?_
      rw [List.length_cons] at hroom
      refine ih hlater (h.append (by omega) hfresh) ?_
      show copy.length + 1 + later.length ≤ copy.capacity
      omega

theorem clone (h : Abreast first second view view' items vec vec')
    (htwins : Twins first second view view') :
    Attempt.InStep (fun copy copy' => ∃ after, Abreast first second view view' after copy copy')
      (vec.clone first.element first.copier) (vec'.clone second.element second.copier) := by
  have hsame : vec.toList.map view = vec'.toList.map view' := by
    rw [h.shows.toList_eq, h.shows'.toList_eq]
  have hlength : vec.toList.length = vec.length := by
    rw [← List.length_map view, h.shows.toList_eq, h.shows.length_eq]
  unfold Vec.clone
  rw [← h.length_eq]
  refine ((Abreast.empty htwins).reserve htwins vec.length).bind fun copy copy' hcopy => ?_
  refine copyAll htwins hsame hcopy.1 ?_
  rw [hcopy.1.shows.length_eq, hlength, List.length_nil, Nat.zero_add]
  exact hcopy.2

/-! ### Elements written over -/

theorem written_follows {element : Element α} (hshows : vec.Shows view items)
    (hroomy : vec.Roomy element) {index : Nat} (hindex : index < items.length) (value : α) :
    Vec.Follows element view vec { vec with slots := vec.slots.write index value }
      (items.set index (view value)) := by
  refine ⟨⟨?_, fun other => ?_⟩, ⟨hroomy.length_le, hroomy.sizeless⟩, Nat.le_refl _⟩
  · rw [List.length_set]
    exact hshows.length_eq
  · show ((vec.slots.write index value).read other).map view = _
    by_cases heq : other = index
    · subst heq
      rw [Slots.read_write_self, List.getElem?_set_self hindex]
      rfl
    · rw [Slots.read_write_of_ne _ _ heq, List.getElem?_set_ne (Ne.symm heq)]
      exact hshows.read_eq other

/-- An element is written over in both vectors, or there is none in either. -/
theorem replace? (h : Abreast first second view view' items vec vec') (index : Nat) {value : α}
    {value' : β} (hsame : SameView view view' value value') :
    (vec.replace? index value = none ∧ vec'.replace? index value' = none) ∨
      ∃ old old' next next', vec.replace? index value = some (old, next) ∧
        vec'.replace? index value' = some (old', next') ∧ SameView view view' old old' ∧
        Abreast first second view view' (items.set index (view value)) next next' := by
  have hitem := h.shows.get?_eq index
  unfold Vec.replace?
  rcases h.get?_either index with ⟨hfound, hfound'⟩ | ⟨old, old', hfound, hfound', hold⟩
  · rw [hfound, hfound']
    exact Or.inl ⟨rfl, rfl⟩
  · rw [hfound] at hitem
    obtain ⟨hindex, -⟩ := List.getElem?_eq_some_iff.1 hitem.symm
    have hfollows := written_follows h.shows h.roomy hindex value
    have hfollows' := written_follows h.shows' h.roomy' hindex value'
    rw [← show view value = view' value' from hsame] at hfollows'
    rw [hfound, hfound']
    exact Or.inr ⟨old, old', _, _, rfl, rfl, hold,
      .of_follows ⟨h.buffer.buffer_eq, h.buffer.capacity_eq⟩ hfollows hfollows'⟩

end Abreast

/-! ## Runs -/

/-- What is done to one of several vectors.  A copy is made where there is no vector yet. -/
inductive VecDeed (α γ : Type) where
  | call (name : Nat) (request : VecCall α γ)
  | replace (name index : Nat) (value : α)
  | clone (name copy : Nat)

def VecDeed.map {α β γ : Type} (f : α → β) : VecDeed α γ → VecDeed β γ
  | call name request => call name (request.map f)
  | replace name index value => replace name index (f value)
  | clone name copy => clone name copy

/-- Vectors by name. -/
abbrev Row (α : Type) : Type := Nat → Option (Vec α)

namespace Row

variable {α β γ κ : Type}

def put (row : Row α) (name : Nat) (vec? : Option (Vec α)) : Row α :=
  fun other => if other = name then vec? else row other

/-- The call as it is answered where there may be no vector. -/
def answer (stock : Stock α γ) (vec? : Option (Vec α)) (request : VecCall α γ) :
    Effect (Reply α × Option (Vec α)) := do
  let history : VecHistory α Unit := { vec := vec? }
  let answer ← history.perform stock.element stock.builder (fun _ => ()) request
  pure (answer.1, answer.2.vec)

def perform (stock : Stock α γ) (row : Row α) : VecDeed α γ → Effect (Reply α × Row α)
  | .call name request => do
    let answer ← answer stock (row name) request
    pure (answer.1, row.put name answer.2)
  | .replace name index value =>
    match row name with
    | none => pure (.refused, row)
    | some vec =>
      match vec.replace? index value with
      | none => do
        stock.element.destroy value
        pure (.failed .outOfBounds, row)
      | some (old, next) => pure (.taken old, row.put name (some next))
  | .clone name copy =>
    match row name, row copy with
    | some vec, none => do
      match ← (vec.clone stock.element stock.copier).run with
      | .error kind => pure (.failed kind, row)
      | .ok fresh => pure (.done, row.put copy (some fresh))
    | _, _ => pure (.refused, row)

theorem answer_some (stock : Stock α γ) (vec : Vec α) (request : VecCall α γ) :
    answer stock (some vec) request = request.act stock.element stock.builder vec := rfl

theorem answer_create (stock : Stock α γ) (capacity? : Option Nat) :
    answer stock none (.create capacity?) = (do
      match ← (VecHistory.created stock.element capacity?).run with
      | .error kind => pure (.failed kind, none)
      | .ok vec => pure (.done, some vec)) := by
  funext store
  unfold answer VecHistory.perform
  simp only [Effect.bind_apply]
  generalize (VecHistory.created stock.element capacity?).run store = run
  obtain ⟨made, middle⟩ := run
  cases made with
  | error kind => rfl
  | ok vec => rfl

section Step

variable {first : Stock α γ} {second : Stock β γ} {view : α → κ} {view' : β → κ}

theorem answer_lockstep (htwins : Twins first second view view') {vec? : Option (Vec α)}
    {vec'? : Option (Vec β)} (h : Sides first second view view' vec? vec'?)
    (request : VecCall (TwinValue view view') γ) :
    Lockstep (SameAnswer first second view view')
      (answer first vec? (request.map TwinValue.first))
      (answer second vec'? (request.map TwinValue.second)) := by
  cases h with
  | some habreast =>
    rw [answer_some, answer_some]
    exact habreast.act_lockstep htwins request
  | none =>
    cases request with
    | create capacity? =>
      simp only [VecCall.map, answer_create]
      refine Lockstep.bind (Abreast.created htwins capacity?) fun made made' hmatching => ?_
      cases hmatching with
      | failed kind => exact .pure ⟨rfl, .none⟩
      | done hmade => exact .pure ⟨rfl, .some hmade⟩
    | reserve | reserveAdditional | push | emplace | insert | remove | pop | tryPop | tryGet
    | indexed | clear | drop => exact .pure ⟨rfl, .none⟩

/-- Under every name there is a vector on either side or on none, and they are abreast. -/
def Beside (first : Stock α γ) (second : Stock β γ) (view : α → κ) (view' : β → κ)
    (row : Row α) (row' : Row β) : Prop :=
  ∀ name, Sides first second view view' (row name) (row' name)

variable {row : Row α} {row' : Row β}

theorem Beside.put (h : Beside first second view view' row row') {vec? : Option (Vec α)}
    {vec'? : Option (Vec β)} (hsides : Sides first second view view' vec? vec'?) (name : Nat) :
    Beside first second view view' (row.put name vec?) (row'.put name vec'?) := by
  intro other
  unfold Row.put
  by_cases heq : other = name
  · rw [if_pos heq, if_pos heq]
    exact hsides
  · rw [if_neg heq, if_neg heq]
    exact h other

theorem perform_lockstep (htwins : Twins first second view view')
    (h : Beside first second view view' row row') (deed : VecDeed (TwinValue view view') γ) :
    Lockstep
      (fun answer answer' => answer.1.map view = answer'.1.map view' ∧
        Beside first second view view' answer.2 answer'.2)
      (row.perform first (deed.map TwinValue.first))
      (row'.perform second (deed.map TwinValue.second)) := by
  cases deed with
  | call name request =>
    refine (answer_lockstep htwins (h name) request).bind fun answer answer' hsame => ?_
    exact .pure ⟨hsame.reply, h.put hsame.sides name⟩
  | replace name index value =>
    have hsides := h name
    simp only [VecDeed.map, perform]
    generalize row name = vec? at hsides ⊢
    generalize row' name = vec'? at hsides ⊢
    cases hsides with
    | none => exact .pure ⟨rfl, h⟩
    | some habreast =>
      dsimp only
      rcases habreast.replace? index value.alike with
        ⟨hnone, hnone'⟩ | ⟨old, old', next, next', hfound, hfound', hsame, hnext⟩
      · rw [hnone, hnone']
        exact (htwins.destroys _ _ value.alike).bind fun _ _ _ => .pure ⟨rfl, h⟩
      · rw [hfound, hfound']
        exact .pure ⟨congrArg Reply.taken hsame, h.put (.some hnext) name⟩
  | clone name copy =>
    have hsides := h name
    have hfree := h copy
    simp only [VecDeed.map, perform]
    generalize row name = vec? at hsides ⊢
    generalize row' name = vec'? at hsides ⊢
    generalize row copy = copy? at hfree ⊢
    generalize row' copy = copy'? at hfree ⊢
    cases hsides with
    | none => exact .pure ⟨rfl, h⟩
    | some habreast =>
      cases hfree with
      | some hheld => exact .pure ⟨rfl, h⟩
      | none =>
        refine Lockstep.bind (habreast.clone htwins) fun made made' hmatching => ?_
        cases hmatching with
        | failed kind => exact .pure ⟨rfl, h⟩
        | done hmade =>
          obtain ⟨after, hmade⟩ := hmade
          exact .pure ⟨rfl, h.put (.some hmade) copy⟩

end Step

/-! ### The same to see -/

/-- Everything that can be seen of both rows is the same: the elements in their order, the
lengths, the capacities and the buffers.  The allocators keep the same books, the requests
were counted alike and the records match. -/
structure Alike (view : α → κ) (view' : β → κ) (row : Row α) (row' : Row β)
    (store store' : Store) : Prop where
  elements : ∀ name, (row name).map (fun vec => vec.toList.map view) =
    (row' name).map fun vec => vec.toList.map view'
  lengths : ∀ name, (row name).map Vec.length = (row' name).map Vec.length
  capacities : ∀ name, (row name).map Vec.capacity = (row' name).map Vec.capacity
  buffers : ∀ name, (row name).map Vec.buffer = (row' name).map Vec.buffer
  stores : Parallel store store'

/-- The rows are alike before and after every deed, and each deed has the same reply. -/
def InStep (first : Stock α γ) (second : Stock β γ) (view : α → κ) (view' : β → κ) :
    Row α → Row β → Store → Store → List (VecDeed (TwinValue view view') γ) → Prop
  | row, row', store, store', [] => Alike view view' row row' store store'
  | row, row', store, store', deed :: later =>
    Alike view view' row row' store store' ∧
      (row.perform first (deed.map TwinValue.first) store).1.1.map view =
        (row'.perform second (deed.map TwinValue.second) store').1.1.map view' ∧
      InStep first second view view'
        (row.perform first (deed.map TwinValue.first) store).1.2
        (row'.perform second (deed.map TwinValue.second) store').1.2
        (row.perform first (deed.map TwinValue.first) store).2
        (row'.perform second (deed.map TwinValue.second) store').2 later

section Runs

variable {first : Stock α γ} {second : Stock β γ} {view : α → κ} {view' : β → κ}
  {row : Row α} {row' : Row β} {store store' : Store}

theorem Beside.alike (h : Beside first second view view' row row')
    (hparallel : Parallel store store') : Alike view view' row row' store store' := by
  refine ⟨fun name => (h name).map_eq ?_, fun name => (h name).map_eq ?_,
    fun name => (h name).map_eq ?_, fun name => (h name).map_eq ?_, hparallel⟩
  · exact fun habreast => habreast.shows.toList_eq.trans habreast.shows'.toList_eq.symm
  · exact fun habreast => habreast.length_eq
  · exact fun habreast => habreast.buffer.capacity_eq
  · exact fun habreast => habreast.buffer.buffer_eq

theorem InStep.of_beside (htwins : Twins first second view view')
    (h : Beside first second view view' row row') (hparallel : Parallel store store')
    (deeds : List (VecDeed (TwinValue view view') γ)) :
    InStep first second view view' row row' store store' deeds := by
  -- Each deed leads to rows that are beside each other again, on parallel stores.
  induction deeds generalizing row row' store store' with
  | nil => exact h.alike hparallel
  | cons deed later ih =>
    obtain ⟨⟨hreply, hnext⟩, hparallel'⟩ := perform_lockstep htwins h deed store store' hparallel
    exact ⟨h.alike hparallel, hreply, ih hnext hparallel'⟩

/-- Vectors of a bitwise type and vectors of its twin stay in step on every allocator that
resizes by copying. -/
theorem twins_in_step (htwins : Twins first second view view')
    (hparallel : Parallel store store') (deeds : List (VecDeed (TwinValue view view') γ)) :
    InStep first second view view' (fun _ => none) (fun _ => none) store store' deeds :=
  .of_beside htwins (fun _ => .none) hparallel deeds

/-- A number that is at no spot yet. -/
def unplaced (value : Int) : TwinValue Piece.placeless Piece.placeless :=
  ⟨{ datum := .number value }, { datum := .number value }, rfl⟩

/-- Two vectors are filled, copied and emptied; one has to move, and one request for more
room is refused. -/
def crowding : List (VecDeed (TwinValue Piece.placeless Piece.placeless) Datum) :=
  [.call 0 (.create none), .call 0 (.push (unplaced 1)), .call 0 (.push (unplaced 2)),
    .call 0 (.insert 1 (unplaced 3)), .clone 0 1, .call 0 (.reserve 12),
    .call 0 (.reserve 12), .call 0 (.emplace (.number 4)), .call 0 (.remove 0),
    .replace 0 1 (unplaced 5), .call 1 .drop, .call 0 .pop, .call 0 .drop]

/-- A free list that refuses the third request. -/
def crowdedStore : Store where
  memory := { backend := .freeList { spans := [⟨4096, 4096⟩], freeBytes := 4096 } }
  failing := [3]

theorem twins_in_step_crowding :
    Twins Catalogue.anchored.unanchored.stock Catalogue.anchored.anchoring.stock
        Piece.placeless Piece.placeless ∧
      Parallel crowdedStore crowdedStore ∧
      InStep Catalogue.anchored.unanchored.stock Catalogue.anchored.anchoring.stock
        Piece.placeless Piece.placeless (fun _ => none) (fun _ => none) crowdedStore
        crowdedStore crowding := by
  have htwins := Catalogue.anchored.twins (by decide)
  have hparallel : Parallel crowdedStore crowdedStore := .refl trivial
  exact ⟨htwins, hparallel, twins_in_step htwins hparallel crowding⟩

end Runs
end Row
end Freehold
