import Freehold.Proofs.Vec.Agreement
import Freehold.Proofs.Vec.AnchoredLeaves

/-!
# Rows of anchored vectors

Several vectors of a type work on one allocator, or on several in turn, while anything else
may happen to the store between two deeds.  After every deed each element is valid at its own
slot, and the record tells which elements were relocated for it.
-/

namespace Freehold

/-! ## Elements that are moved by their bytes -/

/-- The type with another relocation. -/
def Element.withRelocate {α : Type} (element : Element α)
    (relocate : Spot → Spot → α → Effect α) : Element α :=
  { element with relocate := relocate }

def Stock.withRelocate {α γ : Type} (stock : Stock α γ)
    (relocate : Spot → Spot → α → Effect α) : Stock α γ :=
  { stock with element := stock.element.withRelocate relocate }

namespace Vec

variable {α β : Type} {element : Element α} (hbitwise : element.bitwise = true)
  (relocate : Spot → Spot → α → Effect α)

theorem destroyAll_withRelocate (values : List α) :
    (element.withRelocate relocate).destroyAll values = element.destroyAll values := by
  induction values with
  | nil => rfl
  | cons value rest ih =>
    unfold Movable.destroyAll
    rw [ih]
    rfl

theorem clear_withRelocate (vec : Vec α) :
    vec.clear (element.withRelocate relocate) = vec.clear element := by
  unfold clear
  rw [destroyAll_withRelocate]
  rfl

theorem drop_withRelocate (vec : Vec α) :
    vec.drop (element.withRelocate relocate) = vec.drop element := by
  unfold drop
  rw [destroyAll_withRelocate]
  rfl

theorem copyAll_withRelocate (copier : Copier α) (copy : Vec α) (values : List α) :
    copyAll (element.withRelocate relocate) copier copy values =
      copyAll element copier copy values := by
  induction values generalizing copy with
  | nil => rfl
  | cons value rest ih =>
    unfold copyAll
    simp only [ih, drop_withRelocate]

include hbitwise

theorem reserve_withRelocate (vec : Vec α) (capacity : Nat) :
    vec.reserve (element.withRelocate relocate) capacity = vec.reserve element capacity := by
  have hbitwise' : (element.withRelocate relocate).bitwise = true := hbitwise
  unfold reserve regrow
  simp only [hbitwise, hbitwise', if_true]
  rfl

theorem growForOne_withRelocate (vec : Vec α) :
    vec.growForOne (element.withRelocate relocate) = vec.growForOne element := by
  unfold growForOne
  simp only [reserve_withRelocate hbitwise]

theorem openGap_withRelocate (vec : Vec α) (index : Nat) :
    vec.openGap (element.withRelocate relocate) index = vec.openGap element index := by
  have hbitwise' : (element.withRelocate relocate).bitwise = true := hbitwise
  unfold openGap
  rw [if_pos hbitwise, if_pos hbitwise']

theorem closeGap_withRelocate (vec : Vec α) (index : Nat) :
    vec.closeGap (element.withRelocate relocate) index = vec.closeGap element index := by
  have hbitwise' : (element.withRelocate relocate).bitwise = true := hbitwise
  unfold closeGap
  rw [if_pos hbitwise, if_pos hbitwise']

theorem clone_withRelocate (copier : Copier α) (vec : Vec α) :
    vec.clone (element.withRelocate relocate) copier = vec.clone element copier := by
  unfold clone
  simp only [reserve_withRelocate hbitwise, copyAll_withRelocate]
  rfl

theorem act_withRelocate (builder : Builder β α) (vec : Vec α) (call : VecCall α β) :
    call.act (element.withRelocate relocate) builder vec = call.act element builder vec := by
  cases call with
  | reserve capacity => simp only [VecCall.act, reserve_withRelocate hbitwise]
  | reserveAdditional additional =>
    simp only [VecCall.act, reserveAdditional, reserve_withRelocate hbitwise]
  | push value =>
    simp only [VecCall.act, push, growForOne_withRelocate hbitwise]
    rfl
  | emplace args => simp only [VecCall.act, emplace, growForOne_withRelocate hbitwise]
  | insert index value =>
    simp only [VecCall.act, insert, growForOne_withRelocate hbitwise,
      openGap_withRelocate hbitwise]
    rfl
  | remove index => simp only [VecCall.act, remove, closeGap_withRelocate hbitwise]
  | clear => simp only [VecCall.act, clear_withRelocate]
  | drop => simp only [VecCall.act, drop_withRelocate]
  | create | pop | tryPop | tryGet | indexed => rfl

end Vec

namespace Row

variable {α γ : Type} {stock : Stock α γ}

/-- Elements that are moved by their bytes are never relocated: whatever the relocation is,
their vectors do the same. -/
theorem perform_withRelocate (hbitwise : stock.element.bitwise = true)
    (relocate : Spot → Spot → α → Effect α) (row : Row α) (deed : VecDeed α γ) :
    row.perform (stock.withRelocate relocate) deed = row.perform stock deed := by
  cases deed with
  | call name request =>
    have hanswer : answer (stock.withRelocate relocate) (row name) request =
        answer stock (row name) request := by
      cases row name with
      | some vec =>
        rw [answer_some, answer_some]
        exact Vec.act_withRelocate hbitwise relocate stock.builder vec request
      | none =>
        cases request with
        | create capacity? =>
          rw [answer_create, answer_create]
          have hcreated : VecHistory.created (stock.withRelocate relocate).element capacity? =
              VecHistory.created stock.element capacity? := by
            cases capacity? with
            | none => rfl
            | some capacity =>
              exact Vec.reserve_withRelocate hbitwise relocate (Vec.empty stock.element) capacity
          rw [hcreated]
        | reserve | reserveAdditional | push | emplace | insert | remove | pop | tryPop | tryGet
        | indexed | clear | drop => rfl
    simp only [perform, hanswer]
  | replace name index value => rfl
  | clone name copy =>
    have hclone : ∀ vec : Vec α,
        vec.clone (stock.withRelocate relocate).element (stock.withRelocate relocate).copier =
          vec.clone stock.element stock.copier :=
      Vec.clone_withRelocate hbitwise relocate stock.copier
    simp only [perform, hclone]

end Row

/-! ## Vectors at their moorings -/

/-- The elements are there, with room, and valid at their own slots. -/
structure Vec.Moored {α : Type} (element : Element α) (valid : Spot → α → Prop) (vec : Vec α) :
    Prop where
  shows : ∃ items : List Unit, vec.Shows (fun _ => ()) items
  roomy : vec.Roomy element
  anchored : vec.Anchored valid

namespace Vec

variable {α β : Type} {element : Element α} {vec : Vec α} {items : List Unit}

theorem faithful_unit (element : Element α) : Faithful element fun _ => () :=
  fun _ _ _ _ _ => rfl

theorem Shows.live_unit (h : vec.Shows (fun _ => ()) items) : vec.Live := by
  intro index hlt
  have hlive := h.live hlt
  unfold Slots.seen at hlive
  rwa [Option.isSome_map] at hlive

theorem settleAt_shows (h : vec.Shows (fun _ => ()) items) (index : Nat) :
    (vec.settleAt element index).Shows (fun _ => ()) items := by
  unfold settleAt
  cases hget : vec.get? index with
  | none => exact h
  | some value =>
    refine ⟨h.length_eq, fun place => ?_⟩
    show ((vec.slots.write index _).read place).map (fun _ => ()) = items[place]?
    by_cases hplace : place = index
    · subst hplace
      rw [Slots.read_write_self, ← h.get?_eq, hget]
      rfl
    · rw [Slots.read_write_of_ne _ _ hplace, h.read_eq]

theorem settleAt_roomy (h : vec.Roomy element) (index : Nat) :
    (vec.settleAt element index).Roomy element := by
  unfold settleAt
  split
  · exact h
  · exact ⟨h.length_le, h.sizeless⟩

theorem settleAll_shows (h : vec.Shows (fun _ => ()) items) :
    (vec.settleAll element).Shows (fun _ => ()) items := by
  refine ⟨h.length_eq, fun index => ?_⟩
  show ((vec.slots.mapLive _).read index).map (fun _ => ()) = items[index]?
  rw [Slots.read_mapLive, Option.map_map, ← h.read_eq]

theorem tended_eq (element : Element α) (built : Bool) (vec : Vec α) (call : VecCall α β)
    (reply : Reply α) (next : Vec α) :
    call.tended element built vec reply next = next ∨
      ∃ index, call.tended element built vec reply next = next.settleAt element index := by
  unfold VecCall.tended
  split
  · exact Or.inr ⟨_, rfl⟩
  · exact Or.inr ⟨_, rfl⟩
  · cases built with
    | true => exact Or.inr ⟨_, rfl⟩
    | false => exact Or.inl rfl
  · exact Or.inl rfl

/-- The owner's care changes neither how many elements there are nor their room. -/
theorem tended_moored {built : Bool} {valid : Spot → α → Prop} {call : VecCall α β}
    {reply : Reply α} {next : Vec α} (hshows : next.Shows (fun _ => ()) items)
    (hroomy : next.Roomy element)
    (hanchored : (call.tended element built vec reply next).Anchored valid) :
    (call.tended element built vec reply next).Moored element valid := by
  rcases tended_eq element built vec call reply next with hsame | ⟨index, hsettled⟩
  · rw [hsame] at hanchored ⊢
    exact ⟨⟨items, hshows⟩, hroomy, hanchored⟩
  · rw [hsettled] at hanchored ⊢
    exact ⟨⟨items, settleAt_shows hshows index⟩, settleAt_roomy hroomy index, hanchored⟩

theorem anchored_of_empty {valid : Spot → α → Prop} (h : vec.length = 0) :
    vec.Anchored valid := by
  intro index hlt
  omega

/-- Elements without a size are no more than a word counts. -/
theorem Moored.length_lt {valid : Spot → α → Prop} (h : vec.Moored element valid)
    (hsizeless : element.layout.size = 0) : vec.length < Word.limit := by
  have hlength := h.roomy.length_le
  rw [h.roomy.sizeless hsizeless] at hlength
  exact Nat.lt_of_le_of_lt hlength (by decide)

end Vec

/-! ## Care for rows -/

namespace VecDeed

variable {α γ : Type}

def InWord : VecDeed α γ → Prop
  | call _ request => request.InWord
  | _ => True

end VecDeed

namespace Row

variable {α γ : Type}

/-- The row after the owner of the vectors has settled what was moved in by the deed. -/
def tended (stock : Stock α γ) (care : Care) (before : Row α) (deed : VecDeed α γ)
    (answer : Reply α × Row α) : Row α :=
  match deed, answer.1 with
  | .call name request, reply =>
    match before name with
    | none => answer.2
    | some vec =>
      answer.2.put name
        ((answer.2 name).map (request.tended stock.element care.built vec reply))
  | .replace name index _, .taken _ =>
    answer.2.put name ((answer.2 name).map fun vec => vec.settleAt stock.element index)
  | .clone _ copy, .done =>
    if care.copied then answer.2.put copy ((answer.2 copy).map (Vec.settleAll stock.element))
    else answer.2
  | _, _ => answer.2

/-- The row after a deed and the care that follows it. -/
def next (stock : Stock α γ) (care : Care) (row : Row α) (deed : VecDeed α γ)
    (store : Store) : Row α :=
  row.tended stock care deed (row.perform stock deed store).1

/-- The rows that deeds lead to, each of them on any store. -/
inductive Reached (stock : Stock α γ) (care : Care) : Row α → Prop
  | start : Reached stock care fun _ => none
  | deed {row : Row α} (h : Reached stock care row) (deed : VecDeed α γ) (hword : deed.InWord)
    (store : Store) :
    Reached stock care (row.next stock care deed store)

def Moored (element : Element α) (valid : Spot → α → Prop) (row : Row α) : Prop :=
  ∀ name vec, row name = some vec → vec.Moored element valid

variable {stock : Stock α γ} {care : Care} {valid : Spot → α → Prop} {row : Row α}

@[simp] theorem put_self (row : Row α) (name : Nat) (vec? : Option (Vec α)) :
    row.put name vec? name = vec? := if_pos rfl

theorem put_put (row : Row α) (name : Nat) (first second : Option (Vec α)) :
    (row.put name first).put name second = row.put name second := by
  funext other
  unfold put
  by_cases heq : other = name
  · rw [if_pos heq, if_pos heq]
  · rw [if_neg heq, if_neg heq, if_neg heq]

theorem Moored.put {element : Element α} (h : row.Moored element valid) {name : Nat}
    {vec? : Option (Vec α)} (hvec : ∀ vec, vec? = some vec → vec.Moored element valid) :
    (row.put name vec?).Moored element valid := by
  intro other vec hother
  unfold Row.put at hother
  by_cases heq : other = name
  · rw [if_pos heq] at hother
    exact hvec vec hother
  · rw [if_neg heq] at hother
    exact h other vec hother

theorem perform_call {name : Nat} {vec : Vec α} (hrow : row name = some vec)
    (request : VecCall α γ) (store : Store) :
    row.perform stock (.call name request) store =
      (((request.act stock.element stock.builder vec store).1.1,
        row.put name (request.act stock.element stock.builder vec store).1.2),
        (request.act stock.element stock.builder vec store).2) := by
  simp only [perform, hrow, answer_some, Effect.bind_apply]
  rfl

/-- A call on a vector leaves its elements valid. -/
theorem Moored.afterCall (h : row.Moored stock.element valid)
    (hanchors : stock.Anchors care valid) {name : Nat} {vec : Vec α} (hrow : row name = some vec)
    {request : VecCall α γ} (hword : request.InWord) (store : Store) :
    (row.next stock care (.call name request) store).Moored stock.element valid := by
  obtain ⟨⟨items, hshows⟩, hroomy, hanchored⟩ := h name vec hrow
  have hkeeps := VecCall.act_keeps hanchors hanchored hroomy hword store
  have hrefines := VecCall.act_refines stock.builder (Vec.faithful_unit stock.element) hshows
    hroomy request hword store
  have hnext : row.next stock care (.call name request) store = row.put name
      ((request.act stock.element stock.builder vec store).1.2.map
        (request.tended stock.element care.built vec
          (request.act stock.element stock.builder vec store).1.1)) := by
    unfold Row.next tended
    simp only [perform_call hrow, hrow, put_self, put_put]
  rw [hnext]
  refine h.put fun next hsome => ?_
  obtain ⟨bare, hbare, rfl⟩ := Option.map_eq_some_iff.1 hsome
  have hfollows := hrefines.follows bare hbare
  exact Vec.tended_moored hfollows.shows hfollows.roomy (hkeeps bare hbare)

theorem Moored.afterCreation (h : row.Moored stock.element valid) {name : Nat}
    (hrow : row name = none) {request : VecCall α γ} (hword : request.InWord) (store : Store) :
    (row.next stock care (.call name request) store).Moored stock.element valid := by
  have hnext : row.next stock care (.call name request) store =
      row.put name (answer stock none request store).1.2 := by
    unfold Row.next tended
    simp only [hrow, perform, Effect.bind_apply]
    rfl
  rw [hnext]
  refine h.put fun vec hvec => ?_
  cases request with
  | create capacity? =>
    have hbecomes := VecHistory.created_becomes (Vec.faithful_unit stock.element) hword store
    rw [answer_create] at hvec
    simp only [ExceptT.run, Effect.bind_apply] at hvec
    generalize VecHistory.created stock.element capacity? store = run at hbecomes hvec
    obtain ⟨made, middle⟩ := run
    cases made with
    | error kind => cases hvec
    | ok fresh =>
      obtain rfl := Option.some.inj hvec
      refine ⟨⟨[], hbecomes.shows⟩, hbecomes.roomy, ?_⟩
      exact Vec.anchored_of_empty hbecomes.shows.length_eq
  | reserve | reserveAdditional | push | emplace | insert | remove | pop | tryPop | tryGet
  | indexed | clear | drop => cases hvec

/-- A replacement either finds no element or leaves the new one, which its owner settles. -/
theorem next_replace (row : Row α) (care : Care) (name index : Nat) (value : α)
    (store : Store) :
    row.next stock care (.replace name index value) store = row ∨
      ∃ vec old, row name = some vec ∧ vec.get? index = some old ∧
        row.next stock care (.replace name index value) store = row.put name
          (some (Vec.settleAt stock.element
            { vec with slots := vec.slots.write index value } index)) := by
  unfold Row.next tended
  cases hrow : row name with
  | none =>
    simp only [perform, hrow]
    exact Or.inl rfl
  | some vec =>
    cases hget : vec.get? index with
    | none =>
      simp only [perform, hrow, Vec.replace?, hget, Option.map_none, Effect.bind_apply]
      exact Or.inl rfl
    | some old =>
      refine Or.inr ⟨vec, old, rfl, hget, ?_⟩
      simp only [perform, hrow, Vec.replace?, hget, Option.map_some, Effect.pure_apply,
        put_self, put_put]

theorem Moored.afterReplace (h : row.Moored stock.element valid)
    (hanchors : stock.Anchors care valid) (name index : Nat) (value : α) (store : Store) :
    (row.next stock care (.replace name index value) store).Moored stock.element valid := by
  rcases row.next_replace care name index value store with
    hsame | ⟨vec, old, hrow, hget, hnext⟩
  · rw [hsame]
    exact h
  · obtain ⟨⟨items, hshows⟩, hroomy, hanchored⟩ := h name vec hrow
    have hitem := hshows.get?_eq index
    rw [hget] at hitem
    obtain ⟨hindex, -⟩ := List.getElem?_eq_some_iff.1 hitem.symm
    have hwritten := Abreast.written_follows hshows hroomy hindex value
    rw [hnext]
    refine h.put fun next hsome => ?_
    obtain rfl := Option.some.inj hsome
    refine ⟨⟨_, Vec.settleAt_shows hwritten.shows index⟩,
      Vec.settleAt_roomy hwritten.roomy index, ?_⟩
    -- Only the new element may not be valid before it is settled.
    refine Vec.settleAt_anchored hanchors.settles ?_ ?_
    · intro _
      exact Option.isSome_iff_exists.2 ⟨value, Slots.read_write_self _ _ _⟩
    · intro place hlt hne
      exact Vec.holds_of_read (hanchored place hlt) (Slots.read_write_of_ne _ _ hne)

/-! ### Copies -/

section Copies

variable {copy fresh : Vec α} {items : List Unit} {store after : Store}

theorem copyAll_keeps (hanchors : stock.Anchors care valid)
    (hshows : copy.Shows (fun _ => ()) items) (hroomy : copy.Roomy stock.element)
    (hanchored : care.copied = true ∨ copy.Anchored valid) {values : List α}
    (hroom : copy.length + values.length ≤ copy.capacity)
    (hrun : Vec.copyAll stock.element stock.copier copy values store = (.ok fresh, after)) :
    (∃ items : List Unit, fresh.Shows (fun _ => ()) items) ∧ fresh.Roomy stock.element ∧
      (care.copied = true ∨ fresh.Anchored valid) := by
  induction values generalizing copy items store with
  | nil =>
    obtain rfl := Except.ok.inj (Prod.mk.inj hrun).1
    exact ⟨⟨items, hshows⟩, hroomy, hanchored⟩
  | cons value rest ih =>
    rw [List.length_cons] at hroom
    obtain ⟨made, middle, hmade, hrest⟩ := Attempt.bind_ok hrun
    have hcloned := Attempt.undoing_ok hmade
    have hfollows := (Vec.Follows.refl hshows hroomy).append (by omega) made
    refine ih hfollows.shows hfollows.roomy ?_ ?_ hrest
    · by_cases hcopied : care.copied = true
      · exact Or.inl hcopied
      · have hvalid := hanchors.copies.resolve_left hcopied _ _ _ _ _ hcloned
        exact Or.inr ((hanchored.resolve_left hcopied).append hvalid)
    · show copy.length + 1 + rest.length ≤ copy.capacity
      omega

theorem clone_keeps (hanchors : stock.Anchors care valid) {vec : Vec α}
    (h : vec.Moored stock.element valid)
    (hrun : vec.clone stock.element stock.copier store = (.ok fresh, after)) :
    (∃ items : List Unit, fresh.Shows (fun _ => ()) items) ∧ fresh.Roomy stock.element ∧
      (care.copied = true ∨ fresh.Anchored valid) := by
  obtain ⟨items, hshows⟩ := h.shows
  have hvalues : vec.toList.length = vec.length := by
    rw [hshows.length_eq, ← hshows.toList_eq, List.length_map]
  have hgrows := Vec.reserve_grows (Vec.faithful_unit stock.element)
    (Vec.empty_roomy stock.element) h.length_lt store
  obtain ⟨copy, middle, hreserved, hcopied⟩ := Attempt.bind_ok hrun
  rw [hreserved] at hgrows
  obtain ⟨hkept, hroomy, -, hroom⟩ := hgrows
  have hcopy := hkept [] (Vec.empty_shows stock.element fun _ => ())
  have hlength : copy.length = 0 := hcopy.length_eq
  refine copyAll_keeps hanchors hcopy hroomy (Or.inr (Vec.anchored_of_empty hlength)) ?_ hcopied
  rw [hvalues, hlength, Nat.zero_add]
  exact hroom

end Copies

/-- A deed of copying either leaves the row as it is or puts a copy there, which its owner
sees to unless copies are valid by themselves. -/
theorem next_clone (row : Row α) (care : Care) (name copy : Nat) (store : Store) :
    row.next stock care (.clone name copy) store = row ∨
      ∃ vec fresh after, row name = some vec ∧
        vec.clone stock.element stock.copier store = (.ok fresh, after) ∧
        row.next stock care (.clone name copy) store = row.put copy
          (some (if care.copied = true then fresh.settleAll stock.element else fresh)) := by
  unfold Row.next tended
  cases hrow : row name with
  | none =>
    simp only [perform, hrow]
    exact Or.inl rfl
  | some vec =>
    cases hfree : row copy with
    | some held =>
      simp only [perform, hrow, hfree]
      exact Or.inl rfl
    | none =>
      cases hrun : vec.clone stock.element stock.copier store with
      | mk answer after =>
        have hrun' : (vec.clone stock.element stock.copier).run store = (answer, after) := hrun
        simp only [perform, hrow, hfree, Effect.bind_apply, hrun']
        cases answer with
        | error kind => exact Or.inl rfl
        | ok fresh =>
          refine Or.inr ⟨vec, fresh, after, rfl, hrun, ?_⟩
          simp only [Effect.pure_apply, put_self, put_put, Option.map_some]
          split
          · rfl
          · rfl

theorem Moored.afterClone (h : row.Moored stock.element valid)
    (hanchors : stock.Anchors care valid) (name copy : Nat) (store : Store) :
    (row.next stock care (.clone name copy) store).Moored stock.element valid := by
  rcases row.next_clone care name copy store with hsame | ⟨vec, fresh, after, hrow, hrun, hnext⟩
  · rw [hsame]
    exact h
  · obtain ⟨⟨items, hshows⟩, hroomy, hanchored⟩ := clone_keeps hanchors (h name vec hrow) hrun
    rw [hnext]
    refine h.put fun next hsome => ?_
    obtain rfl := Option.some.inj hsome
    by_cases hcopied : care.copied = true
    · rw [if_pos hcopied]
      exact ⟨⟨items, Vec.settleAll_shows hshows⟩, ⟨hroomy.length_le, hroomy.sizeless⟩,
        Vec.settleAll_anchored hanchors.settles hshows.live_unit⟩
    · rw [if_neg hcopied]
      exact ⟨⟨items, hshows⟩, hroomy, hanchored.resolve_left hcopied⟩

theorem Reached.moored (hanchors : stock.Anchors care valid) (h : Reached stock care row) :
    row.Moored stock.element valid := by
  induction h with
  | start =>
    intro name vec hrow
    cases hrow
  | @deed row _ deed hword store ih =>
    cases deed with
    | call name request =>
      cases hrow : row name with
      | none => exact ih.afterCreation hrow hword store
      | some vec => exact ih.afterCall hanchors hrow hword store
    | replace name index value => exact ih.afterReplace hanchors name index value store
    | clone name copy => exact ih.afterClone hanchors name copy store

/-! ## Relocations along a run -/

section Idle

variable (hbitwise : stock.element.bitwise = false)

include hbitwise

theorem idle_reserve_empty {capacity : Nat}
    (hword : stock.element.layout.size = 0 → capacity < Word.limit) :
    stock.Idle ((Vec.empty stock.element).reserve stock.element capacity).run := by
  intro store
  have hlive : (Vec.empty stock.element).Live := by
    intro index hlt
    cases hlt
  exact (Vec.reserve_growth hbitwise hlive (Vec.empty_roomy stock.element) hword store).idle rfl

theorem idle_created {capacity? : Option Nat}
    (hword : (VecCall.create capacity? : VecCall α γ).InWord) :
    stock.Idle (VecHistory.created stock.element capacity?).run := by
  cases capacity? with
  | none => exact stock.habit.pure _
  | some capacity => exact idle_reserve_empty hbitwise fun _ => hword

theorem idle_clone {vec : Vec α} (h : vec.Moored stock.element valid) :
    stock.Idle (vec.clone stock.element stock.copier).run := by
  have hcopies : ∀ (values : List α) (copy : Vec α),
      stock.Idle (Vec.copyAll stock.element stock.copier copy values).run := by
    intro values
    induction values with
    | nil => exact fun copy => stock.habit.pure _
    | cons value rest ih =>
      intro copy
      have hcloned := stock.habit.undoing
        (stock.idle_copy (.slot copy.buffer copy.length) value) (stock.idle_drop copy)
      exact stock.habit.attempt_bind hcloned fun fresh => ih _
  have hreserved := idle_reserve_empty hbitwise h.length_lt
  exact stock.habit.attempt_bind hreserved fun copy => hcopies _ copy

/-- Nothing is relocated by a deed that is no call on a vector. -/
theorem Moored.idle (h : row.Moored stock.element valid) {deed : VecDeed α γ}
    (hword : deed.InWord) (hnone : ∀ name request, deed = .call name request → row name = none) :
    stock.Idle (row.perform stock deed) := by
  cases deed with
  | call name request =>
    have hrow := hnone name request rfl
    simp only [perform, hrow]
    refine stock.habit.bind ?_ fun _ => stock.habit.pure _
    cases request with
    | create capacity? =>
      rw [answer_create]
      refine stock.habit.bind (idle_created hbitwise hword) fun made => ?_
      cases made with
      | error kind => exact stock.habit.pure _
      | ok vec => exact stock.habit.pure _
    | reserve | reserveAdditional | push | emplace | insert | remove | pop | tryPop | tryGet
    | indexed | clear | drop => exact stock.habit.pure _
  | replace name index value =>
    simp only [perform]
    cases row name with
    | none => exact stock.habit.pure _
    | some vec =>
      dsimp only
      cases vec.replace? index value with
      | none => exact stock.habit.bind (stock.idle_destroy value) fun _ => stock.habit.pure _
      | some taken => exact stock.habit.pure _
  | clone name copy =>
    simp only [perform]
    cases hrow : row name with
    | none => exact stock.habit.pure _
    | some vec =>
      cases row copy with
      | some held => exact stock.habit.pure _
      | none =>
        refine stock.habit.bind (idle_clone hbitwise (h name vec hrow)) fun made => ?_
        cases made with
        | error kind => exact stock.habit.pure _
        | ok fresh => exact stock.habit.pure _

end Idle

/-- Every element is valid at its own slot, and each deed relocates elements for growth and
to open and close gaps, and none besides. -/
structure AnchoredThroughout (stock : Stock α γ) (valid : Spot → α → Prop) (row : Row α) :
    Prop where
  anchored : ∀ name vec, row name = some vec → vec.Anchored valid
  growth : ∀ name vec, row name = some vec → ∀ request : VecCall α γ, request.InWord →
    ∀ store, Vec.Growth stock vec store (request.growing stock.element vec store)
  shifts : ∀ name vec, row name = some vec → ∀ (request : VecCall α γ) store,
    stock.Relocates (request.growing stock.element vec store).2
      (row.perform stock (.call name request) store).2
      (request.shifting vec (request.growing stock.element vec store).1)
  /-- An insertion shifts the elements from its index on, a removal those after it. -/
  counts : ∀ name vec, row name = some vec → ∀ (index : Nat) (value : α) grown answer,
    ((VecCall.insert index value : VecCall α γ).shifting vec (.ok grown)).length =
        vec.length - index ∧
      ((VecCall.remove index : VecCall α γ).shifting vec answer).length = vec.length - index - 1
  idle : ∀ deed : VecDeed α γ, deed.InWord →
    (∀ name request, deed = .call name request → row name = none) →
    ∀ store : Store, stock.Relocates store (row.perform stock deed store).2 []

/-- Elements that depend on their spot are valid at their own slots after every deed, and
elements that do not are never relocated.  Where the elements put no relocations of their own
on record, the record of a course lists just the relocations that the vector made. -/
theorem elements_stay_anchored (stock : Stock α γ) :
    (∀ (care : Care) (valid : Spot → α → Prop), stock.Anchors care valid →
      ∀ row, Reached stock care row → row.AnchoredThroughout stock valid) ∧
    (stock.element.bitwise = true → ∀ relocate (row : Row α) (deed : VecDeed α γ),
      row.perform (stock.withRelocate relocate) deed = row.perform stock deed) ∧
    (stock.Tacit → ∀ {before after : Store} {steps : List Entry},
      Course stock before steps after → before.Moves after (relocations steps)) := by
  refine ⟨?_, perform_withRelocate, fun htacit _ _ _ hcourse => hcourse.on_record htacit⟩
  intro care valid hanchors row hreached
  have hmoored := hreached.moored hanchors
  have hbitwise := hanchors.elementwise
  constructor
  case anchored =>
    intro name vec hrow
    exact (hmoored name vec hrow).anchored
  case growth =>
    intro name vec hrow request hword store
    have hvec := hmoored name vec hrow
    exact VecCall.growing_growth hbitwise hvec.anchored.live hvec.roomy hword store
  case shifts =>
    intro name vec hrow request store
    have hvec := hmoored name vec hrow
    rw [perform_call hrow]
    exact VecCall.act_relocates hbitwise hvec.anchored.live hvec.roomy request store
  case counts =>
    intro name vec hrow index value grown answer
    exact ⟨Vec.length_rises _ _ _, Vec.length_falls _ _ _⟩
  case idle =>
    intro deed hword hnone store
    exact hmoored.idle hbitwise hword hnone store

/-! ## Runs on one store -/

/-- The row after some deeds and the care that follows each of them, on the store that the
deeds before have left. -/
def tendedRun (stock : Stock α γ) (care : Care) (row : Row α) (store : Store) :
    List (VecDeed α γ) → Row α
  | [] => row
  | deed :: later =>
    tendedRun stock care (row.next stock care deed store) (row.perform stock deed store).2 later

theorem Reached.afterRun (h : Reached stock care row) {deeds : List (VecDeed α γ)}
    (hwords : ∀ deed ∈ deeds, deed.InWord) (store : Store) :
    Reached stock care (tendedRun stock care row store deeds) := by
  induction deeds generalizing row store with
  | nil => exact h
  | cons deed later ih =>
    have hnext := h.deed deed (hwords deed (by simp)) store
    exact ih hnext (fun deed hmem => hwords deed (by simp [hmem])) _

/-- Two vectors are filled and copied; the first one has to move, and one request for more
room is refused. -/
def mooring : List (VecDeed Piece Datum) :=
  [.call 0 (.create none), .call 0 (.push { datum := .number 1 }),
    .call 0 (.insert 0 { datum := .number 2 }), .clone 0 1, .call 0 (.reserve 12),
    .call 0 (.reserve 12), .call 0 (.emplace (.number 3)), .call 0 (.remove 0),
    .replace 0 1 { datum := .number 4 }]

theorem elements_stay_anchored_mooring :
    Catalogue.anchored.stock.Anchors Catalogue.anchored.care Leaf.AnchoredAt ∧
      (tendedRun Catalogue.anchored.stock Catalogue.anchored.care (fun _ => none) crowdedStore
        mooring).AnchoredThroughout Catalogue.anchored.stock Leaf.AnchoredAt ∧
      [0, 1].map (fun name => (tendedRun Catalogue.anchored.stock Catalogue.anchored.care
        (fun _ => none) crowdedStore mooring name).map Vec.length) = [some 2, some 2] ∧
      Catalogue.plain.stock.element.bitwise = true ∧
      (∀ relocate row deed,
        Row.perform (Catalogue.plain.stock.withRelocate relocate) row deed =
          row.perform Catalogue.plain.stock deed) ∧
      Catalogue.anchored.stock.Tacit ∧
      ∀ {before after : Store} {steps : List Entry},
        Course Catalogue.anchored.stock before steps after →
          before.Moves after (relocations steps) := by
  have hanchors : Catalogue.anchored.stock.Anchors Catalogue.anchored.care Leaf.AnchoredAt :=
    Leaf.anchors rfl
  have hwords : ∀ deed ∈ mooring, deed.InWord := by
    intro deed hmem
    simp only [mooring, List.mem_cons, List.not_mem_nil, or_false] at hmem
    rcases hmem with rfl | rfl | rfl | rfl | rfl | rfl | rfl | rfl | rfl
    case inr.inr.inr.inr.inl => exact (by decide : 12 < Word.limit)
    case inr.inr.inr.inr.inr.inl => exact (by decide : 12 < Word.limit)
    all_goals exact trivial
  have hreached : Reached Catalogue.anchored.stock Catalogue.anchored.care
      (tendedRun _ _ (fun _ => none) crowdedStore mooring) := Reached.start.afterRun hwords _
  have hanchored := elements_stay_anchored Catalogue.anchored.stock
  have hplain := elements_stay_anchored Catalogue.plain.stock
  have htacit := Catalogue.anchored.tacit
  exact ⟨hanchors, hanchored.1 _ _ hanchors _ hreached, by decide +kernel, rfl,
    hplain.2.1 rfl, htacit, hanchored.2.2 htacit⟩

end Row
end Freehold
