import Mathlib.Data.List.Perm.Basic
import Freehold.Element.Catalogue
import Freehold.Proofs.Vec.Calls
import Freehold.Proofs.Vec.Operations

/-!
# Vectors refine lists

A vector refines a list: every call does to the elements what the operation of its name
does to a list, or fails and leaves them.  And every value has one keeper.  What was ever
passed in or built is in the vector, was handed out, or was destroyed, and it is in just
one of these places.
-/

namespace Freehold

namespace Reply

variable {κ : Type}

/-- There is less room than is wanted, and an allocator or a size is to blame. -/
def Refuses (reply : Reply κ) (capacity wanted : Nat) : Prop :=
  capacity < wanted ∧ ∃ kind, reply = failed kind ∧ kind.OfRequest

end Reply

namespace VecCall

variable {α β κ : Type}

def InWord : VecCall α β → Prop
  | create (some capacity) | reserve capacity => capacity < Word.limit
  | _ => True

/-- What a call does to a list, and what it replies, where there is room for so many
elements.  With room to spare no allocator and no size stands in the way. -/
def OnList (builder : Builder β α) (view : α → κ) (capacity : Nat) (before : List κ)
    (reply : Reply κ) (after : List κ) : VecCall α β → Prop
  | create _ => reply = .refused ∧ after = before
  | reserve wanted => (reply = .done ∨ reply.Refuses capacity wanted) ∧ after = before
  | reserveAdditional additional =>
    (reply = .done ∨ reply.Refuses (min capacity Word.greatest) (before.length + additional)) ∧
      after = before
  | push value =>
    (reply = .done ∧ after = before ++ [view value]) ∨
      (reply.Refuses capacity (before.length + 1) ∧ after = before)
  | emplace args =>
    (∃ value spot store store', builder.constructAt spot args store = (.ok value, store') ∧
      reply = .shown (view value) ∧ after = before ++ [view value]) ∨
    (reply.Refuses capacity (before.length + 1) ∧ after = before) ∨
    (∃ kind spot store store', builder.constructAt spot args store = (.error kind, store') ∧
      reply = .failed kind ∧ after = before)
  | insert index value =>
    if before.length < index then reply = .failed .outOfRange ∧ after = before
    else
      (reply = .done ∧ after = before.insertIdx index (view value)) ∨
        (reply.Refuses capacity (before.length + 1) ∧ after = before)
  | remove index =>
    match before[index]? with
    | none => reply = .failed .outOfRange ∧ after = before
    | some value => reply = .taken value ∧ after = before.eraseIdx index
  | pop =>
    match before.getLast? with
    | none => reply = .nothing ∧ after = before
    | some value => reply = .taken value ∧ after = before.dropLast
  | tryPop =>
    match before.getLast? with
    | none => reply = .failed .containerEmpty ∧ after = before
    | some value => reply = .taken value ∧ after = before.dropLast
  | tryGet index =>
    after = before ∧
      match before[index]? with
      | none => reply = .failed .outOfBounds
      | some value => reply = .shown value
  | indexed index =>
    after = before ∧
      match before[index]? with
      | none => reply = .trapped (Vec.outOfBounds before.length index)
      | some value => reply = .shown value
  | clear | drop => reply = .done ∧ after = []

def contents (view : α → κ) (vec? : Option (Vec α)) : List κ :=
  (vec?.map fun vec => vec.toList.map view).getD []

/-- An answer of a call on a vector that shows the items. -/
structure Refines (element : Element α) (builder : Builder β α) (view : α → κ) (vec : Vec α)
    (items : List κ) (call : VecCall α β) (answer : Reply α × Option (Vec α)) : Prop where
  onList : call.OnList builder view vec.capacity items (answer.1.map view)
    (contents view answer.2)
  follows : ∀ next, answer.2 = some next →
    Vec.Follows element view vec next (contents view answer.2)
  gone : answer.2 = none → call = .drop
  balanced : ((call.entering answer.1).map view ++ items).Perm
    (contents view answer.2 ++ answer.1.handed.map view ++
      (call.losing vec answer.1).map view)

section Answers

variable {element : Element α} {builder : Builder β α} {view : α → κ} {vec : Vec α}
  {items : List κ} {call : VecCall α β}

theorem contents_of_follows {next : Vec α} {after : List κ}
    (h : Vec.Follows element view vec next after) : contents view (some next) = after :=
  h.shows.toList_eq

theorem Refines.of_follows {reply : Reply α} {next : Vec α} {after : List κ}
    (hfollows : Vec.Follows element view vec next after)
    (hlist : call.OnList builder view vec.capacity items (reply.map view) after)
    (hbalanced : ((call.entering reply).map view ++ items).Perm
      (after ++ reply.handed.map view ++ (call.losing vec reply).map view)) :
    call.Refines element builder view vec items (reply, some next) := by
  have hcontents := contents_of_follows hfollows
  constructor
  · rw [hcontents]
    exact hlist
  · intro other hother
    cases hother
    rw [hcontents]
    exact hfollows
  · intro hnone
    cases hnone
  · rw [hcontents]
    exact hbalanced

theorem attempting_refines {attempt : Attempt (Vec α)} {after : List κ} {store : Store}
    (hshows : vec.Shows view items) (hroomy : vec.Roomy element)
    (hbecomes : Vec.Becomes element view vec after (attempt store).1)
    (hdone : call.OnList builder view vec.capacity items .done after ∧
      ((call.entering .done).map view ++ items).Perm
        (after ++ (call.losing vec .done).map view))
    (hrefused : ∀ kind middle, attempt store = (.error kind, middle) → kind.OfRequest →
      call.OnList builder view vec.capacity items (.failed kind) items ∧
      ((call.entering (.failed kind)).map view ++ items).Perm
        (items ++ (call.losing vec (.failed kind)).map view)) :
    call.Refines element builder view vec items (attempting vec attempt store).1 := by
  rw [attempting_apply]
  generalize hrun : attempt store = run at hbecomes ⊢
  obtain ⟨answer, middle⟩ := run
  cases answer with
  | error kind =>
    obtain ⟨hlist, hbalanced⟩ := hrefused kind middle hrun hbecomes
    refine .of_follows (.refl hshows hroomy) hlist ?_
    simpa [Reply.handed] using hbalanced
  | ok next =>
    refine .of_follows hbecomes hdone.1 ?_
    simpa [Reply.handed] using hdone.2

theorem perm_append_singleton_of_cons (item : κ) (items : List κ) :
    (item :: items).Perm (items ++ [item]) :=
  (List.perm_append_singleton item items).symm

theorem refines_unchanged {reply : Reply α} (hshows : vec.Shows view items)
    (hroomy : vec.Roomy element)
    (hlist : call.OnList builder view vec.capacity items (reply.map view) items)
    (hbalanced : ((call.entering reply).map view ++ items).Perm
      (items ++ reply.handed.map view ++ (call.losing vec reply).map view)) :
    call.Refines element builder view vec items (reply, some vec) :=
  .of_follows (.refl hshows hroomy) hlist hbalanced

theorem lt_of_push_error {value : α} {kind : ErrorKind} {store after : Store}
    (h : vec.push element value store = (.error kind, after)) :
    vec.capacity < vec.length + 1 := by
  rw [push_apply] at h
  generalize hrun : vec.growForOne element store = run at h
  obtain ⟨answer, middle⟩ := run
  cases answer with
  | error kind => exact Vec.lt_of_growForOne_error hrun
  | ok grown => cases h

theorem lt_of_insert_error {index : Nat} (hinside : index ≤ vec.length) {value : α}
    {kind : ErrorKind} {store after : Store}
    (h : vec.insert element index value store = (.error kind, after)) :
    vec.capacity < vec.length + 1 := by
  rw [insert_apply, if_neg (Nat.not_lt.2 hinside)] at h
  generalize hrun : vec.growForOne element store = run at h
  obtain ⟨answer, middle⟩ := run
  cases answer with
  | error kind => exact Vec.lt_of_growForOne_error hrun
  | ok grown => cases h

theorem push_refines (hfaithful : Vec.Faithful element view) (hshows : vec.Shows view items)
    (hroomy : vec.Roomy element) (value : α) (store : Store) :
    (push value).Refines element builder view vec items
      ((push value).act element builder vec store).1 := by
  have hswap := perm_append_singleton_of_cons (view value) items
  have hbecomes := Vec.push_becomes hfaithful hshows hroomy value store
  apply attempting_refines hshows hroomy hbecomes
  · constructor
    · exact Or.inl ⟨rfl, rfl⟩
    · simpa [entering, losing] using hswap
  · intro kind middle hrun hkind
    have hfull := lt_of_push_error hrun
    rw [hshows.length_eq] at hfull
    constructor
    · exact Or.inr ⟨⟨hfull, kind, rfl, hkind⟩, rfl⟩
    · simpa [entering, losing] using hswap

theorem insert_refines (hfaithful : Vec.Faithful element view) (hshows : vec.Shows view items)
    (hroomy : vec.Roomy element) (index : Nat) (value : α) (store : Store) :
    (insert index value).Refines element builder view vec items
      ((insert index value).act element builder vec store).1 := by
  have hswap := perm_append_singleton_of_cons (view value) items
  by_cases houtside : items.length < index
  · simp only [act, attempting_apply, insert_apply, if_pos (hshows.length_eq ▸ houtside)]
    apply refines_unchanged hshows hroomy
    · show if items.length < index then _ else _
      rw [if_pos houtside]
      exact ⟨rfl, rfl⟩
    · simpa [entering, losing, Reply.handed] using hswap
  · have hinside := Nat.le_of_not_lt houtside
    have hbecomes := Vec.insert_becomes hfaithful hshows hroomy hinside value store
    apply attempting_refines hshows hroomy hbecomes
    · constructor
      · show if items.length < index then _ else _
        rw [if_neg houtside]
        exact Or.inl ⟨rfl, rfl⟩
      · simpa [entering, losing] using (List.perm_insertIdx (view value) items hinside).symm
    · intro kind middle hrun hkind
      have hfull := lt_of_insert_error (hshows.length_eq ▸ hinside) hrun
      rw [hshows.length_eq] at hfull
      constructor
      · show if items.length < index then _ else _
        rw [if_neg houtside]
        exact Or.inr ⟨⟨hfull, kind, rfl, hkind⟩, rfl⟩
      · simpa [entering, losing] using hswap

theorem emplace_refines (hfaithful : Vec.Faithful element view) (hshows : vec.Shows view items)
    (hroomy : vec.Roomy element) (args : β) (store : Store) :
    (emplace args).Refines element builder view vec items
      ((emplace args).act element builder vec store).1 := by
  have hemplaced := Vec.emplace_emplaced hfaithful hshows hroomy builder args store
  simp only [act, Effect.bind_apply]
  generalize vec.emplace element builder args store = run at hemplaced ⊢
  obtain ⟨⟨answer, next⟩, middle⟩ := run
  cases answer with
  | error kind =>
    obtain ⟨hfollows, hcause⟩ := hemplaced
    apply Refines.of_follows hfollows
    · rw [hshows.length_eq] at hcause
      rcases hcause with ⟨hfull, hkind⟩ | ⟨spot, before, after, hbuild⟩
      · exact Or.inr (Or.inl ⟨⟨hfull, kind, rfl, hkind⟩, rfl⟩)
      · exact Or.inr (Or.inr ⟨kind, spot, before, after, hbuild, rfl, rfl⟩)
    · simp [entering, losing, Reply.handed]
  | ok done =>
    obtain ⟨value, spot, before, after, hbuild, hget, hfollows⟩ := hemplaced
    dsimp only
    rw [hget]
    apply Refines.of_follows hfollows
    · exact Or.inl ⟨value, spot, before, after, hbuild, rfl, rfl⟩
    · simpa [entering, losing, Reply.handed] using
        perm_append_singleton_of_cons (view value) items

theorem remove_refines (hfaithful : Vec.Faithful element view) (hshows : vec.Shows view items)
    (hroomy : vec.Roomy element) (index : Nat) (store : Store) :
    (remove index).Refines element builder view vec items
      ((remove index).act element builder vec store).1 := by
  simp only [act, Effect.bind_apply, ExceptT.run]
  by_cases hinside : index < items.length
  · obtain ⟨value, next, hremove, hvalue, hfollows⟩ :=
      Vec.remove_inside hfaithful hshows hroomy hinside store
    rw [hremove]
    apply Refines.of_follows hfollows
    · simp [OnList, hvalue, Reply.map]
    · obtain ⟨hlt, hitem⟩ := List.getElem?_eq_some_iff.1 hvalue
      have hperm := List.getElem_cons_eraseIdx_perm hlt
      rw [hitem] at hperm
      simpa [entering, losing, Reply.handed] using
        hperm.symm.trans (perm_append_singleton_of_cons _ _)
  · have houtside := Nat.le_of_not_lt hinside
    rw [Vec.remove_outside hshows houtside store]
    apply refines_unchanged hshows hroomy
    · simp [OnList, List.getElem?_eq_none houtside, Reply.map]
    · simp [entering, losing, Reply.handed]

theorem pop_refines (hshows : vec.Shows view items) (hroomy : vec.Roomy element)
    (store : Store) :
    (pop : VecCall α β).Refines element builder view vec items
      (pop.act element builder vec store).1 := by
  rcases List.eq_nil_or_concat items with rfl | ⟨rest, last, rfl⟩
  · simp only [act, Vec.pop_nil hshows]
    apply refines_unchanged hshows hroomy
    · exact ⟨rfl, rfl⟩
    · simp [entering, losing, Reply.handed]
  · rw [List.concat_eq_append] at hshows ⊢
    obtain ⟨value, next, hpop, rfl, hfollows⟩ := Vec.pop_concat hshows hroomy
    simp only [act, hpop]
    apply Refines.of_follows hfollows
    · simp [OnList, Reply.map]
    · simp [entering, losing, Reply.handed]

theorem tryPop_refines (hshows : vec.Shows view items) (hroomy : vec.Roomy element)
    (store : Store) :
    (tryPop : VecCall α β).Refines element builder view vec items
      (tryPop.act element builder vec store).1 := by
  rcases List.eq_nil_or_concat items with rfl | ⟨rest, last, rfl⟩
  · simp only [act, Vec.tryPop, Vec.pop_nil hshows]
    apply refines_unchanged hshows hroomy
    · exact ⟨rfl, rfl⟩
    · simp [entering, losing, Reply.handed]
  · rw [List.concat_eq_append] at hshows ⊢
    obtain ⟨value, next, hpop, rfl, hfollows⟩ := Vec.pop_concat hshows hroomy
    simp only [act, Vec.tryPop, hpop]
    apply Refines.of_follows hfollows
    · simp [OnList, Reply.map]
    · simp [entering, losing, Reply.handed]

theorem tryGet_refines (hshows : vec.Shows view items) (hroomy : vec.Roomy element)
    (index : Nat) (store : Store) :
    (tryGet index : VecCall α β).Refines element builder view vec items
      ((tryGet index).act element builder vec store).1 := by
  have hget := hshows.get?_eq index
  simp only [act, Vec.tryGet]
  cases hslot : vec.get? index with
  | none =>
    rw [hslot] at hget
    apply refines_unchanged hshows hroomy
    · simp [OnList, ← hget, Reply.map]
    · simp [entering, losing, Reply.handed]
  | some value =>
    rw [hslot] at hget
    apply refines_unchanged hshows hroomy
    · simp [OnList, ← hget, Reply.map]
    · simp [entering, losing, Reply.handed]

theorem indexed_refines (hshows : vec.Shows view items) (hroomy : vec.Roomy element)
    (index : Nat) (store : Store) :
    (indexed index : VecCall α β).Refines element builder view vec items
      ((indexed index).act element builder vec store).1 := by
  have hget := hshows.get?_eq index
  simp only [act, Vec.indexed]
  cases hslot : vec.get? index with
  | none =>
    rw [hslot] at hget
    apply refines_unchanged hshows hroomy
    · simp [OnList, ← hget, Reply.map, hshows.length_eq]
    · simp [entering, losing, Reply.handed]
  | some value =>
    rw [hslot] at hget
    apply refines_unchanged hshows hroomy
    · simp [OnList, ← hget, Reply.map]
    · simp [entering, losing, Reply.handed]

theorem act_refines (builder : Builder β α) (hfaithful : Vec.Faithful element view)
    (hshows : vec.Shows view items) (hroomy : vec.Roomy element) (call : VecCall α β)
    (hword : call.InWord) (store : Store) :
    call.Refines element builder view vec items (call.act element builder vec store).1 := by
  cases call with
  | create capacity? =>
    apply refines_unchanged hshows hroomy
    · exact ⟨rfl, rfl⟩
    · simp [entering, losing, Reply.handed]
  | reserve capacity =>
    have hgrows := Vec.reserve_grows hfaithful hroomy (fun _ => hword) store
    apply attempting_refines hshows hroomy (hgrows.becomes hshows)
    · exact ⟨⟨Or.inl rfl, rfl⟩, by simp [entering, losing]⟩
    · intro kind middle hrun hkind
      have hless := Vec.lt_of_reserve_error hrun
      exact ⟨⟨Or.inr ⟨hless, kind, rfl, hkind⟩, rfl⟩, by simp [entering, losing]⟩
  | reserveAdditional additional =>
    have hgrows := Vec.reserveAdditional_grows hfaithful hroomy additional store
    apply attempting_refines hshows hroomy (hgrows.becomes hshows)
    · exact ⟨⟨Or.inl rfl, rfl⟩, by simp [entering, losing]⟩
    · intro kind middle hrun hkind
      have hless := Vec.lt_of_reserveAdditional_error hrun
      rw [hshows.length_eq] at hless
      exact ⟨⟨Or.inr ⟨hless, kind, rfl, hkind⟩, rfl⟩, by simp [entering, losing]⟩
  | push value => exact push_refines hfaithful hshows hroomy value store
  | insert index value => exact insert_refines hfaithful hshows hroomy index value store
  | emplace args => exact emplace_refines hfaithful hshows hroomy args store
  | remove index => exact remove_refines hfaithful hshows hroomy index store
  | pop => exact pop_refines hshows hroomy store
  | tryPop => exact tryPop_refines hshows hroomy store
  | tryGet index => exact tryGet_refines hshows hroomy index store
  | indexed index => exact indexed_refines hshows hroomy index store
  | clear =>
    have hfollows : Vec.Follows element view vec (vec.clear element store).1 [] :=
      Vec.clear_follows hroomy store
    simp only [act, Effect.bind_apply]
    apply Refines.of_follows hfollows
    · exact ⟨rfl, rfl⟩
    · simp [entering, losing, Reply.handed, hshows.toList_eq]
  | drop =>
    constructor
    · exact ⟨rfl, rfl⟩
    · intro next hnext
      cases hnext
    · intro _
      rfl
    · simp [act, Effect.bind_apply, Effect.pure_apply, entering, losing, Reply.handed, contents,
        hshows.toList_eq]

end Answers

end VecCall

/-! ## Runs -/

/-- A vector, if there is one, with the record of all values that ever came to it. -/
structure VecHistory (α κ : Type) where
  vec : Option (Vec α) := none
  entered : List κ := []
  handed : List κ := []
  dropped : List κ := []

namespace VecHistory

variable {α β κ : Type}

def created (element : Element α) : Option Nat → Attempt (Vec α)
  | none => pure (Vec.empty element)
  | some capacity => (Vec.empty element).reserve element capacity

/-- The record after a call on the vector was answered. -/
def recorded (view : α → κ) (history : VecHistory α κ) (vec : Vec α) (call : VecCall α β)
    (answer : Reply α × Option (Vec α)) : VecHistory α κ :=
  { vec := answer.2
    entered := history.entered ++ (call.entering answer.1).map view
    handed := history.handed ++ answer.1.handed.map view
    dropped := history.dropped ++ (call.losing vec answer.1).map view }

def perform (element : Element α) (builder : Builder β α) (view : α → κ)
    (history : VecHistory α κ) (call : VecCall α β) : Effect (Reply α × VecHistory α κ) :=
  match history.vec, call with
  | some vec, call => do
    let answer ← call.act element builder vec
    pure (answer.1, history.recorded view vec call answer)
  | none, .create capacity? => do
    match ← (created element capacity?).run with
    | .error kind => pure (.failed kind, history)
    | .ok vec => pure (.done, { history with vec := some vec })
  | none, _ => pure (.refused, history)

def run (element : Element α) (builder : Builder β α) (view : α → κ)
    (history : VecHistory α κ) : List (VecCall α β) → Effect (VecHistory α κ)
  | [] => pure history
  | call :: later => do
    let answer ← history.perform element builder view call
    answer.2.run element builder view later

/-- The vector shows its elements and has room for them, and every value that came to it
is in one place. -/
structure Kept (element : Element α) (view : α → κ) (history : VecHistory α κ) : Prop where
  shows : ∀ vec, history.vec = some vec → vec.Shows view (vec.toList.map view)
  roomy : ∀ vec, history.vec = some vec → vec.Roomy element
  balanced : history.entered.Perm
    (VecCall.contents view history.vec ++ history.handed ++ history.dropped)

variable {element : Element α} {builder : Builder β α} {view : α → κ} {history : VecHistory α κ}

theorem kept_initial (element : Element α) (view : α → κ) :
    ({} : VecHistory α κ).Kept element view := by
  constructor
  · intro vec hvec
    cases hvec
  · intro vec hvec
    cases hvec
  · exact List.Perm.refl []

theorem created_becomes (hfaithful : Vec.Faithful element view) {capacity? : Option Nat}
    (hword : (VecCall.create capacity? : VecCall α β).InWord) (store : Store) :
    Vec.Becomes element view (Vec.empty element) [] (created element capacity? store).1 := by
  have hshows := Vec.empty_shows element view
  have hroomy := Vec.empty_roomy element
  cases capacity? with
  | none => exact Vec.Follows.refl hshows hroomy
  | some capacity =>
    exact (Vec.reserve_grows hfaithful hroomy (fun _ => hword) store).becomes hshows

theorem Kept.afterCall (h : history.Kept element view) {vec : Vec α}
    (hvec : history.vec = some vec) {call : VecCall α β} {answer : Reply α × Option (Vec α)}
    (hrefines : call.Refines element builder view vec (vec.toList.map view) answer) :
    (history.recorded view vec call answer).Kept element view := by
  constructor
  · intro next hnext
    have hfollows := hrefines.follows next hnext
    have hcontents := hfollows.shows.toList_eq
    rw [hcontents]
    exact hfollows.shows
  · intro next hnext
    exact (hrefines.follows next hnext).roomy
  · have hbefore := h.balanced
    have hbalanced := hrefines.balanced
    rw [hvec] at hbefore
    classical
    rw [List.perm_iff_count] at hbefore hbalanced ⊢
    intro item
    have hbefore := hbefore item
    have hbalanced := hbalanced item
    simp only [recorded, VecCall.contents, Option.map_some, Option.getD_some,
      List.count_append] at hbefore hbalanced ⊢
    omega

theorem Kept.afterCreation (h : history.Kept element view) (hvec : history.vec = none)
    {vec : Vec α} (hfollows : Vec.Follows element view (Vec.empty element) vec []) :
    ({ history with vec := some vec } : VecHistory α κ).Kept element view := by
  have hcontents := hfollows.shows.toList_eq
  constructor
  · intro next hnext
    cases hnext
    rw [hcontents]
    exact hfollows.shows
  · intro next hnext
    cases hnext
    exact hfollows.roomy
  · have hbefore := h.balanced
    rw [hvec] at hbefore
    simpa [VecCall.contents, hcontents] using hbefore

theorem Kept.afterPerform (builder : Builder β α) (hfaithful : Vec.Faithful element view)
    (h : history.Kept element view) {call : VecCall α β} (hword : call.InWord)
    (store : Store) :
    (history.perform element builder view call store).1.2.Kept element view := by
  cases hvec : history.vec with
  | some vec =>
    have hrefines := VecCall.act_refines builder hfaithful (h.shows vec hvec)
      (h.roomy vec hvec) call hword store
    unfold perform
    rw [hvec]
    exact h.afterCall hvec hrefines
  | none =>
    unfold perform
    rw [hvec]
    cases call with
    | create capacity? =>
      have hbecomes := created_becomes hfaithful hword store
      simp only [ExceptT.run, Effect.bind_apply]
      generalize created element capacity? store = run at hbecomes ⊢
      obtain ⟨answer, middle⟩ := run
      cases answer with
      | error kind => exact h
      | ok vec => exact h.afterCreation hvec hbecomes
    | reserve | reserveAdditional | push | emplace | insert | remove | pop | tryPop | tryGet
    | indexed | clear | drop => exact h

theorem Kept.afterRun (builder : Builder β α) (hfaithful : Vec.Faithful element view)
    (h : history.Kept element view) {calls : List (VecCall α β)}
    (hwords : ∀ call ∈ calls, call.InWord) (store : Store) :
    (history.run element builder view calls store).1.Kept element view := by
  induction calls generalizing history store with
  | nil => exact h
  | cons call later ih =>
    have hfirst := h.afterPerform builder hfaithful (hwords call (by simp)) store
    exact ih hfirst (fun call hmem => hwords call (by simp [hmem])) _

/-- A vector is a list that may fail to grow, and every value that comes to it has one
keeper at any time. -/
theorem vec_refines_list (element : Element α) (builder : Builder β α) (view : α → κ)
    (hfaithful : Vec.Faithful element view) (calls : List (VecCall α β))
    (hwords : ∀ call ∈ calls, call.InWord) (store : Store) :
    (run element builder view {} calls store).1.Kept element view ∧
      (∀ vec, (run element builder view {} calls store).1.vec = some vec →
        ∀ call : VecCall α β, call.InWord → ∀ later : Store,
          call.Refines element builder view vec (vec.toList.map view)
              (call.act element builder vec later).1 ∧
            element.Destroys (fun element => call.act element builder vec) later
              (call.losing vec (call.act element builder vec later).1.1)) ∧
      ∀ capacity?, (VecCall.create capacity? : VecCall α β).InWord → ∀ later : Store,
        Vec.Becomes element view (Vec.empty element) [] (created element capacity? later).1 := by
  have hkept := (kept_initial element view).afterRun builder hfaithful hwords store
  refine ⟨hkept, ?_, ?_⟩
  · intro vec hvec call hword later
    exact ⟨VecCall.act_refines builder hfaithful (hkept.shows vec hvec) (hkept.roomy vec hvec) call
      hword later, VecCall.act_destroys element builder vec call later⟩
  · intro capacity? hword later
    exact created_becomes hfaithful hword later

/-- What a piece of a leaf type is, wherever it is. -/
def pieceView (piece : Piece) : Datum × Option Nat := (piece.datum, piece.serial)

theorem leaf_faithful (leaf : Leaf) : Vec.Faithful leaf.element pieceView := by
  intro hbitwise source target piece store
  obtain ⟨datum, serial, anchor, drawn⟩ := piece
  show pieceView (leaf.relocate source target ⟨datum, serial, anchor, drawn⟩ store).1 = _
  unfold Leaf.relocate
  split
  · cases serial with
    | none => rfl
    | some serial => rfl
  · rfl

/-- A vector of elements that depend on their place, filled beyond its first buffer. -/
def filledAnchored : List (VecCall Piece Datum) :=
  .create none ::
    (List.range 9).map (fun n => .push { datum := .number n, serial := some n }) ++
    [.insert 3 { datum := .number 10, serial := some 10 },
      .insert 40 { datum := .number 11, serial := some 11 }, .emplace (.number 12), .remove 2,
      .tryGet 20, .reserve 100, .tryPop, .clear, .pop, .drop]

theorem vec_refines_list_anchored :
    (∀ call ∈ filledAnchored, call.InWord) ∧
      (run Catalogue.anchored.element Catalogue.anchored.builder pieceView {} filledAnchored
        { memory := { backend := .stack { base := 4096, capacity := 4096 } } }).1.Kept
          Catalogue.anchored.element pieceView := by
  have hwords : ∀ call ∈ filledAnchored, call.InWord := by
    intro call hmem
    simp only [filledAnchored, List.cons_append, List.mem_cons, List.mem_append, List.mem_map,
      List.not_mem_nil, or_false] at hmem
    rcases hmem with rfl | ⟨n, -, rfl⟩ | rfl | rfl | rfl | rfl | rfl | rfl | rfl | rfl | rfl | rfl
    case inr.inr.inr.inr.inr.inr.inr.inl => exact (by decide : 100 < Word.limit)
    all_goals exact trivial
  exact ⟨hwords, (vec_refines_list Catalogue.anchored.element Catalogue.anchored.builder
    pieceView (leaf_faithful Catalogue.anchored) filledAnchored hwords _).1⟩

end VecHistory
end Freehold
