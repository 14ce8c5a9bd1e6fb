import Freehold.Proofs.Attempt
import Freehold.Vec.Basic

/-!
# Calls on a vector

A call is one operation of a vector, with what it replies to its caller.  Which values a
call destroys is said for all destructors at once: the call is the same for each of them
but that it runs the destructor on the listed values, one after the other.
-/

namespace Freehold

inductive VecCall (α β : Type) where
  | create (capacity? : Option Nat)
  | reserve (capacity : Nat)
  | reserveAdditional (additional : Nat)
  | push (value : α)
  | emplace (args : β)
  | insert (index : Nat) (value : α)
  | remove (index : Nat)
  | pop
  | tryPop
  | tryGet (index : Nat)
  | indexed (index : Nat)
  | clear
  | drop

inductive Reply (α : Type) where
  | done
  | nothing
  /-- There is no vector for the call, or there is one already. -/
  | refused
  | shown (value : α)
  | taken (value : α)
  | failed (kind : ErrorKind)
  | trapped (trap : Trap)

namespace Reply

variable {α κ : Type}

def map (view : α → κ) : Reply α → Reply κ
  | done => done
  | nothing => nothing
  | refused => refused
  | shown value => shown (view value)
  | taken value => taken (view value)
  | failed kind => failed kind
  | trapped trap => trapped trap

/-- What is handed out for good. -/
def handed : Reply α → List α
  | taken value => [value]
  | _ => []

end Reply

namespace VecCall

variable {α β : Type}

def attempting (vec : Vec α) (attempt : Attempt (Vec α)) :
    Effect (Reply α × Option (Vec α)) := do
  match ← attempt.run with
  | .error kind => pure (.failed kind, some vec)
  | .ok next => pure (.done, some next)

def act (element : Element α) (builder : Builder β α) (vec : Vec α) :
    VecCall α β → Effect (Reply α × Option (Vec α))
  | create _ => pure (.refused, some vec)
  | reserve capacity => attempting vec (vec.reserve element capacity)
  | reserveAdditional additional => attempting vec (vec.reserveAdditional element additional)
  | push value => attempting vec (vec.push element value)
  | emplace args => do
    match ← vec.emplace element builder args with
    | (.error kind, next) => pure (.failed kind, some next)
    | (.ok (), next) => pure (((next.get? vec.length).map .shown).getD .done, some next)
  | insert index value => attempting vec (vec.insert element index value)
  | remove index => do
    match ← (vec.remove element index).run with
    | .error kind => pure (.failed kind, some vec)
    | .ok (value, next) => pure (.taken value, some next)
  | pop =>
    match vec.pop with
    | none => pure (.nothing, some vec)
    | some (value, next) => pure (.taken value, some next)
  | tryPop =>
    match vec.tryPop with
    | .error kind => pure (.failed kind, some vec)
    | .ok (value, next) => pure (.taken value, some next)
  | tryGet index =>
    match vec.tryGet index with
    | .error kind => pure (.failed kind, some vec)
    | .ok value => pure (.shown value, some vec)
  | indexed index =>
    match vec.indexed index with
    | .error trap => pure (.trapped trap, some vec)
    | .ok value => pure (.shown value, some vec)
  | clear => do
    let next ← vec.clear element
    pure (.done, some next)
  | drop => do
    vec.drop element
    pure (.done, none)

/-- The values that are passed in, or built by the call. -/
def entering (reply : Reply α) : VecCall α β → List α
  | push value | insert _ value => [value]
  | emplace _ =>
    match reply with
    | .shown value => [value]
    | _ => []
  | _ => []

/-- The values that the call destroys. -/
def losing (vec : Vec α) (reply : Reply α) : VecCall α β → List α
  | push value | insert _ value =>
    match reply with
    | .failed _ => [value]
    | _ => []
  | clear | drop => vec.toList
  | _ => []

end VecCall

/-! ## What is destroyed -/

namespace Element

variable {α γ : Type}

def withDestroy (element : Element α) (destroy : α → Effect Unit) : Element α :=
  { element with destroy := destroy }

/-- Whatever the destructor is, the operation runs it on the listed values, once each and
in this order, and is the same otherwise. -/
def Destroys (element : Element α) (operation : Element α → Effect γ) (store : Store)
    (lost : List α) : Prop :=
  ∃ (result : γ) (middle : Store) (finish : Effect Unit), ∀ destroy,
    operation (element.withDestroy destroy) store =
      (result,
        ((do
          (element.withDestroy destroy).destroyAll lost
          finish : Effect Unit) middle).2)

theorem Destroys.none {element : Element α} {operation : Element α → Effect γ} {store : Store}
    (h : ∀ destroy, operation (element.withDestroy destroy) store = operation element store) :
    element.Destroys operation store [] := by
  refine ⟨(operation element store).1, (operation element store).2, pure (), ?_⟩
  intro destroy
  exact h destroy

end Element

namespace Vec

variable {α β : Type} (element : Element α) (destroy : α → Effect Unit)

theorem migrate_withDestroy (source target : Nat) (slots : Slots α) (count : Nat) :
    migrate (element.withDestroy destroy) source target slots count =
      migrate element source target slots count := by
  induction count with
  | zero => rfl
  | succ count ih =>
    unfold migrate
    rw [ih]
    rfl

theorem reserve_withDestroy (vec : Vec α) (capacity : Nat) :
    vec.reserve (element.withDestroy destroy) capacity = vec.reserve element capacity := by
  unfold reserve regrow move
  simp only [migrate_withDestroy]
  rfl

theorem growForOne_withDestroy (vec : Vec α) :
    vec.growForOne (element.withDestroy destroy) = vec.growForOne element := by
  unfold growForOne
  simp only [reserve_withDestroy]

theorem shiftUp_withDestroy (buffer index count : Nat) (slots : Slots α) :
    shiftUp (element.withDestroy destroy) buffer index count slots =
      shiftUp element buffer index count slots := by
  induction count generalizing slots with
  | zero => rfl
  | succ count ih =>
    unfold shiftUp
    simp only [ih]
    rfl

theorem shiftDown_withDestroy (buffer index count : Nat) (slots : Slots α) :
    shiftDown (element.withDestroy destroy) buffer index count slots =
      shiftDown element buffer index count slots := by
  induction count generalizing index slots with
  | zero => rfl
  | succ count ih =>
    unfold shiftDown
    simp only [ih]
    rfl

theorem openGap_withDestroy (vec : Vec α) (index : Nat) :
    vec.openGap (element.withDestroy destroy) index = vec.openGap element index := by
  unfold openGap
  simp only [shiftUp_withDestroy]
  rfl

theorem closeGap_withDestroy (vec : Vec α) (index : Nat) :
    vec.closeGap (element.withDestroy destroy) index = vec.closeGap element index := by
  unfold closeGap
  simp only [shiftDown_withDestroy]
  rfl

end Vec

namespace VecCall

variable {α β : Type} (element : Element α) (builder : Builder β α) (vec : Vec α)

theorem attempting_apply (attempt : Attempt (Vec α)) (store : Store) :
    attempting vec attempt store =
      match attempt store with
      | (.error kind, middle) => ((.failed kind, some vec), middle)
      | (.ok next, middle) => ((.done, some next), middle) := by
  unfold attempting
  simp only [ExceptT.run, Effect.bind_apply]
  rcases attempt store with ⟨answer, middle⟩
  cases answer with
  | error kind => rfl
  | ok next => rfl

theorem push_apply (value : α) (store : Store) :
    vec.push element value store =
      match vec.growForOne element store with
      | (.ok grown, middle) => (.ok (grown.append value), middle)
      | (.error kind, middle) => (.error kind, (element.destroy value middle).2) := by
  unfold Vec.push
  rw [Attempt.bind_apply, Attempt.undoing_apply]
  rcases vec.growForOne element store with ⟨answer, middle⟩
  cases answer with
  | error kind => rfl
  | ok grown => rfl

theorem insert_apply (index : Nat) (value : α) (store : Store) :
    vec.insert element index value store =
      if vec.length < index then (.error .outOfRange, (element.destroy value store).2)
      else
        match vec.growForOne element store with
        | (.ok grown, middle) =>
          (.ok { grown with
            length := grown.length + 1
            slots := (grown.openGap element index middle).1.write index value },
            (grown.openGap element index middle).2)
        | (.error kind, middle) => (.error kind, (element.destroy value middle).2) := by
  unfold Vec.insert
  split
  · rfl
  · rw [Attempt.bind_apply, Attempt.undoing_apply]
    rcases vec.growForOne element store with ⟨answer, middle⟩
    cases answer with
    | error kind => rfl
    | ok grown => rfl

/-- Only a call that fails to take a value in, and a call that gives up all elements,
destroys anything. -/
theorem act_destroys (call : VecCall α β) (store : Store) :
    element.Destroys (fun element => call.act element builder vec) store
      (call.losing vec (call.act element builder vec store).1.1) := by
  have hlayout : ∀ destroy,
      vec.bufferLayout? (element.withDestroy destroy) = vec.bufferLayout? element :=
    fun _ => rfl
  cases call with
  | create capacity? => exact .none fun _ => rfl
  | reserve capacity =>
    refine .none fun destroy => ?_
    simp only [act, Vec.reserve_withDestroy]
  | reserveAdditional additional =>
    refine .none fun destroy => ?_
    simp only [act, Vec.reserveAdditional, Vec.reserve_withDestroy]
  | push value =>
    simp only [Element.Destroys, act, attempting_apply, push_apply, Vec.growForOne_withDestroy]
    rcases vec.growForOne element store with ⟨answer, middle⟩
    cases answer with
    | error kind => exact ⟨_, middle, pure (), fun destroy => rfl⟩
    | ok grown => exact ⟨_, middle, pure (), fun destroy => rfl⟩
  | insert index value =>
    simp only [Element.Destroys, act, attempting_apply, insert_apply,
      Vec.growForOne_withDestroy, Vec.openGap_withDestroy]
    by_cases houtside : vec.length < index
    · simp only [houtside, if_true]
      exact ⟨_, store, pure (), fun destroy => rfl⟩
    · simp only [houtside, if_false]
      rcases vec.growForOne element store with ⟨answer, middle⟩
      cases answer with
      | error kind => exact ⟨_, middle, pure (), fun destroy => rfl⟩
      | ok grown =>
        exact ⟨_, (grown.openGap element index middle).2, pure (), fun destroy => rfl⟩
  | emplace args =>
    refine .none fun destroy => ?_
    simp only [act, Vec.emplace, Vec.growForOne_withDestroy]
  | remove index =>
    refine .none fun destroy => ?_
    simp only [act, Vec.remove, Vec.closeGap_withDestroy]
  | pop => exact .none fun _ => rfl
  | tryPop => exact .none fun _ => rfl
  | tryGet index => exact .none fun _ => rfl
  | indexed index => exact .none fun _ => rfl
  | clear =>
    simp only [Element.Destroys, act, Vec.clear, hlayout]
    cases vec.bufferLayout? element with
    | none => exact ⟨_, store, pure (), fun destroy => rfl⟩
    | some held =>
      by_cases hlarge : Vec.discardThreshold ≤ held.size
      · simp only [hlarge, if_true]
        exact ⟨_, store, Allocator.advise vec.buffer held.size .dontNeed, fun destroy => rfl⟩
      · simp only [hlarge, if_false]
        exact ⟨_, store, pure (), fun destroy => rfl⟩
  | drop =>
    simp only [Element.Destroys, act, Vec.drop, hlayout]
    cases vec.bufferLayout? element with
    | none => exact ⟨_, store, pure (), fun destroy => rfl⟩
    | some held =>
      exact ⟨_, store, Allocator.deallocate vec.buffer held, fun destroy => rfl⟩

end VecCall
end Freehold
