import Freehold.Session.Values

/-!
# Sessions with vectors

Vectors of one type of element are kept under names.  The elements that a step
puts in by hand are settled in their slots afterwards, and the elements that it
takes out are shown and destroyed.
-/

namespace Freehold

inductive VecAction (β : Type) where
  | new
  | withCapacity (capacity : Nat)
  | clone (other : String)
  | drop
  | reserve (capacity : Nat)
  | reserveAdditional (additional : Nat)
  | push (args : β)
  | pushMany (args : β) (count : Nat)
  | emplace (args : β)
  | insert (index : Nat) (args : β)
  | remove (index : Nat)
  | pop
  | tryPop
  | at (index : Nat)
  | set (index : Nat) (args : β)
  | index (index : Nat)
  | indexSet (index : Nat) (args : β)
  | items
  | reverse
  | first
  | clear
  | isEmpty
  | debug
  | unknown

structure VecStep (β : Type) where
  slot : String
  action : VecAction β

namespace VecSession

variable (nest : Nest)

abbrev Vecs : Type := Shelf (Vec nest.Carrier)

/-- The vector under a name changes if the attempt succeeds. -/
def changing (vecs : Vecs nest) (slot : String) (vec : Vec nest.Carrier)
    (attempt : Attempt (Vec nest.Carrier)) : Effect (Outcome × Vecs nest) := do
  match ← attempt.run with
  | .ok vec => pure (.done .nothing, vecs.put slot vec)
  | .error kind => pure (.failed kind, vecs.put slot vec)

def pushMade (vec : Vec nest.Carrier) (args : nest.Args) : Attempt (Vec nest.Carrier) := do
  let value ← nest.make args
  let grown ← vec.push nest.element value
  pure (grown.settleAt nest.element vec.length)

/-- Pushes values that follow each other until one of them fails. -/
def pushMany (args : nest.Args) (done : Nat) :
    Nat → Vec nest.Carrier → Effect (Shown × Vec nest.Carrier)
  | 0, vec => pure (.count done, vec)
  | count + 1, vec => do
    match ← (pushMade nest vec (nest.advance args done)).run with
    | .error kind => pure (.items [.count done, .text kind.name], vec)
    | .ok vec => pushMany args (done + 1) count vec

def shownAt (vec : Vec nest.Carrier) (index : Nat) (value : nest.Carrier) : Shown :=
  nest.display.shown (.slot vec.buffer index) value

def items (vec : Vec nest.Carrier) : Shown :=
  .items (vec.toList.mapIdx (shownAt nest vec))

/-- Replaces an element by a value that is made by hand; where there is no element
the value is destroyed and the outcome is the given one. -/
def replacing (vecs : Vecs nest) (slot : String) (vec : Vec nest.Carrier) (index : Nat)
    (args : nest.Args) (missing : Outcome) (tell : Shown → Shown) :
    Effect (Outcome × Vecs nest) := do
  match ← (nest.make args).run with
  | .error kind => pure (.failed kind, vecs)
  | .ok value =>
    match vec.replace? index value with
    | none => do
      nest.element.destroy value
      pure (missing, vecs)
    | some (old, changed) => do
      let shown ← nest.letGo old
      pure (.done (tell shown), vecs.put slot (changed.settleAt nest.element index))

def takenOut (vecs : Vecs nest) (slot : String) (taken : nest.Carrier × Vec nest.Carrier) :
    Effect (Outcome × Vecs nest) := do
  let shown ← nest.letGo taken.1
  pure (.done shown, vecs.put slot taken.2)

def act (vecs : Vecs nest) (slot : String) (vec : Vec nest.Carrier) :
    VecAction nest.Args → Effect (Outcome × Vecs nest)
  | .new | .withCapacity _ => pure (.refused .slotInUse, vecs)
  | .clone other => vecs.keepNew other ((Nest.vec nest).copier.clone vec)
  | .drop => do
    vec.drop nest.element
    pure (.done .nothing, vecs.remove slot)
  | .reserve capacity => changing nest vecs slot vec (vec.reserve nest.element capacity)
  | .reserveAdditional additional =>
    changing nest vecs slot vec (vec.reserveAdditional nest.element additional)
  | .push args => changing nest vecs slot vec (pushMade nest vec args)
  | .pushMany args count => do
    let (shown, vec) ← pushMany nest args 0 count vec
    pure (.done shown, vecs.put slot vec)
  | .emplace args => do
    match ← vec.emplace nest.element nest.builder args with
    | (.error kind, vec) => pure (.failed kind, vecs.put slot vec)
    | (.ok (), grown) =>
      let shown := (grown.get? vec.length).map (shownAt nest grown vec.length)
      pure (.done (shown.getD .nothing), vecs.put slot grown)
  | .insert index args =>
    changing nest vecs slot vec do
      let value ← nest.make args
      let grown ← vec.insert nest.element index value
      pure (grown.settleAt nest.element index)
  | .remove index => do
    match ← (vec.remove nest.element index).run with
    | .error kind => pure (.failed kind, vecs)
    | .ok taken => takenOut nest vecs slot taken
  | .pop =>
    match vec.pop with
    | none => pure (.done .nothing, vecs)
    | some taken => takenOut nest vecs slot taken
  | .tryPop =>
    match vec.tryPop with
    | .error kind => pure (.failed kind, vecs)
    | .ok taken => takenOut nest vecs slot taken
  | .at index =>
    pure (.ofExcept (shownAt nest vec index) (vec.tryGet index), vecs)
  | .set index args =>
    replacing nest vecs slot vec index args (.failed .outOfBounds) id
  | .index index =>
    pure (.ofCheck (shownAt nest vec index) (vec.indexed index), vecs)
  | .indexSet index args =>
    replacing nest vecs slot vec index args (.trapped (Vec.outOfBounds vec.length index))
      (fun _ => .nothing)
  | .items => pure (.done (items nest vec), vecs)
  | .reverse =>
    pure (.done .nothing, vecs.put slot (vec.reverse.settleAll nest.element))
  | .first =>
    pure (.done ((vec.toList.head?.map (shownAt nest vec 0)).getD .nothing), vecs)
  | .clear => do
    let cleared ← vec.clear nest.element
    pure (.done .nothing, vecs.put slot cleared)
  | .isEmpty => pure (.done (.flag (vec.length == 0)), vecs)
  | .debug => pure (.done (.text ((Nest.vec nest).display.text vec)), vecs)
  | .unknown => pure (.refused .noSuchStep, vecs)

def step (step : VecStep nest.Args) (vecs : Vecs nest) : Effect (Outcome × Vecs nest) :=
  match step.action with
  | .unknown => pure (.refused .noSuchStep, vecs)
  | .new => vecs.keepNew step.slot (pure (Vec.empty nest.element))
  | .withCapacity capacity =>
    vecs.keepNew step.slot ((Vec.empty nest.element).reserve nest.element capacity)
  | action => vecs.withEntry step.slot fun vec => act nest vecs step.slot vec action

def notes (step : VecStep nest.Args) (vecs : Vecs nest) : List (String × Shown) :=
  match vecs.find? step.slot with
  | none => []
  | some vec => [("len", .count vec.length), ("cap", .count vec.capacity)]

def session : Session (VecStep nest.Args) (Vecs nest) where
  step := step nest
  notes := notes nest
  finish vecs := vecs.values.forM fun vec => vec.drop nest.element

def report (setup : Setup) (steps : List (VecStep nest.Args)) : Shown :=
  (session nest).reports setup {} steps (Report.full setup.provision.arena)

end VecSession
end Freehold
