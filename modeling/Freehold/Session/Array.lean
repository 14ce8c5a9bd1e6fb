import Freehold.FixedArray
import Freehold.Session.Values

/-!
# Sessions with placed objects and arrays

Single objects, each in a block of its own, and arrays of fixed length are kept
under names.
-/

namespace Freehold

inductive ArrayAction (β : Type) where
  | allocate (args : β)
  | clone (other : String)
  | get
  | drop
  | array (count : Nat) (args : β)
  | dismantle
  | length
  | at (index : Nat)
  | index (index : Nat)
  | unchecked (index : Nat)
  | set (index : Nat) (args : β)
  | indexSet (index : Nat) (args : β)
  | items
  | debug
  | unknown

structure ArrayStep (β : Type) where
  slot : String
  action : ArrayAction β

inductive Placed (α : Type) where
  | single (owner : Unique α)
  | array (array : FixedArray α)

namespace Placed

def drop (element : Element α) : Placed α → Effect Unit
  | single owner => owner.drop element
  | array values => values.drop element

end Placed

namespace ArraySession

variable (nest : Nest)

abbrev Holdings : Type := Shelf (Placed nest.Carrier)

def shownAt (array : FixedArray nest.Carrier) (index : Nat) (value : nest.Carrier) : Shown :=
  nest.display.shown (.slot array.address index) value

/-- Shows an element, or tells the given outcome where there is none. -/
def look (array : FixedArray nest.Carrier) (index : Nat) (missing : Outcome) : Outcome :=
  match array.get? index with
  | none => missing
  | some value => .done (shownAt nest array index value)

def replacing (holdings : Holdings nest) (slot : String) (array : FixedArray nest.Carrier)
    (index : Nat) (args : nest.Args) (missing : Outcome) :
    Effect (Outcome × Holdings nest) := do
  match ← (nest.make args).run with
  | .error kind => pure (.failed kind, holdings)
  | .ok value =>
    match array.replace? index value with
    | none => do
      nest.element.destroy value
      pure (missing, holdings)
    | some (old, changed) => do
      nest.element.destroy old
      pure (.done .nothing, holdings.put slot (.array (changed.settleAll nest.element)))

def actSingle (holdings : Holdings nest) (slot : String) (owner : Unique nest.Carrier) :
    ArrayAction nest.Args → Effect (Outcome × Holdings nest)
  | .clone other =>
    holdings.keepNew other (.single <$> owner.clone nest.element nest.copier)
  | .get => pure (.done (nest.display.shown owner.spot owner.value), holdings)
  | .drop => do
    owner.drop nest.element
    pure (.done .nothing, holdings.remove slot)
  | _ => pure (.refused .notApplicable, holdings)

def actArray (holdings : Holdings nest) (slot : String) (array : FixedArray nest.Carrier) :
    ArrayAction nest.Args → Effect (Outcome × Holdings nest)
  | .drop => do
    array.drop nest.element
    pure (.done .nothing, holdings.remove slot)
  | .dismantle => do
    array.dismantle nest.element
    pure (.done (.count array.length), holdings.remove slot)
  | .length =>
    pure (.done (.items [.count array.length, .flag (array.length == 0)]), holdings)
  | .at index => pure (look nest array index (.failed .outOfBounds), holdings)
  | .index index => pure (look nest array index (.trapped (array.outOfBounds index)), holdings)
  | .unchecked index => pure (look nest array index (.refused .notApplicable), holdings)
  | .set index args => replacing nest holdings slot array index args (.failed .outOfBounds)
  | .indexSet index args =>
    replacing nest holdings slot array index args (.trapped (array.outOfBounds index))
  | .items => pure (.done (.items (array.values.mapIdx (shownAt nest array))), holdings)
  | .debug =>
    pure (.done (.text (Nest.listed (array.values.map nest.display.text))), holdings)
  | _ => pure (.refused .notApplicable, holdings)

def step (step : ArrayStep nest.Args) (holdings : Holdings nest) :
    Effect (Outcome × Holdings nest) :=
  match step.action with
  | .unknown => pure (.refused .noSuchStep, holdings)
  | .allocate args =>
    holdings.keepNew step.slot (.single <$> Unique.construct nest.element nest.builder args)
  | .array count args =>
    holdings.keepNew step.slot
      (.array <$> FixedArray.construct nest.element nest.builder count args)
  | action =>
    holdings.withEntry step.slot fun
      | .single owner => actSingle nest holdings step.slot owner action
      | .array array => actArray nest holdings step.slot array action

def session : Session (ArrayStep nest.Args) (Holdings nest) where
  step := step nest
  notes _ _ := []
  finish holdings := holdings.values.forM (Placed.drop nest.element)

def report (setup : Setup) (steps : List (ArrayStep nest.Args)) : Shown :=
  (session nest).reports setup {} steps (Report.full setup.provision.arena)

end ArraySession
end Freehold
