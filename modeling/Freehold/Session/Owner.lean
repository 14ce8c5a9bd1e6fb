import Freehold.Session.Values

/-!
# Sessions with unique owners

Unique owners of values of one type are kept under names.
-/

namespace Freehold

inductive OwnerAction (β : Type) where
  | new (args : β)
  | construct (args : β)
  | clone (other : String)
  | get
  | set (args : β)
  | debug
  | whereabouts
  /-- Whether the owner still draws from the allocator that it was given. -/
  | allocator
  /-- Gives the parts of the owner out of hand and takes them back. -/
  | roundTrip
  | intoInner
  | nest
  | drop
  | unknown

structure OwnerStep (β : Type) where
  slot : String
  action : OwnerAction β

namespace OwnerSession

variable (nest : Nest) (arena : Option Span)

abbrev Owners : Type := Shelf (Unique nest.Carrier)

def shown (owner : Unique nest.Carrier) : Shown := (Nest.unique nest).display.shown .passing owner

/-- Moves the owner into a block of its own, copies the result, shows both, and
destroys the copy before the first. -/
def nestAndCopy (owner : Unique nest.Carrier) : Attempt Shown := do
  let handle := (Nest.unique nest).element
  let outer ← Unique.new handle owner
  let copy ← Attempt.undoing ((Nest.unique (.unique nest)).copier.clone outer)
    (outer.drop handle)
  let display := (Nest.unique (.unique nest)).display
  let told := Shown.items [display.shown .passing outer, display.shown .passing copy]
  Unique.drop handle copy
  outer.drop handle
  pure told

def act (owners : Owners nest) (slot : String) (owner : Unique nest.Carrier) :
    OwnerAction nest.Args → Effect (Outcome × Owners nest)
  | .new _ | .construct _ => pure (.refused .slotInUse, owners)
  | .clone other => owners.keepNew other ((Nest.unique nest).copier.clone owner)
  | .get | .roundTrip => pure (.done (shown nest owner), owners)
  | .set args => do
    match ← (nest.make args).run with
    | .error kind => pure (.failed kind, owners)
    | .ok value => do
      nest.element.destroy owner.value
      let changed : Unique nest.Carrier := { owner with value := value }
      pure (.done .nothing, owners.put slot (changed.settled nest.element))
  | .debug => pure (.done (.text ((Nest.unique nest).display.text owner)), owners)
  | .whereabouts =>
    let place := Whereabouts.locate arena owner.address nest.element.layout.size
    pure (.done place.shown, owners)
  | .allocator => pure (.done (.flag true), owners)
  | .intoInner => do
    let value ← owner.intoInner nest.element
    let shown ← nest.letGo value
    pure (.done shown, owners.remove slot)
  | .nest => do
    match ← (nestAndCopy nest owner).run with
    | .error kind => pure (.failed kind, owners.remove slot)
    | .ok told => pure (.done told, owners.remove slot)
  | .drop => do
    owner.drop nest.element
    pure (.done .nothing, owners.remove slot)
  | .unknown => pure (.refused .noSuchStep, owners)

def step (step : OwnerStep nest.Args) (owners : Owners nest) :
    Effect (Outcome × Owners nest) :=
  match step.action with
  | .unknown => pure (.refused .noSuchStep, owners)
  | .new args =>
    owners.keepNew step.slot do
      let value ← nest.make args
      let owner ← Unique.new nest.element value
      pure (owner.settled nest.element)
  | .construct args =>
    owners.keepNew step.slot (Unique.construct nest.element nest.builder args)
  | action => owners.withEntry step.slot fun owner => act nest arena owners step.slot owner action

def session : Session (OwnerStep nest.Args) (Owners nest) where
  step := step nest arena
  notes _ _ := []
  finish owners := owners.values.forM fun owner => owner.drop nest.element

def report (setup : Setup) (steps : List (OwnerStep nest.Args)) : Shown :=
  let arena := setup.provision.arena
  (session nest arena).reports setup {} steps (Report.full arena)

end OwnerSession
end Freehold
