import Freehold.Session.Values

/-!
# Sessions with construction and copying

Values of one type are kept under names outside of any container.  They are
built and copied through both entry points: as results that are put in their
place by hand, and directly in their place.
-/

namespace Freehold

inductive ConstructAction (β : Type) where
  | produce (args : β)
  | constructAt (args : β)
  | clone (other : String)
  | cloneAt (other : String)
  | get
  | drop
  | unknown

structure ConstructStep (β : Type) where
  slot : String
  action : ConstructAction β

namespace ConstructSession

variable (nest : Nest)

abbrev Values : Type := Shelf nest.Carrier

/-- Puts the result of an attempt in its place by hand. -/
def settled (slot : String) (attempt : Attempt nest.Carrier) : Attempt nest.Carrier := do
  let value ← attempt
  pure (nest.element.settle (.own slot) value)

def step (step : ConstructStep nest.Args) (values : Values nest) :
    Effect (Outcome × Values nest) :=
  match step.action with
  | .produce args =>
    values.keepNew step.slot (settled nest step.slot (nest.builder.produce args))
  | .constructAt args =>
    values.keepNew step.slot (nest.builder.constructAt (.own step.slot) args)
  | .clone other =>
    values.withEntry step.slot fun value =>
      values.keepNew other (settled nest other (nest.copier.clone value))
  | .cloneAt other =>
    values.withEntry step.slot fun value =>
      values.keepNew other (nest.copier.cloneAt (.own other) value)
  | .get =>
    values.withEntry step.slot fun value =>
      pure (.done (nest.display.shown (.own step.slot) value), values)
  | .drop =>
    values.withEntry step.slot fun value => do
      nest.element.destroy value
      pure (.done .nothing, values.remove step.slot)
  | .unknown => pure (.refused .noSuchStep, values)

def session : Session (ConstructStep nest.Args) (Values nest) where
  step := step nest
  notes _ _ := []
  finish values := values.values.forM nest.element.destroy

def report (setup : Setup) (steps : List (ConstructStep nest.Args)) : Shown :=
  (session nest).reports setup {} steps (Report.full setup.provision.arena)

end ConstructSession
end Freehold
