import Freehold.Element.Nest
import Freehold.Session.Report

/-!
# Values in the hands of a session

What the sessions with containers have in common: the values that a step makes by
hand, the values that it takes out and lets go, and the slots under which whole
containers are kept.
-/

namespace Freehold

namespace Nest

/-- The arguments for a value that is told nothing about. -/
def blankArgs : (nest : Nest) → nest.Args
  | leaf type => type.kind.blank
  | vec _ => []
  | unique inner => inner.blankArgs

/-- Arguments that are further on by a number, where they are numbers. -/
def advance : (nest : Nest) → nest.Args → Nat → nest.Args
  | leaf type, (datum : Datum), count => type.kind.advance datum count
  | vec _, args, _ => args
  | unique inner, (args : inner.Args), count => inner.advance args count

/-- Shows a value that has been taken out, as its user has settled it, and destroys
it. -/
def letGo (nest : Nest) (value : nest.Carrier) : Effect Shown := do
  nest.element.destroy value
  pure (nest.display.shown .passing (nest.element.settle .passing value))

end Nest

namespace Shelf

def withEntry (shelf : Shelf α) (name : String) (use : α → Effect (Outcome × Shelf α)) :
    Effect (Outcome × Shelf α) :=
  match shelf.find? name with
  | none => pure (.refused .noSuchSlot, shelf)
  | some value => use value

def keepMade (shelf : Shelf α) (name : String) (attempt : Attempt α) :
    Effect (Outcome × Shelf α) := do
  match ← attempt.run with
  | .ok value => pure (.done .nothing, shelf.put name value)
  | .error kind => pure (.failed kind, shelf)

def keepNew (shelf : Shelf α) (name : String) (attempt : Attempt α) :
    Effect (Outcome × Shelf α) :=
  if shelf.holds name then pure (.refused .slotInUse, shelf)
  else shelf.keepMade name attempt

end Shelf
end Freehold
