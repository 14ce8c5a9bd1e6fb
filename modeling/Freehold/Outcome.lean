import Freehold.ErrorKind

/-!
# What a step comes to

A step of a session is done, fails for a cause, trips a trap, or is refused by
the session before anything happens.  A step that is done has something to show,
in a form that does not depend on the types of the values behind it.
-/

namespace Freehold

inductive Shown where
  | nothing
  | number (value : Int)
  /-- A number that is written in full however large it is. -/
  | exact (value : Int)
  | flag (value : Bool)
  | text (value : String)
  | items (values : List Shown)
  | fields (named : List (String × Shown))

namespace Shown

def count (n : Nat) : Shown := number n

end Shown

/-- A violated precondition of a checked access.  The condition is empty when the
access traps without testing one. -/
structure Trap where
  condition : String := ""
  message : String
  deriving DecidableEq

namespace Trap

def text (trap : Trap) : String :=
  let condition := trap.condition
  let message := trap.message
  s!"[{condition}] {message}"

def report (trap : Trap) : String :=
  let condition := trap.condition
  let message := trap.message
  if condition = "" then s!"trap: {message}"
  else "check `" ++ condition ++ s!"` failed: {message}"

end Trap

inductive Objection where
  | noSuchStep
  | noSuchSlot
  | slotInUse
  | badLayout
  | badRegion
  | badSplit
  | noSuchHint
  | notAStack
  | notAFreeList
  | growingEmpty
  | notApplicable
  | wouldBlock
  deriving DecidableEq

namespace Objection

def message : Objection → String
  | noSuchStep => "no such step"
  | noSuchSlot => "no such slot"
  | slotInUse => "slot in use"
  | badLayout => "bad layout"
  | badRegion => "bad region"
  | badSplit => "bad split"
  | noSuchHint => "no such hint"
  | notAStack => "not a stack"
  | notAFreeList => "not a free list"
  | growingEmpty => "growing an empty stack block"
  | notApplicable => "not applicable"
  | wouldBlock => "would block"

end Objection

inductive Outcome where
  | done (shown : Shown)
  | failed (kind : ErrorKind)
  | trapped (trap : Trap)
  | refused (objection : Objection)

namespace Outcome

def ofExcept (render : α → Shown) : Except ErrorKind α → Outcome
  | .ok value => done (render value)
  | .error kind => failed kind

/-- The word for the kind of the outcome, and what there is to show of it. -/
def answer : Outcome → String × Shown
  | done shown => ("ok", shown)
  | failed kind => ("err", .text kind.name)
  | trapped trap => ("trap", .text trap.message)
  | refused objection => ("bad", .text objection.message)

def ofCheck (render : α → Shown) : Except Trap α → Outcome
  | .ok value => done (render value)
  | .error trap => trapped trap

end Outcome
end Freehold
