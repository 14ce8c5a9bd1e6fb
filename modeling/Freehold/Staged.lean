import Freehold.Outcome
import Freehold.Unique

/-!
# Values completed in two phases

A wrapper holds one value once it has been completed: a shell is built, an
initializer completes it, and when the initializer fails the shell is destroyed
and the wrapper is as it was.  The value is kept inside the wrapper, next to a flag
that says whether it is there, or in a block of its own.  A static wrapper, which is
meant to live forever, never destroys its value.
-/

namespace Freehold

inductive Storage where
  | inline
  | heap
  | static
  deriving DecidableEq

/-- Storage inside a wrapper, and the flag that says whether a completed value is in it.
Access tests the flag alone and then takes what the storage holds. -/
structure Cell (α : Type) where
  content : Option α := none
  initialized : Bool := false

namespace Cell

variable {α : Type}

def init (type : Movable α) (phases : Phases α) (spot : Spot) (cell : Cell α) :
    Attempt (Cell α) :=
  if cell.initialized then pure cell
  else do
    let value ← phases.run type spot
    let cell := { cell with content := some value }
    pure { cell with initialized := true }

/-- The flag goes first, so that nothing is in the cell any more when the value is
destroyed. -/
def clear (destroy : α → Effect Unit) (cell : Cell α) : Effect (Cell α) :=
  if cell.initialized then do
    let cell := { cell with initialized := false }
    cell.content.forM destroy
    pure { cell with content := none }
  else pure cell

def take (cell : Cell α) : Option α × Cell α :=
  if cell.initialized then
    let cell := { cell with initialized := false }
    (cell.content, { cell with content := none })
  else (none, cell)

/-- Moves the value of another cell into this one, whose own value is destroyed first. -/
def takeFrom (destroy : α → Effect Unit) (target source : Cell α) :
    Effect (Cell α × Cell α) := do
  let cleared ← target.clear destroy
  match source.take with
  | (none, source) => pure (cleared, source)
  | (some value, source) =>
    let filled := { cleared with content := some value }
    pure ({ filled with initialized := true }, source)

def modify (change : α → α) (cell : Cell α) : Cell α :=
  { cell with content := cell.content.map change }

end Cell

inductive Staged (α : Type) where
  | inline (cell : Cell α)
  | heap (owner : Option (Unique α))
  | static (cell : Cell α)

namespace Staged

variable {α : Type}

def empty : Storage → Staged α
  | .inline => inline {}
  | .heap => heap none
  | .static => static {}

/-- What the storage holds, whether or not it may be accessed. -/
def content : Staged α → Option α
  | inline cell | static cell => cell.content
  | heap owner => owner.map Unique.value

def initialized : Staged α → Bool
  | inline cell | static cell => cell.initialized
  | heap owner => owner.isSome

def label : Staged α → String
  | inline _ => "FallibleConstructed"
  | heap _ => "FallibleAllocated"
  | static _ => "StaticFallibleConstructed"

/-- Completes the value of a wrapper at the given spot, unless there is one. -/
def init (element : Element α) (phases : Phases α) (spot : Spot) :
    Staged α → Attempt (Staged α)
  | inline cell => do
    let cell ← cell.init element.toMovable phases spot
    pure (inline cell)
  | heap (some owner) => pure (heap (some owner))
  | heap none => do
    let owner ← Unique.place element (phases.run element.toMovable)
    pure (heap (some owner))
  | static cell => do
    let cell ← cell.init element.toMovable phases spot
    pure (static cell)

def premature (wrapper : Staged α) (condition : String) : Trap :=
  { condition := condition
    message := "accessing " ++ wrapper.label ++ " before try_init" }

/-- What reading access tests; a value on the heap is looked up without a test. -/
def readingCondition : Staged α → String
  | heap _ => ""
  | _ => "self.initialized"

def writingCondition : Staged α → String
  | heap _ => "self.ptr.is_some()"
  | _ => "self.initialized"

def get (wrapper : Staged α) : Except Trap (Option α) :=
  if wrapper.initialized then .ok wrapper.content
  else .error (wrapper.premature wrapper.readingCondition)

def tryGet (wrapper : Staged α) : Except ErrorKind (Option α) :=
  if wrapper.initialized then .ok wrapper.content else .error .notInitialized

def modify (change : α → α) : Staged α → Staged α
  | inline cell => inline (cell.modify change)
  | heap owner => heap (owner.map fun owner => { owner with value := change owner.value })
  | static cell => static (cell.modify change)

def update (change : α → α) (wrapper : Staged α) : Except Trap (Staged α) :=
  if wrapper.initialized then .ok (wrapper.modify change)
  else .error (wrapper.premature wrapper.writingCondition)

def tryUpdate (change : α → α) (wrapper : Staged α) : Except ErrorKind (Staged α) :=
  if wrapper.initialized then .ok (wrapper.modify change) else .error .notInitialized

/-- Destroys the value, if there is one; a static wrapper keeps it. -/
def clear (element : Element α) : Staged α → Effect (Staged α)
  | inline cell => do
    let cell ← cell.clear element.destroy
    pure (inline cell)
  | heap none => pure (heap none)
  | heap (some owner) => do
    owner.drop element
    pure (heap none)
  | static cell => pure (static cell)

def drop (element : Element α) (wrapper : Staged α) : Effect Unit := do
  let _ ← wrapper.clear element
  pure ()

/-- Only values inside the wrapper can be moved out of it. -/
def take : Staged α → Option α × Staged α
  | inline cell => (cell.take.1, inline cell.take.2)
  | other => (none, other)

def text (print : α → String) (wrapper : Staged α) : String :=
  let content :=
    if wrapper.initialized then (wrapper.content.map print).getD "" else "<uninitialized>"
  wrapper.label ++ "(" ++ content ++ ")"

end Staged
end Freehold
