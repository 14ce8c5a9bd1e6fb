import Freehold.Outcome
import Freehold.Store

/-!
# Elements

Containers are written once for all types of element.  What a container has to
know of a type is a record of a few operations: how much room a value takes, how
it is moved and how it is destroyed; and, where an operation needs them, how a
value is built from arguments, copied, and shown.

A type is *bitwise* when moving the bytes of a value moves the value.  All other
types are moved one value at a time by a relocation of their own, and each such
relocation is put on record.
-/

namespace Freehold

structure Movable (α : Type) where
  bitwise : Bool
  /-- Moves a value from one spot to another. -/
  relocate : Spot → Spot → α → Effect α
  destroy : α → Effect Unit
  /-- The value once its user has put it at a spot by hand. -/
  settle : Spot → α → α

structure Element (α : Type) extends Movable α where
  layout : Layout

namespace Movable

def relocateRecorded (type : Movable α) (source target : Spot) (value : α) : Effect α := do
  Effect.record (.relocation source target)
  type.relocate source target value

/-- Moves a value as containers do. -/
def carry (type : Movable α) (source target : Spot) (value : α) : Effect α :=
  if type.bitwise then pure value else type.relocateRecorded source target value

def destroyAll (type : Movable α) : List α → Effect Unit
  | [] => pure ()
  | value :: rest => do
    type.destroy value
    type.destroyAll rest

end Movable

/-- Builds values from arguments, to be returned or in the place where they stay. -/
structure Builder (β α : Type) where
  produce : β → Attempt α
  constructAt : Spot → β → Attempt α

/-- Makes deep copies, to be returned or in the place where they stay. -/
structure Copier (α : Type) where
  clone : α → Attempt α
  cloneAt : Spot → α → Attempt α

structure Display (α : Type) where
  shown : Spot → α → Shown
  text : α → String

/-- Builds a shell that does nothing yet and completes it where it stays.  The
completion leaves the value in the state it has reached, also when it fails. -/
structure Phases (α : Type) where
  shell : Effect α
  init : Spot → α → Effect (Except ErrorKind Unit × α)

/-- Builds a shell and completes it at the spot; a shell that cannot be completed is
destroyed. -/
def Phases.run (type : Movable α) (phases : Phases α) (spot : Spot) : Attempt α :=
  ExceptT.mk do
    let shell ← phases.shell
    match ← phases.init spot shell with
    | (.ok (), value) => pure (.ok value)
    | (.error kind, value) => do
      type.destroy value
      pure (.error kind)

inductive Construction (β α : Type) where
  | inPlace (phases : β → Phases α)
  | withAllocator (allocate : β → Attempt α)
  | factory (create : β → Attempt α)
  | plain (convert : β → Effect α)

namespace Construction

def produce (type : Movable α) : Construction β α → β → Attempt α
  | inPlace phases, args => (phases args).run type .passing
  | withAllocator allocate, args => allocate args
  | factory create, args => create args
  | plain convert, args => ExceptT.lift (convert args)

def constructAt (type : Movable α) (construction : Construction β α) (spot : Spot)
    (args : β) : Attempt α :=
  match construction with
  | inPlace phases => (phases args).run type spot
  | _ => construction.produce type args

def builder (construction : Construction β α) (type : Movable α) : Builder β α where
  produce := construction.produce type
  constructAt := construction.constructAt type

end Construction

inductive Cloning (α : Type) where
  | inAllocator (clone : α → Attempt α)
  | self (clone : α → Attempt α)
  | atPlace (cloneAt : Spot → α → Attempt α)
  | allocateFrom (allocate : α → Attempt α)
  | createFrom (create : α → Attempt α)
  | copy (duplicate : α → Effect α)

namespace Cloning

def clone : Cloning α → α → Attempt α
  | inAllocator clone, source | self clone, source => clone source
  | atPlace cloneAt, source => cloneAt .passing source
  | allocateFrom allocate, source => allocate source
  | createFrom create, source => create source
  | copy duplicate, source => ExceptT.lift (duplicate source)

def cloneAt (cloning : Cloning α) (spot : Spot) (source : α) : Attempt α :=
  match cloning with
  | atPlace cloneAt => cloneAt spot source
  | _ => cloning.clone source

def copier (cloning : Cloning α) : Copier α where
  clone := cloning.clone
  cloneAt := cloning.cloneAt

end Cloning
end Freehold
