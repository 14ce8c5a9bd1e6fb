import Freehold.Element.Basic
import Freehold.Roster

/-!
# Intrusive counting

A counted value carries its own reference count, and with it the layout of the
block that a factory has put it in.  Handles are numbers on a roster of counted
values.  When the last handle of a value goes, the value first loses its owner,
so that no handle can be made from it any more; then it is destroyed, and its
block is given back with the layout it was taken with.

The block of a value may be larger than the value; the bytes after it belong to
its handles.

A count is the number of handles that exist, and each of them takes up a word of
memory at least.  The limit of half of the address range, past which a program is
stopped, is out of their reach, and acquiring has no branch for it.  Handles that
are forgotten without being given up could reach it, and have no counterpart here.
-/

namespace Freehold

structure RefCount where
  count : Nat := 0
  /-- The layout of the block, while a factory's block is held. -/
  owner : Option Layout := none
  deriving DecidableEq

namespace RefCount

def hasOwner (refs : RefCount) : Bool := refs.owner.isSome

/-- A copied value starts with a count of its own. -/
def clone (_ : RefCount) : RefCount := {}

def text (refs : RefCount) : String :=
  let count := toString refs.count
  let layout :=
    match refs.owner with
    | none => "None"
    | some layout => "Some(" ++ layout.text ++ ")"
  s!"RefCount \x7b count: {count}, layout: {layout} \x7d"

def abandoned (refs : RefCount) : RefCount :=
  { count := refs.count - 1, owner := none }

def acquire (refs : RefCount) : Except ErrorKind RefCount :=
  if refs.hasOwner then .ok { refs with count := refs.count + 1 } else .error .noOwner

end RefCount

/-- A type whose values carry a count; the destructor sees the count. -/
structure CountedType (α : Type) where
  layout : Layout
  destroy : RefCount → α → Effect Unit

structure Counted (α : Type) where
  address : Nat
  refs : RefCount
  value : α

/-- The counted values of a run; a handle is the number of one of them. -/
abbrev CountedValues (α : Type) : Type := Roster (Counted α)

namespace CountedValues

variable {α β : Type}

def adopt (values : CountedValues α) (address : Nat) (layout : Layout) (value : α) :
    Nat × CountedValues α :=
  values.enroll
    { address := address, refs := { count := 1, owner := some layout }, value := value }

/-- A value of which nobody has a handle is destroyed by its user. -/
def discard (type : CountedType α) (value : α) : Effect Unit := type.destroy {} value

/-- Moves a value into a block of at least `total` bytes. -/
def newDynamic (type : CountedType α) (values : CountedValues α) (value : α) (total : Nat) :
    Attempt (Nat × CountedValues α) :=
  Attempt.undoing
    (match Layout.of? (max type.layout.size total) type.layout.align with
    | none => throw .integerOverflow
    | some layout => do
      let block ← Allocator.allocate layout
      pure (values.adopt block.address layout value))
    (discard type value)

def new (type : CountedType α) (values : CountedValues α) (value : α) :
    Attempt (Nat × CountedValues α) :=
  values.newDynamic type value 0

def construct (type : CountedType α) (values : CountedValues α) (build : Spot → Attempt α)
    (unused : Effect Unit := pure ()) : Attempt (Nat × CountedValues α) := do
  let block ← Attempt.undoing (Allocator.allocate type.layout) unused
  let value ←
    Attempt.undoing (build (.block block.address))
      (Allocator.deallocate block.address type.layout)
  pure (values.adopt block.address type.layout value)

def clone (values : CountedValues α) (handle : Nat) : CountedValues α :=
  match values.find? handle with
  | none => values
  | some counted =>
    values.set handle
      { counted with refs := { counted.refs with count := counted.refs.count + 1 } }

def fromRef (values : CountedValues α) (handle : Nat) : Except ErrorKind (CountedValues α) :=
  match values.find? handle with
  | none => .error .noOwner
  | some counted =>
    match counted.refs.acquire with
    | .error kind => .error kind
    | .ok refs => .ok (values.set handle { counted with refs := refs })

/-- Gives up a handle.  The last one takes the value and its block with it. -/
def drop (type : CountedType α) (values : CountedValues α) (handle : Nat) :
    Effect (CountedValues α) :=
  match values.find? handle with
  | none => pure values
  | some counted =>
    if counted.refs.count ≠ 1 then
      pure (values.set handle
        { counted with refs := { counted.refs with count := counted.refs.count - 1 } })
    else do
      type.destroy counted.refs.abandoned counted.value
      match counted.refs.owner with
      | none => pure ()
      | some layout => Allocator.deallocate counted.address layout
      pure (values.dismiss handle)

end CountedValues

namespace Counted

/-- The bytes after the value in its block. -/
def trailing (type : CountedType α) (counted : Counted α) : Span :=
  let total := (counted.refs.owner.map Layout.size).getD 0
  ⟨counted.address + type.layout.size, total - type.layout.size⟩

end Counted
end Freehold
