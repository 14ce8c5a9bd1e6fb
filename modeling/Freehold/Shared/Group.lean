import Freehold.Element.Basic
import Freehold.Roster
import Freehold.Shared.Counts

/-!
# Groups of shared ownership

A group owns one value.  The value has a block of its own beside the control
block, or both lie in one block.  A value may hold a weak handle of its own group,
by which it finds its owners; only a factory can link it so.

When the last shared handle goes, the value is destroyed while the shared handles
still hold their weak reference.  A weak handle inside the value goes with it and
therefore never takes the control block away.  A value in a block of its own is
freed next, and only then do the shared handles give up their reference.
-/

namespace Freehold

/-- A type whose values can be owned by a group.  The destructor sees the counts of
the group. -/
structure SharedType (α : Type) where
  destroy : Counts → α → Effect Unit
  linked : α → Bool
  link : α → α

structure Group (α : Type) where
  block : Nat
  blockLayout : Layout
  place : Nat
  /-- The layout of the block of the value, if it has one of its own. -/
  own : Option Layout
  counts : Counts := Counts.first
  value : Option α

/-- The factory by which a group is founded. -/
structure Founding where
  /-- Whether the value is built in place, or made beforehand. -/
  constructed : Bool := false
  combined : Bool := false
  linked : Bool := false

abbrev Groups (α : Type) : Type := Roster (Group α)

namespace Groups

variable {α : Type}

def controlLayout : Layout := ⟨48, 8⟩

/-- The bytes of a combined block before its value. -/
def headerSize : Nat := 40

/-- Where the value starts in a combined block. -/
def valueOffset (layout : Layout) : Nat := Word.roundUp headerSize layout.align

def combinedLayout (layout : Layout) : Layout :=
  Layout.padded (valueOffset layout + layout.size) (max 8 layout.align)

/-- A new group whose value has a block of its own.  What is not used after all is
given up when the first block cannot be had. -/
def separate (type : SharedType α) (groups : Groups α) (layout : Layout)
    (build : Spot → Attempt α) (unused : Effect Unit) : Attempt (Nat × Groups α) := do
  let place ← Attempt.undoing (Allocator.allocate layout) unused
  let value ←
    Attempt.undoing (build (.block place.address))
      (Allocator.deallocate place.address layout)
  let control ←
    Attempt.undoing (Allocator.allocate controlLayout) do
      type.destroy Counts.unowned value
      Allocator.deallocate place.address layout
  pure (groups.enroll
    { block := control.address
      blockLayout := controlLayout
      place := place.address
      own := some layout
      value := some value })

def combined (groups : Groups α) (layout : Layout) (build : Spot → Attempt α)
    (unused : Effect Unit) : Attempt (Nat × Groups α) := do
  let block ← Attempt.undoing (Allocator.allocate (combinedLayout layout)) unused
  let place := block.address + valueOffset layout
  let value ←
    Attempt.undoing (build (.block place))
      (Allocator.deallocate block.address (combinedLayout layout))
  pure (groups.enroll
    { block := block.address
      blockLayout := combinedLayout layout
      place := place
      own := none
      value := some value })

/-- Applies a change to the counts of a group. -/
def recount (groups : Groups α) (number : Nat) (change : Counts → Counts) : Groups α :=
  match groups.find? number with
  | none => groups
  | some group => groups.set number { group with counts := change group.counts }

/-- Gives the value of a group a weak handle of the group. -/
def link (type : SharedType α) (groups : Groups α) (number : Nat) : Groups α :=
  match groups.find? number with
  | none => groups
  | some group =>
    groups.set number
      { group with counts := group.counts.acquireWeak, value := group.value.map type.link }

def found (type : SharedType α) (groups : Groups α) (founding : Founding)
    (layout : Layout) (build : Spot → Attempt α) (unused : Effect Unit) :
    Attempt (Nat × Groups α) := do
  let (number, groups) ←
    (if founding.combined then groups.combined layout build unused
      else groups.separate type layout build unused)
  if founding.linked then pure (number, groups.link type number)
  else pure (number, groups)

/-- Gives up a weak reference.  The last one takes the control block with it. -/
def releaseWeak (groups : Groups α) (number : Nat) : Effect (Groups α) :=
  match groups.find? number with
  | none => pure groups
  | some group =>
    if group.counts.weak ≠ 1 then pure (groups.recount number Counts.releaseWeak)
    else do
      Allocator.deallocate group.block group.blockLayout
      pure (groups.dismiss number)

/-- Destroys the value of a group that has lost its last shared handle, the weak
handle in it included, and frees the block of the value if it has one. -/
def destroyValue (type : SharedType α) (groups : Groups α) (number : Nat)
    (group : Group α) : Effect (Groups α) := do
  let bereft := { group with counts := group.counts.releaseShared, value := none }
  let groups : Groups α := groups.set number bereft
  let groups ←
    match group.value with
    | none => pure groups
    | some value => do
      type.destroy bereft.counts value
      if type.linked value then groups.releaseWeak number else pure groups
  match group.own with
  | none => pure ()
  | some layout => Allocator.deallocate group.place layout
  pure groups

def releaseShared (type : SharedType α) (groups : Groups α) (number : Nat) :
    Effect (Groups α) :=
  match groups.find? number with
  | none => pure groups
  | some group =>
    if group.counts.shared ≠ 1 then pure (groups.recount number Counts.releaseShared)
    else do
      let groups ← destroyValue type groups number group
      groups.releaseWeak number

def sharedCount (groups : Groups α) (number : Nat) : Nat :=
  ((groups.find? number).map fun group => group.counts.shared).getD 0

def weakCount (groups : Groups α) (number : Nat) : Nat :=
  ((groups.find? number).map fun group => group.counts.weakCount).getD 0

end Groups
end Freehold
