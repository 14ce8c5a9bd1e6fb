import Freehold.Element.Basic
import Freehold.Vec.Slots

/-!
# Growable buffers

A vector holds its elements in the first slots of a buffer and grows the buffer
on demand.  It does not remember the recorded size of its block: the capacity is
that size divided by the element size, and the layout of the buffer is computed
from the capacity again.  Elements without size need no buffer, so their vector
has the greatest capacity from the start.

Growth is tried in place first.  When that is refused, a buffer of bitwise
elements is resized by the allocator, and elements of any other type are
relocated one at a time, in index order, into a new block before the old one is
given back.
-/

namespace Freehold

structure Vec (α : Type) where
  buffer : Nat
  capacity : Nat
  length : Nat := 0
  slots : Slots α := #[]

namespace Vec

variable {α : Type}

def empty (element : Element α) : Vec α :=
  { buffer := element.layout.align
    capacity := if element.layout.size = 0 then Word.greatest else 0 }

def toList (vec : Vec α) : List α := vec.slots.values vec.length

/-- The layout of the block that the vector holds, if it holds one. -/
def bufferLayout? (element : Element α) (vec : Vec α) : Option Layout :=
  if element.layout.size = 0 ∨ vec.capacity = 0 then none
  else element.layout.array? vec.capacity

def adopt (element : Element α) (vec : Vec α) (block : Block) : Vec α :=
  { vec with
    buffer := block.address
    capacity := block.size / element.layout.size }

/-- Relocates the first `count` slots of one buffer to the same slots of another. -/
def migrate (element : Element α) (source target : Nat) (slots : Slots α) :
    Nat → Effect (Slots α)
  | 0 => pure #[]
  | count + 1 => do
    let moved ← migrate element source target slots count
    match slots.read count with
    | none => pure moved
    | some value => do
      let value ←
        element.relocateRecorded (.slot source count) (.slot target count) value
      pure (moved.write count value)

def grewInPlace (size : Nat) : String :=
  let size := toString size
  s!"grew buffer in place to {size} bytes"

def resizedBuffer (size : Nat) : String :=
  let size := toString size
  s!"reallocated buffer to {size} bytes"

def relocatedElements (count size : Nat) : String :=
  let count := toString count
  let size := toString size
  s!"relocated {count} elements into {size} bytes"

/-- Lets the allocator resize the buffer, bytes and all. -/
def resize (element : Element α) (vec : Vec α) (held wanted : Layout) : Attempt (Vec α) := do
  let block ← Allocator.reallocate vec.buffer held wanted.size
  Effect.log .trace (resizedBuffer block.size)
  pure (vec.adopt element block)

def move (element : Element α) (vec : Vec α) (held wanted : Layout) : Attempt (Vec α) := do
  let block ← Allocator.allocate wanted
  let slots ← migrate element vec.buffer block.address vec.slots vec.length
  Allocator.deallocate vec.buffer held
  Effect.log .trace (relocatedElements vec.length block.size)
  pure { vec.adopt element block with slots := slots }

/-- Grows a buffer that holds a block already. -/
def regrow (element : Element α) (vec : Vec α) (held wanted : Layout) : Attempt (Vec α) := do
  match ← ExceptT.lift (Allocator.expand vec.buffer held wanted.size).run with
  | .ok size => do
    Effect.log .trace (grewInPlace size)
    pure { vec with capacity := size / element.layout.size }
  | .error _ =>
    if element.bitwise then vec.resize element held wanted
    else vec.move element held wanted

def reserve (element : Element α) (vec : Vec α) (capacity : Nat) : Attempt (Vec α) :=
  if capacity ≤ vec.capacity then pure vec
  else
    match element.layout.array? capacity with
    | none => throw .integerOverflow
    | some wanted =>
      match vec.bufferLayout? element with
      | none => do
        let block ← Allocator.allocate wanted
        pure (vec.adopt element block)
      | some held => vec.regrow element held wanted

def reserveAdditional (element : Element α) (vec : Vec α) (additional : Nat) :
    Attempt (Vec α) :=
  match Word.add? vec.length additional with
  | none => throw .integerOverflow
  | some capacity => vec.reserve element capacity

def firstCapacity : Nat := 8

def growForOne (element : Element α) (vec : Vec α) : Attempt (Vec α) :=
  if vec.length < vec.capacity then pure vec
  else if vec.capacity = 0 then vec.reserve element firstCapacity
  else
    match Word.mul? vec.capacity 2 with
    | none => throw .integerOverflow
    | some capacity => vec.reserve element capacity

end Vec
end Freehold
