import Freehold.Element.Basic
import Freehold.Outcome

/-!
# Arrays of fixed length

An array is built in one block, each element from the same arguments and in
index order.  When an element cannot be built, the ones before it are destroyed
from the last to the first and the block is given back.  A finished array is
destroyed in the same order.
-/

namespace Freehold

structure FixedArray (α : Type) where
  address : Nat
  values : List α

namespace FixedArray

variable {α β : Type}

def length (array : FixedArray α) : Nat := array.values.length

/-- Builds `count` elements from `index` on.  Those built so far are listed with
the latest first and are destroyed in that order if the next one fails. -/
def fill (element : Element α) (builder : Builder β α) (address : Nat) (args : β) :
    Nat → Nat → List α → Attempt (List α)
  | _, 0, built => pure built.reverse
  | index, count + 1, built => do
    let value ←
      Attempt.undoing (builder.constructAt (.slot address index) args)
        (element.destroyAll built)
    fill element builder address args (index + 1) count (value :: built)

def construct (element : Element α) (builder : Builder β α) (count : Nat) (args : β) :
    Attempt (FixedArray α) :=
  if count = 0 then throw .invalidArgument
  else
    match element.layout.array? count with
    | none => throw .integerOverflow
    | some layout => do
      let block ← Allocator.allocate layout
      let values ←
        Attempt.undoing (fill element builder block.address args 0 count [])
          (Allocator.deallocate block.address layout)
      pure ⟨block.address, values⟩

def free (element : Element α) (array : FixedArray α) : Effect Unit :=
  match element.layout.array? array.length with
  | none => pure ()
  | some layout => Allocator.deallocate array.address layout

def drop (element : Element α) (array : FixedArray α) : Effect Unit := do
  element.destroyAll array.values.reverse
  array.free element

/-- What the owner of the raw parts does: destroys the elements in index order and
frees the block. -/
def dismantle (element : Element α) (array : FixedArray α) : Effect Unit := do
  element.destroyAll array.values
  array.free element

def get? (array : FixedArray α) (index : Nat) : Option α := array.values[index]?

def replace? (array : FixedArray α) (index : Nat) (value : α) :
    Option (α × FixedArray α) :=
  (array.get? index).map fun old =>
    (old, { array with values := array.values.set index value })

def outOfBounds (array : FixedArray α) (index : Nat) : Trap :=
  let length := toString array.length
  let index := toString index
  { condition := "index < self.len"
    message := s!"index {index} out of bounds for array of length {length}" }

def settleAll (element : Element α) (array : FixedArray α) : FixedArray α :=
  { array with
    values := array.values.mapIdx fun index value =>
      element.settle (.slot array.address index) value }

end FixedArray
end Freehold
