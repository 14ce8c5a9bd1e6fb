import Freehold.Element.Basic

/-!
# Unique owners

A unique owner has one value in a block of its own.  It is built in place or
takes a finished value, and in both cases nothing is left behind when it cannot
be made: the block is given back, and a value that was handed over is destroyed.
-/

namespace Freehold

structure Unique (α : Type) where
  address : Nat
  value : α

namespace Unique

variable {α β : Type}

def spot (owner : Unique α) : Spot := .block owner.address

/-- Takes a block and builds a value in it; the block is given back if that fails.  What
is not used after all is given up when there is no block. -/
def place (element : Element α) (build : Spot → Attempt α)
    (unused : Effect Unit := pure ()) : Attempt (Unique α) := do
  let block ← Attempt.undoing (Allocator.allocate element.layout) unused
  let value ←
    Attempt.undoing (build (.block block.address))
      (Allocator.deallocate block.address element.layout)
  pure ⟨block.address, value⟩

def new (element : Element α) (value : α) : Attempt (Unique α) := do
  let block ← Attempt.undoing (Allocator.allocate element.layout) (element.destroy value)
  pure ⟨block.address, value⟩

def construct (element : Element α) (builder : Builder β α) (args : β)
    (unused : Effect Unit := pure ()) : Attempt (Unique α) :=
  place element (fun spot => builder.constructAt spot args) unused

def clone (element : Element α) (copier : Copier α) (owner : Unique α) :
    Attempt (Unique α) :=
  place element fun spot => copier.cloneAt spot owner.value

def free (element : Element α) (owner : Unique α) : Effect Unit :=
  Allocator.deallocate owner.address element.layout

def intoInner (element : Element α) (owner : Unique α) : Effect α := do
  owner.free element
  pure owner.value

def drop (element : Element α) (owner : Unique α) : Effect Unit := do
  element.destroy owner.value
  owner.free element

/-- The owner after its user has settled the value by hand. -/
def settled (element : Element α) (owner : Unique α) : Unique α :=
  { owner with value := element.settle owner.spot owner.value }

end Unique
end Freehold
