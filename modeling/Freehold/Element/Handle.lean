import Freehold.Element.Basic

/-!
# Handles that carry an allocator

A unique owner, a vector and a value that is completed on the heap each keep the
allocator that they draw from.  Moving such a handle never touches what it owns:
the bytes of the handle are copied, the allocator in it included.  Owners and
vectors are bitwise whatever their allocator is; a value on the heap is bitwise
when its allocator is.
-/

namespace Freehold

inductive Handle where
  | unique
  | vec
  | staged
  deriving DecidableEq

/-- The content of a handle and the allocator that it carries. -/
structure Carried (α β : Type) where
  content : α
  allocator : β

namespace Handle

def layout : Handle → Layout
  | unique => ⟨16, 8⟩
  | vec => ⟨32, 8⟩
  | staged => ⟨16, 8⟩

def bitwise (handle : Handle) (allocatorBitwise : Bool) : Bool :=
  match handle with
  | unique | vec => true
  | staged => allocatorBitwise

/-- How a handle is moved, given how its allocator is. -/
def movable (handle : Handle) (allocator : Movable β) (destroy : α → Effect Unit) :
    Movable (Carried α β) where
  bitwise := handle.bitwise allocator.bitwise
  relocate _ _ carried := pure carried
  destroy carried := do
    destroy carried.content
    allocator.destroy carried.allocator
  settle _ carried := carried

/-- A handle whose allocator is a reference, and so moves with its bytes. -/
def element (handle : Handle) (destroy : α → Effect Unit) : Element α where
  layout := handle.layout
  bitwise := handle.bitwise true
  relocate _ _ value := pure value
  destroy := destroy
  settle _ value := value

end Handle
end Freehold
