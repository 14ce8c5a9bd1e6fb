import Freehold.Element.Handle
import Freehold.Element.Leaf
import Freehold.Unique
import Freehold.Vec.Basic

/-!
# Nested owners

Vectors and unique owners may hold each other to any depth over leaf types.  A
nest says how; its values, its arguments and all of its operations follow by
recursion.  An owner is built and copied with the allocator at hand, and its
parts with it.
-/

namespace Freehold

inductive Nest where
  | leaf (type : Leaf)
  | vec (inner : Nest)
  | unique (inner : Nest)
  deriving DecidableEq

namespace Nest

def Carrier : Nest → Type
  | leaf _ => Piece
  | vec inner => Vec inner.Carrier
  | unique inner => Unique inner.Carrier

def Args : Nest → Type
  | leaf _ => Datum
  | vec inner => List inner.Args
  | unique inner => inner.Args

def element : (nest : Nest) → Element nest.Carrier
  | leaf type => type.element
  | vec inner => Handle.vec.element (Vec.drop inner.element)
  | unique inner => Handle.unique.element (Unique.drop inner.element)

/-- Builds by the strategy of a leaf type, or else an owner by its own making. -/
def builderFrom (nest : Nest) (make : nest.Args → Attempt nest.Carrier) :
    Builder nest.Args nest.Carrier :=
  match nest with
  | leaf type => type.builder
  | vec inner => (Construction.withAllocator make).builder (element (vec inner)).toMovable
  | unique inner =>
    (Construction.withAllocator make).builder (element (unique inner)).toMovable

def make : (nest : Nest) → nest.Args → Attempt nest.Carrier
  | leaf type => type.make
  | vec inner => Vec.ofArguments inner.element inner.make
  | unique inner => fun args =>
    Unique.construct inner.element (inner.builderFrom inner.make) args

def builder (nest : Nest) : Builder nest.Args nest.Carrier := nest.builderFrom nest.make

def copier : (nest : Nest) → Copier nest.Carrier
  | leaf type => type.copier
  | vec inner => (Cloning.self (Vec.clone inner.element inner.copier)).copier
  | unique inner => (Cloning.inAllocator (Unique.clone inner.element inner.copier)).copier

def listed (texts : List String) : String :=
  "[" ++ ", ".intercalate texts ++ "]"

def display : (nest : Nest) → Display nest.Carrier
  | leaf type => type.display
  | vec inner =>
    { shown := fun _ (vec : Vec inner.Carrier) =>
        .items (vec.toList.mapIdx fun index value =>
          inner.display.shown (.slot vec.buffer index) value)
      text := fun (vec : Vec inner.Carrier) => listed (vec.toList.map inner.display.text) }
  | unique inner =>
    { shown := fun _ (owner : Unique inner.Carrier) =>
        inner.display.shown owner.spot owner.value
      text := fun (owner : Unique inner.Carrier) => inner.display.text owner.value }

end Nest
end Freehold
