import Freehold.Element.Leaf

/-!
# A catalogue of leaf types

The leaf types that sessions work with.  Together they cover every strategy of
construction and every strategy of copying, scalars and texts, a type without
size, a type with a large alignment, types that draw from the allocator, and a
type that depends on its own place.
-/

namespace Freehold
namespace Catalogue

def u8 : Leaf := { layout := ⟨1, 1⟩, kind := .number (.unsigned 8) }

def u16 : Leaf := { layout := ⟨2, 2⟩, kind := .number (.unsigned 16) }

def u32 : Leaf := { layout := ⟨4, 4⟩, kind := .number (.unsigned 32) }

def u64 : Leaf := { layout := ⟨8, 8⟩, kind := .number (.unsigned 64) }

def i64 : Leaf := { layout := ⟨8, 8⟩ }

def bool : Leaf := { layout := ⟨1, 1⟩, kind := .flag }

def string : Leaf := { layout := ⟨24, 8⟩, kind := .text }

def text : Leaf := { label := some "Text", layout := ⟨24, 8⟩, kind := .text }

def inplace : Leaf :=
  { label := some "InPlaceObj", layout := ⟨16, 8⟩, identity := .numbered
    building := .inPlace, copying := .atPlace }

def factory : Leaf :=
  { label := some "FactoryObj", layout := ⟨16, 8⟩, identity := .numbered
    building := .factory, copying := .self }

def create : Leaf :=
  { label := some "CreateObj", layout := ⟨16, 8⟩, identity := .numbered
    building := .factory, copying := .createFrom }

def plain : Leaf :=
  { label := some "PlainObj", layout := ⟨16, 8⟩, identity := .numbered }

/-- What a drawing type takes from the allocator. -/
def drawnLayout : Layout := ⟨24, 8⟩

def heap : Leaf :=
  { label := some "HeapObj", layout := ⟨32, 8⟩, identity := .numbered
    building := .withAllocator drawnLayout, copying := .inAllocator drawnLayout }

def heapFrom : Leaf :=
  { label := some "HeapFrom", layout := ⟨32, 8⟩, identity := .numbered
    building := .withAllocator drawnLayout, copying := .allocateFrom drawnLayout }

def wide : Leaf :=
  { label := some "Wide", layout := ⟨64, 64⟩, identity := .numbered }

def zst : Leaf :=
  { label := some "Zst", layout := ⟨0, 1⟩, kind := .unit, identity := .anonymous
    building := .factory, copying := .self }

def anchored : Leaf :=
  { label := some "Anchored", layout := ⟨24, 8⟩, identity := .numbered, anchored := true
    building := .inPlace, copying := .atPlace }

end Catalogue
end Freehold
