import Freehold.Element.Leaf

/-!
# Composed types

Optional values, arrays, cells and values completed in two phases are composed
from other types, down to leaf types.  A composed type is bitwise when all of its
leaf types are.  Otherwise moving a value moves every part that is present, each
to the same position in the new place: nothing is moved for an absent value or
for one that is not completed yet.
-/

namespace Freehold

inductive Composite where
  | leaf (type : Leaf)
  | option (inner : Composite)
  | array (inner : Composite)
  | cell (inner : Composite)
  | staged (inner : Composite)
  deriving DecidableEq

namespace Composite

def Carrier : Composite → Type
  | leaf _ => Piece
  | option inner => Option inner.Carrier
  | array inner => List inner.Carrier
  | cell inner => inner.Carrier
  | staged inner => Option inner.Carrier

def bitwise : Composite → Bool
  | leaf type => type.element.bitwise
  | option inner | array inner | cell inner | staged inner => inner.bitwise

/-- Moves the elements of an array in index order. -/
def relocateFrom (move : Spot → Spot → α → Effect α) (source target : Spot) (index : Nat) :
    List α → Effect (List α)
  | [] => pure []
  | value :: rest => do
    let value ← move (.part source index) (.part target index) value
    let rest ← relocateFrom move source target (index + 1) rest
    pure (value :: rest)

def relocate : (type : Composite) → Spot → Spot → type.Carrier → Effect type.Carrier
  | leaf type, source, target, value => type.element.carry source target value
  | option _, _, _, none => pure none
  | option inner, source, target, some value =>
    if inner.bitwise then pure (some value)
    else some <$> inner.relocate (.part source 0) (.part target 0) value
  | array inner, source, target, values =>
    if inner.bitwise then pure values
    else relocateFrom inner.relocate source target 0 values
  | cell inner, source, target, value => inner.relocate source target value
  | staged _, _, _, none => pure none
  | staged inner, source, target, some value =>
    some <$> inner.relocate (.part source 0) (.part target 0) value

def destroy : (type : Composite) → type.Carrier → Effect Unit
  | leaf type, value => type.destroy value
  | option _, none => pure ()
  | option inner, some value => inner.destroy value
  | array inner, (values : List inner.Carrier) => values.forM inner.destroy
  | cell inner, value => inner.destroy value
  | staged _, none => pure ()
  | staged inner, some value => inner.destroy value

def settle : (type : Composite) → Spot → type.Carrier → type.Carrier
  | leaf type, spot, value => type.anchorAt spot value
  | option _, _, none => none
  | option inner, spot, some value => some (inner.settle (.part spot 0) value)
  | array inner, spot, (values : List inner.Carrier) =>
    values.mapIdx fun index value => inner.settle (.part spot index) value
  | cell inner, spot, value => inner.settle spot value
  | staged _, _, none => none
  | staged inner, spot, some value => some (inner.settle (.part spot 0) value)

def movable (type : Composite) : Movable type.Carrier where
  bitwise := type.bitwise
  relocate := type.relocate
  destroy := type.destroy
  settle := type.settle

/-- What an absent value is shown as: nothing, unless nothing already stands for an
absent value inside a present one. -/
def absent : Composite → Shown
  | option _ => .text "none"
  | _ => .nothing

def shown : (type : Composite) → Spot → type.Carrier → Shown
  | leaf type, spot, value => type.display.shown spot value
  | option inner, _, none => inner.absent
  | option inner, spot, some value => inner.shown (.part spot 0) value
  | array inner, spot, (values : List inner.Carrier) =>
    .items (values.mapIdx fun index value => inner.shown (.part spot index) value)
  | cell inner, spot, value => inner.shown spot value
  | staged _, _, none => .nothing
  | staged inner, spot, some value => inner.shown (.part spot 0) value

end Composite
end Freehold
