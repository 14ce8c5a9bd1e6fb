import Freehold.Element.Catalogue
import Freehold.Shared.Handle

/-!
# Values to share

The values that sessions share are objects of leaf types, pairs and nodes.  A
pair has parts that can be viewed on their own: an object, a number and a text.
A node knows its owners once it has been linked.

A view may be erased: it then says nothing about the type of what it shows, and
the type has to be named again to get a view that does.
-/

namespace Freehold

inductive Pointee where
  | object (type : Leaf) (piece : Piece)
  | pair (left : Piece) (number : Int) (text : String)
  | node (object : Piece) (linked : Bool)

inductive PointeeKind where
  | object (type : Leaf)
  | pair
  | node

inductive View where
  | whole
  | left
  | number
  | leftNumber
  | text
  | tail
  deriving DecidableEq

structure Sight where
  view : View := .whole
  erased : Bool := false
  deriving DecidableEq

inductive Seen where
  | value (pointee : Pointee)
  | number (value : Int)
  | text (value : String)

inductive ViewName where
  | self
  | number
  | erased
  | left
  | text
  | positive
  | tail
  | plain
  | pair
  deriving DecidableEq

namespace PointeeKind

def nodeObject : Leaf := Catalogue.factory

def layout : PointeeKind → Layout
  | object type => type.layout
  | pair => ⟨48, 8⟩
  | node => ⟨40, 8⟩

def makePair (value : Int) : Attempt Pointee := do
  let left ← Catalogue.plain.born (.number value)
  let text := toString value
  pure (.pair left ((WordRange.signed 64).wrap (2 * value)) s!"t{text}")

def make (kind : PointeeKind) (value : Int) : Attempt Pointee :=
  match kind with
  | object type => do
    let piece ← type.make (type.kind.ofInt value)
    pure (.object type piece)
  | pair => makePair value
  | node => do
    let piece ← nodeObject.born (.number value)
    pure (.node piece false)

def build (kind : PointeeKind) (value : Int) (spot : Spot) : Attempt Pointee :=
  match kind with
  | object type => do
    let piece ← type.builder.constructAt spot (type.kind.ofInt value)
    pure (.object type piece)
  | pair => makePair value
  | node => do
    let piece ← nodeObject.create (.number value)
    pure (.node piece false)

end PointeeKind

namespace Pointee

def kind : Pointee → PointeeKind
  | object type _ => .object type
  | pair _ _ _ => .pair
  | node _ _ => .node

def destroy : Pointee → Effect Unit
  | object type piece => type.destroy piece
  | pair left number _ => do
    let twice := toString number
    Effect.announce (.remark s!"drop pair {twice}")
    Catalogue.plain.destroy left
  | node piece _ => PointeeKind.nodeObject.destroy piece

def linked : Pointee → Bool
  | node _ isLinked => isLinked
  | _ => false

def type : SharedType Pointee where
  destroy _ pointee := pointee.destroy
  linked := linked
  link
    | .node piece _ => .node piece true
    | other => other

/-- The text of a pair without its first character, unless a minus sign follows. -/
def tailOf? (text : String) : Option String :=
  match text.toList with
  | [] => none
  | _ :: '-' :: _ => none
  | _ :: rest => some (String.ofList rest)

def see? (pointee : Pointee) (view : View) : Option Seen :=
  match view, pointee with
  | .whole, pointee => some (.value pointee)
  | .left, pair left _ _ => some (.value (.object Catalogue.plain left))
  | .number, object _ piece => some (.number piece.datum.toInt)
  | .number, pair _ number _ => some (.number number)
  | .leftNumber, pair left _ _ => some (.number left.datum.toInt)
  | .text, pair _ _ text => some (.text text)
  | .tail, pair _ _ text => (tailOf? text).map Seen.text
  | _, _ => none

/-- The view of a number in what is viewed as an object or a pair. -/
def numberView : View → View
  | .left => .leftNumber
  | _ => .number

/-- Names the type of an erased view again. -/
def recover (name : ViewName) (seen : Seen) (view : View) : Option Sight :=
  match name, seen with
  | .plain, .value (.object _ _) | .pair, .value (.pair _ _ _) => some { view := view }
  | .number, .number _ => some { view := view }
  | _, _ => none

/-- Derives a view from another one, if there is something to see. -/
def derive? (name : ViewName) (pointee : Pointee) (sight : Sight) : Option Sight :=
  match pointee.see? sight.view with
  | none => none
  | some seen =>
    if sight.erased then recover name seen sight.view
    else
      match name, seen with
      | .self, _ => some sight
      | .erased, _ => some { sight with erased := true }
      | .number, .value _ => some { view := numberView sight.view }
      | .left, .value (.pair _ _ _) => some { view := .left }
      | .text, .value (.pair _ _ _) => some { view := .text }
      | .positive, .value (.pair _ number _) =>
        if 0 < number then some { view := .number } else none
      | .tail, .value (.pair _ _ text) =>
        (tailOf? text).map fun _ => { view := .tail }
      | _, _ => none

end Pointee

namespace Seen

def shown : Seen → Shown
  | value (.object _ piece) => piece.datum.shown
  | value (.pair left twice label) =>
    .items [left.datum.shown, .number twice, .text label]
  | value (.node object linked) => .items [object.datum.shown, .flag linked]
  | number n => .number n
  | text content => .text content

def linkText (linked : Bool) : String :=
  let linked := if linked then "true" else "false"
  s!"WeakThis \x7b linked: {linked} \x7d"

def print : Seen → String
  | value (.object type piece) => type.print piece
  | value (.pair left twice label) =>
    let left := Catalogue.plain.print left
    let twice := toString twice
    let label := Text.quoted label
    s!"Pair({left}, {twice}, {label})"
  | value (.node object linked) =>
    let v := object.datum.print
    let link := linkText linked
    s!"Node \x7b v: {v}, this: {link} \x7d"
  | number n => toString n
  | text content => Text.quoted content

end Seen

namespace Sight

def shown (sight : Sight) (pointee : Pointee) : Shown :=
  if sight.erased then .text "any"
  else ((pointee.see? sight.view).map Seen.shown).getD .nothing

def print (sight : Sight) (pointee : Pointee) : String :=
  if sight.erased then "Any \x7b .. \x7d"
  else ((pointee.see? sight.view).map Seen.print).getD ""

end Sight

/-- Where the bytes of a view are: at an address, or in the text of a group, so many
characters from its start. -/
inductive Seat where
  | address (place : Nat)
  | text (group offset : Nat)
  deriving DecidableEq

namespace View

/-- Where a part lies in a pair: its text first, then its object, then its number. -/
def partOffset : View → Nat
  | left | leftNumber => 24
  | number => 40
  | _ => 0

def seat (view : View) (group place : Nat) (pointee : Pointee) : Seat :=
  match view, pointee with
  | text, _ => .text group 0
  | tail, _ => .text group 1
  | view, .pair _ _ _ => .address (place + view.partOffset)
  | _, _ => .address place

def size (view : View) (pointee : Pointee) : Nat :=
  match view with
  | whole => pointee.kind.layout.size
  | left => Catalogue.plain.layout.size
  | number | leftNumber => 8
  | text | tail =>
    match pointee.see? view with
    | some (.text value) => value.utf8ByteSize
    | _ => 0

end View
end Freehold
