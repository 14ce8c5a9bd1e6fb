import Freehold.Element.Basic
import Freehold.Text.Quoted

/-!
# Leaf types

A leaf is a type that is not built from other types.  Its record says how it is
printed, how much room it takes, which of its values are announced as objects,
whether its values depend on their own place, and by which strategies it is
built and copied.  Every fallible strategy has one point at which user code may
fail, decided by the plan of the store.

A value of a leaf type is a piece: a datum, the serial number of the object if
it has one, the spot it believes to be at, and the block it has drawn from the
allocator.
-/

namespace Freehold

inductive Datum where
  | number (value : Int)
  | flag (value : Bool)
  | text (value : String)
  | unit
  deriving DecidableEq

namespace Datum

def toInt : Datum → Int
  | number value => value
  | _ => 0

def shown : Datum → Shown
  | number value => .number value
  | flag value => .flag value
  | text value => .text value
  | unit => .text "zst"

def print : Datum → String
  | number value => toString value
  | flag value => if value then "true" else "false"
  | text value => Text.quoted value
  | unit => ""

end Datum

/-- The numbers of a machine word, with a sign or without one. -/
inductive WordRange where
  | signed (bits : Nat)
  | unsigned (bits : Nat)
  deriving DecidableEq

namespace WordRange

/-- The number of the range that differs from the given one by a multiple of what the
word counts to. -/
def wrap : WordRange → Int → Int
  | signed bits, value => value.bmod (1 <<< bits)
  | unsigned bits, value => value.emod (1 <<< bits)

end WordRange

inductive DatumKind where
  | number (range : WordRange)
  | flag
  | text
  | unit
  deriving DecidableEq

namespace DatumKind

def blank : DatumKind → Datum
  | number _ => .number 0
  | flag => .flag false
  | text => .text ""
  | unit => .unit

/-- The number as this kind of data holds it, if it holds numbers. -/
def ofInt (kind : DatumKind) (value : Int) : Datum :=
  match kind with
  | number range => .number (range.wrap value)
  | other => other.blank

/-- The number that is further on by `count`; other data have none. -/
def advance (kind : DatumKind) (datum : Datum) (count : Nat) : Datum :=
  match datum with
  | .number value => kind.ofInt (value + count)
  | other => other

end DatumKind

inductive Identity where
  | silent
  | anonymous
  | numbered
  deriving DecidableEq

inductive Building where
  | inPlace
  | withAllocator (draws : Layout)
  | factory
  | plain
  deriving DecidableEq

inductive Copying where
  | inAllocator (draws : Layout)
  | self
  | atPlace
  | allocateFrom (draws : Layout)
  | createFrom
  | copy
  deriving DecidableEq

structure Leaf where
  label : Option String := none
  layout : Layout
  kind : DatumKind := .number (.signed 64)
  identity : Identity := .silent
  anchored : Bool := false
  building : Building := .plain
  copying : Copying := .copy
  deriving DecidableEq

structure Piece where
  datum : Datum
  serial : Option Nat := none
  anchor : Option Spot := none
  drawn : Option (Nat × Layout) := none
  deriving DecidableEq

namespace Leaf

def born (leaf : Leaf) (datum : Datum) : Effect Piece :=
  match leaf.identity with
  | .silent => pure { datum := datum }
  | .anonymous => do
    Effect.announce .createdUnit
    pure { datum := datum }
  | .numbered => do
    let serial ← Effect.freshSerial
    Effect.announce (.created serial datum.toInt)
    pure { datum := datum, serial := some serial }

def anchorAt (leaf : Leaf) (spot : Spot) (piece : Piece) : Piece :=
  if leaf.anchored then { piece with anchor := some spot } else piece

def freeDrawn (piece : Piece) : Effect Unit :=
  match piece.drawn with
  | none => pure ()
  | some (address, layout) => Allocator.deallocate address layout

def destroy (leaf : Leaf) (piece : Piece) : Effect Unit := do
  freeDrawn piece
  match leaf.identity, piece.serial with
  | .anonymous, _ => Effect.announce .droppedUnit
  | _, some serial => Effect.announce (.dropped serial piece.datum.toInt)
  | _, none => pure ()

/-- Only a value that depends on its place has a relocation of its own, which
makes it valid at the target. -/
def relocate (leaf : Leaf) (_source target : Spot) (piece : Piece) : Effect Piece :=
  if leaf.anchored then do
    match piece.serial with
    | some serial => Effect.announce (.moved serial)
    | none => pure ()
    pure { piece with anchor := some target }
  else pure piece

def element (leaf : Leaf) : Element Piece where
  layout := leaf.layout
  bitwise := !leaf.anchored
  relocate := leaf.relocate
  destroy := leaf.destroy
  settle := leaf.anchorAt

/-- The second phase of a shell: user code may fail, and otherwise the shell gets
its value. -/
def complete (leaf : Leaf) (spot : Spot) (datum : Datum) (shell : Piece) :
    Effect (Except ErrorKind Unit × Piece) := do
  match ← Attempt.hook.run with
  | .error kind => pure (.error kind, shell)
  | .ok () => do
    match shell.serial with
    | some serial => Effect.announce (.completed serial datum.toInt)
    | none => pure ()
    pure (.ok (), leaf.anchorAt spot { shell with datum := datum })

/-- Draws a block, lets user code fail, and gives the block back if it does. -/
def draw (leaf : Leaf) (draws : Layout) (datum : Datum) : Attempt Piece := do
  let block ← Allocator.allocate draws
  Attempt.undoing Attempt.hook (Allocator.deallocate block.address draws)
  let piece ← leaf.born datum
  pure { piece with drawn := some (block.address, draws) }

def create (leaf : Leaf) (datum : Datum) : Attempt Piece := do
  Attempt.hook
  leaf.born datum

def createAt (leaf : Leaf) (spot : Spot) (datum : Datum) : Attempt Piece := do
  let piece ← leaf.create datum
  pure (leaf.anchorAt spot piece)

def construction (leaf : Leaf) : Construction Datum Piece :=
  match leaf.building with
  | .inPlace =>
    .inPlace fun datum =>
      { shell := leaf.born (.number 0), init := fun spot => leaf.complete spot datum }
  | .withAllocator draws => .withAllocator (leaf.draw draws)
  | .factory => .factory leaf.create
  | .plain => .plain leaf.born

def cloning (leaf : Leaf) : Cloning Piece :=
  match leaf.copying with
  | .inAllocator draws => .inAllocator (fun source => leaf.draw draws source.datum)
  | .self => .self (fun source => leaf.create source.datum)
  | .atPlace => .atPlace (fun spot source => leaf.createAt spot source.datum)
  | .allocateFrom draws => .allocateFrom (fun source => leaf.draw draws source.datum)
  | .createFrom => .createFrom (fun source => leaf.create source.datum)
  | .copy => .copy (fun source => leaf.born source.datum)

def builder (leaf : Leaf) : Builder Datum Piece :=
  leaf.construction.builder leaf.element.toMovable

def copier (leaf : Leaf) : Copier Piece := leaf.cloning.copier

/-- A value that its user builds by hand: only a block to draw can fail. -/
def make (leaf : Leaf) (datum : Datum) : Attempt Piece :=
  match leaf.building with
  | .withAllocator draws => leaf.draw draws datum
  | _ => leaf.born datum

/-- The two phases of a leaf type: a shell of value zero that is completed with ten
times its serial number. -/
def phases (leaf : Leaf) : Phases Piece where
  shell := leaf.born (.number 0)
  init spot shell := leaf.complete spot (.number (10 * (shell.serial.getD 0 : Nat))) shell

def print (leaf : Leaf) (piece : Piece) : String :=
  match leaf.label, piece.datum with
  | none, datum => datum.print
  | some label, .unit => label
  | some label, datum => label ++ "(" ++ datum.print ++ ")"

def display (leaf : Leaf) : Display Piece where
  shown spot piece :=
    if leaf.anchored then .items [piece.datum.shown, .flag (piece.anchor = some spot)]
    else piece.datum.shown
  text := leaf.print

end Leaf
end Freehold
