import Freehold.Element.Catalogue
import Freehold.Element.Composite
import Freehold.Session.Values

/-!
# Trials of relocation

A trial builds one value in a place, moves it to another place by the relocation
of its type, shows it there and destroys it.
-/

namespace Freehold

/-- A type on trial, with the way in which its value is built. -/
structure Trial where
  Carrier : Type
  movable : Movable Carrier
  build : Spot → Attempt Carrier
  shown : Spot → Carrier → Shown

namespace Trial

def source : Spot := .own "source"

def target : Spot := .own "target"

def perform (trial : Trial) : Attempt Shown := do
  let built ← trial.build source
  let value := trial.movable.settle source built
  let moved ← trial.movable.relocate source target value
  trial.movable.destroy moved
  pure (trial.shown target moved)

def composite (type : Composite) (build : Attempt type.Carrier) : Trial where
  Carrier := type.Carrier
  movable := type.movable
  build _ := build
  shown := type.shown

def leaf (type : Leaf) (datum : Datum) : Trial :=
  composite (.leaf type) (type.make datum)

def cell (type : Leaf) (datum : Datum) : Trial :=
  composite (.cell (.leaf type)) (type.make datum)

def makeOptional (type : Leaf) : Option Datum → Attempt (Option Piece)
  | none => pure none
  | some datum => some <$> type.make datum

def option (type : Leaf) (datum : Option Datum) : Trial :=
  composite (.option (.leaf type)) (makeOptional type datum)

def optionOption (type : Leaf) (datum : Option (Option Datum)) : Trial :=
  composite (.option (.option (.leaf type)))
    (match datum with
    | none => pure none
    | some inner => some <$> makeOptional type inner)

def array (type : Leaf) (data : List Datum) : Trial :=
  composite (.array (.leaf type)) (data.mapM type.make)

def optionArray (type : Leaf) (data : List (Option Datum)) : Trial :=
  composite (.array (.option (.leaf type))) (data.mapM (makeOptional type))

/-- A value that is completed in two phases in its place, or not at all. -/
def staged (type : Leaf) (completed : Bool) : Trial :=
  { composite (.staged (.leaf type)) (pure none) with
    build := fun spot =>
      if completed then some <$> type.phases.run type.element.toMovable (.part spot 0)
      else pure none }

/-- Numbers in an array, shown in full. -/
def numbers (data : List Int) : Trial :=
  { array Catalogue.i64 (data.map Datum.number) with
    shown := fun _ (pieces : List Piece) =>
      .items (pieces.map fun piece => .exact piece.datum.toInt) }

/-- A value behind a pointer, which stays where it is when the pointer is moved. -/
def boxed (type : Leaf) (datum : Datum) : Trial where
  Carrier := Piece
  movable :=
    { type.element.toMovable with
      bitwise := true
      relocate := fun _ _ value => pure value }
  build _ := type.make datum
  shown := type.display.shown

def nest (nest : Nest) (args : nest.Args) : Trial where
  Carrier := nest.Carrier
  movable := nest.element.toMovable
  build _ := nest.make args
  shown := nest.display.shown

def report (trial : Trial) (setup : Setup) : Shown :=
  let (answer, store) := trial.perform.run.run setup.store
  let (report, _) := Session.observe 0 (some (Outcome.ofExcept id answer)) [] store
  match report.full setup.provision.arena with
  | .fields named => .fields (("bitwise", .flag trial.movable.bitwise) :: named)
  | other => other

end Trial
end Freehold
