import Freehold.Element.Catalogue
import Freehold.Intrusive
import Freehold.Session.Values

/-!
# Sessions with counted frames

A frame is a counted object that announces its destruction, and with it whether
it still had an owner.  Handles of frames are kept under names; a new handle
takes the place of the one that was there, which is given up afterwards.
-/

namespace Freehold

inductive IntrusiveAction where
  | new (value : Int)
  | dynamic (value : Int) (total : Nat)
  | construct (value : Int)
  | clone (other : String)
  | fromRef (other : String)
  | fromLocal (value : Int)
  | drop
  | get
  | debug
  | whereabouts
  | same (other : String)
  | layout
  | trailing
  | fillTrailing (byte : UInt8)
  | cloneCount
  | unknown

structure IntrusiveStep where
  slot : String
  action : IntrusiveAction

namespace Frame

def object : Leaf := Catalogue.factory

/-- A frame is a count of 32 bytes and an object. -/
def type : CountedType Piece where
  layout := ⟨48, 8⟩
  destroy refs piece := do
    Effect.announce (.remark (if refs.hasOwner then "frame owned true" else "frame owned false"))
    object.destroy piece

def text (refs : RefCount) (piece : Piece) : String :=
  let refs := refs.text
  let value := piece.datum.print
  s!"Frame \x7b refs: {refs}, v: {value} \x7d"

end Frame

structure FrameTable where
  values : CountedValues Piece := {}
  handles : Shelf Nat := {}

namespace IntrusiveSession

def giveUp (table : FrameTable) (handle : Nat) : Effect FrameTable := do
  let values ← table.values.drop Frame.type handle
  pure { table with values := values }

def keep (table : FrameTable) (slot : String) (handle : Nat) (values : CountedValues Piece) :
    Effect (Outcome × FrameTable) := do
  let kept : FrameTable :=
    { values := values, handles := table.handles.put slot handle }
  match table.handles.find? slot with
  | none => pure (.done .nothing, kept)
  | some old => do
    let kept ← giveUp kept old
    pure (.done .nothing, kept)

def keepMade (table : FrameTable) (slot : String) (attempt : Attempt (Nat × CountedValues Piece)) :
    Effect (Outcome × FrameTable) := do
  match ← attempt.run with
  | .error kind => pure (.failed kind, table)
  | .ok (handle, values) => keep table slot handle values

def number (value : Int) : Datum := .number value

def look (arena : Option Span) (table : FrameTable) (handle : Nat)
    (counted : Counted Piece) : IntrusiveAction → Outcome
  | .get => .done counted.value.datum.shown
  | .debug => .done (.text (Frame.text counted.refs counted.value))
  | .whereabouts =>
    .done (Whereabouts.locate arena counted.address Frame.type.layout.size).shown
  | .same other =>
    match table.handles.find? other with
    | none => .refused .noSuchSlot
    | some second => .done (.flag (handle == second))
  | .layout =>
    match counted.refs.owner with
    | none => .done .nothing
    | some layout => .done (.items [.count layout.size, .count layout.align])
  | .trailing => .done (.count (counted.trailing Frame.type).size)
  | .fillTrailing byte => .done (.count (byte.toNat * (counted.trailing Frame.type).size))
  | .cloneCount =>
    let copy := counted.refs.clone
    .done (.items [.count copy.count, .flag copy.hasOwner, .text copy.text])
  | _ => .refused .notApplicable

def act (arena : Option Span) (table : FrameTable) (slot : String) (handle : Nat) :
    IntrusiveAction → Effect (Outcome × FrameTable)
  | .clone other => keep table other handle (table.values.clone handle)
  | .fromRef other =>
    match table.values.fromRef handle with
    | .error kind => pure (.failed kind, table)
    | .ok values => keep table other handle values
  | .drop => do
    let table ← giveUp table handle
    pure (.done .nothing, { table with handles := table.handles.remove slot })
  | action =>
    match table.values.find? handle with
    | none => pure (.refused .notApplicable, table)
    | some counted => pure (look arena table handle counted action, table)

def step (arena : Option Span) (step : IntrusiveStep) (table : FrameTable) :
    Effect (Outcome × FrameTable) :=
  match step.action with
  | .unknown => pure (.refused .noSuchStep, table)
  | .new value =>
    keepMade table step.slot do
      let piece ← Frame.object.born (number value)
      table.values.new Frame.type piece
  | .dynamic value total =>
    keepMade table step.slot do
      let piece ← Frame.object.born (number value)
      table.values.newDynamic Frame.type piece total
  | .construct value =>
    keepMade table step.slot
      (table.values.construct Frame.type fun spot =>
        Frame.object.builder.constructAt spot (number value))
  | .fromLocal value => do
    let piece ← Frame.object.born (number value)
    let refs : RefCount := {}
    let answer := refs.acquire
    CountedValues.discard Frame.type piece
    pure (.ofExcept (fun _ => .nothing) answer, table)
  | action =>
    match table.handles.find? step.slot with
    | none => pure (.refused .noSuchSlot, table)
    | some handle => act arena table step.slot handle action

def notes (step : IntrusiveStep) (table : FrameTable) : List (String × Shown) :=
  match table.handles.find? step.slot >>= table.values.find? with
  | none => []
  | some counted => [("count", .count counted.refs.count)]

def giveUpAll (table : FrameTable) : List Nat → Effect Unit
  | [] => pure ()
  | handle :: rest => do
    let table ← giveUp table handle
    giveUpAll table rest

def session (arena : Option Span) : Session IntrusiveStep FrameTable where
  step := step arena
  notes := notes
  finish table := giveUpAll table table.handles.values

def report (setup : Setup) (steps : List IntrusiveStep) : Shown :=
  let arena := setup.provision.arena
  (session arena).reports setup {} steps (Report.full arena)

end IntrusiveSession
end Freehold
