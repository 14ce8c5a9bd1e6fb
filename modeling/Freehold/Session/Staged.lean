import Freehold.Element.Catalogue
import Freehold.Session.Values
import Freehold.Staged

/-!
# Sessions with two-phase wrappers

Wrappers of all three kinds around one type of object are kept under names.
Putting a new wrapper under a name destroys the one that was there.
-/

namespace Freehold

inductive StagedAction where
  | new (storage : Storage)
  | drop
  | init
  | get
  | tryGet
  | set (value : Int)
  | trySet (value : Int)
  | unchecked
  | uncheckedSet (value : Int)
  | clear
  | take
  | takeFrom (source : String)
  | debug
  | unknown

structure StagedStep where
  slot : String
  action : StagedAction

/-- The wrapped object: a plain one, completed in two phases. -/
def Leaf.phased : Leaf := Catalogue.plain

namespace StagedSession

abbrev Wrappers : Type := Shelf (Staged Piece)

def element : Element Piece := Leaf.phased.element

def shown (piece : Piece) : Shown := piece.datum.shown

def shownContent (content : Option Piece) : Shown := (content.map shown).getD .nothing

def print (piece : Piece) : String :=
  "Phase \x7b obj: " ++ Leaf.phased.print piece ++ " \x7d"

def assign (value : Int) (piece : Piece) : Piece := { piece with datum := .number value }

def keeping (wrappers : Wrappers) (slot : String) (told : ε → Outcome) :
    Except ε (Staged Piece) → Outcome × Wrappers
  | .ok changed => (.done .nothing, wrappers.put slot changed)
  | .error cause => (told cause, wrappers)

def act (wrappers : Wrappers) (slot : String) (wrapper : Staged Piece) :
    StagedAction → Effect (Outcome × Wrappers)
  | .new _ => pure (.refused .notApplicable, wrappers)
  | .drop => do
    wrapper.drop element
    pure (.done .nothing, wrappers.remove slot)
  | .init => do
    let answer ← (wrapper.init element Leaf.phased.phases (.own slot)).run
    pure (keeping wrappers slot .failed answer)
  | .get => pure (.ofCheck shownContent wrapper.get, wrappers)
  | .tryGet => pure (.ofExcept shownContent wrapper.tryGet, wrappers)
  | .set value => pure (keeping wrappers slot .trapped (wrapper.update (assign value)))
  | .trySet value => pure (keeping wrappers slot .failed (wrapper.tryUpdate (assign value)))
  | .unchecked =>
    if wrapper.initialized then pure (.done (shownContent wrapper.content), wrappers)
    else pure (.refused .notApplicable, wrappers)
  | .uncheckedSet value =>
    if wrapper.initialized then
      pure (.done .nothing, wrappers.put slot (wrapper.modify (assign value)))
    else pure (.refused .notApplicable, wrappers)
  | .clear => do
    let cleared ← wrapper.clear element
    pure (.done .nothing, wrappers.put slot cleared)
  | .take =>
    match wrapper.take with
    | (none, rest) => pure (.done .nothing, wrappers.put slot rest)
    | (some piece, rest) => do
      element.destroy piece
      pure (.done (shown piece), wrappers.put slot rest)
  | .takeFrom source =>
    match wrapper, wrappers.find? source with
    | .inline target, some (.inline origin) =>
      if source = slot then pure (.refused .notApplicable, wrappers)
      else do
        let (target, rest) ← target.takeFrom element.destroy origin
        pure (.done (.items [.flag target.initialized, .flag rest.initialized]),
          (wrappers.put slot (.inline target)).put source (.inline rest))
    | _, none => pure (.refused .noSuchSlot, wrappers)
    | _, _ => pure (.refused .notApplicable, wrappers)
  | .debug => pure (.done (.text (wrapper.text print)), wrappers)
  | .unknown => pure (.refused .noSuchStep, wrappers)

def step (step : StagedStep) (wrappers : Wrappers) : Effect (Outcome × Wrappers) :=
  match step.action with
  | .unknown => pure (.refused .noSuchStep, wrappers)
  | .new storage => do
    match wrappers.find? step.slot with
    | none => pure ()
    | some old => old.drop element
    pure (.done .nothing, wrappers.put step.slot (Staged.empty storage))
  | action => wrappers.withEntry step.slot fun wrapper => act wrappers step.slot wrapper action

def notes (step : StagedStep) (wrappers : Wrappers) : List (String × Shown) :=
  match wrappers.find? step.slot with
  | none => []
  | some wrapper => [("ready", .flag wrapper.initialized)]

def session : Session StagedStep Wrappers where
  step := step
  notes := notes
  finish wrappers := wrappers.values.forM (Staged.drop element)

def report (setup : Setup) (steps : List StagedStep) : Shown :=
  session.reports setup {} steps (Report.full setup.provision.arena)

end StagedSession
end Freehold
