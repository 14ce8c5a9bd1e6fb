import Freehold.Intrusive
import Freehold.Proofs.Deeds
import Freehold.Proofs.Placing.Owners

/-!
# Any number of counted values

The state of a run tells which handles of counted values there are, and how each value was
when a factory placed it.  Values are placed and built, handles are copied, made again
from a reference to their value, and given up, in any order.  Besides there are counts
that no factory has placed: those of values that their users keep elsewhere, and those
that are copied with a value.
-/

namespace Freehold

/-- The live handles, each by the number of its value, and the counts outside of any
factory's block.  The values that were ever placed are recorded in the order of their
numbers. -/
structure IntrusiveState (α : Type) where
  values : CountedValues α := {}
  handles : List Nat := []
  strays : List RefCount := []
  placed : List (Counted α) := []

namespace IntrusiveState

variable {α : Type}

inductive HandleDeed where
  | clone
  /-- A handle is made from a reference to the value. -/
  | fromRef
  | drop
  | copyCount

inductive StrayDeed where
  | copyCount
  | fromRef

/-- Handles and stray counts are named by their position. -/
inductive Act (α : Type) where
  /-- The value is moved into a block of so many bytes, or of just its own size. -/
  | place (value : α) (total : Nat)
  | construct (build : Spot → Attempt α) (unused : Effect Unit)
  | stray
  | handle (index : Nat) (deed : HandleDeed)
  | strayed (index : Nat) (deed : StrayDeed)

inductive Answer where
  | unavailable
  | nothing
  | handle (number : Nat)
  | failed (kind : ErrorKind)

def keep (state : IntrusiveState α) (attempt : Attempt (Nat × CountedValues α)) :
    Effect (Answer × IntrusiveState α) := do
  match ← attempt.run with
  | .error kind => pure (.failed kind, state)
  | .ok (number, values) =>
    pure (.handle number,
      { state with
        values := values
        handles := number :: state.handles
        placed := state.placed ++ (values.find? number).toList })

def withStray (state : IntrusiveState α) (refs : RefCount) : IntrusiveState α :=
  { state with strays := refs :: state.strays }

def withHandle (state : IntrusiveState α) (number : Nat) (values : CountedValues α) :
    IntrusiveState α :=
  { state with values := values, handles := number :: state.handles }

def actHandle (type : CountedType α) (state : IntrusiveState α) (index number : Nat) :
    HandleDeed → Effect (Answer × IntrusiveState α)
  | .clone => pure (.handle number, state.withHandle number (state.values.clone number))
  | .fromRef =>
    match state.values.fromRef number with
    | .error kind => pure (.failed kind, state)
    | .ok values => pure (.handle number, state.withHandle number values)
  | .drop => do
    let values ← state.values.drop type number
    pure (.nothing, { state with values := values, handles := state.handles.eraseIdx index })
  | .copyCount =>
    match state.values.find? number with
    | none => pure (.unavailable, state)
    | some counted => pure (.nothing, state.withStray counted.refs.clone)

def actStray (state : IntrusiveState α) (index : Nat) (refs : RefCount) :
    StrayDeed → Answer × IntrusiveState α
  | .copyCount => (.nothing, state.withStray refs.clone)
  | .fromRef =>
    match refs.acquire with
    | .error kind => (.failed kind, state)
    | .ok refs => (.nothing, { state with strays := state.strays.set index refs })

def act (type : CountedType α) (state : IntrusiveState α) :
    Act α → Effect (Answer × IntrusiveState α)
  | .place value total => state.keep (state.values.newDynamic type value total)
  | .construct build unused => state.keep (state.values.construct type build unused)
  | .stray => pure (.nothing, state.withStray {})
  | .handle index deed =>
    match state.handles[index]? with
    | none => pure (.unavailable, state)
    | some number => state.actHandle type index number deed
  | .strayed index deed =>
    match state.strays[index]? with
    | none => pure (.unavailable, state)
    | some refs => pure (state.actStray index refs deed)

def run (type : CountedType α) (state : IntrusiveState α) : List (Act α) → Effect (IntrusiveState α)
  | [] => pure state
  | act :: later => do
    let (_, next) ← state.act type act
    next.run type later

/-! ## Deeds -/

/-- What is done on behalf of counted values, with what came of it. -/
inductive Deed (α : Type) where
  | allocate (layout : Layout) (answer : Except ErrorKind Block)
  | build (attempt : Attempt α) (answer : Except ErrorKind α)
  /-- The block is returned since no value came to be in it. -/
  | giveBack (address : Nat) (layout : Layout)
  /-- What a value was to be built from is not used. -/
  | setAside (unused : Effect Unit)
  /-- The value is destroyed by its user, who got no handle of it. -/
  | discard (value : α)
  /-- The value is destroyed by a destructor that sees this count. -/
  | destroy (number : Nat) (refs : RefCount) (value : α)
  | free (number : Nat) (address : Nat) (layout : Layout)

namespace Deed

def Done (type : CountedType α) (deed : Deed α) (before after : Store) : Prop :=
  match deed with
  | allocate layout answer => Allocator.allocate layout before = (answer, after)
  | build attempt answer => attempt before = (answer, after)
  | giveBack address layout | free _ address layout =>
    Allocator.deallocate address layout before = ((), after)
  | setAside unused => unused before = ((), after)
  | discard value => CountedValues.discard type value before = ((), after)
  | destroy _ refs value => type.destroy refs value before = ((), after)

/-- The deed ends the life of the value with this number. -/
def ends (number : Nat) : Deed α → Bool
  | destroy other _ _ | free other _ _ => other == number
  | _ => false

end Deed

/-- The life of a counted value ends once: first the value goes, which has lost its owner
by then, and then its block with the layout that it was taken with. -/
def ending (number : Nat) (origin : Counted α) : List (Deed α) :=
  .destroy number {} origin.value ::
    origin.refs.owner.toList.map fun layout => .free number origin.address layout

/-! ## What acts do -/

/-- The state with a value that a factory has just placed. -/
def adopt (state : IntrusiveState α) (block : Block) (layout : Layout) (value : α) :
    IntrusiveState α :=
  let counted : Counted α := ⟨block.address, ⟨1, some layout⟩, value⟩
  { state with
    values := (state.values.enroll counted).2
    handles := state.values.next :: state.handles
    placed := state.placed ++ [counted] }

/-- The state with these handles, to which the count of the value is adjusted. -/
def recount (state : IntrusiveState α) (number : Nat) (counted : Counted α) (handles : List Nat) :
    IntrusiveState α :=
  { state with
    values := state.values.set number
      { counted with refs := { counted.refs with count := handles.count number } }
    handles := handles }

def offers (state : IntrusiveState α) : Act α → Bool
  | .place _ _ | .construct _ _ | .stray => true
  | .handle index _ => state.handles[index]?.isSome
  | .strayed index _ => state.strays[index]?.isSome

/-- What an act does and answers, and what there is afterwards. -/
inductive Turns (type : CountedType α) (state : IntrusiveState α) :
    Act α → List (Deed α) → Answer → IntrusiveState α → Prop
  | unavailable {act : Act α} (hoffers : state.offers act = false) :
    Turns type state act [] .unavailable state
  | oversized {value : α} {total : Nat} (hlayout : CountedValues.dynamicLayout? type total = none) :
    Turns type state (.place value total) [.discard value] (.failed .integerOverflow) state
  | refused {value : α} {total : Nat} {layout : Layout}
      (hlayout : CountedValues.dynamicLayout? type total = some layout) (kind : ErrorKind) :
    Turns type state (.place value total)
      [.allocate layout (.error kind), .discard value] (.failed kind) state
  | placed {value : α} {total : Nat} {layout : Layout}
      (hlayout : CountedValues.dynamicLayout? type total = some layout) {block : Block}
      (hblock : layout.size ≤ block.size) :
    Turns type state (.place value total) [.allocate layout (.ok block)]
      (.handle state.values.next) (state.adopt block layout value)
  | unhoused (build : Spot → Attempt α) (unused : Effect Unit) (kind : ErrorKind) :
    Turns type state (.construct build unused)
      [.allocate type.layout (.error kind), .setAside unused] (.failed kind) state
  | unbuilt (build : Spot → Attempt α) (unused : Effect Unit) (block : Block) (kind : ErrorKind) :
    Turns type state (.construct build unused)
      [.allocate type.layout (.ok block), .build (build (.block block.address)) (.error kind),
        .giveBack block.address type.layout]
      (.failed kind) state
  | built (build : Spot → Attempt α) (unused : Effect Unit) (block : Block) (value : α)
      (hblock : type.layout.size ≤ block.size) :
    Turns type state (.construct build unused)
      [.allocate type.layout (.ok block), .build (build (.block block.address)) (.ok value)]
      (.handle state.values.next) (state.adopt block type.layout value)
  | joined {index number : Nat} {counted : Counted α} {deed : HandleDeed}
      (hindex : state.handles[index]? = some number)
      (hcounted : state.values.find? number = some counted)
      (hdeed : deed = .clone ∨ deed = .fromRef) :
    Turns type state (.handle index deed) [] (.handle number)
      (state.recount number counted (number :: state.handles))
  | parted {index number : Nat} {counted : Counted α}
      (hindex : state.handles[index]? = some number)
      (hcounted : state.values.find? number = some counted)
      (hmany : 1 < state.handles.count number) :
    Turns type state (.handle index .drop) [] .nothing
      (state.recount number counted (state.handles.eraseIdx index))
  /-- The handle was the last one of its value. -/
  | ended {index number : Nat} {counted : Counted α}
      (hindex : state.handles[index]? = some number)
      (hcounted : state.values.find? number = some counted)
      (hlast : state.handles.count number = 1) :
    Turns type state (.handle index .drop) (ending number counted) .nothing
      { state with
        values := state.values.dismiss number
        handles := state.handles.eraseIdx index }
  | copied {index number : Nat} (hindex : state.handles[index]? = some number) :
    Turns type state (.handle index .copyCount) [] .nothing (state.withStray {})
  | stray : Turns type state .stray [] .nothing (state.withStray {})
  | copiedStray {index : Nat} {refs : RefCount} (hindex : state.strays[index]? = some refs) :
    Turns type state (.strayed index .copyCount) [] .nothing (state.withStray {})
  /-- No handle can be made from a reference to a value that no factory has placed. -/
  | unowned {index : Nat} {refs : RefCount} (hindex : state.strays[index]? = some refs) :
    Turns type state (.strayed index .fromRef) [] (.failed .noOwner) state

end IntrusiveState
end Freehold
