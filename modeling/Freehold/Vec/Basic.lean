import Freehold.Outcome
import Freehold.Vec.Buffer

/-!
# Vectors

The operations of a growable vector.  Each one either does what it says or fails
and leaves the elements as they were; a value that was handed over to a failing
operation is destroyed.  Only `emplace` can fail after it has grown the buffer,
so it answers with the vector in both cases.

Inside the buffer, bitwise elements are shifted all at once.  Other elements are
relocated one slot at a time, starting at the free end: from the last one
downwards to open a gap, from the gap upwards to close it.
-/

namespace Freehold
namespace Vec

variable {α β : Type}

def append (vec : Vec α) (value : α) : Vec α :=
  { vec with length := vec.length + 1, slots := vec.slots.write vec.length value }

def push (element : Element α) (vec : Vec α) (value : α) : Attempt (Vec α) := do
  let vec ← Attempt.undoing (vec.growForOne element) (element.destroy value)
  pure (vec.append value)

/-- Builds an element in the slot after the last one.  The buffer stays grown if
the element cannot be built. -/
def emplace (element : Element α) (builder : Builder β α) (vec : Vec α) (args : β) :
    Effect (Except ErrorKind Unit × Vec α) := do
  match ← (vec.growForOne element).run with
  | .error kind => pure (.error kind, vec)
  | .ok vec => do
    match ← (builder.constructAt (.slot vec.buffer vec.length) args).run with
    | .error kind => pure (.error kind, vec)
    | .ok value => pure (.ok (), vec.append value)

def moveSlot (element : Element α) (buffer source target : Nat) (slots : Slots α) :
    Effect (Slots α) := do
  match slots.read source with
  | none => pure slots
  | some value => do
    let value ←
      element.relocateRecorded (.slot buffer source) (.slot buffer target) value
    pure ((slots.clear source).write target value)

/-- Moves `count` slots from `index` on up by one, the last one first. -/
def shiftUp (element : Element α) (buffer index : Nat) : Nat → Slots α → Effect (Slots α)
  | 0, slots => pure slots
  | count + 1, slots => do
    let slots ← moveSlot element buffer (index + count) (index + count + 1) slots
    shiftUp element buffer index count slots

/-- Moves `count` slots after `index` down by one, the first one first. -/
def shiftDown (element : Element α) (buffer index : Nat) : Nat → Slots α → Effect (Slots α)
  | 0, slots => pure slots
  | count + 1, slots => do
    let slots ← moveSlot element buffer (index + 1) index slots
    shiftDown element buffer (index + 1) count slots

/-- Leaves the slot at `index` free and moves the elements from there on up. -/
def openGap (element : Element α) (vec : Vec α) (index : Nat) : Effect (Slots α) :=
  if element.bitwise then
    pure (vec.slots.shift index (index + 1) (vec.length - index))
  else shiftUp element vec.buffer index (vec.length - index) vec.slots

/-- Moves the elements after the free slot at `index` down. -/
def closeGap (element : Element α) (vec : Vec α) (index : Nat) : Effect (Slots α) :=
  let slots := vec.slots.clear index
  if element.bitwise then
    pure (slots.shift (index + 1) index (vec.length - index - 1))
  else shiftDown element vec.buffer index (vec.length - index - 1) slots

def insert (element : Element α) (vec : Vec α) (index : Nat) (value : α) :
    Attempt (Vec α) := do
  if vec.length < index then
    element.destroy value
    throw .outOfRange
  else
    let vec ← Attempt.undoing (vec.growForOne element) (element.destroy value)
    let slots ← vec.openGap element index
    pure { vec with length := vec.length + 1, slots := slots.write index value }

def remove (element : Element α) (vec : Vec α) (index : Nat) : Attempt (α × Vec α) :=
  if index < vec.length then
    match vec.slots.read index with
    | none => throw .outOfRange
    | some value => do
      let slots ← vec.closeGap element index
      pure (value, { vec with length := vec.length - 1, slots := slots })
  else throw .outOfRange

def pop (vec : Vec α) : Option (α × Vec α) :=
  if vec.length = 0 then none
  else
    let last := vec.length - 1
    (vec.slots.read last).map fun value =>
      (value, { vec with length := last, slots := vec.slots.clear last })

def tryPop (vec : Vec α) : Except ErrorKind (α × Vec α) :=
  match vec.pop with
  | none => .error .containerEmpty
  | some popped => .ok popped

def get? (vec : Vec α) (index : Nat) : Option α :=
  if index < vec.length then vec.slots.read index else none

def replace? (vec : Vec α) (index : Nat) (value : α) : Option (α × Vec α) :=
  (vec.get? index).map fun old => (old, { vec with slots := vec.slots.write index value })

def outOfBounds (length index : Nat) : Trap :=
  let length := toString length
  let index := toString index
  { condition := "index < self.len"
    message := s!"index {index} out of bounds for vector of length {length}" }

def tryGet (vec : Vec α) (index : Nat) : Except ErrorKind α :=
  match vec.get? index with
  | none => .error .outOfBounds
  | some value => .ok value

/-- The element at an index, which has to be there. -/
def indexed (vec : Vec α) (index : Nat) : Except Trap α :=
  match vec.get? index with
  | none => .error (outOfBounds vec.length index)
  | some value => .ok value

/-- Buffers of this many bytes are given back to the system when cleared. -/
def discardThreshold : Nat := 65536

def clear (element : Element α) (vec : Vec α) : Effect (Vec α) := do
  element.destroyAll vec.toList
  match vec.bufferLayout? element with
  | none => pure ()
  | some held =>
    if discardThreshold ≤ held.size then Allocator.advise vec.buffer held.size .dontNeed
    else pure ()
  pure { vec with length := 0, slots := #[] }

def drop (element : Element α) (vec : Vec α) : Effect Unit := do
  element.destroyAll vec.toList
  match vec.bufferLayout? element with
  | none => pure ()
  | some held => Allocator.deallocate vec.buffer held

def reverse (vec : Vec α) : Vec α :=
  { vec with slots := .ofList vec.toList.reverse }

/-- The vector after its user has settled the element at `index` by hand. -/
def settleAt (element : Element α) (vec : Vec α) (index : Nat) : Vec α :=
  match vec.get? index with
  | none => vec
  | some value =>
    { vec with
      slots := vec.slots.write index (element.settle (.slot vec.buffer index) value) }

def settleAll (element : Element α) (vec : Vec α) : Vec α :=
  { vec with
    slots := vec.slots.mapLive fun index => element.settle (.slot vec.buffer index) }

/-- Copies the listed values to the end of a copy under construction, which is
dropped if one of them cannot be copied. -/
def copyAll (element : Element α) (copier : Copier α) (copy : Vec α) :
    List α → Attempt (Vec α)
  | [] => pure copy
  | value :: rest => do
    let fresh ←
      Attempt.undoing (copier.cloneAt (.slot copy.buffer copy.length) value)
        (copy.drop element)
    copyAll element copier (copy.append fresh) rest

def clone (element : Element α) (copier : Copier α) (vec : Vec α) : Attempt (Vec α) := do
  let copy ← (empty element).reserve element vec.length
  copyAll element copier copy vec.toList

/-- Pushes values that are made one by one onto a vector under construction. -/
def pushAll (element : Element α) (make : β → Attempt α) (vec : Vec α) :
    List β → Attempt (Vec α)
  | [] => pure vec
  | args :: rest => do
    let grown ←
      Attempt.undoing
        (do
          let value ← make args
          vec.push element value)
        (vec.drop element)
    pushAll element make grown rest

def ofArguments (element : Element α) (make : β → Attempt α) (args : List β) :
    Attempt (Vec α) := do
  let vec ← (empty element).reserve element args.length
  pushAll element make vec args

end Vec
end Freehold
