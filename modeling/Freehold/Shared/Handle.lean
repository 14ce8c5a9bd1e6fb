import Freehold.Outcome
import Freehold.Shared.Group

/-!
# Shared and weak handles

A handle is empty or refers to a group together with a view of its value: the
whole value or a part of it.  Views are derived from shared handles and share the
ownership of the whole.

Handles are ordered by their owners: the address of the control block, which is
zero for an empty handle.  Two handles are equal in this order when both are empty
or both belong to one group, whatever they view.
-/

namespace Freehold

structure Reference (ν : Type) where
  group : Nat
  view : ν
  deriving DecidableEq

/-- A shared or weak handle; an empty one refers to nothing. -/
abbrev Hold (ν : Type) : Type := Option (Reference ν)

namespace Groups

variable {α ν : Type}

def useCount (groups : Groups α) : Hold ν → Nat
  | none => 0
  | some reference => groups.sharedCount reference.group

def weakCountOf (groups : Groups α) : Hold ν → Nat
  | none => 0
  | some reference => groups.weakCount reference.group

def expired (groups : Groups α) (handle : Hold ν) : Bool :=
  groups.useCount handle == 0

def cloneShared (groups : Groups α) : Hold ν → Groups α
  | none => groups
  | some reference => groups.recount reference.group Counts.acquireShared

def cloneWeak (groups : Groups α) : Hold ν → Groups α
  | none => groups
  | some reference => groups.recount reference.group Counts.acquireWeak

def resetShared (type : SharedType α) (groups : Groups α) :
    Hold ν → Effect (Groups α)
  | none => pure groups
  | some reference => groups.releaseShared type reference.group

def resetWeak (groups : Groups α) : Hold ν → Effect (Groups α)
  | none => pure groups
  | some reference => groups.releaseWeak reference.group

def lock (groups : Groups α) : Hold ν → Except ErrorKind (Hold ν × Groups α)
  | none => .error .emptyPointer
  | some reference =>
    match (groups.find? reference.group).bind fun group => group.counts.upgrade? with
    | none => .error .pointerExpired
    | some _ =>
      .ok (some reference, groups.recount reference.group Counts.acquireShared)

/-- The value that a handle gives access to, with the view it has of it. -/
def get? (groups : Groups α) : Hold ν → Option (Group α × α × ν)
  | none => none
  | some reference =>
    match groups.find? reference.group with
    | none => none
    | some group => group.value.map fun value => (group, value, reference.view)

def filterMap (groups : Groups α) (choose : α → ν → Option ν) (handle : Hold ν) :
    Hold ν × Groups α :=
  match handle, groups.get? handle with
  | some reference, some (_, value, view) =>
    match choose value view with
    | none => (none, groups)
    | some chosen =>
      (some { reference with view := chosen }, groups.cloneShared handle)
  | _, _ => (none, groups)

/-- A shared handle of the group of a value, by the weak handle in the value. -/
def sharedFromThis (type : SharedType α) (groups : Groups α) (view : ν) (number : Nat)
    (value : α) : Except ErrorKind (Hold ν × Groups α) :=
  groups.lock (if type.linked value then some ⟨number, view⟩ else none)

def weakFromThis (type : SharedType α) (groups : Groups α) (view : ν) (number : Nat)
    (value : α) : Hold ν × Groups α :=
  let handle : Hold ν := if type.linked value then some ⟨number, view⟩ else none
  (handle, groups.cloneWeak handle)

def owner (groups : Groups α) : Hold ν → Nat
  | none => 0
  | some reference =>
    ((groups.find? reference.group).map fun group => group.block).getD 0

def ownerBefore (groups : Groups α) (first second : Hold ν) : Bool :=
  decide (groups.owner first < groups.owner second)

def ownerCompare (groups : Groups α) (first second : Hold ν) : Ordering :=
  compare (groups.owner first) (groups.owner second)

def emptyTrap : Trap := { message := "dereferencing an empty SharedPtr" }

end Groups
end Freehold
