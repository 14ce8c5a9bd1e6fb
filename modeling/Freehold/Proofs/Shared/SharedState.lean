import Freehold.Shared.Handle
import Freehold.Proofs.Shared.Dues

/-!
# States of shared ownership

A state has all the groups of a run and all the handles that refer to them.  It keeps how
every group was founded, in the order of the numbers of the groups, and a ledger of what
the groups have done to the store.  An act is one operation on one handle, or the founding
of a group; a handle is named by its place among the handles of its kind.
-/

namespace Freehold

namespace Hold

variable {ν : Type}

def refersTo (number : Nat) : Hold ν → Bool
  | none => false
  | some reference => reference.group == number

end Hold

/-- What can be done with a shared handle. -/
inductive SharedDeed (α ν : Type) where
  | clone
  | reset
  | drop
  | downgrade
  | filterMap (choose : α → ν → Option ν)
  | sharedFromThis (view : ν)
  | weakFromThis (view : ν)

inductive WeakDeed where
  | clone
  | reset
  | drop
  | lock

inductive Act (α ν : Type) where
  | found (founding : Founding) (layout : Layout) (build : Spot → Attempt α)
      (unused : Effect Unit) (view : ν)
  | emptyShared
  | emptyWeak
  | shared (index : Nat) (deed : SharedDeed α ν)
  | weak (index : Nat) (deed : WeakDeed)

namespace Act

variable {α ν : Type}

/-- A value is not linked before it is owned, and it is linked once it has been given
a weak handle of its group. -/
def Proper (type : SharedType α) : Act α ν → Prop
  | found founding _ build _ _ =>
    ∀ spot store value store', build spot store = (.ok value, store') →
      type.linked value = false ∧ (founding.linked → type.linked (type.link value) = true)
  | _ => True

def isFounding : Act α ν → Bool
  | found _ _ _ _ _ => true
  | _ => false

end Act

structure SharedState (α ν : Type) where
  groups : Groups α := {}
  shared : List (Hold ν) := []
  weak : List (Hold ν) := []
  founded : List (Group α) := []
  ledger : List (Nat × Duty α) := []

namespace SharedState

variable {α ν : Type}

def sharedOf (state : SharedState α ν) (number : Nat) : Nat :=
  state.shared.countP (Hold.refersTo number)

def weakOf (state : SharedState α ν) (number : Nat) : Nat :=
  state.weak.countP (Hold.refersTo number)

def ledgerOf (state : SharedState α ν) (number : Nat) : List (Duty α) :=
  (state.ledger.filter fun entry => entry.1 == number).map Prod.snd

/-- The weak handle in the value of a group, where there is one. -/
def innerOf (type : SharedType α) (state : SharedState α ν) (number : Nat) : Nat :=
  ((state.groups.find? number).map (Group.inner type)).getD 0

def withShared (state : SharedState α ν) (hold : Hold ν) (groups : Groups α) : SharedState α ν :=
  { state with groups := groups, shared := hold :: state.shared }

def withWeak (state : SharedState α ν) (hold : Hold ν) (groups : Groups α) : SharedState α ν :=
  { state with groups := groups, weak := hold :: state.weak }

def keepShared (state : SharedState α ν) : Except ErrorKind (Hold ν × Groups α) → SharedState α ν
  | .error _ => state
  | .ok (hold, groups) => state.withShared hold groups

/-- What falls due in a group when a handle of it goes. -/
def duesOf (dues : Group α → List (Duty α)) (state : SharedState α ν) :
    Hold ν → List (Nat × Duty α)
  | none => []
  | some reference =>
    match state.groups.find? reference.group with
    | none => []
    | some group => (dues group).map fun duty => (reference.group, duty)

def loseShared (type : SharedType α) (state : SharedState α ν) (hold : Hold ν)
    (left : List (Hold ν)) : Effect (SharedState α ν) := do
  let groups ← state.groups.resetShared type hold
  pure { state with
    groups := groups
    shared := left
    ledger := state.ledger ++ state.duesOf (Group.sharedDues type) hold }

def loseWeak (state : SharedState α ν) (hold : Hold ν) (left : List (Hold ν)) :
    Effect (SharedState α ν) := do
  let groups ← state.groups.resetWeak hold
  pure { state with
    groups := groups
    weak := left
    ledger := state.ledger ++ state.duesOf Group.weakDues hold }

def actShared (type : SharedType α) (state : SharedState α ν) (index : Nat) (hold : Hold ν) :
    SharedDeed α ν → Effect (SharedState α ν)
  | .clone => pure (state.withShared hold (state.groups.cloneShared hold))
  | .reset => state.loseShared type hold (state.shared.set index none)
  | .drop => state.loseShared type hold (state.shared.eraseIdx index)
  | .downgrade => pure (state.withWeak hold (state.groups.cloneWeak hold))
  | .filterMap choose =>
    let (fresh, groups) := state.groups.filterMap choose hold
    pure (state.withShared fresh groups)
  | .sharedFromThis view =>
    match hold, state.groups.get? hold with
    | some reference, some (_, value, _) =>
      pure (state.keepShared
        (state.groups.sharedFromThis type view reference.group value))
    | _, _ => pure state
  | .weakFromThis view =>
    match hold, state.groups.get? hold with
    | some reference, some (_, value, _) =>
      let (fresh, groups) := state.groups.weakFromThis type view reference.group value
      pure (state.withWeak fresh groups)
    | _, _ => pure state

def actWeak (state : SharedState α ν) (index : Nat) (hold : Hold ν) :
    WeakDeed → Effect (SharedState α ν)
  | .clone => pure (state.withWeak hold (state.groups.cloneWeak hold))
  | .reset => state.loseWeak hold (state.weak.set index none)
  | .drop => state.loseWeak hold (state.weak.eraseIdx index)
  | .lock => pure (state.keepShared (state.groups.lock hold))

def act (type : SharedType α) (state : SharedState α ν) : Act α ν → Effect (SharedState α ν)
  | .found founding layout build unused view => do
    match ← (state.groups.found type founding layout build unused).run with
    | .error _ => pure state
    | .ok (number, groups) =>
      pure { state.withShared (some ⟨number, view⟩) groups with
        founded := state.founded ++ (groups.find? number).toList }
  | .emptyShared => pure (state.withShared none state.groups)
  | .emptyWeak => pure (state.withWeak none state.groups)
  | .shared index deed =>
    match state.shared[index]? with
    | none => pure state
    | some hold => state.actShared type index hold deed
  | .weak index deed =>
    match state.weak[index]? with
    | none => pure state
    | some hold => state.actWeak index hold deed

def run (type : SharedType α) (state : SharedState α ν) : List (Act α ν) → Effect (SharedState α ν)
  | [] => pure state
  | act :: later => do
    let next ← state.act type act
    next.run type later

/-- What is read from the handles of a state agrees with the handles that there are, and
each group has done exactly what falls due without the handles that are gone. -/
structure Accounted (type : SharedType α) (state : SharedState α ν) : Prop where
  useCount_eq : ∀ reference, some reference ∈ state.shared ∨ some reference ∈ state.weak →
    state.groups.useCount (some reference) = state.sharedOf reference.group
  weakCount_eq : ∀ reference, some reference ∈ state.shared ∨ some reference ∈ state.weak →
    state.groups.weakCountOf (some reference) =
      state.weakOf reference.group + state.innerOf type reference.group
  lock_ok : ∀ reference, some reference ∈ state.weak → 0 < state.sharedOf reference.group →
    ∃ groups, state.groups.lock (some reference) = .ok (some reference, groups)
  lock_error : ∀ reference, some reference ∈ state.weak → state.sharedOf reference.group = 0 →
    state.groups.lock (some reference) = .error .pointerExpired
  settled : ∀ number origin, state.founded[number]? = some origin →
    ∃ value counts, origin.value = some value ∧ counts.shared = 0 ∧
      state.ledgerOf number =
        (if state.sharedOf number = 0 then .destroy counts value :: origin.ownDuties
          else []) ++
        (if state.sharedOf number = 0 ∧ state.weakOf number = 0 then [origin.blockDuty]
          else [])

end SharedState
end Freehold
