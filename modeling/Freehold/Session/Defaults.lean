import Freehold.Intrusive
import Freehold.Session.Shared
import Freehold.Session.Staged
import Freehold.Session.Vector

/-!
# Constructors with the global heap

Each of these is a small session of its own: a container is made on the global
heap, something is read from it, and it is destroyed again.
-/

namespace Freehold

inductive DefaultConstructor where
  | shared (founding : Founding)
  | sharedLinked
  | uniqueNew
  | uniqueConstruct
  | vecNew
  | vecDefault
  | staged (storage : Storage)
  | refCount
  deriving Inhabited

namespace DefaultConstructor

def object : Leaf := Catalogue.factory

def sharedCounts (founding : Founding) (value : Int) : Attempt Shown := do
  let kind := PointeeKind.object object
  let (number, groups) ← SharedSession.found {} kind value founding
  let counts : List Shown :=
    [.exact value, .exact (groups.sharedCount number), .exact (groups.weakCount number)]
  let _ ← groups.releaseShared Pointee.type number
  pure (.items counts)

/-- What a linked node knows while it has handed out handles of itself: whether the
shared one views the node, the counts, and its value. -/
def linkedCounts (value : Int) : Attempt Shown := do
  let (number, founded) ←
    SharedSession.found {} .node value { combined := true, linked := true }
  let handle : Hold Sight := some ⟨number, {}⟩
  let node := Pointee.node { datum := .number value } true
  let (owner, groups) ←
    Attempt.ofExcept (founded.sharedFromThis Pointee.type ({} : Sight) number node)
  let (weak, groups) := groups.weakFromThis Pointee.type ({} : Sight) number node
  let told := Shown.items
    [.flag (owner == handle), .exact (groups.sharedCount number),
      .exact (groups.weakCount number), .exact value]
  let groups ← groups.resetWeak weak
  let groups ← groups.resetShared Pointee.type owner
  let _ ← groups.resetShared Pointee.type handle
  pure told

def uniqueValue (attempt : Attempt (Unique Piece)) : Attempt Shown := do
  let owner ← attempt
  owner.drop object.element
  pure owner.value.datum.shown

def number (piece : Piece) : Shown := piece.datum.shown

def emplaced (value : Int) : Attempt Shown := do
  let element := Catalogue.i64.element
  let (answer, vec) ←
    (Vec.empty element).emplace element Catalogue.i64.builder (.number value)
  let shown := (vec.toList.head?.map number).getD .nothing
  vec.drop element
  Attempt.ofExcept answer
  pure shown

def pushed (value : Int) : Attempt Shown := do
  let element := Catalogue.i64.element
  let vec ← (Vec.empty element).push element { datum := .number value }
  let first := (vec.toList.head?.map number).getD .nothing
  vec.drop element
  pure (.items [.count vec.length, .count vec.capacity, first])

def completed (storage : Storage) : Attempt Shown := do
  let element := Leaf.phased.element
  let wrapper ← (Staged.empty storage).init element Leaf.phased.phases (.own "wrapper")
  wrapper.drop element
  pure ((wrapper.content.map number).getD .nothing)

def fresh : Shown :=
  let refs : RefCount := {}
  .items [.exact refs.count, .flag refs.hasOwner, .flag refs.owner.isNone]

def attempt (constructor : DefaultConstructor) (value : Int) : Attempt Shown :=
  match constructor with
  | shared founding => sharedCounts founding value
  | sharedLinked => linkedCounts value
  | uniqueNew =>
    uniqueValue do
      let piece ← object.born (.number value)
      Unique.new object.element piece
  | uniqueConstruct =>
    uniqueValue (Unique.construct object.element object.builder (.number value))
  | vecNew => emplaced value
  | vecDefault => pushed value
  | staged storage => completed storage
  | refCount => pure fresh

def report (constructor : DefaultConstructor) (value : Int) (setup : Setup) : Shown :=
  let (answer, store) := (constructor.attempt value).run.run setup.store
  (Session.observe 0 (some (Outcome.ofExcept id answer)) [] store).1.light

end DefaultConstructor
end Freehold
