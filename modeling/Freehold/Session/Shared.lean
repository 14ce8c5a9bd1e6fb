import Freehold.Session.Report
import Freehold.Session.Pointee

/-!
# Sessions with shared ownership

Shared and weak handles of values of several types are kept under names.  A new
handle takes the place of the one that was there, which is given up afterwards.
-/

namespace Freehold

inductive SharedAction where
  | create (kind : PointeeKind) (value : Int) (founding : Founding)
  | emptyShared
  | emptyWeak
  | clone (other : String)
  | downgrade (other : String)
  | lock (other : String)
  | drop
  | reset
  | get
  | tryGet
  | deref
  | debug
  | whereabouts
  | map (other : String) (name : ViewName)
  | same (other : String)
  | ownerCompare (other : String)
  | ownerBefore (other : String)
  | sharedFromThis (other : String)
  | weakFromThis (other : String)
  | cloneThis
  | unlinked
  | unknown

structure SharedStep where
  slot : String
  other : String
  action : SharedAction

inductive Grip where
  | shared (hold : Hold Sight)
  | weak (hold : Hold Sight)

namespace Grip

def hold : Grip → Hold Sight
  | shared hold | weak hold => hold

end Grip

structure SharedTable where
  groups : Groups Pointee := {}
  grips : Shelf Grip := {}

namespace SharedSession

def giveUp (groups : Groups Pointee) : Grip → Effect (Groups Pointee)
  | .shared hold => groups.resetShared Pointee.type hold
  | .weak hold => groups.resetWeak hold

def keep (table : SharedTable) (slot : String) (grip : Grip) (groups : Groups Pointee) :
    Effect (Outcome × SharedTable) := do
  let grips := table.grips.put slot grip
  match table.grips.find? slot with
  | none => pure (.done .nothing, { groups := groups, grips := grips })
  | some old => do
    let groups ← giveUp groups old
    pure (.done .nothing, { groups := groups, grips := grips })

/-- Founds a group around a value that is made first or built in place. -/
def found (groups : Groups Pointee) (kind : PointeeKind) (value : Int)
    (founding : Founding) : Attempt (Nat × Groups Pointee) :=
  if founding.constructed then
    groups.found Pointee.type founding kind.layout (kind.build value) (pure ())
  else do
    let made ← kind.make value
    groups.found Pointee.type founding kind.layout (fun _ => pure made) made.destroy

/-- Keeps a handle that may not have come about. -/
def keepAnswer (table : SharedTable) (other : String)
    (answer : Except ErrorKind (Hold Sight × Groups Pointee)) :
    Effect (Outcome × SharedTable) :=
  match answer with
  | .error kind => pure (.failed kind, table)
  | .ok (hold, groups) => keep table other (.shared hold) groups

def orderShown : Ordering → Shown
  | .lt => .number (-1)
  | .eq => .number 0
  | .gt => .number 1

/-- Where the bytes are that a view shows. -/
def whereabouts (arena : Option Span) (group : Group Pointee) (number : Nat)
    (pointee : Pointee) (view : View) : Shown :=
  let size := view.size pointee
  match view.seat number group.place pointee with
  | .address place => (Whereabouts.locate arena place size).shown
  | .text _ _ =>
    if size = 0 then Whereabouts.dangling.shown
    else if arena.isSome then Whereabouts.outside.shown
    else Whereabouts.heap.shown

def seatOf (table : SharedTable) (hold : Hold Sight) : Option Seat :=
  hold.bind fun reference =>
    (table.groups.get? hold).map fun (group, pointee, sight) =>
      sight.view.seat reference.group group.place pointee

/-- Shows what a shared handle gives access to, or tells the given outcome. -/
def look (table : SharedTable) (hold : Hold Sight) (missing : Outcome) : Outcome :=
  match table.groups.get? hold with
  | none => missing
  | some (_, pointee, sight) => .done (sight.shown pointee)

/-- Does something with the number and the value of the node behind a handle. -/
def withNode (table : SharedTable) (hold : Hold Sight)
    (use : Nat → Pointee → Effect (Outcome × SharedTable)) : Effect (Outcome × SharedTable) :=
  match hold, table.groups.get? hold with
  | some reference, some (_, .node object linked, _) =>
    use reference.group (.node object linked)
  | _, _ => pure (.refused .notApplicable, table)

def cloneShown : Shown :=
  .items [.text (Seen.linkText false), .text ErrorKind.emptyPointer.name, .flag true]

def unlinkedShown : Effect Shown := do
  let object ← PointeeKind.nodeObject.born (.number 0)
  let node := Pointee.node object false
  let nobody : Groups Pointee := {}
  let fromThis := nobody.sharedFromThis Pointee.type ({} : Sight) 0 node
  let weak := (nobody.weakFromThis Pointee.type ({} : Sight) 0 node).1
  node.destroy
  let name :=
    match fromThis with
    | .error kind => Shown.text kind.name
    | .ok _ => .nothing
  pure (.items [name, .flag weak.isNone])

def actShared (arena : Option Span) (table : SharedTable) (slot : String)
    (hold : Hold Sight) : SharedAction → Effect (Outcome × SharedTable)
  | .clone other => keep table other (.shared hold) (table.groups.cloneShared hold)
  | .downgrade other => keep table other (.weak hold) (table.groups.cloneWeak hold)
  | .reset => do
    let groups ← table.groups.resetShared Pointee.type hold
    pure (.done .nothing,
      { groups := groups, grips := table.grips.put slot (.shared none) })
  | .get => pure (look table hold (.done .nothing), table)
  | .tryGet => pure (look table hold (.failed .emptyPointer), table)
  | .deref => pure (look table hold (.trapped Groups.emptyTrap), table)
  | .debug =>
    match table.groups.get? hold with
    | none => pure (.done (.text "SharedPtr(empty)"), table)
    | some (_, pointee, sight) => pure (.done (.text (sight.print pointee)), table)
  | .whereabouts =>
    match hold, table.groups.get? hold with
    | some reference, some (group, pointee, sight) =>
      pure (.done (whereabouts arena group reference.group pointee sight.view), table)
    | _, _ => pure (.done .nothing, table)
  | .map other name =>
    let (view, groups) := table.groups.filterMap (Pointee.derive? name) hold
    keep table other (.shared view) groups
  | .same other =>
    match table.grips.find? other with
    | some (.shared second) =>
      let same := seatOf table hold == seatOf table second
      pure (.done (.flag same), table)
    | some (.weak _) => pure (.refused .notApplicable, table)
    | none => pure (.refused .noSuchSlot, table)
  | .sharedFromThis other =>
    withNode table hold fun number node =>
      keepAnswer table other (table.groups.sharedFromThis Pointee.type {} number node)
  | .weakFromThis other =>
    withNode table hold fun number node =>
      let (weak, groups) := table.groups.weakFromThis Pointee.type {} number node
      keep table other (.weak weak) groups
  | .cloneThis => withNode table hold fun _ _ => pure (.done cloneShown, table)
  | _ => pure (.refused .notApplicable, table)

def actWeak (table : SharedTable) (slot : String) (hold : Hold Sight) :
    SharedAction → Effect (Outcome × SharedTable)
  | .clone other => keep table other (.weak hold) (table.groups.cloneWeak hold)
  | .lock other => keepAnswer table other (table.groups.lock hold)
  | .reset => do
    let groups ← table.groups.resetWeak hold
    pure (.done .nothing, { groups := groups, grips := table.grips.put slot (.weak none) })
  | .debug =>
    let count := toString (table.groups.useCount hold)
    pure (.done (.text s!"WeakPtr \x7b use_count: {count}, .. \x7d"), table)
  | _ => pure (.refused .notApplicable, table)

/-- Steps that treat shared and weak handles alike. -/
def act (arena : Option Span) (table : SharedTable) (slot : String) (grip : Grip)
    (action : SharedAction) : Effect (Outcome × SharedTable) :=
  match action with
  | .drop => do
    let groups ← giveUp table.groups grip
    pure (.done .nothing, { groups := groups, grips := table.grips.remove slot })
  | .ownerCompare other =>
    match table.grips.find? other with
    | none => pure (.refused .noSuchSlot, table)
    | some second =>
      let order := table.groups.ownerCompare grip.hold second.hold
      pure (.done (orderShown order), table)
  | .ownerBefore other =>
    match table.grips.find? other with
    | none => pure (.refused .noSuchSlot, table)
    | some second =>
      pure (.done (.flag (table.groups.ownerBefore grip.hold second.hold)), table)
  | action =>
    match grip with
    | .shared hold => actShared arena table slot hold action
    | .weak hold => actWeak table slot hold action

def carryOut (arena : Option Span) (step : SharedStep) (table : SharedTable) :
    Effect (Outcome × SharedTable) :=
  match step.action with
  | .unknown => pure (.refused .noSuchStep, table)
  | .create kind value founding => do
    match ← (found table.groups kind value founding).run with
    | .error kind => pure (.failed kind, table)
    | .ok (number, groups) => keep table step.slot (.shared (some ⟨number, {}⟩)) groups
  | .emptyShared => keep table step.slot (.shared none) table.groups
  | .emptyWeak => keep table step.slot (.weak none) table.groups
  | .unlinked => do
    let shown ← unlinkedShown
    pure (.done shown, table)
  | action =>
    match table.grips.find? step.slot with
    | none => pure (.refused .noSuchSlot, table)
    | some grip => act arena table step.slot grip action

/-- The handle under the other name makes way for the result of a step, and is given
up if the step trips a trap. -/
def makeWay (table : SharedTable) (step : SharedStep) : Effect SharedTable :=
  match table.grips.find? step.other with
  | none => pure table
  | some grip =>
    if step.other = step.slot then pure table
    else do
      let groups ← giveUp table.groups grip
      pure { groups := groups, grips := table.grips.remove step.other }

def step (arena : Option Span) (step : SharedStep) (table : SharedTable) :
    Effect (Outcome × SharedTable) := do
  match ← carryOut arena step table with
  | (.trapped trap, table) => do
    let table ← makeWay table step
    pure (.trapped trap, table)
  | result => pure result

/-- The counts of the handle under a name, and whether it is empty or expired. -/
def note (table : SharedTable) (label slot : String) : List (String × Shown) :=
  match table.grips.find? slot with
  | none => []
  | some grip =>
    let counts :=
      [Shown.count (table.groups.useCount grip.hold),
        .count (table.groups.weakCountOf grip.hold), .flag grip.hold.isNone]
    let expired :=
      match grip with
      | .shared _ => []
      | .weak hold => [Shown.flag (table.groups.expired hold)]
    [(label, .items (counts ++ expired))]

def notes (step : SharedStep) (table : SharedTable) : List (String × Shown) :=
  note table "s" step.slot ++ note table "to" step.other

def giveUpAll (groups : Groups Pointee) : List Grip → Effect Unit
  | [] => pure ()
  | grip :: rest => do
    let groups ← giveUp groups grip
    giveUpAll groups rest

def session (arena : Option Span) : Session SharedStep SharedTable where
  step := step arena
  notes := notes
  finish table := giveUpAll table.groups table.grips.values

def report (setup : Setup) (steps : List SharedStep) : Shown :=
  let arena := setup.provision.arena
  (session arena).reports setup {} steps (Report.full arena)

end SharedSession
end Freehold
