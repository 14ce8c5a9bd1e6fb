import Freehold.Diagnostics.Level
import Freehold.Memory.Block
import Freehold.Spot

/-!
# The record of a run

Everything that a run does apart from its answers is one list of entries in the
order in which it happened: what befell objects, what was logged, what was asked
of the allocator and which values were moved by a relocation of their own.
-/

namespace Freehold

/-- What befell an object, or a remark that code outside of the library makes. -/
inductive Event where
  | created (serial : Nat) (value : Int)
  | completed (serial : Nat) (value : Int)
  | moved (serial : Nat)
  | dropped (serial : Nat) (value : Int)
  | createdUnit
  | droppedUnit
  | remark (text : String)

/-- One request to the allocator with its answer. -/
inductive Call where
  | allocate (layout : Layout) (answer : Except ErrorKind Block)
  | expand (address size wanted : Nat) (answer : Except ErrorKind Nat)
  | reallocate (address size wanted : Nat) (answer : Except ErrorKind Block)
  | deallocate (address : Nat) (layout : Layout)
  | advise (address count : Nat) (hint : UsageHint)

namespace Call

/-- How a call changes the number of live blocks. -/
def balance : Call → Int
  | allocate _ (.ok block) => if block.size = 0 then 0 else 1
  | deallocate _ layout => if layout.size = 0 then 0 else -1
  | _ => 0

end Call

inductive Entry where
  | event (event : Event)
  | log (level : Level) (message : String)
  | call (call : Call)
  | relocation (source target : Spot)

namespace Entry

def event? : Entry → Option Event
  | event happening => some happening
  | _ => none

def log? : Entry → Option (Level × String)
  | log level message => some (level, message)
  | _ => none

def call? : Entry → Option Call
  | call request => some request
  | _ => none

def relocation? : Entry → Option (Spot × Spot)
  | relocation source target => some (source, target)
  | _ => none

end Entry

/-- Blocks obtained and not given back, empty ones not counted. -/
def liveBlocks (entries : List Entry) : Int :=
  entries.foldr (fun entry live => ((entry.call?.map Call.balance).getD 0) + live) 0

end Freehold
