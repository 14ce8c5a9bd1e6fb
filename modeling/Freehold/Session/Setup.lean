import Freehold.Outcome
import Freehold.Shelf
import Freehold.Store

/-!
# Setting up a session

A session works with one allocator.  The arenas of stacks and free lists start at
a fixed address, a multiple of every alignment that an arena can meet, and places
in them are told as offsets from there.
-/

namespace Freehold

/-- The allocator of a session.  Regions are spans of offsets. -/
inductive Provision where
  | stack (size skew : Nat)
  | freeList (regions : List Span) (room : Nat)
  | basic (regions : List Span) (room : Nat)
  | heap
  | pages

namespace Provision

def start : Nat := 1 <<< 40

def located (region : Span) : Span := ⟨start + region.start, region.size⟩

/-- The room that the regions need, and at least the given room. -/
def roomFor (regions : List Span) (room : Nat) : Nat :=
  regions.foldr (fun region most => max region.stop most) room

def arena : Provision → Option Span
  | stack size skew => some ⟨start, skew + size⟩
  | freeList regions room | basic regions room => some ⟨start, roomFor regions room⟩
  | heap | pages => none

/-- The machine of the sessions, which has `2 ^ 50` bytes for a request, and places for
alignments below `2 ^ 47`. -/
def host : Host where
  answer met used layout :=
    if 1 <<< 50 ≤ layout.size ∨ 1 <<< 47 ≤ layout.align then none
    else Host.rising.answer met used layout
  yields _ _ _ wanted := decide (wanted < 1 <<< 50)

def backend : Provision → Backend
  | stack size skew => .stack { base := start + skew, capacity := size }
  | freeList _ _ => .freeList {}
  | basic _ _ => .basic {}
  | heap => .heap { host := host }
  | pages => .pages { host := host }

def regions : Provision → List Span
  | freeList regions _ | basic regions _ => regions
  | _ => []

end Provision

structure Setup where
  provision : Provision := .heap
  failing : List Nat := []
  plan : List (Option ErrorKind) := []
  threshold : Level := .warn

namespace Setup

/-- The store in which a session begins; the regions are added in order. -/
def store (setup : Setup) : Store :=
  let blank : Store :=
    { memory := { backend := setup.provision.backend }
      failing := setup.failing
      plan := setup.plan
      threshold := setup.threshold }
  ((setup.provision.regions.forM fun region =>
      Allocator.addRegion (Provision.located region)).run blank).2

end Setup

inductive Whereabouts where
  | offset (distance : Nat)
  | dangling
  | heap
  | outside
  deriving DecidableEq

namespace Whereabouts

/-- A block without bytes dangles; any other lies in the arena, outside of it, or,
where there is no arena, on the heap. -/
def locate (arena : Option Span) (address size : Nat) : Whereabouts :=
  if size = 0 then dangling
  else
    match arena with
    | none => heap
    | some span => if address ∈ span then offset (address - span.start) else outside

def shown : Whereabouts → Shown
  | offset distance => .count distance
  | dangling => .text "dangling"
  | heap => .text "heap"
  | outside => .text "outside"

end Whereabouts
end Freehold
