import Freehold.Memory.Block

/-!
# Stack arenas

A stack arena hands out memory from one buffer by advancing an offset and never
searches.  It remembers where the most recent block starts, and only that block
can be grown in place or given back.  Every other block keeps its memory until
the whole arena is reset.
-/

namespace Freehold

structure StackArena where
  base : Nat
  capacity : Nat
  used : Nat := 0
  last : Option Nat := none
  deriving DecidableEq

namespace StackArena

def remaining (arena : StackArena) : Nat := arena.capacity - arena.used

def reset (arena : StackArena) : StackArena :=
  { arena with used := 0, last := none }

def padding (address align : Nat) : Nat :=
  Word.roundUp address align - address

def exhausted (needed left : Nat) : String :=
  let needed := toString needed
  let left := toString left
  s!"stack allocator exhausted: need {needed} bytes, {left} remaining"

def allocate (arena : StackArena) (layout : Layout) :
    Except Refusal (Block × StackArena) :=
  if layout.size = 0 then .ok (.dangling layout.align, arena)
  else
    match Word.add? arena.used (padding (arena.base + arena.used) layout.align) with
    | none => .error { kind := .allocationFailed }
    | some start =>
      match Word.add? start layout.size with
      | none => .error { kind := .allocationFailed }
      | some stop =>
        if arena.capacity < stop then
          .error
            { kind := .allocationFailed
              remark := some (exhausted (stop - arena.used) arena.remaining) }
        else
          .ok (⟨arena.base + start, layout.size⟩,
            { arena with used := stop, last := some start })

/-- The offset of an address in the arena; an address below the base has none. -/
def offset? (arena : StackArena) (address : Nat) : Option Nat :=
  if arena.base ≤ address then some (address - arena.base) else none

/-- Where the block starts in the arena, if it is the most recent block. -/
def lastStart? (arena : StackArena) (address size : Nat) : Option Nat :=
  match arena.offset? address with
  | none => none
  | some start =>
    if arena.last = some start ∧ start + size = arena.used then some start else none

def expand (arena : StackArena) (address : Nat) (layout : Layout) (wanted : Nat) :
    Except Refusal (Nat × StackArena) :=
  if wanted ≤ layout.size then .ok (layout.size, arena)
  else
    match arena.lastStart? address layout.size with
    | none => .error { kind := .inPlaceGrowthFailed }
    | some start =>
      match Word.add? start wanted with
      | none => .error { kind := .inPlaceGrowthFailed }
      | some stop =>
        if arena.capacity < stop then .error { kind := .inPlaceGrowthFailed }
        else .ok (wanted, { arena with used := stop })

def deallocate (arena : StackArena) (address : Nat) (layout : Layout) : StackArena :=
  if layout.size = 0 then arena
  else
    match arena.lastStart? address layout.size with
    | none => arena
    | some start => { arena with used := start, last := none }

end StackArena
end Freehold
