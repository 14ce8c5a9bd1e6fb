import Freehold.Memory.Bytes
import Freehold.Memory.FreeList
import Freehold.Memory.PageMap
import Freehold.Memory.StackArena

/-!
# One interface to every allocator

A memory is the contents of the address space together with the allocator that
manages it.  The six operations below are the interface every container uses.
An allocator that has no operation of its own for a request falls back on a
generic one: clearing after an ordinary request, refusing to grow in place, and
resizing by growing in place or else by moving the contents to a new block.

A refused operation has no new memory, so whatever was held before is held
unchanged after it.
-/

namespace Freehold

inductive Backend where
  | stack (arena : StackArena)
  | freeList (list : FreeList)
  /-- A free list behind an interface that only allocates and deallocates. -/
  | basic (list : FreeList)
  | heap (heap : Heap)
  | pages (pages : PageMap)

structure Memory where
  backend : Backend
  bytes : Bytes := fun _ => 0

namespace Memory

/-- Installs a free list, whose headers are kept in the free memory itself. -/
def withList (memory : Memory) (wrap : FreeList → Backend) (list : FreeList) : Memory :=
  { backend := wrap list
    bytes := memory.bytes.overlay (fun address => FreeList.headerByte? address list.spans) }

def allocate (memory : Memory) (layout : Layout) : Except Refusal (Block × Memory) :=
  match memory.backend with
  | .stack arena =>
    (arena.allocate layout).map fun found =>
      (found.1, { memory with backend := .stack found.2 })
  | .freeList list =>
    (list.allocate layout).map fun found => (found.1, memory.withList .freeList found.2)
  | .basic list =>
    (list.allocate layout).map fun found => (found.1, memory.withList .basic found.2)
  | .heap heap =>
    (heap.allocate layout).map fun found =>
      (found.1, { memory with backend := .heap found.2 })
  | .pages pages =>
    (pages.allocate layout).map fun found =>
      (found.1,
        { backend := .pages found.2
          bytes := memory.bytes.fill found.1.address found.1.size 0 })

def allocateThenClear (memory : Memory) (layout : Layout) :
    Except Refusal (Block × Memory) :=
  (memory.allocate layout).map fun found =>
    (found.1,
      { found.2 with bytes := found.2.bytes.fill found.1.address found.1.size 0 })

def allocateZeroed (memory : Memory) (layout : Layout) : Except Refusal (Block × Memory) :=
  match memory.backend with
  | .heap heap =>
    (heap.allocateCleared layout).map fun found =>
      (found.1,
        { backend := .heap found.2
          bytes := memory.bytes.fill found.1.address found.1.size 0 })
  | _ => memory.allocateThenClear layout

def refuseGrowth (memory : Memory) (layout : Layout) (wanted : Nat) :
    Except Refusal (Nat × Memory) :=
  if wanted ≤ layout.size then .ok (layout.size, memory)
  else .error { kind := .unsupportedOperation }

def expand (memory : Memory) (address : Nat) (layout : Layout) (wanted : Nat) :
    Except Refusal (Nat × Memory) :=
  match memory.backend with
  | .stack arena =>
    (arena.expand address layout wanted).map fun found =>
      (found.1, { memory with backend := .stack found.2 })
  | .freeList list =>
    (list.expand address layout wanted).map fun found =>
      (found.1, memory.withList .freeList found.2)
  | .basic _ | .heap _ => memory.refuseGrowth layout wanted
  | .pages pages =>
    (pages.expand address layout wanted).map fun found =>
      (found.1,
        { backend := .pages found.2
          bytes :=
            let old := Word.roundUp layout.size pages.pageSize
            memory.bytes.fill (address + old) (found.1 - old) 0 })

def deallocate (memory : Memory) (address : Nat) (layout : Layout) : Memory :=
  match memory.backend with
  | .stack arena => { memory with backend := .stack (arena.deallocate address layout) }
  | .freeList list => memory.withList .freeList (list.deallocate address layout)
  | .basic list => memory.withList .basic (list.deallocate address layout)
  | .heap heap => { memory with backend := .heap (heap.deallocate address layout) }
  | .pages pages => { memory with backend := .pages (pages.deallocate address layout) }

def reallocateByCopy (memory : Memory) (address : Nat) (layout : Layout) (wanted : Nat) :
    Except Refusal (Block × Memory) :=
  if wanted ≤ layout.size then .ok (⟨address, layout.size⟩, memory)
  else
    match memory.expand address layout wanted with
    | .ok (size, grown) => .ok (⟨address, size⟩, grown)
    | .error _ =>
      match Layout.of? wanted layout.align with
      | none => .error { kind := .integerOverflow }
      | some fresh =>
        match memory.allocate fresh with
        | .error refusal => .error refusal
        | .ok (block, moved) =>
          let copied :=
            { moved with bytes := moved.bytes.copy address block.address layout.size }
          .ok (block, copied.deallocate address layout)

def reallocate (memory : Memory) (address : Nat) (layout : Layout) (wanted : Nat) :
    Except Refusal (Block × Memory) :=
  match memory.backend with
  | .stack _ | .freeList _ | .basic _ => memory.reallocateByCopy address layout wanted
  | .heap heap =>
    (heap.reallocate address layout wanted).map fun found =>
      (found.1,
        { backend := .heap found.2
          bytes := memory.bytes.copy address found.1.address layout.size })
  | .pages pages =>
    (pages.reallocate address layout wanted).map fun found =>
      (found.1,
        { backend := .pages found.2
          bytes :=
            (memory.bytes.fill found.1.address found.1.size 0).overlay fun target =>
              if found.1.address ≤ target ∧
                  target < found.1.address + Word.roundUp layout.size pages.pageSize then
                some (memory.bytes (address + (target - found.1.address)))
              else none })

/-- Only discarding whole pages has an effect on contents: the system replaces
them by cleared ones. -/
def advise (memory : Memory) (address count : Nat) (hint : UsageHint) : Memory :=
  match memory.backend, hint with
  | .pages pages, .dontNeed =>
    let reached := pages.advised address count
    { memory with bytes := memory.bytes.fill reached.start reached.size 0 }
  | _, _ => memory

def addRegion (memory : Memory) (region : Span) : Memory :=
  match memory.backend with
  | .freeList list => memory.withList .freeList (list.addRegion region)
  | .basic list => memory.withList .basic (list.addRegion region)
  | _ => memory

end Memory
end Freehold
