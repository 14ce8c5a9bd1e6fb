import Freehold.Memory.Block

/-!
# First-fit free lists

Free memory is a list of spans in address order.  A request walks the list from
the lowest address and is carved out of the first span that can hold it; the
gap before it and the rest after it stay on the list.  A span that comes back is
inserted in address order and merged with the neighbours that it touches, and a
block grows in place by absorbing the front of the span that starts where the
block ends.

Sizes and alignments are rounded up to a granule of sixteen bytes, because each
free span holds a header of that size: the length of the span and the address of
the next one.
-/

namespace Freehold

structure FreeList where
  spans : List Span := []
  freeBytes : Nat := 0
  deriving DecidableEq

namespace FreeList

def granule : Nat := 16

/-- Carves `size` bytes at a multiple of `align` out of the first span that can
hold them.  The walk ends early when an address computation overflows. -/
def carve (size align : Nat) : List Span → Option (Nat × List Span)
  | [] => none
  | span :: rest =>
    match Word.roundUp? span.start align with
    | none => none
    | some start =>
      match Word.add? start size with
      | none => none
      | some stop =>
        if span.stop < stop then
          (carve size align rest).map (fun found => (found.1, span :: found.2))
        else
          let tail := if stop < span.stop then ⟨stop, span.stop - stop⟩ :: rest else rest
          if span.start < start then
            some (start, ⟨span.start, start - span.start⟩ :: tail)
          else some (start, tail)

/-- Puts a span in front of a list, merged with the first one if they touch. -/
def join (span : Span) : List Span → List Span
  | [] => [span]
  | next :: rest =>
    if span.stop = next.start then ⟨span.start, span.size + next.size⟩ :: rest
    else span :: next :: rest

/-- Inserts a span in address order, merged with the neighbours it touches. -/
def insert (span : Span) : List Span → List Span
  | [] => [span]
  | prev :: rest =>
    if span.start < prev.start then join span (prev :: rest)
    else if prev.stop = span.start then join ⟨prev.start, prev.size + span.size⟩ rest
    else prev :: insert span rest

/-- Takes `extra` bytes off the front of the span that starts at `address`. -/
def absorb (address extra : Nat) : List Span → Option (List Span)
  | [] => none
  | span :: rest =>
    if address < span.start then none
    else if span.start = address then
      if span.size < extra then none
      else if extra < span.size then some (⟨address + extra, span.size - extra⟩ :: rest)
      else some rest
    else (absorb address extra rest).map (span :: ·)

def give (list : FreeList) (span : Span) : FreeList :=
  { spans := insert span list.spans, freeBytes := list.freeBytes + span.size }

/-- The part of a region that the list can use: whole granules. -/
def usable (region : Span) : Span :=
  let start := Word.roundUp region.start granule
  ⟨start, (region.size - (start - region.start)) / granule * granule⟩

def addRegion (list : FreeList) (region : Span) : FreeList :=
  if (usable region).size = 0 then list else list.give (usable region)

/-- What is logged when a region is added; a region without a granule is passed
over in silence. -/
def regionRemark? (region : Span) : Option String :=
  if (usable region).size = 0 then none
  else
    let size := toString (usable region).size
    some s!"free list: adding region of {size} bytes"

def noSpan (layout : Layout) : String :=
  let layout := layout.text
  s!"free list: no range for {layout}"

def allocate (list : FreeList) (layout : Layout) : Except Refusal (Block × FreeList) :=
  if layout.size = 0 then .ok (.dangling layout.align, list)
  else
    match Word.roundUp? layout.size granule with
    | none => .error { kind := .integerOverflow }
    | some size =>
      match carve size (max layout.align granule) list.spans with
      | none => .error { kind := .allocationFailed, remark := some (noSpan layout) }
      | some (start, spans) =>
        .ok (⟨start, size⟩, { spans := spans, freeBytes := list.freeBytes - size })

def expand (list : FreeList) (address : Nat) (layout : Layout) (wanted : Nat) :
    Except Refusal (Nat × FreeList) :=
  if wanted ≤ layout.size then .ok (layout.size, list)
  else
    match Word.roundUp? layout.size granule, Word.roundUp? wanted granule with
    | some old, some new =>
      if new ≤ old then .ok (old, list)
      else
        match absorb (address + old) (new - old) list.spans with
        | none => .error { kind := .inPlaceGrowthFailed }
        | some spans =>
          .ok (new, { spans := spans, freeBytes := list.freeBytes - (new - old) })
    | _, _ => .error { kind := .integerOverflow }

def deallocate (list : FreeList) (address : Nat) (layout : Layout) : FreeList :=
  if layout.size = 0 then list
  else list.give ⟨address, Word.roundUp layout.size granule⟩

/-- A word as it lies in memory, lowest byte first. -/
def wordByte (word index : Nat) : UInt8 :=
  UInt8.ofNat (word >>> (8 * index))

/-- The header byte kept at an address, if the address lies in the header of a
span: eight bytes for the length, then eight for the next span. -/
def headerByte? (address : Nat) : List Span → Option UInt8
  | [] => none
  | span :: rest =>
    if span.start ≤ address ∧ address < span.start + granule then
      let next := (rest.head?.map Span.start).getD 0
      let index := address - span.start
      some (if index < 8 then wordByte span.size index else wordByte next (index - 8))
    else headerByte? address rest

end FreeList
end Freehold
