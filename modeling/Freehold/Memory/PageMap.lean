import Freehold.Memory.FreeList
import Freehold.Memory.Heap

/-!
# Page maps

A page allocator takes whole pages from the operating system, which tells how large
they are.  A mapping grows in place where the pages right after it are free and the
system yields them, it may move when it is resized, and any run of its pages can be
unmapped on its own.
-/

namespace Freehold

/-- How large pages are.  They are larger than the granules of free lists. -/
structure PageSize where
  bytes : Nat
  granule_lt : FreeList.granule < bytes
  valid : Layout.Valid ⟨0, bytes⟩

/-- The size that is assumed where the system does not tell any. -/
def PageSize.assumed : PageSize where
  bytes := 4096
  granule_lt := by decide
  valid := ⟨⟨12, rfl⟩, by decide⟩

structure PageMap where
  mapped : List Span := []
  host : Host := .rising
  /-- How many requests were met. -/
  met : Nat := 0
  page : PageSize := .assumed

namespace PageMap

def pageSize (pages : PageMap) : Nat := pages.page.bytes

def failedMap (size : Nat) : String :=
  let size := toString size
  s!"mmap of {size} bytes failed"

def failedMove (old new : Nat) : String :=
  let old := toString old
  let new := toString new
  s!"mremap from {old} to {new} bytes failed"

def obtain? (pages : PageMap) (size : Nat) : Option (Block × PageMap) :=
  (pages.host.grant? pages.met pages.mapped ⟨size, pages.pageSize⟩).map fun address =>
    (⟨address, size⟩,
      { pages with mapped := ⟨address, size⟩ :: pages.mapped, met := pages.met + 1 })

def unmap (pages : PageMap) (span : Span) : PageMap :=
  { pages with mapped := pages.mapped.flatMap (·.without span) }

def mapAt? (pages : PageMap) (span : Span) : Option PageMap :=
  if ∀ other ∈ pages.mapped, Span.Apart other span then
    some { pages with mapped := span :: pages.mapped, met := pages.met + 1 }
  else none

/-- Maps the pages between the old end of a block and its new one.  A block without
pages lies nowhere and cannot be extended. -/
def growAt? (pages : PageMap) (address old new : Nat) : Option PageMap :=
  if old = 0 ∨ Host.limit < address + new ∨
      pages.host.yields pages.met pages.mapped ⟨address, old⟩ new = false then none
  else pages.mapAt? ⟨address + old, new - old⟩

def allocate (pages : PageMap) (layout : Layout) : Except Refusal (Block × PageMap) :=
  if layout.size = 0 then .ok (.dangling layout.align, pages)
  else if pages.pageSize < layout.align then .error { kind := .unsupportedOperation }
  else
    match Word.roundUp? layout.size pages.pageSize with
    | none => .error { kind := .integerOverflow }
    | some size =>
      match pages.obtain? size with
      | none => .error { kind := .allocationFailed, remark := some (failedMap size) }
      | some found => .ok found

def expand (pages : PageMap) (address : Nat) (layout : Layout) (wanted : Nat) :
    Except Refusal (Nat × PageMap) :=
  if wanted ≤ layout.size then .ok (layout.size, pages)
  else
    match Word.roundUp? layout.size pages.pageSize, Word.roundUp? wanted pages.pageSize with
    | some old, some new =>
      if new ≤ old then .ok (old, pages)
      else
        match pages.growAt? address old new with
        | none => .error { kind := .inPlaceGrowthFailed }
        | some grown => .ok (new, grown)
    | _, _ => .error { kind := .integerOverflow }

def reallocate (pages : PageMap) (address : Nat) (layout : Layout) (wanted : Nat) :
    Except Refusal (Block × PageMap) :=
  if wanted ≤ layout.size then .ok (⟨address, layout.size⟩, pages)
  else if layout.size = 0 then
    match Layout.of? wanted layout.align with
    | none => .error { kind := .integerOverflow }
    | some fresh => pages.allocate fresh
  else
    match Word.roundUp? layout.size pages.pageSize, Word.roundUp? wanted pages.pageSize with
    | some old, some new =>
      if new ≤ old then .ok (⟨address, old⟩, pages)
      else
        match pages.growAt? address old new with
        | some grown => .ok (⟨address, new⟩, grown)
        | none =>
          match pages.obtain? new with
          | none =>
            .error { kind := .allocationFailed, remark := some (failedMove old new) }
          | some (block, moved) => .ok (block, moved.unmap ⟨address, old⟩)
    | _, _ => .error { kind := .integerOverflow }

def deallocate (pages : PageMap) (address : Nat) (layout : Layout) : PageMap :=
  if layout.size = 0 then pages
  else pages.unmap ⟨address, Word.roundUp layout.size pages.pageSize⟩

/-- The whole pages that a hint about a stretch of memory reaches: the start is
rounded down to a page and the system extends the end to one. -/
def advised (pages : PageMap) (address count : Nat) : Span :=
  let start := address / pages.pageSize * pages.pageSize
  ⟨start, Word.roundUp (count + (address - start)) pages.pageSize⟩

end PageMap
end Freehold
