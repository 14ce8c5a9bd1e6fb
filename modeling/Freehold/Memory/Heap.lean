import Freehold.Memory.Block

/-!
# Hosts and the global heap

Where the next block goes, and whether there is one, is for the heap or the operating
system to say.  A `Host` says it.  It may say what it likes on any occasion, but only
an address that keeps the rules counts as an answer: the block is aligned, apart from
everything in use, and within the lower half of the address range, which is all that
programs get.  Anything else is a refusal.  So blocks never overlap, whatever the host
answers, and a freed address may be used again.

A request that is refused leaves no trace, and so asking again is answered alike.
-/

namespace Freehold

/-- How a machine answers requests.  It is told how many it has met, the spans in use and
the layout; no two requests that are met have the same number, so any history of answers
is that of some host. -/
structure Host where
  answer : Nat → List Span → Layout → Option Nat
  /-- Whether a mapping gets the free pages after it, up to a size. -/
  yields : Nat → List Span → Span → Nat → Bool

namespace Host

/-- The end of the addresses that a program gets. -/
def limit : Nat := 1 <<< 63

def Accepts (used : List Span) (layout : Layout) (address : Nat) : Prop :=
  0 < address ∧ address + layout.size ≤ limit ∧ layout.align ∣ address ∧
    ∀ span ∈ used, Span.Apart span ⟨address, layout.size⟩

instance (used : List Span) (layout : Layout) (address : Nat) :
    Decidable (Accepts used layout address) :=
  inferInstanceAs (Decidable (_ ∧ _ ∧ _ ∧ _))

/-- The address at which a request is met, if it is. -/
def grant? (host : Host) (met : Nat) (used : List Span) (layout : Layout) : Option Nat :=
  (host.answer met used layout).filter fun address => decide (Accepts used layout address)

theorem accepts_of_grant? {host : Host} {met : Nat} {used : List Span} {layout : Layout}
    {address : Nat} (h : host.grant? met used layout = some address) :
    Accepts used layout address := by
  obtain ⟨-, haccepts⟩ := Option.filter_eq_some_iff.1 h
  exact of_decide_eq_true haccepts

/-- The first address from `2 ^ 16` on that is above everything in use. -/
def top (used : List Span) : Nat :=
  used.foldr (fun span high => max span.stop high) (1 <<< 16)

/-- A host that puts every block above all others, and refuses nothing. -/
def rising : Host where
  answer _ used layout := some (Word.roundUp (top used) layout.align)
  yields _ _ _ _ := true

end Host

structure Heap where
  used : List Span := []
  host : Host := .rising
  /-- How many requests were met. -/
  met : Nat := 0

namespace Heap

def release (heap : Heap) (address : Nat) : Heap :=
  { heap with used := heap.used.filter (fun span => span.start ≠ address) }

def obtain? (heap : Heap) (layout : Layout) : Option (Block × Heap) :=
  (heap.host.grant? heap.met heap.used layout).map fun address =>
    (⟨address, layout.size⟩,
      { heap with used := ⟨address, layout.size⟩ :: heap.used, met := heap.met + 1 })

def failed (layout : Layout) : String :=
  let layout := layout.text
  s!"system allocation of {layout} failed"

def failedResize (wanted : Nat) : String :=
  let wanted := toString wanted
  s!"system reallocation to {wanted} bytes failed"

def allocate (heap : Heap) (layout : Layout) : Except Refusal (Block × Heap) :=
  if layout.size = 0 then .ok (.dangling layout.align, heap)
  else
    match heap.obtain? layout with
    | none => .error { kind := .allocationFailed, remark := some (failed layout) }
    | some found => .ok found

/-- As `allocate`, for memory that the heap itself clears; nothing is remarked. -/
def allocateCleared (heap : Heap) (layout : Layout) : Except Refusal (Block × Heap) :=
  if layout.size = 0 then .ok (.dangling layout.align, heap)
  else
    match heap.obtain? layout with
    | none => .error { kind := .allocationFailed }
    | some found => .ok found

/-- The block after resizing; the heap may put it anywhere that is free once the
old block is given up. -/
def reallocate (heap : Heap) (address : Nat) (layout : Layout) (wanted : Nat) :
    Except Refusal (Block × Heap) :=
  if wanted ≤ layout.size then .ok (⟨address, layout.size⟩, heap)
  else
    match Layout.of? wanted layout.align with
    | none => .error { kind := .integerOverflow }
    | some grown =>
      if layout.size = 0 then heap.allocate grown
      else
        match (heap.release address).obtain? grown with
        | none => .error { kind := .allocationFailed, remark := some (failedResize wanted) }
        | some found => .ok found

def deallocate (heap : Heap) (address : Nat) (layout : Layout) : Heap :=
  if layout.size = 0 then heap else heap.release address

end Heap
end Freehold
