import Freehold.Memory.Backend
import Freehold.Trace

/-!
# Stores, effects and attempts

A store is everything that operations share: the memory, the requests to refuse,
the plan by which user code fails, the serial number of the last object, and the
record of the run.  An effect changes the store; an attempt may also fail.  The
store is kept when an attempt fails, so a failing operation has to undo what it
has done by itself.

Requests to the allocator go through a recorder.  It counts the requests for a
new or resized block and refuses those whose numbers are listed before the
allocator sees them.
-/

namespace Freehold

structure Store where
  memory : Memory
  failing : List Nat := []
  requests : Nat := 0
  plan : List (Option ErrorKind) := []
  serials : Nat := 0
  threshold : Level := .warn
  trace : List Entry := []

abbrev Effect (α : Type) : Type := StateM Store α

abbrev Attempt (α : Type) : Type := ExceptT ErrorKind (StateM Store) α

namespace Effect

def record (entry : Entry) : Effect Unit :=
  fun store => ((), { store with trace := entry :: store.trace })

def announce (event : Event) : Effect Unit := record (.event event)

def log (level : Level) (message : String) : Effect Unit :=
  fun store =>
    if store.threshold.admits level then record (.log level message) store
    else ((), store)

def freshSerial : Effect Nat :=
  fun store => (store.serials + 1, { store with serials := store.serials + 1 })

end Effect

namespace Attempt

def ofExcept (answer : Except ErrorKind α) : Attempt α := ExceptT.mk (pure answer)

/-- The next entry of the plan decides whether user code succeeds here; it does
once the plan is used up. -/
def hook : Attempt Unit :=
  fun store =>
    match store.plan with
    | [] => (.ok (), store)
    | none :: rest => (.ok (), { store with plan := rest })
    | some kind :: rest => (.error kind, { store with plan := rest })

/-- Runs `undo` if the attempt fails, and lets the failure through. -/
def undoing (attempt : Attempt α) (undo : Effect Unit) : Attempt α :=
  ExceptT.mk do
    match ← attempt.run with
    | .ok value => pure (.ok value)
    | .error kind => do
      undo
      pure (.error kind)

end Attempt

namespace Allocator

/-- Puts a question to the memory and logs the remark of a refusal. -/
def consult (ask : Memory → Except Refusal (α × Memory)) : Effect (Except ErrorKind α) :=
  fun store =>
    match ask store.memory with
    | .ok (value, memory) => (.ok value, { store with memory := memory })
    | .error refusal =>
      match refusal.remark with
      | none => (.error refusal.kind, store)
      | some remark => (.error refusal.kind, (Effect.log .trace remark store).2)

def refusedByPlan : Effect Bool :=
  fun store =>
    (store.failing.contains (store.requests + 1),
      { store with requests := store.requests + 1 })

def allocate (layout : Layout) : Attempt Block :=
  ExceptT.mk do
    let refused ← refusedByPlan
    let answer ←
      if refused then pure (.error .allocationFailed)
      else consult (fun memory => memory.allocate layout)
    Effect.record (.call (.allocate layout answer))
    pure answer

def expand (address : Nat) (layout : Layout) (wanted : Nat) : Attempt Nat :=
  ExceptT.mk do
    let answer ← consult (fun memory => memory.expand address layout wanted)
    Effect.record (.call (.expand address layout.size wanted answer))
    pure answer

def reallocate (address : Nat) (layout : Layout) (wanted : Nat) : Attempt Block :=
  ExceptT.mk do
    let refused ← refusedByPlan
    let answer ←
      if refused then pure (.error .allocationFailed)
      else consult (fun memory => memory.reallocate address layout wanted)
    Effect.record (.call (.reallocate address layout.size wanted answer))
    pure answer

def deallocate (address : Nat) (layout : Layout) : Effect Unit := do
  modify fun store => { store with memory := store.memory.deallocate address layout }
  Effect.record (.call (.deallocate address layout))

def advise (address count : Nat) (hint : UsageHint) : Effect Unit := do
  modify fun store => { store with memory := store.memory.advise address count hint }
  Effect.record (.call (.advise address count hint))

def addRegion (region : Span) : Effect Unit := do
  match FreeList.regionRemark? region with
  | none => pure ()
  | some remark => Effect.log .debug remark
  modify fun store => { store with memory := store.memory.addRegion region }

end Allocator
end Freehold
