import Freehold.Staged

/-!
# Singletons

A singleton completes its value the first time it is asked for and keeps it
forever.  One kind is for a single thread.  The other may be reached from any
thread: it takes a lock while it completes the value, and never touches the lock
again once it is ready.  A failed completion leaves either kind as it was.

Which lock that is, and how it is taken and given back, is up to the program.
Two locks come with the library, each with its way of being taken.
-/

namespace Freehold

/-- A kind of lock, of which anyone can tell whether it is held. -/
class Lockable (σ : Type) where
  held : σ → Bool

/-- How singletons take a lock and give it back.  A program may bring a way of its own,
and do other things on these occasions; a lock that is held is waited for. -/
structure Locking (σ : Type) [Lockable σ] where
  lock : σ → Effect σ
  unlock : σ → Effect σ
  held_lock : ∀ free store, Lockable.held free = false →
    Lockable.held (lock free store).1 = true
  held_unlock : ∀ taken store, Lockable.held taken = true →
    Lockable.held (unlock taken store).1 = false

/-- A lock that is waited for in a loop, and whether it knows who took it last. -/
structure SpinLock where
  locked : Bool := false
  remembers : Bool := false
  deriving DecidableEq

instance : Lockable SpinLock where
  held := SpinLock.locked

namespace SpinLock

def taken : SpinLock := { locked := true, remembers := true }

/-- Taking a lock that is held would wait forever. -/
def lock? (lock : SpinLock) : Option SpinLock :=
  if lock.locked then none else some taken

def tryLock (lock : SpinLock) : Except ErrorKind SpinLock :=
  if lock.locked then .error .stillLocked else .ok taken

def released (lock : SpinLock) : SpinLock := { lock with locked := false }

def unlock (lock : SpinLock) : Except Trap SpinLock :=
  if lock.locked then .ok lock.released
  else
    .error
      { condition := "was_locked"
        message := "unlocking a RawSpinLock that is not locked" }

def tryUnlock (lock : SpinLock) : Except ErrorKind SpinLock :=
  if lock.locked then .ok lock.released else .error .notLocked

def freshText : String := "RawSpinLock \x7b locked: false, locked_at: None \x7d"

def locking : Locking SpinLock where
  lock _ := pure taken
  unlock lock := pure lock.released
  held_lock _ _ _ := rfl
  held_unlock _ _ _ := rfl

end SpinLock

structure Mutex where
  locked : Bool := false
  deriving DecidableEq

instance : Lockable Mutex where
  held := Mutex.locked

namespace Mutex

def taken : Mutex := { locked := true }

def locking : Locking Mutex where
  lock _ := pure taken
  unlock _ := pure {}
  held_lock _ _ _ := rfl
  held_unlock _ _ _ := rfl

end Mutex

/-- A singleton that any thread may reach. -/
structure SharedSingleton (σ α : Type) [Lockable σ] where
  locking : Locking σ
  ready : Bool := false
  cell : Staged α := .static {}

inductive Singleton (σ α : Type) [Lockable σ] where
  | single (cell : Staged α)
  | shared (singleton : SharedSingleton σ α)

variable {σ α : Type} [Lockable σ]

namespace SharedSingleton

def get? (singleton : SharedSingleton σ α) : Option α :=
  if singleton.ready then singleton.cell.content else none

def failureText (kind : ErrorKind) : String :=
  "singleton initialization failed: " ++ kind.message

/-- What is done with the lock in hand. -/
def complete (element : Element α) (phases : Phases α) (spot : Spot)
    (singleton : SharedSingleton σ α) :
    Effect (Except ErrorKind Unit × SharedSingleton σ α) := do
  match ← (singleton.cell.init element phases spot).run with
  | .ok cell => pure (.ok (), { singleton with ready := true, cell := cell })
  | .error kind => do
    Effect.log .warn (failureText kind)
    pure (.error kind, singleton)

end SharedSingleton

namespace Singleton

def new : Option (Locking σ) → Singleton σ α
  | none => single (.static {})
  | some locking => shared { locking := locking }

def ready : Singleton σ α → Bool
  | single cell => cell.initialized
  | shared singleton => singleton.ready

def cell : Singleton σ α → Staged α
  | single cell => cell
  | shared singleton => singleton.cell

/-- Completes the value unless it is there.  There is no answer where the call would
wait for the lock forever. -/
def reach? (element : Element α) (phases : Phases α) (spot : Spot) (lock : σ) :
    Singleton σ α → Option (Effect (Except ErrorKind Unit × Singleton σ α × σ))
  | single cell =>
    some do
      match ← (cell.init element phases spot).run with
      | .ok cell => pure (.ok (), single cell, lock)
      | .error kind => pure (.error kind, single cell, lock)
  | shared singleton =>
    if singleton.ready then some (pure (.ok (), shared singleton, lock))
    else if Lockable.held lock then none
    else
      some do
        let taken ← singleton.locking.lock lock
        let (answer, next) ← singleton.complete element phases spot
        let freed ← singleton.locking.unlock taken
        pure (answer, shared next, freed)

end Singleton
end Freehold
