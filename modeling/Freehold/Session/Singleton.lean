import Freehold.Session.Staged
import Freehold.Singleton

/-!
# Sessions with singletons and locks

Singletons around one type of object are kept under names.  All of them share
the two locks of the session, and steps may hold the locks themselves.  One way
of taking the spin lock announces what it does.
-/

namespace Freehold

inductive LockPolicy where
  | spin
  | noted
  | mutex
  deriving DecidableEq

/-- The way of a spin lock, with announcements. -/
def SpinLock.noted : Locking SpinLock where
  lock _ := do
    Effect.announce (.remark "lock")
    pure taken
  unlock lock := do
    Effect.announce (.remark "unlock")
    pure lock.released
  held_lock _ _ _ := rfl
  held_unlock _ _ _ := rfl

structure Locks where
  spin : SpinLock := {}
  mutex : Mutex := {}
  deriving DecidableEq

inductive SingletonAction where
  | new (policy : Option LockPolicy)
  | reach
  | get
  | lock
  | tryLock
  | unlock
  | tryUnlock
  | guard
  | remembers
  | lockText
  | mutexLock
  | mutexUnlock
  | unknown

structure SingletonStep where
  slot : String
  action : SingletonAction

/-- A singleton of the session, whose lock is one of the two, if it has any. -/
inductive Guarded where
  | spin (singleton : Singleton SpinLock Piece)
  | mutex (singleton : Singleton Mutex Piece)

namespace Guarded

def new : Option LockPolicy → Guarded
  | none => spin (.new none)
  | some .spin => spin (.new (some SpinLock.locking))
  | some .noted => spin (.new (some SpinLock.noted))
  | some .mutex => mutex (.new (some Mutex.locking))

def ready : Guarded → Bool
  | spin singleton => singleton.ready
  | mutex singleton => singleton.ready

def content : Guarded → Option Piece
  | spin singleton => singleton.cell.content
  | mutex singleton => singleton.cell.content

/-- The session has nothing to tell of a singleton that cannot be asked. -/
def told : Guarded → Option Piece
  | spin (.shared singleton) => singleton.get?
  | mutex (.shared singleton) => singleton.get?
  | spin (.single _) | mutex (.single _) => none

end Guarded

structure SingletonTable where
  locks : Locks := {}
  singletons : Shelf Guarded := {}

namespace SingletonSession

open StagedSession (element shown)

def withLock (shared : SingletonTable) (lock : SpinLock) : SingletonTable :=
  { shared with locks := { shared.locks with spin := lock } }

def keeping (shared : SingletonTable) (told : ε → Outcome) :
    Except ε SpinLock → Outcome × SingletonTable
  | .ok lock => (.done .nothing, withLock shared lock)
  | .error cause => (told cause, shared)

/-- Takes the lock for the span of the step: whether it is held meanwhile, whether a
second taker is refused meanwhile, and whether it is held afterwards. -/
def guarded (shared : SingletonTable) : Outcome × SingletonTable :=
  match shared.locks.spin.lock? with
  | none => (.refused .wouldBlock, shared)
  | some lock =>
    let refused := match lock.tryLock with
      | .ok _ => false
      | .error _ => true
    let after := lock.released
    (.done (.items [.flag lock.locked, .flag refused, .flag after.locked]),
      withLock shared after)

def reached (answer : Except ErrorKind Unit) (slot : String) (guarded : Guarded) (locks : Locks)
    (shared : SingletonTable) : Outcome × SingletonTable :=
  let kept : SingletonTable :=
    { locks := locks, singletons := shared.singletons.put slot guarded }
  match answer with
  | .error kind => (.failed kind, kept)
  | .ok () => (.done ((guarded.content.map shown).getD .nothing), kept)

def reach (shared : SingletonTable) (slot : String) :
    Guarded → Effect (Outcome × SingletonTable)
  | .spin singleton =>
    match singleton.reach? element Leaf.phased.phases (.own slot) shared.locks.spin with
    | none => pure (.refused .wouldBlock, shared)
    | some effect => do
      let (answer, next, lock) ← effect
      pure (reached answer slot (.spin next) { shared.locks with spin := lock } shared)
  | .mutex singleton =>
    match singleton.reach? element Leaf.phased.phases (.own slot) shared.locks.mutex with
    | none => pure (.refused .wouldBlock, shared)
    | some effect => do
      let (answer, next, lock) ← effect
      pure (reached answer slot (.mutex next) { shared.locks with mutex := lock } shared)

def step (step : SingletonStep) (shared : SingletonTable) : Effect (Outcome × SingletonTable) :=
  match step.action with
  | .unknown => pure (.refused .noSuchStep, shared)
  | .new policy =>
    pure (.done .nothing,
      { shared with singletons := shared.singletons.put step.slot (Guarded.new policy) })
  | .reach =>
    match shared.singletons.find? step.slot with
    | none => pure (.refused .noSuchSlot, shared)
    | some singleton => reach shared step.slot singleton
  | .get =>
    match shared.singletons.find? step.slot with
    | none => pure (.refused .noSuchSlot, shared)
    | some singleton => pure (.done ((singleton.told.map shown).getD .nothing), shared)
  | .lock =>
    match shared.locks.spin.lock? with
    | none => pure (.refused .wouldBlock, shared)
    | some lock => pure (.done .nothing, withLock shared lock)
  | .tryLock => pure (keeping shared .failed shared.locks.spin.tryLock)
  | .unlock => pure (keeping shared .trapped shared.locks.spin.unlock)
  | .tryUnlock => pure (keeping shared .failed shared.locks.spin.tryUnlock)
  | .guard => pure (guarded shared)
  | .remembers => pure (.done (.flag shared.locks.spin.remembers), shared)
  | .lockText =>
    if shared.locks.spin.remembers then pure (.refused .notApplicable, shared)
    else pure (.done (.text SpinLock.freshText), shared)
  | .mutexLock =>
    if shared.locks.mutex.locked then pure (.refused .wouldBlock, shared)
    else
      pure (.done .nothing, { shared with locks := { shared.locks with mutex := .taken } })
  | .mutexUnlock =>
    if shared.locks.mutex.locked then
      pure (.done .nothing, { shared with locks := { shared.locks with mutex := {} } })
    else pure (.refused .notApplicable, shared)

/-- Whether the singleton that a step was about is ready, and which locks are held. -/
def notes (step : SingletonStep) (shared : SingletonTable) : List (String × Shown) :=
  let ready := (shared.singletons.find? step.slot).map fun singleton =>
    ("ready", Shown.flag singleton.ready)
  let held := [Shown.flag shared.locks.spin.locked, .flag shared.locks.mutex.locked]
  ready.toList ++ [("locked", .items held)]

def session : Session SingletonStep SingletonTable where
  step := step
  notes := notes
  finish _ := pure ()

def report (setup : Setup) (steps : List SingletonStep) : Shown :=
  session.reports setup {} steps Report.light

end SingletonSession
end Freehold
