import Freehold.Proofs.Staged.Machine
import Freehold.Singleton

/-!
# Reaching a singleton

A singleton is ready when it holds its value.  Reaching it then does nothing at all.  Before
that, it waits for its lock or makes one attempt, which completes the value or destroys the
shell, and the lock is given back in either case.  All that remains of a failure is the error
and, under a lock, one warning.
-/

namespace Freehold
namespace Singleton

variable {σ α : Type} [Lockable σ]

/-- How a singleton is set up: the way its lock is taken, if it has one, what its value is
and where it is built. -/
structure Setting (σ α : Type) [Lockable σ] where
  locking : Option (Locking σ)
  element : Element α
  phases : Phases α
  spot : Spot

/-- A singleton that holds a value or none, with every flag set accordingly. -/
def keeping (locking : Option (Locking σ)) (content : Option α) : Singleton σ α :=
  match locking with
  | none => single (.static ⟨content, content.isSome⟩)
  | some locking =>
    shared
      { locking := locking
        ready := content.isSome
        cell := .static ⟨content, content.isSome⟩ }

theorem new_eq_keeping (locking : Option (Locking σ)) :
    (new locking : Singleton σ α) = keeping locking none := by
  cases locking with
  | none | some locking => rfl

@[simp] theorem ready_keeping (locking : Option (Locking σ)) (content : Option α) :
    (keeping locking content).ready = content.isSome := by
  cases locking with
  | none | some locking => rfl

@[simp] theorem cell_keeping (locking : Option (Locking σ)) (content : Option α) :
    (keeping locking content).cell = .static ⟨content, content.isSome⟩ := by
  cases locking with
  | none | some locking => rfl

/-! ## Deeds -/

inductive Deed (σ α : Type) where
  | lock (free taken : σ)
  | unlock (taken freed : σ)
  | within (deed : Staged.Deed α)
  | warn (message : String)

namespace Deed

/-- The lock is taken and given back in the way of the singleton; a warning is one record,
where the threshold admits warnings. -/
def Done (setting : Setting σ α) (deed : Deed σ α) (before after : Store) : Prop :=
  match deed with
  | lock free taken =>
    ∃ locking ∈ setting.locking, locking.lock free before = (taken, after)
  | unlock taken freed =>
    ∃ locking ∈ setting.locking, locking.unlock taken before = (freed, after)
  | within deed => deed.Done setting.element setting.phases before after
  | warn message =>
    after =
      if before.threshold.admits .warn then
        { before with trace := .log .warn message :: before.trace }
      else before

def within? : Deed σ α → Option (Staged.Deed α)
  | within deed => some deed
  | _ => none

def warning? : Deed σ α → Option String
  | warn message => some message
  | _ => none

end Deed

/-- The states of a lock before it is taken, while it is held and after it is given back. -/
structure Passage (σ : Type) where
  free : σ
  taken : σ
  freed : σ

namespace Setting

variable {setting : Setting σ α} {lock : σ} {passage : Passage σ} {store : Store}

/-- Whether reaching the singleton would wait, unless it is ready. -/
def held (setting : Setting σ α) (lock : σ) : Bool :=
  setting.locking.isSome && Lockable.held lock

/-- A singleton without a lock leaves whatever lock there is alone. -/
def Passes (setting : Setting σ α) (passage : Passage σ) : Prop :=
  match setting.locking with
  | none => passage.freed = passage.free
  | some _ => Lockable.held passage.taken = true ∧ Lockable.held passage.freed = false

theorem Passes.held_eq (h : setting.Passes passage) (hfree : setting.held passage.free = false) :
    Lockable.held passage.freed = Lockable.held passage.free := by
  unfold Passes at h
  unfold held at hfree
  cases hlocking : setting.locking with
  | none =>
    rw [hlocking] at h
    exact congrArg Lockable.held h
  | some locking =>
    rw [hlocking] at h hfree
    exact h.2.trans hfree.symm

/-- What is done while the lock of the singleton is held, if it has one. -/
def guarded (setting : Setting σ α) (passage : Passage σ) (deeds : List (Deed σ α)) :
    List (Deed σ α) :=
  match setting.locking with
  | none => deeds
  | some _ =>
    .lock passage.free passage.taken :: (deeds ++ [.unlock passage.taken passage.freed])

def completing (setting : Setting σ α) (passage : Passage σ) (value : α) : List (Deed σ α) :=
  setting.guarded passage [.within (.build setting.spot (.ok ()) value)]

/-- The shell is destroyed before anything is said, and the lock is given back last. -/
def failing (setting : Setting σ α) (passage : Passage σ) (kind : ErrorKind) (shell : α) :
    List (Deed σ α) :=
  setting.guarded passage <|
    [.within (.build setting.spot (.error kind) shell), .within (.destroy shell)] ++
      if setting.locking.isSome then [.warn (SharedSingleton.failureText kind)] else []

theorem filterMap_guarded {β : Type} (pick : Deed σ α → Option β)
    (hlock : ∀ free taken, pick (.lock free taken) = none)
    (hunlock : ∀ taken freed, pick (.unlock taken freed) = none) (deeds : List (Deed σ α)) :
    (setting.guarded passage deeds).filterMap pick = deeds.filterMap pick := by
  unfold guarded
  cases setting.locking with
  | none => rfl
  | some locking => simp [hlock, hunlock]

theorem within_guarded (deeds : List (Deed σ α)) :
    (setting.guarded passage deeds).filterMap Deed.within? = deeds.filterMap Deed.within? :=
  filterMap_guarded _ (fun _ _ => rfl) (fun _ _ => rfl) deeds

theorem warnings_guarded (deeds : List (Deed σ α)) :
    (setting.guarded passage deeds).filterMap Deed.warning? = deeds.filterMap Deed.warning? :=
  filterMap_guarded _ (fun _ _ => rfl) (fun _ _ => rfl) deeds

/-! ## Calls -/

/-- What is done to the cell of a singleton, told as deeds of the singleton. -/
theorem does_within {β : Type} {effect : Effect β} {deeds : List (Staged.Deed α)} {result : β}
    (h : effect.Does (Staged.Deed.Done setting.element setting.phases) store deeds result) :
    effect.Does (Deed.Done setting) store (deeds.map .within) result := by
  obtain ⟨after, heffect, hdone⟩ := h
  exact ⟨after, heffect, hdone.map fun _ _ _ hdeed => hdeed⟩

theorem warn_does (setting : Setting σ α) (message : String) (store : Store) :
    (Effect.log .warn message).Does (Deed.Done setting) store [.warn message] () := by
  refine ⟨_, rfl, .single ?_⟩
  show (Effect.log .warn message store).2 = _
  unfold Effect.log
  split
  · rfl
  · rfl

def reach? (setting : Setting σ α) (content : Option α) (lock : σ) :
    Option (Effect (Except ErrorKind Unit × Singleton σ α × σ)) :=
  (keeping setting.locking content).reach? setting.element setting.phases setting.spot lock

/-- A singleton that is ready gives its value, whoever holds its lock. -/
theorem reach?_ready (setting : Setting σ α) (value : α) (lock : σ) :
    ∃ effect, setting.reach? (some value) lock = some effect ∧
      ∀ store, effect.Does (Deed.Done setting) store []
        (.ok (), keeping setting.locking (some value), lock) := by
  unfold reach?
  cases setting.locking with
  | none => exact ⟨_, rfl, fun store => ⟨store, rfl, .none⟩⟩
  | some locking => exact ⟨_, rfl, fun store => ⟨store, rfl, .none⟩⟩

theorem reach?_waits (h : setting.held lock = true) : setting.reach? none lock = none := by
  unfold held at h
  unfold reach?
  cases hlocking : setting.locking with
  | none =>
    rw [hlocking] at h
    contradiction
  | some locking =>
    rw [hlocking] at h
    exact if_pos h

/-- The cell of a singleton is completed, or the shell is destroyed and the cell stays. -/
theorem init_does (setting : Setting σ α) (store : Store) :
    (∃ value, ((Staged.static {}).init setting.element setting.phases setting.spot).Does
      (Deed.Done setting) store [.within (.build setting.spot (.ok ()) value)]
      (.ok (.static ⟨some value, true⟩))) ∨
    ∃ kind shell, ((Staged.static {}).init setting.element setting.phases setting.spot).Does
      (Deed.Done setting) store
      [.within (.build setting.spot (.error kind) shell), .within (.destroy shell)]
      (.error kind) := by
  have hinit : (Staged.static {}).init setting.element setting.phases setting.spot =
      Cell.init setting.element.toMovable setting.phases setting.spot {} >>= fun cell =>
        pure (.static cell) := rfl
  have hclear : ({} : Cell α).initialized = false := rfl
  rw [hinit]
  rcases Staged.cell_init_does setting.element setting.phases hclear setting.spot store with
    ⟨value, hdoes⟩ | ⟨kind, shell, hdoes⟩
  · exact Or.inl ⟨value, does_within (hdoes.map Staged.static)⟩
  · exact Or.inr ⟨kind, shell, does_within (hdoes.bind_error _)⟩

/-- With the lock in hand, there is one attempt, and one warning if it fails. -/
theorem complete_does (setting : Setting σ α) (locking : Locking σ) (store : Store) :
    (∃ value, (SharedSingleton.complete setting.element setting.phases setting.spot
      { locking := locking }).Does (Deed.Done setting) store
      [.within (.build setting.spot (.ok ()) value)]
      (.ok (),
        { locking := locking, ready := true, cell := .static ⟨some value, true⟩ })) ∨
    ∃ kind shell, (SharedSingleton.complete setting.element setting.phases setting.spot
      { locking := locking }).Does (Deed.Done setting) store
      ([.within (.build setting.spot (.error kind) shell), .within (.destroy shell)] ++
        [.warn (SharedSingleton.failureText kind)])
      (.error kind, { locking := locking }) := by
  rcases setting.init_does store with ⟨value, hdoes⟩ | ⟨kind, shell, hdoes⟩
  · exact Or.inl ⟨value, hdoes.bind_pure rfl⟩
  · obtain ⟨between, hinit, hdone⟩ := hdoes
    have hwarn := setting.warn_does (SharedSingleton.failureText kind) between
    exact Or.inr ⟨kind, shell, .bind hinit hdone (hwarn.bind_pure rfl)⟩

/-- What is done with the lock in hand, between taking it and giving it back. -/
theorem does_guarded {locking : Locking σ} (hlocking : setting.locking = some locking)
    (hfree : Lockable.held lock = false) (store : Store) {β : Type}
    (effect : Effect (β × SharedSingleton σ α)) :
    ∃ taken between, ∀ deeds answer singleton,
      effect.Does (Deed.Done setting) between deeds (answer, singleton) →
      ∃ freed, setting.Passes ⟨lock, taken, freed⟩ ∧
        Effect.Does (Deed.Done setting)
          (do
            let taken ← locking.lock lock
            let (answer, singleton) ← effect
            let freed ← locking.unlock taken
            pure (answer, shared singleton, freed))
          store (setting.guarded ⟨lock, taken, freed⟩ deeds)
          (answer, shared singleton, freed) := by
  have hheld := locking.held_lock lock store hfree
  generalize hlock : locking.lock lock store = start at hheld
  obtain ⟨taken, between⟩ := start
  refine ⟨taken, between, ?_⟩
  rintro deeds answer singleton ⟨later, heffect, hdone⟩
  have hfreed := locking.held_unlock taken later hheld
  generalize hunlock : locking.unlock taken later = finish at hfreed
  obtain ⟨freed, after⟩ := finish
  refine ⟨freed, ?_, ?_⟩
  · unfold Passes
    rw [hlocking]
    exact ⟨hheld, hfreed⟩
  · unfold guarded
    rw [hlocking]
    have hgiven : (locking.unlock taken).Does (Deed.Done setting) later
        [.unlock taken freed] freed := ⟨after, hunlock, .single ⟨locking, hlocking, hunlock⟩⟩
    exact .bind hlock (.single ⟨locking, hlocking, hlock⟩)
      (.bind heffect hdone (hgiven.bind_pure rfl))

theorem reach?_attempts (h : setting.held lock = false) :
    ∃ effect, setting.reach? none lock = some effect ∧ ∀ store, ∃ taken freed,
      setting.Passes ⟨lock, taken, freed⟩ ∧
      ((∃ value, effect.Does (Deed.Done setting) store
          (setting.completing ⟨lock, taken, freed⟩ value)
          (.ok (), keeping setting.locking (some value), freed)) ∨
        ∃ kind shell, effect.Does (Deed.Done setting) store
          (setting.failing ⟨lock, taken, freed⟩ kind shell)
          (.error kind, keeping setting.locking none, freed)) := by
  unfold held at h
  unfold reach? completing failing
  cases hlocking : setting.locking with
  | none =>
    refine ⟨_, rfl, fun store => ⟨lock, lock, ?_, ?_⟩⟩
    · unfold Passes
      rw [hlocking]
    · unfold guarded
      rw [hlocking]
      rcases setting.init_does store with ⟨value, hdoes⟩ | ⟨kind, shell, hdoes⟩
      · exact Or.inl ⟨value, hdoes.bind_pure rfl⟩
      · exact Or.inr ⟨kind, shell, hdoes.bind_pure rfl⟩
  | some locking =>
    rw [hlocking] at h
    refine ⟨_, if_neg (by simpa using h), fun store => ?_⟩
    obtain ⟨taken, between, hguarded⟩ := does_guarded hlocking h store
      (SharedSingleton.complete setting.element setting.phases setting.spot
        { locking := locking })
    rcases setting.complete_does locking between with ⟨value, hdoes⟩ | ⟨kind, shell, hdoes⟩
    · obtain ⟨freed, hpasses, hall⟩ := hguarded _ _ _ hdoes
      exact ⟨taken, freed, hpasses, Or.inl ⟨value, hall⟩⟩
    · obtain ⟨freed, hpasses, hall⟩ := hguarded _ _ _ hdoes
      exact ⟨taken, freed, hpasses, Or.inr ⟨kind, shell, hall⟩⟩

end Setting
end Singleton
end Freehold
