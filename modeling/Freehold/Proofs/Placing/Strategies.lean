import Freehold.Element.Basic
import Freehold.Proofs.Placing.EffectAccounting

/-!
# Careful strategies

User code is careful if a value that it makes owns everything that was put on record for
it, and if a hook that fails leaves nothing of its own behind.  The second phase of a
value in place may leave its traces in the shell, which is destroyed then.  Under this
assumption every strategy, in the place it is given, makes a value or leaves nothing.

The steps of a strategy are what it does as long as nothing fails.  They clean nothing up,
so they say which error is the first.
-/

namespace Freehold

section Careful

variable {α β : Type}

/-- A destructor that gives up what values own, and nothing else. -/
def Disposes (destroy : α → Effect Unit) (owns : α → Assets) : Prop :=
  ∀ value, (destroy value).Turns (owns value) (fun _ => 0)

/-- Whether or not it is completed, a shell owns what was made for it. -/
def Phases.Careful (phases : Phases α) (owns : α → Assets) (given : Assets) : Prop :=
  ∀ spot, Effect.Turns (phases.shell >>= phases.init spot) given (fun reached => owns reached.2)

def Construction.Careful (construction : Construction β α) (owns : α → Assets) (args : β)
    (given : Assets) : Prop :=
  match construction with
  | inPlace phases => (phases args).Careful owns given
  | withAllocator allocate => (allocate args).Turns given owns 0
  | factory create => (create args).Turns given owns 0
  | plain convert => (convert args).Turns given owns

def Cloning.Careful (cloning : Cloning α) (owns : α → Assets) (original : α) : Prop :=
  match cloning with
  | inAllocator clone | self clone => (clone original).Turns 0 owns 0
  | atPlace cloneAt => ∀ spot, (cloneAt spot original).Turns 0 owns 0
  | allocateFrom allocate => (allocate original).Turns 0 owns 0
  | createFrom create => (create original).Turns 0 owns 0
  | copy duplicate => (duplicate original).Turns 0 owns

end Careful

/-! ## The first failing step -/

/-- Both come about and leave the same store, or both fail with the same error. -/
inductive Agrees {α β : Type} :
    Except ErrorKind α × Store → Except ErrorKind β × Store → Prop
  | ok (result : α) (value : β) (after : Store) : Agrees (.ok result, after) (.ok value, after)
  | error (kind : ErrorKind) (cleaned after : Store) :
    Agrees (.error kind, cleaned) (.error kind, after)

namespace Attempt

variable {α β γ δ : Type}

/-- An attempt fails when the steps fail, and then with the error of the steps. -/
def Covers (attempt : Attempt α) (steps : Attempt β) : Prop :=
  ∀ store : Store, Agrees (attempt store) (steps store)

theorem Covers.refl (attempt : Attempt α) : attempt.Covers attempt := by
  intro store
  rcases attempt store with ⟨answer, after⟩
  cases answer with
  | ok value => exact .ok value value after
  | error kind => exact .error kind after after

theorem Covers.pure (result : α) (value : β) : Covers (Pure.pure result) (Pure.pure value) :=
  fun store => .ok result value store

/-- What comes next has to be covered only after a value that can come about. -/
theorem Covers.bind_yielded {attempt : Attempt α} {steps : Attempt β} {next : α → Attempt γ}
    {later : β → Attempt δ} {good : α → Prop} (hfirst : attempt.Covers steps)
    (hyields : attempt.Yields good)
    (hnext : ∀ result value, good result → (next result).Covers (later value)) :
    Covers (attempt >>= next) (steps >>= later) := by
  intro store
  have hstore := hfirst store
  have hgood := hyields store
  rw [bind_apply, bind_apply]
  generalize attempt store = run, steps store = bare at hstore hgood
  cases hstore with
  | ok result value after => exact hnext result value (hgood result after rfl) after
  | error kind cleaned after => exact .error kind cleaned after

theorem Covers.bind {attempt : Attempt α} {steps : Attempt β} {next : α → Attempt γ}
    {later : β → Attempt δ} (hfirst : attempt.Covers steps)
    (hnext : ∀ result value, (next result).Covers (later value)) :
    Covers (attempt >>= next) (steps >>= later) := by
  have hany : attempt.Yields fun _ => True := fun _ _ _ _ => trivial
  exact hfirst.bind_yielded hany fun result value _ => hnext result value

theorem Covers.wrap {attempt : Attempt α} {steps : Attempt β} (h : attempt.Covers steps)
    (wrapped : α → γ) :
    Covers (attempt >>= fun result => Pure.pure (wrapped result)) steps := by
  intro store
  have hstore := h store
  rw [bind_apply]
  generalize attempt store = run, steps store = bare at hstore
  cases hstore with
  | ok result value after => exact .ok (wrapped result) value after
  | error kind cleaned after => exact .error kind cleaned after

theorem Covers.forget {attempt : Attempt α} {steps : Attempt β} (h : attempt.Covers steps) :
    Covers attempt (steps >>= fun _ => Pure.pure ()) := by
  intro store
  have hstore := h store
  rw [bind_apply]
  generalize attempt store = run, steps store = bare at hstore
  cases hstore with
  | ok result value after => exact .ok result () after
  | error kind cleaned after => exact .error kind cleaned after

/-- Undoing changes neither whether an attempt fails nor its error. -/
theorem Covers.undoing {attempt : Attempt α} {steps : Attempt β} (h : attempt.Covers steps)
    (undo : Effect Unit) : Covers (attempt.undoing undo) steps := by
  intro store
  have hstore := h store
  rw [undoing_apply]
  generalize attempt store = run, steps store = bare at hstore
  cases hstore with
  | ok result value after => exact .ok result value after
  | error kind cleaned after => exact .error kind _ after

/-- Steps that follow may depend on the value, which undoing does not change. -/
theorem Covers.undoing_bind (attempt : Attempt α) (undo : Effect Unit) {next : α → Attempt γ}
    {later : α → Attempt δ} (hnext : ∀ value, (next value).Covers (later value)) :
    Covers (attempt.undoing undo >>= next) (attempt >>= later) := by
  intro store
  rw [bind_apply, bind_apply, undoing_apply]
  rcases attempt store with ⟨answer, after⟩
  cases answer with
  | ok value => exact hnext value after
  | error kind => exact .error kind _ after

end Attempt

/-! ## Building in two phases -/

namespace Phases

variable {α : Type} {type : Movable α} {phases : Phases α}

def steps (phases : Phases α) (spot : Spot) : Attempt α :=
  ExceptT.mk do
    let reached ← phases.shell >>= phases.init spot
    pure (reached.1.map fun _ => reached.2)

theorem run_apply (type : Movable α) (phases : Phases α) (spot : Spot) (store : Store) :
    phases.run type spot store =
      match (phases.shell >>= phases.init spot) store with
      | ((.ok (), value), after) => (.ok value, after)
      | ((.error kind, value), after) => (.error kind, (type.destroy value after).2) := by
  rw [Effect.bind_apply]
  simp only [run, ExceptT.mk, bind, StateT.bind]
  rcases phases.shell store with ⟨shell, between⟩
  dsimp only
  rcases phases.init spot shell between with ⟨⟨answer, value⟩, after⟩
  cases answer with
  | ok done => rfl
  | error kind => rfl

theorem run_turns {owns : α → Assets} {given : Assets} (hphases : phases.Careful owns given)
    (htype : Disposes type.destroy owns) (spot : Spot) :
    (phases.run type spot).Turns given owns 0 := by
  rw [Attempt.turns_iff]
  intro store
  have hreached := hphases spot store
  rw [run_apply]
  generalize (phases.shell >>= phases.init spot) store = run at hreached
  obtain ⟨⟨answer, value⟩, after⟩ := run
  cases answer with
  | ok done => exact hreached
  | error kind => exact hreached.trans (htype value after)

theorem steps_apply (phases : Phases α) (spot : Spot) (store : Store) :
    phases.steps spot store =
      match (phases.shell >>= phases.init spot) store with
      | ((.ok (), value), after) => (.ok value, after)
      | ((.error kind, _), after) => (.error kind, after) := by
  simp only [steps, ExceptT.mk]
  rw [Effect.bind_apply]
  rcases (phases.shell >>= phases.init spot) store with ⟨⟨answer, value⟩, after⟩
  cases answer with
  | ok done => rfl
  | error kind => rfl

theorem run_covers (type : Movable α) (phases : Phases α) (spot : Spot) :
    (phases.run type spot).Covers (phases.steps spot) := by
  intro store
  rw [run_apply, steps_apply]
  rcases (phases.shell >>= phases.init spot) store with ⟨⟨answer, reached⟩, after⟩
  cases answer with
  | ok done => exact .ok reached reached after
  | error kind => exact .error kind _ after

end Phases

/-! ## Building and copying by strategy -/

section Strategies

variable {α β : Type} {owns : α → Assets}

namespace Construction

def steps (construction : Construction β α) (spot : Spot) (args : β) : Attempt α :=
  match construction with
  | inPlace phases => (phases args).steps spot
  | withAllocator allocate => allocate args
  | factory create => create args
  | plain convert => ExceptT.lift (convert args)

theorem constructAt_turns {construction : Construction β α} {args : β} {given : Assets}
    (h : construction.Careful owns args given) (type : Movable α)
    (htype : Disposes type.destroy owns) (spot : Spot) :
    (construction.constructAt type spot args).Turns given owns 0 := by
  cases construction with
  | inPlace phases => exact Phases.run_turns h htype spot
  | withAllocator allocate => exact h
  | factory create => exact h
  | plain convert => exact Attempt.turns_lift h

theorem constructAt_covers (construction : Construction β α) (type : Movable α) (spot : Spot)
    (args : β) :
    (construction.constructAt type spot args).Covers (construction.steps spot args) := by
  cases construction with
  | inPlace phases => exact Phases.run_covers type (phases args) spot
  | withAllocator allocate => exact .refl (allocate args)
  | factory create => exact .refl (create args)
  | plain convert => exact .refl (ExceptT.lift (convert args))

end Construction

theorem Cloning.cloneAt_turns {cloning : Cloning α} {original : α}
    (h : cloning.Careful owns original) (spot : Spot) :
    (cloning.cloneAt spot original).Turns 0 owns 0 := by
  cases cloning with
  | inAllocator clone => exact h
  | self clone => exact h
  | atPlace cloneAt => exact h spot
  | allocateFrom allocate => exact h
  | createFrom create => exact h
  | copy duplicate => exact Attempt.turns_lift h

end Strategies
end Freehold
