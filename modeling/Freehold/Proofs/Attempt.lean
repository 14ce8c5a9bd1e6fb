import Freehold.Store

/-!
# Reading attempts

An attempt run on a store gives an answer and the store that it leaves.  These
equations say so for each way of putting attempts together, whether they come about or
fail.
-/

namespace Freehold

namespace Effect

variable {α β : Type}

theorem pure_apply (value : α) (store : Store) : (pure value : Effect α) store = (value, store) :=
  rfl

theorem bind_apply (effect : Effect α) (next : α → Effect β) (store : Store) :
    (effect >>= next) store = next (effect store).1 (effect store).2 := rfl

end Effect

namespace Attempt

variable {α β : Type}

theorem pure_apply (value : α) (store : Store) :
    (pure value : Attempt α) store = (.ok value, store) := rfl

theorem lift_apply (effect : Effect α) (store : Store) :
    (ExceptT.lift effect : Attempt α) store = (.ok (effect store).1, (effect store).2) := rfl

theorem lift_bind (effect : Effect α) (next : α → Effect β) :
    (ExceptT.lift (effect >>= next) : Attempt β) =
      ExceptT.lift effect >>= fun value => ExceptT.lift (next value) := rfl

theorem bind_apply (attempt : Attempt α) (next : α → Attempt β) (store : Store) :
    (attempt >>= next) store =
      match attempt store with
      | (.ok value, middle) => next value middle
      | (.error kind, middle) => (.error kind, middle) := by
  show (match attempt store with | (answer, middle) => ExceptT.bindCont next answer middle) = _
  rcases attempt store with ⟨answer, middle⟩
  cases answer with
  | error kind => rfl
  | ok value => rfl

theorem undoing_apply (attempt : Attempt α) (undo : Effect Unit) (store : Store) :
    attempt.undoing undo store =
      match attempt store with
      | (.ok value, middle) => (.ok value, middle)
      | (.error kind, middle) => (.error kind, (undo middle).2) := by
  unfold undoing
  simp only [bind, ExceptT.mk, ExceptT.run, StateT.bind]
  rcases attempt store with ⟨answer, middle⟩
  cases answer with
  | error kind => rfl
  | ok value => rfl

theorem undoing_pure (value : α) (undo : Effect Unit) :
    undoing (pure value) undo = pure value := by
  funext store
  rw [undoing_apply, pure_apply]

theorem undoing_bind (attempt : Attempt α) (next : α → Attempt β) (undo : Effect Unit) :
    undoing (attempt >>= next) undo =
      attempt.undoing undo >>= fun value => (next value).undoing undo := by
  funext store
  rw [undoing_apply, bind_apply, bind_apply, undoing_apply]
  rcases attempt store with ⟨answer, middle⟩
  cases answer with
  | error kind => rfl
  | ok value =>
    dsimp only
    rw [undoing_apply]

theorem undoing_map (change : α → β) (attempt : Attempt α) (undo : Effect Unit) :
    undoing (change <$> attempt) undo = change <$> attempt.undoing undo := by
  rw [← bind_pure_comp, ← bind_pure_comp, undoing_bind]
  simp only [undoing_pure]

theorem undoing_then (attempt : Attempt α) (first second : Effect Unit) :
    attempt.undoing (first >>= fun _ => second) = (attempt.undoing first).undoing second := by
  funext store
  rw [undoing_apply, undoing_apply, undoing_apply]
  rcases attempt store with ⟨answer, middle⟩
  cases answer with
  | error kind => rfl
  | ok value => rfl

theorem bind_ok {attempt : Attempt α} {next : α → Attempt β} {store store' : Store}
    {result : β} (h : (attempt >>= next) store = (.ok result, store')) :
    ∃ value middle, attempt store = (.ok value, middle) ∧
      next value middle = (.ok result, store') := by
  rw [bind_apply] at h
  cases hrun : attempt store with
  | mk answer middle =>
    rw [hrun] at h
    cases answer with
    | error kind => cases h
    | ok value => exact ⟨value, middle, rfl, h⟩

theorem undoing_ok {attempt : Attempt α} {undo : Effect Unit} {store store' : Store}
    {result : α} (h : attempt.undoing undo store = (.ok result, store')) :
    attempt store = (.ok result, store') := by
  rw [undoing_apply] at h
  cases hrun : attempt store with
  | mk answer middle =>
    rw [hrun] at h
    cases answer with
    | error kind => cases h
    | ok value => exact h

/-! ## Values that can come about -/

/-- Whatever value the attempt comes about with is a good one. -/
def Yields (attempt : Attempt α) (good : α → Prop) : Prop :=
  ∀ store value after, attempt store = (.ok value, after) → good value

theorem yields_pure {good : α → Prop} {value : α} (h : good value) : Yields (pure value) good := by
  intro store result after hrun
  obtain rfl := Except.ok.inj (Prod.mk.inj hrun).1
  exact h

theorem yields_throw (kind : ErrorKind) (good : α → Prop) :
    Yields (throw kind : Attempt α) good := by
  intro store value after hrun
  cases hrun

theorem yields_lift {effect : Effect α} {good : α → Prop} (h : ∀ store, good (effect store).1) :
    Yields (ExceptT.lift effect) good := by
  intro store value after hrun
  rw [lift_apply] at hrun
  obtain rfl := Except.ok.inj (Prod.mk.inj hrun).1
  exact h store

theorem Yields.bind {attempt : Attempt α} {next : α → Attempt β} {good : α → Prop}
    {fine : β → Prop} (h : attempt.Yields good)
    (hnext : ∀ value, good value → (next value).Yields fine) :
    Yields (attempt >>= next) fine := by
  intro store result after hrun
  obtain ⟨value, middle, hfirst, hsecond⟩ := bind_ok hrun
  exact hnext value (h store value middle hfirst) middle result after hsecond

/-- What comes before may yield anything. -/
theorem Yields.after {attempt : Attempt α} {next : α → Attempt β} {fine : β → Prop}
    (hnext : ∀ value, (next value).Yields fine) : Yields (attempt >>= next) fine := by
  intro store result after hrun
  obtain ⟨value, middle, -, hsecond⟩ := bind_ok hrun
  exact hnext value middle result after hsecond

theorem Yields.undoing {attempt : Attempt α} {good : α → Prop} (h : attempt.Yields good)
    (undo : Effect Unit) : (attempt.undoing undo).Yields good :=
  fun store value after hrun => h store value after (undoing_ok hrun)

end Attempt
end Freehold
