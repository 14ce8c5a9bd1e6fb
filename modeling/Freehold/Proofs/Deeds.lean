import Freehold.Proofs.Attempt
import Freehold.Proofs.Memory.Requests

/-!
# Deeds

What an effect does to the store can be told as a list of deeds, each of which leads from
one store to the next.  Which deeds there are is up to the part of the program that is
told about.
-/

namespace Freehold

/-- The deeds done in their order, and nothing else. -/
inductive AllDone {δ : Type} (done : δ → Store → Store → Prop) (before : Store) :
    List δ → Store → Prop
  | none : AllDone done before [] before
  | next {deeds : List δ} {deed : δ} {between after : Store}
      (hearlier : AllDone done before deeds between) (hdeed : done deed between after) :
    AllDone done before (deeds ++ [deed]) after

/-- The effect comes to the result by doing the deeds, and nothing else. -/
def Effect.Does {δ β : Type} (done : δ → Store → Store → Prop) (effect : Effect β)
    (before : Store) (deeds : List δ) (result : β) : Prop :=
  ∃ after, effect before = (result, after) ∧ AllDone done before deeds after

namespace AllDone

variable {δ : Type} {done : δ → Store → Store → Prop} {before between after : Store}

theorem single {deed : δ} (h : done deed before after) : AllDone done before [deed] after :=
  .next .none h

theorem append {first second : List δ} (hfirst : AllDone done before first between)
    (hsecond : AllDone done between second after) :
    AllDone done before (first ++ second) after := by
  induction hsecond with
  | none => rwa [List.append_nil]
  | next _ hdeed ih =>
    rw [← List.append_assoc]
    exact .next ih hdeed

/-- The same deeds under other names. -/
theorem map {δ' : Type} {done' : δ' → Store → Store → Prop} {name : δ → δ'} {deeds : List δ}
    (h : AllDone done before deeds after)
    (hdone : ∀ deed before after, done deed before after → done' (name deed) before after) :
    AllDone done' before (deeds.map name) after := by
  induction h with
  | none => exact .none
  | next _ hdeed ih =>
    rw [List.map_append]
    exact .next ih (hdone _ _ _ hdeed)

end AllDone

namespace Effect.Does

variable {δ β γ : Type} {done : δ → Store → Store → Prop} {effect : Effect β} {before : Store}
  {deeds later : List δ} {value : β}

theorem pure (done : δ → Store → Store → Prop) (value : β) (store : Store) :
    Does done (Pure.pure value) store [] value :=
  ⟨store, rfl, .none⟩

theorem bind {next : β → Effect γ} {result : γ} {between : Store}
    (heffect : effect before = (value, between)) (hdone : AllDone done before deeds between)
    (hnext : (next value).Does done between later result) :
    (effect >>= next).Does done before (deeds ++ later) result := by
  obtain ⟨after, hresult, hlater⟩ := hnext
  exact ⟨after, by rw [bind_apply, heffect]; exact hresult, hdone.append hlater⟩

/-- What follows does nothing. -/
theorem bind_pure {next : β → Effect γ} {result : γ} (h : effect.Does done before deeds value)
    (hnext : next value = Pure.pure result) :
    (effect >>= next).Does done before deeds result := by
  obtain ⟨after, heffect, hdone⟩ := h
  exact ⟨after, by rw [bind_apply, heffect, hnext]; rfl, hdone⟩

end Effect.Does

/-! ## Attempts -/

namespace Attempt

/-- The attempt comes to the answer by doing the deeds, and nothing else. -/
abbrev Does {δ α : Type} (done : δ → Store → Store → Prop) (attempt : Attempt α)
    (before : Store) (deeds : List δ) (answer : Except ErrorKind α) : Prop :=
  Effect.Does done attempt.run before deeds answer

variable {δ α β : Type} {done : δ → Store → Store → Prop} {attempt : Attempt α} {before : Store}
  {deeds later : List δ} {value : α} {kind : ErrorKind} {undo : Effect Unit}

theorem Does.pure (done : δ → Store → Store → Prop) (value : α) (store : Store) :
    Does done (Pure.pure value) store [] (.ok value) :=
  ⟨store, rfl, .none⟩

theorem Does.bind {next : α → Attempt β} {answer : Except ErrorKind β} {between : Store}
    (hattempt : attempt.run before = (.ok value, between))
    (hdone : AllDone done before deeds between)
    (hnext : (next value).Does done between later answer) :
    (attempt >>= next).Does done before (deeds ++ later) answer := by
  obtain ⟨after, hanswer, hlater⟩ := hnext
  rw [ExceptT.run] at hattempt
  refine ⟨after, ?_, hdone.append hlater⟩
  show (attempt >>= next) before = (answer, after)
  rw [bind_apply, hattempt]
  exact hanswer

/-- What follows does nothing and cannot fail. -/
theorem Does.map (make : α → β) (h : attempt.Does done before deeds (.ok value)) :
    Does done (do let value ← attempt; Pure.pure (make value)) before deeds
      (.ok (make value)) := by
  obtain ⟨between, hattempt, hdone⟩ := h
  have hbind : (attempt >>= fun value => Pure.pure (make value)).Does done before (deeds ++ [])
      (.ok (make value)) := .bind hattempt hdone (.pure done (make value) between)
  rwa [List.append_nil] at hbind

theorem Does.bind_error (h : attempt.Does done before deeds (.error kind))
    (next : α → Attempt β) : (attempt >>= next).Does done before deeds (.error kind) := by
  obtain ⟨after, hattempt, hdone⟩ := h
  rw [ExceptT.run] at hattempt
  refine ⟨after, ?_, hdone⟩
  show (attempt >>= next) before = (.error kind, after)
  rw [bind_apply, hattempt]

theorem Does.undoing (h : attempt.Does done before deeds (.ok value)) (undo : Effect Unit) :
    (attempt.undoing undo).Does done before deeds (.ok value) := by
  obtain ⟨after, hattempt, hdone⟩ := h
  rw [ExceptT.run] at hattempt
  refine ⟨after, ?_, hdone⟩
  show attempt.undoing undo before = (.ok value, after)
  rw [undoing_apply, hattempt]

theorem Does.undone (h : attempt.Does done before deeds (.error kind))
    (hundo : ∀ between, undo.Does done between later ()) :
    (attempt.undoing undo).Does done before (deeds ++ later) (.error kind) := by
  obtain ⟨between, hattempt, hdone⟩ := h
  obtain ⟨after, hundone, hlater⟩ := hundo between
  rw [ExceptT.run] at hattempt
  refine ⟨after, ?_, hdone.append hlater⟩
  show attempt.undoing undo before = (.error kind, after)
  rw [undoing_apply, hattempt]
  show (Except.error kind, (undo between).2) = (.error kind, after)
  rw [hundone]

end Attempt
end Freehold
