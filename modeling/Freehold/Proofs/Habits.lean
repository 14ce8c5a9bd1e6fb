import Freehold.Element.Leaf
import Freehold.Proofs.Attempt

/-!
# Habits of effects

A habit is a way in which effects change stores that adds up over time.  What is composed of
effects with a habit has it too, whether attempts come about or not.  The code of a leaf type
is composed of few effects, so it has every habit that these have.  A habit may be one of some
leaf types only, as when it depends on the layouts of the blocks that they draw.
-/

namespace Freehold

/-- Whatever the store, the effect leaves one that is related to it. -/
def Effect.Leads {γ : Type} (related : Store → Store → Prop) (effect : Effect γ) : Prop :=
  ∀ store, related store (effect store).2

structure Habit (related : Store → Store → Prop) : Prop where
  refl : ∀ store, related store store
  trans : ∀ {before middle after}, related before middle → related middle after →
    related before after

namespace Habit

variable {related : Store → Store → Prop} (habit : Habit related) {γ δ : Type}

include habit

theorem pure (value : γ) : Effect.Leads related (Pure.pure value) :=
  fun store => habit.refl store

theorem bind {effect : Effect γ} {next : γ → Effect δ} (h : effect.Leads related)
    (hnext : ∀ value, (next value).Leads related) : (effect >>= next).Leads related :=
  fun store => habit.trans (h store) (hnext _ _)

theorem attempt_bind {attempt : Attempt γ} {next : γ → Attempt δ}
    (h : Effect.Leads related attempt.run)
    (hnext : ∀ value, Effect.Leads related (next value).run) :
    Effect.Leads related (attempt >>= next).run := by
  intro store
  have hfirst : related store (attempt store).2 := h store
  show related store ((attempt >>= next) store).2
  rw [Attempt.bind_apply]
  generalize attempt store = run at hfirst ⊢
  obtain ⟨answer, middle⟩ := run
  cases answer with
  | error kind => exact hfirst
  | ok value => exact habit.trans hfirst (hnext value middle)

theorem undoing {attempt : Attempt γ} {undo : Effect Unit}
    (h : Effect.Leads related attempt.run) (hundo : undo.Leads related) :
    Effect.Leads related (attempt.undoing undo).run := by
  intro store
  have hfirst : related store (attempt store).2 := h store
  show related store (attempt.undoing undo store).2
  rw [Attempt.undoing_apply]
  generalize attempt store = run at hfirst ⊢
  obtain ⟨answer, middle⟩ := run
  cases answer with
  | error kind => exact habit.trans hfirst (hundo middle)
  | ok value => exact hfirst

end Habit

/-! ## Leaf types -/

/-- A layout of the blocks that values of the type draw when they are built or copied. -/
inductive Leaf.Draws (leaf : Leaf) (layout : Layout) : Prop
  | built (h : leaf.building = .withAllocator layout)
  | copied (h : leaf.copying = .inAllocator layout)
  | copiedFrom (h : leaf.copying = .allocateFrom layout)

def Event.isBirth : Event → Bool
  | .created _ _ => true
  | _ => false

/-- A habit of all the effects that the code of a leaf type is composed of.  An object is
announced under its number as soon as the number is given to it. -/
structure LeafHabit (related : Store → Store → Prop) (leaf : Leaf) : Prop
    extends Habit related where
  bears : ∀ datum, (leaf.born datum).Leads related
  announces : ∀ event : Event, event.isBirth = false → (Effect.announce event).Leads related
  /-- The plan may let user code fail. -/
  plans : Effect.Leads related Attempt.hook.run
  draws : ∀ layout, leaf.Draws layout → Effect.Leads related (Allocator.allocate layout).run
  deallocates : ∀ address layout, (Allocator.deallocate address layout).Leads related

/-- A habit of these effects whatever the leaf type. -/
structure EffectHabit (related : Store → Store → Prop) : Prop extends Habit related where
  announces : ∀ event, (Effect.announce event).Leads related
  numbers : Effect.freshSerial.Leads related
  plans : Effect.Leads related Attempt.hook.run
  allocates : ∀ layout, Effect.Leads related (Allocator.allocate layout).run
  deallocates : ∀ address layout, (Allocator.deallocate address layout).Leads related

theorem EffectHabit.leaf {related : Store → Store → Prop} (habit : EffectHabit related)
    (leaf : Leaf) : LeafHabit related leaf where
  toHabit := habit.toHabit
  bears datum := by
    unfold Leaf.born
    cases leaf.identity with
    | silent => exact habit.pure _
    | anonymous => exact habit.bind (habit.announces _) fun _ => habit.pure _
    | numbered =>
      refine habit.bind habit.numbers fun serial => ?_
      exact habit.bind (habit.announces _) fun _ => habit.pure _
  announces event _ := habit.announces event
  plans := habit.plans
  draws layout _ := habit.allocates layout
  deallocates := habit.deallocates

namespace Leaf

variable {related : Store → Store → Prop} (leaf : Leaf) (habit : LeafHabit related leaf)

include habit

theorem destroy_leads (piece : Piece) : (leaf.destroy piece).Leads related := by
  unfold destroy
  refine habit.bind ?_ fun _ => ?_
  · unfold freeDrawn
    cases piece.drawn with
    | none => exact habit.pure ()
    | some block => exact habit.deallocates _ _
  · split
    · exact habit.announces _ rfl
    · exact habit.announces _ rfl
    · exact habit.pure ()

theorem relocate_leads (source target : Spot) (piece : Piece) :
    (leaf.relocate source target piece).Leads related := by
  unfold relocate
  by_cases hanchored : leaf.anchored = true
  · rw [if_pos hanchored]
    cases piece.serial with
    | none => exact habit.pure _
    | some serial => exact habit.bind (habit.announces _ rfl) fun _ => habit.pure _
  · rw [if_neg hanchored]
    exact habit.pure piece

theorem complete_leads (spot : Spot) (datum : Datum) (shell : Piece) :
    (leaf.complete spot datum shell).Leads related := by
  unfold complete
  refine habit.bind habit.plans fun answer => ?_
  cases answer with
  | error kind => exact habit.pure _
  | ok done =>
    cases shell.serial with
    | none => exact habit.pure _
    | some serial => exact habit.bind (habit.announces _ rfl) fun _ => habit.pure _

theorem phases_leads (spot : Spot) (datum : Datum) :
    Effect.Leads related (Phases.run leaf.element.toMovable
      { shell := leaf.born (.number 0), init := fun spot => leaf.complete spot datum }
      spot).run := by
  refine habit.bind (habit.bears _) fun shell => ?_
  refine habit.bind (leaf.complete_leads habit spot datum shell) fun answer => ?_
  obtain ⟨done, piece⟩ := answer
  cases done with
  | ok done => exact habit.pure _
  | error kind => exact habit.bind (leaf.destroy_leads habit piece) fun _ => habit.pure _

theorem draw_leads {draws : Layout} (hdraws : leaf.Draws draws) (datum : Datum) :
    Effect.Leads related (leaf.draw draws datum).run := by
  unfold draw
  refine habit.attempt_bind (habit.draws draws hdraws) fun block => ?_
  refine habit.attempt_bind (habit.undoing habit.plans (habit.deallocates _ _)) fun _ => ?_
  have hborn : Effect.Leads related (ExceptT.lift (leaf.born datum) : Attempt Piece).run :=
    habit.bears datum
  exact habit.attempt_bind hborn fun _ => habit.pure _

theorem create_leads (datum : Datum) : Effect.Leads related (leaf.create datum).run :=
  habit.attempt_bind habit.plans fun _ => habit.bears datum

theorem make_leads (datum : Datum) : Effect.Leads related (leaf.make datum).run := by
  unfold make
  cases hbuilding : leaf.building with
  | withAllocator draws => exact leaf.draw_leads habit (.built hbuilding) datum
  | inPlace | factory | plain => exact habit.bears datum

theorem builder_leads (spot : Spot) (datum : Datum) :
    Effect.Leads related (leaf.builder.constructAt spot datum).run := by
  show Effect.Leads related (leaf.construction.constructAt leaf.element.toMovable spot datum).run
  unfold construction
  cases hbuilding : leaf.building with
  | inPlace => exact leaf.phases_leads habit spot datum
  | withAllocator draws => exact leaf.draw_leads habit (.built hbuilding) datum
  | factory => exact leaf.create_leads habit datum
  | plain => exact habit.bears datum

theorem copier_leads (spot : Spot) (piece : Piece) :
    Effect.Leads related (leaf.copier.cloneAt spot piece).run := by
  show Effect.Leads related (leaf.cloning.cloneAt spot piece).run
  unfold cloning
  cases hcopying : leaf.copying with
  | inAllocator draws => exact leaf.draw_leads habit (.copied hcopying) piece.datum
  | allocateFrom draws => exact leaf.draw_leads habit (.copiedFrom hcopying) piece.datum
  | self | createFrom => exact leaf.create_leads habit piece.datum
  | atPlace =>
    exact habit.attempt_bind (leaf.create_leads habit piece.datum) fun _ => habit.pure _
  | copy => exact habit.bears piece.datum

end Leaf
end Freehold
