import Freehold.Proofs.Nest.OwnedAssets

/-!
# Bare steps of nested owners

What it takes to build or to copy a nested owner as long as nothing fails: a block for each
vector of elements with a size, unless it stays empty, a block for the value of each unique owner,
and the steps of the leaves in their order.  The bare steps clean nothing up, so they tell which
failure is the first.
-/

namespace Freehold

/-! ## Leaf types -/

namespace Leaf

def bornSteps (leaf : Leaf) (datum : Datum) : Attempt Unit := do
  let _ ← leaf.born datum
  pure ()

/-- User code comes before the value. -/
def createSteps (leaf : Leaf) (datum : Datum) : Attempt Unit := do
  Attempt.hook
  leaf.bornSteps datum

def drawSteps (leaf : Leaf) (draws : Layout) (datum : Datum) : Attempt Unit := do
  let _ ← Allocator.allocate draws
  leaf.createSteps datum

/-- A shell comes before user code. -/
def completeSteps (leaf : Leaf) (datum : Datum) : Attempt Unit := do
  let shell ← leaf.born (.number 0)
  Attempt.hook
  match shell.serial with
  | some serial => Effect.announce (.completed serial datum.toInt)
  | none => pure ()

def buildSteps (leaf : Leaf) (datum : Datum) : Attempt Unit :=
  match leaf.building with
  | .inPlace => leaf.completeSteps datum
  | .withAllocator draws => leaf.drawSteps draws datum
  | .factory => leaf.createSteps datum
  | .plain => leaf.bornSteps datum

def makeSteps (leaf : Leaf) (datum : Datum) : Attempt Unit :=
  match leaf.building with
  | .withAllocator draws => leaf.drawSteps draws datum
  | .inPlace | .factory | .plain => leaf.bornSteps datum

def copySteps (leaf : Leaf) (datum : Datum) : Attempt Unit :=
  match leaf.copying with
  | .inAllocator draws | .allocateFrom draws => leaf.drawSteps draws datum
  | .self | .atPlace | .createFrom => leaf.createSteps datum
  | .copy => leaf.bornSteps datum

theorem born_covers (leaf : Leaf) (datum : Datum) :
    Attempt.Covers (ExceptT.lift (leaf.born datum)) (leaf.bornSteps datum) :=
  (Attempt.Covers.refl (ExceptT.lift (leaf.born datum))).forget

theorem create_covers (leaf : Leaf) (datum : Datum) :
    (leaf.create datum).Covers (leaf.createSteps datum) :=
  (Attempt.Covers.refl Attempt.hook).bind fun _ _ => leaf.born_covers datum

theorem draw_covers (leaf : Leaf) (draws : Layout) (datum : Datum) :
    (leaf.draw draws datum).Covers (leaf.drawSteps draws datum) := by
  refine (Attempt.Covers.refl (Allocator.allocate draws)).bind fun block other => ?_
  have hhook := Attempt.Covers.refl Attempt.hook
  refine (hhook.undoing (Allocator.deallocate block.address draws)).bind fun _ _ => ?_
  exact (leaf.born_covers datum).wrap fun piece =>
    { piece with drawn := some (block.address, draws) }

theorem complete_covers (leaf : Leaf) (spot : Spot) (datum : Datum) :
    Attempt.Covers
      (Phases.run leaf.element.toMovable
        { shell := leaf.born (.number 0), init := fun spot => leaf.complete spot datum } spot)
      (leaf.completeSteps datum) := by
  intro store
  have hsteps : leaf.completeSteps datum =
      (ExceptT.lift (leaf.born (.number 0)) : Attempt Piece) >>= fun shell =>
        Attempt.hook >>= fun _ =>
          match shell.serial with
          | some serial => ExceptT.lift (Effect.announce (.completed serial datum.toInt))
          | none => pure () := rfl
  rw [hsteps, Phases.run_apply, Effect.bind_apply, Attempt.bind_apply, Attempt.lift_apply]
  dsimp only
  generalize leaf.born (.number 0) store = born
  obtain ⟨⟨blank, serial, anchor, drawn⟩, between⟩ := born
  unfold complete
  dsimp only
  rw [Effect.bind_apply, Attempt.bind_apply, ExceptT.run]
  generalize Attempt.hook between = run
  obtain ⟨answer, after⟩ := run
  cases answer with
  | error kind => exact .error kind _ after
  | ok done =>
    cases serial with
    | none => exact .ok _ () after
    | some serial => exact .ok _ () _

theorem builder_covers (leaf : Leaf) (spot : Spot) (datum : Datum) :
    (leaf.builder.constructAt spot datum).Covers (leaf.buildSteps datum) := by
  show (leaf.construction.constructAt leaf.element.toMovable spot datum).Covers _
  unfold construction buildSteps
  cases leaf.building with
  | inPlace => exact leaf.complete_covers spot datum
  | withAllocator draws => exact leaf.draw_covers draws datum
  | factory => exact leaf.create_covers datum
  | plain => exact leaf.born_covers datum

theorem make_covers (leaf : Leaf) (datum : Datum) :
    (leaf.make datum).Covers (leaf.makeSteps datum) := by
  unfold make makeSteps
  cases leaf.building with
  | withAllocator draws => exact leaf.draw_covers draws datum
  | inPlace | factory | plain => exact leaf.born_covers datum

theorem copier_covers (leaf : Leaf) (spot : Spot) (source : Piece) :
    (leaf.copier.cloneAt spot source).Covers (leaf.copySteps source.datum) := by
  show (leaf.cloning.cloneAt spot source).Covers _
  unfold cloning copySteps
  cases leaf.copying with
  | inAllocator draws | allocateFrom draws => exact leaf.draw_covers draws source.datum
  | self | createFrom => exact leaf.create_covers source.datum
  | atPlace => exact (leaf.create_covers source.datum).wrap (leaf.anchorAt spot)
  | copy => exact leaf.born_covers source.datum

end Leaf

/-! ## Vectors -/

namespace Vec

variable {α β : Type} {element : Element α}

/-- The step in which a vector gets the room for so many elements. -/
def roomSteps (element : Element α) (count : Nat) : Attempt Unit :=
  if element.layout.size = 0 ∨ count = 0 then pure ()
  else
    match element.layout.array? count with
    | none => throw .integerOverflow
    | some wanted => do
      let _ ← Allocator.allocate wanted
      pure ()

/-- There is room for all elements before the first of them comes to be. -/
def fillSteps (element : Element α) (steps : β → Attempt Unit) (all : List β) : Attempt Unit := do
  roomSteps element all.length
  all.forM steps

theorem reserve_covers {count : Nat} (hword : count < Word.limit) :
    ((empty element).reserve element count).Covers (roomSteps element count) := by
  unfold reserve roomSteps
  by_cases hroom : count ≤ (empty element).capacity
  · have hnone : element.layout.size = 0 ∨ count = 0 := by
      by_cases hsized : element.layout.size = 0
      · exact Or.inl hsized
      · have hcapacity : (empty element).capacity = 0 := if_neg hsized
        omega
    rw [if_pos hroom, if_pos hnone]
    exact .pure (empty element) ()
  · obtain ⟨hsized, hcount⟩ := sized_of_more hword hroom
    have hnone : (empty element).bufferLayout? element = none := if_pos (Or.inr (if_neg hsized))
    rw [if_neg hroom, if_neg (by omega), hnone]
    cases element.layout.array? count with
    | none => exact fun store => .error .integerOverflow store store
    | some wanted =>
      exact (Attempt.Covers.refl (Allocator.allocate wanted)).bind fun block _ =>
        .pure ((empty element).adopt element block) ()

theorem copyAll_covers {copier : Copier α} {steps : α → Attempt Unit} {values : List α}
    (hcopier : ∀ value ∈ values, ∀ spot, (copier.cloneAt spot value).Covers (steps value))
    (copy : Vec α) : (copyAll element copier copy values).Covers (values.forM steps) := by
  induction values generalizing copy with
  | nil => exact .pure copy ()
  | cons value rest ih =>
    have hfresh := hcopier value List.mem_cons_self (.slot copy.buffer copy.length)
    refine (hfresh.undoing (copy.drop element)).bind fun fresh _ => ?_
    exact ih (fun other hmem => hcopier other (List.mem_cons_of_mem value hmem)) (copy.append fresh)

theorem clone_covers {copier : Copier α} {steps : α → Attempt Unit} {source : Vec α}
    (hlength : source.toList.length = source.length) (hword : source.length < Word.limit)
    (hcopier : ∀ value ∈ source.toList, ∀ spot,
      (copier.cloneAt spot value).Covers (steps value)) :
    (clone element copier source).Covers (fillSteps element steps source.toList) := by
  unfold clone fillSteps
  rw [hlength]
  exact (reserve_covers hword).bind fun room _ => copyAll_covers hcopier room

theorem pushAll_covers {make : β → Attempt α} {steps : β → Attempt Unit} {all : List β}
    (hmake : ∀ args ∈ all, (make args).Covers (steps args)) (vec : Vec α)
    (hroom : vec.length + all.length ≤ vec.capacity) :
    (pushAll element make vec all).Covers (all.forM steps) := by
  induction all generalizing vec with
  | nil => exact .pure vec ()
  | cons args rest ih =>
    rw [List.length_cons] at hroom
    rw [pushAll_cons (by omega)]
    have hmade := hmake args List.mem_cons_self
    refine (hmade.undoing (vec.drop element)).bind fun value _ => ?_
    refine ih (fun other hmem => hmake other (List.mem_cons_of_mem args hmem)) (vec.append value) ?_
    show vec.length + 1 + rest.length ≤ vec.capacity
    omega

theorem ofArguments_covers {make : β → Attempt α} {steps : β → Attempt Unit} {all : List β}
    (hmake : ∀ args ∈ all, (make args).Covers (steps args)) (hword : all.length < Word.limit) :
    (ofArguments element make all).Covers (fillSteps element steps all) := by
  refine (reserve_covers hword).bind_yielded (reserve_yields hword) fun room _ hready => ?_
  refine pushAll_covers hmake room ?_
  rw [hready.length_eq, Nat.zero_add]
  exact hready.room

end Vec

/-! ## Nests -/

namespace Nest

/-- Builds by the steps of a leaf type, or else an owner by its own making. -/
def buildStepsFrom (nest : Nest) (makeSteps : nest.Args → Attempt Unit) :
    nest.Args → Attempt Unit :=
  match nest with
  | leaf type => type.buildSteps
  | vec _ | unique _ => makeSteps

def makeSteps : (nest : Nest) → nest.Args → Attempt Unit
  | leaf type => type.makeSteps
  | vec inner => Vec.fillSteps inner.element inner.makeSteps
  | unique inner => fun args =>
    Unique.steps inner.element.layout fun _ => inner.buildStepsFrom inner.makeSteps args

def buildSteps (nest : Nest) : nest.Args → Attempt Unit := nest.buildStepsFrom nest.makeSteps

def copySteps : (nest : Nest) → nest.Carrier → Attempt Unit
  | leaf type, (source : Piece) => type.copySteps source.datum
  | vec inner, (source : Vec inner.Carrier) =>
    Vec.fillSteps inner.element inner.copySteps source.toList
  | unique inner, (source : Unique inner.Carrier) =>
    Unique.steps inner.element.layout fun _ => inner.copySteps source.value

theorem make_covers {nest : Nest} {args : nest.Args} (hfits : nest.Fits args) :
    (nest.make args).Covers (nest.makeSteps args) ∧
      ∀ spot, (nest.builder.constructAt spot args).Covers (nest.buildSteps args) := by
  induction nest with
  | leaf type =>
    exact ⟨type.make_covers args, fun spot => type.builder_covers spot args⟩
  | vec inner ih =>
    have hmade : (make (vec inner) args).Covers (makeSteps (vec inner) args) :=
      Vec.ofArguments_covers (fun other hmem => (ih (hfits.2 other hmem)).1) hfits.1
    exact ⟨hmade, fun _ => hmade⟩
  | unique inner ih =>
    have hmade : (make (unique inner) args).Covers (makeSteps (unique inner) args) :=
      Unique.place_covers inner.element (ih hfits).2 (pure ())
    exact ⟨hmade, fun _ => hmade⟩

theorem copier_covers {nest : Nest} {source : nest.Carrier} (hwhole : nest.Whole source)
    (spot : Spot) : (nest.copier.cloneAt spot source).Covers (nest.copySteps source) := by
  induction nest generalizing spot with
  | leaf type => exact type.copier_covers spot source
  | vec inner ih =>
    exact Vec.clone_covers hwhole.1 hwhole.2.1 fun value hmem => ih (hwhole.2.2 value hmem)
  | unique inner ih => exact Unique.place_covers inner.element (ih hwhole) (pure ())

end Nest
end Freehold
