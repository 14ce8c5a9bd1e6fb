import Freehold.Element.Catalogue
import Freehold.Proofs.Placing.Leaves
import Freehold.Proofs.Placing.Owners

/-!
# Factories that place a single value

A value is placed under a unique owner, in a group of shared ownership, under an
intrusive count, or in a wrapper on the heap.  It is handed over, built from arguments or
copied.  Whatever may fail on the way, a factory places the value with everything that it
owns, or leaves nothing behind and reports the first failure.
-/

namespace Freehold

/-- What factories know of a type and of the arguments from which its values are built. -/
structure Craft (β α : Type) where
  element : Element α
  shared : SharedType α
  counted : CountedType α
  /-- What becomes of arguments that are not used. -/
  discard : β → Effect Unit

/-- Destructors give up what values own, and so does what becomes of unused arguments.  A
link to its own group is nothing that a value owns. -/
structure Craft.Careful {α β : Type} (craft : Craft β α) (owns : α → Assets)
    (cost : β → Assets) : Prop where
  destroy : Disposes craft.element.destroy owns
  destroyShared : Disposes (craft.shared.destroy .unowned) owns
  destroyCounted : Disposes (CountedValues.discard craft.counted) owns
  link : ∀ value, owns (craft.shared.link value) = owns value
  discard : Disposes craft.discard cost

/-- A leaf type as a value of any owner. -/
def Leaf.craft (leaf : Leaf) : Craft Datum Piece where
  element := leaf.element
  shared := { destroy := fun _ => leaf.destroy, linked := fun _ => false, link := id }
  counted := { layout := leaf.layout, destroy := fun _ => leaf.destroy }
  discard _ := pure ()

theorem Leaf.craft_careful (leaf : Leaf) : leaf.craft.Careful leaf.owns fun _ => 0 where
  destroy := leaf.destroy_disposes
  destroyShared := leaf.destroy_disposes
  destroyCounted := leaf.destroy_disposes
  link _ := rfl
  discard _ := Effect.turns_idle

inductive Factory (β α : Type) where
  | uniqueNew (value : α)
  | uniqueConstruct (construction : Construction β α) (args : β)
  | uniqueClone (cloning : Cloning α) (original : Unique α)
  | sharedNew (groups : Groups α) (founding : Founding) (value : α)
  | sharedConstruct (groups : Groups α) (founding : Founding)
      (construction : Construction β α) (args : β)
  | countedNew (values : CountedValues α) (value : α) (total : Nat)
  | countedConstruct (values : CountedValues α) (construction : Construction β α) (args : β)
  | heapInit (owner : Option (Unique α)) (phases : Phases α) (spot : Spot)

/-- What a factory has made, with everything else of its kind. -/
inductive Made (α : Type) where
  | unique (owner : Unique α)
  | shared (number : Nat) (groups : Groups α)
  | counted (number : Nat) (values : CountedValues α)
  | staged (wrapper : Staged α)

def Made.assets {α β : Type} (craft : Craft β α) (owns : α → Assets) : Made α → Assets
  | unique owner => owner.assets craft.element owns
  | shared number groups => groups.assetsAt owns number
  | counted number values => values.assetsAt owns number
  | staged wrapper => wrapper.assets craft.element owns

namespace Factory

variable {α β : Type}

def run (craft : Craft β α) : Factory β α → Attempt (Made α)
  | uniqueNew value => do
    let owner ← Unique.new craft.element value
    pure (.unique owner)
  | uniqueConstruct construction args => do
    let builder := construction.builder craft.element.toMovable
    let owner ← Unique.construct craft.element builder args (craft.discard args)
    pure (.unique owner)
  | uniqueClone cloning original => do
    let owner ← Unique.clone craft.element cloning.copier original
    pure (.unique owner)
  | sharedNew groups founding value => do
    let (number, groups) ←
      groups.found craft.shared founding craft.element.layout (fun _ => pure value)
        (craft.shared.destroy .unowned value)
    pure (.shared number groups)
  | sharedConstruct groups founding construction args => do
    let (number, groups) ←
      groups.found craft.shared founding craft.element.layout
        (fun spot => construction.constructAt craft.element.toMovable spot args)
        (craft.discard args)
    pure (.shared number groups)
  | countedNew values value total => do
    let (number, values) ← values.newDynamic craft.counted value total
    pure (.counted number values)
  | countedConstruct values construction args => do
    let (number, values) ←
      values.construct craft.counted
        (fun spot => construction.constructAt craft.element.toMovable spot args)
        (craft.discard args)
    pure (.counted number values)
  | heapInit owner phases spot => do
    let wrapper ← Staged.init craft.element phases spot (.heap owner)
    pure (.staged wrapper)

/-- The layout of the block in which the value is placed. -/
def layout? (craft : Craft β α) : Factory β α → Option Layout
  | uniqueNew _ | uniqueConstruct _ _ | uniqueClone _ _ | heapInit _ _ _ =>
    some craft.element.layout
  | sharedNew _ founding _ | sharedConstruct _ founding _ _ =>
    some (Groups.ownLayout founding craft.element.layout)
  | countedNew _ _ total => CountedValues.dynamicLayout? craft.counted total
  | countedConstruct _ _ _ => some craft.counted.layout

/-- What the call is given: the value or the arguments, and what a wrapper holds. -/
def given (craft : Craft β α) (owns : α → Assets) (cost : β → Assets) :
    Factory β α → Assets
  | uniqueNew value | sharedNew _ _ value | countedNew _ value _ => owns value
  | uniqueConstruct _ args | sharedConstruct _ _ _ args | countedConstruct _ _ args =>
    cost args
  | uniqueClone _ _ => 0
  | heapInit owner _ _ => (Staged.heap owner).assets craft.element owns

/-- The user code of the call leaves nothing of its own behind when it fails. -/
def Careful (owns : α → Assets) (cost : β → Assets) : Factory β α → Prop
  | uniqueNew _ | sharedNew _ _ _ | countedNew _ _ _ => True
  | uniqueConstruct construction args | sharedConstruct _ _ construction args
  | countedConstruct _ construction args => construction.Careful owns args (cost args)
  | uniqueClone cloning original => cloning.Careful owns original.value
  | heapInit _ phases _ => phases.Careful owns 0

/-- What the call does as long as nothing fails.  It stops at the first step that does. -/
def steps (craft : Craft β α) : Factory β α → Attempt Unit
  | uniqueNew _ => Unique.steps craft.element.layout fun _ => pure ()
  | uniqueConstruct construction args =>
    Unique.steps craft.element.layout fun spot => construction.steps spot args
  | uniqueClone cloning original =>
    Unique.steps craft.element.layout fun spot => cloning.cloneAt spot original.value
  | sharedNew _ founding _ =>
    Groups.steps founding craft.element.layout fun _ => pure ()
  | sharedConstruct _ founding construction args =>
    Groups.steps founding craft.element.layout fun spot => construction.steps spot args
  | countedNew _ _ total => CountedValues.dynamicSteps craft.counted total
  | countedConstruct _ construction args =>
    Unique.steps craft.counted.layout fun spot => construction.steps spot args
  | heapInit owner phases _ => Staged.heapSteps craft.element phases owner

variable {craft : Craft β α} {owns : α → Assets} {cost : β → Assets}

theorem run_places (hcraft : craft.Careful owns cost) {factory : Factory β α}
    (hfactory : factory.Careful owns cost) :
    (factory.run craft).Places (factory.layout? craft) (factory.given craft owns cost)
      (Made.assets craft owns) := by
  cases factory with
  | uniqueNew value =>
    exact (Unique.new_places hcraft.destroy value).wrap Made.unique fun owner => rfl
  | uniqueConstruct construction args =>
    have hbuild :=
      Construction.constructAt_turns hfactory craft.element.toMovable hcraft.destroy
    have hplaced := Unique.place_places craft.element (hcraft.discard args) hbuild
    exact hplaced.wrap Made.unique fun owner => rfl
  | uniqueClone cloning original =>
    have hplaced := Unique.place_places craft.element Effect.turns_idle
      fun spot => Cloning.cloneAt_turns hfactory spot
    exact hplaced.wrap Made.unique fun owner => rfl
  | sharedNew groups founding value =>
    have hplaced := Groups.found_places hcraft.destroyShared hcraft.link
      (hcraft.destroyShared value) (fun spot => Attempt.turns_pure rfl) groups founding
      craft.element.layout
    exact hplaced.wrap (fun made => Made.shared made.1 made.2) fun made => rfl
  | sharedConstruct groups founding construction args =>
    have hbuild :=
      Construction.constructAt_turns hfactory craft.element.toMovable hcraft.destroy
    have hplaced := Groups.found_places hcraft.destroyShared hcraft.link
      (hcraft.discard args) hbuild groups founding craft.element.layout
    exact hplaced.wrap (fun made => Made.shared made.1 made.2) fun made => rfl
  | countedNew values value total =>
    have hplaced := CountedValues.newDynamic_places hcraft.destroyCounted values value total
    exact hplaced.wrap (fun made => Made.counted made.1 made.2) fun made => rfl
  | countedConstruct values construction args =>
    have hbuild :=
      Construction.constructAt_turns hfactory craft.element.toMovable hcraft.destroy
    have hplaced := CountedValues.construct_places craft.counted (hcraft.discard args) hbuild values
    exact hplaced.wrap (fun made => Made.counted made.1 made.2) fun made => rfl
  | heapInit owner phases spot =>
    have hplaced := Staged.init_heap_places hcraft.destroy hfactory spot owner
    exact hplaced.wrap Made.staged fun wrapper => rfl

theorem run_covers (craft : Craft β α) (factory : Factory β α) :
    (factory.run craft).Covers (factory.steps craft) := by
  cases factory with
  | uniqueNew value => exact (Unique.new_covers value).wrap Made.unique
  | uniqueConstruct construction args =>
    have hplaced := Unique.place_covers craft.element
      (fun spot =>
        construction.constructAt_covers craft.element.toMovable spot args) (craft.discard args)
    exact hplaced.wrap Made.unique
  | uniqueClone cloning original =>
    have hplaced := Unique.place_covers craft.element
      (fun spot => .refl (cloning.cloneAt spot original.value)) (pure ())
    exact hplaced.wrap Made.unique
  | sharedNew groups founding value =>
    have hplaced := Groups.found_covers craft.shared (fun _ => .pure value ())
      (craft.shared.destroy .unowned value) groups founding craft.element.layout
    exact hplaced.wrap fun made => Made.shared made.1 made.2
  | sharedConstruct groups founding construction args =>
    have hplaced := Groups.found_covers craft.shared
      (fun spot => construction.constructAt_covers craft.element.toMovable spot args)
      (craft.discard args) groups founding craft.element.layout
    exact hplaced.wrap fun made => Made.shared made.1 made.2
  | countedNew values value total =>
    exact (CountedValues.newDynamic_covers values value total).wrap
      fun made => Made.counted made.1 made.2
  | countedConstruct values construction args =>
    have hplaced := CountedValues.construct_covers craft.counted
      (fun spot => construction.constructAt_covers craft.element.toMovable spot args)
      (craft.discard args) values
    exact hplaced.wrap fun made => Made.counted made.1 made.2
  | heapInit owner phases spot =>
    exact (Staged.init_heap_covers spot owner).wrap Made.staged

/-- Whatever fails in a call of a factory, the value is placed with all that it owns, or
the call is undone.  It fails when its bare steps fail, with the error of the first one. -/
theorem places_or_undoes (hcraft : craft.Careful owns cost) {factory : Factory β α}
    (hfactory : factory.Careful owns cost) :
    (factory.run craft).Places (factory.layout? craft) (factory.given craft owns cost)
        (Made.assets craft owns) ∧
      (factory.run craft).Covers (factory.steps craft) :=
  ⟨run_places hcraft hfactory, run_covers craft factory⟩

/-- A piece that draws a block of its own, in a group with a separate control block. -/
def drawnSeparately : Factory Datum Piece :=
  sharedConstruct {} { constructed := true } Catalogue.heap.construction (.number 7)

/-- A store that refuses the third request, which is the one for the control block. -/
def thirdRefused : Store :=
  { memory := { backend := .stack { base := 4096, capacity := 1024 } }, failing := [3] }

theorem places_or_undoes_drawnSeparately :
    Catalogue.heap.craft.Careful Catalogue.heap.owns (fun _ => 0) ∧
      drawnSeparately.Careful Catalogue.heap.owns (fun _ => 0) ∧
      (drawnSeparately.run Catalogue.heap.craft).Places (some Catalogue.heap.layout) 0
        (Made.assets Catalogue.heap.craft Catalogue.heap.owns) ∧
      (drawnSeparately.run Catalogue.heap.craft).Covers
        (drawnSeparately.steps Catalogue.heap.craft) ∧
      ∃ after, drawnSeparately.run Catalogue.heap.craft thirdRefused =
          (.error .allocationFailed, after) ∧
        (after.trace.filterMap Entry.born?, after.trace.filterMap Entry.gone?) =
          ([some 1], [some 1]) := by
  have hcraft := Catalogue.heap.craft_careful
  have hfactory : drawnSeparately.Careful Catalogue.heap.owns (fun _ => 0) :=
    Catalogue.heap.construction_careful (.number 7)
  obtain ⟨hplaces, hcovers⟩ := places_or_undoes hcraft hfactory
  exact ⟨hcraft, hfactory, hplaces, hcovers, _, rfl, rfl⟩

end Factory
end Freehold
