import Freehold.Element.Leaf
import Freehold.Proofs.Placing.Strategies

/-!
# Leaf types are careful

A piece of a leaf type owns the object that was announced when it was made, if any was,
and the block that it has drawn.  The strategies of the type make such pieces or leave
nothing, and its destructor gives all of it up.
-/

namespace Freehold
namespace Leaf

def identityAssets (leaf : Leaf) (serial : Option Nat) : Assets :=
  match leaf.identity, serial with
  | .anonymous, _ => {.object none}
  | _, some serial => {.object (some serial)}
  | _, none => 0

def drawnAssets : Option (Nat × Layout) → Assets
  | none => 0
  | some (address, layout) => {.block address layout}

def owns (leaf : Leaf) (piece : Piece) : Assets :=
  leaf.identityAssets piece.serial + drawnAssets piece.drawn

variable {leaf : Leaf}

theorem identityAssets_some (h : leaf.identity ≠ .anonymous) (serial : Nat) :
    leaf.identityAssets (some serial) = {.object (some serial)} := by
  cases hidentity : leaf.identity with
  | anonymous => exact absurd hidentity h
  | silent => simp [identityAssets, hidentity]
  | numbered => simp [identityAssets, hidentity]

theorem owns_anchorAt (leaf : Leaf) (spot : Spot) (piece : Piece) :
    leaf.owns (leaf.anchorAt spot piece) = leaf.owns piece := by
  unfold anchorAt
  split
  · rfl
  · rfl

/-! ## Making and destroying -/

theorem born_turns (leaf : Leaf) (datum : Datum) :
    (leaf.born datum).Turns 0 (fun piece => leaf.identityAssets piece.serial) := by
  cases hidentity : leaf.identity with
  | silent =>
    simp only [born, hidentity]
    apply Effect.turns_pure
    simp [identityAssets, hidentity]
  | anonymous =>
    simp only [born, hidentity]
    apply Effect.Turns.bind (Effect.turns_announce .bornUnit)
    intro done
    apply Effect.turns_pure
    simp [identityAssets, hidentity]
  | numbered =>
    have hfresh : Effect.freshSerial.Turns 0 (fun _ => 0) := fun store => ⟨[], rfl, .nothing⟩
    simp only [born, hidentity]
    apply Effect.Turns.bind hfresh
    intro serial
    apply Effect.Turns.bind (Effect.turns_announce (.born serial datum.toInt))
    intro done
    apply Effect.turns_pure
    simp [identityAssets, hidentity]

/-- A new piece has drawn nothing, and only a numbered object has a serial number. -/
theorem born_result (leaf : Leaf) (datum : Datum) (store : Store) :
    (leaf.born datum store).1.drawn = none ∧
      (leaf.identity = .anonymous → (leaf.born datum store).1.serial = none) := by
  cases hidentity : leaf.identity with
  | silent =>
    simp only [born, hidentity]
    exact ⟨rfl, fun _ => rfl⟩
  | anonymous =>
    simp only [born, hidentity]
    exact ⟨rfl, fun _ => rfl⟩
  | numbered =>
    simp only [born, hidentity]
    exact ⟨rfl, fun h => by cases h⟩

theorem born_turns_owns (leaf : Leaf) (datum : Datum) : (leaf.born datum).Turns 0 leaf.owns := by
  intro store
  have hborn := born_turns leaf datum store
  unfold owns
  rw [(born_result leaf datum store).1, drawnAssets, add_zero]
  exact hborn

theorem destroy_disposes (leaf : Leaf) : Disposes leaf.destroy leaf.owns := by
  intro piece
  have hdrawn : (freeDrawn piece).Turns (drawnAssets piece.drawn) (fun _ => 0) := by
    unfold freeDrawn
    cases piece.drawn with
    | none => exact fun store => .refl store 0
    | some block => exact Allocator.turns_deallocate block.1 block.2
  have hfreed := hdrawn.frame (leaf.identityAssets piece.serial)
  rw [add_comm, zero_add] at hfreed
  apply Effect.Turns.bind hfreed
  intro done
  cases hidentity : leaf.identity with
  | anonymous =>
    simp only [identityAssets, hidentity]
    exact Effect.turns_announce .droppedUnit
  | silent | numbered =>
    cases hserial : piece.serial with
    | none =>
      simp only [identityAssets, hidentity]
      exact Effect.turns_pure rfl
    | some serial =>
      simp only [identityAssets, hidentity]
      exact Effect.turns_announce (.dropped serial piece.datum.toInt)

/-! ## Strategies -/

/-- Completing a shell makes nothing, whether or not user code fails. -/
theorem complete_turns {shell : Piece} (hshell : leaf.identity = .anonymous → shell.serial = none)
    (spot : Spot) (datum : Datum) :
    (leaf.complete spot datum shell).Turns (leaf.owns shell)
      (fun reached => leaf.owns reached.2) := by
  obtain ⟨blank, serial, anchor, drawn⟩ := shell
  have hhook := Attempt.turns_hook.frame (leaf.owns ⟨blank, serial, anchor, drawn⟩)
  rw [zero_add] at hhook
  unfold complete
  apply Effect.Turns.bind hhook
  intro answer
  cases answer with
  | error kind => exact Effect.turns_pure rfl
  | ok done =>
    have hfilled : leaf.owns ⟨blank, serial, anchor, drawn⟩ =
        leaf.owns (leaf.anchorAt spot ⟨datum, serial, anchor, drawn⟩) :=
      (owns_anchorAt leaf spot ⟨datum, serial, anchor, drawn⟩).symm
    cases serial with
    | none => exact Effect.turns_pure hfilled
    | some serial =>
      have hobject : leaf.identityAssets (some serial) = {.object (some serial)} := by
        apply identityAssets_some
        intro hanonymous
        cases hshell hanonymous
      have hcompleted := (Effect.turns_announce (.completed serial datum.toInt)).frame
        (drawnAssets drawn)
      rw [← hobject] at hcompleted
      apply Effect.Turns.bind hcompleted
      intro announced
      exact Effect.turns_pure hfilled

theorem shell_careful (leaf : Leaf) (blank : Datum) (content : Piece → Datum) :
    Phases.Careful
      { shell := leaf.born blank
        init := fun spot shell => leaf.complete spot (content shell) shell }
      leaf.owns 0 := by
  intro spot
  apply (born_turns_owns leaf blank).bind_result
  intro store
  exact complete_turns (born_result leaf blank store).2 spot _

theorem create_turns (leaf : Leaf) (datum : Datum) : (leaf.create datum).Turns 0 leaf.owns 0 :=
  Attempt.turns_hook.bind fun _ => Attempt.turns_lift (born_turns_owns leaf datum)

theorem createAt_turns (leaf : Leaf) (spot : Spot) (datum : Datum) :
    (leaf.createAt spot datum).Turns 0 leaf.owns 0 := by
  apply (create_turns leaf datum).bind
  intro piece
  exact Attempt.turns_pure (owns_anchorAt leaf spot piece).symm

/-- A block is drawn and owned by the piece, or given back when user code fails. -/
theorem draw_turns (leaf : Leaf) (draws : Layout) (datum : Datum) :
    (leaf.draw draws datum).Turns 0 leaf.owns 0 := by
  apply (Allocator.turns_allocate draws).bind
  intro block
  have hhook := Attempt.turns_hook.frame {Asset.block block.address draws}
  rw [zero_add] at hhook
  apply (hhook.undoing (Allocator.turns_deallocate block.address draws)).bind
  intro done
  have hborn := (born_turns leaf datum).frame {Asset.block block.address draws}
  apply (Attempt.turns_lift hborn).bind
  intro piece
  exact Attempt.turns_pure rfl

theorem make_turns (leaf : Leaf) (datum : Datum) : (leaf.make datum).Turns 0 leaf.owns 0 := by
  cases hbuilding : leaf.building with
  | withAllocator draws =>
    simp only [make, hbuilding]
    exact draw_turns leaf draws datum
  | inPlace | factory | plain =>
    simp only [make, hbuilding]
    exact Attempt.turns_lift (born_turns_owns leaf datum)

theorem construction_careful (leaf : Leaf) (datum : Datum) :
    leaf.construction.Careful leaf.owns datum 0 := by
  cases hbuilding : leaf.building with
  | inPlace =>
    simp only [construction, hbuilding]
    exact shell_careful leaf (.number 0) fun _ => datum
  | withAllocator draws =>
    simp only [construction, hbuilding]
    exact draw_turns leaf draws datum
  | factory =>
    simp only [construction, hbuilding]
    exact create_turns leaf datum
  | plain =>
    simp only [construction, hbuilding]
    exact born_turns_owns leaf datum

theorem cloning_careful (leaf : Leaf) (original : Piece) :
    leaf.cloning.Careful leaf.owns original := by
  cases hcopying : leaf.copying with
  | inAllocator draws | allocateFrom draws =>
    simp only [cloning, hcopying]
    exact draw_turns leaf draws original.datum
  | self | createFrom =>
    simp only [cloning, hcopying]
    exact create_turns leaf original.datum
  | atPlace =>
    simp only [cloning, hcopying]
    exact fun spot => createAt_turns leaf spot original.datum
  | copy =>
    simp only [cloning, hcopying]
    exact born_turns_owns leaf original.datum

end Leaf
end Freehold
