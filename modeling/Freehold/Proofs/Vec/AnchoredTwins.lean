import Freehold.Element.Catalogue
import Freehold.Proofs.Vec.Twins

/-!
# Twins of anchored types

Values of an anchored type know the spot they are at, so they are relocated one by one.
The same type without anchors is bitwise.  What is left of a value when its anchor is
forgotten is the same for both, and so the two are twins.
-/

namespace Freehold

/-- What a piece is, wherever it believes to be. -/
def Piece.placeless (piece : Piece) : Piece := { piece with anchor := none }

namespace Leaf

variable (leaf : Leaf)

def stock : Stock Piece Datum := ⟨leaf.element, leaf.builder, leaf.copier⟩

/-- The type of those values that do not know their spot. -/
def unanchored : Leaf := { leaf with anchored := false }

/-- The type of those values that know their spot. -/
def anchoring : Leaf := { leaf with anchored := true }

/-! ## What does not depend on anchors -/

theorem born_lockstep (datum : Datum) : Lockstep Eq (leaf.born datum) (leaf.born datum) := by
  unfold born
  cases leaf.identity with
  | silent => exact .pure rfl
  | anonymous => exact (Effect.lockstep_record _).bind fun _ _ _ => .pure rfl
  | numbered =>
    refine Effect.lockstep_freshSerial.bind fun serial _ hserial => ?_
    subst hserial
    exact (Effect.lockstep_record _).bind fun _ _ _ => .pure rfl

theorem freeDrawn_lockstep (piece : Piece) :
    Lockstep (fun _ _ => True) (freeDrawn piece) (freeDrawn piece) := by
  unfold freeDrawn
  cases piece.drawn with
  | none => exact .pure trivial
  | some block => exact Allocator.deallocate_lockstep block.1 block.2

theorem destroy_lockstep (piece : Piece) :
    Lockstep (fun _ _ => True) (leaf.destroy piece) (leaf.destroy piece) := by
  refine (freeDrawn_lockstep piece).bind fun _ _ _ => ?_
  split
  · exact Effect.lockstep_record _
  · exact Effect.lockstep_record _
  · exact .pure trivial

theorem create_inStep (datum : Datum) :
    Attempt.InStep Eq (leaf.create datum) (leaf.create datum) :=
  Attempt.inStep_hook.bind fun _ _ _ => .lift (leaf.born_lockstep datum)

theorem draw_inStep (draws : Layout) (datum : Datum) :
    Attempt.InStep Eq (leaf.draw draws datum) (leaf.draw draws datum) := by
  refine (Allocator.allocate_inStep draws).bind fun block _ hblock => ?_
  subst hblock
  have hhook := Attempt.inStep_hook.undoing (Allocator.deallocate_lockstep block.address draws)
  refine hhook.bind fun _ _ _ => (Attempt.InStep.lift (leaf.born_lockstep datum)).bind ?_
  rintro piece _ rfl
  exact .pure rfl

/-! ## What does -/

theorem placeless_anchorAt (spot : Spot) (piece : Piece) :
    (leaf.anchorAt spot piece).placeless = piece.placeless := by
  unfold anchorAt
  split
  · rfl
  · rfl

/-- Pieces that differ in their anchors only. -/
abbrev SamePiece : Piece → Piece → Prop := SameView Piece.placeless Piece.placeless

theorem SamePiece.exists_anchor {piece piece' : Piece} (h : SamePiece piece piece') :
    ∃ anchor, piece' = { piece with anchor := anchor } := by
  obtain ⟨datum, serial, anchor, drawn⟩ := piece
  obtain ⟨datum', serial', anchor', drawn'⟩ := piece'
  obtain ⟨rfl, rfl, -, rfl⟩ := Piece.mk.inj h
  exact ⟨anchor', rfl⟩

theorem destroys_alike {piece piece' : Piece} (h : SamePiece piece piece') :
    Lockstep (fun _ _ => True) (leaf.unanchored.destroy piece)
      (leaf.anchoring.destroy piece') := by
  obtain ⟨anchor, rfl⟩ := SamePiece.exists_anchor h
  exact leaf.destroy_lockstep piece

theorem anchors_alike (spot : Spot) (piece : Piece) :
    SamePiece (leaf.unanchored.anchorAt spot piece) (leaf.anchoring.anchorAt spot piece) :=
  (placeless_anchorAt _ spot piece).trans (placeless_anchorAt _ spot piece).symm

theorem completes_alike (spot : Spot) (datum : Datum) (shell : Piece) :
    Lockstep (fun done done' => done.1 = done'.1 ∧ SamePiece done.2 done'.2)
      (leaf.unanchored.complete spot datum shell) (leaf.anchoring.complete spot datum shell) := by
  refine Lockstep.bind Attempt.inStep_hook fun answer answer' hmatching => ?_
  cases hmatching with
  | failed kind => exact .pure ⟨rfl, rfl⟩
  | done _ =>
    have hsame := leaf.anchors_alike spot
    dsimp only
    cases shell.serial with
    | none => exact .pure ⟨rfl, hsame _⟩
    | some serial => exact (Effect.lockstep_record _).bind fun _ _ _ => .pure ⟨rfl, hsame _⟩

theorem phases_alike (spot : Spot) (datum : Datum) :
    Attempt.InStep SamePiece
      (Phases.run leaf.unanchored.element.toMovable
        { shell := leaf.unanchored.born (.number 0)
          init := fun spot => leaf.unanchored.complete spot datum } spot)
      (Phases.run leaf.anchoring.element.toMovable
        { shell := leaf.anchoring.born (.number 0)
          init := fun spot => leaf.anchoring.complete spot datum } spot) := by
  refine Lockstep.bind (leaf.born_lockstep (.number 0)) fun shell shell' hshell => ?_
  subst hshell
  refine Lockstep.bind (leaf.completes_alike spot datum shell) fun done done' hdone => ?_
  obtain ⟨answer, piece⟩ := done
  obtain ⟨answer', piece'⟩ := done'
  obtain ⟨rfl, hsame⟩ := hdone
  cases answer with
  | ok done => exact .pure (.done hsame)
  | error kind => exact (leaf.destroys_alike hsame).bind fun _ _ _ => .pure (.failed kind)

/-! ## Strategies -/

/-- What is done alike to the same values keeps them the same. -/
theorem same_alike {attempt : Attempt Piece} (h : Attempt.InStep Eq attempt attempt) :
    Attempt.InStep SamePiece attempt attempt :=
  h.mono fun _ _ heq => congrArg Piece.placeless heq

theorem builds_alike (spot : Spot) (datum : Datum) :
    Attempt.InStep SamePiece (leaf.unanchored.builder.constructAt spot datum)
      (leaf.anchoring.builder.constructAt spot datum) := by
  show Attempt.InStep SamePiece
    (leaf.unanchored.construction.constructAt leaf.unanchored.element.toMovable spot datum)
    (leaf.anchoring.construction.constructAt leaf.anchoring.element.toMovable spot datum)
  have hbuilding : leaf.unanchored.building = leaf.anchoring.building := rfl
  unfold construction
  rw [hbuilding]
  cases leaf.anchoring.building with
  | inPlace => exact leaf.phases_alike spot datum
  | withAllocator draws => exact same_alike (leaf.draw_inStep draws datum)
  | factory => exact same_alike (leaf.create_inStep datum)
  | plain => exact same_alike (.lift (leaf.born_lockstep datum))

theorem clones_alike (spot : Spot) {piece piece' : Piece} (h : SamePiece piece piece') :
    Attempt.InStep SamePiece (leaf.unanchored.copier.cloneAt spot piece)
      (leaf.anchoring.copier.cloneAt spot piece') := by
  obtain ⟨anchor, rfl⟩ := SamePiece.exists_anchor h
  show Attempt.InStep SamePiece (leaf.unanchored.cloning.cloneAt spot piece)
    (leaf.anchoring.cloning.cloneAt spot { piece with anchor := anchor })
  have hcopying : leaf.unanchored.copying = leaf.anchoring.copying := rfl
  unfold cloning
  rw [hcopying]
  cases leaf.anchoring.copying with
  | inAllocator draws | allocateFrom draws => exact same_alike (leaf.draw_inStep draws piece.datum)
  | self | createFrom => exact same_alike (leaf.create_inStep piece.datum)
  | atPlace =>
    refine (leaf.create_inStep piece.datum).bind ?_
    rintro fresh _ rfl
    exact .pure (leaf.anchors_alike spot fresh)
  | copy => exact same_alike (.lift (leaf.born_lockstep piece.datum))

theorem quiet_relocate (source target : Spot) (piece : Piece) :
    (leaf.anchoring.relocate source target piece).Quiet := by
  unfold relocate
  rw [if_pos (show leaf.anchoring.anchored = true from rfl)]
  cases piece.serial with
  | none => exact Effect.quiet_pure _
  | some serial => exact (Effect.quiet_record rfl).bind fun _ => Effect.quiet_pure _

theorem relocate_keeps : leaf.anchoring.element.toMovable.Keeps Piece.placeless := by
  intro source target piece store
  obtain ⟨datum, serial, anchor, drawn⟩ := piece
  cases serial with
  | none => rfl
  | some serial => rfl

/-- Every leaf type that has a size is a twin of itself with anchors. -/
theorem twins (hsized : leaf.layout.size ≠ 0) :
    Twins leaf.unanchored.stock leaf.anchoring.stock Piece.placeless Piece.placeless where
  bitwise := rfl
  elementwise := rfl
  sized := hsized
  layout_eq := rfl
  keeps := leaf.relocate_keeps
  quiet := leaf.quiet_relocate
  destroys _ _ hsame := leaf.destroys_alike hsame
  builds := leaf.builds_alike
  clones spot _ _ hsame := leaf.clones_alike spot hsame

end Leaf
end Freehold
