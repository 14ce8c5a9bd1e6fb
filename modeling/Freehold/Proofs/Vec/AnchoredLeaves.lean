import Freehold.Proofs.Vec.Anchoring
import Freehold.Proofs.Vec.AnchoredTwins

/-!
# Anchored leaf types

A value of an anchored leaf type is valid where its anchor says.  Values of a type that is
built or copied in place are anchored there; all others are settled by their owner.  The code
of leaf types relocates nothing by itself.
-/

namespace Freehold
namespace Leaf

variable (leaf : Leaf)

theorem tacit : leaf.stock.Tacit where
  relocates := leaf.relocate_leads (Store.Moves.effectHabit.leaf leaf)
  destroys := leaf.destroy_leads (Store.Moves.effectHabit.leaf leaf)
  builds := leaf.builder_leads (Store.Moves.effectHabit.leaf leaf)
  copies := leaf.copier_leads (Store.Moves.effectHabit.leaf leaf)

/-! ## Anchors -/

def AnchoredAt (spot : Spot) (piece : Piece) : Prop := piece.anchor = some spot

/-- What is not built or copied in place is settled by its owner. -/
def care : Care where
  built := decide (leaf.building ≠ .inPlace)
  copied := decide (leaf.copying ≠ .atPlace)

variable {leaf}

theorem anchorAt_anchored (h : leaf.anchored = true) (spot : Spot) (piece : Piece) :
    AnchoredAt spot (leaf.anchorAt spot piece) := by
  unfold anchorAt
  rw [if_pos h]
  rfl

theorem relocate_anchored (h : leaf.anchored = true) (source target : Spot) (piece : Piece)
    (store : Store) : AnchoredAt target (leaf.relocate source target piece store).1 := by
  unfold relocate
  rw [if_pos h]
  cases piece.serial with
  | none => rfl
  | some serial => rfl

/-- A shell that was completed is anchored where it stays. -/
theorem complete_anchored (h : leaf.anchored = true) (spot : Spot) (datum : Datum)
    (shell : Piece) (store : Store)
    (hdone : (leaf.complete spot datum shell store).1.1 = .ok ()) :
    AnchoredAt spot (leaf.complete spot datum shell store).1.2 := by
  unfold complete at hdone ⊢
  rw [Effect.bind_apply] at hdone ⊢
  generalize Attempt.hook.run store = run at hdone ⊢
  obtain ⟨answer, middle⟩ := run
  cases answer with
  | error kind => cases hdone
  | ok done =>
    obtain ⟨blank, serial, anchor, drawn⟩ := shell
    cases serial with
    | none => exact anchorAt_anchored h spot _
    | some serial => exact anchorAt_anchored h spot _

theorem phases_anchored (h : leaf.anchored = true) {spot : Spot} {datum : Datum}
    {store after : Store} {piece : Piece}
    (hrun : Phases.run leaf.element.toMovable
      { shell := leaf.born (.number 0), init := fun spot => leaf.complete spot datum } spot
      store = (.ok piece, after)) : AnchoredAt spot piece := by
  unfold Phases.run at hrun
  simp only [ExceptT.mk, Effect.bind_apply] at hrun
  generalize leaf.born (.number 0) store = shell at hrun
  have hcomplete := complete_anchored h spot datum shell.1 shell.2
  generalize leaf.complete spot datum shell.1 shell.2 = run at hrun hcomplete
  obtain ⟨⟨answer, made⟩, middle⟩ := run
  cases answer with
  | error kind => cases hrun
  | ok done =>
    obtain rfl := Except.ok.inj (Prod.mk.inj hrun).1
    exact hcomplete rfl

theorem createAt_anchored (h : leaf.anchored = true) {spot : Spot} {datum : Datum}
    {store after : Store} {piece : Piece}
    (hrun : leaf.createAt spot datum store = (.ok piece, after)) : AnchoredAt spot piece := by
  obtain ⟨fresh, middle, -, hfresh⟩ := Attempt.bind_ok hrun
  obtain rfl := Except.ok.inj (Prod.mk.inj hfresh).1
  exact anchorAt_anchored h spot fresh

theorem anchors (h : leaf.anchored = true) : leaf.stock.Anchors leaf.care AnchoredAt where
  elementwise := by
    show (!leaf.anchored) = false
    rw [h]
    rfl
  relocates source target piece store _ := relocate_anchored h source target piece store
  settles := anchorAt_anchored h
  builds := by
    by_cases hbuilding : leaf.building = .inPlace
    · refine Or.inr fun spot datum store piece after hrun => ?_
      have hphases : leaf.construction.constructAt leaf.element.toMovable spot datum store =
          (.ok piece, after) := hrun
      unfold construction at hphases
      rw [hbuilding] at hphases
      exact phases_anchored h hphases
    · exact Or.inl (decide_eq_true hbuilding)
  copies := by
    by_cases hcopying : leaf.copying = .atPlace
    · refine Or.inr fun spot source store piece after hrun => ?_
      have hcreated : leaf.cloning.cloneAt spot source store = (.ok piece, after) := hrun
      unfold cloning at hcreated
      rw [hcopying] at hcreated
      exact createAt_anchored h hcreated
    · exact Or.inl (decide_eq_true hcopying)

end Leaf
end Freehold
