import Freehold.Element.Catalogue
import Freehold.Proofs.Nest.Steps

/-!
# Two ways to a nested value

Nested owners are made by the library from what leaves do, so what is asked of user code is
known to hold of them.  A leaf in place may remember its spot.  An owner keeps its values in
blocks of its own, so it is the same value wherever it is itself.  If both ways fail, then with
the error of the first bare step that fails.
-/

namespace Freehold
namespace Nest

/-- Equal up to the spot that a leaf may remember. -/
def Same : (nest : Nest) → nest.Carrier → nest.Carrier → Prop
  | leaf _, (piece : Piece), (piece' : Piece) => Leaf.SamePiece piece piece'
  | vec _, values, values' => values = values'
  | unique _, owner, owner' => owner = owner'

theorem builder_twoWays {nest : Nest} (hproper : nest.Proper) {args : nest.Args}
    (hfits : nest.Fits args) :
    TwoWays nest.Same nest.owns 0 (nest.builder.produce args)
      fun spot => nest.builder.constructAt spot args := by
  refine .of_passing (nest.produce_eq_passing args) ?_ (nest.make_manages hproper hfits).2
  intro spot spot' store
  cases nest with
  | leaf type =>
    exact Construction.constructAt_agrees (type.construction_indifferent args)
      (type.indifferent hproper) spot spot' store
  | vec inner | unique inner => exact .refl (fun _ => rfl) _

theorem copier_twoWays {nest : Nest} (hproper : nest.Proper) {source : nest.Carrier}
    (hwhole : nest.Whole source) :
    TwoWays nest.Same nest.owns 0 (nest.copier.clone source)
      fun spot => nest.copier.cloneAt spot source := by
  refine .of_passing (nest.clone_eq_passing source) ?_ (nest.copier_manages hproper hwhole)
  intro spot spot' store
  cases nest with
  | leaf type =>
    exact Cloning.cloneAt_agrees (type.cloning_indifferent source) (fun _ => rfl) spot spot' store
  | vec inner | unique inner => exact .refl (fun _ => rfl) _

/-- Both ways to a value agree: for all strategies if user code does the same wherever it works,
and for all nested owners with their leaves. -/
theorem ways_agree :
    (∀ {α β : Type} {type : Movable α} {same : α → α → Prop} {owns : α → Assets} {given : Assets}
        (construction : Construction β α) (args : β), type.Indifferent same owns →
      construction.Indifferent same args → construction.Manages owns args given →
      TwoWays same owns given (construction.produce type args)
        fun spot => construction.constructAt type spot args) ∧
    (∀ {α : Type} {type : Movable α} {same : α → α → Prop} {owns : α → Assets}
        (cloning : Cloning α) (source : α), type.Indifferent same owns →
      cloning.Indifferent same source → cloning.Manages owns source →
      TwoWays same owns 0 (cloning.clone source) fun spot => cloning.cloneAt spot source) ∧
    (∀ (nest : Nest) (args : nest.Args), nest.Proper → nest.Fits args →
      TwoWays nest.Same nest.owns 0 (nest.builder.produce args)
          (fun spot => nest.builder.constructAt spot args) ∧
        ∀ spot, (nest.builder.constructAt spot args).Covers (nest.buildSteps args)) ∧
    ∀ (nest : Nest) (source : nest.Carrier), nest.Proper → nest.Whole source →
      TwoWays nest.Same nest.owns 0 (nest.copier.clone source)
          (fun spot => nest.copier.cloneAt spot source) ∧
        ∀ spot, (nest.copier.cloneAt spot source).Covers (nest.copySteps source) := by
  refine ⟨?_, ?_, ?_, ?_⟩
  · exact fun construction args htype hsame hmanages =>
      Construction.twoWays hsame hmanages htype
  · exact fun cloning source htype hsame hmanages => Cloning.twoWays hsame hmanages htype.refl
  · exact fun nest args hproper hfits => ⟨builder_twoWays hproper hfits, (make_covers hfits).2⟩
  · exact fun nest source hproper hwhole =>
      ⟨copier_twoWays hproper hwhole, copier_covers hwhole⟩

/-! A piece that remembers its spot, by itself and under a unique owner. -/

theorem anchored_proper : Catalogue.anchored.Proper where
  layout := by decide
  draws layout hdraws := by
    rcases hdraws with hbuilt | hcopied | hcopied
    · cases hbuilt
    · cases hcopied
    · cases hcopied

def moored : Piece := { datum := .number 5, serial := some 1, anchor := some (.block 64) }

def lone : Nest := .unique (.leaf Catalogue.anchored)

/-- A store in which user code fails when it is run for the second time. -/
def secondFails : Store :=
  { memory := { backend := .stack { base := 4096, capacity := 1024 } }
    plan := [none, some .tryAgain] }

theorem ways_agree_anchored :
    Catalogue.anchored.element.toMovable.Indifferent Leaf.SamePiece Catalogue.anchored.owns ∧
      Catalogue.anchored.construction.Indifferent Leaf.SamePiece (.number 5) ∧
      Catalogue.anchored.construction.Manages Catalogue.anchored.owns (.number 5) 0 ∧
      TwoWays Leaf.SamePiece Catalogue.anchored.owns 0
        (Catalogue.anchored.builder.produce (.number 5))
        (fun spot => Catalogue.anchored.builder.constructAt spot (.number 5)) ∧
      Catalogue.anchored.cloning.Indifferent Leaf.SamePiece moored ∧
      Catalogue.anchored.cloning.Manages Catalogue.anchored.owns moored ∧
      TwoWays Leaf.SamePiece Catalogue.anchored.owns 0 (Catalogue.anchored.copier.clone moored)
        (fun spot => Catalogue.anchored.copier.cloneAt spot moored) ∧
      lone.Proper ∧ lone.Fits (.number 5 : Datum) ∧ lone.Whole (⟨64, moored⟩ : Unique Piece) ∧
      TwoWays lone.Same lone.owns 0 (lone.builder.produce (.number 5 : Datum))
        (fun spot => lone.builder.constructAt spot (.number 5 : Datum)) ∧
      (∀ spot, (lone.builder.constructAt spot (.number 5 : Datum)).Covers
        (lone.buildSteps (.number 5 : Datum))) ∧
      TwoWays lone.Same lone.owns 0 (lone.copier.clone (⟨64, moored⟩ : Unique Piece))
        (fun spot => lone.copier.cloneAt spot (⟨64, moored⟩ : Unique Piece)) ∧
      (∀ spot, (lone.copier.cloneAt spot (⟨64, moored⟩ : Unique Piece)).Covers
        (lone.copySteps (⟨64, moored⟩ : Unique Piece))) ∧
      ∃ between after,
        Catalogue.anchored.builder.produce (.number 5) secondFails =
            (.ok { moored with anchor := some .passing }, between) ∧
          Catalogue.anchored.builder.constructAt (.block 64) (.number 5) secondFails =
            (.ok moored, between) ∧
          Catalogue.anchored.builder.produce (.number 7) between = (.error .tryAgain, after) ∧
          Catalogue.anchored.builder.constructAt (.block 96) (.number 7) between =
            (.error .tryAgain, after) ∧
          after.trace = [.event (.dropped 2 0), .event (.created 2 0)] ++ between.trace := by
  have htype := Leaf.indifferent anchored_proper
  have hbuilds := Catalogue.anchored.construction_indifferent (.number 5)
  have hbuilt := Leaf.construction_manages anchored_proper (.number 5)
  have hcopies := Catalogue.anchored.cloning_indifferent moored
  have hcopied := Leaf.cloning_manages anchored_proper moored
  have hlone : lone.Proper := anchored_proper
  have hloneBuilds := ways_agree.2.2.1 lone (.number 5 : Datum) hlone trivial
  have hloneCopies := ways_agree.2.2.2 lone (⟨64, moored⟩ : Unique Piece) hlone trivial
  exact ⟨htype, hbuilds, hbuilt, ways_agree.1 _ _ htype hbuilds hbuilt, hcopies, hcopied,
    ways_agree.2.1 _ _ htype hcopies hcopied, hlone, trivial, trivial,
    hloneBuilds.1, hloneBuilds.2, hloneCopies.1, hloneCopies.2, _, _, rfl, rfl, rfl, rfl, rfl⟩

end Nest
end Freehold
