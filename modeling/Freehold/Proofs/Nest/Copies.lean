import Mathlib.Data.List.Forall2
import Freehold.Proofs.Nest.OwnedAssets

/-!
# Copies of nested owners

A copy has the shape of its source with equal data in the same order, and blocks where a copy
needs them: one for a vector that has elements with a size, one for the value of a unique owner
if it has a size, and what the leaves draw.
-/

namespace Freehold

/-! ## Leaf types -/

namespace Leaf

variable {leaf : Leaf}

/-- The layout of the block that a copy draws for itself, if it draws any. -/
def copyDraws (leaf : Leaf) : Option Layout :=
  match leaf.copying with
  | .inAllocator draws | .allocateFrom draws => some draws
  | .self | .atPlace | .createFrom | .copy => none

structure CopyOf (leaf : Leaf) (copy source : Piece) : Prop where
  datum_eq : copy.datum = source.datum
  drawn_eq : copy.drawn.map Prod.snd = leaf.copyDraws

theorem born_datum (leaf : Leaf) (datum : Datum) (store : Store) :
    (leaf.born datum store).1.datum = datum := by
  cases hidentity : leaf.identity with
  | silent | anonymous | numbered =>
    simp only [born, hidentity]
    rfl

theorem draw_yields (leaf : Leaf) (draws : Layout) (datum : Datum) :
    (leaf.draw draws datum).Yields fun piece =>
      piece.datum = datum ∧ piece.drawn.map Prod.snd = some draws := by
  refine .after fun block => .after fun _ => ?_
  have hborn : Attempt.Yields (ExceptT.lift (leaf.born datum)) fun piece => piece.datum = datum :=
    Attempt.yields_lift (leaf.born_datum datum)
  exact hborn.bind fun piece hpiece => Attempt.yields_pure ⟨hpiece, rfl⟩

theorem create_yields (leaf : Leaf) (datum : Datum) :
    (leaf.create datum).Yields fun piece => piece.datum = datum ∧ piece.drawn = none :=
  .after fun _ => Attempt.yields_lift fun store =>
    ⟨leaf.born_datum datum store, (leaf.born_result datum store).1⟩

theorem copier_yields (leaf : Leaf) (spot : Spot) (source : Piece) :
    (leaf.copier.cloneAt spot source).Yields fun copy => leaf.CopyOf copy source := by
  show (leaf.cloning.cloneAt spot source).Yields fun copy => leaf.CopyOf copy source
  unfold cloning
  cases hcopying : leaf.copying with
  | inAllocator draws | allocateFrom draws =>
    intro store copy after hrun
    obtain ⟨hdatum, hdrawn⟩ := leaf.draw_yields draws source.datum store copy after hrun
    exact ⟨hdatum, by simp [copyDraws, hcopying, hdrawn]⟩
  | self | createFrom =>
    intro store copy after hrun
    obtain ⟨hdatum, hdrawn⟩ := leaf.create_yields source.datum store copy after hrun
    exact ⟨hdatum, by simp [copyDraws, hcopying, hdrawn]⟩
  | atPlace =>
    refine (leaf.create_yields source.datum).bind fun piece hpiece => Attempt.yields_pure ?_
    obtain ⟨hdatum, hdrawn⟩ := hpiece
    unfold anchorAt
    split
    · exact ⟨hdatum, by simp [copyDraws, hcopying, hdrawn]⟩
    · exact ⟨hdatum, by simp [copyDraws, hcopying, hdrawn]⟩
  | copy =>
    refine Attempt.yields_lift fun store => ⟨leaf.born_datum source.datum store, ?_⟩
    simp [copyDraws, hcopying, (leaf.born_result source.datum store).1]

end Leaf

/-! ## Vectors -/

namespace Vec

variable {α : Type} {element : Element α} {copier : Copier α} {copyOf : α → α → Prop}

structure CopyOf (element : Element α) (copyOf : α → α → Prop) (copy source : Vec α) : Prop where
  length_eq : copy.length = source.length
  values : List.Forall₂ copyOf copy.toList source.toList
  /-- There is a buffer if it is needed. -/
  room : element.layout.size ≠ 0 → (copy.capacity = 0 ↔ source.length = 0)

theorem copyAll_yields {values done : List α}
    (hcopier : ∀ value ∈ values, ∀ spot,
      (copier.cloneAt spot value).Yields fun copy => copyOf copy value)
    {copy : Vec α} (hdone : List.Forall₂ copyOf copy.toList done) :
    (copyAll element copier copy values).Yields fun result =>
      result.length = copy.length + values.length ∧ result.capacity = copy.capacity ∧
        List.Forall₂ copyOf result.toList (done ++ values) := by
  induction values generalizing copy done with
  | nil =>
    refine Attempt.yields_pure ⟨rfl, rfl, ?_⟩
    rwa [List.append_nil]
  | cons value rest ih =>
    have hfresh := hcopier value List.mem_cons_self (.slot copy.buffer copy.length)
    refine (hfresh.undoing (copy.drop element)).bind fun fresh hcopy => ?_
    have hlonger : List.Forall₂ copyOf (copy.append fresh).toList (done ++ [value]) := by
      rw [toList_append]
      exact List.rel_append hdone (.cons hcopy .nil)
    intro store result after hrun
    obtain ⟨hlength, hcapacity, hvalues⟩ :=
      ih (fun other hmem => hcopier other (List.mem_cons_of_mem value hmem)) hlonger store result
        after hrun
    refine ⟨?_, hcapacity, ?_⟩
    · rw [hlength, List.length_cons]
      show copy.length + 1 + rest.length = copy.length + (rest.length + 1)
      omega
    · rwa [List.append_assoc, List.singleton_append] at hvalues

theorem clone_yields {source : Vec α} (hlength : source.toList.length = source.length)
    (hword : source.length < Word.limit)
    (hcopier : ∀ value ∈ source.toList, ∀ spot,
      (copier.cloneAt spot value).Yields fun copy => copyOf copy value) :
    (clone element copier source).Yields fun copy => copy.CopyOf element copyOf source := by
  refine (reserve_yields hword).bind fun room hready => ?_
  have hnone : List.Forall₂ copyOf room.toList [] := by
    rw [toList_of_length room hready.length_eq]
    exact .nil
  intro store copy after hrun
  obtain ⟨hcopied, hcapacity, hvalues⟩ := copyAll_yields hcopier hnone store copy after hrun
  refine ⟨?_, hvalues, fun hsized => ?_⟩
  · rw [hcopied, hready.length_eq, hlength, Nat.zero_add]
  · rw [hcapacity]
    have hroom := hready.room
    constructor
    · intro hzero
      omega
    · exact hready.exact hsized

end Vec

/-! ## Blocks that take up room -/

def Layout.blocks (layout : Layout) : Nat := if layout.size = 0 then 0 else 1

def Asset.isFilled : Asset → Bool
  | .object _ => false
  | .block _ layout => layout.size != 0

namespace Assets

/-- How many blocks of the assets take up room. -/
def filled (assets : Assets) : Nat := assets.countP fun asset => asset.isFilled

@[simp] theorem filled_zero : filled 0 = 0 := Multiset.countP_zero _

@[simp] theorem filled_add (first second : Assets) :
    filled (first + second) = first.filled + second.filled := Multiset.countP_add _ _ _

@[simp] theorem filled_object (serial : Option Nat) : filled {.object serial} = 0 := rfl

@[simp] theorem filled_block (address : Nat) (layout : Layout) :
    filled {.block address layout} = layout.blocks := by
  unfold filled Layout.blocks
  rw [← Multiset.cons_zero, Multiset.countP_cons, Multiset.countP_zero, Nat.zero_add]
  by_cases hsize : layout.size = 0
  · simp [Asset.isFilled, hsize]
  · simp [Asset.isFilled, hsize]

end Assets

theorem Leaf.CopyOf.filled {leaf : Leaf} {copy source : Piece} (h : leaf.CopyOf copy source) :
    (leaf.owns copy).filled = (leaf.copyDraws.map Layout.blocks).getD 0 := by
  have hobjects : (leaf.identityAssets copy.serial).filled = 0 := by
    unfold identityAssets
    split
    · simp
    · simp
    · simp
  rw [← h.drawn_eq, owns, Assets.filled_add, hobjects, Nat.zero_add]
  cases copy.drawn with
  | none => rfl
  | some block => exact Assets.filled_block block.1 block.2

namespace Vec

variable {α : Type} {element : Element α} {owns : α → Assets} {copyOf : α → α → Prop}
  {copy source : Vec α}

theorem CopyOf.filled_buffered (h : copy.CopyOf element copyOf source) :
    (copy.buffered element).filled =
      if element.layout.size = 0 ∨ source.length = 0 then 0 else 1 := by
  unfold buffered
  by_cases hsized : element.layout.size = 0
  · rw [if_pos (Or.inl hsized), if_pos (Or.inl hsized)]
    rfl
  · simp only [hsized, false_or, h.room hsized]
    by_cases hempty : source.length = 0
    · rw [if_pos hempty, if_pos hempty]
      rfl
    · have hcapacity : copy.capacity ≠ 0 := mt (h.room hsized).1 hempty
      rw [if_neg hempty, if_neg hempty, Assets.filled_block, Layout.blocks,
        if_neg (Nat.mul_ne_zero hsized hcapacity)]

theorem CopyOf.filled (h : copy.CopyOf element copyOf source) {blocks : α → Nat}
    (hblocks : ∀ {value original}, copyOf value original → (owns value).filled = blocks original) :
    (copy.assets element owns).filled =
      (if element.layout.size = 0 ∨ source.length = 0 then 0 else 1) +
        (source.toList.map blocks).foldr (· + ·) 0 := by
  have helements : ∀ {values originals : List α}, List.Forall₂ copyOf values originals →
      Assets.filled (values.map owns).sum = (originals.map blocks).foldr (· + ·) 0 := by
    intro values originals hvalues
    induction hvalues with
    | nil => rfl
    | cons hcopy _ ih =>
      simp only [List.map_cons, List.sum_cons, List.foldr_cons, Assets.filled_add,
        hblocks hcopy, ih]
  unfold assets
  rw [Assets.filled_add, h.filled_buffered, helements h.values]

end Vec

/-! ## Nests -/

namespace Nest

/-- The same shape, with equal data in the same order. -/
def Alike : (nest : Nest) → nest.Carrier → nest.Carrier → Prop
  | leaf _, (copy : Piece), (source : Piece) => copy.datum = source.datum
  | vec inner, (copy : Vec inner.Carrier), (source : Vec inner.Carrier) =>
    List.Forall₂ inner.Alike copy.toList source.toList
  | unique inner, (copy : Unique inner.Carrier), (source : Unique inner.Carrier) =>
    inner.Alike copy.value source.value

/-- How many blocks that take up room a copy needs. -/
def copyBlocks : (nest : Nest) → nest.Carrier → Nat
  | leaf type, _ => (type.copyDraws.map Layout.blocks).getD 0
  | vec inner, (source : Vec inner.Carrier) =>
    (if inner.element.layout.size = 0 ∨ source.length = 0 then 0 else 1) +
      (source.toList.map inner.copyBlocks).foldr (· + ·) 0
  | unique inner, (source : Unique inner.Carrier) =>
    inner.element.layout.blocks + inner.copyBlocks source.value

def CopyOf : (nest : Nest) → nest.Carrier → nest.Carrier → Prop
  | leaf type, copy, source => type.CopyOf copy source
  | vec inner, (copy : Vec inner.Carrier), (source : Vec inner.Carrier) =>
    copy.CopyOf inner.element inner.CopyOf source
  | unique inner, (copy : Unique inner.Carrier), (source : Unique inner.Carrier) =>
    inner.CopyOf copy.value source.value

theorem copier_yields {nest : Nest} {source : nest.Carrier} (hwhole : nest.Whole source)
    (spot : Spot) :
    (nest.copier.cloneAt spot source).Yields fun copy => nest.CopyOf copy source := by
  induction nest generalizing spot with
  | leaf type => exact type.copier_yields spot source
  | vec inner ih =>
    exact Vec.clone_yields hwhole.1 hwhole.2.1 fun value hmem => ih (hwhole.2.2 value hmem)
  | unique inner ih => exact Unique.place_yields inner.element (ih hwhole)

namespace CopyOf

variable {nest : Nest} {copy source : nest.Carrier}

theorem alike (h : nest.CopyOf copy source) : nest.Alike copy source := by
  induction nest with
  | leaf type => exact h.datum_eq
  | vec inner ih => exact h.values.imp fun _ _ => ih
  | unique inner ih => exact ih h

theorem whole (h : nest.CopyOf copy source) (hwhole : nest.Whole source) : nest.Whole copy := by
  induction nest with
  | leaf type => trivial
  | vec inner ih =>
    obtain ⟨hlength, hword, hvalues⟩ := hwhole
    have hpaired := ((List.forall₂_and_left _ _).2 ⟨hvalues, h.values.flip⟩).flip
    have hcopied := hpaired.imp fun _ _ hpair => And.intro (ih hpair.2 hpair.1) hpair.2
    refine ⟨?_, ?_, ((List.forall₂_and_left _ _).1 hcopied).1⟩
    · rw [h.values.length_eq, hlength, h.length_eq]
    · rwa [h.length_eq]
  | unique inner ih => exact ih h hwhole

theorem filled (h : nest.CopyOf copy source) :
    (nest.owns copy).filled = nest.copyBlocks source := by
  induction nest with
  | leaf type => exact Leaf.CopyOf.filled h
  | vec inner ih => exact Vec.CopyOf.filled h ih
  | unique inner ih =>
    show Assets.filled (Unique.assets inner.element inner.owns copy) = _
    unfold Unique.assets copyBlocks
    rw [Assets.filled_add, Assets.filled_block, ih h]

end CopyOf
end Nest
end Freehold
