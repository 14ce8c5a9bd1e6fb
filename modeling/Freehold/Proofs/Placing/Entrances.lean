import Freehold.Proofs.Placing.ManagedAssets
import Freehold.Proofs.Vec.AnchoredTwins

/-!
# Two ways to a value

A value is built or copied to be returned, or in the place where it stays.  Both ways lead to
the same value, up to what the value remembers of its place, and to the same store; or both lead
to the same error and leave nothing behind.  So whatever is put on record is the same, too.

This holds of user code that does the same wherever it works.  Only the two strategies that
work in place see any difference at all.
-/

namespace Freehold

/-- The same store is reached, with values that are the same or with one error.  So the same was
put on record, in the same order, and as much of the plan was used up. -/
inductive SameOutcome {α : Type} (same : α → α → Prop) :
    Except ErrorKind α × Store → Except ErrorKind α × Store → Prop
  | value {value value' : α} (h : same value value') (after : Store) :
    SameOutcome same (.ok value, after) (.ok value', after)
  | error (kind : ErrorKind) (after : Store) :
    SameOutcome same (.error kind, after) (.error kind, after)

theorem SameOutcome.refl {α : Type} {same : α → α → Prop} (hrefl : ∀ value, same value value)
    (run : Except ErrorKind α × Store) : SameOutcome same run run := by
  obtain ⟨answer, after⟩ := run
  cases answer with
  | ok value => exact .value (hrefl value) after
  | error kind => exact .error kind after

/-- On either way, what is given turns into what the value owns, or into nothing. -/
structure TwoWays {α : Type} (same : α → α → Prop) (owns : α → Assets) (given : Assets)
    (byValue : Attempt α) (inPlace : Spot → Attempt α) : Prop where
  agree : ∀ spot store, SameOutcome same (byValue store) (inPlace spot store)
  returned : byValue.Manages given owns 0
  placed : ∀ spot, (inPlace spot).Manages given owns 0

/-- To be returned is to be in passing. -/
theorem TwoWays.of_passing {α : Type} {same : α → α → Prop} {owns : α → Assets} {given : Assets}
    {byValue : Attempt α} {inPlace : Spot → Attempt α} (hpassing : byValue = inPlace .passing)
    (hagree : ∀ spot spot' store, SameOutcome same (inPlace spot store) (inPlace spot' store))
    (hplaced : ∀ spot, (inPlace spot).Manages given owns 0) :
    TwoWays same owns given byValue inPlace where
  agree spot store := by
    rw [hpassing]
    exact hagree .passing spot store
  returned := by
    rw [hpassing]
    exact hplaced .passing
  placed := hplaced

/-! ## What is asked of user code -/

section UserCode

variable {α β : Type}

/-- Values that are the same but for their places are destroyed alike, and what they own is
given up. -/
structure Movable.Indifferent (type : Movable α) (same : α → α → Prop) (owns : α → Assets) :
    Prop where
  refl : ∀ value, same value value
  destroys : ∀ value value', same value value' → type.destroy value = type.destroy value'
  givesUp : GivesUp type.destroy owns

/-- The same is done wherever a shell is completed. -/
def Phases.Indifferent (phases : Phases α) (same : α → α → Prop) : Prop :=
  ∀ spot spot' store, ∃ answer value value' after,
    (phases.shell >>= phases.init spot) store = ((answer, value), after) ∧
      (phases.shell >>= phases.init spot') store = ((answer, value'), after) ∧ same value value'

def Construction.Indifferent (construction : Construction β α) (same : α → α → Prop) (args : β) :
    Prop :=
  match construction with
  | inPlace phases => (phases args).Indifferent same
  | withAllocator _ | factory _ | plain _ => True

def Cloning.Indifferent (cloning : Cloning α) (same : α → α → Prop) (source : α) : Prop :=
  match cloning with
  | atPlace cloneAt =>
    ∀ spot spot' store, SameOutcome same (cloneAt spot source store) (cloneAt spot' source store)
  | inAllocator _ | self _ | allocateFrom _ | createFrom _ | copy _ => True

/-- Whether or not it is completed, a shell owns what was made for it. -/
def Phases.Manages (phases : Phases α) (owns : α → Assets) (given : Assets) : Prop :=
  ∀ spot, Effect.Manages (phases.shell >>= phases.init spot) given fun reached => owns reached.2

/-- A hook that fails leaves nothing of its own behind. -/
def Construction.Manages (construction : Construction β α) (owns : α → Assets) (args : β)
    (given : Assets) : Prop :=
  match construction with
  | inPlace phases => (phases args).Manages owns given
  | withAllocator allocate => (allocate args).Manages given owns 0
  | factory create => (create args).Manages given owns 0
  | plain convert => (convert args).Manages given owns

def Cloning.Manages (cloning : Cloning α) (owns : α → Assets) (source : α) : Prop :=
  match cloning with
  | inAllocator clone | self clone => (clone source).Manages 0 owns 0
  | atPlace cloneAt => ∀ spot, (cloneAt spot source).Manages 0 owns 0
  | allocateFrom allocate => (allocate source).Manages 0 owns 0
  | createFrom create => (create source).Manages 0 owns 0
  | copy duplicate => (duplicate source).Manages 0 owns

end UserCode

/-! ## Strategies -/

section Strategies

variable {α β : Type} {type : Movable α} {same : α → α → Prop} {owns : α → Assets}
  {given : Assets}

/-- A shell that cannot be completed is destroyed with all that was made for it. -/
theorem Phases.run_manages {phases : Phases α} (hphases : phases.Manages owns given)
    (htype : type.Indifferent same owns) (spot : Spot) :
    (phases.run type spot).Manages given owns 0 := by
  rw [Attempt.manages_iff]
  intro store regions others hlodged
  have hreached := hphases spot store regions others hlodged
  rw [run_apply]
  generalize (phases.shell >>= phases.init spot) store = run at hreached
  obtain ⟨⟨answer, value⟩, after⟩ := run
  cases answer with
  | ok done => exact hreached
  | error kind =>
    obtain ⟨hsettles, hspends⟩ := hreached
    have hvalue := (hsettles.lodged hspends hlodged).1
    obtain ⟨hsettles', hspends'⟩ := htype.givesUp value after regions others hvalue
    exact ⟨hsettles.trans hsettles', Store.Spends.habit.trans hspends hspends'⟩

theorem Phases.run_agrees {phases : Phases α} (hphases : phases.Indifferent same)
    (htype : type.Indifferent same owns) (spot spot' : Spot) (store : Store) :
    SameOutcome same (phases.run type spot store) (phases.run type spot' store) := by
  obtain ⟨answer, value, value', after, hfirst, hsecond, hsame⟩ := hphases spot spot' store
  rw [run_apply, run_apply, hfirst, hsecond]
  cases answer with
  | ok done => exact .value hsame after
  | error kind =>
    dsimp only
    rw [htype.destroys value value' hsame]
    exact .error kind _

namespace Construction

variable {construction : Construction β α} {args : β}

theorem produce_eq_passing (construction : Construction β α) (type : Movable α) (args : β) :
    construction.produce type args = construction.constructAt type .passing args := by
  cases construction with
  | inPlace phases | withAllocator allocate | factory create | plain convert => rfl

theorem constructAt_manages (h : construction.Manages owns args given)
    (htype : type.Indifferent same owns) (spot : Spot) :
    (construction.constructAt type spot args).Manages given owns 0 := by
  cases construction with
  | inPlace phases => exact Phases.run_manages h htype spot
  | withAllocator allocate | factory create | plain convert => exact h

theorem constructAt_agrees (h : construction.Indifferent same args)
    (htype : type.Indifferent same owns) (spot spot' : Spot) (store : Store) :
    SameOutcome same (construction.constructAt type spot args store)
      (construction.constructAt type spot' args store) := by
  cases construction with
  | inPlace phases => exact Phases.run_agrees h htype spot spot' store
  | withAllocator allocate | factory create | plain convert => exact .refl htype.refl _

theorem twoWays (hsame : construction.Indifferent same args)
    (hmanages : construction.Manages owns args given) (htype : type.Indifferent same owns) :
    TwoWays same owns given (construction.produce type args)
      fun spot => construction.constructAt type spot args :=
  .of_passing (construction.produce_eq_passing type args) (constructAt_agrees hsame htype)
    (constructAt_manages hmanages htype)

end Construction

namespace Cloning

variable {cloning : Cloning α} {source : α}

theorem clone_eq_passing (cloning : Cloning α) (source : α) :
    cloning.clone source = cloning.cloneAt .passing source := by
  cases cloning with
  | inAllocator clone | self clone | atPlace cloneAt | allocateFrom allocate | createFrom create
  | copy duplicate => rfl

theorem manages_iff :
    cloning.Manages owns source ↔ ∀ spot, (cloning.cloneAt spot source).Manages 0 owns 0 := by
  cases cloning with
  | atPlace cloneAt => exact Iff.rfl
  | inAllocator clone | self clone | allocateFrom allocate | createFrom create
  | copy duplicate => exact ⟨fun h _ => h, fun h => h .passing⟩

theorem cloneAt_agrees (h : cloning.Indifferent same source) (hrefl : ∀ value, same value value)
    (spot spot' : Spot) (store : Store) :
    SameOutcome same (cloning.cloneAt spot source store) (cloning.cloneAt spot' source store) := by
  cases cloning with
  | atPlace cloneAt => exact h spot spot' store
  | inAllocator clone | self clone | allocateFrom allocate | createFrom create
  | copy duplicate => exact .refl hrefl _

theorem twoWays (hsame : cloning.Indifferent same source) (hmanages : cloning.Manages owns source)
    (hrefl : ∀ value, same value value) :
    TwoWays same owns 0 (cloning.clone source) fun spot => cloning.cloneAt spot source :=
  .of_passing (cloning.clone_eq_passing source) (cloneAt_agrees hsame hrefl)
    (manages_iff.1 hmanages)

end Cloning
end Strategies

/-! ## Leaf types -/

namespace Leaf

variable {leaf : Leaf}

theorem destroy_same {piece piece' : Piece} (h : SamePiece piece piece') :
    leaf.destroy piece = leaf.destroy piece' := by
  obtain ⟨anchor, rfl⟩ := SamePiece.exists_anchor h
  rfl

theorem indifferent (hproper : leaf.Proper) :
    leaf.element.toMovable.Indifferent SamePiece leaf.owns where
  refl _ := rfl
  destroys _ _ := destroy_same
  givesUp := leaf.destroy_givesUp hproper

theorem anchorAt_same (spot spot' : Spot) (piece : Piece) :
    SamePiece (leaf.anchorAt spot piece) (leaf.anchorAt spot' piece) :=
  (leaf.placeless_anchorAt spot piece).trans (leaf.placeless_anchorAt spot' piece).symm

theorem complete_same (spot spot' : Spot) (datum : Datum) (shell : Piece) (store : Store) :
    ∃ answer value value' after,
      leaf.complete spot datum shell store = ((answer, value), after) ∧
        leaf.complete spot' datum shell store = ((answer, value'), after) ∧
        SamePiece value value' := by
  unfold complete
  simp only [Effect.bind_apply]
  rcases Attempt.hook.run store with ⟨answer, middle⟩
  cases answer with
  | error kind => exact ⟨.error kind, shell, shell, middle, rfl, rfl, rfl⟩
  | ok done =>
    obtain ⟨blank, serial, anchor, drawn⟩ := shell
    have hsame := leaf.anchorAt_same spot spot' ⟨datum, serial, anchor, drawn⟩
    cases serial with
    | none => exact ⟨_, _, _, _, rfl, rfl, hsame⟩
    | some serial => exact ⟨_, _, _, _, rfl, rfl, hsame⟩

theorem construction_indifferent (leaf : Leaf) (datum : Datum) :
    leaf.construction.Indifferent SamePiece datum := by
  unfold construction
  cases leaf.building with
  | inPlace => exact fun spot spot' store => leaf.complete_same spot spot' datum _ _
  | withAllocator draws => trivial
  | factory => trivial
  | plain => trivial

theorem cloning_indifferent (leaf : Leaf) (source : Piece) :
    leaf.cloning.Indifferent SamePiece source := by
  unfold cloning
  cases leaf.copying with
  | atPlace =>
    intro spot spot' store
    simp only [createAt, Attempt.bind_apply]
    rcases leaf.create source.datum store with ⟨answer, after⟩
    cases answer with
    | ok piece => exact .value (leaf.anchorAt_same spot spot' piece) after
    | error kind => exact .error kind after
  | inAllocator draws | self | allocateFrom draws | createFrom | copy => trivial

section Managing

variable (hproper : leaf.Proper)

include hproper

theorem construction_manages (datum : Datum) : leaf.construction.Manages leaf.owns datum 0 := by
  have habit := Store.Spends.leafHabit hproper.draws
  unfold construction
  cases hbuilding : leaf.building with
  | inPlace =>
    intro spot
    refine (leaf.shell_careful (.number 0) (fun _ => datum) spot).manages ?_
    exact habit.bind (habit.bears (.number 0)) fun shell =>
      leaf.complete_leads habit spot datum shell
  | withAllocator draws =>
    exact (leaf.draw_turns draws datum).manages (leaf.draw_leads habit (.built hbuilding) datum)
  | factory => exact (leaf.create_turns datum).manages (leaf.create_leads habit datum)
  | plain => exact (leaf.born_turns_owns datum).manages (habit.bears datum)

theorem cloning_manages (source : Piece) : leaf.cloning.Manages leaf.owns source :=
  Cloning.manages_iff.2 fun spot => leaf.copier_manages hproper spot source

end Managing
end Leaf
end Freehold
