import Mathlib.Algebra.Order.BigOperators.Group.Finset
import Freehold.Proofs.Shared.GroupAssets
import Freehold.Proofs.Shared.SelfReference

/-!
# The order of owners

Handles are ordered by the addresses of control blocks.  An address is used again once a
block has been freed, so the order depends on when that happens: a group keeps its control
block for as long as a handle of any kind refers to it.  In every state that a run can
reach the control blocks of such groups are assets of one account, and the memory keeps
them apart.  The address of a control block never changes, so neither does the order of
two handles.

Between the acts other code may use the allocator, and so may destructors and factories.
-/

namespace Freehold

variable {α ν : Type} {type : SharedType α} {owns : α → Assets} {given : Assets}

/-! ## Acts -/

/-- What is asked of an act that is given some assets.  Only a factory makes use of it. -/
inductive Act.Careful (type : SharedType α) (owns : α → Assets) : Act α ν → Assets → Prop
  | found {founding : Founding} {layout : Layout} {build : Spot → Attempt α} {unused : Effect Unit}
      {view : ν} {given : Assets}
      (hproper : (Act.found founding layout build unused view).Proper type)
      (hfoundable : Groups.Foundable owns given founding layout build unused) :
    Careful type owns (.found founding layout build unused view) given
  | quiet {act : Act α ν} (h : act.isFounding = false) : Careful type owns act 0

theorem Act.Careful.proper {act : Act α ν} (h : act.Careful type owns given) : act.Proper type := by
  cases h with
  | found hproper hfoundable => exact hproper
  | quiet hquiet =>
    cases act with
    | found => cases hquiet
    | emptyShared | emptyWeak | shared | weak => trivial

namespace SharedState

variable {state : SharedState α ν} {act : Act α ν}

def handles (state : SharedState α ν) : List (Hold ν) := state.shared ++ state.weak

def Roomy (state : SharedState α ν) : Prop :=
  ∀ origin ∈ state.founded, 0 < origin.blockLayout.size

theorem Sound.act_transfers (hcareful : type.Careful owns) (h : state.Sound type)
    (hact : act.Careful type owns given) :
    (state.act type act).Transfers (state.assets owns + given) (fun next => next.assets owns) := by
  cases hact with
  | found hproper hfoundable => exact h.found_transfers hcareful hproper hfoundable
  | quiet hquiet =>
    obtain ⟨dues, henters⟩ := h.keeps_act hquiet
    rw [add_zero]
    exact henters.transfers hcareful h

theorem Roomy.afterAct (hroomy : state.Roomy) (h : state.Sound type)
    (hact : act.Careful type owns given) (store : Store) :
    (state.act type act store).1.Roomy := by
  cases hact with
  | quiet hquiet =>
    obtain ⟨dues, next, hamounts, hfounded, -, -⟩ := h.keeps_act hquiet
    rw [hamounts.eq_result store]
    unfold Roomy
    rw [hfounded]
    exact hroomy
  | @found founding layout build unused view _ hproper hfoundable =>
    cases hrun : state.groups.found type founding layout build unused store with
    | mk answer after =>
      cases answer with
      | error kind =>
        rw [act_found_error hrun]
        exact hroomy
      | ok made =>
        have hyields := Groups.found_yields hfoundable.valid state.groups store made after hrun
        rw [act_found_ok hrun]
        intro origin hmem
        rcases List.mem_append.1 hmem with hbefore | hnew
        · exact hroomy origin hbefore
        · rw [Option.mem_toList] at hnew
          exact hyields origin.blockLayout (by simp [show _ = some origin from hnew])

end SharedState

/-! ## States of a program -/

/-- The handles and groups, the store, and what belongs to other code. -/
structure ProgramState (α ν : Type) where
  state : SharedState α ν
  store : Store
  outside : Assets

namespace ProgramState

/-- From one state to the next an act is done with the handles, or other code does something
with what belongs to it. -/
inductive Step (type : SharedType α) (owns : α → Assets) :
    ProgramState α ν → ProgramState α ν → Prop
  | act {state : SharedState α ν} {store : Store} {given rest : Assets} {act : Act α ν}
      (hact : act.Careful type owns given) :
    Step type owns ⟨state, store, given + rest⟩
      ⟨(state.act type act store).1, (state.act type act store).2, rest⟩
  | aside {β : Type} {state : SharedState α ν} {store : Store} {given rest : Assets}
      {left : β → Assets} {effect : Effect β} (heffect : effect.Transfers given left) :
    Step type owns ⟨state, store, given + rest⟩
      ⟨state, (effect store).2, left (effect store).1 + rest⟩

abbrev Reaches (type : SharedType α) (owns : α → Assets) :
    ProgramState α ν → ProgramState α ν → Prop :=
  Relation.ReflTransGen (Step type owns)

/-- There is no group yet, and what belongs to other code is kept by the memory. -/
structure Opens (program : ProgramState α ν) : Prop where
  state_eq : program.state = {}
  kept : ∃ others, program.outside.Kept program.store.memory others

structure Settled (type : SharedType α) (owns : α → Assets) (program : ProgramState α ν) :
    Prop where
  sound : program.state.Sound type
  roomy : program.state.Roomy
  kept : ∃ others, (program.state.assets owns + program.outside).Kept program.store.memory others

variable {program opening earlier later : ProgramState α ν}

theorem Opens.settled (h : program.Opens) (type : SharedType α) (owns : α → Assets) :
    program.Settled type owns := by
  obtain ⟨state, store, outside⟩ := program
  obtain rfl : state = {} := h.state_eq
  constructor
  · exact SharedState.sound_initial type
  · intro origin hmem
    cases hmem
  · obtain ⟨others, hkept⟩ := h.kept
    refine ⟨others, ?_⟩
    have hnone : SharedState.assets owns ({} : SharedState α ν) = 0 := by simp [SharedState.assets]
    rw [hnone, zero_add]
    exact hkept

theorem Settled.step (hcareful : type.Careful owns) (h : earlier.Settled type owns)
    (hstep : Step type owns earlier later) : later.Settled type owns := by
  obtain ⟨others, hkept⟩ := h.kept
  cases hstep with
  | @act state store given rest act hact =>
    have hacted := (h.sound.act_transfers hcareful hact).frame rest
    constructor
    · exact h.sound.afterAct hact.proper store
    · exact h.roomy.afterAct h.sound hact store
    · refine ⟨others, hacted store others ?_⟩
      rw [add_assoc]
      exact hkept
  | @aside _ state store given rest left effect heffect =>
    have hdone := heffect.frame (state.assets owns + rest)
    refine ⟨h.sound, h.roomy, others, ?_⟩
    show (state.assets owns + (left (effect store).1 + rest)).Kept (effect store).2.memory others
    rw [add_left_comm]
    apply hdone store others
    rw [add_left_comm]
    exact hkept

theorem Settled.reaches (hcareful : type.Careful owns) (h : earlier.Settled type owns)
    (hreaches : Reaches type owns earlier later) : later.Settled type owns := by
  induction hreaches with
  | refl => exact h
  | tail _ hstep ih => exact ih.step hcareful hstep

theorem founded_step (h : earlier.Settled type owns) (hstep : Step type owns earlier later)
    {number : Nat} {origin : Group α} (horigin : earlier.state.founded[number]? = some origin) :
    later.state.founded[number]? = some origin := by
  cases hstep with
  | @act _ store _ _ act _ => exact h.sound.founded_act act horigin store
  | aside => exact horigin

/-- No number is given to a second group. -/
theorem founded_reaches (hcareful : type.Careful owns) (h : earlier.Settled type owns)
    (hreaches : Reaches type owns earlier later) {number : Nat} {origin : Group α}
    (horigin : earlier.state.founded[number]? = some origin) :
    later.state.founded[number]? = some origin := by
  induction hreaches with
  | refl => exact horigin
  | tail hbefore hstep ih => exact founded_step (h.reaches hcareful hbefore) hstep ih

def ran (type : SharedType α) (program : ProgramState α ν) (acts : List (Act α ν)) :
    ProgramState α ν where
  state := (program.state.run type acts program.store).1
  store := (program.state.run type acts program.store).2
  outside := program.outside

/-- The acts of a run are steps, if their factories are given nothing. -/
theorem reaches_ran {acts : List (Act α ν)} (hacts : ∀ act ∈ acts, act.Careful type owns 0)
    (program : ProgramState α ν) : Reaches type owns program (program.ran type acts) := by
  induction acts generalizing program with
  | nil => exact .refl
  | cons act rest ih =>
    obtain ⟨state, store, outside⟩ := program
    have hstep : Step type owns ⟨state, store, 0 + outside⟩
        ⟨(state.act type act store).1, (state.act type act store).2, outside⟩ :=
      .act (hacts act List.mem_cons_self)
    rw [zero_add] at hstep
    exact .head hstep (ih (fun other hmem => hacts other (List.mem_cons_of_mem act hmem)) _)

end ProgramState

/-! ## Owners -/

theorem Groups.owner_none (groups : Groups α) : groups.owner (none : Hold ν) = 0 := rfl

/-- A group to which a handle refers has the control block with which it was founded. -/
theorem Standing.control_eq {origin now : Option (Group α)} {shared weak : Nat}
    {done : List (Duty α)} (h : Standing type origin shared weak now done)
    (hheld : 0 < shared ∨ 0 < weak) :
    ∃ first group, origin = some first ∧ now = some group ∧ group.block = first.block ∧
      group.blockLayout = first.blockLayout := by
  cases h with
  | owned | expired => exact ⟨_, _, rfl, rfl, rfl, rfl⟩
  | unknown | gone => omega

namespace SharedState

variable {state : SharedState α ν} {reference other : Reference ν}

theorem held_of_mem (hmem : some reference ∈ state.handles) :
    0 < state.sharedOf reference.group ∨ 0 < state.weakOf reference.group :=
  (List.mem_append.1 hmem).imp sharedOf_pos_of_mem weakOf_pos_of_mem

theorem Sound.owner_eq (h : state.Sound type) (hmem : some reference ∈ state.handles) :
    ∃ origin, state.founded[reference.group]? = some origin ∧
      state.groups.owner (some reference) = origin.block := by
  obtain ⟨origin, group, horigin, hgroup, hblock, -⟩ :=
    (h.standing reference.group).control_eq (held_of_mem hmem)
  refine ⟨origin, horigin, ?_⟩
  simp [Groups.owner, hgroup, hblock]

/-- The control block to which a handle refers belongs to its group, and it is not empty. -/
theorem Sound.control_le (h : state.Sound type) (hroomy : state.Roomy)
    (hmem : some reference ∈ state.handles) (owns : α → Assets) :
    reference.group ∈ Finset.range state.founded.length ∧
      ∃ layout : Layout, 0 < layout.size ∧
        {.block (state.groups.owner (some reference)) layout} ≤
          state.belongingsOf owns reference.group := by
  obtain ⟨origin, group, horigin, hgroup, -, hlayout⟩ :=
    (h.standing reference.group).control_eq (held_of_mem hmem)
  obtain ⟨hlt, hget⟩ := List.getElem?_eq_some_iff.1 horigin
  refine ⟨Finset.mem_range.2 hlt, group.blockLayout, ?_, ?_⟩
  · rw [hlayout]
    exact hroomy origin (hget ▸ List.getElem_mem hlt)
  · simp [Groups.owner, belongingsOf, Assets.ofOption, Group.belongings, hgroup]

end SharedState

namespace ProgramState.Settled

variable {program : ProgramState α ν} {reference other : Reference ν} {first second : Hold ν}

theorem owner_pos (h : program.Settled type owns) (hmem : some reference ∈ program.state.handles) :
    0 < program.state.groups.owner (some reference) := by
  obtain ⟨hknown, layout, hpos, hle⟩ := h.sound.control_le h.roomy hmem owns
  have hgroup : program.state.belongingsOf owns reference.group ≤ program.state.assets owns :=
    Finset.single_le_sum (fun _ _ => zero_le) hknown
  obtain ⟨others, hkept⟩ := h.kept
  obtain ⟨others', hblock⟩ := hkept.part ((hle.trans hgroup).trans (Multiset.le_add_right _ _))
  exact hblock.address_pos hpos

theorem owner_ne (h : program.Settled type owns) (hmem : some reference ∈ program.state.handles)
    (hother : some other ∈ program.state.handles) (hne : reference.group ≠ other.group) :
    program.state.groups.owner (some reference) ≠ program.state.groups.owner (some other) := by
  obtain ⟨hknown, layout, hpos, hle⟩ := h.sound.control_le h.roomy hmem owns
  obtain ⟨hknown', layout', hpos', hle'⟩ := h.sound.control_le h.roomy hother owns
  have hgroups : program.state.belongingsOf owns reference.group +
      program.state.belongingsOf owns other.group ≤ program.state.assets owns := by
    rw [← Finset.sum_pair hne]
    apply Finset.sum_le_sum_of_subset
    simpa [Finset.insert_subset_iff] using And.intro hknown hknown'
  have hblocks := (add_le_add hle hle').trans hgroups
  obtain ⟨others, hkept⟩ := h.kept
  obtain ⟨others', hpair⟩ := hkept.part (hblocks.trans (Multiset.le_add_right _ _))
  exact hpair.address_ne hpos hpos'

theorem owner_eq_iff (h : program.Settled type owns) (hfirst : first ∈ program.state.handles)
    (hsecond : second ∈ program.state.handles) :
    program.state.groups.owner first = program.state.groups.owner second ↔
      first.map Reference.group = second.map Reference.group := by
  cases first with
  | none =>
    cases second with
    | none => simp
    | some other => simp [Groups.owner_none, (h.owner_pos hsecond).ne]
  | some reference =>
    cases second with
    | none => simp [Groups.owner_none, (h.owner_pos hfirst).ne']
    | some other =>
      simp only [Option.map_some, Option.some.injEq]
      constructor
      · intro heq
        by_contra hne
        exact h.owner_ne hfirst hsecond hne heq
      · intro hgroup
        simp only [Groups.owner, hgroup]

/-- The owner of a handle stays the same while the handle exists. -/
theorem owner_kept {earlier later : ProgramState α ν} (hcareful : type.Careful owns)
    (h : earlier.Settled type owns) (hreaches : Reaches type owns earlier later)
    (hbefore : first ∈ earlier.state.handles) (hafter : first ∈ later.state.handles) :
    later.state.groups.owner first = earlier.state.groups.owner first := by
  cases first with
  | none => rfl
  | some reference =>
    -- In both states the owner is the control block with which the group was founded.
    obtain ⟨origin, horigin, howner⟩ := h.sound.owner_eq hbefore
    obtain ⟨origin', horigin', howner'⟩ :=
      (h.reaches hcareful hreaches).sound.owner_eq hafter
    have hsame := founded_reaches hcareful h hreaches horigin
    obtain rfl : origin = origin' := Option.some.inj (hsame.symm.trans horigin')
    rw [howner, howner']

end ProgramState.Settled

/-! ## The order -/

/-- The order of the handles of a state tells their owners apart, and empty handles come
first. -/
structure SharedState.OwnerOrdered (state : SharedState α ν) : Prop where
  preorder : Std.TransCmp (state.groups.ownerCompare : Hold ν → Hold ν → Ordering)
  before_iff : ∀ first second : Hold ν,
    state.groups.ownerBefore first second = true ↔
      state.groups.ownerCompare first second = .lt
  eq_iff : ∀ first ∈ state.handles, ∀ second ∈ state.handles,
    state.groups.ownerCompare first second = .eq ↔
      first.map Reference.group = second.map Reference.group
  empty_least : ∀ second : Hold ν, (state.groups.ownerCompare none second).isLE

theorem ProgramState.Settled.ordered {program : ProgramState α ν} (h : program.Settled type owns) :
    program.state.OwnerOrdered := by
  constructor
  · exact inferInstanceAs (Std.TransCmp (compareOn program.state.groups.owner))
  · intro first second
    simp [Groups.ownerBefore, Groups.ownerCompare, Nat.compare_eq_lt]
  · intro first hfirst second hsecond
    rw [Groups.ownerCompare, Nat.compare_eq_eq]
    exact h.owner_eq_iff hfirst hsecond
  · intro second
    rw [Groups.ownerCompare, Nat.isLE_compare]
    exact Nat.zero_le _

/-- In every state of a run the order of owners tells the groups apart, whatever the handles
view and whether their values are still alive, and two handles that still exist in a later
state are ordered as before. -/
theorem ProgramState.owner_order_kept (hcareful : type.Careful owns)
    {opening earlier later : ProgramState α ν}
    (hopens : opening.Opens) (hearlier : Reaches type owns opening earlier)
    (hlater : Reaches type owns earlier later) :
    earlier.state.OwnerOrdered ∧
      ∀ first ∈ earlier.state.handles, ∀ second ∈ earlier.state.handles,
        first ∈ later.state.handles → second ∈ later.state.handles →
          later.state.groups.ownerCompare first second =
              earlier.state.groups.ownerCompare first second ∧
            later.state.groups.ownerBefore first second =
              earlier.state.groups.ownerBefore first second := by
  have hsettled := (hopens.settled type owns).reaches hcareful hearlier
  refine ⟨hsettled.ordered, ?_⟩
  intro first hfirst second hsecond hfirst' hsecond'
  have howner := hsettled.owner_kept hcareful hlater hfirst hfirst'
  have howner' := hsettled.owner_kept hcareful hlater hsecond hsecond'
  simp only [Groups.ownerCompare, Groups.ownerBefore, howner, howner', and_self]

def heapPieces : SharedType Piece where
  destroy _ piece := Catalogue.heap.destroy piece
  linked _ := false
  link := id

theorem heapPieces_careful : heapPieces.Careful Catalogue.heap.owns where
  destroy _ piece := (Catalogue.heap.destroy_givesUp Catalogue.heap_proper piece).transfers
  link _ := rfl

def foundPiece (isCombined : Bool) (value : Int) : Act Piece Unit :=
  .found { combined := isCombined } Catalogue.heap.layout
    (fun _ => Catalogue.heap.make (.number value)) (pure ()) ()

theorem foundPiece_careful (isCombined : Bool) (value : Int) :
    (foundPiece isCombined value).Careful heapPieces Catalogue.heap.owns 0 := by
  apply Act.Careful.found
  · intro spot store piece after hbuild
    exact ⟨rfl, fun hlinked => by cases hlinked⟩
  · constructor
    case valid => decide
    case own => cases isCombined <;> decide
    case build =>
      exact fun _ => Effect.Manages.transfers
        (Catalogue.heap.make_manages Catalogue.heap_proper (.number value))
    case unused => exact Effect.transfers_pure rfl

/-- Two groups, with a weak handle of the first one. -/
def twoGroups : List (Act Piece Unit) :=
  [foundPiece false 1, foundPiece true 2, .shared 1 .downgrade]

/-- The first value goes with its blocks, and a new group is founded. -/
def changeOfOwners : List (Act Piece Unit) := [.shared 1 .drop, foundPiece false 3]

def ProgramState.beforeAll : ProgramState Piece Unit where
  state := {}
  store := { memory := { backend := .heap {} } }
  outside := 0

def ProgramState.afterFounding : ProgramState Piece Unit := beforeAll.ran heapPieces twoGroups

def ProgramState.afterChange : ProgramState Piece Unit :=
  afterFounding.ran heapPieces changeOfOwners

theorem ProgramState.owner_order_kept_changeOfOwners :
    (heapPieces.Careful Catalogue.heap.owns ∧ beforeAll.Opens ∧
      Reaches heapPieces Catalogue.heap.owns beforeAll afterFounding ∧
      Reaches heapPieces Catalogue.heap.owns afterFounding afterChange) ∧
    afterFounding.state.OwnerOrdered ∧
      afterChange.state.groups.expired (some ⟨0, ()⟩) = true ∧
      afterChange.state.groups.ownerCompare (some ⟨0, ()⟩) (some ⟨1, ()⟩) =
        afterFounding.state.groups.ownerCompare (some ⟨0, ()⟩) (some ⟨1, ()⟩) := by
  have hopens : beforeAll.Opens := by
    refine ⟨rfl, 0, ?_, [], ?_⟩
    · rintro ⟨span, hmem, -⟩
      cases hmem
    · exact Assets.lodged_zero.2 (.of_unused rfl)
  have hacts : ∀ act ∈ twoGroups, act.Careful heapPieces Catalogue.heap.owns 0 := by
    intro act hmem
    simp only [twoGroups, List.mem_cons, List.not_mem_nil, or_false] at hmem
    rcases hmem with rfl | rfl | rfl
    · exact foundPiece_careful false 1
    · exact foundPiece_careful true 2
    · exact .quiet rfl
  have hlaterActs : ∀ act ∈ changeOfOwners, act.Careful heapPieces Catalogue.heap.owns 0 := by
    intro act hmem
    simp only [changeOfOwners, List.mem_cons, List.not_mem_nil, or_false] at hmem
    rcases hmem with rfl | rfl
    · exact .quiet rfl
    · exact foundPiece_careful false 3
  have hearlier : Reaches heapPieces Catalogue.heap.owns beforeAll afterFounding :=
    reaches_ran hacts beforeAll
  have hlater : Reaches heapPieces Catalogue.heap.owns afterFounding afterChange :=
    reaches_ran hlaterActs afterFounding
  obtain ⟨hordered, hkept⟩ := owner_order_kept heapPieces_careful hopens hearlier hlater
  refine ⟨⟨heapPieces_careful, hopens, hearlier, hlater⟩, hordered, by decide +kernel, ?_⟩
  exact (hkept (some ⟨0, ()⟩) (by decide +kernel) (some ⟨1, ()⟩) (by decide +kernel)
    (by decide +kernel) (by decide +kernel)).1

end Freehold
