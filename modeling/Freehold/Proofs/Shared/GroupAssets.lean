import Mathlib.Algebra.BigOperators.Group.Finset.Piecewise
import Freehold.Proofs.Placing.Owners
import Freehold.Proofs.Placing.Transfers
import Freehold.Proofs.Shared.Ownership

/-!
# What belongs to groups

What belongs to a group is found from two sides.  The counts and the value of the group
say what it has now.  The group in which it was founded says what it had at first, and the
ledger says what it has given up since.  The two agree in every state that a run can
reach, so an act gives up exactly what belongs to a group before it and no longer
afterwards.
-/

namespace Freehold

variable {α ν : Type} {type : SharedType α} {owns : α → Assets} {given : Assets}

/-- The destructor gives up what a value owns, whatever counts it sees, and it makes no
difference to that whether the value is linked. -/
structure SharedType.Careful (type : SharedType α) (owns : α → Assets) : Prop where
  destroy : ∀ counts value, (type.destroy counts value).Transfers (owns value) (fun _ => 0)
  link : ∀ value, owns (type.link value) = owns value

/-! ## Founding -/

namespace Groups

/-- What is asked of a factory.  The code that makes the value is given some assets, which end
up in the value or are given up. -/
structure Foundable (owns : α → Assets) (given : Assets) (founding : Founding) (layout : Layout)
    (build : Spot → Attempt α) (unused : Effect Unit) : Prop where
  valid : layout.Valid
  own : (ownLayout founding layout).Valid
  build : ∀ spot, (build spot).Transfers given owns 0
  unused : unused.Transfers given (fun _ => 0)

variable {founding : Founding} {layout : Layout} {build : Spot → Attempt α} {unused : Effect Unit}

theorem combined_transfers (hvalid : (combinedLayout layout).Valid)
    (hunused : unused.Transfers given (fun _ => 0))
    (hbuild : ∀ spot, (build spot).Transfers given owns 0) (groups : Groups α) :
    (groups.combined layout build unused).Transfers given
      (fun made => made.2.assetsAt owns made.1) 0 := by
  rw [combined_eq_holding]
  apply (Attempt.holding_transfers hvalid hunused fun block => hbuild _).bind
  intro held
  apply Attempt.transfers_pure
  rw [assetsAt_enroll]
  simp [Group.assets, Assets.blockAt, Assets.ofOption]

theorem separate_transfers (hcareful : type.Careful owns) (hvalid : layout.Valid)
    (hunused : unused.Transfers given (fun _ => 0))
    (hbuild : ∀ spot, (build spot).Transfers given owns 0) (groups : Groups α) :
    (groups.separate type layout build unused).Transfers given
      (fun made => made.2.assetsAt owns made.1) 0 := by
  have hcontrol := Allocator.transfers_allocate (by decide : controlLayout.Valid)
  have hbody (place : Block) :
      Attempt.Transfers
        (build (.block place.address) >>= fun value =>
          Attempt.undoing (Allocator.allocate controlLayout) (type.destroy .unowned value) >>=
            fun control => pure (value, control))
        given
        (fun made : α × Block => {.block made.2.address controlLayout} + owns made.1) 0 := by
    apply (hbuild (.block place.address)).bind
    intro value
    have hframed := hcontrol.frame (owns value)
    rw [zero_add] at hframed
    apply (hframed.undoing (hcareful.destroy .unowned value)).bind
    intro control
    exact Attempt.transfers_pure rfl
  rw [separate_eq_holding]
  apply (Attempt.holding_transfers hvalid hunused hbody).bind
  intro held
  apply Attempt.transfers_pure
  rw [assetsAt_enroll]
  simp only [Group.assets, Assets.blockAt, Assets.ofOption]
  rw [add_left_comm, add_assoc]

theorem found_transfers (hcareful : type.Careful owns)
    (hfoundable : Foundable owns given founding layout build unused) (groups : Groups α) :
    (groups.found type founding layout build unused).Transfers given
      (fun made => made.2.assetsAt owns made.1) 0 := by
  have hown := hfoundable.own
  have hnew : Attempt.Transfers
      (if founding.combined then groups.combined layout build unused
        else groups.separate type layout build unused)
      given (fun made => made.2.assetsAt owns made.1) 0 := by
    by_cases hcombined : founding.combined
    · simp only [ownLayout, if_pos hcombined] at hown ⊢
      exact combined_transfers hown hfoundable.unused hfoundable.build groups
    · simp only [if_neg hcombined]
      exact separate_transfers hcareful hfoundable.valid hfoundable.unused hfoundable.build groups
  unfold found
  apply hnew.bind
  intro made
  by_cases hlinked : founding.linked
  · simp only [if_pos hlinked]
    exact Attempt.transfers_pure (assetsAt_link hcareful.link made.2 made.1).symm
  · simp only [if_neg hlinked]
    exact Attempt.transfers_pure rfl

/-! A control block is never empty, so no two groups can have theirs at one address. -/

theorem combinedLayout_pos (hvalid : layout.Valid) : 0 < (combinedLayout layout).size := by
  have halign := Nat.pos_of_isPowerOfTwo hvalid.1
  have hoffset : headerSize ≤ valueOffset layout := Word.le_roundUp headerSize halign
  have hwhole : valueOffset layout + layout.size ≤ (combinedLayout layout).size :=
    Word.le_roundUp _ (Nat.lt_of_lt_of_le (by decide) (Nat.le_max_left 8 layout.align))
  have hheader : 0 < headerSize := by decide
  omega

theorem link_blockLayout (type : SharedType α) (groups : Groups α) (number : Nat) :
    ((groups.link type number).find? number).map Group.blockLayout =
      (groups.find? number).map Group.blockLayout := by
  cases hfind : groups.find? number with
  | none => simp [link, hfind]
  | some group =>
    rw [link_of_find hfind, Roster.find?_set_self _ (by simp [hfind])]
    rfl

theorem found_yields (hvalid : layout.Valid) (groups : Groups α) :
    (groups.found type founding layout build unused).Yields fun made =>
      ∀ layout ∈ (made.2.find? made.1).map Group.blockLayout, 0 < layout.size := by
  have hnew : Attempt.Yields
      (if founding.combined then groups.combined layout build unused
        else groups.separate type layout build unused)
      fun made => ∀ layout ∈ (made.2.find? made.1).map Group.blockLayout, 0 < layout.size := by
    by_cases hcombined : founding.combined
    · simp only [if_pos hcombined]
      rw [combined_eq_holding]
      apply Attempt.Yields.after
      intro held
      apply Attempt.yields_pure
      rw [Roster.find?_enroll_self]
      simpa using combinedLayout_pos hvalid
    · simp only [if_neg hcombined]
      rw [separate_eq_holding]
      apply Attempt.Yields.after
      intro held
      apply Attempt.yields_pure
      rw [Roster.find?_enroll_self]
      simp [controlLayout]
  unfold found
  refine hnew.bind fun made hmade => ?_
  by_cases hlinked : founding.linked
  · simp only [if_pos hlinked]
    apply Attempt.yields_pure
    rw [link_blockLayout]
    exact hmade
  · simp only [if_neg hlinked]
    exact Attempt.yields_pure hmade

end Groups

/-! ## Duties -/

namespace Duty

def cost (owns : α → Assets) : Duty α → Assets
  | destroy _ value => owns value
  | free address layout => {.block address layout}

def costs (owns : α → Assets) (duties : List (Duty α)) : Assets :=
  (duties.map (cost owns)).sum

@[simp] theorem costs_nil : costs owns ([] : List (Duty α)) = 0 := rfl

@[simp] theorem costs_cons (duty : Duty α) (duties : List (Duty α)) :
    costs owns (duty :: duties) = duty.cost owns + costs owns duties := by
  simp [costs]

@[simp] theorem costs_append (first second : List (Duty α)) :
    costs owns (first ++ second) = costs owns first + costs owns second := by
  simp [costs]

theorem perform_transfers (hcareful : type.Careful owns) (duty : Duty α) :
    (duty.perform type).Transfers (duty.cost owns) (fun _ => 0) := by
  cases duty with
  | destroy counts value => exact hcareful.destroy counts value
  | free address layout => exact Allocator.transfers_deallocate address layout

theorem performAll_transfers (hcareful : type.Careful owns) (duties : List (Duty α)) :
    (performAll type duties).Transfers (costs owns duties) (fun _ => 0) := by
  induction duties with
  | nil => exact Effect.transfers_pure rfl
  | cons duty rest ih =>
    have hfirst := (duty.perform_transfers hcareful).frame (costs owns rest)
    rw [costs_cons]
    apply hfirst.bind
    intro done
    rw [zero_add]
    exact ih

/-- Duties that are entered under their numbers cost together what each number has to pay. -/
theorem sum_costs {entries : List (Nat × Duty α)} {count : Nat}
    (h : ∀ entry ∈ entries, entry.1 < count) :
    ∑ number ∈ Finset.range count,
        costs owns ((entries.filter fun entry => entry.1 == number).map Prod.snd) =
      costs owns (entries.map Prod.snd) := by
  induction entries with
  | nil => simp
  | cons entry rest ih =>
    have hknown := Finset.mem_range.2 (h entry List.mem_cons_self)
    have hsplit (number : Nat) :
        costs owns (((entry :: rest).filter fun entry => entry.1 == number).map Prod.snd) =
          (if entry.1 = number then entry.2.cost owns else 0) +
            costs owns ((rest.filter fun entry => entry.1 == number).map Prod.snd) := by
      by_cases heq : entry.1 = number
      · simp [heq]
      · simp [heq]
    simp only [hsplit, Finset.sum_add_distrib, Finset.sum_ite_eq, hknown, if_true, List.map_cons,
      costs_cons]
    rw [ih fun other hmem => h other (List.mem_cons_of_mem entry hmem)]

end Duty

/-! ## Groups -/

namespace Group

/-- What belongs to a group as it stands.  When the value is gone, its block is gone too. -/
def belongings (owns : α → Assets) (group : Group α) : Assets :=
  {.block group.block group.blockLayout} +
    Assets.ofOption (fun value => Assets.blockAt group.place group.own + owns value) group.value

theorem belongings_eq_assets {group : Group α} {value : α} (h : group.value = some value) :
    group.belongings owns = group.assets owns := by
  simp [belongings, assets, Assets.ofOption, h]

theorem costs_ownDuties (group : Group α) :
    Duty.costs owns group.ownDuties = Assets.blockAt group.place group.own := by
  unfold ownDuties
  cases group.own with
  | none => rfl
  | some layout => simp [Duty.cost, Assets.blockAt]

end Group

/-- What a group had at first is what it has now and what it has given up. -/
theorem Standing.belongings_eq {origin now : Option (Group α)} {shared weak : Nat}
    {done : List (Duty α)} (h : Standing type origin shared weak now done) :
    Assets.ofOption (Group.belongings owns) origin =
      Assets.ofOption (Group.belongings owns) now + Duty.costs owns done := by
  cases h with
  | unknown => rfl
  | owned hvalue shared weak => simp [Assets.ofOption, Group.belongings]
  | expired hvalue weak hcounts =>
    simp [Assets.ofOption, Group.belongings, Group.costs_ownDuties, hvalue, Duty.cost, add_comm]
  | gone hvalue hcounts =>
    simp [Assets.ofOption, Group.belongings, Group.costs_ownDuties, Group.blockDuty, hvalue,
      Duty.cost, add_comm, add_left_comm]

/-! ## States -/

namespace SharedState

variable {state : SharedState α ν}

def belongingsOf (owns : α → Assets) (state : SharedState α ν) (number : Nat) : Assets :=
  Assets.ofOption (Group.belongings owns) (state.groups.find? number)

def assets (owns : α → Assets) (state : SharedState α ν) : Assets :=
  ∑ number ∈ Finset.range state.founded.length, state.belongingsOf owns number

theorem Sound.known (h : state.Sound type) {entry : Nat × Duty α} (hmem : entry ∈ state.ledger) :
    entry.1 < state.founded.length := by
  by_contra hunknown
  have hstanding := h.standing entry.1
  rw [List.getElem?_eq_none (Nat.le_of_not_lt hunknown)] at hstanding
  have hnone : state.ledgerOf entry.1 = [] := hstanding.of_unknown.2.2
  have hentered : entry.2 ∈ state.ledgerOf entry.1 :=
    List.mem_map_of_mem (List.mem_filter.2 ⟨hmem, by simp⟩)
  simp [hnone] at hentered

theorem Sound.assets_eq (h : state.Sound type) (owns : α → Assets) :
    ∑ number ∈ Finset.range state.founded.length,
        Assets.ofOption (Group.belongings owns) state.founded[number]? =
      state.assets owns + Duty.costs owns (state.ledger.map Prod.snd) := by
  have hgroup (number : Nat) :
      Assets.ofOption (Group.belongings owns) state.founded[number]? =
        state.belongingsOf owns number + Duty.costs owns (state.ledgerOf number) :=
    (h.standing number).belongings_eq
  have hledger : ∑ number ∈ Finset.range state.founded.length,
      Duty.costs owns (state.ledgerOf number) = Duty.costs owns (state.ledger.map Prod.snd) :=
    Duty.sum_costs fun _ hmem => h.known hmem
  simp only [hgroup, Finset.sum_add_distrib, hledger]
  rfl

/-- What an act costs belonged to the groups before and does not belong to them afterwards. -/
theorem Enters.transfers (hcareful : type.Careful owns) (h : state.Sound type)
    {effect : Effect (SharedState α ν)} {dues : List (Nat × Duty α)}
    (henters : Enters type state effect dues) :
    effect.Transfers (state.assets owns) (fun next => next.assets owns) := by
  obtain ⟨next, hamounts, hfounded, hledger, hnext⟩ := henters
  -- Before and after the act the same groups are accounted for, so what was entered by it is
  -- all that they have lost.
  have hcost : state.assets owns = Duty.costs owns (dues.map Prod.snd) + next.assets owns := by
    have hbefore := h.assets_eq owns
    have hafter := hnext.assets_eq owns
    rw [hfounded, hbefore, hledger, List.map_append, Duty.costs_append, add_comm (Duty.costs _ _),
      ← add_assoc] at hafter
    rw [add_right_cancel hafter, add_comm]
  have hdone := (Duty.performAll_transfers hcareful (dues.map Prod.snd)).frame (next.assets owns)
  rw [hcost, show effect = _ from hamounts]
  apply hdone.bind
  intro done
  exact Effect.transfers_pure (zero_add _)

theorem Sound.assets_enroll (h : state.Sound type) {groups : Groups α} {origin : Group α}
    (hself : groups.find? state.groups.next = some origin)
    (hothers : ∀ other, other ≠ state.groups.next →
      groups.find? other = state.groups.find? other) (owns : α → Assets) (view : ν) :
    assets owns { state.withShared (some ⟨state.groups.next, view⟩) groups with
      founded := state.founded ++ [origin] } = state.assets owns + origin.belongings owns := by
  rw [h.next_eq] at hself hothers
  unfold assets
  rw [List.length_append, List.length_singleton, Finset.sum_range_succ]
  congr 1
  · apply Finset.sum_congr rfl
    intro number hmem
    have hne : number ≠ state.founded.length := Nat.ne_of_lt (Finset.mem_range.1 hmem)
    show Assets.ofOption _ (groups.find? number) = Assets.ofOption _ (state.groups.find? number)
    rw [hothers number hne]
  · show Assets.ofOption _ (groups.find? state.founded.length) = _
    rw [hself]
    rfl

section Founding

variable {founding : Founding} {layout : Layout} {build : Spot → Attempt α} {unused : Effect Unit}

theorem act_found_store (state : SharedState α ν) (view : ν) (store : Store) :
    (state.act type (.found founding layout build unused view) store).2 =
      (state.groups.found type founding layout build unused store).2 := by
  unfold SharedState.act
  simp only [bind, ExceptT.run, StateT.bind]
  generalize state.groups.found type founding layout build unused store = run
  obtain ⟨answer, after⟩ := run
  cases answer with
  | error kind => rfl
  | ok made => rfl

theorem Sound.found_transfers (hcareful : type.Careful owns) (h : state.Sound type) {view : ν}
    (hproper : (Act.found founding layout build unused view).Proper type)
    (hfoundable : Groups.Foundable owns given founding layout build unused) :
    (state.act type (.found founding layout build unused view)).Transfers
      (state.assets owns + given) (fun next => next.assets owns) := by
  have hfounded := (Groups.found_transfers hcareful hfoundable state.groups).frame
    (state.assets owns)
  rw [Attempt.transfers_iff, add_comm given] at hfounded
  intro store others hkept
  have hafter := hfounded store others hkept
  rw [act_found_store]
  cases hrun : state.groups.found type founding layout build unused store with
  | mk answer after =>
    rw [hrun] at hafter
    cases answer with
    | error kind =>
      rw [act_found_error hrun]
      simpa [Assets.afterwards] using hafter
    | ok made =>
      obtain ⟨number, groups⟩ := made
      obtain ⟨origin, value, hvalue, -, -, -, rfl, -, hself, hothers⟩ :=
        Groups.found_ok hproper hrun
      have hmade : groups.assetsAt owns state.groups.next = origin.belongings owns := by
        rw [origin.belongings_eq_assets hvalue]
        simp [Groups.assetsAt, Assets.ofOption, hself]
      rw [act_found_ok hrun]
      simp only [hself, Option.toList_some]
      rw [h.assets_enroll hself hothers, ← hmade, add_comm]
      exact hafter

end Founding
end SharedState
end Freehold
