import Freehold.Proofs.Shared.SelfReference

/-!
# Weak counts as others read them

A weak count is exact whenever a group is at rest.  A group is not at rest while it destroys
its value: it has given up the shared count, and the reference of the shared handles is still
among the weak ones, where nothing takes it off.  So the destructor, and whatever runs until
the last shared handle is gone, reads one weak handle more than there are.
-/

namespace Freehold

@[simp] theorem Counts.weakCount_expired (weak : Nat) : Counts.weakCount ⟨0, weak⟩ = weak := rfl

namespace Standing

variable {α : Type} {type : SharedType α} {origin now : Option (Group α)}
  {shared weak : Nat} {done : List (Duty α)}

theorem owned_of_pos (h : Standing type origin shared weak now done) (hpos : 0 < shared) :
    ∃ group value, now = some group ∧ group.value = some value ∧
      group.counts = ⟨shared, group.inner type + 1 + weak⟩ := by
  cases h with
  | owned hvalue shared weak => exact ⟨_, _, rfl, hvalue, rfl⟩
  | unknown | expired | gone => exact absurd hpos (Nat.lt_irrefl 0)

end Standing

/-! ## Destructions among the dues of a group -/

namespace Group

variable {α : Type} {type : SharedType α} {group : Group α} {counts : Counts} {value : α}

theorem destroy_notMem_ownDuties : Duty.destroy counts value ∉ group.ownDuties := by
  unfold ownDuties
  cases group.own <;> simp

theorem destroy_notMem_weakDues : Duty.destroy counts value ∉ group.weakDues := by
  unfold weakDues blockDuty
  split <;> simp

theorem destroy_mem_sharedDues_iff :
    Duty.destroy counts value ∈ group.sharedDues type ↔
      group.counts.shared = 1 ∧ counts = group.counts.releaseShared ∧
        group.value = some value := by
  have hblock : Duty.destroy counts value ∉
      (if group.counts.weak = group.inner type + 1 then [group.blockDuty] else []) := by
    unfold blockDuty
    split <;> simp
  unfold sharedDues
  by_cases hlast : group.counts.shared = 1
  · rw [if_pos hlast, List.mem_append, List.mem_append]
    simp [destroy_notMem_ownDuties, hblock, hlast, and_comm, eq_comm]
  · simp [hlast]

end Group

namespace SharedState

variable {α ν : Type} {type : SharedType α} {state : SharedState α ν}

/-! ## What can be read -/

/-- The weak handles of a group, the one in its value included. -/
def weakHandles (type : SharedType α) (state : SharedState α ν) (number : Nat) : Nat :=
  state.weakOf number + state.innerOf type number

/-- The act gives up the only shared handle of the group. -/
def Ends (state : SharedState α ν) (act : Act α ν) (number : Nat) : Prop :=
  ∃ index view deed, act = .shared index deed ∧ (deed = .reset ∨ deed = .drop) ∧
    state.shared[index]? = some (some ⟨number, view⟩) ∧ state.sharedOf number = 1

/-- The act does these duties.  It runs a destructor for the group that it ends and for no
other, and the destructor reads one weak handle more than the group has. -/
def Destroys (type : SharedType α) (state : SharedState α ν) (act : Act α ν)
    (dues : List (Nat × Duty α)) : Prop :=
  ∃ next, Effect.Amounts type (state.act type act) (dues.map Prod.snd) next ∧
    next.ledger = state.ledger ++ dues ∧
    (∀ number, (∃ counts value, (number, .destroy counts value) ∈ dues) ↔
      state.Ends act number) ∧
    ∀ number counts value, (number, .destroy counts value) ∈ dues →
      counts.weakCount = state.weakHandles type number + 1

structure Observed (type : SharedType α) (state : SharedState α ν) : Prop where
  at_rest : ∀ reference, some reference ∈ state.shared ∨ some reference ∈ state.weak →
    state.groups.weakCountOf (some reference) = state.weakHandles type reference.group
  destructor : ∀ act : Act α ν, act.isFounding = false → ∃ dues, state.Destroys type act dues
  /-- The weak handle of the value has gone with it, and there is still one too many while
  the block of the value is freed. -/
  bereft : ∀ number, state.sharedOf number = 1 → ∃ group value groups,
    state.groups.find? number = some group ∧
      Effect.Amounts type (Groups.destroyValue type state.groups number group)
        (.destroy group.counts.releaseShared value :: group.ownDuties) groups ∧
      ∀ view : ν, groups.weakCountOf (some ⟨number, view⟩) = state.weakOf number + 1

/-! ## The group that destroys its value -/

theorem Sound.owned_of_pos (h : state.Sound type) {number : Nat}
    (hpos : 0 < state.sharedOf number) :
    ∃ group value, state.groups.find? number = some group ∧ group.value = some value ∧
      state.innerOf type number = group.inner type ∧
      group.counts = ⟨state.sharedOf number, group.inner type + 1 + state.weakOf number⟩ := by
  obtain ⟨group, value, hfind, hvalue, hcounts⟩ := (h.standing number).owned_of_pos hpos
  have hinner : state.innerOf type number = group.inner type := by
    unfold innerOf
    rw [hfind, Option.map_some, Option.getD_some]
  exact ⟨group, value, hfind, hvalue, hinner, hcounts⟩

theorem Sound.bereft (h : state.Sound type) {number : Nat} (hlast : state.sharedOf number = 1) :
    ∃ group value groups, state.groups.find? number = some group ∧
      Effect.Amounts type (Groups.destroyValue type state.groups number group)
        (.destroy group.counts.releaseShared value :: group.ownDuties) groups ∧
      ∀ view : ν, groups.weakCountOf (some ⟨number, view⟩) = state.weakOf number + 1 := by
  obtain ⟨group, value, hfind, hvalue, -, hcounts⟩ := h.owned_of_pos (hlast ▸ Nat.one_pos)
  obtain ⟨groups, hamounts, -, hbereft⟩ :=
    Standing.destroyValue_amounts type hfind hvalue (congrArg Counts.weak hcounts)
  refine ⟨group, value, groups, hfind, hamounts, ?_⟩
  intro view
  have hshared : group.counts.shared - 1 = 0 := by
    rw [hcounts]
    exact congrArg (· - 1) hlast
  show ((groups.find? number).map fun group => group.counts.weakCount).getD 0 = _
  rw [hbereft, hshared, Option.map_some, Option.getD_some, Counts.weakCount_expired]

/-- Of the dues of a shared handle only those of the last one destroy a value, and its
destructor sees the reference of the shared handles among the weak ones. -/
theorem Sound.destroy_mem_duesOf_iff (h : state.Sound type) {reference : Reference ν}
    (hpos : 0 < state.sharedOf reference.group) :
    ∃ owned, ∀ number counts value, (number, Duty.destroy counts value) ∈
        state.duesOf (Group.sharedDues type) (some reference) ↔
      reference.group = number ∧ state.sharedOf number = 1 ∧
        counts = ⟨0, state.weakHandles type number + 1⟩ ∧ owned = value := by
  obtain ⟨group, owned, hfind, hvalue, hinner, hcounts⟩ := h.owned_of_pos hpos
  have hreleased : group.counts.releaseShared =
      ⟨state.sharedOf reference.group - 1, state.weakHandles type reference.group + 1⟩ := by
    simp only [Counts.releaseShared, hcounts, weakHandles, hinner, Counts.mk.injEq, true_and]
    omega
  refine ⟨owned, fun number counts value => ?_⟩
  rw [duesOf_of_find hfind reference.view, List.mem_map]
  constructor
  · rintro ⟨duty, hmem, heq⟩
    obtain ⟨rfl, rfl⟩ := Prod.mk.inj heq
    obtain ⟨hlast, rfl, hsome⟩ := Group.destroy_mem_sharedDues_iff.1 hmem
    have hone : state.sharedOf reference.group = 1 := by rwa [hcounts] at hlast
    exact ⟨rfl, hone, by rw [hreleased, hone], Option.some.inj (hvalue.symm.trans hsome)⟩
  · rintro ⟨rfl, hone, rfl, rfl⟩
    refine ⟨_, Group.destroy_mem_sharedDues_iff.2 ⟨?_, ?_, hvalue⟩, rfl⟩
    · rw [hcounts, hone]
    · rw [hreleased, hone]

/-! ## Every act -/

theorem actShared_idle {deed : SharedDeed α ν} (hreset : deed ≠ .reset) (hdrop : deed ≠ .drop)
    (index : Nat) (hold : Hold ν) :
    ∃ next, state.actShared type index hold deed = pure next ∧ next.ledger = state.ledger := by
  cases deed with
  | reset => exact absurd rfl hreset
  | drop => exact absurd rfl hdrop
  | clone | downgrade | filterMap => exact ⟨_, rfl, rfl⟩
  | sharedFromThis view =>
    unfold actShared
    cases hold with
    | none => exact ⟨state, rfl, rfl⟩
    | some reference =>
      cases state.groups.get? (some reference) with
      | none => exact ⟨state, rfl, rfl⟩
      | some found => exact ⟨_, rfl, (state.keepShared_books _).2⟩
  | weakFromThis view =>
    unfold actShared
    cases hold with
    | none => exact ⟨state, rfl, rfl⟩
    | some reference =>
      cases state.groups.get? (some reference) with
      | none => exact ⟨state, rfl, rfl⟩
      | some found => exact ⟨_, rfl, rfl⟩

/-- An act that destroys nothing ends no group. -/
theorem Destroys.of_spared {act : Act α ν} {dues : List (Nat × Duty α)} {next : SharedState α ν}
    (hamounts : Effect.Amounts type (state.act type act) (dues.map Prod.snd) next)
    (hledger : next.ledger = state.ledger ++ dues)
    (hspared : ∀ number counts value, (number, Duty.destroy counts value) ∉ dues)
    (hends : ∀ number, ¬ state.Ends act number) : state.Destroys type act dues := by
  refine ⟨next, hamounts, hledger, ?_, ?_⟩
  · intro number
    refine iff_of_false ?_ (hends number)
    rintro ⟨counts, value, hmem⟩
    exact hspared number counts value hmem
  · intro number counts value hmem
    exact absurd hmem (hspared number counts value)

theorem Destroys.of_pure {act : Act α ν} {next : SharedState α ν}
    (hact : state.act type act = pure next) (hledger : next.ledger = state.ledger)
    (hends : ∀ number, ¬ state.Ends act number) : state.Destroys type act [] := by
  have hamounts : Effect.Amounts type (state.act type act) [] next := by
    rw [hact]
    exact .pure next
  exact .of_spared hamounts (by rw [hledger, List.append_nil]) (by simp) hends

theorem destroy_notMem_weakDues {number : Nat} {counts : Counts} {value : α} (hold : Hold ν) :
    (number, Duty.destroy counts value) ∉ state.duesOf Group.weakDues hold := by
  intro hmem
  unfold duesOf at hmem
  split at hmem
  · cases hmem
  · split at hmem
    · cases hmem
    · obtain ⟨duty, hduty, heq⟩ := List.mem_map.1 hmem
      obtain ⟨-, rfl⟩ := Prod.mk.inj heq
      exact Group.destroy_notMem_weakDues hduty

theorem ends_shared_iff {index number : Nat} {hold : Hold ν} {deed : SharedDeed α ν}
    (hindex : state.shared[index]? = some hold) (hdeed : deed = .reset ∨ deed = .drop) :
    state.Ends (.shared index deed) number ↔
      ∃ view, hold = some ⟨number, view⟩ ∧ state.sharedOf number = 1 := by
  constructor
  · rintro ⟨index', view, deed', hact, -, hindex', hlast⟩
    obtain ⟨rfl, rfl⟩ := Act.shared.inj hact
    exact ⟨view, Option.some.inj (hindex.symm.trans hindex'), hlast⟩
  · rintro ⟨view, rfl, hlast⟩
    exact ⟨index, view, deed, rfl, hdeed, hindex, hlast⟩

theorem Sound.destroys_lost (h : state.Sound type) {index : Nat} {hold : Hold ν}
    {deed : SharedDeed α ν} (hindex : state.shared[index]? = some hold)
    (hdeed : deed = .reset ∨ deed = .drop) :
    state.Destroys type (.shared index deed) (state.duesOf (Group.sharedDues type) hold) := by
  obtain ⟨next, hamounts, -, hledger, -⟩ := h.enters_shared hindex hdeed
  cases hold with
  | none =>
    refine .of_spared hamounts hledger (by simp [duesOf]) ?_
    intro number hends
    obtain ⟨view, hnone, -⟩ := (ends_shared_iff hindex hdeed).1 hends
    cases hnone
  | some reference =>
    obtain ⟨owned, hdues⟩ :=
      h.destroy_mem_duesOf_iff (sharedOf_pos_of_mem (List.mem_of_getElem? hindex))
    refine ⟨next, hamounts, hledger, ?_, ?_⟩
    · intro number
      rw [ends_shared_iff hindex hdeed]
      constructor
      · rintro ⟨counts, value, hmem⟩
        obtain ⟨rfl, hlast, -⟩ := (hdues number counts value).1 hmem
        exact ⟨reference.view, rfl, hlast⟩
      · rintro ⟨view, hsome, hlast⟩
        obtain rfl := Option.some.inj hsome
        exact ⟨_, owned, (hdues number _ owned).2 ⟨rfl, hlast, rfl, rfl⟩⟩
    · intro number counts value hmem
      obtain ⟨-, -, rfl, -⟩ := (hdues number counts value).1 hmem
      exact Counts.weakCount_expired _

theorem Sound.destroys_shared (h : state.Sound type) (index : Nat) (deed : SharedDeed α ν) :
    ∃ dues, state.Destroys type (.shared index deed) dues := by
  cases hindex : state.shared[index]? with
  | none =>
    have hact : state.act type (.shared index deed) = pure state := by
      simp only [SharedState.act, hindex]
    refine ⟨[], .of_pure hact rfl ?_⟩
    rintro number ⟨index', view, deed', heq, -, hindex', -⟩
    obtain ⟨rfl, -⟩ := Act.shared.inj heq
    rw [hindex] at hindex'
    cases hindex'
  | some hold =>
    by_cases hdeed : deed = .reset ∨ deed = .drop
    · exact ⟨_, h.destroys_lost hindex hdeed⟩
    · obtain ⟨hreset, hdrop⟩ := not_or.1 hdeed
      obtain ⟨next, hact, hledger⟩ : ∃ next,
          state.actShared type index hold deed = pure next ∧ next.ledger = state.ledger :=
        actShared_idle hreset hdrop index hold
      refine ⟨[], .of_pure (by simpa only [SharedState.act, hindex] using hact) hledger ?_⟩
      rintro number ⟨index', view, deed', heq, hdeed', -, -⟩
      obtain ⟨-, rfl⟩ := Act.shared.inj heq
      exact hdeed hdeed'

theorem not_ends_weak {index number : Nat} {deed : WeakDeed} :
    ¬ state.Ends (.weak index deed) number := by
  rintro ⟨index', view, deed', hact, -⟩
  cases hact

theorem Sound.destroys_weak (h : state.Sound type) (index : Nat) (deed : WeakDeed) :
    ∃ dues, state.Destroys type (.weak index deed) dues := by
  cases hindex : state.weak[index]? with
  | none =>
    have hact : state.act type (.weak index deed) = pure state := by
      simp only [SharedState.act, hindex]
    exact ⟨[], .of_pure hact rfl fun _ => not_ends_weak⟩
  | some hold =>
    have hact : state.act type (.weak index deed) = state.actWeak index hold deed := by
      simp only [SharedState.act, hindex]
    have hlost (hdeed : deed = .reset ∨ deed = .drop) :
        ∃ dues, state.Destroys type (.weak index deed) dues := by
      obtain ⟨next, hamounts, -, hledger, -⟩ := h.enters_weak hindex hdeed
      exact ⟨_, .of_spared hamounts hledger (fun _ _ _ => destroy_notMem_weakDues hold)
        fun _ => not_ends_weak⟩
    cases deed with
    | clone => exact ⟨[], .of_pure hact rfl fun _ => not_ends_weak⟩
    | lock => exact ⟨[], .of_pure hact (state.keepShared_books _).2 fun _ => not_ends_weak⟩
    | reset => exact hlost (.inl rfl)
    | drop => exact hlost (.inr rfl)

theorem Sound.destroys (h : state.Sound type) {act : Act α ν} (hquiet : act.isFounding = false) :
    ∃ dues, state.Destroys type act dues := by
  cases act with
  | found => cases hquiet
  | emptyShared =>
    exact ⟨[], .of_pure rfl rfl fun number => by rintro ⟨index, view, deed, hact, -⟩; cases hact⟩
  | emptyWeak =>
    exact ⟨[], .of_pure rfl rfl fun number => by rintro ⟨index, view, deed, hact, -⟩; cases hact⟩
  | shared index deed => exact h.destroys_shared index deed
  | weak index deed => exact h.destroys_weak index deed

/-- Whatever was done with any number of groups, the weak count that is read of a group at
rest is that of its weak handles, and the weak count that a destructor reads is one more. -/
theorem weakCount_observed (type : SharedType α) (acts : List (Act α ν))
    (hproper : ∀ act ∈ acts, act.Proper type) (store : Store) :
    (run type {} acts store).1.Observed type := by
  have hinitial : ({} : SharedState α ν).Sound type := sound_initial type
  have hsound := hinitial.afterRun hproper store
  constructor
  case at_rest => exact hsound.accounted.weakCount_eq
  case destructor =>
    intro act hquiet
    exact hsound.destroys hquiet
  case bereft =>
    intro number hlast
    exact hsound.bereft hlast

/-- A value whose destructor announces the weak count that it reads. -/
def reporter : SharedType Bool where
  destroy counts _ := Effect.announce (.remark (toString counts.weakCount))
  linked linked := linked
  link _ := true

/-- A reporter to which one shared handle and one weak handle refer. -/
def watched : List (Act Bool Unit) :=
  [.found {} ⟨8, 8⟩ (fun _ => pure false) (pure ()) (), .shared 0 .downgrade]

theorem weakCount_observed_watched :
    (∀ act ∈ watched, act.Proper reporter) ∧
      (run reporter {} watched nodeStore).1.Observed reporter ∧
      (run reporter {} watched nodeStore).1.Ends (.shared 0 .drop) 0 := by
  have hproper : ∀ act ∈ watched, act.Proper reporter := by
    intro act hmem
    simp only [watched, List.mem_cons, List.not_mem_nil, or_false] at hmem
    rcases hmem with rfl | rfl
    · intro spot store value store' hbuild
      cases hbuild
      exact ⟨rfl, fun _ => rfl⟩
    · exact trivial
  exact ⟨hproper, weakCount_observed reporter watched hproper nodeStore,
    0, (), .drop, rfl, .inr rfl, rfl, rfl⟩

/-- The weak counts that reporters have announced. -/
def readings (store : Store) : List String :=
  store.trace.filterMap fun entry =>
    match entry with
    | .event (.remark text) => some text
    | _ => none

/-- With one weak handle in the state the destructor reads two. -/
theorem weakCount_overread :
    (run reporter {} watched nodeStore).1.weakHandles reporter 0 = 1 ∧
      readings (run reporter {} watched nodeStore).2 = [] ∧
      readings (run reporter {} (watched ++ [.shared 0 .drop]) nodeStore).2 = ["2"] := by
  decide +kernel

end SharedState
end Freehold
