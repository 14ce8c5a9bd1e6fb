import Freehold.Shared.Handle

/-!
# What handles leave to be done

When a handle goes, its group may have to destroy the value and to free memory.  These
duties are all that a group ever does to the store after it was founded.  Which of them
fall due depends on the counts alone, and a group stands in one of four ways: it is
unknown yet, it owns its value, it has lost the value to which weak handles still
refer, or it is gone.  Every operation on a handle moves the group from one standing to
the next.
-/

namespace Freehold

inductive Duty (α : Type) where
  /-- The value is destroyed by a destructor that sees these counts. -/
  | destroy (counts : Counts) (value : α)
  | free (address : Nat) (layout : Layout)

namespace Duty

variable {α : Type}

def perform (type : SharedType α) : Duty α → Effect Unit
  | destroy counts value => type.destroy counts value
  | free address layout => Allocator.deallocate address layout

def performAll (type : SharedType α) : List (Duty α) → Effect Unit
  | [] => pure ()
  | duty :: rest => do
    duty.perform type
    performAll type rest

theorem performAll_append (type : SharedType α) (first second : List (Duty α)) :
    performAll type (first ++ second) =
      (do performAll type first; performAll type second) := by
  induction first with
  | nil => simp [performAll]
  | cons duty rest ih => simp [performAll, ih]

end Duty

/-- The effect does the duties in their order and nothing else. -/
def Effect.Amounts {α β : Type} (type : SharedType α) (effect : Effect β)
    (duties : List (Duty α)) (result : β) : Prop :=
  effect = do
    Duty.performAll type duties
    pure result

namespace Effect.Amounts

variable {α β γ : Type} {type : SharedType α}

theorem pure (result : β) : Amounts type (Pure.pure result) [] result := by
  simp [Amounts, Duty.performAll]

theorem duty (type : SharedType α) (duty : Duty α) :
    Amounts type (duty.perform type) [duty] () := by
  simp [Amounts, Duty.performAll]

theorem bind {effect : Effect β} {duties later : List (Duty α)} {value : β}
    {next : β → Effect γ} {result : γ} (h : Amounts type effect duties value)
    (hnext : Amounts type (next value) later result) :
    Amounts type (effect >>= next) (duties ++ later) result := by
  unfold Amounts at *
  rw [h, Duty.performAll_append]
  simp [hnext]

theorem eq_result {effect : Effect β} {duties : List (Duty α)} {result : β}
    (h : Amounts type effect duties result) (store : Store) : (effect store).1 = result := by
  unfold Amounts at h
  rw [h]
  rfl

theorem map {effect : Effect β} {duties : List (Duty α)} {value : β} (make : β → γ)
    (h : Amounts type effect duties value) :
    Amounts type (do let value ← effect; Pure.pure (make value)) duties (make value) := by
  unfold Amounts at *
  rw [h]
  simp

end Effect.Amounts

namespace Group

variable {α : Type}

def ownDuties (group : Group α) : List (Duty α) :=
  match group.own with
  | none => []
  | some layout => [.free group.place layout]

def blockDuty (group : Group α) : Duty α := .free group.block group.blockLayout

/-- The weak handle that a live value holds of its own group. -/
def inner (type : SharedType α) (group : Group α) : Nat :=
  match group.value with
  | none => 0
  | some value => if type.linked value then 1 else 0

/-- What falls due when a weak handle goes. -/
def weakDues (group : Group α) : List (Duty α) :=
  if group.counts.weak = 1 then [group.blockDuty] else []

/-- What falls due when a shared handle goes. -/
def sharedDues (type : SharedType α) (group : Group α) : List (Duty α) :=
  if group.counts.shared = 1 then
    group.value.toList.map (.destroy group.counts.releaseShared) ++ group.ownDuties ++
      if group.counts.weak = group.inner type + 1 then [group.blockDuty] else []
  else []

end Group

namespace Groups

variable {α : Type}

/-- Nothing but one group differs between two states of the groups. -/
structure Alike (groups groups' : Groups α) (number : Nat) : Prop where
  next_eq : groups'.next = groups.next
  others : ∀ other, other ≠ number → groups'.find? other = groups.find? other

theorem Alike.refl (groups : Groups α) (number : Nat) : Alike groups groups number :=
  ⟨rfl, fun _ _ => rfl⟩

theorem Alike.trans {first second third : Groups α} {number : Nat}
    (h : Alike first second number) (h' : Alike second third number) :
    Alike first third number := by
  constructor
  · rw [h'.next_eq, h.next_eq]
  · intro other hne
    rw [h'.others other hne, h.others other hne]

theorem alike_set (groups : Groups α) (number : Nat) (group : Group α) :
    Alike groups (groups.set number group) number :=
  ⟨rfl, fun _ hne => Roster.find?_set_of_ne group hne⟩

theorem alike_dismiss (groups : Groups α) (number : Nat) :
    Alike groups (groups.dismiss number) number :=
  ⟨rfl, fun _ hne => Roster.find?_dismiss_of_ne hne⟩

theorem alike_recount (groups : Groups α) (number : Nat) (change : Counts → Counts) :
    Alike groups (groups.recount number change) number := by
  unfold recount
  split
  · exact .refl groups number
  · exact alike_set groups number _

theorem find?_recount (groups : Groups α) (number : Nat) (change : Counts → Counts) :
    (groups.recount number change).find? number =
      (groups.find? number).map fun group => { group with counts := change group.counts } := by
  unfold recount
  split
  · rename_i hnone
    rw [hnone]
    rfl
  · rename_i group hsome
    rw [Roster.find?_set_self _ (by simp [hsome]), hsome]
    rfl

end Groups

/-! ## How a group stands -/

/-- How a group stands that was founded as the first group says: so many shared and weak
handles refer to it, it looks as the second group says, and it has done these duties. -/
inductive Standing {α : Type} (type : SharedType α) :
    Option (Group α) → Nat → Nat → Option (Group α) → List (Duty α) → Prop where
  | unknown : Standing type none 0 0 none []
  | owned {origin : Group α} {value : α} (hvalue : origin.value = some value)
      (shared weak : Nat) :
      Standing type (some origin) (shared + 1) weak
        (some { origin with counts := ⟨shared + 1, origin.inner type + 1 + weak⟩ }) []
  | expired {origin : Group α} {value : α} (hvalue : origin.value = some value)
      (weak : Nat) {counts : Counts} (hcounts : counts.shared = 0) :
      Standing type (some origin) 0 (weak + 1)
        (some { origin with counts := ⟨0, weak + 1⟩, value := none })
        (.destroy counts value :: origin.ownDuties)
  | gone {origin : Group α} {value : α} (hvalue : origin.value = some value)
      {counts : Counts} (hcounts : counts.shared = 0) :
      Standing type (some origin) 0 0 none
        (.destroy counts value :: origin.ownDuties ++ [origin.blockDuty])

namespace Standing

variable {α : Type} {type : SharedType α} {origin now : Option (Group α)}
  {shared weak : Nat} {done : List (Duty α)}

theorem acquireShared (h : Standing type origin shared weak now done) (hshared : 0 < shared) :
    Standing type origin (shared + 1) weak
      (now.map fun group => { group with counts := group.counts.acquireShared }) done := by
  cases h with
  | owned hvalue shared weak => exact .owned hvalue (shared + 1) weak
  | unknown | expired | gone => exact absurd hshared (Nat.lt_irrefl 0)

theorem acquireWeak (h : Standing type origin shared weak now done)
    (hheld : 0 < shared ∨ 0 < weak) :
    Standing type origin shared (weak + 1)
      (now.map fun group => { group with counts := group.counts.acquireWeak }) done := by
  cases h with
  | owned hvalue shared weak => exact .owned hvalue shared (weak + 1)
  | expired hvalue weak hcounts => exact .expired hvalue (weak + 1) hcounts
  | unknown | gone => omega

theorem founded {origin : Group α} {value : α} (hvalue : origin.value = some value)
    (hcounts : origin.counts = ⟨1, origin.inner type + 1⟩) :
    Standing type (some origin) 1 0 (some origin) [] := by
  have howned : Standing type (some origin) 1 0
      (some { origin with counts := ⟨1, origin.inner type + 1⟩ }) [] := .owned hvalue 0 0
  rw [← hcounts] at howned
  exact howned

theorem of_unknown (h : Standing type none shared weak now done) :
    shared = 0 ∧ weak = 0 ∧ done = [] := by
  cases h with
  | unknown => exact ⟨rfl, rfl, rfl⟩

/-- Giving up a weak handle does what falls due, and no more. -/
theorem releaseWeak {groups : Groups α} {number : Nat}
    (h : Standing type origin shared (weak + 1) (groups.find? number) done) :
    ∃ group groups', groups.find? number = some group ∧
      Effect.Amounts type (groups.releaseWeak number) group.weakDues groups' ∧
      groups.Alike groups' number ∧
      Standing type origin shared weak (groups'.find? number) (done ++ group.weakDues) := by
  generalize hnow : groups.find? number = now at h
  cases h with
  | owned hvalue shared weak =>
    rename_i origin value
    have hmany : origin.inner type + 1 + (weak + 1) ≠ 1 := by omega
    refine ⟨_, groups.recount number Counts.releaseWeak, rfl, ?_, groups.alike_recount .., ?_⟩
    · unfold Groups.releaseWeak Group.weakDues
      simp only [hnow, hmany, if_true, if_false, ne_eq, not_false_eq_true]
      exact .pure _
    · rw [Groups.find?_recount, hnow]
      simp only [Group.weakDues, hmany, if_false, List.append_nil]
      exact .owned hvalue shared weak
  | expired hvalue weak hcounts =>
    rename_i origin value counts
    by_cases hlast : weak = 0
    · subst hlast
      refine ⟨_, groups.dismiss number, rfl, ?_, groups.alike_dismiss number, ?_⟩
      · unfold Groups.releaseWeak Group.weakDues
        simp only [hnow, Nat.zero_add, ne_eq, not_true_eq_false, if_false, if_true]
        exact (Effect.Amounts.duty type (Duty.free _ _)).bind (.pure _)
      · rw [Roster.find?_dismiss_self]
        exact .gone hvalue hcounts
    · obtain ⟨weak, rfl⟩ := Nat.exists_eq_succ_of_ne_zero hlast
      have hmany : weak.succ + 1 ≠ 1 := by omega
      refine ⟨_, groups.recount number Counts.releaseWeak, rfl, ?_,
        groups.alike_recount .., ?_⟩
      · unfold Groups.releaseWeak Group.weakDues
        simp only [hnow, hmany, if_true, if_false, ne_eq, not_false_eq_true]
        exact .pure _
      · rw [Groups.find?_recount, hnow]
        simp only [Group.weakDues, hmany, if_false, List.append_nil]
        exact .expired hvalue weak hcounts

/-- The weak handle in a value goes with the value, and the reference of the shared
handles is still there. -/
theorem destroyValue_amounts (type : SharedType α) {groups : Groups α} {number : Nat}
    {group : Group α} (hfind : groups.find? number = some group) {value : α}
    (hvalue : group.value = some value) {weak : Nat}
    (hweak : group.counts.weak = group.inner type + 1 + weak) :
    ∃ groups',
      Effect.Amounts type (Groups.destroyValue type groups number group)
        (.destroy group.counts.releaseShared value :: group.ownDuties) groups' ∧
      groups.Alike groups' number ∧
      groups'.find? number =
        some { group with counts := ⟨group.counts.shared - 1, weak + 1⟩, value := none } := by
  let bereft : Group α := { group with counts := group.counts.releaseShared, value := none }
  have hbereft : (groups.set number bereft).find? number = some bereft :=
    Roster.find?_set_self bereft (by simp [hfind])
  have hown : ∀ groups' : Groups α, Effect.Amounts type
      (do
        match group.own with
        | none => pure ()
        | some layout => Allocator.deallocate group.place layout
        pure groups') group.ownDuties groups' := by
    intro groups'
    unfold Group.ownDuties
    cases group.own with
    | none => exact .pure groups'
    | some layout => exact (Effect.Amounts.duty type (.free _ _)).bind (.pure _)
  by_cases hlinked : type.linked value
  · have hinner : group.inner type = 1 := by simp [Group.inner, hvalue, hlinked]
    have hmany : group.counts.releaseShared.weak ≠ 1 := by
      show group.counts.weak ≠ 1
      omega
    refine ⟨Groups.recount (groups.set number bereft) number Counts.releaseWeak, ?_,
      (groups.alike_set number bereft).trans (Groups.alike_recount _ _ _), ?_⟩
    · unfold Groups.destroyValue
      simp only [hvalue, hlinked, if_true]
      refine (Effect.Amounts.duty type (.destroy _ value)).bind ?_
      have hrelease : Groups.releaseWeak (groups.set number bereft) number =
          pure (Groups.recount (groups.set number bereft) number Counts.releaseWeak) := by
        unfold Groups.releaseWeak
        rw [hbereft]
        simp only [bereft, hmany, ne_eq, not_false_eq_true, if_true]
      simp only [bereft] at hrelease
      rw [hrelease, pure_bind]
      exact hown _
    · rw [Groups.find?_recount, hbereft]
      have hcounts : group.counts.releaseShared.releaseWeak =
          ⟨group.counts.shared - 1, weak + 1⟩ := by
        unfold Counts.releaseShared Counts.releaseWeak
        simp only [hweak, hinner, Counts.mk.injEq, true_and]
        omega
      simp only [Option.map_some, bereft, hcounts]
  · have hinner : group.inner type = 0 := by simp [Group.inner, hvalue, hlinked]
    refine ⟨groups.set number bereft, ?_, groups.alike_set number bereft, ?_⟩
    · unfold Groups.destroyValue
      simp only [hvalue, hlinked]
      exact (Effect.Amounts.duty type (.destroy _ value)).bind (hown _)
    · have hcounts : group.counts.releaseShared = ⟨group.counts.shared - 1, weak + 1⟩ := by
        unfold Counts.releaseShared
        simp only [hweak, hinner, Counts.mk.injEq, true_and]
        omega
      rw [hbereft]
      simp only [bereft, hcounts]

/-- Giving up a shared handle does what falls due, and no more. -/
theorem releaseShared {groups : Groups α} {number : Nat}
    (h : Standing type origin (shared + 1) weak (groups.find? number) done) :
    ∃ group groups', groups.find? number = some group ∧
      Effect.Amounts type (groups.releaseShared type number) (group.sharedDues type)
        groups' ∧
      groups.Alike groups' number ∧
      Standing type origin shared weak (groups'.find? number)
        (done ++ group.sharedDues type) := by
  generalize hnow : groups.find? number = now at h
  cases h with
  | owned hvalue shared weak =>
    rename_i origin value
    by_cases hlast : shared = 0
    · subst hlast
      obtain ⟨bare, hdestroyed, halike, hbare⟩ :=
        destroyValue_amounts type hnow hvalue rfl
      have hexpired : Standing type (some origin) 0 (weak + 1) (bare.find? number)
          (.destroy ⟨0, origin.inner type + 1 + weak⟩ value :: origin.ownDuties) := by
        rw [hbare]
        exact .expired hvalue weak rfl
      -- the reference of the shared handles counts as a weak handle until it goes
      obtain ⟨group, groups', hgroup, hreleased, halike', hstanding⟩ := hexpired.releaseWeak
      rw [hbare, Option.some.injEq] at hgroup
      subst hgroup
      have hdues : Group.sharedDues type
            { origin with counts := ⟨0 + 1, origin.inner type + 1 + weak⟩ } =
          (.destroy ⟨0, origin.inner type + 1 + weak⟩ value :: origin.ownDuties) ++
            Group.weakDues { origin with counts := ⟨0, weak + 1⟩, value := none } := by
        have hiff : origin.inner type + 1 + weak = origin.inner type + 1 ↔ weak + 1 = 1 := by
          omega
        unfold Group.sharedDues Group.weakDues
        rw [if_pos rfl]
        show List.map _ origin.value.toList ++ origin.ownDuties ++
          (if origin.inner type + 1 + weak = origin.inner type + 1 then [origin.blockDuty]
            else []) = _
        simp only [hvalue, hiff]
        rfl
      refine ⟨_, groups', rfl, ?_, halike.trans halike', ?_⟩
      · rw [hdues]
        unfold Groups.releaseShared
        simp only [hnow, Nat.zero_add, ne_eq, not_true_eq_false, if_false]
        exact hdestroyed.bind hreleased
      · rw [hdues]
        exact hstanding
    · obtain ⟨shared, rfl⟩ := Nat.exists_eq_succ_of_ne_zero hlast
      have hmany : shared.succ + 1 ≠ 1 := by omega
      refine ⟨_, groups.recount number Counts.releaseShared, rfl, ?_,
        groups.alike_recount .., ?_⟩
      · unfold Groups.releaseShared Group.sharedDues
        simp only [hnow, hmany, if_true, if_false, ne_eq, not_false_eq_true]
        exact .pure _
      · rw [Groups.find?_recount, hnow]
        simp only [Group.sharedDues, hmany, if_false, List.append_nil]
        exact .owned hvalue shared weak

/-! ## What is read of a group -/

theorem shared_eq (h : Standing type origin shared weak now done) :
    (now.map fun group => group.counts.shared).getD 0 = shared := by
  cases h with
  | unknown | owned | expired | gone => rfl

theorem weak_eq (h : Standing type origin shared weak now done) :
    (now.map fun group => group.counts.weakCount).getD 0 =
      weak + (now.map (Group.inner type)).getD 0 := by
  cases h with
  | unknown | gone => rfl
  | owned hvalue shared weak =>
    rename_i origin value
    show origin.inner type + 1 + weak - 1 = weak + origin.inner type
    omega
  | expired hvalue weak hcounts => rfl

theorem upgrade_of_pos (h : Standing type origin shared weak now done) (hpos : 0 < shared) :
    (now.bind fun group => group.counts.upgrade?).isSome := by
  cases h with
  | owned hvalue shared weak => simp [Counts.upgrade?]
  | unknown | expired | gone => exact absurd hpos (Nat.lt_irrefl 0)

theorem upgrade_of_zero (h : Standing type origin 0 weak now done) :
    (now.bind fun group => group.counts.upgrade?) = none := by
  cases h with
  | unknown | gone => rfl
  | expired hvalue weak hcounts => simp [Counts.upgrade?]

theorem settled {origin : Group α}
    (h : Standing type (some origin) shared weak now done) :
    ∃ value counts, origin.value = some value ∧ counts.shared = 0 ∧
      done = (if shared = 0 then .destroy counts value :: origin.ownDuties else []) ++
        (if shared = 0 ∧ weak = 0 then [origin.blockDuty] else []) := by
  cases h with
  | owned hvalue shared weak => exact ⟨_, ⟨0, 0⟩, hvalue, rfl, by simp⟩
  | expired hvalue weak hcounts => exact ⟨_, _, hvalue, hcounts, by simp⟩
  | gone hvalue hcounts => exact ⟨_, _, hvalue, hcounts, by simp⟩

end Standing
end Freehold
