import Mathlib.Data.List.Perm.Basic
import Freehold.Proofs.Attempt
import Freehold.Proofs.Shared.SharedState
import Freehold.Session.Pointee

/-!
# The account of shared ownership

In every state that a run can reach, each group stands as its handles say.  An act
changes the standing of at most one group, so it is enough to know what each kind of
change does to one group.  Counts, locks and everything that was destroyed or freed are
then read off the standings.
-/

namespace Freehold

/-! ## Founding -/

namespace Groups

variable {α : Type} {type : SharedType α}

theorem combined_ok {groups groups' : Groups α} {layout : Layout} {build : Spot → Attempt α}
    {unused : Effect Unit} {store store' : Store} {number : Nat}
    (h : groups.combined layout build unused store = (.ok (number, groups'), store')) :
    ∃ group spot value before after, build spot before = (.ok value, after) ∧
      group.value = some value ∧ group.own = none ∧ group.counts = .first ∧
      (number, groups') = groups.enroll group := by
  obtain ⟨block, afterBlock, -, h⟩ := Attempt.bind_ok h
  obtain ⟨value, afterBuild, hbuild, h⟩ := Attempt.bind_ok h
  rw [Attempt.pure_apply] at h
  obtain ⟨hnew, -⟩ := Prod.mk.inj h
  exact ⟨_, _, value, afterBlock, afterBuild, Attempt.undoing_ok hbuild, rfl, rfl, rfl,
    (Except.ok.inj hnew).symm⟩

theorem separate_ok {groups groups' : Groups α} {layout : Layout} {build : Spot → Attempt α}
    {unused : Effect Unit} {store store' : Store} {number : Nat}
    (h : groups.separate type layout build unused store =
      (.ok (number, groups'), store')) :
    ∃ group spot value before after, build spot before = (.ok value, after) ∧
      group.value = some value ∧ group.own = some layout ∧ group.counts = .first ∧
      (number, groups') = groups.enroll group := by
  obtain ⟨place, afterPlace, -, h⟩ := Attempt.bind_ok h
  obtain ⟨value, afterBuild, hbuild, h⟩ := Attempt.bind_ok h
  obtain ⟨control, afterControl, -, h⟩ := Attempt.bind_ok h
  rw [Attempt.pure_apply] at h
  obtain ⟨hnew, -⟩ := Prod.mk.inj h
  exact ⟨_, _, value, afterPlace, afterBuild, Attempt.undoing_ok hbuild, rfl, rfl, rfl,
    (Except.ok.inj hnew).symm⟩

theorem link_of_find {groups : Groups α} {number : Nat} {group : Group α}
    (h : groups.find? number = some group) :
    groups.link type number = groups.set number
      { group with
        counts := group.counts.acquireWeak, value := group.value.map type.link } := by
  unfold link
  rw [h]

/-- A new group has the next number, one shared handle, and no weak handle but the one
that its value holds if the factory links it. -/
theorem found_ok {ν : Type} {groups groups' : Groups α} {founding : Founding}
    {layout : Layout} {build : Spot → Attempt α} {unused : Effect Unit} {view : ν}
    (hproper : (Act.found founding layout build unused view).Proper type)
    {store store' : Store} {number : Nat}
    (h : groups.found type founding layout build unused store =
      (.ok (number, groups'), store')) :
    ∃ origin value, origin.value = some value ∧ type.linked value = founding.linked ∧
      origin.own = (if founding.combined then none else some layout) ∧
      origin.counts = ⟨1, origin.inner type + 1⟩ ∧ number = groups.next ∧
      groups'.next = groups.next + 1 ∧ groups'.find? number = some origin ∧
      ∀ other, other ≠ number → groups'.find? other = groups.find? other := by
  obtain ⟨⟨first, bare⟩, afterNew, hnew, h⟩ := Attempt.bind_ok h
  have hgroup : ∃ group spot value before after, build spot before = (.ok value, after) ∧
      group.value = some value ∧
      group.own = (if founding.combined then none else some layout) ∧
      group.counts = .first ∧ (first, bare) = groups.enroll group := by
    by_cases hcombined : founding.combined = true
    · rw [if_pos hcombined] at hnew ⊢
      exact combined_ok hnew
    · rw [if_neg hcombined] at hnew ⊢
      exact separate_ok hnew
  obtain ⟨group, spot, value, before, after, hbuild, hvalue, hown, hcounts, henroll⟩ := hgroup
  obtain ⟨hunlinked, hlink⟩ := hproper spot before value after hbuild
  have hself : bare.find? first = some group := by
    have hfind : (groups.enroll group).2.find? (groups.enroll group).1 = some group :=
      Roster.find?_enroll_self group
    rw [← henroll] at hfind
    exact hfind
  have hothers : ∀ other, other ≠ first → bare.find? other = groups.find? other := by
    intro other hne
    have hfirst : first = groups.next := (Prod.mk.inj henroll).1
    have hfind : (groups.enroll group).2.find? other = groups.find? other :=
      Roster.find?_enroll_of_ne group (hfirst ▸ hne)
    rw [← henroll] at hfind
    exact hfind
  have hnext : bare.next = groups.next + 1 := by
    rw [(Prod.mk.inj henroll).2]
  have hfirst : first = groups.next := (Prod.mk.inj henroll).1
  dsimp only at h
  split at h
  · rename_i hlinked
    rw [Attempt.pure_apply] at h
    obtain ⟨rfl, rfl⟩ := Prod.mk.inj (Except.ok.inj (Prod.mk.inj h).1)
    rw [link_of_find hself]
    refine ⟨{ group with counts := group.counts.acquireWeak, value := group.value.map type.link },
      type.link value, by simp [hvalue], by rw [hlink hlinked, hlinked], hown, ?_, hfirst,
      hnext, ?_, ?_⟩
    · simp [Group.inner, hvalue, hlink hlinked, hcounts, Counts.first, Counts.acquireWeak]
    · exact Roster.find?_set_self _ (by simp [hself])
    · intro other hne
      exact (Roster.find?_set_of_ne _ hne).trans (hothers other hne)
  · rename_i hbare
    rw [Attempt.pure_apply] at h
    obtain ⟨rfl, rfl⟩ := Prod.mk.inj (Except.ok.inj (Prod.mk.inj h).1)
    refine ⟨group, value, hvalue, by rw [hunlinked, Bool.eq_false_iff.2 hbare], hown, ?_,
      hfirst, hnext, hself, hothers⟩
    simp [Group.inner, hvalue, hunlinked, hcounts, Counts.first]

end Groups

/-! ## Handles that are left -/

namespace Hold

variable {ν : Type}

/-- One handle is gone, and all the others are left. -/
def Left (hold : Hold ν) (before after : List (Hold ν)) : Prop :=
  ∀ number, after.countP (refersTo number) + (if refersTo number hold then 1 else 0) =
    before.countP (refersTo number)

theorem countP_cons_some (reference : Reference ν) (holds : List (Hold ν)) (number : Nat) :
    (some reference :: holds).countP (refersTo number) =
      holds.countP (refersTo number) + if reference.group = number then 1 else 0 := by
  simp [List.countP_cons, refersTo]

@[simp] theorem countP_cons_none (holds : List (Hold ν)) (number : Nat) :
    (none :: holds).countP (refersTo number) = holds.countP (refersTo number) := by
  simp [refersTo]

theorem Left.count_none {before after : List (Hold ν)} (h : Left none before after)
    (number : Nat) : after.countP (refersTo number) = before.countP (refersTo number) := by
  simpa [refersTo] using h number

theorem Left.count_some {reference : Reference ν} {before after : List (Hold ν)}
    (h : Left (some reference) before after) (number : Nat) :
    after.countP (refersTo number) + (if reference.group = number then 1 else 0) =
      before.countP (refersTo number) := by
  simpa [refersTo] using h number

theorem Left.count_other {reference : Reference ν} {before after : List (Hold ν)}
    (h : Left (some reference) before after) {number : Nat} (hne : number ≠ reference.group) :
    after.countP (refersTo number) = before.countP (refersTo number) := by
  have hcount := h.count_some number
  rwa [if_neg (Ne.symm hne), Nat.add_zero] at hcount

theorem left_set_none {holds : List (Hold ν)} {index : Nat} {hold : Hold ν}
    (h : holds[index]? = some hold) : Left hold holds (holds.set index none) := by
  intro number
  obtain ⟨hlt, hget⟩ := List.getElem?_eq_some_iff.1 h
  have hpos : refersTo number hold = true → 0 < holds.countP (refersTo number) := by
    intro hrefers
    exact List.countP_pos_iff.2 ⟨hold, hget ▸ List.getElem_mem hlt, hrefers⟩
  rw [List.countP_set hlt, hget]
  have hnone : refersTo number (none : Hold ν) = false := rfl
  by_cases hrefers : refersTo number hold = true
  · have hcount := hpos hrefers
    simp only [hrefers, hnone, if_true]
    simp only [Bool.false_eq_true, if_false]
    omega
  · simp [hrefers, hnone]

theorem left_eraseIdx {holds : List (Hold ν)} {index : Nat} {hold : Hold ν}
    (h : holds[index]? = some hold) : Left hold holds (holds.eraseIdx index) := by
  intro number
  obtain ⟨hlt, hget⟩ := List.getElem?_eq_some_iff.1 h
  have hperm := (List.getElem_cons_eraseIdx_perm hlt).countP_eq (refersTo number)
  rw [List.countP_cons, hget] at hperm
  exact hperm

end Hold

/-! ## Standings along a run -/

namespace SharedState

variable {α ν : Type} {type : SharedType α} {state : SharedState α ν}

structure Sound (type : SharedType α) (state : SharedState α ν) : Prop where
  next_eq : state.groups.next = state.founded.length
  standing : ∀ number, Standing type state.founded[number]? (state.sharedOf number)
    (state.weakOf number) (state.groups.find? number) (state.ledgerOf number)

theorem sound_initial (type : SharedType α) : ({} : SharedState α ν).Sound type := by
  refine ⟨rfl, ?_⟩
  intro number
  exact .unknown

/-- An act changes the standing of one group. -/
theorem Sound.change (h : state.Sound type) {state' : SharedState α ν} (number : Nat)
    (hfounded : state'.founded = state.founded)
    (halike : state.groups.Alike state'.groups number)
    (hothers : ∀ other, other ≠ number →
      state'.sharedOf other = state.sharedOf other ∧ state'.weakOf other = state.weakOf other ∧
        state'.ledgerOf other = state.ledgerOf other)
    (hself : Standing type state.founded[number]? (state'.sharedOf number)
      (state'.weakOf number) (state'.groups.find? number) (state'.ledgerOf number)) :
    state'.Sound type := by
  refine ⟨by rw [halike.next_eq, hfounded, h.next_eq], ?_⟩
  intro other
  rw [hfounded]
  by_cases hne : other = number
  · subst hne
    exact hself
  · obtain ⟨hshared, hweak, hledger⟩ := hothers other hne
    rw [hshared, hweak, hledger, halike.others other hne]
    exact h.standing other

theorem Sound.gainShared (h : state.Sound type) {reference : Reference ν}
    (hpos : 0 < state.sharedOf reference.group) :
    (state.withShared (some reference)
      (state.groups.recount reference.group Counts.acquireShared)).Sound type := by
  have hcount : ∀ number, (state.withShared (some reference)
      (state.groups.recount reference.group Counts.acquireShared)).sharedOf number =
        state.sharedOf number + if reference.group = number then 1 else 0 :=
    fun number => Hold.countP_cons_some reference state.shared number
  refine h.change reference.group ?_ (Groups.alike_recount _ _ _) ?_ ?_
  · rfl
  · intro other hne
    refine ⟨?_, rfl, rfl⟩
    rw [hcount, if_neg (Ne.symm hne), Nat.add_zero]
  · rw [hcount, if_pos rfl]
    show Standing type _ _ _ ((state.groups.recount _ _).find? _) _
    rw [Groups.find?_recount]
    exact (h.standing reference.group).acquireShared hpos

theorem Sound.gainWeak (h : state.Sound type) {reference : Reference ν}
    (hheld : 0 < state.sharedOf reference.group ∨ 0 < state.weakOf reference.group) :
    (state.withWeak (some reference)
      (state.groups.recount reference.group Counts.acquireWeak)).Sound type := by
  have hcount : ∀ number, (state.withWeak (some reference)
      (state.groups.recount reference.group Counts.acquireWeak)).weakOf number =
        state.weakOf number + if reference.group = number then 1 else 0 :=
    fun number => Hold.countP_cons_some reference state.weak number
  refine h.change reference.group ?_ (Groups.alike_recount _ _ _) ?_ ?_
  · rfl
  · intro other hne
    refine ⟨rfl, ?_, rfl⟩
    rw [hcount, if_neg (Ne.symm hne), Nat.add_zero]
  · rw [hcount, if_pos rfl]
    show Standing type _ _ _ ((state.groups.recount _ _).find? _) _
    rw [Groups.find?_recount]
    exact (h.standing reference.group).acquireWeak hheld

theorem Sound.same (h : state.Sound type) {state' : SharedState α ν}
    (hgroups : state'.groups = state.groups) (hfounded : state'.founded = state.founded)
    (hledger : state'.ledger = state.ledger)
    (hcounts : ∀ number,
      state'.sharedOf number = state.sharedOf number ∧
        state'.weakOf number = state.weakOf number) : state'.Sound type := by
  refine ⟨by rw [hgroups, hfounded, h.next_eq], ?_⟩
  intro number
  have hself : state'.ledgerOf number = state.ledgerOf number := by
    unfold ledgerOf
    rw [hledger]
  rw [hgroups, hfounded, hself, (hcounts number).1, (hcounts number).2]
  exact h.standing number

theorem Sound.withNone (h : state.Sound type) :
    (state.withShared none state.groups).Sound type ∧
      (state.withWeak none state.groups).Sound type := by
  constructor
  · exact h.same rfl rfl rfl fun number => ⟨Hold.countP_cons_none state.shared number, rfl⟩
  · exact h.same rfl rfl rfl fun number => ⟨rfl, Hold.countP_cons_none state.weak number⟩

theorem ledgerOf_append (state : SharedState α ν) {state' : SharedState α ν} {number : Nat}
    {duties : List (Duty α)}
    (hledger : state'.ledger = state.ledger ++ duties.map fun duty => (number, duty))
    (other : Nat) :
    state'.ledgerOf other = state.ledgerOf other ++ if number = other then duties else [] := by
  unfold ledgerOf
  rw [hledger, List.filter_append, List.map_append]
  congr 1
  by_cases heq : number = other
  · subst heq
    simp [List.filter_map, Function.comp_def]
  · simp [List.filter_map, Function.comp_def, heq]

/-- Duties that are done for a group are entered for it and for no other group. -/
theorem Sound.settle (h : state.Sound type) {state' : SharedState α ν} {number : Nat}
    {duties : List (Duty α)} (hfounded : state'.founded = state.founded)
    (hledger : state'.ledger = state.ledger ++ duties.map fun duty => (number, duty))
    (halike : state.groups.Alike state'.groups number)
    (hothers : ∀ other, other ≠ number →
      state'.sharedOf other = state.sharedOf other ∧ state'.weakOf other = state.weakOf other)
    (hself : Standing type state.founded[number]? (state'.sharedOf number)
      (state'.weakOf number) (state'.groups.find? number)
      (state.ledgerOf number ++ duties)) : state'.Sound type := by
  refine h.change number hfounded halike ?_ ?_
  · intro other hne
    have hentries := state.ledgerOf_append hledger other
    rw [if_neg (Ne.symm hne), List.append_nil] at hentries
    exact ⟨(hothers other hne).1, (hothers other hne).2, hentries⟩
  · rw [state.ledgerOf_append hledger, if_pos rfl]
    exact hself

/-- The act does these duties and nothing else to the store, and enters them in the
ledger. -/
def Enters (type : SharedType α) (state : SharedState α ν) (effect : Effect (SharedState α ν))
    (dues : List (Nat × Duty α)) : Prop :=
  ∃ next, Effect.Amounts type effect (dues.map Prod.snd) next ∧
    next.founded = state.founded ∧ next.ledger = state.ledger ++ dues ∧ next.Sound type

def Keeps (type : SharedType α) (state : SharedState α ν) (effect : Effect (SharedState α ν)) :
    Prop :=
  ∃ dues, Enters type state effect dues

theorem map_snd_of_dues {dues : List (Nat × Duty α)} {number : Nat} {duties : List (Duty α)}
    (h : dues = duties.map fun duty => (number, duty)) : dues.map Prod.snd = duties := by
  subst h
  simp [Function.comp_def]

/-- A shared handle that goes leaves exactly its dues to be done. -/
theorem Sound.enters_loseShared (h : state.Sound type) {hold : Hold ν} {left : List (Hold ν)}
    (hleft : Hold.Left hold state.shared left) :
    Enters type state (state.loseShared type hold left)
      (state.duesOf (Group.sharedDues type) hold) := by
  cases hold with
  | none =>
    have hsame : Sound type { state with shared := left, ledger := state.ledger ++ [] } :=
      h.same rfl rfl (List.append_nil _) fun number => ⟨hleft.count_none number, rfl⟩
    exact ⟨_, (Effect.Amounts.pure state.groups).bind (.pure _), rfl, rfl, hsame⟩
  | some reference =>
    have hstanding := h.standing reference.group
    unfold sharedOf at hstanding
    rw [← hleft.count_some, if_pos rfl] at hstanding
    obtain ⟨group, groups', hfind, hamounts, halike, hafter⟩ := hstanding.releaseShared
    have hdues : state.duesOf (Group.sharedDues type) (some reference) =
        (group.sharedDues type).map fun duty => (reference.group, duty) := by
      unfold duesOf
      simp only [hfind]
    refine ⟨{ state with
      groups := groups'
      shared := left
      ledger := state.ledger ++ state.duesOf (Group.sharedDues type) (some reference) },
      ?_, rfl, rfl, ?_⟩
    · rw [map_snd_of_dues hdues]
      exact hamounts.map _
    · refine h.settle rfl (congrArg _ hdues) halike ?_ hafter
      intro other hne
      exact ⟨hleft.count_other hne, rfl⟩

theorem Sound.enters_loseWeak (h : state.Sound type) {hold : Hold ν} {left : List (Hold ν)}
    (hleft : Hold.Left hold state.weak left) :
    Enters type state (state.loseWeak hold left)
      (state.duesOf Group.weakDues hold) := by
  cases hold with
  | none =>
    have hsame : Sound type { state with weak := left, ledger := state.ledger ++ [] } :=
      h.same rfl rfl (List.append_nil _) fun number => ⟨rfl, hleft.count_none number⟩
    exact ⟨_, (Effect.Amounts.pure state.groups).bind (.pure _), rfl, rfl, hsame⟩
  | some reference =>
    have hstanding := h.standing reference.group
    unfold weakOf at hstanding
    rw [← hleft.count_some, if_pos rfl] at hstanding
    obtain ⟨group, groups', hfind, hamounts, halike, hafter⟩ := hstanding.releaseWeak
    have hdues : state.duesOf Group.weakDues (some reference) =
        group.weakDues.map fun duty => (reference.group, duty) := by
      unfold duesOf
      simp only [hfind]
    refine ⟨{ state with
      groups := groups'
      weak := left
      ledger := state.ledger ++ state.duesOf Group.weakDues (some reference) },
      ?_, rfl, rfl, ?_⟩
    · rw [map_snd_of_dues hdues]
      exact hamounts.map _
    · refine h.settle rfl (congrArg _ hdues) halike ?_ hafter
      intro other hne
      exact ⟨rfl, hleft.count_other hne⟩

/-! ## What the standings say -/

theorem sharedOf_pos_of_mem {reference : Reference ν} (hmem : some reference ∈ state.shared) :
    0 < state.sharedOf reference.group :=
  List.countP_pos_iff.2 ⟨some reference, hmem, by simp [Hold.refersTo]⟩

theorem weakOf_pos_of_mem {reference : Reference ν} (hmem : some reference ∈ state.weak) :
    0 < state.weakOf reference.group :=
  List.countP_pos_iff.2 ⟨some reference, hmem, by simp [Hold.refersTo]⟩

theorem Sound.lock_of_shared (h : state.Sound type) {reference : Reference ν}
    (hpos : 0 < state.sharedOf reference.group) :
    state.groups.lock (some reference) =
      .ok (some reference, state.groups.recount reference.group Counts.acquireShared) := by
  have hupgrade := (h.standing reference.group).upgrade_of_pos hpos
  obtain ⟨counts, hcounts⟩ := Option.isSome_iff_exists.1 hupgrade
  unfold Groups.lock
  simp only [hcounts]

theorem Sound.lock_of_expired (h : state.Sound type) {reference : Reference ν}
    (hzero : state.sharedOf reference.group = 0) :
    state.groups.lock (some reference) = .error .pointerExpired := by
  have hupgrade := (hzero ▸ h.standing reference.group).upgrade_of_zero
  unfold Groups.lock
  simp only [hupgrade]

theorem Sound.keepLock (h : state.Sound type) (hold : Hold ν) :
    (state.keepShared (state.groups.lock hold)).Sound type := by
  cases hold with
  | none => exact h
  | some reference =>
    rcases Nat.eq_zero_or_pos (state.sharedOf reference.group) with hzero | hpos
    · rw [h.lock_of_expired hzero]
      exact h
    · rw [h.lock_of_shared hpos]
      exact h.gainShared hpos

theorem Sound.accounted (h : state.Sound type) : state.Accounted type := by
  constructor
  · intro reference hmem
    exact (h.standing reference.group).shared_eq
  · intro reference hmem
    exact (h.standing reference.group).weak_eq
  · intro reference hmem hpos
    exact ⟨_, h.lock_of_shared hpos⟩
  · intro reference hmem hzero
    exact h.lock_of_expired hzero
  · intro number origin horigin
    exact (horigin ▸ h.standing number).settled

/-! ## Acts and runs -/

theorem Keeps.of_pure {next : SharedState α ν} (hfounded : next.founded = state.founded)
    (hledger : next.ledger = state.ledger) (hsound : next.Sound type) :
    Keeps type state (pure next) :=
  ⟨[], next, .pure next, hfounded, by rw [hledger, List.append_nil], hsound⟩

theorem keepShared_books (state : SharedState α ν)
    (answer : Except ErrorKind (Hold ν × Groups α)) :
    (state.keepShared answer).founded = state.founded ∧
      (state.keepShared answer).ledger = state.ledger := by
  cases answer with
  | error kind => exact ⟨rfl, rfl⟩
  | ok fresh => exact ⟨rfl, rfl⟩

theorem Sound.keeps_actShared (h : state.Sound type) {index : Nat} {hold : Hold ν}
    (hindex : state.shared[index]? = some hold) (deed : SharedDeed α ν) :
    Keeps type state (state.actShared type index hold deed) := by
  have hpos : ∀ reference, hold = some reference → 0 < state.sharedOf reference.group := by
    intro reference heq
    exact sharedOf_pos_of_mem (heq ▸ List.mem_of_getElem? hindex)
  cases deed with
  | clone =>
    refine .of_pure rfl rfl ?_
    cases hold with
    | none => exact h.withNone.1
    | some reference => exact h.gainShared (hpos reference rfl)
  | reset => exact ⟨_, h.enters_loseShared (Hold.left_set_none hindex)⟩
  | drop => exact ⟨_, h.enters_loseShared (Hold.left_eraseIdx hindex)⟩
  | downgrade =>
    refine .of_pure rfl rfl ?_
    cases hold with
    | none => exact h.withNone.2
    | some reference => exact h.gainWeak (Or.inl (hpos reference rfl))
  | filterMap choose =>
    refine .of_pure rfl rfl ?_
    cases hold with
    | none => exact h.withNone.1
    | some reference =>
      cases state.groups.get? (some reference) with
      | none => exact h.withNone.1
      | some found =>
        obtain ⟨group, value, view⟩ := found
        dsimp only
        cases choose value view with
        | none => exact h.withNone.1
        | some chosen =>
          have hfresh : 0 < state.sharedOf { reference with view := chosen }.group :=
            hpos reference rfl
          exact h.gainShared hfresh
  | sharedFromThis view =>
    unfold actShared
    cases hold with
    | none => exact .of_pure rfl rfl h
    | some reference =>
      cases state.groups.get? (some reference) with
      | none => exact .of_pure rfl rfl h
      | some found =>
        obtain ⟨hfounded, hledger⟩ := state.keepShared_books
          (state.groups.sharedFromThis type view reference.group found.2.1)
        exact .of_pure hfounded hledger (h.keepLock _)
  | weakFromThis view =>
    unfold actShared
    cases hold with
    | none => exact .of_pure rfl rfl h
    | some reference =>
      cases state.groups.get? (some reference) with
      | none => exact .of_pure rfl rfl h
      | some found =>
        refine .of_pure rfl rfl ?_
        by_cases hlinked : type.linked found.2.1 = true
        · rw [if_pos hlinked]
          have hfresh : 0 < state.sharedOf (Reference.mk reference.group view).group :=
            hpos reference rfl
          exact h.gainWeak (Or.inl hfresh)
        · rw [if_neg hlinked]
          exact h.withNone.2

theorem Sound.keeps_actWeak (h : state.Sound type) {index : Nat} {hold : Hold ν}
    (hindex : state.weak[index]? = some hold) (deed : WeakDeed) :
    Keeps type state (state.actWeak index hold deed) := by
  cases deed with
  | clone =>
    refine .of_pure rfl rfl ?_
    cases hold with
    | none => exact h.withNone.2
    | some reference =>
      exact h.gainWeak (Or.inr (weakOf_pos_of_mem (List.mem_of_getElem? hindex)))
  | reset => exact ⟨_, h.enters_loseWeak (Hold.left_set_none hindex)⟩
  | drop => exact ⟨_, h.enters_loseWeak (Hold.left_eraseIdx hindex)⟩
  | lock =>
    obtain ⟨hfounded, hledger⟩ := state.keepShared_books (state.groups.lock hold)
    exact .of_pure hfounded hledger (h.keepLock hold)

theorem Sound.keeps_act (h : state.Sound type) {act : Act α ν}
    (hquiet : act.isFounding = false) : Keeps type state (state.act type act) := by
  cases act with
  | found founding layout build unused view => cases hquiet
  | emptyShared => exact .of_pure rfl rfl h.withNone.1
  | emptyWeak => exact .of_pure rfl rfl h.withNone.2
  | shared index deed =>
    cases hindex : state.shared[index]? with
    | none =>
      simp only [SharedState.act, hindex]
      exact .of_pure rfl rfl h
    | some hold =>
      simp only [SharedState.act, hindex]
      exact h.keeps_actShared hindex deed
  | weak index deed =>
    cases hindex : state.weak[index]? with
    | none =>
      simp only [SharedState.act, hindex]
      exact .of_pure rfl rfl h
    | some hold =>
      simp only [SharedState.act, hindex]
      exact h.keeps_actWeak hindex deed

/-- A new group has the number that follows those of all groups before it. -/
theorem Sound.enroll (h : state.Sound type) {groups : Groups α} {origin : Group α} {value : α}
    (hvalue : origin.value = some value) (hcounts : origin.counts = ⟨1, origin.inner type + 1⟩)
    (hnext : groups.next = state.groups.next + 1)
    (hself : groups.find? state.groups.next = some origin)
    (hothers : ∀ other, other ≠ state.groups.next →
      groups.find? other = state.groups.find? other) (view : ν) :
    Sound type { state.withShared (some ⟨state.groups.next, view⟩) groups with
      founded := state.founded ++ [origin] } := by
  constructor
  · show groups.next = (state.founded ++ [origin]).length
    rw [hnext, h.next_eq, List.length_append, List.length_singleton]
  · intro number
    have hstanding := h.standing number
    show Standing type (state.founded ++ [origin])[number]?
      ((some ⟨state.groups.next, view⟩ :: state.shared).countP (Hold.refersTo number))
      (state.weakOf number) (groups.find? number) (state.ledgerOf number)
    rw [Hold.countP_cons_some]
    by_cases heq : state.groups.next = number
    · subst heq
      have hlength := h.next_eq
      rw [hlength, List.getElem?_eq_none (Nat.le_refl _)] at hstanding
      obtain ⟨hshared, hweak, hledger⟩ := hstanding.of_unknown
      unfold sharedOf at hshared
      rw [hself, hlength, hshared, hweak, hledger, if_pos rfl, List.getElem?_concat_length]
      exact .founded hvalue hcounts
    · rw [hothers number (Ne.symm heq), if_neg heq, Nat.add_zero]
      have hfounded : (state.founded ++ [origin])[number]? = state.founded[number]? := by
        have hlength := h.next_eq
        rcases Nat.lt_or_ge number state.founded.length with hlt | hge
        · exact List.getElem?_append_left hlt
        · rw [List.getElem?_eq_none hge, List.getElem?_eq_none]
          rw [List.length_append, List.length_singleton]
          omega
      rw [hfounded]
      exact hstanding

section Founding

variable {founding : Founding} {layout : Layout} {build : Spot → Attempt α} {unused : Effect Unit}
  {view : ν} {store store' : Store}

theorem act_found_error {kind : ErrorKind}
    (h : state.groups.found type founding layout build unused store = (.error kind, store')) :
    (state.act type (.found founding layout build unused view) store).1 = state := by
  unfold SharedState.act
  simp only [bind, ExceptT.run, StateT.bind, h]
  rfl

theorem act_found_ok {number : Nat} {groups : Groups α}
    (h : state.groups.found type founding layout build unused store =
      (.ok (number, groups), store')) :
    (state.act type (.found founding layout build unused view) store).1 =
      { state.withShared (some ⟨number, view⟩) groups with
        founded := state.founded ++ (groups.find? number).toList } := by
  unfold SharedState.act
  simp only [bind, ExceptT.run, StateT.bind, h]
  rfl

end Founding

theorem Sound.afterFounding (h : state.Sound type) {act : Act α ν} (hproper : act.Proper type)
    (hfounding : act.isFounding = true) (store : Store) :
    (state.act type act store).1.Sound type ∧
      (state.act type act store).1.ledger = state.ledger := by
  cases act with
  | emptyShared | emptyWeak | shared | weak => cases hfounding
  | found founding layout build unused view =>
    cases hrun : state.groups.found type founding layout build unused store with
    | mk answer store' =>
      cases answer with
      | error kind =>
        rw [act_found_error hrun]
        exact ⟨h, rfl⟩
      | ok fresh =>
        obtain ⟨number, groups⟩ := fresh
        rw [act_found_ok hrun]
        obtain ⟨origin, value, hvalue, -, -, hcounts, rfl, hnext, hself, hothers⟩ :=
          Groups.found_ok hproper hrun
        refine ⟨?_, rfl⟩
        simp only [hself, Option.toList_some]
        exact h.enroll hvalue hcounts hnext hself hothers view

theorem Sound.afterAct (h : state.Sound type) {act : Act α ν} (hproper : act.Proper type)
    (store : Store) : (state.act type act store).1.Sound type := by
  cases hfounding : act.isFounding with
  | true => exact (h.afterFounding hproper hfounding store).1
  | false =>
    obtain ⟨dues, next, hamounts, -, -, hnext⟩ := h.keeps_act hfounding
    rw [hamounts.eq_result store]
    exact hnext

theorem Sound.afterRun (h : state.Sound type) {acts : List (Act α ν)}
    (hproper : ∀ act ∈ acts, act.Proper type) (store : Store) :
    (state.run type acts store).1.Sound type := by
  induction acts generalizing state store with
  | nil => exact h
  | cons act later ih =>
    exact ih (h.afterAct (hproper act (by simp)) store)
      (fun act hmem => hproper act (by simp [hmem])) _

/-- Whatever is done with the handles of any number of groups, the counts are those of
the handles that there are, and a group destroys its value and frees its memory once, with
the handle whose loss makes it due. -/
theorem ownership_accounted (type : SharedType α) (acts : List (Act α ν))
    (hproper : ∀ act ∈ acts, act.Proper type) (store : Store) :
    (run type {} acts store).1.Accounted type ∧
      ∀ act : Act α ν, act.Proper type →
        (act.isFounding = true → ∀ later : Store,
          ((run type {} acts store).1.act type act later).1.ledger =
            (run type {} acts store).1.ledger) ∧
        (act.isFounding = false → ∃ dues next,
          Effect.Amounts type ((run type {} acts store).1.act type act)
            (dues.map Prod.snd) next ∧
          next.founded = (run type {} acts store).1.founded ∧
          next.ledger = (run type {} acts store).1.ledger ++ dues ∧
          next.Accounted type) := by
  have hinitial : ({} : SharedState α ν).Sound type := sound_initial type
  have hsound := hinitial.afterRun hproper store
  refine ⟨hsound.accounted, fun act hact => ⟨?_, ?_⟩⟩
  · intro hfounding later
    exact (hsound.afterFounding hact hfounding later).2
  · intro hquiet
    obtain ⟨dues, next, hamounts, hfounded, hledger, hnext⟩ := hsound.keeps_act hquiet
    exact ⟨dues, next, hamounts, hfounded, hledger, hnext.accounted⟩

/-- A linked node and a number with a block of its own, whose handles go in turn. -/
def nodeAndNumber : List (Act Pointee Sight) :=
  [.found { combined := true, linked := true } PointeeKind.node.layout
      (fun _ => pure (.node { datum := .number 1 } false)) (pure ()) {},
    .found {} Catalogue.plain.layout
      (fun _ => pure (.object Catalogue.plain { datum := .number 2 }))
      (pure ()) {},
    .shared 1 .downgrade, .shared 0 .clone, .shared 2 .drop, .weak 0 .lock,
    .shared 0 (.filterMap fun _ sight => some sight), .shared 0 .drop, .shared 0 .drop,
    .shared 0 .reset, .weak 0 .drop]

theorem ownership_accounted_nodeAndNumber :
    (∀ act ∈ nodeAndNumber, act.Proper Pointee.type) ∧
      (run Pointee.type {} nodeAndNumber
        { memory := { backend := .freeList { spans := [⟨4096, 4096⟩] } } }).1.Accounted
          Pointee.type := by
  have hproper : ∀ act ∈ nodeAndNumber, act.Proper Pointee.type := by
    intro act hmem
    simp only [nodeAndNumber, List.mem_cons, List.not_mem_nil, or_false] at hmem
    rcases hmem with rfl | rfl | rfl | rfl | rfl | rfl | rfl | rfl | rfl | rfl | rfl
    case inl =>
      intro spot store value store' hbuild
      cases hbuild
      exact ⟨rfl, fun _ => rfl⟩
    case inr.inl =>
      intro spot store value store' hbuild
      cases hbuild
      exact ⟨rfl, fun hlinked => by cases hlinked⟩
    all_goals exact trivial
  exact ⟨hproper, (ownership_accounted Pointee.type nodeAndNumber hproper _).1⟩

end SharedState
end Freehold
