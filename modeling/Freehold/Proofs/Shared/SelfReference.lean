import Freehold.Proofs.Shared.Ownership

/-!
# Values that find their owners

A linking factory gives the value of a group a weak handle of the same group.  While the
group has a shared handle, the value finds its owners by it.  The weak handle goes with the
value, which is destroyed while the shared handles still hold their own weak reference.  So
it neither keeps the control block nor takes it away.
-/

namespace Freehold

namespace Standing

variable {α : Type} {type : SharedType α} {origin : Group α} {now : Option (Group α)}
  {shared weak : Nat} {done : List (Duty α)}

theorem of_pos (h : Standing type (some origin) shared weak now done) (hpos : 0 < shared) :
    now = some { origin with counts := ⟨shared, origin.inner type + 1 + weak⟩ } := by
  cases h with
  | owned hvalue shared weak => rfl
  | expired | gone => exact absurd hpos (Nat.lt_irrefl 0)

theorem of_zero (h : Standing type (some origin) 0 (weak + 1) now done) :
    now = some { origin with counts := ⟨0, weak + 1⟩, value := none } := by
  cases h with
  | expired hvalue weak hcounts => rfl

theorem isSome_iff (h : Standing type (some origin) shared weak now done) :
    now.isSome = true ↔ 0 < shared ∨ 0 < weak := by
  cases h with
  | owned hvalue shared weak => simp
  | expired hvalue weak hcounts => simp
  | gone hvalue hcounts => simp

end Standing

namespace Group

variable {α : Type} {type : SharedType α} {origin : Group α} {value : α}

theorem inner_of_linked (hvalue : origin.value = some value) (hlinked : type.linked value = true) :
    origin.inner type = 1 := by
  simp [inner, hvalue, hlinked]

end Group

namespace SharedState

variable {α ν : Type} {type : SharedType α} {state : SharedState α ν} {number : Nat}
  {origin : Group α} {value : α}

/-! ## What a state says of a linked value -/

/-- The value has a weak handle of its group, by which it gets handles that view it. -/
structure Finds (type : SharedType α) (state : SharedState α ν) (number : Nat) (value : α) :
    Prop where
  linked : type.linked value = true
  seen : ∀ view : ν, ∃ group,
    state.groups.get? (some ⟨number, view⟩) = some (group, value, view)
  shared_from_this : ∀ view : ν, ∃ groups group,
    state.groups.sharedFromThis type view number value = .ok (some ⟨number, view⟩, groups) ∧
      groups.get? (some ⟨number, view⟩) = some (group, value, view)
  weak_from_this : ∀ view : ν, ∃ groups group,
    state.groups.weakFromThis type view number value = (some ⟨number, view⟩, groups) ∧
      groups.get? (some ⟨number, view⟩) = some (group, value, view)
  weakCount_eq : ∀ view : ν,
    state.groups.weakCountOf (some ⟨number, view⟩) = state.weakOf number + 1

/-- What falls due with the last shared handle of a linked value.  The destructor sees the
weak handle of the value and the reference of the shared handles besides the weak handles
that there are. -/
def lastDues (state : SharedState α ν) (number : Nat) (origin : Group α) (value : α) :
    List (Duty α) :=
  .destroy ⟨0, state.weakOf number + 2⟩ value :: origin.ownDuties ++
    if state.weakOf number = 0 then [origin.blockDuty] else []

/-- The act does these duties for the group and nothing else to the store. -/
def Owes (type : SharedType α) (state : SharedState α ν) (act : Act α ν) (number : Nat)
    (duties : List (Duty α)) : Prop :=
  ∃ next, Effect.Amounts type (state.act type act) duties next ∧
    next.ledger = state.ledger ++ duties.map fun duty => (number, duty)

/-- The group was founded as the first group says by a factory that linked its value. -/
structure SelfLinked (type : SharedType α) (state : SharedState α ν) (number : Nat)
    (origin : Group α) (value : α) : Prop where
  finds : 0 < state.sharedOf number → state.Finds type number value
  /-- Without its value the group still has its control block, and the weak handle of the
  value is gone. -/
  destroyed : state.sharedOf number = 1 → ∃ group bereft groups,
    state.groups.find? number = some group ∧
      Effect.Amounts type (Groups.destroyValue type state.groups number group)
        (.destroy ⟨0, state.weakOf number + 2⟩ value :: origin.ownDuties) groups ∧
      groups.find? number = some bereft ∧ bereft.blockDuty = origin.blockDuty ∧
      bereft.counts = ⟨0, state.weakOf number + 1⟩
  lose_shared : ∀ index reference deed, state.shared[index]? = some (some reference) →
    reference.group = number → deed = .reset ∨ deed = .drop →
    state.Owes type (.shared index deed) number
      (if state.sharedOf number = 1 then state.lastDues number origin value else [])
  lose_weak : ∀ index reference deed, state.weak[index]? = some (some reference) →
    reference.group = number → deed = .reset ∨ deed = .drop →
    state.Owes type (.weak index deed) number
      (if state.sharedOf number = 0 ∧ state.weakOf number = 1 then [origin.blockDuty] else [])
  held_iff : (state.groups.find? number).isSome = true ↔
    0 < state.sharedOf number ∨ 0 < state.weakOf number
  /-- Whatever an act does is in the ledger, and the ledger has one destruction of the value
  and one end of the control block. -/
  entered : ∀ act : Act α ν, act.isFounding = false → ∃ dues next,
    Effect.Amounts type (state.act type act) (dues.map Prod.snd) next ∧
      next.ledger = state.ledger ++ dues
  settled : ∃ counts, counts.shared = 0 ∧
    state.ledgerOf number =
      (if state.sharedOf number = 0 then .destroy counts value :: origin.ownDuties else []) ++
        if state.sharedOf number = 0 ∧ state.weakOf number = 0 then [origin.blockDuty] else []

/-- The value knows nothing of its owners. -/
structure Unlinked (type : SharedType α) (state : SharedState α ν) (number : Nat) (value : α) :
    Prop where
  seen : 0 < state.sharedOf number → ∀ view : ν, ∃ group,
    state.groups.get? (some ⟨number, view⟩) = some (group, value, view)
  shared_from_this : ∀ view : ν,
    state.groups.sharedFromThis type view number value = .error .emptyPointer
  weak_from_this : ∀ view : ν,
    state.groups.weakFromThis type view number value = (none, state.groups)

/-! ## The value while it has an owner -/

theorem Sound.find_of_pos (h : state.Sound type) (horigin : state.founded[number]? = some origin)
    (hpos : 0 < state.sharedOf number) :
    state.groups.find? number = some
      { origin with
        counts := ⟨state.sharedOf number, origin.inner type + 1 + state.weakOf number⟩ } := by
  have hstanding := h.standing number
  rw [horigin] at hstanding
  exact hstanding.of_pos hpos

theorem get?_of_find {groups : Groups α} {group : Group α}
    (hfind : groups.find? number = some group) (hvalue : group.value = some value) (view : ν) :
    groups.get? (some ⟨number, view⟩) = some (group, value, view) := by
  unfold Groups.get?
  simp only [hfind, hvalue, Option.map_some]

/-- A value is seen through a change of the counts of its group. -/
theorem get?_recount {groups : Groups α} {group : Group α}
    (hfind : groups.find? number = some group) (hvalue : group.value = some value)
    (change : Counts → Counts) (view : ν) :
    (groups.recount number change).get? (some ⟨number, view⟩) =
      some ({ group with counts := change group.counts }, value, view) := by
  have hrecount : (groups.recount number change).find? number =
      some { group with counts := change group.counts } := by
    rw [Groups.find?_recount, hfind, Option.map_some]
  exact get?_of_find hrecount hvalue view

theorem Sound.get?_of_pos (h : state.Sound type) (horigin : state.founded[number]? = some origin)
    (hvalue : origin.value = some value) (hpos : 0 < state.sharedOf number) (view : ν) :
    ∃ group, state.groups.get? (some ⟨number, view⟩) = some (group, value, view) :=
  ⟨_, get?_of_find (h.find_of_pos horigin hpos) hvalue view⟩

theorem Sound.finds (h : state.Sound type) (horigin : state.founded[number]? = some origin)
    (hvalue : origin.value = some value) (hlinked : type.linked value = true)
    (hpos : 0 < state.sharedOf number) : state.Finds type number value := by
  have hfind := h.find_of_pos horigin hpos
  refine ⟨hlinked, h.get?_of_pos horigin hvalue hpos, ?_, ?_, ?_⟩
  · intro view
    have hlock : state.groups.lock (some (Reference.mk number view)) = _ :=
      h.lock_of_shared hpos
    refine ⟨_, _, ?_, get?_recount hfind hvalue Counts.acquireShared view⟩
    unfold Groups.sharedFromThis
    rw [if_pos hlinked, hlock]
  · intro view
    refine ⟨_, _, ?_, get?_recount hfind hvalue Counts.acquireWeak view⟩
    simp only [Groups.weakFromThis, hlinked, if_true, Groups.cloneWeak]
  · intro view
    have hinner := Group.inner_of_linked hvalue hlinked
    show ((state.groups.find? number).map fun group => group.counts.weakCount).getD 0 = _
    rw [hfind]
    simp only [Option.map_some, Option.getD_some, Counts.weakCount, hpos, if_true, hinner]
    omega

theorem Sound.unlinked (h : state.Sound type) (horigin : state.founded[number]? = some origin)
    (hvalue : origin.value = some value) (hunlinked : type.linked value = false) :
    state.Unlinked type number value := by
  refine ⟨h.get?_of_pos horigin hvalue, ?_, ?_⟩
  · intro view
    simp [Groups.sharedFromThis, Groups.lock, hunlinked]
  · intro view
    simp [Groups.weakFromThis, Groups.cloneWeak, hunlinked]

/-! ## The end of the value and of its block -/

theorem Sound.destroyed (h : state.Sound type) (horigin : state.founded[number]? = some origin)
    (hvalue : origin.value = some value) (hlinked : type.linked value = true)
    (hlast : state.sharedOf number = 1) : ∃ group bereft groups,
    state.groups.find? number = some group ∧
      Effect.Amounts type (Groups.destroyValue type state.groups number group)
        (.destroy ⟨0, state.weakOf number + 2⟩ value :: origin.ownDuties) groups ∧
      groups.find? number = some bereft ∧ bereft.blockDuty = origin.blockDuty ∧
      bereft.counts = ⟨0, state.weakOf number + 1⟩ := by
  have hinner := Group.inner_of_linked hvalue hlinked
  have hcounts : (⟨state.sharedOf number, origin.inner type + 1 + state.weakOf number⟩ : Counts) =
      ⟨1, state.weakOf number + 2⟩ := by
    rw [hlast, hinner, Nat.add_comm]
  have hfind := h.find_of_pos horigin (hlast ▸ Nat.one_pos)
  rw [hcounts] at hfind
  have hweak : state.weakOf number + 2 = origin.inner type + 1 + state.weakOf number := by
    rw [hinner, Nat.add_comm]
  obtain ⟨groups, hamounts, -, hbereft⟩ :=
    Standing.destroyValue_amounts type hfind hvalue hweak
  exact ⟨_, _, groups, hfind, hamounts, hbereft, rfl, rfl⟩

theorem duesOf_of_find {group : Group α} {dues : Group α → List (Duty α)}
    (hfind : state.groups.find? number = some group) (view : ν) :
    state.duesOf dues (some ⟨number, view⟩) = (dues group).map fun duty => (number, duty) := by
  unfold duesOf
  simp only [hfind]

theorem Enters.owes {act : Act α ν} {duties : List (Duty α)}
    (h : Enters type state (state.act type act) (duties.map fun duty => (number, duty))) :
    state.Owes type act number duties := by
  obtain ⟨next, hamounts, -, hledger, -⟩ := h
  rw [map_snd_of_dues rfl] at hamounts
  exact ⟨next, hamounts, hledger⟩

theorem Sound.sharedDues_eq (h : state.Sound type)
    (horigin : state.founded[number]? = some origin) (hvalue : origin.value = some value)
    (hlinked : type.linked value = true) (hpos : 0 < state.sharedOf number) (view : ν) :
    state.duesOf (Group.sharedDues type) (some ⟨number, view⟩) =
      (if state.sharedOf number = 1 then state.lastDues number origin value
        else []).map fun duty => (number, duty) := by
  rw [duesOf_of_find (h.find_of_pos horigin hpos)]
  congr 1
  unfold Group.sharedDues lastDues
  by_cases hlast : state.sharedOf number = 1
  · have hiff : state.weakOf number + 2 = 1 + 1 ↔ state.weakOf number = 0 := by omega
    have htotal : 1 + 1 + state.weakOf number = state.weakOf number + 2 := by omega
    have hinner := Group.inner_of_linked hvalue hlinked
    rw [if_pos hlast, if_pos hlast]
    show List.map _ origin.value.toList ++ origin.ownDuties ++
      (if origin.inner type + 1 + state.weakOf number = origin.inner type + 1
        then [origin.blockDuty] else []) = _
    simp only [hvalue, hinner, htotal, hiff, hlast, Option.toList_some, List.map_cons,
      List.map_nil, Counts.releaseShared, Nat.sub_self, List.cons_append, List.nil_append]
  · rw [if_neg hlast, if_neg hlast]

theorem Sound.weakDues_eq (h : state.Sound type)
    (horigin : state.founded[number]? = some origin) (hpos : 0 < state.weakOf number)
    (view : ν) :
    state.duesOf Group.weakDues (some ⟨number, view⟩) =
      (if state.sharedOf number = 0 ∧ state.weakOf number = 1 then [origin.blockDuty]
        else []).map fun duty => (number, duty) := by
  rcases Nat.eq_zero_or_pos (state.sharedOf number) with hzero | howned
  · obtain ⟨weak, hweak⟩ := Nat.exists_eq_succ_of_ne_zero (Nat.ne_of_gt hpos)
    have hstanding := h.standing number
    rw [horigin, hzero, hweak] at hstanding
    rw [duesOf_of_find hstanding.of_zero]
    simp only [Group.weakDues, hzero, hweak, true_and]
    rfl
  · have hmany : origin.inner type + 1 + state.weakOf number ≠ 1 := by omega
    rw [duesOf_of_find (h.find_of_pos horigin howned)]
    simp only [Group.weakDues, hmany, Nat.ne_of_gt howned, if_false, false_and]

theorem Sound.enters_shared (h : state.Sound type) {index : Nat} {hold : Hold ν}
    {deed : SharedDeed α ν} (hindex : state.shared[index]? = some hold)
    (hdeed : deed = .reset ∨ deed = .drop) :
    Enters type state (state.act type (.shared index deed))
      (state.duesOf (Group.sharedDues type) hold) := by
  simp only [SharedState.act, hindex]
  rcases hdeed with rfl | rfl
  · exact h.enters_loseShared (Hold.left_set_none hindex)
  · exact h.enters_loseShared (Hold.left_eraseIdx hindex)

theorem Sound.enters_weak (h : state.Sound type) {index : Nat} {hold : Hold ν}
    {deed : WeakDeed} (hindex : state.weak[index]? = some hold)
    (hdeed : deed = .reset ∨ deed = .drop) :
    Enters type state (state.act type (.weak index deed)) (state.duesOf Group.weakDues hold) := by
  simp only [SharedState.act, hindex]
  rcases hdeed with rfl | rfl
  · exact h.enters_loseWeak (Hold.left_set_none hindex)
  · exact h.enters_loseWeak (Hold.left_eraseIdx hindex)

theorem Sound.owes_shared (h : state.Sound type)
    (horigin : state.founded[number]? = some origin) (hvalue : origin.value = some value)
    (hlinked : type.linked value = true) {index : Nat} {reference : Reference ν}
    {deed : SharedDeed α ν} (hindex : state.shared[index]? = some (some reference))
    (hnumber : reference.group = number) (hdeed : deed = .reset ∨ deed = .drop) :
    state.Owes type (.shared index deed) number
      (if state.sharedOf number = 1 then state.lastDues number origin value else []) := by
  subst hnumber
  have hpos := sharedOf_pos_of_mem (List.mem_of_getElem? hindex)
  have henters := h.enters_shared hindex hdeed
  rw [h.sharedDues_eq horigin hvalue hlinked hpos] at henters
  exact henters.owes

theorem Sound.owes_weak (h : state.Sound type)
    (horigin : state.founded[number]? = some origin) {index : Nat} {reference : Reference ν}
    {deed : WeakDeed} (hindex : state.weak[index]? = some (some reference))
    (hnumber : reference.group = number) (hdeed : deed = .reset ∨ deed = .drop) :
    state.Owes type (.weak index deed) number
      (if state.sharedOf number = 0 ∧ state.weakOf number = 1 then [origin.blockDuty]
        else []) := by
  subst hnumber
  have hpos := weakOf_pos_of_mem (List.mem_of_getElem? hindex)
  have henters := h.enters_weak hindex hdeed
  rw [h.weakDues_eq horigin hpos] at henters
  exact henters.owes

theorem Sound.selfLinked (h : state.Sound type)
    (horigin : state.founded[number]? = some origin) (hvalue : origin.value = some value)
    (hlinked : type.linked value = true) : state.SelfLinked type number origin value := by
  have hstanding := h.standing number
  rw [horigin] at hstanding
  constructor
  case finds => exact h.finds horigin hvalue hlinked
  case destroyed => exact h.destroyed horigin hvalue hlinked
  case lose_shared =>
    intro index reference deed hindex hnumber hdeed
    exact h.owes_shared horigin hvalue hlinked hindex hnumber hdeed
  case lose_weak =>
    intro index reference deed hindex hnumber hdeed
    exact h.owes_weak horigin hindex hnumber hdeed
  case held_iff => exact hstanding.isSome_iff
  case entered =>
    intro act hquiet
    obtain ⟨dues, next, hamounts, -, hledger, -⟩ := h.keeps_act hquiet
    exact ⟨dues, next, hamounts, hledger⟩
  case settled =>
    obtain ⟨owned, counts, howned, hcounts, hdone⟩ := hstanding.settled
    obtain rfl : value = owned := Option.some.inj (hvalue.symm.trans howned)
    exact ⟨counts, hcounts, hdone⟩

/-! ## Groups along a run -/

theorem founded_found {founding : Founding} {layout : Layout} {build : Spot → Attempt α}
    {unused : Effect Unit} {view : ν} (horigin : state.founded[number]? = some origin)
    (store : Store) :
    (state.act type (.found founding layout build unused view) store).1.founded[number]? =
      some origin := by
  cases hrun : state.groups.found type founding layout build unused store with
  | mk answer store' =>
    cases answer with
    | error kind => rw [act_found_error hrun, horigin]
    | ok fresh =>
      obtain ⟨hlt, -⟩ := List.getElem?_eq_some_iff.1 horigin
      rw [act_found_ok hrun, List.getElem?_append_left hlt, horigin]

theorem Sound.founded_act (h : state.Sound type) (act : Act α ν)
    (horigin : state.founded[number]? = some origin) (store : Store) :
    (state.act type act store).1.founded[number]? = some origin := by
  cases hfounding : act.isFounding with
  | true =>
    cases act with
    | found => exact founded_found horigin store
    | emptyShared | emptyWeak | shared | weak => cases hfounding
  | false =>
    obtain ⟨dues, next, hamounts, hfounded, -, -⟩ := h.keeps_act hfounding
    rw [hamounts.eq_result store, hfounded, horigin]

theorem Sound.founded_run (h : state.Sound type) {acts : List (Act α ν)}
    (hproper : ∀ act ∈ acts, act.Proper type) (horigin : state.founded[number]? = some origin)
    (store : Store) : (state.run type acts store).1.founded[number]? = some origin := by
  induction acts generalizing state store with
  | nil => exact horigin
  | cons act later ih =>
    have hact := hproper act (by simp)
    exact ih (h.afterAct hact store) (fun act hmem => hproper act (by simp [hmem]))
      (h.founded_act act horigin store) _

/-- A value that a factory linked finds its owners for as long as it has any, whatever is
done with the handles of any groups: it is destroyed while its control block is held, and
the block goes once, with the last handle outside of the value.  A value that no factory
linked finds none. -/
theorem selfReference_kept (type : SharedType α) {founding : Founding} {layout : Layout}
    {build : Spot → Attempt α} {unused : Effect Unit} {view : ν}
    (hproper : (Act.found founding layout build unused view).Proper type)
    {earlier later : List (Act α ν)} (hearlier : ∀ act ∈ earlier, act.Proper type)
    (hlater : ∀ act ∈ later, act.Proper type) (first : Store) {start started : Store}
    {number : Nat} {groups : Groups α}
    (hfound : (run type {} earlier first).1.groups.found type founding layout build unused
      start = (.ok (number, groups), started)) (after : Store) :
    ∃ origin value, groups.find? number = some origin ∧ origin.value = some value ∧
      origin.own = (if founding.combined then none else some layout) ∧
      (founding.linked = true →
        SelfLinked type ((((run type {} earlier first).1.act type
          (.found founding layout build unused view) start).1.run type later after).1)
          number origin value) ∧
      (founding.linked = false →
        Unlinked type ((((run type {} earlier first).1.act type
          (.found founding layout build unused view) start).1.run type later after).1)
          number value) := by
  have hinitial : ({} : SharedState α ν).Sound type := sound_initial type
  have hsound := hinitial.afterRun hearlier first
  obtain ⟨origin, value, hvalue, hlinked, hown, -, hnumber, -, hself, -⟩ :=
    Groups.found_ok hproper hfound
  have horigin : ((run type {} earlier first).1.act type
      (.found founding layout build unused view) start).1.founded[number]? = some origin := by
    rw [act_found_ok hfound, hself, hnumber, hsound.next_eq]
    exact List.getElem?_concat_length
  have hfounded := hsound.afterAct hproper start
  have hlast := hfounded.afterRun hlater after
  have hkept := hfounded.founded_run hlater horigin after
  refine ⟨origin, value, hself, hvalue, hown, ?_, ?_⟩
  · intro hfactory
    exact hlast.selfLinked hkept hvalue (hlinked.trans hfactory)
  · intro hfactory
    exact hlast.unlinked hkept hvalue (hlinked.trans hfactory)

/-- A node that is linked in a block of its own. -/
def linkedNode : Act Pointee Sight :=
  .found { linked := true } PointeeKind.node.layout
    (fun _ => pure (.node { datum := .number 1 } false)) (pure ()) {}

def nodeHandles : List (Act Pointee Sight) :=
  [.shared 0 (.sharedFromThis {}), .shared 0 (.weakFromThis {}), .shared 1 .drop,
    .shared 0 .reset, .weak 0 .drop]

def nodeStore : Store := { memory := { backend := .freeList { spans := [⟨4096, 4096⟩] } } }

theorem selfReference_kept_node :
    linkedNode.Proper Pointee.type ∧ (∀ act ∈ nodeHandles, act.Proper Pointee.type) ∧
      ∃ origin value, SelfLinked Pointee.type
        ((((run Pointee.type {} [.emptyShared] nodeStore).1.act Pointee.type linkedNode
          nodeStore).1.run Pointee.type nodeHandles nodeStore).1) 0 origin value := by
  have hnode : linkedNode.Proper Pointee.type := by
    intro spot store value store' hbuild
    cases hbuild
    exact ⟨rfl, fun _ => rfl⟩
  have hearlier : ∀ act ∈ [(.emptyShared : Act Pointee Sight)], act.Proper Pointee.type := by
    intro act hmem
    rw [List.mem_singleton.1 hmem]
    exact trivial
  have hhandles : ∀ act ∈ nodeHandles, act.Proper Pointee.type := by
    intro act hmem
    simp only [nodeHandles, List.mem_cons, List.not_mem_nil, or_false] at hmem
    rcases hmem with rfl | rfl | rfl | rfl | rfl <;> exact trivial
  have hfound : ∃ groups started,
      (run Pointee.type {} [(.emptyShared : Act Pointee Sight)] nodeStore).1.groups.found
        Pointee.type { linked := true } PointeeKind.node.layout
        (fun _ => pure (.node { datum := .number 1 } false)) (pure ()) nodeStore =
        (.ok (0, groups), started) := ⟨_, _, rfl⟩
  obtain ⟨groups, started, hfound⟩ := hfound
  obtain ⟨origin, value, -, -, -, hlinked, -⟩ :=
    selfReference_kept Pointee.type hnode hearlier hhandles nodeStore hfound nodeStore
  exact ⟨hnode, hhandles, origin, value, hlinked rfl⟩

end SharedState
end Freehold
