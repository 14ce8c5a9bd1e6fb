import Freehold.Proofs.Intrusive.CountedRuns

/-!
# Counts are handles

In every state that can be reached, the count of a value is the number of its handles, and
a value lives as long as it has handles.  Every act takes one of a few turns, each of
which keeps that.  Only the one that takes the last handle ends a life, and it does so
once.
-/

namespace Freehold
namespace IntrusiveState

variable {α : Type} {type : CountedType α} {deeds more : List (Deed α)}
  {state next : IntrusiveState α}
  {number index : Nat}

/-! ## Standings -/

/-- How a value stands that was placed as `origin`: how many handles it has, how it is
found, and what has been done to end its life. -/
inductive Standing (number : Nat) :
    Option (Counted α) → Nat → Option (Counted α) → List (Deed α) → Prop
  | unknown : Standing number none 0 none []
  | alive {origin : Counted α} {layout : Layout} {handles : Nat}
      (howner : origin.refs.owner = some layout) (hpos : 0 < handles) :
    Standing number (some origin) handles
      (some { origin with refs := ⟨handles, some layout⟩ }) []
  | gone {origin : Counted α} {layout : Layout} (howner : origin.refs.owner = some layout) :
    Standing number (some origin) 0 none (ending number origin)

/-- Where a placed value has been put: in a block that was granted for a layout with room
for it. -/
structure Housed (type : CountedType α) (deeds : List (Deed α)) (origin : Counted α)
    (layout : Layout) (block : Block) : Prop where
  owner : origin.refs.owner = some layout
  address : origin.address = block.address
  room : type.layout.size ≤ layout.size
  align : layout.align = type.layout.align
  covered : layout.size ≤ block.size
  granted : .allocate layout (.ok block) ∈ deeds

structure Sound (type : CountedType α) (deeds : List (Deed α)) (state : IntrusiveState α) :
    Prop where
  next_eq : state.values.next = state.placed.length
  standing : ∀ number, Standing number state.placed[number]? (state.handles.count number)
    (state.values.find? number) (deeds.filter (Deed.ends number))
  housed : ∀ origin ∈ state.placed, ∃ layout block, Housed type deeds origin layout block
  strays : ∀ refs ∈ state.strays, refs = {}

theorem sound_initial (type : CountedType α) : Sound type [] {} where
  next_eq := rfl
  standing _ := .unknown
  housed _ hmem := by cases hmem
  strays _ hmem := by cases hmem

theorem Housed.mono {origin : Counted α} {layout : Layout} {block : Block}
    (h : Housed type deeds origin layout block) (more : List (Deed α)) :
    Housed type (deeds ++ more) origin layout block :=
  { h with granted := List.mem_append_left more h.granted }

/-- A value that has handles is found with as many on its count. -/
theorem Sound.find_of_pos (h : Sound type deeds state)
    (hpos : 0 < state.handles.count number) :
    ∃ origin layout, state.placed[number]? = some origin ∧ origin.refs.owner = some layout ∧
      state.values.find? number =
        some { origin with refs := ⟨state.handles.count number, some layout⟩ } ∧
      deeds.filter (Deed.ends number) = [] := by
  have hstanding := h.standing number
  generalize state.placed[number]? = origin?, state.handles.count number = handles,
    state.values.find? number = found, deeds.filter (Deed.ends number) = done at hpos hstanding ⊢
  cases hstanding with
  | unknown => exact absurd hpos (Nat.lt_irrefl 0)
  | gone howner => exact absurd hpos (Nat.lt_irrefl 0)
  | alive howner _ => exact ⟨_, _, rfl, howner, rfl, rfl⟩

/-- A number that no value has is that of no handle. -/
theorem Standing.of_unplaced {handles : Nat} {found : Option (Counted α)}
    (h : Standing number none handles found deeds) : handles = 0 ∧ deeds = [] := by
  cases h with
  | unknown => exact ⟨rfl, rfl⟩

theorem getElem?_concat_of_ne {values : List α} {value : α} (h : index ≠ values.length) :
    (values ++ [value])[index]? = values[index]? := by
  rcases Nat.lt_or_gt_of_ne h with hlt | hgt
  · exact List.getElem?_append_left hlt
  · rw [List.getElem?_eq_none (Nat.le_of_lt hgt), List.getElem?_eq_none]
    rw [List.length_append, List.length_singleton]
    exact hgt

theorem count_pos_of_getElem? {handles : List Nat} (h : handles[index]? = some number) :
    0 < handles.count number :=
  List.count_pos_iff.2 (List.mem_of_getElem? h)

/-! ## What turns keep -/

/-- An act that concerns one value leaves all others as they are. -/
theorem Sound.change (h : Sound type deeds state) (number : Nat)
    (hplaced : next.placed = state.placed) (hstrays : next.strays = state.strays)
    (hnext : next.values.next = state.values.next)
    (hothers : ∀ other, other ≠ number →
      next.handles.count other = state.handles.count other ∧
        next.values.find? other = state.values.find? other ∧
        more.filter (Deed.ends other) = [])
    (hself : Standing number state.placed[number]? (next.handles.count number)
      (next.values.find? number) ((deeds ++ more).filter (Deed.ends number))) :
    Sound type (deeds ++ more) next where
  next_eq := by rw [hnext, hplaced, h.next_eq]
  standing other := by
    by_cases heq : other = number
    · subst heq
      rw [hplaced]
      exact hself
    · obtain ⟨hcount, hfind, hmore⟩ := hothers other heq
      rw [hplaced, hcount, hfind, List.filter_append, hmore, List.append_nil]
      exact h.standing other
  housed origin hmem := by
    obtain ⟨layout, block, hhoused⟩ := h.housed origin (hplaced ▸ hmem)
    exact ⟨layout, block, hhoused.mono more⟩
  strays refs hmem := h.strays refs (hstrays ▸ hmem)

/-- What is done for no value in particular ends no life. -/
theorem Sound.idle (h : Sound type deeds state)
    (hmore : ∀ number, more.filter (Deed.ends number) = []) :
    Sound type (deeds ++ more) state := by
  refine h.change 0 rfl rfl rfl (fun other _ => ⟨rfl, rfl, hmore other⟩) ?_
  rw [List.filter_append, hmore, List.append_nil]
  exact h.standing 0

theorem Sound.withStray (h : Sound type deeds state) : Sound type deeds (state.withStray {}) where
  next_eq := h.next_eq
  standing := h.standing
  housed := h.housed
  strays refs hmem := by
    rcases List.mem_cons.1 hmem with rfl | hold
    · rfl
    · exact h.strays refs hold

theorem Sound.recount (h : Sound type deeds state) {counted : Counted α} {handles : List Nat}
    (hcounted : state.values.find? number = some counted)
    (hbefore : 0 < state.handles.count number) (hafter : 0 < handles.count number)
    (hothers : ∀ other, other ≠ number → handles.count other = state.handles.count other) :
    Sound type (deeds ++ []) (state.recount number counted handles) := by
  obtain ⟨origin, layout, hplaced, howner, hfind, hdone⟩ := h.find_of_pos hbefore
  obtain rfl : counted = _ := Option.some.inj (hcounted.symm.trans hfind)
  refine h.change number rfl rfl rfl ?_ ?_
  · intro other hne
    exact ⟨hothers other hne, Roster.find?_set_of_ne _ hne, rfl⟩
  · simp only [IntrusiveState.recount]
    rw [List.append_nil, hdone, hplaced, Roster.find?_set_self _ (by rw [hcounted]; rfl)]
    exact .alive howner hafter

theorem count_eraseIdx {handles : List Nat} (h : handles[index]? = some number) (other : Nat) :
    handles.count other =
      (handles.eraseIdx index).count other + if number = other then 1 else 0 := by
  obtain ⟨hlt, rfl⟩ := List.getElem?_eq_some_iff.1 h
  have hperm := List.getElem_cons_eraseIdx_perm hlt
  rw [← hperm.count_eq other, List.count_cons]
  simp only [beq_iff_eq]

/-- The last handle takes the value with it. -/
theorem Sound.ended (h : Sound type deeds state) {counted : Counted α}
    (hindex : state.handles[index]? = some number)
    (hcounted : state.values.find? number = some counted)
    (hlast : state.handles.count number = 1) :
    Sound type (deeds ++ ending number counted)
      { state with
        values := state.values.dismiss number
        handles := state.handles.eraseIdx index } := by
  obtain ⟨origin, layout, hplaced, howner, hfind, hdone⟩ :=
    h.find_of_pos (count_pos_of_getElem? hindex)
  obtain rfl : counted = _ := Option.some.inj (hcounted.symm.trans hfind)
  have hending : ending number { origin with refs := ⟨state.handles.count number, some layout⟩ } =
      ending number origin := by
    unfold ending
    rw [howner]
  refine h.change number rfl rfl rfl ?_ ?_
  · intro other hne
    have hcount := count_eraseIdx hindex other
    rw [if_neg hne.symm, Nat.add_zero] at hcount
    refine ⟨hcount.symm, Roster.find?_dismiss_of_ne hne, ?_⟩
    simp [ending, Deed.ends, hne.symm]
  · have hcount := count_eraseIdx hindex number
    rw [if_pos rfl, hlast] at hcount
    have hnone : (state.handles.eraseIdx index).count number = 0 := by omega
    have hends : (ending number origin).filter (Deed.ends number) = ending number origin := by
      simp [ending, Deed.ends, howner]
    rw [hnone, hplaced, Roster.find?_dismiss_self, List.filter_append, hdone, hending, hends]
    exact .gone howner

theorem Sound.adopt (h : Sound type deeds state) {layout : Layout} {block : Block} (value : α)
    (hroom : type.layout.size ≤ layout.size) (halign : layout.align = type.layout.align)
    (hcovered : layout.size ≤ block.size) (hgranted : .allocate layout (.ok block) ∈ more)
    (hmore : ∀ number, more.filter (Deed.ends number) = []) :
    Sound type (deeds ++ more) (state.adopt block layout value) := by
  have hidle := h.idle hmore
  have hlength := h.next_eq
  constructor
  · show state.values.next + 1 = (state.placed ++ [_]).length
    rw [List.length_append, hlength, List.length_singleton]
  · intro number
    have hstanding := hidle.standing number
    show Standing number (state.placed ++ [_])[number]?
      ((state.values.next :: state.handles).count number)
      ((state.values.enroll _).2.find? number) _
    by_cases heq : number = state.values.next
    · subst heq
      rw [hlength, List.getElem?_eq_none (Nat.le_refl _), ← hlength] at hstanding
      obtain ⟨hcount, hdone⟩ := hstanding.of_unplaced
      have hplaced : (state.placed ++ [⟨block.address, ⟨1, some layout⟩, value⟩])[
          state.values.next]? = some ⟨block.address, ⟨1, some layout⟩, value⟩ := by
        rw [hlength, List.getElem?_concat_length]
      have hself : (state.values.enroll ⟨block.address, ⟨1, some layout⟩, value⟩).2.find?
          state.values.next = some ⟨block.address, ⟨1, some layout⟩, value⟩ :=
        Roster.find?_enroll_self _
      rw [hplaced, hdone, List.count_cons_self, hcount, hself]
      exact .alive rfl Nat.one_pos
    · rw [getElem?_concat_of_ne (fun hindex => heq (hindex.trans hlength.symm)),
        List.count_cons_of_ne (Ne.symm heq), Roster.find?_enroll_of_ne _ heq]
      exact hstanding
  · intro origin hmem
    rcases List.mem_append.1 hmem with hold | hnew
    · exact hidle.housed origin hold
    · cases List.mem_singleton.1 hnew
      exact ⟨layout, block, rfl, rfl, hroom, halign, hcovered, List.mem_append_right deeds hgranted⟩
  · exact hidle.strays

theorem dynamicLayout?_eq {total : Nat} {layout : Layout}
    (h : CountedValues.dynamicLayout? type total = some layout) :
    layout = ⟨max type.layout.size total, type.layout.align⟩ :=
  (Layout.of?_eq_some_iff.1 h).2

/-- Every turn keeps the state sound. -/
theorem Sound.turn (h : Sound type deeds state) {act : Act α} {answer : Answer}
    (hturn : Turns type state act more answer next) : Sound type (deeds ++ more) next := by
  cases hturn with
  | unavailable | oversized | refused | unhoused | unbuilt | unowned =>
    exact h.idle fun number => rfl
  | @placed value total layout hlayout block hblock =>
    obtain rfl := dynamicLayout?_eq hlayout
    exact h.adopt value (Nat.le_max_left _ _) rfl hblock List.mem_cons_self fun number => rfl
  | built build unused block value hblock =>
    exact h.adopt value (Nat.le_refl _) rfl hblock List.mem_cons_self fun number => rfl
  | joined hindex hcounted hdeed =>
    refine h.recount hcounted (count_pos_of_getElem? hindex) (by simp) ?_
    intro other hne
    exact List.count_cons_of_ne hne.symm
  | @parted index number counted hindex hcounted hmany =>
    refine h.recount hcounted (count_pos_of_getElem? hindex) ?_ ?_
    · have hcount := count_eraseIdx hindex number
      rw [if_pos rfl] at hcount
      omega
    · intro other hne
      have hcount := count_eraseIdx hindex other
      rw [if_neg hne.symm, Nat.add_zero] at hcount
      exact hcount.symm
  | ended hindex hcounted hlast => exact h.ended hindex hcounted hlast
  | copied | stray | copiedStray =>
    rw [List.append_nil]
    exact h.withStray

/-! ## Acts take turns -/

/-- The act takes a turn of the state. -/
def Follows (type : CountedType α) (state : IntrusiveState α) (act : Act α) : Prop :=
  ∀ store : Store, ∃ deeds answer next,
    (state.act type act).Does (Deed.Done type) store deeds (answer, next) ∧
      Turns type state act deeds answer next

theorem allocate_does (type : CountedType α) (layout : Layout) (store : Store) :
    ∃ answer, (Allocator.allocate layout).Does (Deed.Done type) store [.allocate layout answer]
      answer ∧ Allocator.Fulfils layout.size answer :=
  ⟨_, ⟨_, rfl, .single rfl⟩, Allocator.allocate_fulfils layout store⟩

theorem keep_error {attempt : Attempt (Nat × CountedValues α)} {kind : ErrorKind} {store : Store}
    (h : attempt.Does (Deed.Done type) store deeds (.error kind)) :
    (state.keep attempt).Does (Deed.Done type) store deeds (.failed kind, state) :=
  h.bind_pure rfl

theorem keep_adopt {attempt : Attempt (Nat × CountedValues α)} {block : Block} {layout : Layout}
    {value : α} {store : Store}
    (h : attempt.Does (Deed.Done type) store deeds
      (.ok (state.values.adopt block.address layout value))) :
    (state.keep attempt).Does (Deed.Done type) store deeds
      (.handle state.values.next, state.adopt block layout value) := by
  apply h.bind_pure
  have hself : (state.values.adopt block.address layout value).2.find?
      (state.values.adopt block.address layout value).1 =
      some ⟨block.address, ⟨1, some layout⟩, value⟩ :=
    Roster.find?_enroll_self _
  dsimp only
  rw [hself]
  rfl

theorem follows_place (state : IntrusiveState α) (value : α) (total : Nat) :
    Follows type state (.place value total) := by
  intro store
  have hdiscard (between : Store) : (CountedValues.discard type value).Does (Deed.Done type) between
      [.discard value] () := ⟨_, rfl, .single rfl⟩
  cases hlayout : CountedValues.dynamicLayout? type total with
  | none =>
    obtain ⟨after, hdiscarded, hdone⟩ := hdiscard store
    have hnew : (state.values.newDynamic type value total).Does (Deed.Done type) store
        [.discard value] (.error .integerOverflow) := by
      refine ⟨after, ?_, hdone⟩
      show state.values.newDynamic type value total store = _
      rw [CountedValues.newDynamic_unasked hlayout, hdiscarded]
    exact ⟨_, _, _, keep_error hnew, .oversized hlayout⟩
  | some layout =>
    have hnew : state.values.newDynamic type value total =
        Attempt.undoing
          (Allocator.allocate layout >>= fun block =>
            pure (state.values.adopt block.address layout value))
          (CountedValues.discard type value) := by
      unfold CountedValues.dynamicLayout? at hlayout
      unfold CountedValues.newDynamic
      rw [hlayout]
    obtain ⟨answer, hallocate, hfulfils⟩ := allocate_does type layout store
    cases answer with
    | error kind =>
      have hrefused := (hallocate.bind_error fun block =>
        pure (state.values.adopt block.address layout value)).undone hdiscard
      rw [← hnew] at hrefused
      exact ⟨_, _, _, keep_error hrefused, .refused hlayout kind⟩
    | ok block =>
      have hplaced := (hallocate.map fun block =>
        state.values.adopt block.address layout value).undoing (CountedValues.discard type value)
      rw [← hnew] at hplaced
      exact ⟨_, _, _, keep_adopt hplaced, .placed hlayout hfulfils⟩

theorem follows_construct (state : IntrusiveState α) (build : Spot → Attempt α)
    (unused : Effect Unit) :
    Follows type state (.construct build unused) := by
  intro store
  obtain ⟨answer, hallocate, hfulfils⟩ := allocate_does type type.layout store
  cases answer with
  | error kind =>
    have hunused (between : Store) : unused.Does (Deed.Done type) between [.setAside unused] () :=
      ⟨_, rfl, .single rfl⟩
    have hrefused := hallocate.undone hunused
    exact ⟨_, _, _, keep_error (hrefused.bind_error _), .unhoused build unused kind⟩
  | ok block =>
    obtain ⟨between, hgranted, hdone⟩ := hallocate.undoing unused
    have hbuild : ∃ answer, (build (.block block.address)).Does (Deed.Done type) between
        [.build (build (.block block.address)) answer] answer := ⟨_, _, rfl, .single rfl⟩
    obtain ⟨answer, hbuild⟩ := hbuild
    cases answer with
    | error kind =>
      have hback (after : Store) :
          (Allocator.deallocate block.address type.layout).Does (Deed.Done type) after
            [.giveBack block.address type.layout] () := ⟨_, rfl, .single rfl⟩
      have hfailed := (hbuild.undone hback).bind_error fun value =>
        pure (state.values.adopt block.address type.layout value)
      exact ⟨_, _, _, keep_error (.bind hgranted hdone hfailed),
        .unbuilt build unused block kind⟩
    | ok value =>
      have hbuilt := (hbuild.undoing (Allocator.deallocate block.address type.layout)).map
        fun value => state.values.adopt block.address type.layout value
      exact ⟨_, _, _, keep_adopt (.bind hgranted hdone hbuilt),
        .built build unused block value hfulfils⟩

/-! ### Acts at a handle -/

section Handle

variable {counted : Counted α} {layout : Layout}

/-- What is known of a value that has handles. -/
structure Live (state : IntrusiveState α) (number : Nat) (counted : Counted α) (layout : Layout) :
    Prop where
  find : state.values.find? number = some counted
  count : counted.refs.count = state.handles.count number
  owner : counted.refs.owner = some layout

theorem Sound.live (h : Sound type deeds state) (hindex : state.handles[index]? = some number) :
    ∃ counted layout, Live state number counted layout := by
  obtain ⟨origin, layout, -, -, hfind, -⟩ := h.find_of_pos (count_pos_of_getElem? hindex)
  exact ⟨_, layout, hfind, rfl, rfl⟩

/-- Another handle is counted. -/
theorem Live.withHandle (h : Live state number counted layout) :
    state.withHandle number
        (state.values.set number
          { counted with refs := { counted.refs with count := counted.refs.count + 1 } }) =
      state.recount number counted (number :: state.handles) := by
  unfold IntrusiveState.withHandle IntrusiveState.recount
  rw [h.count, List.count_cons_self]

theorem Live.clone_eq (h : Live state number counted layout) :
    state.withHandle number (state.values.clone number) =
      state.recount number counted (number :: state.handles) := by
  unfold CountedValues.clone
  rw [h.find]
  exact h.withHandle

theorem Live.fromRef_eq (h : Live state number counted layout) :
    state.values.fromRef number =
      .ok (state.values.set number
        { counted with refs := { counted.refs with count := counted.refs.count + 1 } }) := by
  have hacquire : counted.refs.acquire =
      .ok { counted.refs with count := counted.refs.count + 1 } := by
    rw [RefCount.acquire, if_pos (by rw [RefCount.hasOwner, h.owner]; rfl)]
  unfold CountedValues.fromRef
  rw [h.find]
  dsimp only
  rw [hacquire]

theorem Live.follows_drop (h : Live state number counted layout)
    (hindex : state.handles[index]? = some number) :
    Follows type state (.handle index .drop) := by
  intro store
  have hact : state.act type (.handle index .drop) = (do
      let values ← state.values.drop type number
      pure (.nothing,
        { state with values := values, handles := state.handles.eraseIdx index })) := by
    simp only [act, hindex, actHandle]
  rw [hact]
  by_cases hlast : counted.refs.count = 1
  · have hending : ending number counted =
        [.destroy number {} counted.value, .free number counted.address layout] := by
      rw [ending, h.owner]
      rfl
    have hdestroy : (type.destroy {} counted.value).Does (Deed.Done type) store
        [.destroy number {} counted.value] () := ⟨_, rfl, .single rfl⟩
    obtain ⟨between, hdestroyed, hdone⟩ := hdestroy
    have hfree : (Allocator.deallocate counted.address layout).Does (Deed.Done type) between
        [.free number counted.address layout] () := ⟨_, rfl, .single rfl⟩
    have hdrop : (state.values.drop type number).Does (Deed.Done type) store
        (ending number counted) (state.values.dismiss number) := by
      have habandoned : counted.refs.abandoned = {} := by
        rw [RefCount.abandoned, hlast]
      have heq : state.values.drop type number = (do
          type.destroy {} counted.value
          Allocator.deallocate counted.address layout
          pure (state.values.dismiss number)) := by
        unfold CountedValues.drop
        simp only [h.find, hlast, ne_eq, not_true, if_false, habandoned, h.owner]
      rw [heq, hending]
      exact .bind hdestroyed hdone (hfree.bind_pure rfl)
    exact ⟨_, _, _, hdrop.bind_pure rfl, .ended hindex h.find (h.count.symm.trans hlast)⟩
  · have hmany : 1 < state.handles.count number := by
      have hpos := count_pos_of_getElem? hindex
      have hcount := h.count
      omega
    have hdrop : state.values.drop type number =
        pure (state.values.set number
          { counted with refs := { counted.refs with count := counted.refs.count - 1 } }) := by
      unfold CountedValues.drop
      simp only [h.find, if_pos hlast]
    have hnext : state.recount number counted (state.handles.eraseIdx index) =
        { state with
          values := state.values.set number
            { counted with refs := { counted.refs with count := counted.refs.count - 1 } }
          handles := state.handles.eraseIdx index } := by
      have hcount := count_eraseIdx hindex number
      rw [if_pos rfl] at hcount
      rw [IntrusiveState.recount, h.count, hcount, Nat.add_sub_cancel]
    rw [hdrop]
    refine ⟨[], _, _, ⟨store, rfl, .none⟩, ?_⟩
    rw [← hnext]
    exact .parted hindex h.find hmany

end Handle

theorem Sound.follows_handle (h : Sound type deeds state) (index : Nat) (deed : HandleDeed) :
    Follows type state (.handle index deed) := by
  cases hindex : state.handles[index]? with
  | none =>
    intro store
    refine ⟨[], .unavailable, state, ⟨store, ?_, .none⟩, .unavailable ?_⟩
    · simp only [act, hindex]
      rfl
    · simp only [offers, hindex, Option.isSome_none]
  | some number =>
    obtain ⟨counted, layout, hlive⟩ := h.live hindex
    cases deed with
    | drop => exact hlive.follows_drop hindex
    | clone =>
      intro store
      refine ⟨[], _, _, ⟨store, ?_, .none⟩, .joined hindex hlive.find (Or.inl rfl)⟩
      simp only [act, hindex, actHandle, hlive.clone_eq]
      rfl
    | fromRef =>
      intro store
      refine ⟨[], _, _, ⟨store, ?_, .none⟩, .joined hindex hlive.find (Or.inr rfl)⟩
      simp only [act, hindex, actHandle, hlive.fromRef_eq, hlive.withHandle]
      rfl
    | copyCount =>
      intro store
      refine ⟨[], _, _, ⟨store, ?_, .none⟩, .copied hindex⟩
      simp only [act, hindex, actHandle, hlive.find]
      rfl

theorem Sound.follows_strayed (h : Sound type deeds state) (index : Nat) (deed : StrayDeed) :
    Follows type state (.strayed index deed) := by
  intro store
  cases hindex : state.strays[index]? with
  | none =>
    refine ⟨[], .unavailable, state, ⟨store, ?_, .none⟩, .unavailable ?_⟩
    · simp only [act, hindex]
      rfl
    · simp only [offers, hindex, Option.isSome_none]
  | some refs =>
    obtain rfl := h.strays refs (List.mem_of_getElem? hindex)
    cases deed with
    | copyCount =>
      refine ⟨[], _, _, ⟨store, ?_, .none⟩, .copiedStray hindex⟩
      simp only [act, hindex]
      rfl
    | fromRef =>
      refine ⟨[], _, _, ⟨store, ?_, .none⟩, .unowned hindex⟩
      simp only [act, hindex]
      rfl

theorem Sound.follows (h : Sound type deeds state) (act : Act α) : Follows type state act := by
  cases act with
  | place value total => exact follows_place state value total
  | construct build unused => exact follows_construct state build unused
  | handle index deed => exact h.follows_handle index deed
  | strayed index deed => exact h.follows_strayed index deed
  | stray =>
    intro store
    exact ⟨[], _, _, ⟨store, rfl, .none⟩, .stray⟩

/-! ## Runs -/

theorem Sound.run_does (h : Sound type deeds state) (acts : List (Act α)) (store : Store) :
    ∃ more final, (state.run type acts).Does (Deed.Done type) store more final ∧
      Sound type (deeds ++ more) final := by
  induction acts generalizing deeds state store with
  | nil => exact ⟨[], state, .pure _ state store, by rwa [List.append_nil]⟩
  | cons act later ih =>
    obtain ⟨first, answer, next, ⟨between, hact, hdone⟩, hturn⟩ := h.follows act store
    obtain ⟨more, final, hrun, hsound⟩ := ih (h.turn hturn) between
    refine ⟨first ++ more, final, .bind hact hdone hrun, ?_⟩
    rw [← List.append_assoc]
    exact hsound

/-! ## The account -/

/-- The bytes after a value start where it ends, and end with the layout of its block. -/
structure Trails (type : CountedType α) (counted : Counted α) (layout : Layout) (block : Block) :
    Prop where
  start : (counted.trailing type).start = counted.address + type.layout.size
  size : (counted.trailing type).size = layout.size - type.layout.size
  stop : (counted.trailing type).stop = counted.address + layout.size
  inside : block.address ≤ (counted.trailing type).start ∧
    (counted.trailing type).stop ≤ block.address + block.size

/-- What holds of a state after these deeds, whatever comes next. -/
structure Accounted (type : CountedType α) (deeds : List (Deed α)) (state : IntrusiveState α) :
    Prop where
  /-- A value with handles is there, with as many on its count, and nothing has been done to
  end its life. -/
  alive : ∀ number ∈ state.handles, ∃ origin counted layout block,
    state.placed[number]? = some origin ∧ state.values.find? number = some counted ∧
      counted.refs = ⟨state.handles.count number, some layout⟩ ∧
      counted.value = origin.value ∧ deeds.filter (Deed.ends number) = [] ∧
      Housed type deeds counted layout block ∧ Trails type counted layout block
  /-- A value without handles is gone, and its life was ended once. -/
  gone : ∀ number origin, state.placed[number]? = some origin → number ∉ state.handles →
    state.values.find? number = none ∧ ∃ layout block,
      deeds.filter (Deed.ends number) =
        [.destroy number {} origin.value, .free number block.address layout] ∧
      Housed type deeds origin layout block
  /-- Destructors and values that no factory has placed have no owner to ask for. -/
  strays : ∀ refs ∈ state.strays, refs = {}
  unowned : RefCount.acquire {} = .error .noOwner
  follows : ∀ act, Follows type state act

theorem Housed.trails {origin : Counted α} {layout : Layout} {block : Block}
    (h : Housed type deeds origin layout block) : Trails type origin layout block := by
  have hroom := h.room
  have hcovered := h.covered
  have htrailing : origin.trailing type =
      ⟨origin.address + type.layout.size, layout.size - type.layout.size⟩ := by
    rw [Counted.trailing, h.owner]
    rfl
  constructor
  · rw [htrailing]
  · rw [htrailing]
  · rw [htrailing, Span.stop]
    dsimp only
    omega
  · rw [htrailing, Span.stop, h.address]
    dsimp only
    omega

theorem Sound.accounted (h : Sound type deeds state) : Accounted type deeds state where
  alive number hmem := by
    obtain ⟨origin, layout, hplaced, howner, hfind, hdone⟩ :=
      h.find_of_pos (List.count_pos_iff.2 hmem)
    obtain ⟨layout', block, hhoused⟩ := h.housed origin (List.mem_of_getElem? hplaced)
    obtain rfl : layout = layout' := Option.some.inj (howner.symm.trans hhoused.owner)
    have hhere : Housed type deeds
        { origin with refs := ⟨state.handles.count number, some layout⟩ } layout block :=
      { hhoused with owner := rfl }
    exact ⟨origin, _, layout, block, hplaced, hfind, rfl, rfl, hdone, hhere, hhere.trails⟩
  gone number origin hplaced hmem := by
    have hstanding := h.standing number
    obtain ⟨layout, block, hhoused⟩ := h.housed origin (List.mem_of_getElem? hplaced)
    rw [hplaced, List.count_eq_zero.2 hmem] at hstanding
    generalize state.values.find? number = found, deeds.filter (Deed.ends number) = done
      at hstanding ⊢
    cases hstanding with
    | alive howner hpos => exact absurd hpos (Nat.lt_irrefl 0)
    | gone howner =>
      refine ⟨rfl, layout, block, ?_, hhoused⟩
      rw [ending, hhoused.owner, ← hhoused.address]
      rfl
  strays := h.strays
  unowned := rfl
  follows := h.follows

/-- Whatever is done with handles of any number of counted values, the count of a value is
the number of its handles, and its life ends once, with the last of them. -/
theorem counting_accounted (type : CountedType α) (acts : List (Act α)) (store : Store) :
    ∃ deeds state, (run type {} acts).Does (Deed.Done type) store deeds state ∧
      Accounted type deeds state := by
  obtain ⟨deeds, state, hrun, hsound⟩ := (sound_initial type).run_does acts store
  exact ⟨deeds, state, hrun, hsound.accounted⟩

end IntrusiveState
end Freehold
