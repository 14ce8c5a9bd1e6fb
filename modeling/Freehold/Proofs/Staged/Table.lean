import Mathlib.Algebra.BigOperators.Group.List.Basic
import Mathlib.Tactic.Abel
import Freehold.Proofs.Staged.Machine

/-!
# Any number of wrappers

A table holds wrappers of all three kinds around values of one type.  They are asked in any
order, values are moved from one to another, taken out for good, and wrappers are dropped.
Whatever fails on the way, each act is a turn of the machine, and every value that was ever
built is in one wrapper, was handed out, was left in a static wrapper, or was destroyed
once.
-/

namespace Freehold
namespace Staged

variable {α : Type}

/-- The wrappers that there are, the values that were taken out of wrappers, and those that
were left in static wrappers when these were dropped. -/
structure Table (α : Type) where
  wrappers : List (Staged α) := []
  handed : List α := []
  abandoned : List α := []

/-- Wrappers are named by their position among those that there are. -/
inductive Act (α : Type) where
  | new (storage : Storage)
  | ask (index : Nat) (request : Request α)
  | takeFrom (target source : Nat)
  | drop (index : Nat)

namespace Table

/-- The storage of a wrapper whose value can be moved. -/
def cell? (table : Table α) (index : Nat) : Option (Cell α) :=
  match table.wrappers[index]? with
  | some (.inline cell) => some cell
  | _ => none

/-- Whether there are wrappers of the kind that the act needs. -/
def offers (table : Table α) : Act α → Bool
  | .new _ => true
  | .ask index request =>
    match table.wrappers[index]? with
    | none => false
    | some wrapper => Staged.offers wrapper.storage request
  | .takeFrom target source =>
    target ≠ source && (table.cell? target).isSome && (table.cell? source).isSome
  | .drop index => table.wrappers[index]?.isSome

def replace (table : Table α) (index : Nat) (wrapper : Staged α) : Table α :=
  { table with wrappers := table.wrappers.set index wrapper }

def remove (table : Table α) (index : Nat) : Table α :=
  { table with wrappers := table.wrappers.eraseIdx index }

def unchanged (table : Table α) : Effect (Answer α × Table α) := pure (.unavailable, table)

/-- What is not offered changes nothing. -/
def act (element : Element α) (phases : Phases α) (table : Table α) :
    Act α → Effect (Answer α × Table α)
  | .new storage =>
    pure (.nothing, { table with wrappers := table.wrappers ++ [Staged.empty storage] })
  | .ask index request =>
    match table.wrappers[index]? with
    | none => table.unchanged
    | some wrapper =>
      if Staged.offers wrapper.storage request then do
        let (answer, next) ← wrapper.ask element phases request
        pure (answer, { table.replace index next with handed := table.handed ++ answer.handed })
      else table.unchanged
  | .takeFrom target source =>
    match table.cell? target, table.cell? source with
    | some goal, some origin =>
      if target ≠ source then do
        let (goal, origin) ← goal.takeFrom element.destroy origin
        pure (.nothing, (table.replace target (.inline goal)).replace source (.inline origin))
      else table.unchanged
    | _, _ => table.unchanged
  | .drop index =>
    match table.wrappers[index]? with
    | none => table.unchanged
    | some wrapper => do
      wrapper.drop element
      let left := if wrapper.storage = .static then wrapper.content.toList else []
      pure (.nothing, { table.remove index with abandoned := table.abandoned ++ left })

def run (element : Element α) (phases : Phases α) (table : Table α) :
    List (Act α) → Effect (Table α)
  | [] => pure table
  | act :: later => do
    let (_, next) ← table.act element phases act
    next.run element phases later

/-! ## Turns of a table -/

/-- What an act does and answers, and what there is afterwards. -/
inductive Turns (layout : Layout) (table : Table α) :
    Act α → List (Deed α) → Answer α → Table α → Prop
  | unavailable {act : Act α} (hoffers : table.offers act = false) :
    Turns layout table act [] .unavailable table
  | new (storage : Storage) :
    Turns layout table (.new storage) [] .nothing
      { table with wrappers := table.wrappers ++ [Staged.empty storage] }
  | asked {index : Nat} {wrapper next : Staged α} {request : Request α} {deeds : List (Deed α)}
      {answer : Answer α} (hindex : table.wrappers[index]? = some wrapper)
      (hoffers : Staged.offers wrapper.storage request = true)
      (hturn : Turn layout wrapper wrapper.lodged? request deeds answer next.lodged?)
      (hstorage : next.storage = wrapper.storage) :
    Turns layout table (.ask index request) deeds answer
      { table.replace index next with handed := table.handed ++ answer.handed }
  /-- The value of the target is destroyed, and that of the source is moved there. -/
  | tookFrom {target source : Nat} {goal origin filled : Cell α}
      (htarget : table.cell? target = some goal) (hsource : table.cell? source = some origin)
      (hne : target ≠ source)
      (hfilled : filled.content = origin.content) :
    Turns layout table (.takeFrom target source) (givenUp layout (.inline goal)) .nothing
      ((table.replace target (.inline filled)).replace source (.inline {}))
  | dropped {index : Nat} {wrapper : Staged α} (hindex : table.wrappers[index]? = some wrapper)
      (hstorage : wrapper.storage ≠ .static) :
    Turns layout table (.drop index) (givenUp layout wrapper) .nothing (table.remove index)
  | left {index : Nat} {cell : Cell α} (hindex : table.wrappers[index]? = some (.static cell)) :
    Turns layout table (.drop index) [] .nothing
      { table.remove index with abandoned := table.abandoned ++ cell.content.toList }

/-- The flag of every wrapper tells the truth. -/
def Sound (table : Table α) : Prop := ∀ wrapper ∈ table.wrappers, wrapper.Sound

section Acts

variable {element : Element α} {phases : Phases α} {table : Table α}

/-- The act takes a turn of the table, and all flags are right afterwards. -/
def Follows (element : Element α) (phases : Phases α) (table : Table α) (act : Act α) : Prop :=
  ∀ store : Store, ∃ deeds answer, ∃ next : Table α,
    (table.act element phases act).Does (Deed.Done element phases) store deeds (answer, next) ∧
      Turns element.layout table act deeds answer next ∧ next.Sound

theorem Sound.replace (h : table.Sound) (index : Nat) {wrapper : Staged α}
    (hwrapper : wrapper.Sound) : (table.replace index wrapper).Sound := by
  intro other hmem
  rcases List.mem_or_eq_of_mem_set hmem with hold | rfl
  · exact h other hold
  · exact hwrapper

theorem Sound.remove (h : table.Sound) (index : Nat) : (table.remove index).Sound :=
  fun other hmem => h other (List.mem_of_mem_eraseIdx hmem)

theorem follows_unchanged (h : table.Sound) {act : Act α} (hoffers : table.offers act = false)
    (hact : table.act element phases act = table.unchanged) : Follows element phases table act := by
  intro store
  exact ⟨[], _, table, by rw [hact]; exact .pure _ _ store, .unavailable hoffers, h⟩

theorem follows_ask (h : table.Sound) (index : Nat) (request : Request α) :
    Follows element phases table (.ask index request) := by
  cases hindex : table.wrappers[index]? with
  | none => exact follows_unchanged h (by simp only [offers, hindex]) (by simp only [act, hindex])
  | some wrapper =>
    by_cases hoffers : Staged.offers wrapper.storage request = true
    · intro store
      have hsound : wrapper.Sound := h wrapper (List.mem_of_getElem? hindex)
      obtain ⟨deeds, answer, next, hask, hturn, hstorage, hnext⟩ :=
        ask_follows element phases hsound hoffers store
      refine ⟨deeds, answer, _, ?_, .asked hindex hoffers hturn hstorage, h.replace index hnext⟩
      simp only [act, hindex, if_pos hoffers]
      exact hask.bind_pure rfl
    · exact follows_unchanged h (by simpa [offers, hindex] using hoffers)
        (by simp only [act, hindex, if_neg hoffers])

theorem follows_drop (h : table.Sound) (index : Nat) :
    Follows element phases table (.drop index) := by
  cases hindex : table.wrappers[index]? with
  | none =>
    exact follows_unchanged h (by simp only [offers, hindex, Option.isSome_none])
      (by simp only [act, hindex])
  | some wrapper =>
    intro store
    have hsound : wrapper.Sound := h wrapper (List.mem_of_getElem? hindex)
    by_cases hstatic : wrapper.storage = .static
    · cases wrapper with
      | inline cell => cases hstatic
      | heap owner => cases hstatic
      | static cell =>
        refine ⟨[], _, _, ⟨store, ?_, .none⟩, .left hindex, h.remove index⟩
        simp only [act, hindex]
        rfl
    · have hclear := clear_does element phases hsound hstatic store
      have hdrop : (wrapper.drop element).Does (Deed.Done element phases) store
        (givenUp element.layout wrapper) () := hclear.bind_pure rfl
      refine ⟨_, _, _, ?_, .dropped hindex hstatic, h.remove index⟩
      simp only [act, hindex, if_neg hstatic, List.append_nil]
      exact hdrop.bind_pure rfl

/-- The value of the target goes before that of the source comes. -/
theorem takeFrom_does (element : Element α) (phases : Phases α) {goal origin : Cell α}
    (hgoal : (inline goal).Sound) (horigin : (inline origin).Sound) (store : Store) :
    ∃ filled, (goal.takeFrom element.destroy origin).Does (Deed.Done element phases) store
        (givenUp element.layout (inline goal)) (filled, {}) ∧
      filled.content = origin.content ∧ (inline filled).Sound := by
  have hclear := cell_clear_does element phases hgoal store
  unfold Cell.takeFrom
  rw [take_eq horigin]
  cases origin.content with
  | none => exact ⟨{}, hclear.bind_pure rfl, rfl, rfl⟩
  | some value => exact ⟨⟨some value, true⟩, hclear.bind_pure rfl, rfl, rfl⟩

theorem cell?_eq_some {index : Nat} {cell : Cell α} (h : table.cell? index = some cell) :
    table.wrappers[index]? = some (.inline cell) := by
  unfold cell? at h
  split at h
  · next hindex =>
    cases h
    exact hindex
  · cases h

theorem follows_takeFrom (h : table.Sound) (target source : Nat) :
    Follows element phases table (.takeFrom target source) := by
  cases htarget : table.cell? target with
  | none => exact follows_unchanged h (by simp [offers, htarget]) (by simp only [act, htarget])
  | some goal =>
    cases hsource : table.cell? source with
    | none =>
      exact follows_unchanged h (by simp [offers, hsource]) (by simp only [act, htarget, hsource])
    | some origin =>
      by_cases hne : target = source
      · subst hne
        exact follows_unchanged h (by simp [offers])
          (by simp only [act, htarget, ne_eq, not_true, if_false])
      · intro store
        have hgoal : (inline goal).Sound := h _ (List.mem_of_getElem? (cell?_eq_some htarget))
        have horigin : (inline origin).Sound := h _ (List.mem_of_getElem? (cell?_eq_some hsource))
        obtain ⟨filled, htake, hfilled, hsound⟩ :=
          takeFrom_does element phases hgoal horigin store
        refine ⟨_, _, _, ?_, .tookFrom htarget hsource hne hfilled, ?_⟩
        · simp only [act, htarget, hsource, if_pos hne]
          exact htake.bind_pure rfl
        · exact (h.replace target hsound).replace source rfl

theorem Sound.follows (h : table.Sound) (element : Element α) (phases : Phases α) (act : Act α) :
    Follows element phases table act := by
  cases act with
  | ask index request => exact follows_ask h index request
  | takeFrom target source => exact follows_takeFrom h target source
  | drop index => exact follows_drop h index
  | new storage =>
    intro store
    refine ⟨[], _, _, .pure _ _ store, .new storage, ?_⟩
    intro wrapper hmem
    rcases List.mem_append.1 hmem with hold | hnew
    · exact h wrapper hold
    · cases List.mem_singleton.1 hnew
      exact empty_sound storage

end Acts

/-! ## The balance of a table -/

def ownings (layout : Layout) (wrappers : List (Staged α)) : Multiset (Possession α) :=
  (wrappers.map fun wrapper => ownedBy layout wrapper.lodged?).sum

/-- What is neither in a wrapper nor destroyed. -/
def released (table : Table α) : Multiset (Possession α) :=
  ownedValues table.handed + ownedValues table.abandoned

/-- All that there is: in wrappers, handed out, or left behind. -/
def possessions (layout : Layout) (table : Table α) : Multiset (Possession α) :=
  ownings layout table.wrappers + table.released

section Possessions

variable {layout : Layout} {table : Table α} {index : Nat} {wrapper : Staged α}

theorem possessions_remove (h : table.wrappers[index]? = some wrapper) :
    table.possessions layout =
      ownedBy layout wrapper.lodged? + (table.remove index).possessions layout := by
  obtain ⟨hlt, rfl⟩ := List.getElem?_eq_some_iff.1 h
  have hperm := (List.getElem_cons_eraseIdx_perm hlt).map
    fun wrapper : Staged α => ownedBy layout wrapper.lodged?
  have hownings : ownings layout table.wrappers = ownedBy layout table.wrappers[index].lodged? +
    ownings layout (table.wrappers.eraseIdx index) := hperm.sum_eq.symm
  rw [possessions, hownings, add_assoc]
  rfl

theorem possessions_replace (h : table.wrappers[index]? = some wrapper) (next : Staged α) :
    (table.replace index next).possessions layout =
      ownedBy layout next.lodged? + (table.remove index).possessions layout := by
  obtain ⟨hlt, rfl⟩ := List.getElem?_eq_some_iff.1 h
  have hperm := (List.set_perm_cons_eraseIdx hlt next).map
    fun wrapper : Staged α => ownedBy layout wrapper.lodged?
  have hownings : ownings layout (table.wrappers.set index next) = ownedBy layout next.lodged? +
    ownings layout (table.wrappers.eraseIdx index) := hperm.sum_eq
  rw [possessions, replace, hownings, add_assoc]
  rfl

theorem ownedBy_inside (layout : Layout) (content : Option α) :
    ownedBy layout (content.map (Lodged.mk none)) = ownedValues content.toList := by
  cases content with
  | none => rfl
  | some value => rfl

theorem ownedValues_append (values more : List α) :
    ownedValues (values ++ more) = ownedValues values + ownedValues more := by
  simp [ownedValues]

theorem possessions_handed (layout : Layout) (table : Table α) (values : List α) :
    possessions layout { table with handed := table.handed ++ values } =
      ownedValues values + table.possessions layout := by
  simp only [possessions, released, ownedValues_append]
  abel

theorem possessions_abandoned (layout : Layout) (table : Table α) (values : List α) :
    possessions layout { table with abandoned := table.abandoned ++ values } =
      ownedValues values + table.possessions layout := by
  simp only [possessions, released, ownedValues_append]
  abel

theorem givenUp_balances (layout : Layout) (wrapper : Staged α) :
    Balances (ownedBy layout wrapper.lodged?) (givenUp layout wrapper) 0 := by
  unfold givenUp
  cases wrapper.lodged? with
  | none => exact .none
  | some lodged => exact lodged.giveUp_balances layout

/-- A value that is moved from one wrapper to an empty one is owned as before. -/
theorem possessions_move (layout : Layout) (table : Table α) {target source : Nat}
    {origin filled : Cell α} (hne : target ≠ source)
    (htarget : table.wrappers[target]? = some (.inline {}))
    (hsource : table.wrappers[source]? = some (.inline origin))
    (hfilled : filled.content = origin.content) :
    ((table.replace target (.inline filled)).replace source (.inline {})).possessions layout =
      table.possessions layout := by
  have hempty : (table.replace source (.inline {})).wrappers[target]? = some (.inline {}) := by
    simp only [replace, List.getElem?_set_ne hne.symm, htarget]
  have hswap : (table.replace target (.inline filled)).replace source (.inline {}) =
      (table.replace source (.inline {})).replace target (.inline filled) := by
    simp only [replace, List.set_comm _ _ hne]
  have hnothing : (table.replace source (.inline {})).possessions layout =
      (table.remove source).possessions layout := by
    rw [possessions_replace hsource]
    exact zero_add _
  have hrest : ((table.replace source (.inline {})).remove target).possessions layout =
      (table.remove source).possessions layout := by
    rw [← hnothing, possessions_remove hempty]
    exact (zero_add _).symm
  rw [hswap, possessions_replace hempty, hrest, possessions_remove hsource]
  simp only [lodged?, hfilled]

end Possessions

/-- Every act is balanced. -/
theorem Turns.balances {layout : Layout} {table next : Table α} {act : Act α}
    {deeds : List (Deed α)} {answer : Answer α} (h : Turns layout table act deeds answer next) :
    Balances (table.possessions layout) deeds (next.possessions layout) := by
  cases h with
  | unavailable => exact .none
  | new storage =>
    simp only [possessions, ownings, List.map_append, List.map_singleton, List.sum_append,
      List.sum_singleton, lodged?_empty, ownedBy, add_zero]
    exact .none
  | @asked index wrapper next request _ _ hindex _ hturn _ =>
    have hbalances := hturn.balances.frame ((table.remove index).possessions layout)
    rw [← possessions_remove hindex, add_comm (ownedBy _ _), add_assoc,
      ← possessions_replace hindex, ← possessions_handed] at hbalances
    exact hbalances
  | @tookFrom target source goal origin filled htarget hsource hne hfilled =>
    have hgoal := cell?_eq_some htarget
    have hcleared := (givenUp_balances layout (.inline goal)).frame
      ((table.remove target).possessions layout)
    rw [← possessions_remove hgoal] at hcleared
    have hempty : (table.replace target (.inline {})).possessions layout =
      0 + (table.remove target).possessions layout := possessions_replace hgoal (.inline {})
    have hlt : target < table.wrappers.length := (List.getElem?_eq_some_iff.1 hgoal).1
    have hmoved : ((table.replace target (.inline filled)).replace source (.inline {})).possessions
        layout = (table.replace target (.inline {})).possessions layout := by
      have hmove := possessions_move layout (table.replace target (.inline {})) hne
        (List.getElem?_set_self hlt)
        ((List.getElem?_set_ne hne).trans (cell?_eq_some hsource)) hfilled
      simpa only [replace, List.set_set] using hmove
    rw [hmoved, hempty]
    exact hcleared
  | @dropped index wrapper hindex hstorage =>
    have hbalances := (givenUp_balances layout wrapper).frame
      ((table.remove index).possessions layout)
    rw [zero_add, ← possessions_remove hindex] at hbalances
    exact hbalances
  | @left index cell hindex =>
    have hleft := possessions_abandoned layout (table.remove index) cell.content.toList
    rw [← ownedBy_inside layout] at hleft
    rw [possessions_remove hindex]
    exact hleft ▸ .none

/-! ## Runs -/

theorem Sound.run_balances {table : Table α} (h : table.Sound) (element : Element α)
    (phases : Phases α) (acts : List (Act α)) (store : Store) :
    ∃ deeds final, (table.run element phases acts).Does (Deed.Done element phases) store deeds
        final ∧
      Balances (table.possessions element.layout) deeds (final.possessions element.layout) ∧
      final.Sound := by
  induction acts generalizing table store with
  | nil => exact ⟨[], table, .pure _ table store, .none, h⟩
  | cons act later ih =>
    obtain ⟨deeds, answer, next, ⟨between, hact, hdone⟩, hturns, hnext⟩ :=
      h.follows element phases act store
    obtain ⟨others, final, hrun, hbalances, hfinal⟩ := ih hnext between
    exact ⟨deeds ++ others, final, .bind hact hdone hrun, hturns.balances.append hbalances,
      hfinal⟩

/-- What holds of the wrappers that there are after these deeds, whatever comes next. -/
structure Accounted (element : Element α) (phases : Phases α) (deeds : List (Deed α))
    (table : Table α) : Prop where
  /-- A wrapper is initialized when it holds a value whose initializer succeeded. -/
  initialized_iff : ∀ wrapper ∈ table.wrappers, wrapper.initialized = true ↔
    ∃ lodged, wrapper.lodged? = some lodged ∧ Balances.Completed deeds lodged.value
  /-- All that was built or allocated is there once, unless it was given up. -/
  balances : Balances 0 deeds (table.possessions element.layout)
  completed : ∀ value, .value value ∈ table.possessions element.layout →
    Balances.Completed deeds value
  follows : ∀ act, Follows element phases table act

theorem value_mem_possessions {layout : Layout} {table : Table α} {wrapper : Staged α}
    {lodged : Lodged α} (hmem : wrapper ∈ table.wrappers) (hheld : wrapper.lodged? = some lodged) :
    .value lodged.value ∈ table.possessions layout := by
  obtain ⟨index, hindex⟩ := List.getElem?_of_mem hmem
  rw [possessions_remove hindex, hheld]
  have hown : .value lodged.value ∈ lodged.possessions layout := by
    unfold Lodged.possessions
    cases lodged.home with
    | none => exact Multiset.mem_singleton_self _
    | some address => exact Multiset.mem_add.2 (Or.inl (Multiset.mem_singleton_self _))
  exact Multiset.mem_add.2 (Or.inl hown)

theorem Sound.accounted {element : Element α} {phases : Phases α} {table : Table α}
    {deeds : List (Deed α)} (h : table.Sound)
    (hbalances : Balances 0 deeds (table.possessions element.layout)) :
    table.Accounted element phases deeds := by
  refine ⟨?_, hbalances, fun value => hbalances.completed, h.follows element phases⟩
  intro wrapper hmem
  rw [h wrapper hmem, Option.isSome_iff_exists]
  constructor
  · rintro ⟨lodged, hheld⟩
    exact ⟨lodged, hheld, hbalances.completed (value_mem_possessions hmem hheld)⟩
  · rintro ⟨lodged, hheld, -⟩
    exact ⟨lodged, hheld⟩

/-- Whatever is done with wrappers of all kinds and whatever fails, each of them is the same
machine, and no value is lost or given up twice. -/
theorem wrappers_accounted (element : Element α) (phases : Phases α) (acts : List (Act α))
    (store : Store) :
    ∃ deeds table, (Table.run element phases {} acts).Does (Deed.Done element phases) store deeds
        table ∧
      table.Accounted element phases deeds := by
  have hinitial : ({} : Table α).Sound := fun wrapper hmem => by cases hmem
  obtain ⟨deeds, table, hdoes, hbalances, hsound⟩ :=
    hinitial.run_balances element phases acts store
  exact ⟨deeds, table, hdoes, hsound.accounted hbalances⟩

end Table
end Staged
end Freehold
