import Mathlib.Algebra.Order.Group.Multiset
import Freehold.Proofs.Deeds
import Freehold.Proofs.Placing.Strategies
import Freehold.Staged

/-!
# Wrappers as one machine

Whatever its storage is, a wrapper holds a value or none, and what it answers and does when
it is asked depends on that alone.  All that it ever does to the store is to ask for a
block, to build a value, to destroy one and to give a block back.  These deeds are
accounted for one by one: a value that is built is owned from then on, and only what is
owned can be destroyed or given back.
-/

namespace Freehold
namespace Staged

variable {α : Type}

/-! ## Deeds -/

/-- What is done on behalf of a wrapper, with what came of it. -/
inductive Deed (α : Type) where
  | allocate (layout : Layout) (answer : Except ErrorKind Block)
  /-- A shell is made and its initializer run; both give the value that was reached. -/
  | build (spot : Spot) (answer : Except ErrorKind Unit) (reached : α)
  /-- The user writes through the access that the wrapper gave. -/
  | change (before after : α)
  | destroy (value : α)
  | free (address : Nat) (layout : Layout)

/-- The deed done in one store leaves the other. -/
def Deed.Done (element : Element α) (phases : Phases α) (deed : Deed α) (before after : Store) :
    Prop :=
  match deed with
  | allocate layout answer => Allocator.allocate layout before = (answer, after)
  | build spot answer reached =>
    (phases.shell >>= phases.init spot) before = ((answer, reached), after)
  | change _ _ => after = before
  | destroy value => element.destroy value before = ((), after)
  | free address layout => Allocator.deallocate address layout before = ((), after)

/-! ## Possessions -/

/-- What can be owned: a value that was completed, a shell that was not, and a block. -/
inductive Possession (α : Type) where
  | shell (reached : α)
  | value (value : α)
  | block (address : Nat) (layout : Layout)

/-- What a deed takes, and what it gives for it. -/
inductive Deed.Trades : Deed α → Multiset (Possession α) → Multiset (Possession α) → Prop
  | granted (layout : Layout) (block : Block) :
    Trades (.allocate layout (.ok block)) 0 {.block block.address layout}
  | refused (layout : Layout) (kind : ErrorKind) : Trades (.allocate layout (.error kind)) 0 0
  | completed (spot : Spot) (value : α) : Trades (.build spot (.ok ()) value) 0 {.value value}
  | failed (spot : Spot) (kind : ErrorKind) (reached : α) :
    Trades (.build spot (.error kind) reached) 0 {.shell reached}
  | changed (before after : α) : Trades (.change before after) {.value before} {.value after}
  | destroyed (value : α) : Trades (.destroy value) {.value value} 0
  | discarded (reached : α) : Trades (.destroy reached) {.shell reached} 0
  | freed (address : Nat) (layout : Layout) :
    Trades (.free address layout) {.block address layout} 0

/-- How deeds turn what is owned into what is left, each from what is owned at its time. -/
inductive Balances (given : Multiset (Possession α)) :
    List (Deed α) → Multiset (Possession α) → Prop
  | none : Balances given [] given
  | next {deeds : List (Deed α)} {deed : Deed α} {taken got rest : Multiset (Possession α)}
      (hearlier : Balances given deeds (taken + rest)) (hdeed : deed.Trades taken got) :
    Balances given (deeds ++ [deed]) (got + rest)

namespace Balances

variable {given middle left : Multiset (Possession α)} {first second deeds : List (Deed α)}

theorem append (hfirst : Balances given first middle) (hsecond : Balances middle second left) :
    Balances given (first ++ second) left := by
  induction hsecond with
  | none => rwa [List.append_nil]
  | next _ hdeed ih =>
    rw [← List.append_assoc]
    exact .next ih hdeed

theorem frame (h : Balances given deeds left) (extra : Multiset (Possession α)) :
    Balances (given + extra) deeds (left + extra) := by
  induction h with
  | none => exact .none
  | next _ hdeed ih =>
    rw [add_assoc] at ih ⊢
    exact .next ih hdeed

theorem add {given' left' : Multiset (Possession α)} (hfirst : Balances given first left)
    (hsecond : Balances given' second left') :
    Balances (given + given') (first ++ second) (left + left') := by
  have hlater := hsecond.frame left
  rw [add_comm given' left, add_comm left' left] at hlater
  exact (hfirst.frame given').append hlater

theorem single {deed : Deed α} {taken got : Multiset (Possession α)} (h : deed.Trades taken got) :
    Balances taken [deed] got := by
  have hnone : Balances taken [] (taken + 0) := by
    rw [add_zero]
    exact .none
  have hnext := Balances.next hnone h
  rwa [add_zero] at hnext

/-- The value is one whose initializer succeeded, or what became of such a value under the
hands of its user. -/
inductive Completed (deeds : List (Deed α)) : α → Prop
  | built {spot : Spot} {value : α} (h : .build spot (.ok ()) value ∈ deeds) : Completed deeds value
  | changed {before after : α} (hbefore : Completed deeds before)
      (h : .change before after ∈ deeds) : Completed deeds after

theorem Completed.mono (hsubset : first ⊆ second) {value : α} (h : Completed first value) :
    Completed second value := by
  induction h with
  | built hmem => exact .built (hsubset hmem)
  | changed _ hmem ih => exact .changed ih (hsubset hmem)

/-- No half-built value passes for a completed one. -/
theorem completed (h : Balances 0 deeds left) {value : α} (hmem : .value value ∈ left) :
    Completed deeds value := by
  induction h generalizing value with
  | none => cases hmem
  | @next deeds deed taken got rest _ hdeed ih =>
    have hsubset : deeds ⊆ deeds ++ [deed] := List.subset_append_left deeds [deed]
    have hlast : deed ∈ deeds ++ [deed] := List.mem_append_right deeds List.mem_cons_self
    rcases Multiset.mem_add.1 hmem with hgot | hrest
    · cases hdeed with
      | completed spot built =>
        cases Multiset.mem_singleton.1 hgot
        exact .built hlast
      | changed before after =>
        cases Multiset.mem_singleton.1 hgot
        have hbefore : Possession.value before ∈ {Possession.value before} + rest := by simp
        exact .changed ((ih hbefore).mono hsubset) hlast
      | granted layout block => cases Multiset.mem_singleton.1 hgot
      | failed spot kind reached => cases Multiset.mem_singleton.1 hgot
      | refused | destroyed | discarded | freed => cases hgot
    · exact (ih (Multiset.mem_add.2 (Or.inr hrest))).mono hsubset

end Balances

/-! ## What a wrapper holds -/

/-- A value, with the block that it has for itself unless it is inside of its wrapper. -/
structure Lodged (α : Type) where
  home : Option Nat
  value : α

namespace Lodged

def possessions (layout : Layout) (lodged : Lodged α) : Multiset (Possession α) :=
  match lodged.home with
  | none => {.value lodged.value}
  | some address => {.value lodged.value} + {.block address layout}

/-- The value is destroyed before its block is given back. -/
def giveUp (layout : Layout) (lodged : Lodged α) : List (Deed α) :=
  match lodged.home with
  | none => [.destroy lodged.value]
  | some address => [.destroy lodged.value, .free address layout]

def change (change : α → α) (lodged : Lodged α) : Lodged α :=
  { lodged with value := change lodged.value }

theorem giveUp_balances (layout : Layout) (lodged : Lodged α) :
    Balances (lodged.possessions layout) (lodged.giveUp layout) 0 := by
  unfold possessions giveUp
  cases lodged.home with
  | none => exact .single (.destroyed lodged.value)
  | some address =>
    exact (Balances.single (.destroyed lodged.value)).add (.single (.freed address layout))

theorem change_balances (layout : Layout) (lodged : Lodged α) (change : α → α) :
    Balances (lodged.possessions layout) [.change lodged.value (change lodged.value)]
      ((lodged.change change).possessions layout) := by
  have hchange : Balances {.value lodged.value}
      [.change lodged.value (change lodged.value)] {.value (change lodged.value)} :=
    .single (.changed lodged.value (change lodged.value))
  unfold possessions Lodged.change
  cases lodged.home with
  | none => exact hchange
  | some address => exact hchange.frame {.block address layout}

end Lodged

def storage : Staged α → Storage
  | inline _ => .inline
  | heap _ => .heap
  | static _ => .static

def lodged? : Staged α → Option (Lodged α)
  | inline cell | static cell => cell.content.map (Lodged.mk none)
  | heap owner => owner.map fun owner => ⟨some owner.address, owner.value⟩

/-- The flag of the wrapper tells the truth about its storage. -/
def Sound (wrapper : Staged α) : Prop := wrapper.initialized = wrapper.lodged?.isSome

/-! ## Requests and answers -/

/-- What can be asked of a wrapper.  Who asks for access to change the value then does
change it. -/
inductive Request (α : Type) where
  | init (spot : Spot)
  | get
  | getMut (change : α → α)
  | tryGet
  | tryGetMut (change : α → α)
  | clear
  | take

/-- Values on the heap are not moved out; a static wrapper gives no access to change its
value and never loses it. -/
def offers : Storage → Request α → Bool
  | .inline, _ => true
  | .heap, .take => false
  | .heap, _ => true
  | .static, .init _ | .static, .get | .static, .tryGet => true
  | .static, _ => false

inductive Answer (α : Type) where
  | unavailable
  | nothing
  | completed (answer : Except ErrorKind Unit)
  /-- The value that access was given to. -/
  | checked (answer : Except Trap (Option α))
  | tried (answer : Except ErrorKind (Option α))
  | taken (value : Option α)

def Answer.handed : Answer α → List α
  | taken value => value.toList
  | _ => []

/-- The wrapper is asked, and stays as it is when it is not completed. -/
def ask (element : Element α) (phases : Phases α) (wrapper : Staged α) :
    Request α → Effect (Answer α × Staged α)
  | .init spot => do
    match ← (wrapper.init element phases spot).run with
    | .ok wrapper => pure (.completed (.ok ()), wrapper)
    | .error kind => pure (.completed (.error kind), wrapper)
  | .get => pure (.checked wrapper.get, wrapper)
  | .getMut change =>
    match wrapper.update change with
    | .ok changed => pure (.checked (.ok wrapper.content), changed)
    | .error trap => pure (.checked (.error trap), wrapper)
  | .tryGet => pure (.tried wrapper.tryGet, wrapper)
  | .tryGetMut change =>
    match wrapper.tryUpdate change with
    | .ok changed => pure (.tried (.ok wrapper.content), changed)
    | .error kind => pure (.tried (.error kind), wrapper)
  | .clear => do
    let cleared ← wrapper.clear element
    pure (.nothing, cleared)
  | .take => pure (.taken wrapper.take.1, wrapper.take.2)

/-! ## The machine -/

/-- The turns of the machine: what a wrapper that holds a value or none does and answers
when it is asked, and what it holds then.  The wrapper itself only says where it stores its
value and in which words it traps. -/
inductive Turn (layout : Layout) (wrapper : Staged α) :
    Option (Lodged α) → Request α → List (Deed α) → Answer α → Option (Lodged α) → Prop
  | again (lodged : Lodged α) (spot : Spot) :
    Turn layout wrapper (some lodged) (.init spot) [] (.completed (.ok ())) (some lodged)
  | completed (hstorage : wrapper.storage ≠ .heap) (spot : Spot) (value : α) :
    Turn layout wrapper none (.init spot) [.build spot (.ok ()) value] (.completed (.ok ()))
      (some ⟨none, value⟩)
  | failed (hstorage : wrapper.storage ≠ .heap) (spot : Spot) (kind : ErrorKind) (shell : α) :
    Turn layout wrapper none (.init spot) [.build spot (.error kind) shell, .destroy shell]
      (.completed (.error kind)) none
  | refused (hstorage : wrapper.storage = .heap) (spot : Spot) (kind : ErrorKind) :
    Turn layout wrapper none (.init spot) [.allocate layout (.error kind)]
      (.completed (.error kind)) none
  | completedApart (hstorage : wrapper.storage = .heap) (spot : Spot) (block : Block) (value : α) :
    Turn layout wrapper none (.init spot)
      [.allocate layout (.ok block), .build (.block block.address) (.ok ()) value]
      (.completed (.ok ())) (some ⟨some block.address, value⟩)
  | failedApart (hstorage : wrapper.storage = .heap) (spot : Spot) (block : Block)
      (kind : ErrorKind) (shell : α) :
    Turn layout wrapper none (.init spot)
      [.allocate layout (.ok block), .build (.block block.address) (.error kind) shell,
        .destroy shell, .free block.address layout]
      (.completed (.error kind)) none
  | get (lodged : Lodged α) :
    Turn layout wrapper (some lodged) .get [] (.checked (.ok (some lodged.value))) (some lodged)
  | getTraps :
    Turn layout wrapper none .get []
      (.checked (.error (wrapper.premature wrapper.readingCondition))) none
  | getMut (lodged : Lodged α) (change : α → α) :
    Turn layout wrapper (some lodged) (.getMut change)
      [.change lodged.value (change lodged.value)] (.checked (.ok (some lodged.value)))
      (some (lodged.change change))
  | getMutTraps (change : α → α) :
    Turn layout wrapper none (.getMut change) []
      (.checked (.error (wrapper.premature wrapper.writingCondition))) none
  | tryGet (lodged : Lodged α) :
    Turn layout wrapper (some lodged) .tryGet [] (.tried (.ok (some lodged.value))) (some lodged)
  | tryGetFails : Turn layout wrapper none .tryGet [] (.tried (.error .notInitialized)) none
  | tryGetMut (lodged : Lodged α) (change : α → α) :
    Turn layout wrapper (some lodged) (.tryGetMut change)
      [.change lodged.value (change lodged.value)] (.tried (.ok (some lodged.value)))
      (some (lodged.change change))
  | tryGetMutFails (change : α → α) :
    Turn layout wrapper none (.tryGetMut change) [] (.tried (.error .notInitialized)) none
  | clear (lodged : Lodged α) :
    Turn layout wrapper (some lodged) .clear (lodged.giveUp layout) .nothing none
  | clearNothing : Turn layout wrapper none .clear [] .nothing none
  | take (value : α) :
    Turn layout wrapper (some ⟨none, value⟩) .take [] (.taken (some value)) none
  | takeNothing : Turn layout wrapper none .take [] (.taken none) none

/-- What a wrapper that holds a value or none owns. -/
def ownedBy (layout : Layout) : Option (Lodged α) → Multiset (Possession α)
  | none => 0
  | some lodged => lodged.possessions layout

def ownedValues (values : List α) : Multiset (Possession α) := (values.map Possession.value : _)

theorem Balances.keeping {given left : Multiset (Possession α)} {deeds : List (Deed α)}
    (h : Balances given deeds left) : Balances given deeds (left + ownedValues []) := by
  show Balances given deeds (left + 0)
  rwa [add_zero]

/-- Every turn is balanced: what was owned is held, handed over or given up. -/
theorem Turn.balances {layout : Layout} {wrapper : Staged α} {held next : Option (Lodged α)}
    {request : Request α} {deeds : List (Deed α)} {answer : Answer α}
    (h : Turn layout wrapper held request deeds answer next) :
    Balances (ownedBy layout held) deeds (ownedBy layout next + ownedValues answer.handed) := by
  cases h with
  | again | get | getTraps | getMutTraps | tryGet | tryGetFails | tryGetMutFails
  | clearNothing | takeNothing => exact Balances.none.keeping
  | completed hstorage spot value => exact (Balances.single (.completed spot value)).keeping
  | failed hstorage spot kind shell =>
    exact ((Balances.single (.failed spot kind shell)).append (.single (.discarded shell))).keeping
  | refused hstorage spot kind => exact (Balances.single (.refused layout kind)).keeping
  | completedApart hstorage spot block value =>
    have hboth : Balances (0 + 0)
        [.allocate layout (.ok block), .build (.block block.address) (.ok ()) value]
        ({.block block.address layout} + {.value value}) :=
      (Balances.single (.granted layout block)).add (.single (.completed _ value))
    rw [add_zero, add_comm] at hboth
    exact hboth.keeping
  | failedApart hstorage spot block kind shell =>
    have hbuilt : Balances (0 + {.block block.address layout})
        [.build (.block block.address) (.error kind) shell, .destroy shell]
        (0 + {.block block.address layout}) :=
      ((Balances.single (.failed _ kind shell)).append (.single (.discarded shell))).frame _
    rw [zero_add] at hbuilt
    have hundone := hbuilt.append (.single (.freed block.address layout))
    exact ((Balances.single (.granted layout block)).append hundone).keeping
  | getMut lodged change | tryGetMut lodged change =>
    exact (lodged.change_balances layout change).keeping
  | clear lodged => exact (lodged.giveUp_balances layout).keeping
  | take value => exact .none

/-! ## Wrappers take the turns of the machine -/

section Asking

variable {element : Element α} {phases : Phases α} {store : Store}

/-- The wrapper takes the turn of the machine, and its flag is right afterwards. -/
def Follows (element : Element α) (phases : Phases α) (wrapper : Staged α)
    (request : Request α) : Prop :=
  ∀ store : Store, ∃ deeds answer, ∃ next : Staged α,
    (wrapper.ask element phases request).Does (Deed.Done element phases) store deeds
        (answer, next) ∧
      Turn element.layout wrapper wrapper.lodged? request deeds answer next.lodged? ∧
      next.storage = wrapper.storage ∧ next.Sound

theorem allocate_does (element : Element α) (phases : Phases α) (store : Store) :
    ∃ answer, (Allocator.allocate element.layout).Does (Deed.Done element phases) store
      [.allocate element.layout answer] answer :=
  ⟨_, _, rfl, .single rfl⟩

theorem free_does (element : Element α) (phases : Phases α) (address : Nat) (store : Store) :
    (Allocator.deallocate address element.layout).Does (Deed.Done element phases) store
      [.free address element.layout] () :=
  ⟨_, rfl, .single rfl⟩

theorem destroy_does (element : Element α) (phases : Phases α) (value : α) (store : Store) :
    (element.destroy value).Does (Deed.Done element phases) store [.destroy value] () :=
  ⟨_, rfl, .single rfl⟩

/-- Building comes about, or else what was reached is destroyed. -/
theorem run_does (element : Element α) (phases : Phases α) (spot : Spot) (store : Store) :
    (∃ value, (phases.run element.toMovable spot).Does (Deed.Done element phases) store
      [.build spot (.ok ()) value] (.ok value)) ∨
    ∃ kind shell, (phases.run element.toMovable spot).Does (Deed.Done element phases) store
      [.build spot (.error kind) shell, .destroy shell] (.error kind) := by
  have hrun := Phases.run_apply element.toMovable phases spot store
  cases hbuild : (phases.shell >>= phases.init spot) store with
  | mk built between =>
    obtain ⟨answer, reached⟩ := built
    rw [hbuild] at hrun
    have hbuilt : Deed.Done element phases (.build spot answer reached) store between := hbuild
    cases answer with
    | ok done => exact Or.inl ⟨reached, between, hrun, .single hbuilt⟩
    | error kind =>
      obtain ⟨after, hdestroy, hdone⟩ := destroy_does element phases reached between
      dsimp only at hrun
      rw [hdestroy] at hrun
      exact Or.inr ⟨kind, reached, after, hrun, (AllDone.single hbuilt).append hdone⟩

/-- With a block, building comes about in it, or else the block is given back at last. -/
theorem place_does (element : Element α) (phases : Phases α) (store : Store) :
    (∃ kind, (Unique.place element (phases.run element.toMovable)).Does
      (Deed.Done element phases) store [.allocate element.layout (.error kind)] (.error kind)) ∨
    (∃ block value, (Unique.place element (phases.run element.toMovable)).Does
      (Deed.Done element phases) store
      [.allocate element.layout (.ok block), .build (.block block.address) (.ok ()) value]
      (.ok ⟨block.address, value⟩)) ∨
    ∃ block kind shell, (Unique.place element (phases.run element.toMovable)).Does
      (Deed.Done element phases) store
      [.allocate element.layout (.ok block), .build (.block block.address) (.error kind) shell,
        .destroy shell, .free block.address element.layout]
      (.error kind) := by
  obtain ⟨answer, hallocate⟩ := allocate_does element phases store
  cases answer with
  | error kind =>
    have hrefused := hallocate.undone fun between => .pure (Deed.Done element phases) () between
    exact Or.inl ⟨kind, hrefused.bind_error _⟩
  | ok block =>
    obtain ⟨between, hgranted, hdone⟩ := hallocate.undoing (pure ())
    rcases run_does element phases (.block block.address) between with
      ⟨value, hbuild⟩ | ⟨kind, shell, hbuild⟩
    · have hplaced := (hbuild.undoing (Allocator.deallocate block.address element.layout)).map
        fun value => Unique.mk block.address value
      exact Or.inr (Or.inl ⟨block, value, .bind hgranted hdone hplaced⟩)
    · have hundone := hbuild.undone (free_does element phases block.address)
      exact Or.inr (Or.inr ⟨block, kind, shell, .bind hgranted hdone (hundone.bind_error _)⟩)

/-- Inside of a wrapper, the flag is set once the initializer has succeeded. -/
theorem cell_init_does (element : Element α) (phases : Phases α) {cell : Cell α}
    (h : cell.initialized = false) (spot : Spot) (store : Store) :
    (∃ value, (cell.init element.toMovable phases spot).Does (Deed.Done element phases) store
      [.build spot (.ok ()) value] (.ok ⟨some value, true⟩)) ∨
    ∃ kind shell, (cell.init element.toMovable phases spot).Does (Deed.Done element phases) store
      [.build spot (.error kind) shell, .destroy shell] (.error kind) := by
  have hinit : cell.init element.toMovable phases spot =
      phases.run element.toMovable spot >>= fun value => pure ⟨some value, true⟩ := by
    rw [Cell.init, if_neg (by simp [h])]
  rw [hinit]
  rcases run_does element phases spot store with ⟨value, hrun⟩ | ⟨kind, shell, hrun⟩
  · exact Or.inl ⟨value, hrun.map fun value => Cell.mk (some value) true⟩
  · exact Or.inr ⟨kind, shell, hrun.bind_error _⟩

section Init

variable {β : Type} {made : Attempt β} {wrap : β → Staged α} {wrapper : Staged α} {spot : Spot}
  {deeds : List (Deed α)}

theorem does_ask_init {result : β}
    (h : made.Does (Deed.Done element phases) store deeds (.ok result))
    (hinit : wrapper.init element phases spot = made >>= fun made => pure (wrap made)) :
    (wrapper.ask element phases (.init spot)).Does (Deed.Done element phases) store deeds
      (.completed (.ok ()), wrap result) := by
  have hcompleted := h.map wrap
  rw [← hinit] at hcompleted
  exact hcompleted.bind_pure rfl

/-- A wrapper that is not completed stays as it is. -/
theorem does_ask_init_error {kind : ErrorKind}
    (h : made.Does (Deed.Done element phases) store deeds (.error kind))
    (hinit : wrapper.init element phases spot = made >>= fun made => pure (wrap made)) :
    (wrapper.ask element phases (.init spot)).Does (Deed.Done element phases) store deeds
      (.completed (.error kind), wrapper) := by
  have hfailed := h.bind_error fun made => pure (wrap made)
  rw [← hinit] at hfailed
  exact hfailed.bind_pure rfl

end Init

/-- A kind of wrapper that has its value inside of itself. -/
structure Inside (wrap : Cell α → Staged α) : Prop where
  init : ∀ (element : Element α) (phases : Phases α) (spot : Spot) (cell : Cell α),
    (wrap cell).init element phases spot =
      cell.init element.toMovable phases spot >>= fun cell => pure (wrap cell)
  initialized : ∀ cell, (wrap cell).initialized = cell.initialized
  content : ∀ cell, (wrap cell).lodged? = cell.content.map (Lodged.mk none)
  storage : ∀ cell cell', (wrap cell).storage = (wrap cell').storage
  notHeap : ∀ cell, (wrap cell).storage ≠ .heap

theorem inside_inline : Inside (inline (α := α)) :=
  ⟨fun _ _ _ _ => rfl, fun _ => rfl, fun _ => rfl, fun _ _ => rfl, fun _ h => by cases h⟩

theorem inside_static : Inside (static (α := α)) :=
  ⟨fun _ _ _ _ => rfl, fun _ => rfl, fun _ => rfl, fun _ _ => rfl, fun _ h => by cases h⟩

theorem Inside.follows_init {wrap : Cell α → Staged α} (hinside : Inside wrap) {cell : Cell α}
    (h : (wrap cell).Sound) (spot : Spot) : Follows element phases (wrap cell) (.init spot) := by
  intro store
  have hheld := hinside.content cell
  have hflag : cell.initialized = cell.content.isSome := by
    rw [Sound, hinside.initialized, hheld, Option.isSome_map] at h
    exact h
  cases hcontent : cell.content with
  | some value =>
    have hagain : cell.init element.toMovable phases spot = pure cell := by
      rw [Cell.init, hflag, hcontent]
      rfl
    have hdoes : (cell.init element.toMovable phases spot).Does (Deed.Done element phases) store []
        (.ok cell) := by
      rw [hagain]
      exact .pure _ cell store
    refine ⟨_, _, _, does_ask_init hdoes (hinside.init _ _ _ _), ?_, rfl, h⟩
    rw [hheld, hcontent]
    exact .again ⟨none, value⟩ spot
  | none =>
    have hclear : cell.initialized = false := by
      rw [hflag, hcontent]
      rfl
    rw [hcontent] at hheld
    rcases cell_init_does element phases hclear spot store with
      ⟨value, hdoes⟩ | ⟨kind, shell, hdoes⟩
    · refine ⟨_, _, _, does_ask_init hdoes (hinside.init _ _ _ _), ?_, hinside.storage _ _, ?_⟩
      · rw [hheld, hinside.content]
        exact .completed (hinside.notHeap _) spot value
      · rw [Sound, hinside.initialized, hinside.content]
        rfl
    · refine ⟨_, _, _, does_ask_init_error hdoes (hinside.init _ _ _ _), ?_, rfl, h⟩
      rw [hheld]
      exact .failed (hinside.notHeap _) spot kind shell

theorem follows_init {wrapper : Staged α} (h : wrapper.Sound) (spot : Spot) :
    Follows element phases wrapper (.init spot) := by
  cases wrapper with
  | inline cell => exact inside_inline.follows_init h spot
  | static cell => exact inside_static.follows_init h spot
  | heap owner =>
    intro store
    cases owner with
    | some owner =>
      exact ⟨[], _, heap (some owner), ⟨store, rfl, .none⟩, .again _ spot, rfl, rfl⟩
    | none =>
      have hinit : (heap none).init element phases spot =
          Unique.place element (phases.run element.toMovable) >>= fun owner =>
            pure (heap (some owner)) := rfl
      rcases place_does element phases store with
        ⟨kind, hdoes⟩ | ⟨block, value, hdoes⟩ | ⟨block, kind, shell, hdoes⟩
      · exact ⟨_, _, _, does_ask_init_error hdoes hinit, .refused rfl spot kind, rfl, rfl⟩
      · exact ⟨_, _, _, does_ask_init hdoes hinit, .completedApart rfl spot block value, rfl, rfl⟩
      · exact ⟨_, _, _, does_ask_init_error hdoes hinit, .failedApart rfl spot block kind shell,
          rfl, rfl⟩

/-! ## Access -/

theorem lodged?_modify (change : α → α) (wrapper : Staged α) :
    (wrapper.modify change).lodged? = wrapper.lodged?.map (Lodged.change change) := by
  cases wrapper with
  | inline cell | static cell =>
    simp only [modify, Cell.modify, lodged?, Option.map_map]
    rfl
  | heap owner =>
    simp only [modify, lodged?, Option.map_map]
    rfl

theorem content_eq (wrapper : Staged α) : wrapper.content = wrapper.lodged?.map Lodged.value := by
  cases wrapper with
  | inline cell | static cell =>
    simp only [content, lodged?, Option.map_map]
    exact Option.map_id'.symm
  | heap owner =>
    simp only [content, lodged?, Option.map_map]
    rfl

theorem storage_modify (change : α → α) (wrapper : Staged α) :
    (wrapper.modify change).storage = wrapper.storage := by
  cases wrapper with
  | inline cell | static cell | heap owner => rfl

theorem Sound.modify {wrapper : Staged α} (h : wrapper.Sound) (change : α → α) :
    (wrapper.modify change).Sound := by
  rw [Sound, lodged?_modify, Option.isSome_map, ← h]
  cases wrapper with
  | inline cell | static cell => rfl
  | heap owner => exact Option.isSome_map

/-- A request that does nothing to the store. -/
theorem follows_access {wrapper : Staged α} {request : Request α} {deeds : List (Deed α)}
    {answer : Answer α} {next : Staged α}
    (hask : wrapper.ask element phases request = pure (answer, next))
    (hdeeds : ∀ store, AllDone (Deed.Done element phases) store deeds store)
    (hturn : Turn element.layout wrapper wrapper.lodged? request deeds answer next.lodged?)
    (hstorage : next.storage = wrapper.storage) (hsound : next.Sound) :
    Follows element phases wrapper request := by
  intro store
  exact ⟨deeds, answer, next, ⟨store, by rw [hask]; rfl, hdeeds store⟩, hturn, hstorage, hsound⟩

theorem allDone_change (element : Element α) (phases : Phases α) (before after : α)
    (store : Store) : AllDone (Deed.Done element phases) store [.change before after] store :=
  .single rfl

theorem follows_get {wrapper : Staged α} (h : wrapper.Sound) :
    Follows element phases wrapper .get := by
  cases hheld : wrapper.lodged? with
  | none =>
    have hget : wrapper.get = .error (wrapper.premature wrapper.readingCondition) := by
      rw [get, h, hheld]
      rfl
    apply follows_access (by rw [ask, hget]) (fun _ => .none) _ rfl h
    rw [hheld]
    exact .getTraps
  | some lodged =>
    have hget : wrapper.get = .ok (some lodged.value) := by
      rw [get, h, content_eq, hheld]
      rfl
    apply follows_access (by rw [ask, hget]) (fun _ => .none) _ rfl h
    rw [hheld]
    exact .get lodged

theorem follows_getMut {wrapper : Staged α} (h : wrapper.Sound) (change : α → α) :
    Follows element phases wrapper (.getMut change) := by
  cases hheld : wrapper.lodged? with
  | none =>
    have hupdate : wrapper.update change =
        .error (wrapper.premature wrapper.writingCondition) := by
      rw [update, h, hheld]
      rfl
    apply follows_access (by rw [ask, hupdate]) (fun _ => .none) _ rfl h
    rw [hheld]
    exact .getMutTraps change
  | some lodged =>
    have hupdate : wrapper.update change = .ok (wrapper.modify change) := by
      rw [update, h, hheld]
      rfl
    refine follows_access (by rw [ask, hupdate, content_eq, hheld])
      (allDone_change element phases lodged.value (change lodged.value)) ?_
      (storage_modify change wrapper) (h.modify change)
    rw [lodged?_modify, hheld]
    exact .getMut lodged change

theorem follows_tryGet {wrapper : Staged α} (h : wrapper.Sound) :
    Follows element phases wrapper .tryGet := by
  cases hheld : wrapper.lodged? with
  | none =>
    have hget : wrapper.tryGet = .error .notInitialized := by
      rw [tryGet, h, hheld]
      rfl
    apply follows_access (by rw [ask, hget]) (fun _ => .none) _ rfl h
    rw [hheld]
    exact .tryGetFails
  | some lodged =>
    have hget : wrapper.tryGet = .ok (some lodged.value) := by
      rw [tryGet, h, content_eq, hheld]
      rfl
    apply follows_access (by rw [ask, hget]) (fun _ => .none) _ rfl h
    rw [hheld]
    exact .tryGet lodged

theorem follows_tryGetMut {wrapper : Staged α} (h : wrapper.Sound) (change : α → α) :
    Follows element phases wrapper (.tryGetMut change) := by
  cases hheld : wrapper.lodged? with
  | none =>
    have hupdate : wrapper.tryUpdate change = .error .notInitialized := by
      rw [tryUpdate, h, hheld]
      rfl
    apply follows_access (by rw [ask, hupdate]) (fun _ => .none) _ rfl h
    rw [hheld]
    exact .tryGetMutFails change
  | some lodged =>
    have hupdate : wrapper.tryUpdate change = .ok (wrapper.modify change) := by
      rw [tryUpdate, h, hheld]
      rfl
    refine follows_access (by rw [ask, hupdate, content_eq, hheld])
      (allDone_change element phases lodged.value (change lodged.value)) ?_
      (storage_modify change wrapper) (h.modify change)
    rw [lodged?_modify, hheld]
    exact .tryGetMut lodged change

/-! ## Giving values up -/

theorem Sound.inline_flag {cell : Cell α} (h : (inline cell).Sound) :
    cell.initialized = cell.content.isSome := by
  rw [Sound, lodged?, Option.isSome_map] at h
  exact h

/-- What is done when the value in a wrapper goes, if there is one. -/
def givenUp (layout : Layout) (wrapper : Staged α) : List (Deed α) :=
  (wrapper.lodged?.map (Lodged.giveUp layout)).getD []

theorem cell_clear_does (element : Element α) (phases : Phases α) {cell : Cell α}
    (h : (inline cell).Sound) (store : Store) :
    (cell.clear element.destroy).Does (Deed.Done element phases) store
      (givenUp element.layout (inline cell)) {} := by
  obtain ⟨content, flag⟩ := cell
  obtain rfl : flag = content.isSome := h.inline_flag
  cases content with
  | none => exact .pure _ (Cell.mk none false) store
  | some value => exact (destroy_does element phases value store).bind_pure rfl

/-- What a wrapper other than a static one gives up is destroyed, and its block returned. -/
theorem clear_does (element : Element α) (phases : Phases α) {wrapper : Staged α}
    (h : wrapper.Sound) (hstorage : wrapper.storage ≠ .static) (store : Store) :
    (wrapper.clear element).Does (Deed.Done element phases) store (givenUp element.layout wrapper)
      (empty wrapper.storage) := by
  cases wrapper with
  | static cell => exact absurd rfl hstorage
  | inline cell => exact (cell_clear_does element phases h store).bind_pure rfl
  | heap owner =>
    cases owner with
    | none => exact .pure _ (heap none) store
    | some owner =>
      obtain ⟨between, hdestroy, hdone⟩ := destroy_does element phases owner.value store
      have hdrop : (owner.drop element).Does (Deed.Done element phases) store
          [.destroy owner.value, .free owner.address element.layout] () :=
        .bind hdestroy hdone (free_does element phases owner.address between)
      exact hdrop.bind_pure rfl

theorem empty_sound (storage : Storage) : (empty storage : Staged α).Sound := by
  cases storage with
  | inline | heap | static => rfl

theorem lodged?_empty (storage : Storage) : (empty storage : Staged α).lodged? = none := by
  cases storage with
  | inline | heap | static => rfl

theorem storage_empty (storage : Storage) : (empty storage : Staged α).storage = storage := by
  cases storage with
  | inline | heap | static => rfl

theorem follows_clear {wrapper : Staged α} (h : wrapper.Sound)
    (hstorage : wrapper.storage ≠ .static) : Follows element phases wrapper .clear := by
  intro store
  refine ⟨_, .nothing, empty wrapper.storage,
    (clear_does element phases h hstorage store).bind_pure rfl, ?_, storage_empty _, empty_sound _⟩
  rw [lodged?_empty, givenUp]
  cases wrapper.lodged? with
  | none => exact .clearNothing
  | some lodged => exact .clear lodged

theorem take_eq {cell : Cell α} (h : (inline cell).Sound) : cell.take = (cell.content, {}) := by
  obtain ⟨content, flag⟩ := cell
  obtain rfl : flag = content.isSome := h.inline_flag
  cases content with
  | none => rfl
  | some value => rfl

theorem follows_take {cell : Cell α} (h : (inline cell).Sound) :
    Follows element phases (inline cell) .take := by
  have hask : (inline cell).ask element phases .take =
      pure (.taken cell.content, inline {}) := by
    rw [ask, take, take_eq h]
  have hturn : Turn element.layout (inline cell) (cell.content.map (Lodged.mk none)) .take []
      (.taken cell.content) none := by
    cases cell.content with
    | none => exact .takeNothing
    | some value => exact .take value
  exact follows_access hask (fun _ => .none) hturn rfl rfl

theorem ask_follows (element : Element α) (phases : Phases α) {wrapper : Staged α}
    (h : wrapper.Sound) {request : Request α}
    (hoffers : offers wrapper.storage request = true) : Follows element phases wrapper request := by
  cases request with
  | init spot => exact follows_init h spot
  | get => exact follows_get h
  | getMut change => exact follows_getMut h change
  | tryGet => exact follows_tryGet h
  | tryGetMut change => exact follows_tryGetMut h change
  | clear =>
    apply follows_clear h
    intro hstatic
    rw [hstatic] at hoffers
    cases hoffers
  | take =>
    cases wrapper with
    | inline cell => exact follows_take h
    | heap owner => cases hoffers
    | static cell => cases hoffers

end Asking

end Staged
end Freehold
