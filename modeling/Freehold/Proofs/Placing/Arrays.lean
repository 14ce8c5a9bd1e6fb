import Freehold.Element.Catalogue
import Freehold.FixedArray
import Freehold.Proofs.Deeds
import Freehold.Proofs.Nest.OwnedAssets

/-!
# Arrays are built whole or not at all

Building an array asks for one block and then builds the elements one by one.  The course of
such a call is a list of deeds, and there are five of them: no elements are asked for, there
is no layout for so many, the block is refused, an element cannot be built, or all of them
are.  When an element cannot be built, what was built is destroyed from the last to the first
and the block is given back.

If the elements keep to what they own, an array owns its block and what its elements own, and
a call that fails leaves nothing.
-/

namespace Freehold

/-! ## Strategies by themselves -/

namespace Construction

variable {α β : Type}

/-- What came of two phases: the value, or an error and the shell that is left. -/
def judged : Except ErrorKind Unit × α → Except ErrorKind α × Option α
  | (.ok (), value) => (.ok value, none)
  | (.error kind, shell) => (.error kind, some shell)

/-- The hook of a strategy by itself: its answer, and the shell that it has left in the place
of the value if it failed. -/
def attempt (type : Movable α) (construction : Construction β α) (spot : Spot) (args : β) :
    Effect (Except ErrorKind α × Option α) :=
  match construction with
  | inPlace phases => do
    let reached ← (phases args).shell >>= (phases args).init spot
    pure (judged reached)
  | _ => do
    let answer ← (construction.produce type args).run
    pure (answer, none)

/-- Whether a hook that fails leaves a shell to be destroyed. -/
def leavesShell : Construction β α → Bool
  | inPlace _ => true
  | _ => false

/-- A shell is left where a hook in place has failed, and nowhere else. -/
theorem attempt_cases (type : Movable α) (construction : Construction β α) (spot : Spot)
    (args : β) (store : Store) :
    (∃ value after, construction.attempt type spot args store = ((.ok value, none), after)) ∨
    ∃ kind shell after, shell.isSome = construction.leavesShell ∧
      construction.attempt type spot args store = ((.error kind, shell), after) := by
  have hreturned : ∀ made : Attempt α,
      (∃ value after, (((made store).1, (none : Option α)), (made store).2) =
        ((.ok value, none), after)) ∨
      ∃ kind shell after, shell.isSome = false ∧
        (((made store).1, (none : Option α)), (made store).2) = ((.error kind, shell), after) := by
    intro made
    rcases made store with ⟨answer, after⟩
    cases answer with
    | ok value => exact Or.inl ⟨value, after, rfl⟩
    | error kind => exact Or.inr ⟨kind, none, after, rfl, rfl⟩
  cases construction with
  | inPlace phases =>
    have hattempt : (inPlace phases).attempt type spot args store =
        (judged (((phases args).shell >>= (phases args).init spot) store).1,
          (((phases args).shell >>= (phases args).init spot) store).2) := rfl
    rw [hattempt]
    rcases ((phases args).shell >>= (phases args).init spot) store with ⟨⟨answer, value⟩, after⟩
    cases answer with
    | ok done => exact Or.inl ⟨value, after, rfl⟩
    | error kind => exact Or.inr ⟨kind, some value, after, rfl, rfl⟩
  | withAllocator allocate => exact hreturned (allocate args)
  | factory create => exact hreturned (create args)
  | plain convert => exact hreturned (ExceptT.lift (convert args))

/-- What the hook has left when it failed is destroyed. -/
def finish (type : Movable α) : Except ErrorKind α × Option α → Effect (Except ErrorKind α)
  | (.ok value, _) => pure (.ok value)
  | (.error kind, none) => pure (.error kind)
  | (.error kind, some shell) => do
    type.destroy shell
    pure (.error kind)

theorem constructAt_eq (type : Movable α) (construction : Construction β α) (spot : Spot)
    (args : β) :
    (construction.constructAt type spot args).run =
      construction.attempt type spot args >>= finish type := by
  funext store
  have hreturned : ∀ made : Attempt α,
      made store = finish type ((made store).1, none) (made store).2 := by
    intro made
    rcases made store with ⟨answer, after⟩
    cases answer with
    | ok value | error kind => rfl
  cases construction with
  | inPlace phases =>
    have hattempt : ((inPlace phases).attempt type spot args >>= finish type) store =
        finish type (judged (((phases args).shell >>= (phases args).init spot) store).1)
          (((phases args).shell >>= (phases args).init spot) store).2 := rfl
    rw [hattempt]
    show (phases args).run type spot store = _
    rw [Phases.run_apply]
    rcases ((phases args).shell >>= (phases args).init spot) store with ⟨⟨answer, value⟩, after⟩
    cases answer with
    | ok done | error kind => rfl
  | withAllocator allocate => exact hreturned (allocate args)
  | factory create => exact hreturned (create args)
  | plain convert => exact hreturned (ExceptT.lift (convert args))

end Construction

namespace FixedArray

variable {α β : Type}

/-! ## Deeds -/

inductive Deed (α : Type) where
  | allocate (layout : Layout) (answer : Except ErrorKind Block)
  /-- A hook is run for the element at the spot; it may leave a shell when it fails. -/
  | build (spot : Spot) (answer : Except ErrorKind α) (shell : Option α)
  | destroy (value : α)
  | free (address : Nat) (layout : Layout)

def Deed.Done (element : Element α) (construction : Construction β α) (args : β) (deed : Deed α)
    (before after : Store) : Prop :=
  match deed with
  | allocate layout answer => Allocator.allocate layout before = (answer, after)
  | build spot answer shell =>
    construction.attempt element.toMovable spot args before = ((answer, shell), after)
  | destroy value => element.destroy value before = ((), after)
  | free address layout => Allocator.deallocate address layout before = ((), after)

/-- The elements are built in index order, from an index on. -/
def builds (address : Nat) : Nat → List α → List (Deed α)
  | _, [] => []
  | index, value :: rest =>
    .build (.slot address index) (.ok value) none :: builds address (index + 1) rest

theorem builds_cons (address index : Nat) (value : α) (rest : List α) :
    builds address index (value :: rest) =
      [.build (.slot address index) (.ok value) none] ++ builds address (index + 1) rest := rfl

/-- An element cannot be built, and what its hook has left is destroyed. -/
def spoils (address index : Nat) (kind : ErrorKind) (shell : Option α) : List (Deed α) :=
  .build (.slot address index) (.error kind) shell :: shell.toList.map .destroy

section Filling

variable {element : Element α} {construction : Construction β α} {args : β}

theorem allocate_does (element : Element α) (construction : Construction β α) (args : β)
    (layout : Layout) (store : Store) :
    ∃ answer, (Allocator.allocate layout).Does (Deed.Done element construction args) store
      [.allocate layout answer] answer :=
  ⟨_, _, rfl, .single rfl⟩

theorem free_does (element : Element α) (construction : Construction β α) (args : β)
    (address : Nat) (layout : Layout) (store : Store) :
    (Allocator.deallocate address layout).Does (Deed.Done element construction args) store
      [.free address layout] () :=
  ⟨_, rfl, .single rfl⟩

theorem destroy_does (element : Element α) (construction : Construction β α) (args : β)
    (value : α) (store : Store) :
    (element.destroy value).Does (Deed.Done element construction args) store [.destroy value] () :=
  ⟨_, rfl, .single rfl⟩

theorem destroyAll_does (element : Element α) (construction : Construction β α) (args : β)
    (values : List α) (store : Store) :
    (element.destroyAll values).Does (Deed.Done element construction args) store
      (values.map .destroy) () := by
  induction values generalizing store with
  | nil => exact .pure _ () store
  | cons value rest ih =>
    obtain ⟨between, hdestroy, hdone⟩ := destroy_does element construction args value store
    exact .bind hdestroy hdone (ih between)

/-- An element is built in its place, or else what its hook has left there is destroyed. -/
theorem constructAt_does (element : Element α) (construction : Construction β α) (args : β)
    (address index : Nat) (store : Store) :
    (∃ value, (construction.constructAt element.toMovable (.slot address index) args).Does
      (Deed.Done element construction args) store
      [.build (.slot address index) (.ok value) none] (.ok value)) ∨
    ∃ kind shell, shell.isSome = construction.leavesShell ∧
      (construction.constructAt element.toMovable (.slot address index) args).Does
        (Deed.Done element construction args) store (spoils address index kind shell)
        (.error kind) := by
  have hconstruct := Construction.constructAt_eq element.toMovable construction
    (.slot address index) args
  unfold Attempt.Does
  rw [hconstruct]
  rcases Construction.attempt_cases element.toMovable construction (.slot address index) args
    store with ⟨value, between, hattempt⟩ | ⟨kind, shell, between, hshell, hattempt⟩
  · have hfinish : (Construction.finish element.toMovable (.ok value, none)).Does
        (Deed.Done element construction args) between [] (.ok value) := .pure _ _ between
    exact Or.inl ⟨value, .bind hattempt (.single hattempt) hfinish⟩
  · refine Or.inr ⟨kind, shell, hshell, .bind hattempt (.single hattempt) ?_⟩
    cases shell with
    | none => exact .pure _ _ between
    | some shell =>
      exact (destroy_does element construction args shell between).bind_pure rfl

/-- The elements from an index on are built, or else one of them cannot be, and those built
before it are destroyed from the last to the first. -/
theorem fill_does (element : Element α) (construction : Construction β α) (args : β)
    (address index count : Nat) (built : List α) (store : Store) :
    (∃ values, values.length = count ∧
      (fill element (construction.builder element.toMovable) address args index count
        built).Does (Deed.Done element construction args) store (builds address index values)
        (.ok (built.reverse ++ values))) ∨
    ∃ values kind shell, values.length < count ∧ shell.isSome = construction.leavesShell ∧
      (fill element (construction.builder element.toMovable) address args index count
        built).Does (Deed.Done element construction args) store
        (builds address index values ++ (spoils address (index + values.length) kind shell ++
          (values.reverse ++ built).map .destroy))
        (.error kind) := by
  -- Every further element is to undo what was built before it, so `built` grows on the way.
  induction count generalizing index built store with
  | zero =>
    refine Or.inl ⟨[], rfl, ?_⟩
    rw [List.append_nil]
    exact .pure _ built.reverse store
  | succ count ih =>
    rcases constructAt_does element construction args address index store with
      ⟨value, hbuilt⟩ | ⟨kind, shell, hshell, hspoilt⟩
    · obtain ⟨between, hdoes, hdone⟩ := hbuilt.undoing (element.destroyAll built)
      rcases ih (index + 1) (value :: built) between with
        ⟨values, hlength, hrest⟩ | ⟨values, kind, shell, hlength, hshell, hrest⟩
      · refine Or.inl ⟨value :: values, by simp [hlength], ?_⟩
        rw [List.reverse_cons, List.append_assoc] at hrest
        exact .bind hdoes hdone hrest
      · refine Or.inr ⟨value :: values, kind, shell, by simpa using hlength, hshell, ?_⟩
        have hindex : index + 1 + values.length = index + (value :: values).length := by
          simp only [List.length_cons]
          omega
        rw [hindex] at hrest
        rw [List.reverse_cons, List.append_assoc values.reverse, builds_cons, List.append_assoc]
        exact .bind hdoes hdone hrest
    · have hundone := hspoilt.undone
        fun between => destroyAll_does element construction args built between
      exact Or.inr ⟨[], kind, shell, Nat.succ_pos count, hshell, hundone.bind_error _⟩

end Filling

/-! ## Courses -/

/-- The course of a call for an array: what it does, and how it ends. -/
inductive Course (element : Element α) (construction : Construction β α) :
    Nat → List (Deed α) → Except ErrorKind (FixedArray α) → Prop
  | empty : Course element construction 0 [] (.error .invalidArgument)
  | tooLarge {count : Nat} (hcount : count ≠ 0) (hlayout : element.layout.array? count = none) :
    Course element construction count [] (.error .integerOverflow)
  | refused {count : Nat} {layout : Layout} (hcount : count ≠ 0)
      (hlayout : element.layout.array? count = some layout) (kind : ErrorKind) :
    Course element construction count [.allocate layout (.error kind)] (.error kind)
  | built {count : Nat} {layout : Layout} (hcount : count ≠ 0)
      (hlayout : element.layout.array? count = some layout) (block : Block) {values : List α}
      (hlength : values.length = count) :
    Course element construction count
      ([.allocate layout (.ok block)] ++ builds block.address 0 values)
      (.ok ⟨block.address, values⟩)
  /-- The element after the values cannot be built. -/
  | undone {count : Nat} {layout : Layout} (hcount : count ≠ 0)
      (hlayout : element.layout.array? count = some layout) (block : Block) {values : List α}
      (hlength : values.length < count) (kind : ErrorKind) {shell : Option α}
      (hshell : shell.isSome = construction.leavesShell) :
    Course element construction count
      ([.allocate layout (.ok block)] ++ (builds block.address 0 values ++
        (spoils block.address values.length kind shell ++ values.reverse.map .destroy) ++
          [.free block.address layout]))
      (.error kind)

theorem construct_course (element : Element α) (construction : Construction β α) (args : β)
    (count : Nat) (store : Store) :
    ∃ deeds answer,
      (construct element (construction.builder element.toMovable) count args).Does
        (Deed.Done element construction args) store deeds answer ∧
      Course element construction count deeds answer := by
  unfold construct
  by_cases hcount : count = 0
  · subst hcount
    exact ⟨[], _, ⟨store, rfl, .none⟩, .empty⟩
  rw [if_neg hcount]
  cases hlayout : element.layout.array? count with
  | none => exact ⟨[], _, ⟨store, rfl, .none⟩, .tooLarge hcount hlayout⟩
  | some layout =>
    obtain ⟨answer, hallocate⟩ := allocate_does element construction args layout store
    cases answer with
    | error kind => exact ⟨_, _, hallocate.bind_error _, .refused hcount hlayout kind⟩
    | ok block =>
      obtain ⟨between, hgranted, hdone⟩ := hallocate
      rcases fill_does element construction args block.address 0 count [] between with
        ⟨values, hlength, hfill⟩ | ⟨values, kind, shell, hlength, hshell, hfill⟩
      · have hmade := (hfill.undoing (Allocator.deallocate block.address layout)).map
          (FixedArray.mk block.address)
        exact ⟨_, _, .bind hgranted hdone hmade, .built hcount hlayout block hlength⟩
      · have hundone := hfill.undone
          (free_does element construction args block.address layout)
        rw [List.append_nil, Nat.zero_add] at hundone
        exact ⟨_, _, .bind hgranted hdone (hundone.bind_error _),
          .undone hcount hlayout block hlength kind hshell⟩

/-- An array that has its length still is destroyed from the last element to the first, and
its block is freed. -/
theorem drop_does (element : Element α) (construction : Construction β α) (args : β)
    {count : Nat} {layout : Layout} (hlayout : element.layout.array? count = some layout)
    {array : FixedArray α} (hlength : array.values.length = count) (store : Store) :
    (array.drop element).Does (Deed.Done element construction args) store
      (array.values.reverse.map .destroy ++ [.free array.address layout]) () := by
  have hfree : array.free element = Allocator.deallocate array.address layout := by
    unfold free length
    rw [hlength, hlayout]
  obtain ⟨between, hdestroy, hdone⟩ :=
    destroyAll_does element construction args array.values.reverse store
  unfold drop
  rw [hfree]
  exact .bind hdestroy hdone (free_does element construction args array.address layout between)

/-! ## Assets -/

section Estates

variable {element : Element α} {construction : Construction β α} {args : β} {owns : α → Assets}
  {layout : Layout}

/-- What an array owns: its block, and what its elements own. -/
def assets (layout : Layout) (owns : α → Assets) (array : FixedArray α) : Assets :=
  {.block array.address layout} + (array.values.map owns).sum

/-- User code that keeps to what values own: a hook makes a value, or fails and leaves nothing
but its shell, and destroying a value gives up what it owns. -/
structure Careful (element : Element α) (construction : Construction β α) (args : β)
    (owns : α → Assets) : Prop where
  attempts : ∀ spot, (construction.attempt element.toMovable spot args).Manages 0
    (fun found => Assets.ofOption owns (found.1.toOption <|> found.2))
  destroys : GivesUp element.destroy owns

theorem Careful.constructAt_manages (h : Careful element construction args owns) (spot : Spot) :
    (construction.constructAt element.toMovable spot args).Manages 0 owns 0 := by
  unfold Attempt.Manages
  rw [Construction.constructAt_eq]
  refine (h.attempts spot).bind ?_
  rintro ⟨answer, shell⟩
  cases answer with
  | ok value => exact Effect.manages_pure rfl
  | error kind =>
    cases shell with
    | none => exact Effect.manages_pure rfl
    | some shell => exact (h.destroys shell).bind fun _ => Effect.manages_pure rfl

theorem Careful.fill_manages (h : Careful element construction args owns)
    (address index count : Nat) (built : List α) :
    (fill element (construction.builder element.toMovable) address args index count
      built).Manages (built.map owns).sum (fun values => (values.map owns).sum) 0 := by
  induction count generalizing index built with
  | zero =>
    refine Attempt.manages_pure ?_
    rw [List.map_reverse, List.sum_reverse]
  | succ count ih =>
    have hbuilt := (h.constructAt_manages (.slot address index)).frame (built.map owns).sum
    rw [zero_add] at hbuilt
    exact (hbuilt.undoing (Vec.destroyAll_manages h.destroys built)).bind
      fun value => ih (index + 1) (value :: built)

theorem Careful.construct_manages (h : Careful element construction args owns) {count : Nat}
    (hlayout : element.layout.array? count = some layout) :
    (construct element (construction.builder element.toMovable) count args).Manages 0
      (assets layout owns) 0 := by
  unfold construct
  by_cases hcount : count = 0
  · rw [if_pos hcount]
    exact Attempt.manages_throw _ rfl
  rw [if_neg hcount, hlayout]
  have hvalid : layout.Valid := by
    obtain ⟨hvalid, rfl⟩ := Layout.of?_eq_some_iff.1 hlayout
    exact hvalid
  have hgranted : (Allocator.allocate layout).Manages 0
      (fun block => {.block block.address layout}) 0 :=
    (Allocator.turns_allocate layout).manages (Allocator.spends_allocate hvalid)
  refine hgranted.bind fun block => ?_
  have hfilled := (h.fill_manages block.address 0 count []).frame {Asset.block block.address layout}
  rw [List.map_nil, List.sum_nil, zero_add] at hfilled
  refine (hfilled.undoing (Allocator.manages_deallocate block.address layout)).bind
    fun values => Attempt.manages_pure ?_
  exact add_comm _ _

theorem Careful.drop_manages (h : Careful element construction args owns) {array : FixedArray α}
    (hlayout : element.layout.array? array.values.length = some layout) :
    (array.drop element).Manages (assets layout owns array) (fun _ => 0) := by
  have hfree : array.free element = Allocator.deallocate array.address layout := by
    unfold free length
    rw [hlayout]
  have helements := (Vec.destroyAll_manages h.destroys array.values.reverse).frame
    {Asset.block array.address layout}
  rw [zero_add, List.map_reverse, List.sum_reverse, add_comm] at helements
  unfold drop
  rw [hfree]
  exact helements.bind fun _ => Allocator.manages_deallocate array.address layout

theorem attempt_turns {type : Movable α} (h : construction.Careful owns args 0) (spot : Spot) :
    (construction.attempt type spot args).Turns 0
      (fun found => Assets.ofOption owns (found.1.toOption <|> found.2)) := by
  have hreturned : ∀ {made : Attempt α}, made.Turns 0 owns 0 →
      Effect.Turns (made.run >>= fun answer => pure (answer, (none : Option α))) 0
        (fun found => Assets.ofOption owns (found.1.toOption <|> found.2)) := by
    intro made hmade
    refine Effect.Turns.bind hmade fun answer => Effect.turns_pure ?_
    cases answer with
    | ok value | error kind => rfl
  cases construction with
  | inPlace phases =>
    refine Effect.Turns.bind (h spot) ?_
    rintro ⟨answer, value⟩
    refine Effect.turns_pure ?_
    cases answer with
    | ok done | error kind => rfl
  | withAllocator allocate => exact hreturned h
  | factory create => exact hreturned h
  | plain convert => exact hreturned (Attempt.turns_lift h)

/-- A hook that returns its value and manages it is careful. -/
theorem careful_withAllocator {allocate : β → Attempt α}
    (hmade : (allocate args).Manages 0 owns 0) (hdestroy : GivesUp element.destroy owns) :
    Careful element (.withAllocator allocate) args owns := by
  refine ⟨fun _ => Effect.Manages.bind hmade fun answer => Effect.manages_pure ?_, hdestroy⟩
  cases answer with
  | ok value | error kind => rfl

end Estates

end FixedArray

/-! ## Arrays of leaf types and of nested owners -/

theorem Leaf.attempt_leads {related : Store → Store → Prop} (leaf : Leaf)
    (habit : LeafHabit related leaf) (spot : Spot) (datum : Datum) :
    (leaf.construction.attempt leaf.element.toMovable spot datum).Leads related := by
  unfold construction
  cases hbuilding : leaf.building with
  | inPlace =>
    have hphases := habit.bind (habit.bears (.number 0)) (leaf.complete_leads habit spot datum)
    exact habit.bind hphases fun _ => habit.pure _
  | withAllocator draws =>
    exact habit.bind (leaf.draw_leads habit (.built hbuilding) datum) fun _ => habit.pure _
  | factory => exact habit.bind (leaf.create_leads habit datum) fun _ => habit.pure _
  | plain =>
    have hborn : Effect.Leads related (ExceptT.lift (leaf.born datum) : Attempt Piece).run :=
      habit.bears datum
    exact habit.bind hborn fun _ => habit.pure _

theorem Leaf.array_careful {leaf : Leaf} (hproper : leaf.Proper) (datum : Datum) :
    FixedArray.Careful leaf.element leaf.construction datum leaf.owns where
  attempts spot := (FixedArray.attempt_turns (leaf.construction_careful datum) spot).manages
    (leaf.attempt_leads (Store.Spends.leafHabit hproper.draws) spot datum)
  destroys := leaf.destroy_givesUp hproper

namespace Nest

/-- The strategy by which a nested owner is built. -/
def construction (nest : Nest) : Construction nest.Args nest.Carrier :=
  match nest with
  | leaf type => type.construction
  | vec inner => .withAllocator (make (vec inner))
  | unique inner => .withAllocator (make (unique inner))

/-- All that vectors and unique owners do, they do with what they own. -/
theorem array_careful {nest : Nest} (hproper : nest.Proper) {args : nest.Args}
    (hfits : nest.Fits args) :
    FixedArray.Careful nest.element nest.construction args nest.owns := by
  have hmade := (make_manages hproper hfits).1
  have hdestroy := destroy_givesUp hproper
  cases nest with
  | leaf type => exact Leaf.array_careful hproper args
  | vec inner | unique inner => exact FixedArray.careful_withAllocator hmade hdestroy

end Nest

namespace FixedArray

variable {α β : Type}

/-! ## All or nothing -/

/-- What is true of a call for an array that did the deeds and came to the answer. -/
structure Accounted (element : Element α) (construction : Construction β α) (args : β)
    (count : Nat) (before : Store) (deeds : List (Deed α))
    (answer : Except ErrorKind (FixedArray α)) (after : Store) : Prop where
  done : AllDone (Deed.Done element construction args) before deeds after
  course : Course element construction count deeds answer
  /-- The array is destroyed from the last element to the first, whatever its elements have
  become, and its block is freed with the layout by which it was asked for. -/
  dropped : ∀ layout, element.layout.array? count = some layout →
    ∀ array : FixedArray α, array.values.length = count → ∀ later,
      (array.drop element).Does (Deed.Done element construction args) later
        (array.values.reverse.map .destroy ++ [.free array.address layout]) ()
  /-- With careful elements, all calls of the allocator balance: a call that fails leaves
  nothing, and an array that was built is there until it is dropped. -/
  balanced : ∀ owns, Careful element construction args owns → ∀ layout,
    element.layout.array? count = some layout → ∀ regions others,
      before.memory.Retains regions others →
        before.Settles after 0 (Assets.afterwards (assets layout owns) 0 answer) ∧
        (Assets.afterwards (assets layout owns) 0 answer).Lodged after.memory regions others ∧
        ∀ array : FixedArray α, array.values.length = count →
          (array.drop element).Manages (assets layout owns array) (fun _ => 0)

/-- Whatever fails, a call for an array builds all elements in index order, or takes back what
it has done in the opposite order. -/
theorem array_all_or_nothing (element : Element α) (construction : Construction β α) (args : β)
    (count : Nat) (before : Store) :
    ∃ deeds answer after,
      construct element (construction.builder element.toMovable) count args before =
        (answer, after) ∧
      Accounted element construction args count before deeds answer after := by
  obtain ⟨deeds, answer, ⟨after, hconstruct, hdone⟩, hcourse⟩ :=
    construct_course element construction args count before
  have hrun : construct element (construction.builder element.toMovable) count args before =
    (answer, after) := hconstruct
  refine ⟨deeds, answer, after, hrun, hdone, hcourse, ?_, ?_⟩
  · intro layout hlayout array hlength later
    exact drop_does element construction args hlayout hlength later
  · intro owns hcareful layout hlayout regions others hretains
    have hmanages := Attempt.manages_iff.1 (hcareful.construct_manages hlayout) before regions
      others (Assets.lodged_zero.2 hretains)
    rw [hrun] at hmanages
    obtain ⟨hsettles, hspends⟩ := hmanages
    obtain ⟨hlodged, -⟩ := hsettles.lodged hspends (Assets.lodged_zero.2 hretains)
    exact ⟨hsettles, hlodged, fun array hlength => hcareful.drop_manages (hlength ▸ hlayout)⟩

/-! A column of vectors whose pieces have blocks of their own.  The second piece of the second
vector cannot be made. -/

def column : Nest := .vec (.leaf Catalogue.heap)

theorem column_proper : column.Proper := Catalogue.heap_proper

def twoNumbers : column.Args := [.number 1, .number 2]

theorem twoNumbers_fits : column.Fits twoNumbers :=
  ⟨(by decide : ([.number 1, .number 2] : List Datum).length < Word.limit), fun _ _ => trivial⟩

def interrupted : Store where
  memory := { backend := .stack { base := 4096, capacity := 4096 } }
  plan := [none, none, none, some .timedOut]

def interruptedAnswer : Option ErrorKind :=
  match construct column.element (column.construction.builder column.element.toMovable)
      3 twoNumbers interrupted with
  | (.ok _, _) => none
  | (.error kind, _) => some kind

theorem array_all_or_nothing_column :
    ∃ deeds after,
      construct column.element
          (column.construction.builder column.element.toMovable) 3 twoNumbers interrupted =
        (.error .timedOut, after) ∧
      Accounted column.element column.construction twoNumbers 3 interrupted deeds
        (.error .timedOut) after ∧
      interrupted.Settles after 0 0 := by
  have hinterrupted : interruptedAnswer = some .timedOut := by decide +kernel
  obtain ⟨deeds, answer, after, hrun, haccounted⟩ := array_all_or_nothing
    column.element column.construction twoNumbers 3 interrupted
  unfold interruptedAnswer at hinterrupted
  rw [hrun] at hinterrupted
  cases answer with
  | ok array => cases hinterrupted
  | error kind =>
    obtain rfl := Option.some.inj hinterrupted
    obtain ⟨hsettles, -⟩ := haccounted.balanced column.owns
      (Nest.array_careful column_proper twoNumbers_fits) ⟨96, 8⟩ (by decide) [] 0 (.of_unused rfl)
    exact ⟨deeds, after, hrun, haccounted, hsettles⟩

end FixedArray
end Freehold
