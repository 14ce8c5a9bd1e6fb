import Freehold.FixedArray
import Freehold.Intrusive
import Freehold.Proofs.Vec.ReachableRows

/-!
# Nothing overflows

Whatever has happened to an arena or a free list, its requests, the growth of vectors, and the
blocks of arrays and of counted values are computed without a step that leaves the range of a
word.  A request that is too large, or for which the allocator has no room, is refused before
anything has changed; and what is handed out is as large as what was asked for.
-/

namespace Freehold

/-! ## Arrays -/

namespace FixedArray

variable {α β : Type}

section Computations

variable (element : Element α)

/-- Destroys the listed elements, each of which lies behind those that are left. -/
def unbuildInWords (address : Nat) : List α → Reckoning Unit
  | [] => pure ()
  | value :: rest => do
    let _ ← Reckoning.step (element.layout.slotInWords address rest.length)
    Reckoning.perform (element.destroy value)
    unbuildInWords address rest

def fillInWords (builder : Builder β α) (address : Nat) (args : β) :
    Nat → Nat → List α → Reckoning (List α)
  | _, 0, built => pure built.reverse
  | index, count + 1, built => do
    let _ ← Reckoning.step (element.layout.slotInWords address index)
    let value ← (Reckoning.lift (builder.constructAt (.slot address index) args)).undoing
      (unbuildInWords element address built)
    let next ← Reckoning.step (Word.add? index 1)
    fillInWords builder address args next count (value :: built)

def constructInWords (builder : Builder β α) (count : Nat) (args : β) :
    Reckoning (FixedArray α) :=
  if count = 0 then throw .invalidArgument
  else do
    match ← Reckoning.step (element.layout.arrayInWords count) with
    | none => throw .integerOverflow
    | some layout => do
      let block ← Allocator.allocateInWords layout
      let values ← (fillInWords element builder block.address args 0 count []).undoing
        (Reckoning.perform (Allocator.deallocate block.address layout))
      pure ⟨block.address, values⟩

end Computations

variable {element : Element α} {builder : Builder β α} {regions : List Span} {store : Store}

section Filling

variable {address bound : Nat} (hstop : address + element.layout.size * bound < Word.limit)

include hstop

theorem exact_unbuild {built : List α} (hbuilt : built.length ≤ bound) (store : Store) :
    (unbuildInWords element address built).Exact (ExceptT.lift (element.destroyAll built))
      store := by
  induction built generalizing store with
  | nil => rfl
  | cons value rest ih =>
    have hrest : rest.length ≤ bound := Nat.le_of_succ_le hbuilt
    unfold unbuildInWords Movable.destroyAll
    rw [Attempt.lift_bind]
    refine .step (Layout.slotInWords_eq hstop hrest) ?_
    exact (Reckoning.exact_perform _ _).bind fun _ middle _ => ih hrest middle

theorem exact_fill (hword : bound < Word.limit) (args : β) {index count : Nat}
    (hroom : index + count ≤ bound) {built : List α} (hbuilt : built.length ≤ index)
    (store : Store) :
    (fillInWords element builder address args index count built).Exact
      (fill element builder address args index count built) store := by
  induction count generalizing index built store with
  | zero => exact Reckoning.exact_pure _ _
  | succ count ih =>
    unfold fillInWords fill
    refine .step (Layout.slotInWords_eq hstop (by omega)) ?_
    refine ((Reckoning.exact_lift _ _).undoing
      (exact_unbuild hstop (Nat.le_trans hbuilt (by omega)))).bind fun value middle _ => ?_
    refine .step (Word.add?_eq (by omega)) ?_
    exact ih (by omega) (Nat.succ_le_succ hbuilt) middle

end Filling

theorem fill_yields (address : Nat) (args : β) (index count : Nat) (built : List α) :
    (fill element builder address args index count built).Yields
      fun values => values.length = built.length + count := by
  induction count generalizing index built with
  | zero => exact Attempt.yields_pure List.length_reverse
  | succ count ih =>
    refine Attempt.Yields.after fun value store values after hrun => ?_
    rw [ih (index + 1) (value :: built) store values after hrun, List.length_cons]
    omega

theorem construct_apply {count : Nat} (args : β) (hsome : count ≠ 0) {layout : Layout}
    (hlayout : element.layout.array? count = some layout) (store : Store) :
    construct element builder count args store =
      match Allocator.allocate layout store with
      | (.error kind, middle) => (.error kind, middle)
      | (.ok block, middle) =>
        (do
          let values ← Attempt.undoing (fill element builder block.address args 0 count [])
            (Allocator.deallocate block.address layout)
          pure (⟨block.address, values⟩ : FixedArray α) : Attempt (FixedArray α)) middle := by
  unfold construct
  rw [if_neg hsome, hlayout]
  dsimp only
  rw [Attempt.bind_apply]
  rcases Allocator.allocate layout store with ⟨kind | block, middle⟩
  · rfl
  · rfl

/-- The room for an array is computed in words.  If there is none, nothing is built. -/
structure Reckons (element : Element α) (builder : Builder β α) (regions : List Span)
    (store : Store) : Prop where
  exact : ∀ count < Word.limit, ∀ args,
    (constructInWords element builder count args).Exact (construct element builder count args) store
  served : ∀ count < Word.limit, ∀ args array after,
    construct element builder count args store = (.ok array, after) →
      array.length = count ∧ array.address + element.layout.size * count < Word.limit
  exceeding : ∀ count < Word.limit, count ≠ 0 → element.layout.Exceeds count → ∀ args,
    construct element builder count args store = (.error .integerOverflow, store)
  lacking : ∀ count < Word.limit, count ≠ 0 → store.memory.backend.Lacks regions
      ⟨element.layout.size * count, element.layout.align⟩ → ∀ args,
    ∃ kind after, construct element builder count args store = (.error kind, after) ∧
      kind.OfSize ∧ after.memory = store.memory

section Constructing

variable (hsolid : store.memory.backend.Solid regions)

include hsolid

theorem construct_exact (hvalid : element.layout.Valid) {count : Nat} (hword : count < Word.limit)
    (args : β) :
    (constructInWords element builder count args).Exact (construct element builder count args)
      store := by
  unfold constructInWords construct
  by_cases hnone : count = 0
  · rw [if_pos hnone, if_pos hnone]
    exact Reckoning.exact_throw _ _
  rw [if_neg hnone, if_neg hnone]
  refine .step (Layout.arrayInWords_eq hvalid count) ?_
  cases hlayout : element.layout.array? count with
  | none => exact Reckoning.exact_throw _ _
  | some layout =>
    obtain ⟨hlayoutValid, rfl⟩ := Vec.array?_layout hlayout
    have hranged := Allocator.allocate_ranged hsolid hlayoutValid
    refine (Allocator.allocate_exact hsolid hlayoutValid).bind fun block middle hrun => ?_
    rw [hrun] at hranged
    obtain ⟨hlarge, hstop, -⟩ := hranged
    dsimp only at hlarge
    have hfits : block.address + element.layout.size * count < Word.limit := by omega
    have hfilled : (fillInWords element builder block.address args 0 count []).Exact
        (fill element builder block.address args 0 count []) middle :=
      exact_fill hfits hword args (by omega) (Nat.le_refl 0) middle
    exact (hfilled.undoing fun _ => Reckoning.exact_perform _ _).bind fun _ _ _ =>
      Reckoning.exact_pure _ _

theorem reckons (hvalid : element.layout.Valid) : Reckons element builder regions store where
  exact count hword args := construct_exact hsolid hvalid hword args
  served count _ args array after hrun := by
    have hsome : count ≠ 0 := by
      rintro rfl
      cases hrun
    cases hlayout : element.layout.array? count with
    | none =>
      unfold construct at hrun
      rw [if_neg hsome, hlayout] at hrun
      cases hrun
    | some layout =>
      rw [construct_apply args hsome hlayout] at hrun
      obtain ⟨hlayoutValid, rfl⟩ := Vec.array?_layout hlayout
      have hranged := Allocator.allocate_ranged hsolid hlayoutValid
      rcases hallocated : Allocator.allocate _ store with ⟨kind | block, middle⟩
      · rw [hallocated] at hrun
        cases hrun
      · rw [hallocated] at hrun hranged
        obtain ⟨hlarge, hstop, -⟩ := hranged
        obtain ⟨values, between, hfilled, hdone⟩ := Attempt.bind_ok hrun
        obtain rfl := Except.ok.inj (Prod.mk.inj hdone).1
        have hcount := fill_yields _ _ _ _ _ _ _ _ (Attempt.undoing_ok hfilled)
        rw [List.length_nil, Nat.zero_add] at hcount
        dsimp only at hlarge
        exact ⟨hcount, by dsimp only; omega⟩
  exceeding count hword hsome hlarge args := by
    unfold construct
    rw [if_neg hsome, hlarge.array?_eq_none hword]
    rfl
  lacking count hword hsome hlacks args := by
    cases hlayout : element.layout.array? count with
    | none =>
      refine ⟨.integerOverflow, store, ?_, ErrorKind.ofSize_integerOverflow, rfl⟩
      unfold construct
      rw [if_neg hsome, hlayout]
      rfl
    | some layout =>
      rw [construct_apply args hsome hlayout]
      obtain ⟨hlayoutValid, rfl⟩ := Vec.array?_layout hlayout
      have hranged := Allocator.allocate_ranged hsolid hlayoutValid
      rcases hallocated : Allocator.allocate _ store with ⟨kind | block, middle⟩
      · rw [hallocated] at hranged
        exact ⟨kind, middle, rfl, hranged⟩
      · rw [hallocated] at hranged
        exact absurd hlacks hranged.2.2

end Constructing

end FixedArray

/-! ## Counted values -/

namespace CountedValues

variable {α : Type}

def newDynamicInWords (type : CountedType α) (values : CountedValues α) (value : α) (total : Nat) :
    Reckoning (Nat × CountedValues α) :=
  Reckoning.undoing
    (do
      match ← Reckoning.step
          (Layout.ofInWords (max type.layout.size total) type.layout.align) with
      | none => throw .integerOverflow
      | some layout => do
        let block ← Allocator.allocateInWords layout
        pure (values.adopt block.address layout value))
    (Reckoning.perform (discard type value))

/-- The room for a counted value is computed in words.  If there is none, the value is
destroyed. -/
structure Reckons (type : CountedType α) (regions : List Span) (values : CountedValues α)
    (store : Store) : Prop where
  exact : ∀ value total,
    (values.newDynamicInWords type value total).Exact (values.newDynamic type value total) store
  served : ∀ value total handle next after,
    values.newDynamic type value total store = (.ok (handle, next), after) →
      ∃ counted layout, next.find? handle = some counted ∧ counted.refs.owner = some layout ∧
        type.layout.size ≤ layout.size ∧ total ≤ layout.size ∧
        counted.address + layout.size < Word.limit
  exceeding : ∀ value total, 1 <<< 63 < max type.layout.size total + type.layout.align →
    values.newDynamic type value total store =
      (.error .integerOverflow, (discard type value store).2)
  lacking : ∀ value total, store.memory.backend.Lacks regions
      ⟨max type.layout.size total, type.layout.align⟩ →
    ∃ kind middle, kind.OfSize ∧ middle.memory = store.memory ∧
      values.newDynamic type value total store = (.error kind, (discard type value middle).2)

variable {type : CountedType α} {regions : List Span} {values : CountedValues α} {store : Store}

theorem newDynamic_of_large {total : Nat}
    (hlarge : 1 <<< 63 < max type.layout.size total + type.layout.align) (value : α) :
    values.newDynamic type value total store =
      (.error .integerOverflow, (discard type value store).2) := by
  have hnone : Layout.of? (max type.layout.size total) type.layout.align = none :=
    if_neg fun hvalid => absurd hvalid.2 (Nat.not_le_of_lt hlarge)
  unfold newDynamic
  rw [Attempt.undoing_apply, hnone]
  rfl

theorem newDynamic_of_valid {total : Nat}
    (hvalid : Layout.Valid ⟨max type.layout.size total, type.layout.align⟩) (value : α) :
    values.newDynamic type value total store =
      match Allocator.allocate ⟨max type.layout.size total, type.layout.align⟩ store with
      | (.error kind, middle) => (.error kind, (discard type value middle).2)
      | (.ok block, middle) =>
        (.ok (values.adopt block.address ⟨max type.layout.size total, type.layout.align⟩ value),
          middle) := by
  unfold newDynamic
  rw [Attempt.undoing_apply, Layout.of?_eq_some_iff.2 ⟨hvalid, rfl⟩]
  dsimp only
  rw [Attempt.bind_apply]
  rcases Allocator.allocate _ store with ⟨kind | block, middle⟩
  · rfl
  · rfl

theorem reckons (hsolid : store.memory.backend.Solid regions) (hvalid : type.layout.Valid)
    (values : CountedValues α) : values.Reckons type regions store where
  exact value total := by
    unfold newDynamicInWords newDynamic
    refine Reckoning.Exact.undoing ?_ fun _ => Reckoning.exact_perform _ _
    refine .step (Layout.ofInWords_eq hvalid.align_le) ?_
    cases hlayout : Layout.of? (max type.layout.size total) type.layout.align with
    | none => exact Reckoning.exact_throw _ _
    | some layout =>
      obtain ⟨hfits, rfl⟩ := Layout.of?_eq_some_iff.1 hlayout
      exact (Allocator.allocate_exact hsolid hfits).bind fun _ _ _ => Reckoning.exact_pure _ _
  served value total handle next after hrun := by
    by_cases hfits : Layout.Valid ⟨max type.layout.size total, type.layout.align⟩
    · have hranged := Allocator.allocate_ranged hsolid hfits
      rw [newDynamic_of_valid hfits] at hrun
      rcases hallocated : Allocator.allocate _ store with ⟨kind | block, middle⟩
      · rw [hallocated] at hrun
        cases hrun
      · rw [hallocated] at hrun hranged
        obtain ⟨hlarge, hstop, -⟩ := hranged
        obtain ⟨rfl, rfl⟩ := Prod.mk.inj (Except.ok.inj (Prod.mk.inj hrun).1)
        refine ⟨_, _, Roster.find?_enroll_self _, rfl, Nat.le_max_left _ _,
          Nat.le_max_right _ _, ?_⟩
        dsimp only at hlarge ⊢
        omega
    · have hlarge : 1 <<< 63 < max type.layout.size total + type.layout.align :=
        Nat.lt_of_not_le fun hle => hfits ⟨hvalid.1, hle⟩
      rw [newDynamic_of_large hlarge] at hrun
      cases hrun
  exceeding value total hlarge := newDynamic_of_large hlarge value
  lacking value total hlacks := by
    by_cases hfits : Layout.Valid ⟨max type.layout.size total, type.layout.align⟩
    · have hranged := Allocator.allocate_ranged hsolid hfits
      rw [newDynamic_of_valid hfits]
      rcases hallocated : Allocator.allocate _ store with ⟨kind | block, middle⟩
      · rw [hallocated] at hranged
        exact ⟨kind, middle, hranged.1, hranged.2, rfl⟩
      · rw [hallocated] at hranged
        exact absurd hlacks hranged.2.2
    · have hlarge : 1 <<< 63 < max type.layout.size total + type.layout.align :=
        Nat.lt_of_not_le fun hle => hfits ⟨hvalid.1, hle⟩
      exact ⟨.integerOverflow, store, ErrorKind.ofSize_integerOverflow, rfl,
        newDynamic_of_large hlarge value⟩

end CountedValues

/-! ## Vectors -/

namespace Vec

variable {α : Type}

variable {element : Element α} {regions : List Span} {vec : Vec α} {store : Store}

/-- The growth of a vector and what comes after it are computed in words.  If there is no room
for more elements, nothing has changed but that a value that was handed over is destroyed. -/
structure Reckons (element : Element α) (regions : List Span) (vec : Vec α) (store : Store) :
    Prop where
  reserve : ∀ capacity < Word.limit,
    (vec.reserveInWords element capacity).Exact (vec.reserve element capacity) store ∧
      vec.Served element regions store.memory capacity (vec.reserve element capacity store)
  reserveAdditional : ∀ additional < Word.limit,
    (vec.reserveAdditionalInWords element additional).Exact
        (vec.reserveAdditional element additional) store ∧
      vec.Served element regions store.memory (vec.length + additional)
        (vec.reserveAdditional element additional store)
  growForOne : (vec.growForOneInWords element).Exact (vec.growForOne element) store ∧
    vec.Served element regions store.memory vec.nextCapacity (vec.growForOne element store)
  push : ∀ value, (vec.pushInWords element value).Exact (vec.push element value) store
  insert : ∀ index value,
    (vec.insertInWords element index value).Exact (vec.insert element index value) store
  reserve_exceeding : ∀ capacity < Word.limit, vec.capacity < capacity →
    element.layout.Exceeds capacity →
      vec.reserve element capacity store = (.error .integerOverflow, store)
  reserveAdditional_exceeding : ∀ additional, vec.capacity < vec.length + additional →
    element.layout.Exceeds (vec.length + additional) →
      vec.reserveAdditional element additional store = (.error .integerOverflow, store)
  push_exceeding : ∀ value, vec.length = vec.capacity →
    element.layout.Exceeds vec.nextCapacity →
      vec.push element value store = (.error .integerOverflow, (element.destroy value store).2)
  push_lacking : ∀ value, vec.length = vec.capacity → store.memory.backend.Lacks regions
      ⟨element.layout.size * vec.nextCapacity, element.layout.align⟩ →
    ∃ kind middle, kind.OfSize ∧ middle.memory = store.memory ∧
      vec.push element value store = (.error kind, (element.destroy value middle).2)
  insert_exceeding : ∀ index value, index ≤ vec.length → vec.length = vec.capacity →
    element.layout.Exceeds vec.nextCapacity →
      vec.insert element index value store =
        (.error .integerOverflow, (element.destroy value store).2)
  insert_lacking : ∀ index value, index ≤ vec.length → vec.length = vec.capacity →
    store.memory.backend.Lacks regions
      ⟨element.layout.size * vec.nextCapacity, element.layout.align⟩ →
    ∃ kind middle, kind.OfSize ∧ middle.memory = store.memory ∧
      vec.insert element index value store = (.error kind, (element.destroy value middle).2)

theorem reserve_of_exceeds {capacity : Nat} (hword : capacity < Word.limit)
    (hmore : vec.capacity < capacity) (hlarge : element.layout.Exceeds capacity)
    (store : Store) : vec.reserve element capacity store = (.error .integerOverflow, store) := by
  unfold reserve
  rw [if_neg (Nat.not_le_of_lt hmore), hlarge.array?_eq_none hword]
  rfl

theorem reserveAdditional_of_exceeds {additional : Nat}
    (hmore : vec.capacity < vec.length + additional)
    (hlarge : element.layout.Exceeds (vec.length + additional)) (store : Store) :
    vec.reserveAdditional element additional store = (.error .integerOverflow, store) := by
  unfold reserveAdditional
  cases hcapacity : Word.add? vec.length additional with
  | none => rfl
  | some capacity =>
    obtain ⟨hword, rfl⟩ := Word.fit?_eq_some_iff.1 hcapacity
    exact reserve_of_exceeds hword hmore hlarge store

theorem growForOne_of_exceeds (hfull : vec.length = vec.capacity)
    (hlarge : element.layout.Exceeds vec.nextCapacity) (store : Store) :
    vec.growForOne element store = (.error .integerOverflow, store) := by
  have hnoroom : ¬ vec.length < vec.capacity := Nat.not_lt_of_le (Nat.le_of_eq hfull.symm)
  unfold nextCapacity at hlarge
  unfold growForOne
  rw [if_neg hnoroom] at hlarge ⊢
  by_cases hnone : vec.capacity = 0
  · rw [if_pos hnone] at hlarge ⊢
    exact reserve_of_exceeds (by decide) (by rw [hnone]; decide) hlarge store
  rw [if_neg hnone] at hlarge ⊢
  cases hcapacity : Word.mul? vec.capacity 2 with
  | none => rfl
  | some capacity =>
    obtain ⟨hword, rfl⟩ := Word.fit?_eq_some_iff.1 hcapacity
    exact reserve_of_exceeds hword (by omega) hlarge store

theorem growForOne_of_lacks (h : vec.Sound element regions store.memory)
    (hfull : vec.length = vec.capacity) (hlacks : store.memory.backend.Lacks regions
      ⟨element.layout.size * vec.nextCapacity, element.layout.align⟩) :
    ∃ kind middle, kind.OfSize ∧ middle.memory = store.memory ∧
      vec.growForOne element store = (.error kind, middle) := by
  have hserved := growForOne_served h
  have hmore := length_lt_nextCapacity h.roomy
  rcases hgrown : vec.growForOne element store with ⟨kind | grown, middle⟩
  · rw [hgrown] at hserved
    exact ⟨kind, middle, hserved.1, hserved.2, rfl⟩
  · rw [hgrown] at hserved
    obtain ⟨-, -, -, -, hroom⟩ := hserved
    exact absurd hlacks (hroom (by omega))

theorem Sound.reckons (h : vec.Sound element regions store.memory) :
    vec.Reckons element regions store where
  reserve _ hword := ⟨reserve_exact h hword, reserve_served h hword⟩
  reserveAdditional additional _ :=
    ⟨reserveAdditional_exact h additional, reserveAdditional_served h additional⟩
  growForOne := ⟨growForOne_exact h, growForOne_served h⟩
  push := push_exact h
  insert := insert_exact h
  reserve_exceeding _ hword hmore hlarge := reserve_of_exceeds hword hmore hlarge store
  reserveAdditional_exceeding _ hmore hlarge := reserveAdditional_of_exceeds hmore hlarge store
  push_exceeding value hfull hlarge := by
    rw [VecCall.push_apply, growForOne_of_exceeds hfull hlarge]
  push_lacking value hfull hlacks := by
    obtain ⟨kind, middle, hsize, hmemory, hgrown⟩ := growForOne_of_lacks h hfull hlacks
    exact ⟨kind, middle, hsize, hmemory, by rw [VecCall.push_apply, hgrown]⟩
  insert_exceeding index value hinside hfull hlarge := by
    rw [VecCall.insert_apply, if_neg (Nat.not_lt_of_le hinside), growForOne_of_exceeds hfull hlarge]
  insert_lacking index value hinside hfull hlacks := by
    obtain ⟨kind, middle, hsize, hmemory, hgrown⟩ := growForOne_of_lacks h hfull hlacks
    refine ⟨kind, middle, hsize, hmemory, ?_⟩
    rw [VecCall.insert_apply, if_neg (Nat.not_lt_of_le hinside), hgrown]

end Vec

/-! ## Whatever has happened -/

namespace AllocatorState

/-- No step of an arena, of a free list, or of what is built on them leaves the range of a word,
and a request that does not fit is refused before anything has changed.  Of vectors this holds
if their block is in use, as it is whenever a vector has come about by calls. -/
theorem words_suffice {state : AllocatorState} (hreachable : state.Reachable)
    (hbelow : state.memory.backend.Below state.regions) :
    state.Reckons ∧
      ∀ store : Store, store.memory = state.memory →
        (∀ {α : Type} (element : Element α), element.layout.Valid →
          (∀ others, ∀ vec : Vec α, vec.Resides element state.regions others store.memory →
            vec.Reckons element state.regions store) ∧
          ∀ {β : Type} (builder : Builder β α),
            (Courteous element builder → ∀ others vec,
              VecRun.Reached element builder state.regions others (some vec) store →
                vec.Reckons element state.regions store) ∧
              FixedArray.Reckons element builder state.regions store) ∧
        ∀ {α : Type} (type : CountedType α), type.layout.Valid →
          ∀ values : CountedValues α, values.Reckons type state.regions store := by
  have hsolid := hreachable.solid hbelow
  refine ⟨hsolid.reckons, fun store hmemory => ?_⟩
  have hbackend := hsolid.backend
  rw [← hmemory] at hbackend hbelow
  refine ⟨fun element hvalid => ⟨fun others vec hresides => ?_, fun builder =>
    ⟨fun hcourteous others vec hreached => ?_, ?_⟩⟩, fun type hvalid => ?_⟩
  · exact (hresides.sound hbelow hvalid).reckons
  · have hresides := hreached.resides hvalid hcourteous
    exact (Vec.Resides.sound hresides hbelow hvalid).reckons
  · exact FixedArray.reckons hbackend hvalid
  · exact CountedValues.reckons hbackend hvalid

/-! ### A region below the limit -/

/-- The last memory that a word can name. -/
def summit : AllocatorState :=
  live { memory := { backend := .freeList {} } }
    [.demand (.addRegion ⟨Word.limit - 4096, 4095⟩)]

/-- Two blocks in it. -/
def summitState : AllocatorState :=
  summit.live [.demand (.allocate ⟨192, 8⟩), .demand (.allocate ⟨16, 8⟩)]

def triples : Element Nat where
  bitwise := true
  relocate := fun _ _ value => pure value
  destroy := fun _ => pure ()
  settle := fun _ value => value
  layout := ⟨24, 8⟩

def plainTriples : Builder Nat Nat where
  produce := pure
  constructAt := fun _ => pure

theorem triples_courteous : Courteous triples plainTriples := by
  intro before after haside regions held hheld
  cases haside with
  | log level message =>
    rw [Effect.memory_log]
    exact hheld
  | relocate | destroy | construct => exact hheld

/-- A vector in the first block. -/
def summitVec : Vec Nat where
  buffer := Word.limit - 4096
  capacity := 8

def founded : Option (Vec Nat) × Store :=
  (VecCall.create (some 8)).step triples plainTriples none { memory := summit.memory }

def summitStore : Store := (Allocator.allocate ⟨16, 8⟩ founded.2).2

theorem summit_reachable : summit.Reachable :=
  ⟨{ backend := .freeList {} }, _, rfl, by decide +kernel, rfl⟩

/-- The vector is created, and others ask for the second block. -/
theorem summit_reached : VecRun.Reached triples plainTriples summit.regions
    {.of ⟨16, 8⟩ ⟨Word.limit - 3904, 16⟩} (some summitVec) summitStore := by
  have hheld : summit.memory.InUse summit.regions 0 :=
    ⟨summit, summit_reachable, rfl, rfl, Multiset.zero_le _⟩
  have hstart : VecRun.Reached triples plainTriples summit.regions 0 none
      { memory := summit.memory } := .start hheld
  have hcreated := hstart.call (.create (some 8)) (show 8 < Word.limit by decide)
  have hfounded : founded.1 = some summitVec := rfl
  have hcreated' : VecRun.Reached triples plainTriples summit.regions 0 (some summitVec)
      founded.2 := hfounded ▸ hcreated
  refine hcreated'.meanwhile fun own hown => ?_
  have hgranted : founded.2.memory.allocate ⟨16, 8⟩ =
      .ok (⟨Word.limit - 3904, 16⟩, summitStore.memory) := rfl
  have hafter := hown.granted (by decide) hgranted
  rwa [add_zero, ← Multiset.singleton_add, add_comm] at hafter

theorem words_suffice_summit :
    summitState.Reachable ∧ summitState.memory.backend.Below summitState.regions ∧
      summitState.Reckons ∧ Courteous triples plainTriples ∧
      VecRun.Reached triples plainTriples summitState.regions
        {.of ⟨16, 8⟩ ⟨Word.limit - 3904, 16⟩} (some summitVec) summitStore ∧
      summitVec.Reckons triples summitState.regions summitStore ∧
      summitVec.reserve triples (1 <<< 63) summitStore =
        (.error .integerOverflow, summitStore) := by
  have hreachable : summitState.Reachable :=
    (summit_reachable.perform (.allocate ⟨192, 8⟩) (by decide)).perform (.allocate ⟨16, 8⟩)
      (by decide)
  have hbelow : summitState.memory.backend.Below summitState.regions := by
    show ∀ region ∈ [(⟨Word.limit - 4096, 4095⟩ : Span)], region.stop < Word.limit
    decide
  obtain ⟨hreckons, hcontainers⟩ := words_suffice hreachable hbelow
  have hvec := (((hcontainers summitStore rfl).1 triples (by decide)).2 plainTriples).1
    triples_courteous _ summitVec summit_reached
  exact ⟨hreachable, hbelow, hreckons, triples_courteous, summit_reached, hvec,
    hvec.reserve_exceeding (1 <<< 63) (by decide) (by decide) (by right; decide)⟩

end AllocatorState
end Freehold
