import Freehold.Proofs.Vec.AnchoredRows
import Freehold.Proofs.Vec.AllocatorRuns

/-!
# Vectors used as stacks

A vector that is only pushed to, popped from and cleared relocates its elements in one case:
a push finds the buffer full and the allocator does not grow it in place.  Then every
element moves once, and the capacity is doubled at least.  The capacity pays for this.  After
each move it exceeds the number of all relocations so far, and as the buffer was full, half
of it was reached by pushes.  So the relocations of a run stay below twice the number of its
pushes, whatever the allocator answers and however often elements are taken off again.
-/

namespace Freehold

variable {α β : Type}

/-- The record lists the latest relocation first. -/
theorem Store.Moves.relocations_eq {before after : Store} {moves : List (Spot × Spot)}
    (h : before.Moves after moves) :
    relocations after.trace = moves.reverse ++ relocations before.trace := by
  obtain ⟨entries, htrace, rfl⟩ := h
  have hreversed : relocations entries.reverse = (relocations entries).reverse :=
    List.filterMap_reverse
  rw [htrace, relocations_append, hreversed]

theorem Vec.clear_capacity (element : Element α) (vec : Vec α) (store : Store) :
    (vec.clear element store).1.capacity = vec.capacity := by
  unfold clear
  cases vec.bufferLayout? element with
  | none => rfl
  | some held =>
    by_cases hlarge : discardThreshold ≤ held.size
    · simp only [hlarge, if_true]
      rfl
    · simp only [hlarge, if_false]
      rfl

namespace VecCall

def pushes : VecCall α β → Bool
  | push _ | emplace _ => true
  | _ => false

/-- Elements are put on top, taken from there, or all cleared away. -/
def Stacks : VecCall α β → Prop
  | push _ | emplace _ | pop | tryPop | clear => True
  | _ => False

theorem Stacks.inWord {call : VecCall α β} (h : call.Stacks) : call.InWord := by
  cases call with
  | push | emplace | pop | tryPop | clear => trivial
  | create | reserve | reserveAdditional | insert | remove | tryGet | indexed | drop => cases h

theorem step_some (element : Element α) (builder : Builder β α) (vec : Vec α)
    (call : VecCall α β) (store : Store) :
    call.step element builder (some vec) store =
      ((call.act element builder vec store).1.2, (call.act element builder vec store).2) := rfl

/-- A call on a list that is used as a stack makes it longer by one element at most. -/
theorem Stacks.length_le {call : VecCall α β} (h : call.Stacks) {κ : Type} {builder : Builder β α}
    {view : α → κ} {capacity : Nat} {before after : List κ} {reply : Reply κ}
    (hlist : call.OnList builder view capacity before reply after) :
    after.length ≤ before.length + if call.pushes then 1 else 0 := by
  cases call with
  | push value =>
    rcases hlist with ⟨-, rfl⟩ | ⟨-, rfl⟩
    · simp [pushes]
    · exact Nat.le_add_right _ _
  | emplace args =>
    rcases hlist with ⟨value, spot, store, store', -, -, rfl⟩ | ⟨-, rfl⟩ |
      ⟨kind, spot, store, store', -, -, rfl⟩
    · simp [pushes]
    · exact Nat.le_add_right _ _
    · exact Nat.le_add_right _ _
  | pop | tryPop =>
    unfold OnList at hlist
    cases hlast : before.getLast? with
    | none =>
      rw [hlast] at hlist
      exact Nat.le_of_eq (congrArg List.length hlist.2)
    | some value =>
      rw [hlast] at hlist
      rw [hlist.2, List.length_dropLast]
      omega
  | clear =>
    rw [hlist.2]
    exact Nat.zero_le _
  | create | reserve | reserveAdditional | insert | remove | tryGet | indexed | drop => cases h

/-- A call on a stack has the capacity that its growth answers with. -/
theorem Stacks.capacity_eq {call : VecCall α β} (h : call.Stacks) (element : Element α)
    (builder : Builder β α) (vec : Vec α) (store : Store) {next : Vec α}
    (hnext : (call.act element builder vec store).1.2 = some next) :
    next.capacity =
      match (call.growing element vec store).1 with
      | .ok grown => grown.capacity
      | .error _ => vec.capacity := by
  cases call with
  | push value =>
    simp only [act, attempting_apply, push_apply, growing] at hnext ⊢
    generalize vec.growForOne element store = run at hnext ⊢
    obtain ⟨answer, middle⟩ := run
    cases answer with
    | error kind => exact congrArg Vec.capacity (Option.some.inj hnext).symm
    | ok grown =>
      obtain rfl := Option.some.inj hnext
      rfl
  | emplace args =>
    simp only [act, Vec.emplace, ExceptT.run, Effect.bind_apply, growing] at hnext ⊢
    generalize vec.growForOne element store = run at hnext ⊢
    obtain ⟨answer, middle⟩ := run
    cases answer with
    | error kind => exact congrArg Vec.capacity (Option.some.inj hnext).symm
    | ok grown =>
      dsimp only [Effect.bind_apply] at hnext ⊢
      generalize builder.constructAt _ args middle = built at hnext
      obtain ⟨answer, after⟩ := built
      cases answer with
      | error kind => exact congrArg Vec.capacity (Option.some.inj hnext).symm
      | ok value =>
        obtain rfl := Option.some.inj hnext
        rfl
  | pop =>
    simp only [act] at hnext
    cases hpop : vec.pop with
    | none =>
      rw [hpop] at hnext
      exact congrArg Vec.capacity (Option.some.inj hnext).symm
    | some taken =>
      rw [hpop] at hnext
      obtain rfl := Option.some.inj hnext
      exact (Abreast.pop_buffer hpop).2
  | tryPop =>
    simp only [act, Vec.tryPop] at hnext
    cases hpop : vec.pop with
    | none =>
      rw [hpop] at hnext
      exact congrArg Vec.capacity (Option.some.inj hnext).symm
    | some taken =>
      rw [hpop] at hnext
      obtain rfl := Option.some.inj hnext
      exact (Abreast.pop_buffer hpop).2
  | clear =>
    obtain rfl := Option.some.inj hnext
    exact Vec.clear_capacity element vec store
  | create | reserve | reserveAdditional | insert | remove | tryGet | indexed | drop => cases h

end VecCall

namespace Turn

def pushes : Turn α β → Bool
  | call request => request.pushes
  | meanwhile _ => false

def Stacks : Turn α β → Prop
  | call request => request.Stacks
  | meanwhile _ => True

/-- Others put no relocation on record. -/
def Still : Turn α β → Prop
  | call _ => True
  | meanwhile change => ∀ store, relocations (change store).trace = relocations store.trace

/-- One turn after the other. -/
def takeAll (element : Element α) (builder : Builder β α) (vec? : Option (Vec α)) (store : Store)
    (turns : List (Turn α β)) : Option (Vec α) × Store :=
  turns.foldl (fun state turn => turn.take element builder state.1 state.2) (vec?, store)

end Turn

/-- The calls that put an element on top, also if they fail. -/
def pushCount (turns : List (Turn α β)) : Nat := turns.countP Turn.pushes

namespace Vec

/-- The capacity is the same, or twice as large at least and not below the first one. -/
def Doubles (vec next : Vec α) : Prop :=
  next.capacity = vec.capacity ∨
    (2 * vec.capacity ≤ next.capacity ∧ firstCapacity ≤ next.capacity)

/-- The elements that are relocated on the way to a capacity: none, or all elements of a full
buffer that is doubled. -/
def Affords (vec : Vec α) (capacity : Nat) (moves : List (Spot × Spot)) : Prop :=
  (moves = [] ∧ capacity = vec.capacity) ∨
    (vec.length = vec.capacity ∧ 2 * vec.capacity ≤ capacity ∧ firstCapacity ≤ capacity ∧
      (moves = [] ∨ moves.length = vec.capacity))

theorem Affords.doubles {vec next : Vec α} {moves : List (Spot × Spot)}
    (h : vec.Affords next.capacity moves) : vec.Doubles next := by
  rcases h with ⟨-, hsame⟩ | ⟨-, hdoubled, hfirst, -⟩
  · exact Or.inl hsame
  · exact Or.inr ⟨hdoubled, hfirst⟩

/-- A run from one vector to another with the relocations of its calls.  Each call leaves the
capacity or doubles it. -/
inductive Climbs (stock : Stock α β) :
    Vec α → Store → List (Turn α β) → List (Spot × Spot) → Vec α → Store → Prop
  | done (vec : Vec α) (store : Store) : Climbs stock vec store [] [] vec store
  | call {vec next last : Vec α} {store middle after : Store} {request : VecCall α β}
    {turns : List (Turn α β)} {moves later : List (Spot × Spot)}
    (hstep : request.step stock.element stock.builder (some vec) store = (some next, middle))
    (hdoubles : vec.Doubles next) (hmoves : stock.Relocates store middle moves)
    (hlater : Climbs stock next middle turns later last after) :
    Climbs stock vec store (.call request :: turns) (moves ++ later) last after
  | meanwhile {vec last : Vec α} {store after : Store} {change : Store → Store}
    {turns : List (Turn α β)} {later : List (Spot × Spot)}
    (hlater : Climbs stock vec (change store) turns later last after) :
    Climbs stock vec store (.meanwhile change :: turns) later last after

/-- The run is the one that the turns lead to. -/
theorem Climbs.taken {stock : Stock α β} {vec last : Vec α} {store after : Store}
    {turns : List (Turn α β)} {moves : List (Spot × Spot)}
    (h : Climbs stock vec store turns moves last after) :
    Turn.takeAll stock.element stock.builder (some vec) store turns = (some last, after) := by
  induction h with
  | done vec store => rfl
  | call hstep _ _ _ ih =>
    unfold Turn.takeAll Turn.take at ih ⊢
    rw [List.foldl_cons]
    dsimp only
    rw [hstep]
    exact ih
  | meanwhile _ ih => exact ih

/-- The record of a tacit type lists the relocations of a run. -/
theorem Climbs.on_record {stock : Stock α β} (htacit : stock.Tacit) {vec last : Vec α}
    {store after : Store} {turns : List (Turn α β)} {moves : List (Spot × Spot)}
    (h : Climbs stock vec store turns moves last after) (hstill : ∀ turn ∈ turns, turn.Still) :
    (relocations after.trace).length = (relocations store.trace).length + moves.length := by
  induction h with
  | done vec store => rfl
  | @call vec next last store middle after request turns moves later _ _ hmoves _ ih =>
    have hrest := ih fun turn hmem => hstill turn (List.mem_cons_of_mem _ hmem)
    obtain ⟨steps, hcourse, rfl⟩ := hmoves
    rw [hrest, (hcourse.on_record htacit).relocations_eq]
    simp only [List.length_append, List.length_reverse]
    omega
  | @meanwhile vec last store after change turns later _ ih =>
    have hrest := ih fun turn hmem => hstill turn (List.mem_cons_of_mem _ hmem)
    have hsame : relocations (change store).trace = relocations store.trace :=
      hstill (.meanwhile change) List.mem_cons_self store
    rw [hrest, hsame]

/-- A vector in the middle of a run, with the number of pushes and of relocations so far. -/
structure Stacked (stock : Stock α β) (vec : Vec α) (pushed moved : Nat) : Prop where
  shown : ∃ items : List Unit, vec.Shows (fun _ => ()) items
  roomy : vec.Roomy stock.element
  length_le : vec.length ≤ pushed
  started : vec.capacity = 0 ∨ firstCapacity ≤ vec.capacity
  /-- The capacity exceeds the number of relocations, and half of it was reached. -/
  paid : moved = 0 ∨ (moved + firstCapacity ≤ vec.capacity ∧ moved + firstCapacity ≤ 2 * pushed)

theorem Stacked.start (stock : Stock α β) : Stacked stock (empty stock.element) 0 0 where
  shown := ⟨[], empty_shows stock.element _⟩
  roomy := empty_roomy stock.element
  length_le := Nat.le_refl 0
  started := by
    unfold empty
    dsimp only
    split
    · exact Or.inr (by decide)
    · exact Or.inl rfl
  paid := Or.inl rfl

section Steps

variable {stock : Stock α β} {vec : Vec α} {pushed moved : Nat}

theorem Stacked.live (h : Stacked stock vec pushed moved) : vec.Live := by
  obtain ⟨items, hshows⟩ := h.shown
  exact hshows.live_unit

/-- The elements that a growth relocates are all or none. -/
theorem Growth.relocated {grown : Vec α} {store after : Store}
    (h : Growth stock vec store (.ok grown, after)) :
    ∃ moves, stock.Relocates store after moves ∧ (moves = [] ∨ moves.length = vec.length) := by
  cases h with
  | enough => exact ⟨[], .refl stock store, Or.inl rfl⟩
  | first _ hcourse => exact ⟨_, hcourse.relocates, Or.inl rfl⟩
  | inPlace hcourse => exact ⟨_, hcourse.relocates, Or.inl rfl⟩
  | @moved held wanted block kind middle _ hcourse =>
    refine ⟨_, hcourse.relocates, Or.inr ?_⟩
    have hmoves : relocations
        ([.call (.expand vec.buffer held.size wanted.size (.error kind)),
            .call (.allocate wanted (.ok block))] ++
          relocating (transfers vec.buffer block.address vec.length) ++
          [.call (.deallocate vec.buffer held)]) =
        transfers vec.buffer block.address vec.length := by
      rw [relocations_append, relocations_append, relocations_relocating]
      exact List.append_nil _
    rw [hmoves]
    simp [transfers]

variable (hbitwise : stock.element.bitwise = false) (hsized : stock.element.layout.size ≠ 0)
  (h : Stacked stock vec pushed moved)

include hbitwise hsized h

/-- Room for one more element is there already, or a full buffer is doubled. -/
theorem Stacked.growForOne {grown : Vec α} {store after : Store}
    (hgrown : vec.growForOne stock.element store = (.ok grown, after)) :
    ∃ moves, stock.Relocates store after moves ∧ vec.Affords grown.capacity moves := by
  have hgrowth := growForOne_growth hbitwise h.live h.roomy store
  have hle := h.roomy.length_le
  by_cases hroom : vec.length < vec.capacity
  · unfold Vec.growForOne at hgrown
    rw [if_pos hroom] at hgrown
    obtain ⟨hsame, rfl⟩ := Prod.mk.inj hgrown
    obtain rfl := Except.ok.inj hsame
    exact ⟨[], .refl stock store, Or.inl ⟨rfl, rfl⟩⟩
  have hfull : vec.length = vec.capacity := by omega
  rw [hgrown] at hgrowth
  obtain ⟨moves, hmoves, hcount⟩ := hgrowth.relocated
  rw [hfull] at hcount
  have hreserved (capacity : Nat)
      (hanswer : vec.reserve stock.element capacity store = (.ok grown, after)) :
      capacity ≤ grown.capacity := by
    have hgrows :=
      reserve_grows_of_sized (faithful_unit stock.element) h.roomy hsized capacity store
    rw [hanswer] at hgrows
    exact hgrows.2.2.2
  refine ⟨moves, hmoves, Or.inr ⟨hfull, ?_⟩⟩
  unfold Vec.growForOne at hgrown
  rw [if_neg hroom] at hgrown
  by_cases hnone : vec.capacity = 0
  · rw [if_pos hnone] at hgrown
    have hfirst := hreserved firstCapacity hgrown
    exact ⟨by omega, hfirst, hcount⟩
  · rw [if_neg hnone] at hgrown
    cases hcapacity : Word.mul? vec.capacity 2 with
    | none =>
      rw [hcapacity] at hgrown
      cases hgrown
    | some capacity =>
      obtain ⟨-, rfl⟩ := Word.fit?_eq_some_iff.1 hcapacity
      rw [hcapacity] at hgrown
      have hdoubled := hreserved (vec.capacity * 2) hgrown
      have hstarted := h.started
      exact ⟨by omega, by omega, hcount⟩

/-- What a call on a stack relocates in all, and the capacity that it comes to. -/
theorem Stacked.affords {request : VecCall α β} (hstacks : request.Stacks) (store : Store)
    {next : Vec α}
    (hnext : (request.act stock.element stock.builder vec store).1.2 = some next) :
    ∃ moves, vec.Affords next.capacity moves ∧
      stock.Relocates store (request.act stock.element stock.builder vec store).2 moves := by
  have hacts := VecCall.act_relocates hbitwise h.live h.roomy request store
  have hcapacity := hstacks.capacity_eq stock.element stock.builder vec store hnext
  have hgrowth := VecCall.growing_growth hbitwise h.live h.roomy hstacks.inWord store
  -- Nothing is shifted in a stack.
  have hnothing : ∀ answer, request.shifting vec answer = [] := by
    intro answer
    cases request with
    | push | emplace | pop | tryPop | clear => rfl
    | create | reserve | reserveAdditional | insert | remove | tryGet | indexed | drop =>
      cases hstacks
  rw [hnothing] at hacts
  cases hrun : request.growing stock.element vec store with
  | mk answer middle =>
    rw [hrun] at hacts hcapacity hgrowth
    cases answer with
    | error kind =>
      cases hgrowth with
      | failed hidle => exact ⟨[], Or.inl ⟨rfl, hcapacity⟩, hidle.trans hacts⟩
    | ok grown =>
      have hroom : ∃ moves, stock.Relocates store middle moves ∧
          vec.Affords grown.capacity moves := by
        cases request with
        | push | emplace => exact h.growForOne hbitwise hsized hrun
        | pop | tryPop | clear =>
          obtain ⟨hsame, rfl⟩ := Prod.mk.inj hrun
          obtain rfl := Except.ok.inj hsame
          exact ⟨[], .refl stock store, Or.inl ⟨rfl, rfl⟩⟩
        | create | reserve | reserveAdditional | insert | remove | tryGet | indexed | drop =>
          cases hstacks
      obtain ⟨moves, hmoves, haffords⟩ := hroom
      have hboth := hmoves.trans hacts
      rw [List.append_nil] at hboth
      have hsame : next.capacity = grown.capacity := hcapacity
      exact ⟨moves, hsame ▸ haffords, hboth⟩

/-- One call on a stack: what it relocates is paid for. -/
theorem Stacked.call {request : VecCall α β} (hstacks : request.Stacks) (store : Store) :
    ∃ next middle moves,
      request.step stock.element stock.builder (some vec) store = (some next, middle) ∧
        vec.Doubles next ∧ stock.Relocates store middle moves ∧
        Stacked stock next (pushed + if request.pushes then 1 else 0) (moved + moves.length) := by
  obtain ⟨items, hshows⟩ := h.shown
  have hrefines := VecCall.act_refines stock.builder (faithful_unit stock.element) hshows h.roomy
    request hstacks.inWord store
  rw [VecCall.step_some]
  cases hnext : (request.act stock.element stock.builder vec store).1.2 with
  | none =>
    rw [hrefines.gone hnext] at hstacks
    cases hstacks
  | some next =>
    obtain ⟨moves, haffords, hmoves⟩ := h.affords hbitwise hsized hstacks store hnext
    have hfollows := hrefines.follows next hnext
    have hlonger := hstacks.length_le hrefines.onList
    rw [← hfollows.shows.length_eq, ← hshows.length_eq] at hlonger
    have hlength := h.length_le
    have hstarted := h.started
    have hpaid := h.paid
    refine ⟨next, _, moves, rfl, haffords.doubles, hmoves, ⟨_, hfollows.shows⟩, hfollows.roomy,
      by omega, ?_, ?_⟩
    · rcases haffords with ⟨-, hsame⟩ | ⟨-, -, hfirst, -⟩
      · omega
      · exact Or.inr hfirst
    · rcases haffords with ⟨rfl, hsame⟩ | ⟨hfull, hdoubled, hfirst, hcount⟩
      · simp only [List.length_nil, Nat.add_zero]
        omega
      · -- All elements move only when the buffer is full, so half of the new capacity is reached.
        have hmost : moves.length = 0 ∨ moves.length = vec.capacity := by
          rcases hcount with rfl | hcount
          · exact Or.inl rfl
          · exact Or.inr hcount
        omega

/-- Whatever the turns of a run on a stack are, the relocations are paid for. -/
theorem Stacked.run (turns : List (Turn α β)) (hstacks : ∀ turn ∈ turns, turn.Stacks)
    (store : Store) :
    ∃ moves last after, Climbs stock vec store turns moves last after ∧
      Stacked stock last (pushed + pushCount turns) (moved + moves.length) := by
  induction turns generalizing vec pushed moved store with
  | nil => exact ⟨[], vec, store, .done vec store, h⟩
  | cons turn later ih =>
    have hfirst := hstacks turn List.mem_cons_self
    have hrest : ∀ turn ∈ later, turn.Stacks :=
      fun turn hmem => hstacks turn (List.mem_cons_of_mem _ hmem)
    cases turn with
    | meanwhile change =>
      obtain ⟨moves, last, after, hclimbs, hstacked⟩ := ih h hrest (change store)
      exact ⟨moves, last, after, .meanwhile hclimbs, hstacked⟩
    | call request =>
      obtain ⟨next, middle, moves, hstep, hdoubles, hmoves, hnext⟩ :=
        h.call hbitwise hsized hfirst store
      obtain ⟨rest, last, after, hclimbs, hstacked⟩ := ih hnext hrest middle
      refine ⟨moves ++ rest, last, after, .call hstep hdoubles hmoves hclimbs, ?_⟩
      have hpushed : pushCount (.call request :: later) =
          (if request.pushes then 1 else 0) + pushCount later := by
        unfold pushCount
        rw [List.countP_cons, Nat.add_comm]
        rfl
      rw [hpushed, List.length_append, ← Nat.add_assoc, ← Nat.add_assoc]
      exact hstacked

end Steps

/-- On a vector that is used as a stack, each growth doubles the capacity at least, and a run
with some pushes relocates fewer elements than twice their number.  For a type that puts no
relocations on record itself, these are the relocations on record. -/
theorem pushes_amortized (stock : Stock α β) (hbitwise : stock.element.bitwise = false)
    (hsized : stock.element.layout.size ≠ 0) {turns : List (Turn α β)}
    (hstacks : ∀ turn ∈ turns, turn.Stacks) (store : Store) :
    ∃ moves last after, Climbs stock (empty stock.element) store turns moves last after ∧
      (0 < pushCount turns → moves.length < 2 * pushCount turns) ∧
      (pushCount turns = 0 → moves = []) ∧
      (stock.Tacit → (∀ turn ∈ turns, turn.Still) →
        (relocations after.trace).length = (relocations store.trace).length + moves.length) := by
  obtain ⟨moves, last, after, hclimbs, hstacked⟩ :=
    (Stacked.start stock).run hbitwise hsized turns hstacks store
  have hpaid := hstacked.paid
  rw [Nat.zero_add, Nat.zero_add] at hpaid
  have hfirst : 0 < firstCapacity := by decide
  refine ⟨moves, last, after, hclimbs, fun hpos => by omega, fun hnone => ?_, ?_⟩
  · exact List.eq_nil_of_length_eq_zero (by omega)
  · exact fun htacit hstill => hclimbs.on_record htacit hstill

/-- Others take the memory behind the first buffer, so the ninth element moves the others. -/
def piled : List (Turn Piece Datum) :=
  List.replicate 8 (.call (.push { datum := .number 1 })) ++
    [.call .pop, .call .tryPop, .call (.emplace (.number 2)), .call (.emplace (.number 3)),
      .meanwhile fun store => (Allocator.allocate ⟨40, 8⟩ store).2] ++
    List.replicate 9 (.call (.push { datum := .number 4 })) ++ [.call .clear, .call .pop]

theorem pushes_amortized_piled :
    (∀ turn ∈ piled, turn.Stacks) ∧ (∀ turn ∈ piled, turn.Still) ∧ pushCount piled = 19 ∧
      ∃ moves last after,
        Climbs Catalogue.anchored.stock (empty Catalogue.anchored.element) VecRun.crowdedStore
          piled moves last after ∧
        moves.length < 2 * 19 ∧ moves.length = 8 := by
  have hkinds : ∀ turn ∈ piled, turn.Stacks ∧ turn.Still := by
    intro turn hmem
    simp only [piled, List.mem_append, List.mem_replicate, List.mem_cons, List.not_mem_nil,
      or_false] at hmem
    rcases hmem with ((⟨-, rfl⟩ | rfl | rfl | rfl | rfl | rfl) | ⟨-, rfl⟩) | rfl | rfl
    case inl.inl.inr.inr.inr.inr.inr =>
      exact ⟨trivial, fun store => (Allocator.still_allocate ⟨40, 8⟩ store).relocations_eq⟩
    all_goals exact ⟨trivial, trivial⟩
  have hstacks : ∀ turn ∈ piled, turn.Stacks := fun turn hmem => (hkinds turn hmem).1
  have hstill : ∀ turn ∈ piled, turn.Still := fun turn hmem => (hkinds turn hmem).2
  have hcount : pushCount piled = 19 := by decide
  obtain ⟨moves, last, after, hclimbs, hfew, -, hrecord⟩ :=
    pushes_amortized Catalogue.anchored.stock rfl (by decide) hstacks VecRun.crowdedStore
  refine ⟨hstacks, hstill, hcount, moves, last, after, hclimbs, ?_, ?_⟩
  · rw [hcount] at hfew
    exact hfew (by decide)
  · have hlisted := hrecord Catalogue.anchored.tacit hstill
    have hcounted : (relocations (Turn.takeAll Catalogue.anchored.stock.element
        Catalogue.anchored.stock.builder (some (empty Catalogue.anchored.stock.element))
        VecRun.crowdedStore piled).2.trace).length = 8 := by decide +kernel
    have hnone : (relocations VecRun.crowdedStore.trace).length = 0 := rfl
    rw [hclimbs.taken] at hcounted
    dsimp only at hcounted
    omega

end Vec
end Freehold
