import Freehold.Proofs.Memory.Sizes

/-!
# Refusals

A request that is refused leaves nothing but a count of requests and a record that tells of
refusals.  No allocator finds fault with the size of a valid layout, so whoever asks for one
knows that its size is not to blame.
-/

namespace Freehold

/-! ## Feasible requests -/

/-- The request is granted, or refused for another cause than its size. -/
def Feasible {γ : Type} : Except Refusal γ → Prop
  | .ok _ => True
  | .error refusal => refusal.kind ≠ .integerOverflow

theorem feasible_shortage {γ : Type} (remark : Option String) :
    Feasible (.error ⟨.allocationFailed, remark⟩ : Except Refusal γ) :=
  (by decide : ErrorKind.allocationFailed ≠ .integerOverflow)

theorem Feasible.map {γ δ : Type} {answer : Except Refusal γ} (h : Feasible answer)
    (change : γ → δ) : Feasible (answer.map change) := by
  cases answer with
  | ok value => trivial
  | error refusal => exact h

theorem Layout.Valid.roundUp?_eq {layout : Layout} (hvalid : layout.Valid) (backend : Backend) :
    Word.roundUp? layout.size backend.granule =
      some (Word.roundUp layout.size backend.granule) :=
  Word.fit?_eq_some_iff.2 ⟨hvalid.roundUp_lt backend, rfl⟩

theorem StackArena.allocate_feasible (arena : StackArena) (layout : Layout) :
    Feasible (arena.allocate layout) := by
  unfold allocate
  split
  · trivial
  split
  · exact feasible_shortage _
  split
  · exact feasible_shortage _
  split
  · exact feasible_shortage _
  · trivial

theorem FreeList.allocate_feasible (list : FreeList) {layout : Layout} (hvalid : layout.Valid) :
    Feasible (list.allocate layout) := by
  have hround : Word.roundUp? layout.size granule = _ := hvalid.roundUp?_eq (.freeList list)
  unfold allocate
  rw [hround]
  split
  · trivial
  dsimp only
  split
  · exact feasible_shortage _
  · trivial

namespace Heap

theorem allocate_feasible (heap : Heap) (layout : Layout) : Feasible (heap.allocate layout) := by
  unfold allocate
  split
  · trivial
  split
  · exact feasible_shortage _
  · trivial

theorem reallocate_feasible (heap : Heap) (address : Nat) {layout : Layout} {wanted : Nat}
    (hwanted : Layout.Valid ⟨wanted, layout.align⟩) :
    Feasible (heap.reallocate address layout wanted) := by
  unfold reallocate
  rw [Layout.of?_eq_some_iff.2 ⟨hwanted, rfl⟩]
  split
  · trivial
  dsimp only
  split
  · exact heap.allocate_feasible _
  split
  · exact feasible_shortage _
  · trivial

end Heap

namespace PageMap

variable (pages : PageMap) {layout : Layout} (hvalid : layout.Valid)

include hvalid

theorem allocate_feasible : Feasible (pages.allocate layout) := by
  have hround : Word.roundUp? layout.size pages.pageSize = _ := hvalid.roundUp?_eq (.pages pages)
  unfold allocate
  rw [hround]
  split
  · trivial
  split
  · exact (by decide : ErrorKind.unsupportedOperation ≠ .integerOverflow)
  dsimp only
  split
  · exact feasible_shortage _
  · trivial

theorem reallocate_feasible (address : Nat) {wanted : Nat}
    (hwanted : Layout.Valid ⟨wanted, layout.align⟩) :
    Feasible (pages.reallocate address layout wanted) := by
  have hold : Word.roundUp? layout.size pages.pageSize = _ := hvalid.roundUp?_eq (.pages pages)
  have hnew : Word.roundUp? wanted pages.pageSize = _ := hwanted.roundUp?_eq (.pages pages)
  unfold reallocate
  rw [Layout.of?_eq_some_iff.2 ⟨hwanted, rfl⟩, hold, hnew]
  split
  · trivial
  split
  · exact pages.allocate_feasible hwanted
  dsimp only
  split
  · trivial
  split
  · trivial
  split
  · exact feasible_shortage _
  · trivial

end PageMap

namespace Memory

variable (memory : Memory) {layout : Layout}

/-- No allocator finds fault with the size of a valid layout. -/
theorem allocate_feasible (hvalid : layout.Valid) : Feasible (memory.allocate layout) := by
  unfold allocate
  split
  · exact (StackArena.allocate_feasible _ layout).map _
  · exact (FreeList.allocate_feasible _ hvalid).map _
  · exact (FreeList.allocate_feasible _ hvalid).map _
  · exact (Heap.allocate_feasible _ layout).map _
  · exact (PageMap.allocate_feasible _ hvalid).map _

theorem reallocateByCopy_feasible (address : Nat) {wanted : Nat}
    (hwanted : Layout.Valid ⟨wanted, layout.align⟩) :
    Feasible (memory.reallocateByCopy address layout wanted) := by
  have hfeasible := memory.allocate_feasible hwanted
  unfold reallocateByCopy
  rw [Layout.of?_eq_some_iff.2 ⟨hwanted, rfl⟩]
  split
  · trivial
  split
  · trivial
  dsimp only
  split
  · rename_i refusal hrefused
    rwa [hrefused] at hfeasible
  · trivial

theorem reallocate_feasible (hvalid : layout.Valid) (address : Nat) {wanted : Nat}
    (hwanted : Layout.Valid ⟨wanted, layout.align⟩) :
    Feasible (memory.reallocate address layout wanted) := by
  unfold reallocate
  split
  · exact memory.reallocateByCopy_feasible address hwanted
  · exact memory.reallocateByCopy_feasible address hwanted
  · exact memory.reallocateByCopy_feasible address hwanted
  · exact (Heap.reallocate_feasible _ address hwanted).map _
  · exact (PageMap.reallocate_feasible _ hvalid address hwanted).map _

end Memory

/-! ## What is left of a failure -/

/-- A line of the log, or a request that was refused. -/
def Entry.Futile : Entry → Prop
  | .log _ _ => True
  | .call (.allocate _ (.error _)) => True
  | .call (.expand _ _ _ (.error _)) => True
  | .call (.reallocate _ _ _ (.error _)) => True
  | _ => False

/-- Nothing but the count of requests and the record is different, and what was put on record
since then is futile. -/
def Store.Spared (before after : Store) : Prop :=
  ∃ requests entries,
    after = { before with requests := requests, trace := entries ++ before.trace } ∧
      ∀ entry ∈ entries, entry.Futile

namespace Store.Spared

variable {before middle after : Store}

theorem refl (store : Store) : store.Spared store := ⟨store.requests, [], rfl, by simp⟩

theorem trans (h : before.Spared middle) (hnext : middle.Spared after) : before.Spared after := by
  obtain ⟨requests, entries, rfl, hfutile⟩ := h
  obtain ⟨requests', later, rfl, hfutile'⟩ := hnext
  refine ⟨requests', later ++ entries, ?_, ?_⟩
  · simp only [List.append_assoc]
  · intro entry hmem
    rcases List.mem_append.1 hmem with hlater | hearlier
    · exact hfutile' entry hlater
    · exact hfutile entry hearlier

theorem record {entry : Entry} (hfutile : entry.Futile) (store : Store) :
    store.Spared (Effect.record entry store).2 :=
  ⟨store.requests, [entry], rfl, by simpa using hfutile⟩

theorem log (level : Level) (message : String) (store : Store) :
    store.Spared (Effect.log level message store).2 := by
  have hfutile : (Entry.log level message).Futile := trivial
  unfold Effect.log
  split
  · exact record hfutile store
  · exact refl store

end Store.Spared

/-- If the run has failed, the store was spared, and no size is to blame. -/
def Declined {γ : Type} (store : Store) : Except ErrorKind γ × Store → Prop
  | (.ok _, _) => True
  | (.error kind, after) => kind ≠ .integerOverflow ∧ store.Spared after

namespace Declined

variable {γ δ : Type} {store : Store}

theorem after {middle : Store} (hspared : store.Spared middle)
    {run : Except ErrorKind γ × Store} (h : Declined middle run) : Declined store run := by
  obtain ⟨answer, after⟩ := run
  cases answer with
  | ok value => trivial
  | error kind => exact ⟨h.1, hspared.trans h.2⟩

/-- What comes next does not fail. -/
theorem bind {attempt : Attempt γ} {next : γ → Attempt δ} (h : Declined store (attempt store))
    (hnext : ∀ value middle, ∃ result after, next value middle = (.ok result, after)) :
    Declined store ((attempt >>= next) store) := by
  rw [Attempt.bind_apply]
  generalize attempt store = run at h ⊢
  obtain ⟨answer, middle⟩ := run
  cases answer with
  | error kind => exact h
  | ok value =>
    obtain ⟨result, after, hrun⟩ := hnext value middle
    dsimp only
    rw [hrun]
    trivial

end Declined

namespace Allocator

variable {γ : Type}

theorem consult_spared {ask : Memory → Except Refusal (γ × Memory)} {store after : Store}
    {kind : ErrorKind} (h : consult ask store = (.error kind, after)) :
    store.Spared after ∧ ∃ refusal, ask store.memory = .error refusal ∧ refusal.kind = kind := by
  unfold consult at h
  split at h
  · cases h
  rename_i refusal hrefused
  split at h
  · cases h
    exact ⟨.refl store, refusal, hrefused, rfl⟩
  · cases h
    exact ⟨.log .trace _ store, refusal, hrefused, rfl⟩

theorem counted_declined {ask : Memory → Except Refusal (γ × Memory)}
    {call : Except ErrorKind γ → Call} {store : Store} (hfeasible : Feasible (ask store.memory))
    (hfutile : ∀ kind, (Entry.call (call (.error kind))).Futile) :
    Declined store (counted ask call store) := by
  have hcounting : store.Spared (refusedByPlan store).2 :=
    ⟨store.requests + 1, [], rfl, by simp⟩
  unfold counted
  rw [Effect.bind_apply]
  cases hrefused : (refusedByPlan store).1 with
  | true =>
    exact ⟨by decide, hcounting.trans (.record (hfutile .allocationFailed) _)⟩
  | false =>
    simp only [Bool.false_eq_true, if_false, Effect.bind_apply]
    cases hanswer : consult ask (refusedByPlan store).2 with
    | mk answer middle =>
      cases answer with
      | ok value => trivial
      | error kind =>
        obtain ⟨hspared, refusal, hrefusal, rfl⟩ := consult_spared hanswer
        -- counting the request has not changed the memory that is asked
        have hasked : ask store.memory = .error refusal := hrefusal
        rw [hasked] at hfeasible
        exact ⟨hfeasible, (hcounting.trans hspared).trans (.record (hfutile _) middle)⟩

theorem allocate_declined {layout : Layout} (hvalid : layout.Valid) (store : Store) :
    Declined store (allocate layout store) :=
  counted_declined (store.memory.allocate_feasible hvalid) fun _ => trivial

theorem reallocate_declined {layout : Layout} (hvalid : layout.Valid) (address : Nat)
    {wanted : Nat} (hwanted : Layout.Valid ⟨wanted, layout.align⟩) (store : Store) :
    Declined store (reallocate address layout wanted store) :=
  counted_declined (store.memory.reallocate_feasible hvalid address hwanted) fun _ => trivial

/-- Whatever the cause for which a block does not grow where it lies, nothing has happened. -/
theorem expand_spared {address wanted : Nat} {layout : Layout} {store after : Store}
    {kind : ErrorKind} (h : expand address layout wanted store = (.error kind, after)) :
    store.Spared after := by
  unfold expand ExceptT.mk at h
  rw [Effect.bind_apply] at h
  cases hanswer : consult (fun memory => memory.expand address layout wanted) store with
  | mk answer middle =>
    rw [hanswer] at h
    cases answer with
    | ok size => cases h
    | error kind =>
      have hfutile : (Entry.call (.expand address layout.size wanted (.error kind))).Futile :=
        trivial
      cases h
      exact (consult_spared hanswer).1.trans (.record hfutile middle)

end Allocator

end Freehold
