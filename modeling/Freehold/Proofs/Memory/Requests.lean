import Freehold.Proofs.Attempt
import Freehold.Proofs.Memory.Answers

/-!
# Requests and their record

What an allocator may answer, a request through the recorder may answer as well, and so
may the plan by which requests are refused.  A request puts one call on record with the
answer that was given.
-/

namespace Freehold

namespace Allocator

/-- An answer to a request for so many bytes. -/
def Fulfils (wanted : Nat) : Except ErrorKind Block → Prop
  | .ok block => wanted ≤ block.size
  | .error kind => kind.OfRequest

theorem consult_fulfils {wanted : Nat} {ask : Memory → Except Refusal (Block × Memory)}
    (h : ∀ memory, Serves wanted (ask memory)) (store : Store) :
    Fulfils wanted (consult ask store).1 := by
  have hserves := h store.memory
  unfold consult
  split
  · rename_i block memory hanswer
    rw [hanswer] at hserves
    exact hserves
  · rename_i refusal hanswer
    rw [hanswer] at hserves
    split
    · exact hserves
    · exact hserves

theorem allocate_fulfils (layout : Layout) (store : Store) :
    Fulfils layout.size (allocate layout store).1 := by
  show Fulfils layout.size (Prod.fst ((if (refusedByPlan store).1 then _ else _ : Effect _) _))
  split
  · exact ErrorKind.ofRequest_allocationFailed
  · exact consult_fulfils (fun memory => memory.allocate_serves layout) _

theorem reallocate_fulfils (address : Nat) (layout : Layout) (wanted : Nat) (store : Store) :
    Fulfils wanted (reallocate address layout wanted store).1 := by
  show Fulfils wanted (Prod.fst ((if (refusedByPlan store).1 then _ else _ : Effect _) _))
  split
  · exact ErrorKind.ofRequest_allocationFailed
  · exact consult_fulfils (fun memory => memory.reallocate_serves address layout wanted) _

theorem expand_ok {address wanted size : Nat} {layout : Layout} {store store' : Store}
    (h : expand address layout wanted store = (.ok size, store')) : wanted ≤ size := by
  have hreaches := store.memory.expand_reaches address layout wanted
  have hanswer : (consult (fun memory => memory.expand address layout wanted) store).1 =
      .ok size := congrArg Prod.fst h
  unfold consult at hanswer
  split at hanswer
  · rename_i found memory hfound
    dsimp only at hfound
    rw [hfound] at hreaches
    cases hanswer
    exact hreaches
  · split at hanswer
    · cases hanswer
    · cases hanswer

/-- A request puts its answer on record; before a refusal there may be remarks. -/
theorem consult_trace {α : Type} (ask : Memory → Except Refusal (α × Memory)) (store : Store) :
    ∃ remarks, (consult ask store).2.trace = remarks ++ store.trace ∧
      (∀ entry ∈ remarks, entry.log?.isSome) ∧
      ∀ value, (consult ask store).1 = .ok value → remarks = [] := by
  unfold consult
  split
  · exact ⟨[], rfl, by simp, fun _ _ => rfl⟩
  · split
    · exact ⟨[], rfl, by simp, fun _ _ => rfl⟩
    · rename_i refusal hanswer remark hremark
      by_cases hadmits : store.threshold.admits .trace
      · refine ⟨[.log .trace remark], ?_, by simp [Entry.log?], fun value h => by cases h⟩
        simp [Effect.log, Effect.record, hadmits]
      · refine ⟨[], ?_, by simp, fun value h => by cases h⟩
        simp [Effect.log, hadmits]

/-- A request is counted, answered, and put on record with its answer. -/
theorem allocate_apply (layout : Layout) (store : Store) :
    ∃ answered : Except ErrorKind Block × Store,
      (answered = (.error .allocationFailed, (refusedByPlan store).2) ∨
        answered = consult (fun memory => memory.allocate layout) (refusedByPlan store).2) ∧
      allocate layout store =
        (answered.1, (Effect.record (.call (.allocate layout answered.1)) answered.2).2) := by
  by_cases hrefused : (refusedByPlan store).1
  · refine ⟨_, Or.inl rfl, ?_⟩
    show (if (refusedByPlan store).1 then _ else _ : Effect _) _ = _
    rw [if_pos hrefused]
    rfl
  · refine ⟨_, Or.inr rfl, ?_⟩
    show (if (refusedByPlan store).1 then _ else _ : Effect _) _ = _
    rw [if_neg hrefused]
    rfl

theorem allocate_trace (layout : Layout) (store : Store) :
    ∃ remarks,
      (allocate layout store).2.trace =
        .call (.allocate layout (allocate layout store).1) :: (remarks ++ store.trace) ∧
      (∀ entry ∈ remarks, entry.log?.isSome) ∧
      ∀ block, (allocate layout store).1 = .ok block → remarks = [] := by
  obtain ⟨answered, hanswered, hrun⟩ := allocate_apply layout store
  rw [hrun]
  rcases hanswered with rfl | rfl
  · exact ⟨[], rfl, by simp, fun _ _ => rfl⟩
  · obtain ⟨remarks, htrace, hremarks, hok⟩ :=
      consult_trace (fun memory => memory.allocate layout) (refusedByPlan store).2
    refine ⟨remarks, ?_, hremarks, hok⟩
    simp only [Effect.record, htrace]
    rfl

/-! ## What has become of the memory -/

variable {γ : Type}

/-- Either the memory has given this answer, or nothing has happened to it. -/
def Answered (ask : Memory → Except Refusal (γ × Memory)) (memory : Memory) :
    Except ErrorKind γ × Store → Prop
  | (.ok value, store) => ask memory = .ok (value, store.memory)
  | (.error _, store) => store.memory = memory

theorem consult_answered (ask : Memory → Except Refusal (γ × Memory)) (store : Store) :
    Answered ask store.memory (consult ask store) := by
  unfold consult
  split
  · assumption
  · split
    · rfl
    · show (Effect.log .trace _ store).2.memory = store.memory
      unfold Effect.log
      split
      · rfl
      · rfl

/-- A request that is counted and put on record, and refused if the plan says so. -/
def counted (ask : Memory → Except Refusal (γ × Memory)) (call : Except ErrorKind γ → Call) :
    Effect (Except ErrorKind γ) := do
  let refused ← refusedByPlan
  let answer ← if refused then pure (.error .allocationFailed) else consult ask
  Effect.record (.call (call answer))
  pure answer

theorem counted_answered (ask : Memory → Except Refusal (γ × Memory))
    (call : Except ErrorKind γ → Call) (store : Store) :
    Answered ask store.memory (counted ask call store) := by
  have hanswered := consult_answered ask (refusedByPlan store).2
  unfold counted
  rw [Effect.bind_apply]
  cases hrefused : (refusedByPlan store).1 with
  | true => rfl
  | false =>
    simp only [Bool.false_eq_true, if_false, Effect.bind_apply]
    generalize consult ask (refusedByPlan store).2 = run at hanswered ⊢
    obtain ⟨answer, store'⟩ := run
    cases answer with
    | error kind => exact hanswered
    | ok value => exact hanswered

theorem allocate_answered (layout : Layout) (store : Store) :
    Answered (fun memory => memory.allocate layout) store.memory (allocate layout store) := by
  have hcounted := counted_answered (fun memory => memory.allocate layout)
    (Call.allocate layout) store
  exact hcounted

theorem reallocate_answered (address : Nat) (layout : Layout) (wanted : Nat) (store : Store) :
    Answered (fun memory => memory.reallocate address layout wanted) store.memory
      (reallocate address layout wanted store) := by
  have hcounted := counted_answered (fun memory => memory.reallocate address layout wanted)
    (Call.reallocate address layout.size wanted) store
  exact hcounted

theorem expand_answered (address : Nat) (layout : Layout) (wanted : Nat) (store : Store) :
    Answered (fun memory => memory.expand address layout wanted) store.memory
      (expand address layout wanted store) := by
  have hanswered := consult_answered (fun memory => memory.expand address layout wanted) store
  unfold expand ExceptT.mk
  rw [Effect.bind_apply]
  generalize consult _ store = run at hanswered ⊢
  obtain ⟨answer, store'⟩ := run
  cases answer with
  | error kind => exact hanswered
  | ok size => exact hanswered

end Allocator

end Freehold
