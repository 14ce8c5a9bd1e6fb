import Freehold.Proofs.Memory.AllocatorState

/-!
# Answers do not depend on contents

An allocator decides by its own books alone.  Two memories with equal books give equal
answers to every request and are left with equal books, whatever bytes they hold.
-/

namespace Freehold

/-- Equal answers that leave equal books. -/
inductive Agree {γ : Type} : Except Refusal (γ × Memory) → Except Refusal (γ × Memory) → Prop
  | refused (refusal : Refusal) : Agree (.error refusal) (.error refusal)
  | answered (value : γ) {first second : Memory} (h : first.backend = second.backend) :
    Agree (.ok (value, first)) (.ok (value, second))

namespace Agree

variable {γ δ σ : Type}

theorem either {answer answer' : Except Refusal (γ × Memory)} (h : Agree answer answer') :
    (∃ refusal, answer = .error refusal ∧ answer' = .error refusal) ∨
      ∃ value first second, answer = .ok (value, first) ∧ answer' = .ok (value, second) ∧
        first.backend = second.backend := by
  cases h with
  | refused refusal => exact Or.inl ⟨refusal, rfl, rfl⟩
  | answered value hbooks => exact Or.inr ⟨value, _, _, rfl, rfl, hbooks⟩

theorem of_map (answer : Except Refusal (γ × σ)) {change change' : γ × σ → Memory}
    (h : ∀ found, (change found).backend = (change' found).backend) :
    Agree (answer.map fun found => (found.1, change found))
      (answer.map fun found => (found.1, change' found)) := by
  cases answer with
  | error refusal => exact .refused refusal
  | ok found => exact .answered found.1 (h found)

/-- What is done to the contents afterwards changes nothing. -/
theorem map {answer answer' : Except Refusal (γ × Memory)} (h : Agree answer answer')
    (value : γ → δ) {change change' : γ × Memory → Memory}
    (hleft : ∀ found, (change found).backend = found.2.backend)
    (hright : ∀ found, (change' found).backend = found.2.backend) :
    Agree (answer.map fun found => (value found.1, change found))
      (answer'.map fun found => (value found.1, change' found)) := by
  cases h with
  | refused refusal => exact .refused refusal
  | answered found hbooks =>
    refine .answered (value found) ?_
    rw [hleft, hright]
    exact hbooks

theorem map_fst {answer answer' : Except Refusal (γ × Memory)} (h : Agree answer answer') :
    answer.map Prod.fst = answer'.map Prod.fst := by
  cases h with
  | refused refusal => rfl
  | answered value hbooks => rfl

end Agree

namespace Memory

variable {first second : Memory}

theorem agree_allocate (h : first.backend = second.backend) (layout : Layout) :
    Agree (first.allocate layout) (second.allocate layout) := by
  unfold allocate
  rw [← h]
  cases first.backend with
  | stack arena => exact .of_map _ fun _ => rfl
  | freeList list => exact .of_map _ fun _ => rfl
  | basic list => exact .of_map _ fun _ => rfl
  | heap heap => exact .of_map _ fun _ => rfl
  | pages pages => exact .of_map _ fun _ => rfl

theorem agree_allocateThenClear (h : first.backend = second.backend) (layout : Layout) :
    Agree (first.allocateThenClear layout) (second.allocateThenClear layout) := by
  unfold allocateThenClear
  exact (agree_allocate h layout).map id (fun _ => rfl) (fun _ => rfl)

theorem agree_allocateZeroed (h : first.backend = second.backend) (layout : Layout) :
    Agree (first.allocateZeroed layout) (second.allocateZeroed layout) := by
  have hclear := agree_allocateThenClear h layout
  unfold allocateZeroed
  rw [← h]
  cases first.backend with
  | stack arena => exact hclear
  | freeList list => exact hclear
  | basic list => exact hclear
  | heap heap => exact .of_map _ fun _ => rfl
  | pages pages => exact hclear

theorem agree_expand (h : first.backend = second.backend) (address : Nat) (layout : Layout)
    (wanted : Nat) :
    Agree (first.expand address layout wanted) (second.expand address layout wanted) := by
  have hrefuse : Agree (first.refuseGrowth layout wanted)
      (second.refuseGrowth layout wanted) := by
    unfold refuseGrowth
    split
    · exact .answered layout.size h
    · exact .refused _
  unfold expand
  rw [← h]
  cases first.backend with
  | stack arena => exact .of_map _ fun _ => rfl
  | freeList list => exact .of_map _ fun _ => rfl
  | basic list => exact hrefuse
  | heap heap => exact hrefuse
  | pages pages => exact .of_map _ fun _ => rfl

theorem backend_deallocate_congr (h : first.backend = second.backend) (address : Nat)
    (layout : Layout) :
    (first.deallocate address layout).backend = (second.deallocate address layout).backend := by
  unfold deallocate
  rw [← h]
  cases first.backend with
  | stack arena => rfl
  | freeList list => rfl
  | basic list => rfl
  | heap heap => rfl
  | pages pages => rfl

theorem backend_addRegion_congr (h : first.backend = second.backend) (region : Span) :
    (first.addRegion region).backend = (second.addRegion region).backend := by
  unfold addRegion
  rw [← h]
  cases hbooks : first.backend with
  | stack arena => rw [← h, hbooks]
  | freeList list => rfl
  | basic list => rfl
  | heap heap => rw [← h, hbooks]
  | pages pages => rw [← h, hbooks]

theorem agree_reallocateByCopy (h : first.backend = second.backend) (address : Nat)
    (layout : Layout) (wanted : Nat) :
    Agree (first.reallocateByCopy address layout wanted)
      (second.reallocateByCopy address layout wanted) := by
  have hexpand := agree_expand h address layout wanted
  unfold reallocateByCopy
  split
  · exact .answered _ h
  generalize first.expand address layout wanted = grown at hexpand ⊢
  generalize second.expand address layout wanted = grown' at hexpand ⊢
  cases hexpand with
  | answered size hbooks => exact .answered _ hbooks
  | refused refusal =>
    dsimp only
    split
    · exact .refused _
    rename_i fresh hfresh
    have hallocate := agree_allocate h fresh
    generalize first.allocate fresh = found at hallocate ⊢
    generalize second.allocate fresh = found' at hallocate ⊢
    cases hallocate with
    | refused refusal => exact .refused refusal
    | answered block hbooks =>
      refine .answered block ?_
      apply backend_deallocate_congr
      exact hbooks

theorem agree_reallocate (h : first.backend = second.backend) (address : Nat)
    (layout : Layout) (wanted : Nat) :
    Agree (first.reallocate address layout wanted)
      (second.reallocate address layout wanted) := by
  have hcopy := agree_reallocateByCopy h address layout wanted
  unfold reallocate
  rw [← h]
  cases first.backend with
  | stack arena => exact hcopy
  | freeList list => exact hcopy
  | basic list => exact hcopy
  | heap heap => exact .of_map _ fun _ => rfl
  | pages pages => exact .of_map _ fun _ => rfl

/-- What is answered to a demand, if it asks for anything. -/
def answer (memory : Memory) : Demand → Option (Except Refusal Block)
  | .addRegion _ | .deallocate _ _ => none
  | .allocate layout => some ((memory.allocate layout).map Prod.fst)
  | .allocateZeroed layout => some ((memory.allocateZeroed layout).map Prod.fst)
  | .expand holding size wanted =>
    some ((memory.expand holding.address (holding.layout size) wanted).map
      fun grown => ⟨holding.address, grown.1⟩)
  | .reallocate holding size wanted =>
    some ((memory.reallocate holding.address (holding.layout size) wanted).map Prod.fst)

theorem answer_congr (h : first.backend = second.backend) (demand : Demand) :
    first.answer demand = second.answer demand := by
  cases demand with
  | addRegion region => rfl
  | allocate layout => exact congrArg some (agree_allocate h layout).map_fst
  | allocateZeroed layout => exact congrArg some (agree_allocateZeroed h layout).map_fst
  | expand holding size wanted =>
    have hagree := agree_expand h holding.address (holding.layout size) wanted
    simp only [answer]
    generalize first.expand _ _ _ = grown at hagree ⊢
    generalize second.expand _ _ _ = grown' at hagree ⊢
    cases hagree with
    | refused refusal => rfl
    | answered value hbooks => rfl
  | reallocate holding size wanted =>
    exact congrArg some
      (agree_reallocate h holding.address (holding.layout size) wanted).map_fst
  | deallocate holding size => rfl

end Memory

namespace AllocatorState

variable {first second : AllocatorState}

theorem backend_received_congr (h : first.memory.backend = second.memory.backend)
    (layout : Layout) {answer answer' : Except Refusal (Block × Memory)}
    (hagree : Agree answer answer') :
    (first.received layout answer).memory.backend =
      (second.received layout answer').memory.backend := by
  cases hagree with
  | refused refusal => exact h
  | answered block hbooks => exact hbooks

theorem backend_resized_congr (h : first.memory.backend = second.memory.backend)
    (holding : Holding) (wanted : Nat) {answer answer' : Except Refusal (Block × Memory)}
    (hagree : Agree answer answer') :
    (first.resized holding wanted answer).memory.backend =
      (second.resized holding wanted answer').memory.backend := by
  cases hagree with
  | refused refusal => exact h
  | answered block hbooks => exact hbooks

theorem backend_perform_congr (h : first.memory.backend = second.memory.backend)
    (demand : Demand) :
    (first.perform demand).memory.backend = (second.perform demand).memory.backend := by
  cases demand with
  | addRegion region => exact Memory.backend_addRegion_congr h region
  | allocate layout => exact backend_received_congr h layout (Memory.agree_allocate h layout)
  | allocateZeroed layout =>
    exact backend_received_congr h layout (Memory.agree_allocateZeroed h layout)
  | expand holding size wanted =>
    have hagree := Memory.agree_expand h holding.address (holding.layout size) wanted
    exact backend_resized_congr h holding wanted
      (hagree.map (Block.mk holding.address) (fun _ => rfl) (fun _ => rfl))
  | reallocate holding size wanted =>
    exact backend_resized_congr h holding wanted (Memory.agree_reallocate h _ _ wanted)
  | deallocate holding size => exact Memory.backend_deallocate_congr h _ _

/-- The answers to all demands of a run, in their order. -/
def answers (state : AllocatorState) : List Demand → List (Option (Except Refusal Block))
  | [] => []
  | demand :: later => state.memory.answer demand :: (state.perform demand).answers later

theorem answers_congr (h : first.memory.backend = second.memory.backend)
    (demands : List Demand) : first.answers demands = second.answers demands := by
  induction demands generalizing first second with
  | nil => rfl
  | cons demand later ih =>
    simp only [answers]
    rw [Memory.answer_congr h demand, ih (backend_perform_congr h demand)]

end AllocatorState
end Freehold
