import Freehold.Proofs.Memory.Resizing

/-!
# What lasts

Some facts about the books of an allocator hold from the start and are spoiled by no operation,
whoever calls it and with whichever block.  Such a fact holds after every run.  It is enough to
know of the plain operations that they keep it: resizing and the rest of what may happen to a
memory are made of them.
-/

namespace Freehold

/-- A fact about the books that no operation spoils.  Of the heap and of pages it says nothing. -/
structure Backend.Lasting (good : Backend → Prop) : Prop where
  heap : ∀ books, good (.heap books)
  pages : ∀ books, good (.pages books)
  allocate : ∀ {memory memory' : Memory} {layout : Layout} {block : Block},
    good memory.backend → memory.allocate layout = .ok (block, memory') → good memory'.backend
  expand : ∀ {memory memory' : Memory} {address wanted size : Nat} {layout : Layout},
    good memory.backend → memory.expand address layout wanted = .ok (size, memory') →
      good memory'.backend
  deallocate : ∀ {memory : Memory} (address : Nat) (layout : Layout), good memory.backend →
    good (memory.deallocate address layout).backend
  addRegion : ∀ {memory : Memory} (region : Span), good memory.backend →
    good (memory.addRegion region).backend
  reset : ∀ arena, good (.stack arena) → good (.stack arena.reset)

section Answers

variable {good : Backend → Prop} {state : AllocatorState} (hgood : good state.memory.backend)
  {answer : Except Refusal (Block × Memory)}
  (hanswer : ∀ block memory, answer = .ok (block, memory) → good memory.backend)

include hgood hanswer

theorem AllocatorState.good_received (layout : Layout) :
    good (state.received layout answer).memory.backend := by
  cases answer with
  | error refusal => exact hgood
  | ok found => exact hanswer found.1 found.2 rfl

theorem AllocatorState.good_resized (holding : Holding) (wanted : Nat) :
    good (state.resized holding wanted answer).memory.backend := by
  cases answer with
  | error refusal => exact hgood
  | ok found => exact hanswer found.1 found.2 rfl

end Answers

namespace Backend.Lasting

variable {good : Backend → Prop} {state : AllocatorState} (h : Backend.Lasting good)

include h

theorem reallocate {memory memory' : Memory} {address wanted : Nat} {layout : Layout}
    {block : Block} (hgood : good memory.backend)
    (hanswer : memory.reallocate address layout wanted = .ok (block, memory')) :
    good memory'.backend := by
  have hcases := Memory.reallocate_ok hanswer
  cases hbackend : memory.backend with
  | heap heap =>
    rw [hbackend] at hcases
    obtain ⟨books, -, rfl⟩ := hcases
    exact h.heap books
  | pages pages =>
    rw [hbackend] at hcases
    obtain ⟨books, -, rfl⟩ := hcases
    exact h.pages books
  | stack arena | freeList list | basic list =>
    rw [hbackend] at hcases
    rcases Memory.reallocateByCopy_ok hcases with
      ⟨-, -, rfl⟩ | ⟨-, -, hgrown⟩ | ⟨-, -, moved, hfound, rfl⟩
    · exact hgood
    · exact h.expand hgood hgrown
    · have hmoved : good moved.backend := h.allocate hgood hfound
      exact h.deallocate address layout hmoved

theorem undergo (hgood : good state.memory.backend) (occurrence : AllocatorState.Occurrence) :
    good (state.undergo occurrence).memory.backend := by
  cases occurrence with
  | demand demand =>
    cases demand with
    | addRegion region => exact h.addRegion region hgood
    | allocate layout =>
      exact AllocatorState.good_received hgood (fun _ _ hanswer => h.allocate hgood hanswer) layout
    | allocateZeroed layout =>
      refine AllocatorState.good_received hgood (fun block memory hanswer => ?_) layout
      obtain ⟨plain, hplain, rfl⟩ := Memory.allocateZeroed_ok hanswer
      have hkept : good plain.backend := h.allocate hgood hplain
      exact hkept
    | expand holding size wanted =>
      refine AllocatorState.good_resized hgood (fun block memory hanswer => ?_) holding wanted
      obtain ⟨⟨count, grown⟩, hgrown, heq⟩ := Except.of_map_ok hanswer
      obtain ⟨-, rfl⟩ := Prod.mk.inj heq
      exact h.expand hgood hgrown
    | reallocate holding size wanted =>
      exact AllocatorState.good_resized hgood (fun _ _ hanswer => h.reallocate hgood hanswer)
        holding
        wanted
    | deallocate holding size => exact h.deallocate _ _ hgood
  | write holding offset byte => exact hgood
  | advise address count hint =>
    show good (state.memory.advise address count hint).backend
    rw [Memory.backend_advise]
    exact hgood
  | reset =>
    obtain ⟨⟨backend, bytes⟩, held, regions⟩ := state
    cases backend with
    | stack arena => exact h.reset arena hgood
    | freeList list | basic list | heap heap | pages pages => exact hgood

theorem live (hgood : good state.memory.backend) (occurrences : List AllocatorState.Occurrence) :
    good (state.live occurrences).memory.backend := by
  induction occurrences generalizing state with
  | nil => exact hgood
  | cons first later ih => exact ih (h.undergo hgood first)

end Backend.Lasting
end Freehold
