/-!
# Address spans

A span is a run of consecutive addresses.  Allocators keep their free memory
as lists of spans, and blocks in use are compared as spans.
-/

namespace Freehold

structure Span where
  start : Nat
  size : Nat
  deriving DecidableEq, Inhabited

namespace Span

def stop (span : Span) : Nat := span.start + span.size

instance : Membership Nat Span where
  mem span address := span.start ≤ address ∧ address < span.stop

instance (span : Span) (address : Nat) : Decidable (address ∈ span) :=
  inferInstanceAs (Decidable (span.start ≤ address ∧ address < span.stop))

theorem mem_iff {span : Span} {address : Nat} :
    address ∈ span ↔ span.start ≤ address ∧ address < span.start + span.size :=
  Iff.rfl

/-- No address lies in both spans; an empty span is apart from every span. -/
def Apart (a b : Span) : Prop :=
  a.size = 0 ∨ b.size = 0 ∨ a.stop ≤ b.start ∨ b.stop ≤ a.start

instance (a b : Span) : Decidable (Apart a b) :=
  inferInstanceAs (Decidable (_ ∨ _ ∨ _ ∨ _))

theorem apart_iff {a b : Span} :
    Apart a b ↔ ∀ address, ¬ (address ∈ a ∧ address ∈ b) := by
  unfold Apart
  simp only [mem_iff, stop]
  constructor
  · intro h address hboth
    omega
  · intro h
    have hleft := h a.start
    have hright := h b.start
    omega

theorem Apart.symm {a b : Span} (h : Apart a b) : Apart b a := by
  unfold Apart at *
  omega

/-- The pieces of a span that lie before and after another one. -/
def without (span cut : Span) : List Span :=
  [⟨span.start, min cut.start span.stop - span.start⟩,
    ⟨max cut.stop span.start, span.stop - max cut.stop span.start⟩].filter
      (fun piece => 0 < piece.size)

theorem mem_without {span cut : Span} {address : Nat} :
    (∃ piece ∈ span.without cut, address ∈ piece) ↔ address ∈ span ∧ address ∉ cut := by
  simp only [without, List.mem_filter, List.mem_cons, List.not_mem_nil, or_false,
    decide_eq_true_eq]
  constructor
  · rintro ⟨piece, ⟨rfl | rfl, -⟩, hin⟩
    all_goals
      simp only [mem_iff, stop] at hin ⊢
      omega
  · rintro ⟨hin, hout⟩
    simp only [mem_iff] at hin hout
    by_cases hleft : address < cut.start
    · refine ⟨_, ⟨Or.inl rfl, ?_⟩, ?_⟩
      all_goals simp only [mem_iff, stop]; omega
    · refine ⟨_, ⟨Or.inr rfl, ?_⟩, ?_⟩
      all_goals simp only [mem_iff, stop]; omega

end Span
end Freehold
