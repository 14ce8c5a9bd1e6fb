import Freehold.Proofs.Vec.Growth
import Freehold.Vec.Basic

/-!
# Shifting elements

Relocating elements one slot at a time does to the slots what shifting them all at once
does, as far as a view shows that relocations keep.  So a gap that is opened or closed in
a vector is the same for all types of elements.
-/

namespace Freehold

/-- What a view shows in a slot. -/
def Slots.seen {α κ : Type} (view : α → κ) (slots : Slots α) (index : Nat) : Option κ :=
  (slots.read index).map view

namespace Vec

variable {α κ : Type} {element : Element α} {view : α → κ}

theorem seen_shift (slots : Slots α) (source target count index : Nat) :
    Slots.seen view (slots.shift source target count) index =
      if target ≤ index ∧ index < target + count then
        Slots.seen view slots (source + (index - target))
      else if source ≤ index ∧ index < source + count then none
      else Slots.seen view slots index := by
  unfold Slots.seen
  rw [Slots.read_shift]
  split
  · rfl
  split
  · rfl
  · rfl

theorem seen_moveSlot (hkeeps : element.toMovable.Keeps view) {slots : Slots α}
    {source target : Nat} (hlive : (Slots.seen view slots source).isSome)
    (hne : target ≠ source) (buffer : Nat) (store : Store) (index : Nat) :
    Slots.seen view (moveSlot element buffer source target slots store).1 index =
      if index = target then Slots.seen view slots source
      else if index = source then none
      else Slots.seen view slots index := by
  unfold moveSlot
  cases hslot : slots.read source with
  | none =>
    rw [Slots.seen, hslot] at hlive
    cases hlive
  | some value =>
    dsimp only
    rw [Effect.bind_apply, Effect.pure_apply]
    unfold Slots.seen
    by_cases htarget : index = target
    · subst htarget
      simp [hslot, hkeeps.recorded]
    · rw [if_neg htarget, Slots.read_write_of_ne _ _ htarget]
      by_cases hsource : index = source
      · subst hsource
        simp
      · rw [if_neg hsource, Slots.read_clear_of_ne _ hsource]

theorem seen_shiftUp (hkeeps : element.toMovable.Keeps view) (buffer index : Nat)
    {count : Nat} {slots : Slots α}
    (hlive : ∀ source, index ≤ source → source < index + count →
      (Slots.seen view slots source).isSome) (store : Store) (other : Nat) :
    Slots.seen view (shiftUp element buffer index count slots store).1 other =
      Slots.seen view (slots.shift index (index + 1) count) other := by
  induction count generalizing slots store with
  | zero =>
    rw [seen_shift, if_neg (by omega), if_neg (by omega)]
    rfl
  | succ count ih =>
    have hmoved := seen_moveSlot hkeeps (hlive (index + count) (by omega) (by omega))
      (show index + count + 1 ≠ index + count by omega) buffer store
    unfold shiftUp
    rw [Effect.bind_apply]
    generalize moveSlot element buffer (index + count) (index + count + 1) slots store = run
      at hmoved ⊢
    rw [ih ?_ run.2, seen_shift, seen_shift]
    · simp only [hmoved]
      grind
    · intro source hle hlt
      rw [hmoved, if_neg (by omega), if_neg (by omega)]
      exact hlive source hle (by omega)

theorem seen_shiftDown (hkeeps : element.toMovable.Keeps view) (buffer : Nat)
    {index count : Nat} {slots : Slots α}
    (hlive : ∀ source, index < source → source ≤ index + count →
      (Slots.seen view slots source).isSome) (store : Store) (other : Nat) :
    Slots.seen view (shiftDown element buffer index count slots store).1 other =
      Slots.seen view (slots.shift (index + 1) index count) other := by
  induction count generalizing index slots store with
  | zero =>
    rw [seen_shift, if_neg (by omega), if_neg (by omega)]
    rfl
  | succ count ih =>
    have hmoved := seen_moveSlot hkeeps (hlive (index + 1) (by omega) (by omega))
      (show index ≠ index + 1 by omega) buffer store
    unfold shiftDown
    rw [Effect.bind_apply]
    generalize moveSlot element buffer (index + 1) index slots store = run at hmoved ⊢
    rw [ih ?_ run.2, seen_shift, seen_shift]
    · simp only [hmoved]
      grind
    · intro source hlt hle
      rw [hmoved, if_neg (by omega), if_neg (by omega)]
      exact hlive source (by omega) (by omega)

end Vec
end Freehold
