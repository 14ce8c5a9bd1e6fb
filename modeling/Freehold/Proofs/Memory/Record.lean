import Freehold.Proofs.Habits
import Freehold.Proofs.Memory.Requests

/-!
# Relocations on record

Every relocation by a container is put on record, so the record tells which values were
relocated and in which order.  The allocator relocates nothing.
-/

namespace Freehold

/-- The relocations among some entries. -/
def relocations (entries : List Entry) : List (Spot × Spot) :=
  entries.filterMap Entry.relocation?

@[simp] theorem relocations_append (first second : List Entry) :
    relocations (first ++ second) = relocations first ++ relocations second :=
  List.filterMap_append

/-- Lines of the log are no relocations. -/
theorem relocations_of_logs {entries : List Entry} (h : ∀ entry ∈ entries, entry.log?.isSome) :
    relocations entries = [] := by
  refine List.filterMap_eq_nil_iff.2 fun entry hmem => ?_
  have hlog := h entry hmem
  cases entry with
  | log level message => rfl
  | event | call | relocation => cases hlog

/-- Since the first store these relocations were put on record, in this order. -/
def Store.Moves (before after : Store) (moves : List (Spot × Spot)) : Prop :=
  ∃ entries : List Entry,
    after.trace = entries.reverse ++ before.trace ∧ relocations entries = moves

namespace Store.Moves

variable {before middle after : Store} {moves next : List (Spot × Spot)}

theorem refl (store : Store) : store.Moves store [] := ⟨[], rfl, rfl⟩

theorem trans (h : before.Moves middle moves) (hnext : middle.Moves after next) :
    before.Moves after (moves ++ next) := by
  obtain ⟨entries, htrace, rfl⟩ := h
  obtain ⟨later, hlater, rfl⟩ := hnext
  refine ⟨entries ++ later, ?_, relocations_append entries later⟩
  rw [hlater, htrace, List.reverse_append, List.append_assoc]

end Store.Moves

/-- The effect puts no relocation on record. -/
def Effect.Still {γ : Type} (effect : Effect γ) : Prop :=
  effect.Leads fun before after => before.Moves after []

/-- The attempt puts no relocation on record, whether it comes about or not. -/
def Attempt.Still {γ : Type} (attempt : Attempt γ) : Prop := Effect.Still attempt.run

theorem Store.Moves.habit : Habit fun before after => before.Moves after [] where
  refl := .refl
  trans h hnext := h.trans hnext

theorem Effect.still_log (level : Level) (message : String) : (log level message).Still := by
  intro store
  unfold log
  split
  · exact ⟨[.log level message], rfl, rfl⟩
  · exact .refl store

namespace Allocator

theorem still_deallocate (address : Nat) (layout : Layout) : (deallocate address layout).Still :=
  fun _ => ⟨[.call (.deallocate address layout)], rfl, rfl⟩

theorem still_advise (address count : Nat) (hint : UsageHint) :
    (advise address count hint).Still := fun _ => ⟨[.call (.advise address count hint)], rfl, rfl⟩

theorem still_consult {γ : Type} (ask : Memory → Except Refusal (γ × Memory)) :
    (consult ask).Still := by
  intro store
  obtain ⟨remarks, htrace, hremarks, -⟩ := consult_trace ask store
  refine ⟨remarks.reverse, ?_, relocations_of_logs fun entry hmem => ?_⟩
  · rw [htrace, List.reverse_reverse]
  · exact hremarks entry (List.mem_reverse.1 hmem)

theorem still_allocate (layout : Layout) : (allocate layout).Still := by
  refine Store.Moves.habit.bind (fun store => .refl store) fun refused => ?_
  have hanswered (answer : Except ErrorKind Block) :
      (Effect.record (.call (.allocate layout answer)) >>= fun _ => pure answer).Still :=
    Store.Moves.habit.bind (fun _ => ⟨[_], rfl, rfl⟩) fun _ => Store.Moves.habit.pure answer
  cases refused with
  | true => exact Store.Moves.habit.bind (Store.Moves.habit.pure _) hanswered
  | false => exact Store.Moves.habit.bind (still_consult _) hanswered

theorem still_expand (address : Nat) (layout : Layout) (wanted : Nat) :
    (expand address layout wanted).Still := by
  refine Store.Moves.habit.bind (still_consult _) fun answer => ?_
  exact Store.Moves.habit.bind (fun _ => ⟨[_], rfl, rfl⟩) fun _ => Store.Moves.habit.pure answer

end Allocator

theorem Store.Moves.effectHabit : EffectHabit fun before after => before.Moves after [] where
  toHabit := habit
  announces event _ := ⟨[.event event], rfl, rfl⟩
  numbers store := .refl store
  plans store := by
    show store.Moves (Attempt.hook store).2 []
    unfold Attempt.hook
    split
    · exact .refl store
    · exact .refl store
    · exact .refl store
  allocates := Allocator.still_allocate
  deallocates := Allocator.still_deallocate

end Freehold
