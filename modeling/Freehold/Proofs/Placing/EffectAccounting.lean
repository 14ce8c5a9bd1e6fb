import Freehold.Proofs.Attempt
import Freehold.Proofs.Memory.Requests
import Freehold.Proofs.Placing.Ledger

/-!
# Accounting for effects

An effect turns assets into others if what it puts on record does so, whatever store it is
run on.  What is left may depend on the result.  An attempt leaves some assets with its
value, and others if it fails.
-/

namespace Freehold

/-- What was put on record between two stores turns what was given into what is left. -/
def Store.Settles (before after : Store) (given left : Assets) : Prop :=
  ∃ entries, after.trace = entries ++ before.trace ∧ Freehold.Settles given entries left

namespace Store.Settles

variable {before between after : Store} {given middle left : Assets}

theorem refl (store : Store) (assets : Assets) : store.Settles store assets assets :=
  ⟨[], rfl, .nothing⟩

theorem trans (hearlier : before.Settles between given middle)
    (hlater : between.Settles after middle left) : before.Settles after given left := by
  obtain ⟨earlier, htrace, hsettles⟩ := hearlier
  obtain ⟨later, htrace', hsettles'⟩ := hlater
  refine ⟨later ++ earlier, ?_, hsettles'.append hsettles⟩
  rw [htrace', htrace, List.append_assoc]

theorem frame (h : before.Settles after given left) (extra : Assets) :
    before.Settles after (given + extra) (left + extra) := by
  obtain ⟨entries, htrace, hsettles⟩ := h
  exact ⟨entries, htrace, hsettles.frame extra⟩

end Store.Settles

/-! ## Effects -/

/-- The effect turns the assets into what is left with its result. -/
def Effect.Turns {α : Type} (effect : Effect α) (given : Assets) (left : α → Assets) : Prop :=
  ∀ store : Store, store.Settles (effect store).2 given (left (effect store).1)

namespace Effect

variable {α β : Type} {given : Assets} {middle left : α → Assets}

theorem turns_pure {value : α} (h : given = left value) : Turns (pure value) given left := by
  intro store
  rw [h]
  exact .refl store (left value)

theorem turns_idle : Turns (pure ()) 0 (fun _ => 0) := turns_pure rfl

/-- What comes next has to be accounted for only after a result that can come about. -/
theorem Turns.bind_result {effect : Effect α} {next : α → Effect β} {last : β → Assets}
    (heffect : effect.Turns given middle)
    (hnext : ∀ store, (next (effect store).1).Turns (middle (effect store).1) last) :
    Turns (effect >>= next) given last := by
  intro store
  rw [bind_apply]
  exact (heffect store).trans (hnext store (effect store).2)

theorem Turns.bind {effect : Effect α} {next : α → Effect β} {last : β → Assets}
    (heffect : effect.Turns given middle)
    (hnext : ∀ value, (next value).Turns (middle value) last) :
    Turns (effect >>= next) given last :=
  heffect.bind_result fun _ => hnext _

theorem Turns.frame {effect : Effect α} (h : effect.Turns given left) (extra : Assets) :
    effect.Turns (given + extra) (fun value => left value + extra) :=
  fun store => (h store).frame extra

theorem turns_record {entry : Entry} {taken got : Assets} (h : Trade entry taken got) :
    (record entry).Turns taken (fun _ => got) :=
  fun _ => ⟨[entry], rfl, .single h⟩

theorem turns_announce {event : Event} {taken got : Assets} (h : Trade (.event event) taken got) :
    (announce event).Turns taken (fun _ => got) := turns_record h

end Effect

theorem Allocator.turns_deallocate (address : Nat) (layout : Layout) :
    (deallocate address layout).Turns {.block address layout} (fun _ => 0) :=
  fun _ => ⟨[_], rfl, .single (.returned address layout)⟩

/-! ## Attempts -/

/-- What an attempt leaves: some assets with its value, others if it fails. -/
def Assets.afterwards {α : Type} (made : α → Assets) (lost : Assets) :
    Except ErrorKind α → Assets
  | .ok value => made value
  | .error _ => lost

def Attempt.Turns {α : Type} (attempt : Attempt α) (given : Assets) (made : α → Assets)
    (lost : Assets) : Prop :=
  Effect.Turns attempt.run given (Assets.afterwards made lost)

namespace Attempt

variable {α β : Type} {given lost : Assets} {made : α → Assets}

theorem turns_iff {attempt : Attempt α} :
    attempt.Turns given made lost ↔
      ∀ store : Store,
        store.Settles (attempt store).2 given (Assets.afterwards made lost (attempt store).1) :=
  Iff.rfl

theorem turns_pure {value : α} (h : given = made value) :
    Turns (pure value) given made lost := by
  intro store
  rw [h]
  exact .refl store (made value)

theorem turns_pure_owns (value : α) : Turns (pure value) (made value) made 0 := turns_pure rfl

theorem turns_lift {effect : Effect α} (h : effect.Turns given made) :
    Turns (ExceptT.lift effect) given made lost := h

theorem Turns.bind {attempt : Attempt α} {next : α → Attempt β} {final : β → Assets}
    (hattempt : attempt.Turns given made lost)
    (hnext : ∀ value, (next value).Turns (made value) final lost) :
    Turns (attempt >>= next) given final lost := by
  rw [turns_iff] at hattempt ⊢
  intro store
  have hstore := hattempt store
  rw [bind_apply]
  generalize attempt store = run at hstore
  obtain ⟨answer, between⟩ := run
  cases answer with
  | ok value => exact hstore.trans (hnext value between)
  | error kind => exact hstore

theorem Turns.frame {attempt : Attempt α} (h : attempt.Turns given made lost) (extra : Assets) :
    attempt.Turns (given + extra) (fun value => made value + extra) (lost + extra) := by
  rw [turns_iff] at h ⊢
  intro store
  have hstore := (h store).frame extra
  generalize attempt store = run at hstore
  obtain ⟨answer, after⟩ := run
  cases answer with
  | ok value => exact hstore
  | error kind => exact hstore

theorem Turns.undoing {attempt : Attempt α} {undo : Effect Unit} {rest : Assets}
    (hattempt : attempt.Turns given made lost) (hundo : undo.Turns lost (fun _ => rest)) :
    Turns (attempt.undoing undo) given made rest := by
  rw [turns_iff] at hattempt ⊢
  intro store
  have hstore := hattempt store
  rw [undoing_apply]
  generalize attempt store = run at hstore
  obtain ⟨answer, between⟩ := run
  cases answer with
  | ok value => exact hstore
  | error kind => exact hstore.trans (hundo between)

theorem turns_hook : Turns hook 0 (fun _ => 0) 0 := by
  intro store
  refine ⟨[], ?_, ?_⟩
  · show (hook store).2.trace = store.trace
    unfold hook
    split <;> rfl
  · show Freehold.Settles 0 [] (Assets.afterwards (fun _ => 0) 0 (hook store).1)
    cases (hook store).1 <;> exact .nothing

end Attempt

theorem Entry.trade_of_log {entry : Entry} (h : entry.log?.isSome) : Trade entry 0 0 := by
  cases entry with
  | log level message => exact .log level message
  | event event => cases h
  | call call => cases h
  | relocation source target => cases h

namespace Allocator

theorem settles_refused (layout : Layout) (kind : ErrorKind) {remarks : List Entry}
    (h : ∀ entry ∈ remarks, entry.log?.isSome) (assets : Assets) :
    Settles assets (.call (.allocate layout (.error kind)) :: remarks) assets := by
  apply Settles.of_idle
  intro entry hmem
  rcases List.mem_cons.mp hmem with rfl | hremark
  · exact .refused layout kind
  · exact Entry.trade_of_log (h entry hremark)

theorem settles_granted {layout : Layout} {block : Block} (h : layout.size ≤ block.size) :
    Settles 0 [.call (.allocate layout (.ok block))] {.block block.address layout} :=
  .single (.granted ⟨Nat.le_refl layout.size, h⟩)

/-- Whoever gets a block may settle on any size that fits it. -/
theorem turns_allocate_fitting (layout : Layout) {size : Block → Nat}
    (hfits : ∀ block, layout.size ≤ block.size → (Holding.of layout block).Fits (size block)) :
    (allocate layout).Turns 0
      (fun block => {.block block.address ⟨size block, layout.align⟩}) 0 := by
  rw [Attempt.turns_iff]
  intro store
  obtain ⟨remarks, htrace, hremarks, hnone⟩ := allocate_trace layout store
  have hfulfils := allocate_fulfils layout store
  generalize allocate layout store = run at htrace hnone hfulfils
  obtain ⟨answer, after⟩ := run
  cases answer with
  | ok block =>
    rw [hnone block rfl] at htrace
    exact ⟨_, htrace, .single (.granted (hfits block hfulfils))⟩
  | error kind => exact ⟨_, htrace, settles_refused layout kind hremarks 0⟩

theorem turns_allocate (layout : Layout) :
    (allocate layout).Turns 0 (fun block => {.block block.address layout}) 0 :=
  turns_allocate_fitting layout fun _ hle => ⟨Nat.le_refl layout.size, hle⟩

end Allocator
end Freehold
