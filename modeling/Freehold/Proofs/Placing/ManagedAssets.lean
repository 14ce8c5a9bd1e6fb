import Freehold.Element.Catalogue
import Freehold.Proofs.Placing.Leaves
import Freehold.Proofs.Placing.AssetsInMemory

/-!
# Managing assets

Code manages assets if it turns them into what it leaves wherever they are lodged, and
draws on memory and numbers just as the record says.  Unlike code that is accounted for on
any store, it may rely on the memory: on blocks that are as large as they were promised to
be.

What others hold is part of the definition.  So code that manages some assets manages any
more as well, and leaves the others alone.
-/

namespace Freehold

namespace Store

variable {before after : Store} {given left : Assets}

/-- The record between two stores is the same for the ledger and for the memory. -/
theorem Settles.joined (hsettles : before.Settles after given left)
    (hspends : before.Spends after) :
    ∃ entries, after.trace = entries ++ before.trace ∧ Freehold.Settles given entries left ∧
      Spent before.means entries after.means := by
  obtain ⟨entries, htrace, hsettles⟩ := hsettles
  obtain ⟨entries', htrace', hspent⟩ := hspends
  obtain rfl : entries = entries' := List.append_cancel_right (htrace.symm.trans htrace')
  exact ⟨entries, htrace, hsettles, hspent⟩

theorem Settles.lodged (hsettles : before.Settles after given left) (hspends : before.Spends after)
    {regions : List Span} {others : Multiset Holding}
    (hlodged : given.Lodged before.memory regions others) :
    left.Lodged after.memory regions others ∧ before.memory.Spares after.memory others := by
  obtain ⟨entries, -, hentries, hspent⟩ := hsettles.joined hspends
  exact hentries.lodged hspent hlodged

end Store

def Effect.Manages {α : Type} (effect : Effect α) (given : Assets) (left : α → Assets) : Prop :=
  ∀ (store : Store) (regions : List Span) (others : Multiset Holding),
    given.Lodged store.memory regions others →
      store.Settles (effect store).2 given (left (effect store).1) ∧ store.Spends (effect store).2

/-- A destructor that gives up what values own, wherever that is lodged. -/
def GivesUp {α : Type} (destroy : α → Effect Unit) (owns : α → Assets) : Prop :=
  ∀ value, (destroy value).Manages (owns value) (fun _ => 0)

namespace Effect

variable {α β : Type} {given : Assets} {middle left : α → Assets}

theorem Turns.manages {effect : Effect α} (h : effect.Turns given left)
    (hspends : effect.Leads Store.Spends) : effect.Manages given left :=
  fun store _ _ _ => ⟨h store, hspends store⟩

theorem manages_pure {value : α} (h : given = left value) : Manages (pure value) given left :=
  (turns_pure h).manages (Store.Spends.habit.pure value)

theorem Manages.bind {effect : Effect α} {next : α → Effect β} {last : β → Assets}
    (heffect : effect.Manages given middle)
    (hnext : ∀ value, (next value).Manages (middle value) last) :
    Manages (effect >>= next) given last := by
  intro store regions others hlodged
  obtain ⟨hsettles, hspends⟩ := heffect store regions others hlodged
  obtain ⟨hmiddle, -⟩ := hsettles.lodged hspends hlodged
  obtain ⟨hsettles', hspends'⟩ := hnext _ _ regions others hmiddle
  rw [bind_apply]
  exact ⟨hsettles.trans hsettles', Store.Spends.habit.trans hspends hspends'⟩

theorem Manages.frame {effect : Effect α} (h : effect.Manages given left) (extra : Assets) :
    effect.Manages (given + extra) (fun value => left value + extra) := by
  intro store regions others hlodged
  obtain ⟨held, -, hpart⟩ := hlodged.leave
  obtain ⟨hsettles, hspends⟩ := h store regions (held + others) hpart
  exact ⟨hsettles.frame extra, hspends⟩

theorem Manages.congr {effect : Effect α} {left' : α → Assets} (h : effect.Manages given left)
    (hleft : ∀ value, left' value = left value) : effect.Manages given left' := by
  rwa [funext hleft]

end Effect

def Attempt.Manages {α : Type} (attempt : Attempt α) (given : Assets) (made : α → Assets)
    (lost : Assets) : Prop :=
  Effect.Manages attempt.run given (Assets.afterwards made lost)

namespace Attempt

variable {α β : Type} {given lost : Assets} {made : α → Assets}

theorem manages_iff {attempt : Attempt α} :
    attempt.Manages given made lost ↔
      ∀ (store : Store) (regions : List Span) (others : Multiset Holding),
        given.Lodged store.memory regions others →
          store.Settles (attempt store).2 given (Assets.afterwards made lost (attempt store).1) ∧
            store.Spends (attempt store).2 :=
  Iff.rfl

theorem Turns.manages {attempt : Attempt α} (h : attempt.Turns given made lost)
    (hspends : Effect.Leads Store.Spends attempt.run) : attempt.Manages given made lost :=
  Effect.Turns.manages h hspends

theorem manages_pure {value : α} (h : given = made value) :
    Manages (pure value) given made lost := by
  have hpure : Effect.Manages (Pure.pure (.ok value)) given (Assets.afterwards made lost) :=
    Effect.manages_pure h
  exact hpure

theorem manages_throw (kind : ErrorKind) (h : given = lost) :
    Manages (throw kind : Attempt α) given made lost := by
  have hpure : Effect.Manages (Pure.pure (.error kind)) given (Assets.afterwards made lost) :=
    Effect.manages_pure h
  exact hpure

/-- What comes next has to be accounted for only after a value that can come about. -/
theorem Manages.bind_yielded {attempt : Attempt α} {next : α → Attempt β} {final : β → Assets}
    (hattempt : attempt.Manages given made lost)
    (hnext : ∀ store value after, attempt store = (.ok value, after) →
      (next value).Manages (made value) final lost) :
    Manages (attempt >>= next) given final lost := by
  rw [manages_iff] at hattempt ⊢
  intro store regions others hlodged
  obtain ⟨hsettles, hspends⟩ := hattempt store regions others hlodged
  have hvalue := hnext store
  rw [bind_apply]
  generalize attempt store = run at hsettles hspends hvalue
  obtain ⟨answer, between⟩ := run
  cases answer with
  | error kind => exact ⟨hsettles, hspends⟩
  | ok value =>
    obtain ⟨hmiddle, -⟩ := hsettles.lodged hspends hlodged
    obtain ⟨hsettles', hspends'⟩ := hvalue value between rfl between regions others hmiddle
    exact ⟨hsettles.trans hsettles', Store.Spends.habit.trans hspends hspends'⟩

theorem Manages.bind {attempt : Attempt α} {next : α → Attempt β} {final : β → Assets}
    (hattempt : attempt.Manages given made lost)
    (hnext : ∀ value, (next value).Manages (made value) final lost) :
    Manages (attempt >>= next) given final lost :=
  hattempt.bind_yielded fun _ value _ _ => hnext value

theorem Manages.frame {attempt : Attempt α} (h : attempt.Manages given made lost)
    (extra : Assets) :
    attempt.Manages (given + extra) (fun value => made value + extra) (lost + extra) := by
  refine (Effect.Manages.frame h extra).congr fun answer => ?_
  cases answer with
  | ok value => rfl
  | error kind => rfl

theorem Manages.undoing {attempt : Attempt α} {undo : Effect Unit} {rest : Assets}
    (hattempt : attempt.Manages given made lost) (hundo : undo.Manages lost (fun _ => rest)) :
    Manages (attempt.undoing undo) given made rest := by
  rw [manages_iff] at hattempt ⊢
  intro store regions others hlodged
  obtain ⟨hsettles, hspends⟩ := hattempt store regions others hlodged
  rw [undoing_apply]
  generalize attempt store = run at hsettles hspends
  obtain ⟨answer, between⟩ := run
  cases answer with
  | ok value => exact ⟨hsettles, hspends⟩
  | error kind =>
    obtain ⟨hlost, -⟩ := hsettles.lodged hspends hlodged
    obtain ⟨hsettles', hspends'⟩ := hundo between regions others hlost
    exact ⟨hsettles.trans hsettles', Store.Spends.habit.trans hspends hspends'⟩

end Attempt

namespace Allocator

theorem manages_deallocate (address : Nat) (layout : Layout) :
    (deallocate address layout).Manages {.block address layout} (fun _ => 0) :=
  (turns_deallocate address layout).manages (spends_deallocate address layout)

theorem manages_allocate {layout : Layout} (hvalid : layout.Valid) (size : Block → Nat)
    (hfits : ∀ block, layout.size ≤ block.size → (Holding.of layout block).Fits (size block)) :
    (allocate layout).Manages 0
      (fun block => {.block block.address ⟨size block, layout.align⟩}) 0 :=
  (turns_allocate_fitting layout hfits).manages (spends_allocate hvalid)

end Allocator

/-! ## Leaf types -/

namespace Leaf

/-- The layouts of the type, its own and those of the blocks that it draws, are valid. -/
structure Proper (leaf : Leaf) : Prop where
  layout : leaf.layout.Valid
  draws : ∀ layout, leaf.Draws layout → layout.Valid

variable {leaf : Leaf} (hproper : leaf.Proper)

include hproper

theorem destroy_givesUp : GivesUp leaf.destroy leaf.owns := fun piece =>
  (leaf.destroy_disposes piece).manages
    (leaf.destroy_leads (Store.Spends.leafHabit hproper.draws) piece)

theorem copier_manages (spot : Spot) (piece : Piece) :
    (leaf.copier.cloneAt spot piece).Manages 0 leaf.owns 0 :=
  (Cloning.cloneAt_turns (leaf.cloning_careful piece) spot).manages
    (leaf.copier_leads (Store.Spends.leafHabit hproper.draws) spot piece)

theorem builder_manages (spot : Spot) (datum : Datum) :
    (leaf.builder.constructAt spot datum).Manages 0 leaf.owns 0 :=
  (Construction.constructAt_turns (leaf.construction_careful datum) leaf.element.toMovable
    leaf.destroy_disposes spot).manages
    (leaf.builder_leads (Store.Spends.leafHabit hproper.draws) spot datum)

theorem make_manages (datum : Datum) : (leaf.make datum).Manages 0 leaf.owns 0 :=
  (leaf.make_turns datum).manages
    (leaf.make_leads (Store.Spends.leafHabit hproper.draws) datum)

end Leaf

theorem Catalogue.heap_proper : Catalogue.heap.Proper where
  layout := by decide
  draws layout hdraws := by
    rcases hdraws with hbuilt | hcopied | hcopied
    · cases hbuilt
      decide
    · cases hcopied
      decide
    · cases hcopied

end Freehold
