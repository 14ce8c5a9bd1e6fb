import Mathlib.Algebra.Order.Group.Multiset
import Freehold.Proofs.Memory.AllocatorState
import Freehold.Store

/-!
# A ledger of objects and blocks

Whoever runs code holds assets: the objects that are its to destroy and the blocks that
are its to give back.  The record of a run is a ledger of them.  An entry trades a part of
the assets for something else and leaves the rest alone; an entry about an object or a
block that is not among the assets cannot be accounted for at all.

A block is kept with the layout by which it will be named next.  When a request for it is
answered, any layout may be settled on that fits the request and the answer.
-/

namespace Freehold

/-- An object, known by its serial number if it has one, or a block. -/
inductive Asset where
  | object (serial : Option Nat)
  | block (address : Nat) (layout : Layout)
  deriving DecidableEq

abbrev Assets : Type := Multiset Asset

/-- What an entry of the record takes from the assets, and what it gives for it. -/
inductive Trade : Entry → Assets → Assets → Prop
  | born (serial : Nat) (value : Int) :
    Trade (.event (.created serial value)) 0 {.object (some serial)}
  | bornUnit : Trade (.event .createdUnit) 0 {.object none}
  | completed (serial : Nat) (value : Int) :
    Trade (.event (.completed serial value)) {.object (some serial)} {.object (some serial)}
  | moved (serial : Nat) :
    Trade (.event (.moved serial)) {.object (some serial)} {.object (some serial)}
  | dropped (serial : Nat) (value : Int) :
    Trade (.event (.dropped serial value)) {.object (some serial)} 0
  | droppedUnit : Trade (.event .droppedUnit) {.object none} 0
  | remark (text : String) : Trade (.event (.remark text)) 0 0
  | log (level : Level) (message : String) : Trade (.log level message) 0 0
  | relocation (source target : Spot) : Trade (.relocation source target) 0 0
  | granted {layout : Layout} {block : Block} {size : Nat}
      (h : (Holding.of layout block).Fits size) :
    Trade (.call (.allocate layout (.ok block))) 0 {.block block.address ⟨size, layout.align⟩}
  | refused (layout : Layout) (kind : ErrorKind) :
    Trade (.call (.allocate layout (.error kind))) 0 0
  | expanded {address align size wanted grown next : Nat}
      (h : max size wanted ≤ next ∧ next ≤ max size grown) :
    Trade (.call (.expand address size wanted (.ok grown)))
      {.block address ⟨size, align⟩} {.block address ⟨next, align⟩}
  | notExpanded (address align size wanted : Nat) (kind : ErrorKind) :
    Trade (.call (.expand address size wanted (.error kind)))
      {.block address ⟨size, align⟩} {.block address ⟨size, align⟩}
  | reallocated {address align size wanted next : Nat} {block : Block}
      (h : max size wanted ≤ next ∧ next ≤ max size block.size) :
    Trade (.call (.reallocate address size wanted (.ok block)))
      {.block address ⟨size, align⟩} {.block block.address ⟨next, align⟩}
  | notReallocated (address align size wanted : Nat) (kind : ErrorKind) :
    Trade (.call (.reallocate address size wanted (.error kind)))
      {.block address ⟨size, align⟩} {.block address ⟨size, align⟩}
  | returned (address : Nat) (layout : Layout) :
    Trade (.call (.deallocate address layout)) {.block address layout} 0
  | advised {address count : Nat} {layout : Layout} (h : count ≤ layout.size)
      (hint : UsageHint) :
    Trade (.call (.advise address count hint)) {.block address layout} {.block address layout}

/-- How a stretch of the record, its latest entry first, turns assets into others. -/
inductive Settles (given : Assets) : List Entry → Assets → Prop
  | nothing : Settles given [] given
  | entry {taken got rest : Assets} {entries : List Entry} {entry : Entry}
      (hearlier : Settles given entries (taken + rest)) (htrade : Trade entry taken got) :
    Settles given (entry :: entries) (got + rest)

namespace Settles

variable {given middle left : Assets} {entries : List Entry}

theorem single {entry : Entry} {taken got : Assets} (h : Trade entry taken got) :
    Settles taken [entry] got := by
  have hnothing : Settles taken [] (taken + 0) := by
    rw [add_zero]
    exact .nothing
  have hentry := Settles.entry hnothing h
  rwa [add_zero] at hentry

theorem frame (h : Settles given entries left) (extra : Assets) :
    Settles (given + extra) entries (left + extra) := by
  induction h with
  | nothing => exact .nothing
  | entry _ htrade ih =>
    rw [add_assoc] at ih ⊢
    exact .entry ih htrade

theorem append {later : List Entry} (hlater : Settles middle later left)
    (hearlier : Settles given entries middle) : Settles given (later ++ entries) left := by
  induction hlater with
  | nothing => exact hearlier
  | entry _ htrade ih => exact .entry ih htrade

theorem of_idle (h : ∀ entry ∈ entries, Trade entry 0 0) (assets : Assets) :
    Settles assets entries assets := by
  induction entries with
  | nil => exact .nothing
  | cons entry earlier ih =>
    have hearlier : Settles assets earlier (0 + assets) := by
      rw [zero_add]
      exact ih fun other hmem => h other (List.mem_cons_of_mem entry hmem)
    have hentry := Settles.entry hearlier (h entry List.mem_cons_self)
    rwa [zero_add] at hentry

end Settles

/-! ## Counting objects -/

namespace Entry

def born? : Entry → Option (Option Nat)
  | .event (.created serial _) => some (some serial)
  | .event .createdUnit => some none
  | _ => none

def gone? : Entry → Option (Option Nat)
  | .event (.dropped serial _) => some (some serial)
  | .event .droppedUnit => some none
  | _ => none

end Entry

theorem Assets.count_object (held serial : Option Nat) :
    ({.object held} : Assets).count (.object serial) = [held].count serial := by
  rw [Multiset.count_singleton, List.count_singleton]
  by_cases heq : serial = held
  · simp [heq]
  · simp [heq, Ne.symm heq]

theorem Trade.count_object {entry : Entry} {taken got : Assets} (h : Trade entry taken got)
    (serial : Option Nat) :
    taken.count (.object serial) + entry.born?.toList.count serial =
      got.count (.object serial) + entry.gone?.toList.count serial := by
  cases h with
  | born other value =>
    rw [Assets.count_object]
    simp [Entry.born?, Entry.gone?]
  | bornUnit =>
    rw [Assets.count_object]
    simp [Entry.born?, Entry.gone?]
  | dropped other value =>
    rw [Assets.count_object]
    simp [Entry.born?, Entry.gone?]
  | droppedUnit =>
    rw [Assets.count_object]
    simp [Entry.born?, Entry.gone?]
  | _ => simp [Entry.born?, Entry.gone?, Multiset.count_singleton]

/-- Whatever is created and not held in the end was destroyed, as often as it was
created. -/
theorem Settles.count_object {given left : Assets} {entries : List Entry}
    (h : Settles given entries left) (serial : Option Nat) :
    given.count (.object serial) + (entries.filterMap Entry.born?).count serial =
      left.count (.object serial) + (entries.filterMap Entry.gone?).count serial := by
  induction h with
  | nothing => rfl
  | @entry taken got rest entries entry _ htrade ih =>
    have hentry := htrade.count_object serial
    have hborn : ((entry :: entries).filterMap Entry.born?).count serial =
        entry.born?.toList.count serial + (entries.filterMap Entry.born?).count serial := by
      rw [List.filterMap_cons]
      cases entry.born? <;> simp [List.count_cons, add_comm]
    have hgone : ((entry :: entries).filterMap Entry.gone?).count serial =
        entry.gone?.toList.count serial + (entries.filterMap Entry.gone?).count serial := by
      rw [List.filterMap_cons]
      cases entry.gone? <;> simp [List.count_cons, add_comm]
    rw [Multiset.count_add] at ih ⊢
    rw [hborn, hgone]
    omega

end Freehold
