import Freehold.Proofs.Memory.Grants
import Freehold.Proofs.Words

/-!
# Stack arenas in machine words

A stack arena checks the two sums that depend on a request.  Everything else is safe because
the buffer ends below the limit of a word, the used part ends within the buffer, and a block
that comes back lies in it.
-/

namespace Freehold
namespace StackArena

/-- The unchecked steps are the address of the used part, the padding, what the log is told of a
shortage, and the address of the block. -/
def allocateInWords (arena : StackArena) (layout : Layout) :
    Option (Except Refusal (Block × StackArena)) :=
  if layout.size = 0 then pure (.ok (.dangling layout.align, arena))
  else do
    let top ← Word.add? arena.base arena.used
    let padding ← Word.fit? (padding top layout.align)
    match Word.add? arena.used padding with
    | none => pure (.error { kind := .allocationFailed })
    | some start =>
      match Word.add? start layout.size with
      | none => pure (.error { kind := .allocationFailed })
      | some stop =>
        if arena.capacity < stop then do
          let needed ← Word.sub? stop arena.used
          let left ← Word.sub? arena.capacity arena.used
          pure (.error { kind := .allocationFailed, remark := some (exhausted needed left) })
        else do
          let address ← Word.add? arena.base start
          pure (.ok (⟨address, layout.size⟩, { arena with used := stop, last := some start }))

def isLastInWords (arena : StackArena) (address size : Nat) : Option Bool := do
  let start ← Word.sub? address arena.base
  if arena.last = some start then do
    let stop ← Word.add? start size
    pure (stop == arena.used)
  else pure false

def expandInWords (arena : StackArena) (address : Nat) (layout : Layout) (wanted : Nat) :
    Option (Except Refusal (Nat × StackArena)) :=
  if wanted ≤ layout.size then pure (.ok (layout.size, arena))
  else do
    if ← arena.isLastInWords address layout.size then do
      let start ← Word.sub? address arena.base
      match Word.add? start wanted with
      | none => pure (.error { kind := .inPlaceGrowthFailed })
      | some stop =>
        if arena.capacity < stop then pure (.error { kind := .inPlaceGrowthFailed })
        else pure (.ok (wanted, { arena with used := stop }))
    else pure (.error { kind := .inPlaceGrowthFailed })

def deallocateInWords (arena : StackArena) (address : Nat) (layout : Layout) :
    Option StackArena :=
  if layout.size = 0 then pure arena
  else do
    if ← arena.isLastInWords address layout.size then do
      let start ← Word.sub? address arena.base
      pure { arena with used := start, last := none }
    else pure arena

variable {arena : StackArena} {address wanted : Nat} {layout : Layout}

theorem padding_lt (address : Nat) {align : Nat} (hpos : 0 < align) :
    padding address align < align := by
  have hround := Word.roundUp_lt address hpos
  unfold padding
  omega

theorem allocateInWords_eq (hused : arena.used ≤ arena.capacity)
    (hbuffer : arena.base + arena.capacity < Word.limit) (hvalid : layout.Valid) :
    arena.allocateInWords layout = some (arena.allocate layout) := by
  have htop : arena.base + arena.used < Word.limit := by omega
  have hpadding : padding (arena.base + arena.used) layout.align < Word.limit := by
    have hlt := padding_lt (arena.base + arena.used) (Nat.pos_of_isPowerOfTwo hvalid.1)
    have halign : layout.align < Word.limit := Nat.lt_of_le_of_lt hvalid.align_le (by decide)
    omega
  unfold allocateInWords allocate
  by_cases hzero : layout.size = 0
  · rw [if_pos hzero, if_pos hzero]
    rfl
  rw [if_neg hzero, if_neg hzero, Word.add?_eq htop]
  simp only [Option.bind_eq_bind, Option.bind_some, Word.fit?_eq_some_iff.2 ⟨hpadding, rfl⟩]
  cases hstart : Word.add? arena.used (padding (arena.base + arena.used) layout.align) with
  | none => rfl
  | some start =>
    obtain ⟨-, rfl⟩ := Word.fit?_eq_some_iff.1 hstart
    dsimp only
    cases hstop : Word.add? _ layout.size with
    | none => rfl
    | some stop =>
      obtain ⟨-, rfl⟩ := Word.fit?_eq_some_iff.1 hstop
      dsimp only
      split
      · rw [Word.sub?_eq (by omega), Word.sub?_eq hused]
        rfl
      · rw [Word.add?_eq (by omega)]
        rfl

section Held

variable (hstart : arena.base ≤ address)

include hstart

theorem lastStart?_eq (size : Nat) :
    arena.lastStart? address size =
      if arena.last = some (address - arena.base) ∧ address - arena.base + size = arena.used then
        some (address - arena.base)
      else none := by
  unfold lastStart? offset?
  rw [if_pos hstart]

theorem isLastInWords_eq {size : Nat} (hstop : address + size < Word.limit) :
    arena.isLastInWords address size = some (arena.lastStart? address size).isSome := by
  have hsum : address - arena.base + size < Word.limit := by omega
  unfold isLastInWords
  rw [lastStart?_eq hstart, Word.sub?_eq hstart]
  simp only [Option.bind_eq_bind, Option.bind_some, Word.add?_eq hsum]
  by_cases hlast : arena.last = some (address - arena.base)
  · by_cases hends : address - arena.base + size = arena.used
    · simp [hlast, hends]
    · simp [hlast, hends]
  · simp [hlast]

theorem expandInWords_eq (hstop : address + layout.size < Word.limit) (wanted : Nat) :
    arena.expandInWords address layout wanted = some (arena.expand address layout wanted) := by
  unfold expandInWords expand
  by_cases hle : wanted ≤ layout.size
  · rw [if_pos hle, if_pos hle]
    rfl
  rw [if_neg hle, if_neg hle, isLastInWords_eq hstart hstop]
  simp only [Option.bind_eq_bind, Option.bind_some]
  cases hlast : arena.lastStart? address layout.size with
  | none => rfl
  | some start =>
    obtain ⟨rfl, -⟩ := lastStart?_some hlast
    simp only [Option.isSome_some, if_true, Word.sub?_eq hstart, Option.bind_some,
      Nat.add_sub_cancel_left]
    cases Word.add? start wanted with
    | none => rfl
    | some stop =>
      dsimp only
      split <;> rfl

theorem deallocateInWords_eq (hstop : address + layout.size < Word.limit) :
    arena.deallocateInWords address layout = some (arena.deallocate address layout) := by
  unfold deallocateInWords deallocate
  by_cases hzero : layout.size = 0
  · rw [if_pos hzero, if_pos hzero]
    rfl
  rw [if_neg hzero, if_neg hzero, isLastInWords_eq hstart hstop]
  simp only [Option.bind_eq_bind, Option.bind_some]
  cases hlast : arena.lastStart? address layout.size with
  | none => rfl
  | some start =>
    obtain ⟨rfl, -⟩ := lastStart?_some hlast
    simp only [Option.isSome_some, if_true, Word.sub?_eq hstart, Option.bind_some,
      Nat.add_sub_cancel_left]
    rfl

end Held

end StackArena
end Freehold
