import Freehold.Layout
import Freehold.Proofs.Attempt

/-!
# Computing in machine words

The library computes with natural numbers, and a sum or a difference of those is always
there.  A machine has only words.  To show that it computes the same, a computation is written
down a second time, step by step: each step that no check guards is an option, and is missing
where its result would not be a word.  So the whole computation is missing as soon as one step
of it wraps, and one that is always there never wraps.

A check that fails is not a missing step.  Where both can happen, the outer option is the step
and the inner answer is the check.
-/

namespace Freehold

namespace Word

def sub? (a b : Nat) : Option Nat := if b ≤ a then some (a - b) else none

def div? (a b : Nat) : Option Nat := if b = 0 then none else some (a / b)

theorem add?_eq {a b : Nat} (h : a + b < limit) : add? a b = some (a + b) :=
  fit?_eq_some_iff.2 ⟨h, rfl⟩

theorem mul?_eq {a b : Nat} (h : a * b < limit) : mul? a b = some (a * b) :=
  fit?_eq_some_iff.2 ⟨h, rfl⟩

theorem roundUp?_eq {n granule : Nat} (h : roundUp n granule < limit) :
    roundUp? n granule = some (roundUp n granule) := fit?_eq_some_iff.2 ⟨h, rfl⟩

theorem sub?_eq {a b : Nat} (h : b ≤ a) : sub? a b = some (a - b) := if_pos h

theorem div?_eq {a b : Nat} (h : b ≠ 0) : div? a b = some (a / b) := if_neg h

end Word

/-! ## Layouts -/

namespace Layout

/-- The greatest size that can be aligned is computed from the alignment. -/
def ofInWords (size align : Nat) : Option (Option Layout) :=
  if align.isPowerOfTwo then do
    let most ← Word.sub? (1 <<< 63) align
    pure (if size ≤ most then some ⟨size, align⟩ else none)
  else pure none

/-- The count is checked by a division, so that the product need not be. -/
def arrayInWords (element : Layout) (count : Nat) : Option (Option Layout) := do
  let most ← Word.sub? (1 <<< 63) element.align
  if element.size ≠ 0 ∧ most / element.size < count then pure none
  else do
    let size ← Word.mul? element.size count
    pure (some ⟨size, element.align⟩)

theorem ofInWords_eq {size align : Nat} (halign : align ≤ 1 <<< 63) :
    ofInWords size align = some (of? size align) := by
  unfold ofInWords of? Valid
  by_cases hpower : align.isPowerOfTwo
  · have hfits : size ≤ 1 <<< 63 - align ↔ size + align ≤ 1 <<< 63 := by omega
    rw [if_pos hpower, Word.sub?_eq halign]
    simp only [Option.bind_eq_bind, Option.bind_some, Option.pure_def, hfits, hpower, true_and]
  · simp only [hpower, false_and, if_false, Option.pure_def]

/-- There is no layout for so many elements, or no word for their number. -/
def Exceeds (element : Layout) (count : Nat) : Prop :=
  Word.limit ≤ count ∨ 1 <<< 63 < element.size * count + element.align

variable {element : Layout} {count : Nat}

theorem Exceeds.array?_eq_none (h : element.Exceeds count) (hword : count < Word.limit) :
    element.array? count = none := by
  have hlarge := h.resolve_left (Nat.not_le_of_lt hword)
  refine if_neg fun hvalid => ?_
  exact absurd hvalid.2 (Nat.not_le_of_lt hlarge)

theorem arrayInWords_eq (hvalid : element.Valid) (count : Nat) :
    element.arrayInWords count = some (element.array? count) := by
  have halign := hvalid.align_le
  have hfits : Valid ⟨element.size * count, element.align⟩ ↔
      element.size * count ≤ 1 <<< 63 - element.align := by
    unfold Valid
    simp only [hvalid.1, true_and]
    omega
  have hcheck : (element.size ≠ 0 ∧ (1 <<< 63 - element.align) / element.size < count) ↔
      ¬ Valid ⟨element.size * count, element.align⟩ := by
    rw [hfits]
    rcases Nat.eq_zero_or_pos element.size with hzero | hpos
    · simp [hzero]
    · rw [Nat.div_lt_iff_lt_mul hpos, Nat.mul_comm count]
      omega
  unfold arrayInWords array? of?
  rw [Word.sub?_eq halign]
  simp only [Option.bind_eq_bind, Option.bind_some, Option.pure_def, hcheck]
  by_cases hgood : Valid ⟨element.size * count, element.align⟩
  · have hword : element.size * count < Word.limit := Nat.lt_trans hgood.size_lt (by decide)
    rw [if_neg (not_not_intro hgood), if_pos hgood, Word.mul?_eq hword, Option.bind_some]
  · rw [if_pos hgood, if_neg hgood]

end Layout

/-! ## Attempts -/

/-- An attempt that is computed in words. -/
abbrev Reckoning (α : Type) : Type := ExceptT ErrorKind (StateT Store Option) α

namespace Reckoning

variable {α β : Type}

/-- A step on words. -/
def step (value? : Option α) : Reckoning α :=
  fun store => value?.map fun value => (.ok value, store)

/-- What computes with no sizes of its own. -/
def lift (attempt : Attempt α) : Reckoning α := fun store => some (attempt store)

def perform (effect : Effect α) : Reckoning α := lift (ExceptT.lift effect)

/-- Goes on with the answer, whether it is a failure or not. -/
def caught (reckoning : Reckoning α) : Reckoning (Except ErrorKind α) :=
  fun store => (reckoning store).map fun run => (.ok run.1, run.2)

def undoing (reckoning : Reckoning α) (undo : Reckoning Unit) : Reckoning α := fun store =>
  match reckoning store with
  | none => none
  | some (.ok value, middle) => some (.ok value, middle)
  | some (.error kind, middle) => (undo middle).map fun undone => (.error kind, undone.2)

theorem bind_apply (reckoning : Reckoning α) (next : α → Reckoning β) (store : Store) :
    (reckoning >>= next) store =
      match reckoning store with
      | none => none
      | some (.ok value, middle) => next value middle
      | some (.error kind, middle) => some (.error kind, middle) := by
  show (reckoning store).bind (fun run => ExceptT.bindCont next run.1 run.2) = _
  cases reckoning store with
  | none => rfl
  | some run =>
    obtain ⟨answer, middle⟩ := run
    cases answer with
    | error kind => rfl
    | ok value => rfl

/-- No step of the attempt wraps when it is made on the store. -/
def Exact (reckoning : Reckoning α) (attempt : Attempt α) (store : Store) : Prop :=
  reckoning store = some (attempt store)

variable {reckoning : Reckoning α} {attempt : Attempt α} {store : Store}

theorem exact_pure (value : α) (store : Store) : Exact (pure value) (pure value) store := rfl

theorem exact_throw (kind : ErrorKind) (store : Store) :
    Exact (throw kind : Reckoning α) (throw kind) store := rfl

theorem exact_lift (attempt : Attempt α) (store : Store) : Exact (lift attempt) attempt store :=
  rfl

theorem exact_perform (effect : Effect α) (store : Store) :
    Exact (perform effect) (ExceptT.lift effect) store := rfl

theorem Exact.bind {next : α → Reckoning β} {next' : α → Attempt β}
    (h : reckoning.Exact attempt store)
    (hnext : ∀ value middle, attempt store = (.ok value, middle) →
      (next value).Exact (next' value) middle) :
    (reckoning >>= next).Exact (attempt >>= next') store := by
  unfold Exact at *
  rw [bind_apply, Attempt.bind_apply, h]
  cases hrun : attempt store with
  | mk answer middle =>
    cases answer with
    | error kind => rfl
    | ok value => exact hnext value middle hrun

/-- A step that does not wrap goes by unnoticed. -/
theorem Exact.step {value? : Option α} {value : α} (hvalue : value? = some value)
    {next : α → Reckoning β} {attempt : Attempt β} (h : (next value).Exact attempt store) :
    (Reckoning.step value? >>= next).Exact attempt store := by
  subst hvalue
  unfold Exact at *
  rw [bind_apply]
  exact h

theorem Exact.last {value? : Option α} {value : α} (hvalue : value? = some value) :
    (Reckoning.step value?).Exact (Pure.pure value) store := by
  subst hvalue
  rfl

theorem Exact.caught (h : reckoning.Exact attempt store) :
    reckoning.caught.Exact (ExceptT.lift attempt.run) store := by
  unfold Exact Reckoning.caught at *
  rw [h]
  rfl

theorem Exact.undoing {back : Reckoning Unit} {undo : Effect Unit}
    (h : reckoning.Exact attempt store)
    (hback : ∀ middle, back.Exact (ExceptT.lift undo) middle) :
    (reckoning.undoing back).Exact (attempt.undoing undo) store := by
  unfold Exact at *
  rw [Reckoning.undoing, h, Attempt.undoing_apply]
  cases attempt store with
  | mk answer middle =>
    cases answer with
    | ok value => rfl
    | error kind =>
      dsimp only
      rw [hback middle]
      rfl

end Reckoning
end Freehold
