/-!
# Slots

The slots of a buffer, some of them live.  Slots beyond the end of the table are
not live, so a buffer of any capacity is represented by its touched part, and
writing next to the end makes the table one longer.  Reading leaves a slot as it
is; a value that is moved away is cleared.
-/

namespace Freehold

abbrev Slots (α : Type) : Type := Array (Option α)

namespace Slots

variable {α : Type}

def read (slots : Slots α) (index : Nat) : Option α := slots[index]?.join

/-- The same slots in a table that reaches beyond the index. -/
def reaching (slots : Slots α) (index : Nat) : Slots α :=
  slots ++ Array.replicate (index + 1 - slots.size) none

def write (slots : Slots α) (index : Nat) (value : α) : Slots α :=
  (slots.reaching index).setIfInBounds index (some value)

def clear (slots : Slots α) (index : Nat) : Slots α := slots.setIfInBounds index none

/-- Moves `count` slots at once; source and target may overlap.  Slots that are
only sources are not live afterwards. -/
def shift (slots : Slots α) (source target count : Nat) : Slots α :=
  ((List.range (max slots.size (target + count))).map fun index =>
    if target ≤ index ∧ index < target + count then slots.read (source + (index - target))
    else if source ≤ index ∧ index < source + count then none
    else slots.read index).toArray

def values (slots : Slots α) (count : Nat) : List α :=
  (List.range count).filterMap slots.read

def ofList (values : List α) : Slots α := (values.map some).toArray

def mapLive (f : Nat → α → α) (slots : Slots α) : Slots α :=
  (slots.toList.mapIdx fun index slot => slot.map (f index)).toArray

@[simp] theorem read_nil (index : Nat) : read (#[] : Slots α) index = none := rfl

theorem lt_size_reaching (slots : Slots α) (index : Nat) :
    index < (slots.reaching index).size := by
  rw [reaching, Array.size_append, Array.size_replicate]
  omega

theorem read_reaching (slots : Slots α) (index other : Nat) :
    (slots.reaching index).read other = slots.read other := by
  unfold read reaching
  rcases Nat.lt_or_ge other slots.size with h | h
  · rw [Array.getElem?_append_left h]
  · rw [Array.getElem?_append_right h, Array.getElem?_eq_none h, Array.getElem?_replicate]
    split <;> rfl

@[simp] theorem read_write_self (slots : Slots α) (index : Nat) (value : α) :
    (slots.write index value).read index = some value := by
  unfold read write
  rw [Array.getElem?_setIfInBounds_self, if_pos (slots.lt_size_reaching index)]
  rfl

theorem read_write_of_ne (slots : Slots α) {index other : Nat} (value : α)
    (h : other ≠ index) : (slots.write index value).read other = slots.read other := by
  rw [← slots.read_reaching index other]
  unfold read write
  rw [Array.getElem?_setIfInBounds_ne h.symm]

@[simp] theorem read_clear_self (slots : Slots α) (index : Nat) :
    (slots.clear index).read index = none := by
  unfold read clear
  rw [Array.getElem?_setIfInBounds_self]
  split <;> rfl

theorem read_clear_of_ne (slots : Slots α) {index other : Nat} (h : other ≠ index) :
    (slots.clear index).read other = slots.read other := by
  unfold read clear
  rw [Array.getElem?_setIfInBounds_ne h.symm]

theorem read_shift (slots : Slots α) (source target count index : Nat) :
    (slots.shift source target count).read index =
      if target ≤ index ∧ index < target + count then slots.read (source + (index - target))
      else if source ≤ index ∧ index < source + count then none
      else slots.read index := by
  have heq : (slots.shift source target count).read index =
      (slots.shift source target count)[index]?.join := rfl
  rw [heq, shift, List.getElem?_toArray, List.getElem?_map]
  by_cases hlt : index < max slots.size (target + count)
  · rw [List.getElem?_range hlt]
    rfl
  · have hread : slots.read index = none := by
      rw [read, Array.getElem?_eq_none (by omega)]
      rfl
    rw [List.getElem?_eq_none (by simp only [List.length_range]; omega),
      if_neg (by omega), hread, ite_self]
    rfl

@[simp] theorem read_mapLive (f : Nat → α → α) (slots : Slots α) (index : Nat) :
    (slots.mapLive f).read index = (slots.read index).map (f index) := by
  unfold read mapLive
  rw [List.getElem?_toArray, List.getElem?_mapIdx, Array.getElem?_toList]
  cases slots[index]? <;> rfl

end Slots
end Freehold
