/-!
# Rosters

A roster gives each newcomer a number of its own, never used before, and looks
members up by number until they leave.
-/

namespace Freehold

structure Roster (α : Type) where
  next : Nat := 0
  members : List (Nat × α) := []

namespace Roster

variable {α : Type}

def find? (roster : Roster α) (number : Nat) : Option α :=
  (roster.members.find? (fun member => member.1 == number)).map Prod.snd

def enroll (roster : Roster α) (value : α) : Nat × Roster α :=
  (roster.next,
    { next := roster.next + 1, members := (roster.next, value) :: roster.members })

def change (number : Nat) (value : α) : List (Nat × α) → List (Nat × α)
  | [] => []
  | member :: rest =>
    if member.1 = number then (number, value) :: rest
    else member :: change number value rest

def set (roster : Roster α) (number : Nat) (value : α) : Roster α :=
  { roster with members := change number value roster.members }

def dismiss (roster : Roster α) (number : Nat) : Roster α :=
  { roster with members := roster.members.filter (fun member => member.1 != number) }

/-- Every number in use was given out before. -/
def WellNumbered (roster : Roster α) : Prop :=
  ∀ member ∈ roster.members, member.1 < roster.next

theorem find?_enroll_self {roster : Roster α} (value : α) :
    (roster.enroll value).2.find? (roster.enroll value).1 = some value := by
  simp [enroll, find?]

theorem find?_enroll_of_ne {roster : Roster α} (value : α) {number : Nat}
    (h : number ≠ roster.next) : (roster.enroll value).2.find? number = roster.find? number := by
  simp only [enroll, find?]
  rw [List.find?_cons_of_neg (by simpa using fun heq => h heq.symm)]

theorem find?_set_of_ne {roster : Roster α} {number other : Nat} (value : α)
    (h : other ≠ number) : (roster.set number value).find? other = roster.find? other := by
  unfold find? set
  simp only
  induction roster.members with
  | nil => rfl
  | cons member rest ih =>
    unfold change
    split
    · rename_i heq
      rw [List.find?_cons_of_neg (by simpa using fun heq => h heq.symm),
        List.find?_cons_of_neg (by simpa [heq] using fun heq => h heq.symm)]
    · simp only [List.find?_cons]
      split
      · rfl
      · exact ih

theorem find?_set_self {roster : Roster α} {number : Nat} (value : α)
    (h : (roster.find? number).isSome) :
    (roster.set number value).find? number = some value := by
  obtain ⟨next, members⟩ := roster
  unfold find? set at *
  simp only at *
  induction members with
  | nil => simp at h
  | cons member rest ih =>
    unfold change
    split
    · simp
    · rename_i hne
      have hneg : (member.1 == number) = false := by simpa using hne
      simp only [List.find?_cons, hneg] at h ⊢
      exact ih h

theorem find?_dismiss_of_ne {roster : Roster α} {number other : Nat} (h : other ≠ number) :
    (roster.dismiss number).find? other = roster.find? other := by
  unfold find? dismiss
  simp only
  induction roster.members with
  | nil => rfl
  | cons member rest ih =>
    by_cases heq : member.1 = number
    · rw [List.filter_cons_of_neg (by simpa using heq),
        List.find?_cons_of_neg (by simpa [heq] using fun heq => h heq.symm)]
      exact ih
    · rw [List.filter_cons_of_pos (by simpa using heq)]
      simp only [List.find?_cons]
      split
      · rfl
      · exact ih

@[simp] theorem find?_dismiss_self (roster : Roster α) (number : Nat) :
    (roster.dismiss number).find? number = none := by
  simp [find?, dismiss]

end Roster
end Freehold
