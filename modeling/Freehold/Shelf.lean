/-!
# Shelves

A shelf keeps things under names, at most one under a name and in the order of
the names.  Texts are compared by code point, which is also the byte-wise order
of their encodings.
-/

namespace Freehold

structure Shelf (α : Type) where
  entries : List (String × α) := []

namespace Shelf

variable {α : Type}

def find? (shelf : Shelf α) (name : String) : Option α :=
  (shelf.entries.find? (fun entry => entry.1 == name)).map Prod.snd

def place (name : String) (value : α) : List (String × α) → List (String × α)
  | [] => [(name, value)]
  | entry :: rest =>
    if name = entry.1 then (name, value) :: rest
    else if name < entry.1 then (name, value) :: entry :: rest
    else entry :: place name value rest

def put (shelf : Shelf α) (name : String) (value : α) : Shelf α :=
  ⟨place name value shelf.entries⟩

def remove (shelf : Shelf α) (name : String) : Shelf α :=
  ⟨shelf.entries.filter (fun entry => entry.1 != name)⟩

def holds (shelf : Shelf α) (name : String) : Bool := (shelf.find? name).isSome

def values (shelf : Shelf α) : List α := shelf.entries.map Prod.snd

@[simp] theorem find?_put_self (shelf : Shelf α) (name : String) (value : α) :
    (shelf.put name value).find? name = some value := by
  unfold find? put
  simp only
  induction shelf.entries with
  | nil => simp [place]
  | cons entry rest ih =>
    unfold place
    split
    · simp
    · rename_i hne
      split
      · simp
      · rw [List.find?_cons_of_neg (by simpa using fun h => hne h.symm)]
        exact ih

theorem find?_put_of_ne {shelf : Shelf α} {name other : String} (value : α)
    (h : other ≠ name) : (shelf.put name value).find? other = shelf.find? other := by
  unfold find? put
  simp only
  induction shelf.entries with
  | nil => simp [place, h.symm]
  | cons entry rest ih =>
    unfold place
    split
    · rename_i heq
      simp [heq ▸ h.symm, h.symm]
    · split
      · rw [List.find?_cons_of_neg (by simpa using h.symm)]
      · simp only [List.find?_cons]
        split
        · rfl
        · exact ih

end Shelf
end Freehold
