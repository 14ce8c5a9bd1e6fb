import Freehold.Element.Handle
import Freehold.Proofs.Vec.ListRefinement

/-!
# Handles in containers

A handle that carries an allocator moves as bytes.  A container keeps every handle as it came,
with its allocator, and never asks how the allocator would be moved.  For an allocator that is
bitwise itself this is how it would be moved anyway; any other one finds itself at a new spot
without having been told.
-/

namespace Freehold

/-- The type of a handle that carries an allocator, for containers. -/
def Handle.carrying {α β : Type} (handle : Handle) (layout : Layout) (allocator : Movable β)
    (destroy : α → Effect Unit) : Element (Carried α β) :=
  { handle.movable allocator destroy with layout := layout }

/-- The allocator with another relocation. -/
def Movable.withRelocate {β : Type} (allocator : Movable β)
    (relocate : Spot → Spot → β → Effect β) : Movable β :=
  { allocator with relocate := relocate }

namespace Handle

variable {α β γ : Type} (handle : Handle) (layout : Layout) (allocator : Movable β)
  (destroy : α → Effect Unit)

theorem carrying_faithful : Vec.Faithful (handle.carrying layout allocator destroy) id :=
  fun _ _ _ _ _ => rfl

/-- A handle is moved without its allocator, and put on record at most. -/
theorem carry_apply (source target : Spot) (carried : Carried α β) (store : Store) :
    (handle.carrying layout allocator destroy).carry source target carried store =
      (carried,
        if handle.bitwise allocator.bitwise = true then store
        else (Effect.record (.relocation source target) store).2) := by
  unfold Movable.carry
  show (if handle.bitwise allocator.bitwise = true then _ else _ : Effect _) store = _
  by_cases hbitwise : handle.bitwise allocator.bitwise = true
  · rw [if_pos hbitwise, if_pos hbitwise]
    rfl
  · rw [if_neg hbitwise, if_neg hbitwise]
    rfl

/-- What moving a handle has to come to: the allocator in it is moved as it would be moved on
its own. -/
def MovesAllocator : Prop :=
  ∀ source target carried store,
    ((handle.carrying layout allocator destroy).carry source target carried store).1 =
      { carried with allocator := (allocator.carry source target carried.allocator store).1 }

/-- An allocator is moved by its own rule just if this rule never changes anything. -/
theorem movesAllocator_iff [Nonempty α] :
    handle.MovesAllocator layout allocator destroy ↔
      ∀ source target value store, (allocator.carry source target value store).1 = value := by
  constructor
  · intro h source target value store
    obtain ⟨content⟩ := ‹Nonempty α›
    have hmoved := h source target ⟨content, value⟩ store
    rw [carry_apply] at hmoved
    exact (congrArg Carried.allocator hmoved).symm
  · intro h source target carried store
    rw [carry_apply, h]

end Handle

namespace VecHistory

variable {α β κ : Type} {element : Element α} {history : VecHistory α α}

/-- Every value in a slot is one that came to the vector. -/
theorem Kept.came (h : history.Kept element id) {vec : Vec α} (hvec : history.vec = some vec)
    {index : Nat} {value : α} (hread : vec.slots.read index = some value) :
    value ∈ history.entered := by
  have hitem := (h.shows vec hvec).read_eq index
  rw [hread, List.map_id] at hitem
  have hmem : value ∈ vec.toList := List.mem_of_getElem? hitem.symm
  refine h.balanced.mem_iff.2 ?_
  rw [hvec]
  simp [VecCall.contents, hmem]

end VecHistory

namespace Handle

variable {α β γ : Type}

/-- In a vector every handle is as it came, in the place where a list has it, and the vector
does the same whatever the relocation of the allocator is: it never runs.  So an allocator is
moved by its own rule if this is to copy its bytes, and stays as it was otherwise. -/
theorem handles_move_as_bytes [Nonempty α] (handle : Handle) (layout : Layout)
    (allocator : Movable β) (destroy : α → Effect Unit) (builder : Builder γ (Carried α β)) :
    (∀ calls : List (VecCall (Carried α β) γ), (∀ call ∈ calls, call.InWord) → ∀ store,
      let history := (VecHistory.run (handle.carrying layout allocator destroy) builder id {} calls
        store).1
      history.Kept (handle.carrying layout allocator destroy) id ∧
        ∀ vec, history.vec = some vec → ∀ index carried,
          vec.slots.read index = some carried → carried ∈ history.entered) ∧
    (∀ relocate vec (call : VecCall (Carried α β) γ),
      call.act (handle.carrying layout (allocator.withRelocate relocate) destroy) builder vec =
        call.act (handle.carrying layout allocator destroy) builder vec) ∧
    (handle.MovesAllocator layout allocator destroy ↔
      ∀ source target value store, (allocator.carry source target value store).1 = value) ∧
    (allocator.bitwise = true → handle.MovesAllocator layout allocator destroy) := by
  refine ⟨?_, fun _ _ _ => rfl, handle.movesAllocator_iff layout allocator destroy, ?_⟩
  · intro calls hwords store history
    have hfaithful := handle.carrying_faithful layout allocator destroy
    have hkept : history.Kept (handle.carrying layout allocator destroy) id :=
      (VecHistory.kept_initial _ id).afterRun builder hfaithful hwords store
    exact ⟨hkept, fun vec hvec index carried hread => hkept.came hvec hread⟩
  · intro hbitwise
    refine (handle.movesAllocator_iff layout allocator destroy).2
      fun source target value store => ?_
    unfold Movable.carry
    rw [if_pos hbitwise]
    rfl

/-- An allocator that has to know where it is. -/
def homing : Movable Spot where
  bitwise := false
  relocate _ target _ := pure target
  destroy _ := pure ()
  settle spot _ := spot

/-- A handle that was put in the first slot makes room for another one. -/
def displaced : List (VecCall (Carried Unit Spot) Unit) :=
  [.create none, .push ⟨(), .slot 4096 0⟩, .insert 0 ⟨(), .slot 4096 0⟩]

/-- Handles that are only passed in, not built by a vector. -/
def passedIn : Builder Unit (Carried Unit Spot) where
  produce _ := throw .unsupportedOperation
  constructAt _ _ := throw .unsupportedOperation

def displacedVec (handle : Handle) : Option (Vec (Carried Unit Spot)) :=
  (VecHistory.run (handle.carrying ⟨16, 8⟩ homing fun _ => pure ()) passedIn id {} displaced
    { memory := { backend := .stack { base := 4096, capacity := 4096 } } }).1.vec

theorem handles_move_as_bytes_displaced :
    (∀ call ∈ displaced, call.InWord) ∧
      ∀ vec, displacedVec staged = some vec → ∀ index carried,
        vec.slots.read index = some carried → carried ∈ (VecHistory.run
          (staged.carrying ⟨16, 8⟩ homing fun _ => pure ()) passedIn id {} displaced
          { memory := { backend := .stack { base := 4096, capacity := 4096 } } }).1.entered := by
  have hwords : ∀ call ∈ displaced, call.InWord := by
    intro call hmem
    simp only [displaced, List.mem_cons, List.not_mem_nil, or_false] at hmem
    rcases hmem with rfl | rfl | rfl
    all_goals exact trivial
  have hbytes := handles_move_as_bytes staged ⟨16, 8⟩ homing (fun _ : Unit => pure ()) passedIn
  exact ⟨hwords, (hbytes.1 displaced hwords _).2⟩

/-- Whatever the handle is, the allocator in the second slot takes the first one for its own. -/
theorem allocator_left_behind :
    [unique, vec, staged].map (fun handle => (displacedVec handle).bind fun vec =>
        (vec.slots.read 1).map Carried.allocator) =
      [some (.slot 4096 0), some (.slot 4096 0), some (.slot 4096 0)] ∧
    (homing.carry (.slot 4096 0) (.slot 4096 1) (.slot 4096 0)
      { memory := { backend := .pages {} } }).1 = .slot 4096 1 ∧
    ∀ handle : Handle, ¬ handle.MovesAllocator ⟨16, 8⟩ homing fun _ : Unit => pure () := by
  refine ⟨rfl, rfl, fun handle hmoves => ?_⟩
  have hsame := (handle.movesAllocator_iff _ _ _).1 hmoves (.slot 4096 0) (.slot 4096 1)
    (.slot 4096 0) { memory := { backend := .pages {} } }
  have hindex := (Spot.slot_inj.1 hsame).2
  cases hindex

end Handle
end Freehold
