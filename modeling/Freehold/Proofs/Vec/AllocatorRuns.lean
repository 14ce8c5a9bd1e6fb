import Freehold.Proofs.Habits
import Freehold.Proofs.Vec.Backing

/-!
# A vector and its allocator over a run

Over a whole run a vector deals properly with its allocator.  The run is made of calls on
the vector and of whatever others do meanwhile, to the same allocator or to its plan of
refusals.
-/

namespace Freehold

variable {α β : Type}

/-- A call on a vector, or on none, as far as the vector is concerned. -/
def VecCall.step (element : Element α) (builder : Builder β α) (vec? : Option (Vec α))
    (call : VecCall α β) : Effect (Option (Vec α)) := do
  let history : VecHistory α Unit := { vec := vec? }
  let answer ← history.perform element builder (fun _ => ()) call
  pure answer.2.vec

/-- A turn of a run: a call on the vector, or something that others do meanwhile. -/
inductive Turn (α β : Type) where
  | call (request : VecCall α β)
  | meanwhile (change : Store → Store)

namespace Turn

def take (element : Element α) (builder : Builder β α) (vec? : Option (Vec α)) :
    Turn α β → Effect (Option (Vec α))
  | call request => request.step element builder vec?
  | meanwhile change => fun store => (vec?, change store)

/-- Arguments are words, and others do not exchange the allocator for one with other units. -/
def Fair : Turn α β → Prop
  | call request => request.InWord
  | meanwhile change =>
    ∀ store, (change store).memory.backend.granule = store.memory.backend.granule

end Turn

namespace VecRun

def LiesLow (element : Element α) : Option (Vec α) → Prop
  | none => True
  | some vec => vec.Low element

instance (element : Element α) : (vec? : Option (Vec α)) → Decidable (LiesLow element vec?)
  | none => .isTrue trivial
  | some _ => inferInstanceAs (Decidable (_ → _ → _ ∧ _))

/-- In every state of the run the buffer lies low. -/
def StaysLow (element : Element α) (builder : Builder β α) :
    Option (Vec α) → Store → List (Turn α β) → Prop
  | vec?, _, [] => LiesLow element vec?
  | vec?, store, turn :: later =>
    LiesLow element vec? ∧
      StaysLow element builder (turn.take element builder vec? store).1
        (turn.take element builder vec? store).2 later

instance decidableStaysLow (element : Element α) (builder : Builder β α) :
    (vec? : Option (Vec α)) → (store : Store) → (turns : List (Turn α β)) →
      Decidable (StaysLow element builder vec? store turns)
  | vec?, _, [] => inferInstanceAs (Decidable (LiesLow element vec?))
  | vec?, store, turn :: later =>
    have := decidableStaysLow element builder (turn.take element builder vec? store).1
      (turn.take element builder vec? store).2 later
    inferInstanceAs (Decidable (_ ∧ _))

/-- In every state of the run the vector is backed by what is held for it, every call comes
to proper deals, and a call that does not turn to the allocator to none. -/
def Proper (element : Element α) (builder : Builder β α) :
    List Holding → Option (Vec α) → Store → List (Turn α β) → Prop
  | held, vec?, store, [] => Backed element store.memory.backend.granule vec? held
  | held, vec?, store, .call call :: later =>
    Backed element store.memory.backend.granule vec? held ∧
      ∃ deals held',
        Dealings element builder held store deals held' (call.step element builder vec? store).2 ∧
        (¬ call.MayDeal element vec? → deals = []) ∧
        Proper element builder held' (call.step element builder vec? store).1
          (call.step element builder vec? store).2 later
  | held, vec?, store, .meanwhile change :: later =>
    Backed element store.memory.backend.granule vec? held ∧
      Proper element builder held vec? (change store) later

/-- No call of the run asks for room. -/
def NeverAsks (element : Element α) (builder : Builder β α) :
    Option (Vec α) → Store → List (Turn α β) → Prop
  | _, _, [] => True
  | vec?, store, turn :: later =>
    (∀ call, turn = .call call → ¬ call.Asks element vec?) ∧
      NeverAsks element builder (turn.take element builder vec? store).1
        (turn.take element builder vec? store).2 later

/-- No call of the run calls the allocator. -/
def Silent (element : Element α) (builder : Builder β α) :
    Option (Vec α) → Store → List (Turn α β) → Prop
  | _, _, [] => True
  | vec?, store, turn :: later =>
    (∀ call, turn = .call call →
        Asides element builder store (call.step element builder vec? store).2) ∧
      Silent element builder (turn.take element builder vec? store).1
        (turn.take element builder vec? store).2 later

variable {element : Element α} {builder : Builder β α}

theorem LiesLow.low {vec? : Option (Vec α)} (h : LiesLow element vec?) (vec : Vec α)
    (hvec : vec? = some vec) : vec.Low element := by
  subst hvec
  exact h

/-- One call comes to proper deals and leaves the vector backed, in the units of the
allocator as it is then. -/
theorem step_stays (hkeeps : KeepsUnits element builder) {held : List Holding}
    {vec? : Option (Vec α)} {store : Store} {call : VecCall α β} (hword : call.InWord)
    (hbacked : Backed element store.memory.backend.granule vec? held)
    (hlow : LiesLow element vec?) :
    ∃ deals held',
      Dealings element builder held store deals held' (call.step element builder vec? store).2 ∧
      Backed element (call.step element builder vec? store).2.memory.backend.granule
        (call.step element builder vec? store).1 held' ∧
      (¬ call.MayDeal element vec? → deals = []) := by
  obtain ⟨deals, held', hdealings, hnext, hnone⟩ :=
    VecHistory.perform_stays builder (fun _ => ()) { vec := vec? } hword hkeeps hbacked hlow.low rfl
  rw [← hdealings.granule_eq hkeeps] at hnext
  exact ⟨deals, held', hdealings, hnext, hnone⟩

theorem Proper.of_stays (hkeeps : KeepsUnits element builder) {turns : List (Turn α β)}
    (hfair : ∀ turn ∈ turns, turn.Fair) {held : List Holding} {vec? : Option (Vec α)}
    {store : Store} (hbacked : Backed element store.memory.backend.granule vec? held)
    (hlow : StaysLow element builder vec? store turns) :
    Proper element builder held vec? store turns := by
  induction turns generalizing held vec? store with
  | nil => exact hbacked
  | cons turn later ih =>
    obtain ⟨hnow, hlater⟩ := hlow
    have hfirst := hfair turn (by simp)
    have hrest : ∀ turn ∈ later, turn.Fair := fun turn hmem => hfair turn (by simp [hmem])
    cases turn with
    | meanwhile change =>
      refine ⟨hbacked, ih hrest ?_ hlater⟩
      show Backed element (change store).memory.backend.granule vec? held
      rw [hfirst store]
      exact hbacked
    | call call =>
      obtain ⟨deals, held', hdealings, hnext, hnone⟩ := step_stays hkeeps hfirst hbacked hnow
      exact ⟨hbacked, deals, held', hdealings, hnone, ih hrest hnext hlater⟩

theorem Silent.of_neverAsks (hkeeps : KeepsUnits element builder) {turns : List (Turn α β)}
    (hfair : ∀ turn ∈ turns, turn.Fair) {vec? : Option (Vec α)} {store : Store}
    (hbacked : Backed element store.memory.backend.granule vec? [])
    (hlow : StaysLow element builder vec? store turns)
    (hnever : NeverAsks element builder vec? store turns) :
    Silent element builder vec? store turns := by
  induction turns generalizing vec? store with
  | nil => trivial
  | cons turn later ih =>
    obtain ⟨hnow, hlater⟩ := hlow
    obtain ⟨hasks, hnever⟩ := hnever
    have hfirst := hfair turn (by simp)
    have hrest : ∀ turn ∈ later, turn.Fair := fun turn hmem => hfair turn (by simp [hmem])
    cases turn with
    | meanwhile change =>
      refine ⟨fun call hcall => (nomatch hcall), ih hrest ?_ hlater hnever⟩
      show Backed element (change store).memory.backend.granule vec? []
      rw [hfirst store]
      exact hbacked
    | call call =>
      obtain ⟨deals, held', hdealings, hnext, hnone⟩ := step_stays hkeeps hfirst hbacked hnow
      obtain rfl := hnone fun hdeal => hasks call rfl (VecCall.asks_of_mayDeal hbacked hdeal)
      obtain ⟨rfl, hasides⟩ := hdealings.asides
      refine ⟨fun other hother => ?_, ih hrest hnext hlater hnever⟩
      cases hother
      exact hasides

/-- Elements without a size never ask for room. -/
theorem neverAsks_of_sizeless (hzero : element.layout.size = 0) (builder : Builder β α)
    (vec? : Option (Vec α)) (store : Store) (turns : List (Turn α β)) :
    NeverAsks element builder vec? store turns := by
  induction turns generalizing vec? store with
  | nil => trivial
  | cons turn later ih =>
    exact ⟨fun call _ hasks => VecCall.Asks.sized hasks hzero, ih _ _⟩

/-- A vector deals properly with its allocator, and with none before it asks for room. -/
theorem vec_deals_properly (element : Element α) (builder : Builder β α)
    (hkeeps : KeepsUnits element builder) (store : Store) (turns : List (Turn α β))
    (hfair : ∀ turn ∈ turns, turn.Fair) (hlow : StaysLow element builder none store turns) :
    Proper element builder [] none store turns ∧
      (element.layout.size = 0 ∨ NeverAsks element builder none store turns →
        Silent element builder none store turns) := by
  refine ⟨.of_stays hkeeps hfair .none hlow, fun hnever => ?_⟩
  refine .of_neverAsks hkeeps hfair .none hlow ?_
  rcases hnever with hzero | hnever
  · exact neverAsks_of_sizeless hzero builder none store turns
  · exact hnever

end VecRun

/-! ## Leaf types -/

/-- The effect leaves the allocator one of its kind. -/
def Effect.KeepsUnits {γ : Type} (effect : Effect γ) : Prop :=
  ∀ store, (effect store).2.memory.backend.granule = store.memory.backend.granule

/-- The attempt leaves the allocator one of its kind, whether it comes about or not. -/
def Attempt.KeepsUnits {γ : Type} (attempt : Attempt γ) : Prop :=
  Effect.KeepsUnits attempt.run

theorem Allocator.keepsUnits_allocate (layout : Layout) :
    Attempt.KeepsUnits (Allocator.allocate layout) := fun store =>
  (Deal.allocate layout).granule_make [] store

theorem Store.unitsHabit : EffectHabit fun before after =>
    after.memory.backend.granule = before.memory.backend.granule where
  refl _ := rfl
  trans h hnext := hnext.trans h
  announces _ _ := rfl
  numbers _ := rfl
  plans store := by
    show (Attempt.hook store).2.memory.backend.granule = _
    unfold Attempt.hook
    split
    · rfl
    · rfl
    · rfl
  allocates := Allocator.keepsUnits_allocate
  deallocates address layout store := Memory.granule_deallocate store.memory address layout

/-- The code of a leaf type may draw blocks, but it does not exchange the allocator. -/
theorem Leaf.keepsUnits (leaf : Leaf) : KeepsUnits leaf.element leaf.builder := by
  intro before after haside
  cases haside with
  | log level message =>
    unfold Effect.log
    split
    · rfl
    · rfl
  | relocate source target piece =>
    exact leaf.relocate_leads (Store.unitsHabit.leaf leaf) source target piece _
  | destroy piece => exact leaf.destroy_leads (Store.unitsHabit.leaf leaf) piece before
  | construct spot datum => exact leaf.builder_leads (Store.unitsHabit.leaf leaf) spot datum before

namespace VecRun

/-- Others take the memory behind the first block, and one request is refused. -/
def crowded : List (Turn Piece Datum) :=
  [.call (.create none), .call (.reserve 3),
    .meanwhile fun store => (Allocator.allocate ⟨40, 8⟩ store).2,
    .call (.push { datum := .number 1 }), .call (.insert 0 { datum := .number 2 }),
    .call (.emplace (.number 3)), .call (.push { datum := .number 4 }),
    .call (.push { datum := .number 5 }), .call (.remove 1), .call .clear, .call .drop]

def crowdedStore : Store where
  memory := { backend := .freeList { spans := [⟨4096, 4096⟩], freeBytes := 4096 } }
  failing := [3]

theorem vec_deals_properly_crowded :
    KeepsUnits Catalogue.anchored.element Catalogue.anchored.builder ∧
      (∀ turn ∈ crowded, turn.Fair) ∧
      StaysLow Catalogue.anchored.element Catalogue.anchored.builder none crowdedStore crowded ∧
      Proper Catalogue.anchored.element Catalogue.anchored.builder [] none crowdedStore
        crowded := by
  have hkeeps := Catalogue.anchored.keepsUnits
  have hfair : ∀ turn ∈ crowded, turn.Fair := by
    intro turn hmem
    simp only [crowded, List.mem_cons, List.not_mem_nil, or_false] at hmem
    rcases hmem with rfl | rfl | rfl | rfl | rfl | rfl | rfl | rfl | rfl | rfl | rfl
    case inr.inl => exact (by decide : 3 < Word.limit)
    case inr.inr.inl => exact Allocator.keepsUnits_allocate ⟨40, 8⟩
    all_goals exact trivial
  have hlow : StaysLow Catalogue.anchored.element Catalogue.anchored.builder none crowdedStore
      crowded := by decide +kernel
  exact ⟨hkeeps, hfair, hlow, (vec_deals_properly Catalogue.anchored.element
    Catalogue.anchored.builder hkeeps crowdedStore crowded hfair hlow).1⟩

end VecRun
end Freehold
