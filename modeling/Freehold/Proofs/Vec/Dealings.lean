import Freehold.Proofs.Memory.Grants
import Freehold.Proofs.Memory.Requests
import Freehold.Proofs.Memory.AllocatorState
import Freehold.Proofs.Vec.Calls

/-!
# Dealings of a vector with its allocator

A vector forgets the recorded size of its block and names the block by a size that it
computes from its capacity.  A deal is one call of the allocator by the vector.  It is
proper when it names a block that is held, with the alignment of the elements and with a
size that the allocator rounds to the recorded size.  Between two deals there is only what
does not belong to the vector: the code of the elements and the log.

A vector is backed by what it holds: by nothing before it has grown, and by one block of the
right shape from then on.
-/

namespace Freehold

/-- An allocator stays of its kind with a request if it does so with every answer. -/
theorem Allocator.Answered.granule_eq {γ : Type} {ask : Memory → Except Refusal (γ × Memory)}
    {memory : Memory} {run : Except ErrorKind γ × Store} (h : Answered ask memory run)
    (hgranted : ∀ value memory', ask memory = .ok (value, memory') →
      memory'.backend.granule = memory.backend.granule) :
    run.2.memory.backend.granule = memory.backend.granule := by
  obtain ⟨answer, store⟩ := run
  cases answer with
  | error kind => exact congrArg (fun memory => memory.backend.granule) h
  | ok value => exact hgranted value store.memory h

/-- One call of the allocator by a vector. -/
inductive Deal where
  | allocate (layout : Layout)
  | expand (holding : Holding) (size wanted : Nat)
  | reallocate (holding : Holding) (size wanted : Nat)
  | deallocate (holding : Holding) (size : Nat)
  | advise (holding : Holding) (size : Nat) (hint : UsageHint)

namespace Deal

/-- What is held after a request for a block was answered. -/
def received (held : List Holding) (layout : Layout) : Except ErrorKind Block → List Holding
  | .error _ => held
  | .ok block => .of layout block :: held

/-- What is held after a request for another size of a block was answered. -/
def resized (held : List Holding) (holding : Holding) (wanted : Nat) :
    Except ErrorKind Block → List Holding
  | .error _ => held
  | .ok block => holding.resized wanted block :: held.erase holding

/-- Makes the call, and says what is held after it. -/
def make (held : List Holding) : Deal → Effect (List Holding)
  | allocate layout => do
    let answer ← (Allocator.allocate layout).run
    pure (received held layout answer)
  | expand holding size wanted => do
    let answer ← (Allocator.expand holding.address (holding.layout size) wanted).run
    pure (resized held holding wanted (answer.map (Block.mk holding.address)))
  | reallocate holding size wanted => do
    let answer ← (Allocator.reallocate holding.address (holding.layout size) wanted).run
    pure (resized held holding wanted answer)
  | deallocate holding size => do
    Allocator.deallocate holding.address (holding.layout size)
    pure (held.erase holding)
  | advise holding size hint => do
    Allocator.advise holding.address size hint
    pure held

variable {α : Type}

/-- The block is held and aligned for the elements, and the size is that of all elements for
which it has room; the allocator rounds this size to the recorded one. -/
structure Names (element : Element α) (granule : Nat) (held : List Holding)
    (holding : Holding) (size : Nat) : Prop where
  held : holding ∈ held
  align_eq : holding.align = element.layout.align
  size_eq : size = element.layout.size * (holding.recorded / element.layout.size)
  rounds : Word.roundUp size granule = holding.recorded

/-- The deal asks for room for some elements, or names a block that is held. -/
def Proper (element : Element α) (granule : Nat) (held : List Holding) : Deal → Prop
  | allocate layout => ∃ count, element.layout.array? count = some layout
  | expand holding size _ | reallocate holding size _ | deallocate holding size
  | advise holding size _ => Names element granule held holding size

theorem granule_make (deal : Deal) (held : List Holding) (store : Store) :
    (deal.make held store).2.memory.backend.granule = store.memory.backend.granule := by
  cases deal with
  | allocate layout =>
    have hanswered := Allocator.allocate_answered layout store
    exact hanswered.granule_eq fun _ _ => Memory.granule_allocate
  | expand holding size wanted =>
    have hanswered :=
      Allocator.expand_answered holding.address (holding.layout size) wanted store
    exact hanswered.granule_eq fun _ _ hgrown => (Memory.expand_granted hgrown).2
  | reallocate holding size wanted =>
    have hanswered :=
      Allocator.reallocate_answered holding.address (holding.layout size) wanted store
    exact hanswered.granule_eq fun _ _ hmoved => (Memory.reallocate_granted hmoved).2
  | deallocate holding size => exact Memory.granule_deallocate _ _ _
  | advise holding size hint =>
    exact congrArg Backend.granule (Memory.backend_advise _ _ _ _)

end Deal

variable {α β : Type}

/-- A step that is not the vector's own: the code of an element, or a line for the log. -/
inductive Aside (element : Element α) (builder : Builder β α) : Store → Store → Prop
  | log (level : Level) (message : String) (store : Store) :
    Aside element builder store (Effect.log level message store).2
  | relocate (source target : Spot) (value : α) (store : Store) :
    Aside element builder store (element.relocateRecorded source target value store).2
  | destroy (value : α) (store : Store) :
    Aside element builder store (element.destroy value store).2
  | construct (spot : Spot) (args : β) (store : Store) :
    Aside element builder store (builder.constructAt spot args store).2

/-- The code of the elements leaves the allocator one of its kind. -/
def KeepsUnits (element : Element α) (builder : Builder β α) : Prop :=
  ∀ before after, Aside element builder before after →
    after.memory.backend.granule = before.memory.backend.granule

/-- From some holdings to others by proper deals, with steps aside between them. -/
inductive Dealings (element : Element α) (builder : Builder β α) :
    List Holding → Store → List Deal → List Holding → Store → Prop
  | done (held : List Holding) (store : Store) : Dealings element builder held store [] held store
  | aside {held held' : List Holding} {store middle store' : Store} {deals : List Deal}
    (haside : Aside element builder store middle)
    (hrest : Dealings element builder held middle deals held' store') :
    Dealings element builder held store deals held' store'
  | deal {held held' : List Holding} {store store' : Store} {deals : List Deal} (deal : Deal)
    (hproper : deal.Proper element store.memory.backend.granule held)
    (hrest : Dealings element builder (deal.make held store).1 (deal.make held store).2 deals
      held' store') :
    Dealings element builder held store (deal :: deals) held' store'

namespace Dealings

variable {element : Element α} {builder : Builder β α}
  {held middle held' : List Holding} {store between store' : Store} {deals later : List Deal}

theorem trans (h : Dealings element builder held store deals middle between)
    (hlater : Dealings element builder middle between later held' store') :
    Dealings element builder held store (deals ++ later) held' store' := by
  induction h with
  | done held store => exact hlater
  | aside haside hrest ih => exact .aside haside (ih hlater)
  | deal deal hproper hrest ih => exact .deal deal hproper (ih hlater)

theorem granule_eq (hkeeps : KeepsUnits element builder)
    (h : Dealings element builder held store deals held' store') :
    store'.memory.backend.granule = store.memory.backend.granule := by
  induction h with
  | done held store => rfl
  | aside haside hrest ih => exact ih.trans (hkeeps _ _ haside)
  | deal deal hproper hrest ih => exact ih.trans (deal.granule_make _ _)

end Dealings

/-- Steps aside only. -/
def Asides (element : Element α) (builder : Builder β α) (store store' : Store) : Prop :=
  ∀ held, Dealings element builder held store [] held store'

namespace Asides

variable {element : Element α} {builder : Builder β α} {store between store' : Store}

theorem refl (store : Store) : Asides element builder store store :=
  fun held => .done held store

theorem single (h : Aside element builder store store') : Asides element builder store store' :=
  fun held => .aside h (.done held store')

theorem trans (h : Asides element builder store between)
    (hlater : Asides element builder between store') : Asides element builder store store' :=
  fun held => (h held).trans (hlater held)

theorem granule_eq (hkeeps : KeepsUnits element builder)
    (h : Asides element builder store store') :
    store'.memory.backend.granule = store.memory.backend.granule := (h []).granule_eq hkeeps

end Asides

theorem Dealings.asides {element : Element α} {builder : Builder β α}
    {held held' : List Holding} {store store' : Store}
    (h : Dealings element builder held store [] held' store') :
    held' = held ∧ Asides element builder store store' := by
  generalize hdeals : ([] : List Deal) = deals at h
  induction h with
  | done held store => exact ⟨rfl, .refl store⟩
  | aside haside hrest ih =>
    obtain ⟨hsame, hasides⟩ := ih hdeals
    exact ⟨hsame, (Asides.single haside).trans hasides⟩
  | deal deal hproper hrest ih => cases hdeals

section Asides

variable (element : Element α) (builder : Builder β α)

theorem log_asides (level : Level) (message : String) (store : Store) :
    Asides element builder store (Effect.log level message store).2 :=
  .single (.log level message store)

theorem destroyAll_asides (values : List α) (store : Store) :
    Asides element builder store (element.destroyAll values store).2 := by
  induction values generalizing store with
  | nil => exact .refl store
  | cons value rest ih => exact (Asides.single (.destroy value store)).trans (ih _)

theorem migrate_asides (source target : Nat) (slots : Slots α) (count : Nat) (store : Store) :
    Asides element builder store (Vec.migrate element source target slots count store).2 := by
  induction count with
  | zero => exact .refl store
  | succ count ih =>
    unfold Vec.migrate
    rw [Effect.bind_apply]
    generalize Vec.migrate element source target slots count store = moved at ih ⊢
    cases slots.read count with
    | none => exact ih
    | some value => exact ih.trans (.single (.relocate _ _ value _))

theorem moveSlot_asides (buffer source target : Nat) (slots : Slots α) (store : Store) :
    Asides element builder store (Vec.moveSlot element buffer source target slots store).2 := by
  unfold Vec.moveSlot
  cases slots.read source with
  | none => exact .refl store
  | some value => exact .single (.relocate _ _ value store)

theorem shiftUp_asides (buffer index count : Nat) (slots : Slots α) (store : Store) :
    Asides element builder store (Vec.shiftUp element buffer index count slots store).2 := by
  induction count generalizing slots store with
  | zero => exact .refl store
  | succ count ih => exact (moveSlot_asides element builder _ _ _ slots store).trans (ih _ _)

theorem shiftDown_asides (buffer index count : Nat) (slots : Slots α) (store : Store) :
    Asides element builder store (Vec.shiftDown element buffer index count slots store).2 := by
  induction count generalizing index slots store with
  | zero => exact .refl store
  | succ count ih => exact (moveSlot_asides element builder _ _ _ slots store).trans (ih _ _ _)

theorem openGap_asides (vec : Vec α) (index : Nat) (store : Store) :
    Asides element builder store (vec.openGap element index store).2 := by
  unfold Vec.openGap
  split
  · exact .refl store
  · exact shiftUp_asides element builder _ _ _ _ store

theorem closeGap_asides (vec : Vec α) (index : Nat) (store : Store) :
    Asides element builder store (vec.closeGap element index store).2 := by
  unfold Vec.closeGap
  split
  · exact .refl store
  · exact shiftDown_asides element builder _ _ _ _ store

end Asides

/-! ## What a vector holds -/

/-- The block is the buffer of the vector.  It has room for the capacity, and the size of
the whole capacity is rounded to the recorded size.  Pages that serve the elements at all
are aligned for them. -/
structure Vec.Backs (element : Element α) (granule : Nat) (vec : Vec α) (holding : Holding) :
    Prop where
  address_eq : holding.address = vec.buffer
  align_eq : holding.align = element.layout.align
  power : element.layout.align.isPowerOfTwo
  aligned : element.layout.align ∣ vec.buffer
  capacity_eq : vec.capacity = holding.recorded / element.layout.size
  within : element.layout.size * vec.capacity ≤ holding.recorded
  rounds : Word.roundUp (element.layout.size * vec.capacity) granule = holding.recorded
  paged : FreeList.granule < granule → element.layout.align ∣ granule

/-- What is held for a vector. -/
inductive Backed (element : Element α) (granule : Nat) : Option (Vec α) → List Holding → Prop
  | none : Backed element granule none []
  | sizeless {vec : Vec α} (hzero : element.layout.size = 0)
    (hcapacity : vec.capacity = Word.greatest) : Backed element granule (some vec) []
  | fresh {vec : Vec α} (hsized : element.layout.size ≠ 0) (hcapacity : vec.capacity = 0) :
    Backed element granule (some vec) []
  | block {vec : Vec α} {holding : Holding} (hsized : element.layout.size ≠ 0)
    (hpos : 0 < vec.capacity) (hbacks : vec.Backs element granule holding) :
    Backed element granule (some vec) [holding]

/-- The buffer, if there is one, lies in the lower half of the addresses, where address zero
is not used. -/
def Vec.Low (element : Element α) (vec : Vec α) : Prop :=
  element.layout.size ≠ 0 → 0 < vec.capacity →
    0 < vec.buffer ∧ vec.buffer + element.layout.size * vec.capacity ≤ 1 <<< 63

namespace Vec.Backs

variable {element : Element α} {granule : Nat} {vec : Vec α} {holding : Holding}

/-- The layout that is computed from the capacity names the block. -/
theorem bufferLayout?_eq (h : vec.Backs element granule holding)
    (hsized : element.layout.size ≠ 0) (hpos : 0 < vec.capacity) (hlow : vec.Low element) :
    vec.bufferLayout? element = some (holding.layout (element.layout.size * vec.capacity)) := by
  have hvalid : Layout.Valid ⟨element.layout.size * vec.capacity, element.layout.align⟩ := by
    obtain ⟨hstart, hstop⟩ := hlow hsized hpos
    have halign := Nat.le_of_dvd hstart h.aligned
    refine ⟨h.power, ?_⟩
    show element.layout.size * vec.capacity + element.layout.align ≤ 1 <<< 63
    omega
  unfold bufferLayout?
  rw [if_neg (by omega)]
  refine Layout.of?_eq_some_iff.2 ⟨hvalid, ?_⟩
  unfold Holding.layout
  rw [h.align_eq]

theorem names (h : vec.Backs element granule holding) {held : List Holding}
    (hheld : holding ∈ held) :
    Deal.Names element granule held holding (element.layout.size * vec.capacity) where
  held := hheld
  align_eq := h.align_eq
  size_eq := by rw [h.capacity_eq]
  rounds := h.rounds

/-- All elements for which a block in whole units has room take up these units. -/
theorem of_units (vec : Vec α) (holding : Holding) {count : Nat} (hgranule : 0 < granule)
    (hsized : element.layout.size ≠ 0) (haddress : holding.address = vec.buffer)
    (halign : holding.align = element.layout.align)
    (hpower : element.layout.align.isPowerOfTwo) (haligned : element.layout.align ∣ vec.buffer)
    (hcapacity : vec.capacity = holding.recorded / element.layout.size)
    (hunits : holding.recorded = Word.roundUp (element.layout.size * count) granule)
    (hpaged : FreeList.granule < granule → element.layout.align ∣ granule) :
    vec.Backs element granule holding ∧ count ≤ vec.capacity := by
  have hle := Word.le_roundUp (element.layout.size * count) hgranule
  have hcount : count ≤ vec.capacity := by
    rw [hcapacity, Nat.le_div_iff_mul_le (Nat.pos_of_ne_zero hsized), Nat.mul_comm, hunits]
    exact hle
  have hwithin : element.layout.size * vec.capacity ≤ holding.recorded := by
    rw [hcapacity]
    exact Nat.mul_div_le _ _
  refine ⟨⟨haddress, halign, hpower, haligned, hcapacity, hwithin, ?_, hpaged⟩, hcount⟩
  rw [hunits]
  exact Word.roundUp_eq_of_between hgranule (Nat.mul_le_mul_left _ hcount) (hunits ▸ hwithin)

end Vec.Backs

theorem Backed.congr {element : Element α} {granule : Nat} {vec next : Vec α}
    {held : List Holding} (h : Backed element granule (some vec) held)
    (hbuffer : next.buffer = vec.buffer) (hcapacity : next.capacity = vec.capacity) :
    Backed element granule (some next) held := by
  cases h with
  | sizeless hzero hall => exact .sizeless hzero (hcapacity.trans hall)
  | fresh hsized hnone => exact .fresh hsized (hcapacity.trans hnone)
  | block hsized hpos hbacks =>
    refine .block hsized (hcapacity ▸ hpos)
      ⟨?_, hbacks.align_eq, hbacks.power, ?_, ?_, ?_, ?_, hbacks.paged⟩
    · rw [hbuffer, hbacks.address_eq]
    · rw [hbuffer]
      exact hbacks.aligned
    · rw [hcapacity, hbacks.capacity_eq]
    · rw [hcapacity]
      exact hbacks.within
    · rw [hcapacity]
      exact hbacks.rounds

end Freehold
