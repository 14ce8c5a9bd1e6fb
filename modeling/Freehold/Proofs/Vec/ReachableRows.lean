import Freehold.Proofs.Memory.ReachableBlocks
import Freehold.Proofs.Vec.AllocatorRuns
import Freehold.Proofs.Vec.Words

/-!
# Vectors that come about

A vector resides in a memory if its block is in use there, together with blocks of others.  Any
call on it leaves it so, wherever the memory lies, if the code of its elements leaves the blocks
alone that are in use.  Others may do with theirs what they like.  So a vector resides in its
memory in every state that comes about by calls and by what others do meanwhile.
-/

namespace Freehold

variable {α β : Type}

theorem Effect.memory_log (level : Level) (message : String) (store : Store) :
    (log level message store).2.memory = store.memory := by
  unfold log
  split
  · rfl
  · rfl

/-- The code of the elements takes away no block that is in use. -/
def Courteous (element : Element α) (builder : Builder β α) : Prop :=
  ∀ before after, Aside element builder before after → ∀ regions held,
    before.memory.InUse regions held → after.memory.InUse regions held

variable {element : Element α} {builder : Builder β α} {regions : List Span}
  {held others : Multiset Holding} {vec : Vec α} {store : Store}

section Courteous

variable (hcourteous : Courteous element builder)

include hcourteous

theorem Dealings.inUse {list list' : List Holding} {deals : List Deal} {after : Store}
    (h : Dealings element builder list store deals list' after) (hnone : deals = [])
    (hheld : store.memory.InUse regions held) : after.memory.InUse regions held := by
  induction h with
  | done => exact hheld
  | aside haside hrest ih => exact ih hnone (hcourteous _ _ haside regions held hheld)
  | deal => cases hnone

theorem Asides.inUse {after : Store} (h : Asides element builder store after)
    (hheld : store.memory.InUse regions held) : after.memory.InUse regions held :=
  (h []).inUse hcourteous rfl hheld

end Courteous

namespace Vec

/-- The block that a vector has in use, if it has one. -/
inductive Occupies (element : Element α) (vec : Vec α) : Multiset Holding → Prop
  | nothing (hnone : element.layout.size = 0 ∨ vec.capacity = 0) : Occupies element vec 0
  | block {holding : Holding} (hsized : element.layout.size ≠ 0) (hpos : 0 < vec.capacity)
      (haddress : holding.address = vec.buffer) (halign : holding.align = element.layout.align)
      (hfits : holding.Fits (element.layout.size * vec.capacity)) :
    Occupies element vec {holding}

/-- The elements have room, and the block of the vector is in use beside blocks of others. -/
structure Resides (element : Element α) (regions : List Span) (others : Multiset Holding)
    (vec : Vec α) (memory : Memory) : Prop where
  roomy : vec.Roomy element
  word : element.layout.size = 0 ∨ vec.capacity = 0 → vec.buffer < Word.limit
  inUse : ∃ own, vec.Occupies element own ∧ memory.InUse regions (own + others)

theorem Occupies.congr {next : Vec α} {own : Multiset Holding} (h : vec.Occupies element own)
    (hbuffer : next.buffer = vec.buffer) (hcapacity : next.capacity = vec.capacity) :
    next.Occupies element own := by
  cases h with
  | nothing hnone => exact .nothing (hcapacity ▸ hnone)
  | block hsized hpos haddress halign hfits =>
    exact .block hsized (hcapacity ▸ hpos) (hbuffer ▸ haddress) halign (hcapacity ▸ hfits)

namespace Resides

variable {memory memory' : Memory}

/-- The vector keeps its buffer. -/
theorem congr (h : vec.Resides element regions others memory) {next : Vec α}
    (hbuffer : next.buffer = vec.buffer) (hcapacity : next.capacity = vec.capacity)
    (hlength : next.length ≤ vec.capacity) : next.Resides element regions others memory where
  roomy := ⟨hcapacity ▸ hlength, fun hzero => hcapacity ▸ h.roomy.sizeless hzero⟩
  word := by
    rw [hcapacity, hbuffer]
    exact h.word
  inUse := by
    obtain ⟨own, hown, hheld⟩ := h.inUse
    exact ⟨own, hown.congr hbuffer hcapacity, hheld⟩

theorem after (h : vec.Resides element regions others memory)
    (hkeeps : ∀ held, memory.InUse regions held → memory'.InUse regions held) :
    vec.Resides element regions others memory' where
  roomy := h.roomy
  word := h.word
  inUse := by
    obtain ⟨own, hown, hheld⟩ := h.inUse
    exact ⟨own, hown, hkeeps _ hheld⟩

/-- A request that is refused leaves the memory alone. -/
theorem refused (h : vec.Resides element regions others memory) (hmemory : memory' = memory) :
    vec.Resides element regions others memory' := by
  rw [hmemory]
  exact h

theorem block (h : vec.Resides element regions others memory) (hsized : element.layout.size ≠ 0)
    (hpos : 0 < vec.capacity) : ∃ holding : Holding, holding.address = vec.buffer ∧
      holding.layout (element.layout.size * vec.capacity) =
        ⟨element.layout.size * vec.capacity, element.layout.align⟩ ∧
      holding.Fits (element.layout.size * vec.capacity) ∧
      memory.InUse regions (holding ::ₘ others) := by
  obtain ⟨own, hown, hheld⟩ := h.inUse
  cases hown with
  | nothing hnone => omega
  | @block holding _ _ haddress halign hfits =>
    exact ⟨holding, haddress, by rw [Holding.layout, halign], hfits, hheld⟩

theorem leave (h : vec.Resides element regions others memory) :
    memory.InUse regions others := by
  obtain ⟨own, -, hheld⟩ := h.inUse
  exact hheld.mono (Multiset.le_add_left others own)

/-- A block with room for some elements gives a vector all the room in it. -/
theorem of_block {holding : Holding} {block : Block} {count : Nat}
    (hsized : element.layout.size ≠ 0) (hcount : 0 < count)
    (hlarge : element.layout.size * count ≤ block.size)
    (hbuffer : vec.buffer = block.address) (hlength : vec.length ≤ count)
    (hcapacity : vec.capacity = block.size / element.layout.size)
    (haddress : holding.address = block.address) (halign : holding.align = element.layout.align)
    (hrequested : holding.requested ≤ element.layout.size * count)
    (hrecorded : block.size ≤ holding.recorded)
    (hheld : memory.InUse regions (holding ::ₘ others)) :
    vec.Resides element regions others memory ∧ count ≤ vec.capacity := by
  have hroom : count ≤ vec.capacity := hcapacity ▸ le_div_of_mul_le hsized hlarge
  have hmore : element.layout.size * count ≤ element.layout.size * vec.capacity :=
    Nat.mul_le_mul_left _ hroom
  have hwithin : element.layout.size * vec.capacity ≤ block.size := by
    rw [hcapacity]
    exact Nat.mul_div_le _ _
  refine ⟨⟨⟨Nat.le_trans hlength hroom, fun hzero => absurd hzero hsized⟩, ?_, {holding}, ?_, ?_⟩,
    hroom⟩
  · rintro (hzero | hnone)
    · exact absurd hzero hsized
    · omega
  · exact .block hsized (by omega) (haddress.trans hbuffer.symm) halign ⟨by omega, by omega⟩
  · rwa [Multiset.singleton_add]

end Resides

/-! ## Growth -/

/-- What has become of a vector that was to have room for some elements. -/
def Rehoused (element : Element α) (regions : List Span) (others : Multiset Holding)
    (vec : Vec α) (room : Nat) : Except ErrorKind (Vec α) × Store → Prop
  | (.ok grown, after) =>
    grown.Resides element regions others after.memory ∧ grown.length = vec.length ∧
      room ≤ grown.capacity
  | (.error _, after) => vec.Resides element regions others after.memory

section Growth

variable (h : vec.Resides element regions others store.memory) {count : Nat}

include h

theorem rehoused_unchanged (hle : count ≤ vec.capacity) :
    vec.Rehoused element regions others count (.ok vec, store) := ⟨h, rfl, hle⟩

section Sized

variable (hsized : element.layout.size ≠ 0) (hmore : vec.capacity < count)

include hsized hmore

theorem rehoused_of_allocate {block : Block} {after : Store} {grown : Vec α}
    (hlarge : element.layout.size * count ≤ block.size)
    (hbuffer : grown.buffer = block.address) (hlength : grown.length = vec.length)
    (hcapacity : grown.capacity = block.size / element.layout.size)
    (hheld : after.memory.InUse regions
      (.of ⟨element.layout.size * count, element.layout.align⟩ block ::ₘ others)) :
    vec.Rehoused element regions others count (.ok grown, after) := by
  have hroom := h.roomy.length_le
  obtain ⟨hresides, hcount⟩ := Resides.of_block hsized (Nat.zero_lt_of_lt hmore) hlarge hbuffer
    (by omega) hcapacity rfl rfl (Nat.le_refl _) (Nat.le_refl _) hheld
  exact ⟨hresides, hlength, hcount⟩

theorem rehoused_of_resized {holding : Holding}
    (hnamed : holding.layout (element.layout.size * vec.capacity) =
      ⟨element.layout.size * vec.capacity, element.layout.align⟩)
    (hfits : holding.Fits (element.layout.size * vec.capacity)) {block : Block} {after : Store}
    (hlarge : element.layout.size * count ≤ block.size)
    (hheld : after.memory.InUse regions
      (holding.resized (element.layout.size * count) block ::ₘ others)) :
    vec.Rehoused element regions others count (.ok (vec.adopt element block), after) := by
  have hroom := h.roomy.length_le
  have hlength : vec.length ≤ count := by omega
  have halign : (holding.resized (element.layout.size * count) block).align =
      element.layout.align := congrArg Layout.align hnamed
  have hrequested : (holding.resized (element.layout.size * count) block).requested ≤
      element.layout.size * count :=
    Nat.max_le.2 ⟨Nat.le_trans hfits.1 (Nat.le_of_lt (size_lt hsized hmore)), Nat.le_refl _⟩
  have hhoused : (vec.adopt element block).Resides element regions others after.memory ∧
      count ≤ (vec.adopt element block).capacity :=
    Resides.of_block hsized (Nat.zero_lt_of_lt hmore) hlarge rfl hlength rfl rfl halign hrequested
      (Nat.le_max_right _ _) hheld
  exact ⟨hhoused.1, rfl, hhoused.2⟩

section Held

variable (hpos : 0 < vec.capacity)

include hpos

theorem resize_rehoused {wanted : Layout} (hwanted : wanted.size = element.layout.size * count) :
    vec.Rehoused element regions others count (vec.resize element
      ⟨element.layout.size * vec.capacity, element.layout.align⟩ wanted store) := by
  obtain ⟨holding, haddress, hnamed, hfits, hheld⟩ := h.block hsized hpos
  have hanswered := Allocator.reallocate_answered vec.buffer
    ⟨element.layout.size * vec.capacity, element.layout.align⟩ wanted.size store
  have hfulfils := Allocator.reallocate_fulfils vec.buffer
    ⟨element.layout.size * vec.capacity, element.layout.align⟩ wanted.size store
  unfold resize
  rw [Attempt.bind_apply]
  rw [hwanted] at hanswered hfulfils ⊢
  generalize Allocator.reallocate vec.buffer _ _ store = run at hanswered hfulfils ⊢
  obtain ⟨answer, middle⟩ := run
  cases answer with
  | error kind => exact h.refused hanswered
  | ok block =>
    rw [← haddress, ← hnamed] at hanswered
    have hafter := hheld.reallocated hfits hanswered
    rw [← Effect.memory_log .trace (resizedBuffer block.size) middle] at hafter
    exact rehoused_of_resized h hsized hmore hnamed hfits hfulfils hafter

theorem move_rehoused (hcourteous : Courteous element builder) {wanted : Layout}
    (hwanted : element.layout.array? count = some wanted) :
    vec.Rehoused element regions others count (vec.move element
      ⟨element.layout.size * vec.capacity, element.layout.align⟩ wanted store) := by
  obtain ⟨holding, haddress, hnamed, hfits, hheld⟩ := h.block hsized hpos
  obtain ⟨hvalid, rfl⟩ := array?_layout hwanted
  have hanswered := Allocator.allocate_answered
    ⟨element.layout.size * count, element.layout.align⟩ store
  have hfulfils := Allocator.allocate_fulfils
    ⟨element.layout.size * count, element.layout.align⟩ store
  unfold move
  rw [Attempt.bind_apply]
  generalize Allocator.allocate _ store = run at hanswered hfulfils ⊢
  obtain ⟨answer, middle⟩ := run
  cases answer with
  | error kind => exact h.refused hanswered
  | ok block =>
    have hboth := hheld.granted hvalid hanswered
    have hasides := migrate_asides element builder vec.buffer block.address vec.slots vec.length
      middle
    generalize hmigrate : migrate element vec.buffer block.address vec.slots vec.length middle =
      migrated at hasides
    have hboth := hasides.inUse hcourteous (hheld.granted hvalid hanswered)
    rw [Multiset.cons_swap] at hboth
    have hfreed := hboth.returned hfits
    rw [hnamed, haddress] at hfreed
    generalize hdeallocated : Allocator.deallocate vec.buffer
      ⟨element.layout.size * vec.capacity, element.layout.align⟩ migrated.2 = freed
    have hmemory : freed.2.memory.InUse regions
        (.of ⟨element.layout.size * count, element.layout.align⟩ block ::ₘ others) := by
      rw [← hdeallocated]
      exact hfreed
    rw [← Effect.memory_log .trace (relocatedElements vec.length block.size)] at hmemory
    have hhoused : vec.Rehoused element regions others count
        (.ok { vec.adopt element block with slots := migrated.1 },
          (Effect.log .trace (relocatedElements vec.length block.size) freed.2).2) :=
      rehoused_of_allocate h hsized hmore hfulfils rfl rfl rfl hmemory
    subst hdeallocated hmigrate
    exact hhoused

theorem regrow_rehoused (hcourteous : Courteous element builder) {wanted : Layout}
    (hwanted : element.layout.array? count = some wanted) :
    vec.Rehoused element regions others count (vec.regrow element
      ⟨element.layout.size * vec.capacity, element.layout.align⟩ wanted store) := by
  obtain ⟨holding, haddress, hnamed, hfits, hheld⟩ := h.block hsized hpos
  have hsize : wanted.size = element.layout.size * count := by rw [(array?_layout hwanted).2]
  have hanswered := Allocator.expand_answered vec.buffer
    ⟨element.layout.size * vec.capacity, element.layout.align⟩ wanted.size store
  unfold regrow
  rw [Attempt.bind_apply, Attempt.lift_apply]
  cases hrun : (Allocator.expand vec.buffer
      ⟨element.layout.size * vec.capacity, element.layout.align⟩ wanted.size).run store with
  | mk answer middle =>
    have hrun' : Allocator.expand vec.buffer
        ⟨element.layout.size * vec.capacity, element.layout.align⟩ wanted.size store =
          (answer, middle) := hrun
    rw [hrun'] at hanswered
    cases answer with
    | ok size =>
      have hlarge := Allocator.expand_ok hrun'
      rw [hsize] at hanswered hlarge
      rw [← haddress, ← hnamed] at hanswered
      have hafter := hheld.expanded hfits hanswered
      rw [haddress, ← Effect.memory_log .trace (grewInPlace size) middle] at hafter
      exact rehoused_of_resized h hsized hmore hnamed hfits hlarge hafter
    | error kind =>
      have hthere : vec.Resides element regions others middle.memory := h.refused hanswered
      dsimp only
      cases element.bitwise with
      | true => exact resize_rehoused hthere hsized hmore hpos hsize
      | false => exact move_rehoused hthere hsized hmore hpos hcourteous hwanted

end Held

end Sized

variable (hcourteous : Courteous element builder)

include hcourteous

theorem reserve_rehoused (hword : count < Word.limit) :
    vec.Rehoused element regions others count (vec.reserve element count store) := by
  unfold reserve
  by_cases hle : count ≤ vec.capacity
  · rw [if_pos hle]
    exact rehoused_unchanged h hle
  have hmore := Nat.lt_of_not_le hle
  have hsized : element.layout.size ≠ 0 := fun hzero => hle (h.roomy.le_capacity hzero hword)
  rw [if_neg hle]
  cases hwanted : element.layout.array? count with
  | none => exact h
  | some wanted =>
    rcases Nat.eq_zero_or_pos vec.capacity with hnone | hpos
    · obtain ⟨hvalid, rfl⟩ := array?_layout hwanted
      have hanswered := Allocator.allocate_answered
        ⟨element.layout.size * count, element.layout.align⟩ store
      have hfulfils := Allocator.allocate_fulfils
        ⟨element.layout.size * count, element.layout.align⟩ store
      rw [bufferLayout?, if_pos (Or.inr hnone)]
      dsimp only
      rw [Attempt.bind_apply]
      generalize Allocator.allocate _ store = run at hanswered hfulfils ⊢
      obtain ⟨answer, middle⟩ := run
      cases answer with
      | error kind => exact h.refused hanswered
      | ok block =>
        exact rehoused_of_allocate h hsized hmore hfulfils rfl rfl rfl
          (h.leave.granted hvalid hanswered)
    · rw [bufferLayout?_of_array? hsized hpos hmore hwanted]
      exact regrow_rehoused h hsized hmore hpos hcourteous hwanted

theorem reserveAdditional_rehoused (additional : Nat) :
    vec.Rehoused element regions others (vec.length + additional)
      (vec.reserveAdditional element additional store) := by
  unfold reserveAdditional
  cases hcapacity : Word.add? vec.length additional with
  | none => exact h
  | some capacity =>
    obtain ⟨hword, rfl⟩ := Word.fit?_eq_some_iff.1 hcapacity
    exact reserve_rehoused h hcourteous hword

theorem growForOne_rehoused :
    vec.Rehoused element regions others vec.nextCapacity (vec.growForOne element store) := by
  unfold growForOne nextCapacity
  split
  · exact rehoused_unchanged h (Nat.le_refl _)
  split
  · exact reserve_rehoused h hcourteous (by decide)
  · cases hcapacity : Word.mul? vec.capacity 2 with
    | none => exact h
    | some capacity =>
      obtain ⟨hword, rfl⟩ := Word.fit?_eq_some_iff.1 hcapacity
      exact reserve_rehoused h hcourteous hword

end Growth

theorem Rehoused.resides {count : Nat} {run : Except ErrorKind (Vec α) × Store}
    (h : vec.Rehoused element regions others count run) :
    (vec.after run.1).Resides element regions others run.2.memory := by
  obtain ⟨answer, after⟩ := run
  cases answer with
  | error kind => exact h
  | ok grown => exact h.1

end Vec

/-! ## Calls -/

/-- The vector, if there is one, resides in the memory, beside blocks of others. -/
def VecRun.Resides (element : Element α) (regions : List Span) (others : Multiset Holding) :
    Option (Vec α) → Memory → Prop
  | none, memory => memory.InUse regions others
  | some vec, memory => vec.Resides element regions others memory

namespace VecCall

theorem attempting_resides {attempt : Attempt (Vec α)}
    (hafter : (vec.after (attempt store).1).Resides element regions others
      (attempt store).2.memory) :
    VecRun.Resides element regions others (attempting vec attempt store).1.2
      (attempting vec attempt store).2.memory := by
  rw [attempting_apply]
  generalize attempt store = run at hafter ⊢
  obtain ⟨answer, middle⟩ := run
  cases answer with
  | error kind => exact hafter
  | ok next => exact hafter

section Calls

variable (h : vec.Resides element regions others store.memory)
  (hcourteous : Courteous element builder)

include h hcourteous

theorem push_resides (value : α) :
    (vec.after (vec.push element value store).1).Resides element regions others
      (vec.push element value store).2.memory := by
  have hroom := Vec.length_lt_nextCapacity h.roomy
  have hgrown := Vec.growForOne_rehoused h hcourteous
  rw [push_apply]
  generalize vec.growForOne element store = run at hgrown ⊢
  obtain ⟨answer, middle⟩ := run
  cases answer with
  | error kind =>
    exact hgrown.after fun held => hcourteous _ _ (.destroy value middle) regions held
  | ok grown =>
    obtain ⟨hthere, hlength, hcapacity⟩ := hgrown
    have hmore : grown.length + 1 ≤ grown.capacity := by omega
    exact hthere.congr rfl rfl hmore

theorem insert_resides (index : Nat) (value : α) :
    (vec.after (vec.insert element index value store).1).Resides element regions others
      (vec.insert element index value store).2.memory := by
  have hroom := Vec.length_lt_nextCapacity h.roomy
  have hgrown := Vec.growForOne_rehoused h hcourteous
  rw [insert_apply]
  split
  · exact h.after fun held => hcourteous _ _ (.destroy value store) regions held
  generalize vec.growForOne element store = run at hgrown ⊢
  obtain ⟨answer, middle⟩ := run
  cases answer with
  | error kind =>
    exact hgrown.after fun held => hcourteous _ _ (.destroy value middle) regions held
  | ok grown =>
    obtain ⟨hthere, hlength, hcapacity⟩ := hgrown
    have hmore : grown.length + 1 ≤ grown.capacity := by omega
    have hgap := openGap_asides element builder grown index middle
    exact (hthere.after fun held => hgap.inUse hcourteous).congr rfl rfl hmore

theorem emplace_resides (args : β) :
    (vec.emplace element builder args store).1.2.Resides element regions others
      (vec.emplace element builder args store).2.memory := by
  have hroom := Vec.length_lt_nextCapacity h.roomy
  have hgrown := Vec.growForOne_rehoused h hcourteous
  unfold Vec.emplace
  simp only [ExceptT.run, Effect.bind_apply]
  generalize vec.growForOne element store = run at hgrown ⊢
  obtain ⟨answer, middle⟩ := run
  cases answer with
  | error kind => exact hgrown
  | ok grown =>
    obtain ⟨hthere, hlength, hcapacity⟩ := hgrown
    have hmore : grown.length + 1 ≤ grown.capacity := by omega
    have hbuilt := hthere.after fun held =>
      hcourteous _ _ (.construct (.slot grown.buffer grown.length) args middle) regions held
    dsimp only
    rw [Effect.bind_apply]
    generalize builder.constructAt _ args middle = run at hbuilt ⊢
    obtain ⟨answer, after⟩ := run
    cases answer with
    | error kind => exact hbuilt
    | ok value => exact hbuilt.congr rfl rfl hmore

theorem remove_resides (index : Nat) :
    VecRun.Resides element regions others
      (match (vec.remove element index).run store with
        | (.error _, _) => some vec
        | (.ok removed, _) => some removed.2)
      ((vec.remove element index).run store).2.memory := by
  by_cases hinside : index < vec.length
  · rw [Vec.remove, if_pos hinside]
    cases vec.slots.read index with
    | none => exact h
    | some value =>
      have hroom := h.roomy.length_le
      have hshorter : vec.length - 1 ≤ vec.capacity := by omega
      have hgap := closeGap_asides element builder vec index store
      exact (h.after fun held => hgap.inUse hcourteous).congr rfl rfl hshorter
  · rw [Vec.remove, if_neg hinside]
    exact h

omit hcourteous in
theorem pop_resides {popped : α × Vec α} (hpop : vec.pop = some popped) :
    popped.2.Resides element regions others store.memory := by
  unfold Vec.pop at hpop
  split at hpop
  · cases hpop
  · obtain ⟨value, -, rfl⟩ := Option.map_eq_some_iff.1 hpop
    have hroom := h.roomy.length_le
    have hshorter : vec.length - 1 ≤ vec.capacity := by omega
    exact h.congr rfl rfl hshorter

theorem clear_resides :
    (vec.clear element store).1.Resides element regions others
      (vec.clear element store).2.memory := by
  have hasides := destroyAll_asides element builder vec.toList store
  have hcleared : Vec.Resides element regions others { vec with length := 0, slots := #[] }
      (element.destroyAll vec.toList store).2.memory :=
    (h.after fun held => hasides.inUse hcourteous).congr rfl rfl (Nat.zero_le _)
  unfold Vec.clear
  simp only [Effect.bind_apply]
  cases vec.bufferLayout? element with
  | none => exact hcleared
  | some layout =>
    dsimp only
    split
    · exact hcleared.after fun held hheld => hheld.advised _ _ _
    · exact hcleared

theorem drop_resides : (vec.drop element store).2.memory.InUse regions others := by
  have hasides := destroyAll_asides element builder vec.toList store
  have hthere := h.after fun held => hasides.inUse hcourteous
  unfold Vec.drop
  simp only [Effect.bind_apply]
  cases hlayout : vec.bufferLayout? element with
  | none => exact hthere.leave
  | some layout =>
    unfold Vec.bufferLayout? at hlayout
    split at hlayout
    · cases hlayout
    obtain ⟨-, rfl⟩ := Vec.array?_layout hlayout
    obtain ⟨holding, haddress, hnamed, hfits, hheld⟩ := hthere.block (by omega) (by omega)
    have hfreed := hheld.returned hfits
    rw [haddress, hnamed] at hfreed
    exact hfreed

theorem act_resides (call : VecCall α β) (hword : call.InWord) :
    VecRun.Resides element regions others (call.act element builder vec store).1.2
      (call.act element builder vec store).2.memory := by
  cases call with
  | create capacity? => exact h
  | reserve capacity =>
    exact attempting_resides (Vec.reserve_rehoused h hcourteous hword).resides
  | reserveAdditional additional =>
    exact attempting_resides (Vec.reserveAdditional_rehoused h hcourteous additional).resides
  | push value => exact attempting_resides (push_resides h hcourteous value)
  | insert index value => exact attempting_resides (insert_resides h hcourteous index value)
  | emplace args =>
    have hemplaced := emplace_resides h hcourteous args
    simp only [act, Effect.bind_apply]
    generalize vec.emplace element builder args store = run at hemplaced ⊢
    obtain ⟨⟨answer, next⟩, middle⟩ := run
    cases answer with
    | error kind => exact hemplaced
    | ok done => exact hemplaced
  | remove index =>
    have hremoved := remove_resides h hcourteous index
    simp only [act, Effect.bind_apply]
    generalize (vec.remove element index).run store = run at hremoved ⊢
    obtain ⟨answer, middle⟩ := run
    cases answer with
    | error kind => exact hremoved
    | ok removed => exact hremoved
  | pop =>
    simp only [act]
    cases hpop : vec.pop with
    | none => exact h
    | some popped => exact pop_resides h hpop
  | tryPop =>
    simp only [act, Vec.tryPop]
    cases hpop : vec.pop with
    | none => exact h
    | some popped => exact pop_resides h hpop
  | tryGet index =>
    simp only [act]
    cases vec.tryGet index with
    | error kind => exact h
    | ok value => exact h
  | indexed index =>
    simp only [act]
    cases vec.indexed index with
    | error trap => exact h
    | ok value => exact h
  | clear => exact clear_resides h hcourteous
  | drop => exact drop_resides h hcourteous

end Calls

end VecCall

theorem Vec.empty_resides (hvalid : element.layout.Valid) {memory : Memory}
    (hheld : memory.InUse regions others) :
    (Vec.empty element).Resides element regions others memory where
  roomy := Vec.empty_roomy element
  word _ := Nat.lt_of_le_of_lt hvalid.align_le (by decide)
  inUse := by
    have hnone : element.layout.size = 0 ∨ (Vec.empty element).capacity = 0 := by
      by_cases hzero : element.layout.size = 0
      · exact Or.inl hzero
      · exact Or.inr (if_neg hzero)
    exact ⟨0, .nothing hnone, by rwa [zero_add]⟩

section Steps

variable (hvalid : element.layout.Valid) (hcourteous : Courteous element builder)

include hvalid hcourteous

/-- A call on a vector, or on none, leaves it where it is at home. -/
theorem VecCall.step_resides {vec? : Option (Vec α)}
    (h : VecRun.Resides element regions others vec? store.memory) {call : VecCall α β}
    (hword : call.InWord) :
    VecRun.Resides element regions others (call.step element builder vec? store).1
      (call.step element builder vec? store).2.memory := by
  cases vec? with
  | some vec => exact act_resides h hcourteous call hword
  | none =>
    cases call with
    | create capacity? =>
      have hempty := Vec.empty_resides hvalid h
      cases capacity? with
      | none => exact hempty
      | some capacity =>
        have hreserved := Vec.reserve_rehoused hempty hcourteous hword
        unfold VecCall.step VecHistory.perform VecHistory.created
        simp only [ExceptT.run, Effect.bind_apply]
        generalize (Vec.empty element).reserve element capacity store = run at hreserved ⊢
        obtain ⟨answer, middle⟩ := run
        cases answer with
        | error kind => exact hreserved.leave
        | ok vec => exact hreserved.1
    | reserve | reserveAdditional | push | emplace | insert | remove | pop | tryPop | tryGet
    | indexed | clear | drop => exact h

end Steps

/-! ## Runs -/

namespace VecRun

/-- A vector and its allocator come about by calls, and by what others do meanwhile with blocks
of theirs.  They take away no block but of their own. -/
inductive Reached (element : Element α) (builder : Builder β α) :
    List Span → Multiset Holding → Option (Vec α) → Store → Prop
  | start {regions : List Span} {others : Multiset Holding} {store : Store}
    (hheld : store.memory.InUse regions others) : Reached element builder regions others none store
  | call {regions : List Span} {others : Multiset Holding} {vec? : Option (Vec α)} {store : Store}
    (h : Reached element builder regions others vec? store) (call : VecCall α β)
    (hword : call.InWord) :
    Reached element builder regions others (call.step element builder vec? store).1
      (call.step element builder vec? store).2
  | meanwhile {regions regions' : List Span} {others others' : Multiset Holding}
    {vec? : Option (Vec α)} {store store' : Store}
    (h : Reached element builder regions others vec? store)
    (hspared : ∀ own, store.memory.InUse regions (own + others) →
      store'.memory.InUse regions' (own + others')) :
    Reached element builder regions' others' vec? store'

variable {vec? : Option (Vec α)}

theorem Reached.resides (hvalid : element.layout.Valid) (hcourteous : Courteous element builder)
    (h : Reached element builder regions others vec? store) :
    Resides element regions others vec? store.memory := by
  induction h with
  | start hheld => exact hheld
  | call _ call hword ih => exact call.step_resides hvalid hcourteous ih hword
  | @meanwhile _ _ _ _ vec? _ _ _ hspared ih =>
    cases vec? with
    | none =>
      have hheld := hspared 0 (by rwa [zero_add])
      rwa [zero_add] at hheld
    | some vec =>
      obtain ⟨own, hown, hheld⟩ := ih.inUse
      exact ⟨ih.roomy, ih.word, own, hown, hspared own hheld⟩

end VecRun

/-! ## Words -/

theorem AllocatorState.Reachable.solid {state : AllocatorState} (h : state.Reachable)
    (hbelow : state.memory.backend.Below state.regions) : state.Solid := by
  obtain ⟨memory, occurrences, hunused, hpermitted, rfl⟩ := h
  exact solid_live hunused hpermitted hbelow

/-- Below the limit of a word, a vector has what its computations rely on. -/
theorem Vec.Resides.sound {memory : Memory} (h : vec.Resides element regions others memory)
    (hbelow : memory.backend.Below regions) (hvalid : element.layout.Valid) :
    vec.Sound element regions memory := by
  obtain ⟨own, hown, state, hreachable, rfl, rfl, hheld⟩ := h.inUse
  have hsolid := hreachable.solid hbelow
  cases hown with
  | nothing hnone =>
    exact ⟨hsolid.backend, hvalid, h.roomy, h.word hnone, fun hsized hpos => by omega⟩
  | @block holding hsized hpos haddress halign hfits =>
    have hown : holding ∈ state.held :=
      Multiset.mem_of_le hheld (Multiset.mem_add.2 (Or.inl (Multiset.mem_singleton_self holding)))
    have hkept := hsolid.kept holding hown
    have hroom := Nat.mul_pos (Nat.pos_of_ne_zero hsized) hpos
    have hstop := Memory.stop_lt_of_kept hsolid.backend hkept (Nat.lt_of_lt_of_le hroom hfits.2)
    refine ⟨hsolid.backend, hvalid, h.roomy, ?_, fun _ _ => ⟨holding, hkept, haddress, halign,
      hfits⟩⟩
    omega

end Freehold
