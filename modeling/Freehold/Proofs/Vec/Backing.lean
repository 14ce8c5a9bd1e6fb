import Freehold.Proofs.Vec.ListRefinement
import Freehold.Proofs.Vec.Dealings

/-!
# What backs a vector

Every call on a vector that is backed deals properly with the allocator and leaves the
vector backed.  Growth is the only place where a block comes or goes before the vector is
dropped, so the calls are made of growth, of steps aside, and of the two deals of clearing
and dropping.
-/

namespace Freehold

variable {α β : Type}

/-- Proper dealings that leave the vector backed.  There are none but for the given
reason. -/
def StaysBacked (element : Element α) (builder : Builder β α) (granule : Nat)
    (held : List Holding) (store : Store) (reason : Prop)
    (answer : Option (Vec α) × Store) : Prop :=
  ∃ deals held', Dealings element builder held store deals held' answer.2 ∧
    Backed element granule answer.1 held' ∧ (¬ reason → deals = [])

/-- The vector after an attempt to change it. -/
def Vec.after (vec : Vec α) : Except ErrorKind (Vec α) → Vec α
  | .ok next => next
  | .error _ => vec

variable {element : Element α} {builder : Builder β α} {granule : Nat} {vec : Vec α}
  {holding : Holding} {held : List Holding} {store : Store} {reason : Prop}

namespace StaysBacked

theorem refl {vec? : Option (Vec α)} (h : Backed element granule vec? held) (store : Store) :
    StaysBacked element builder granule held store reason (vec?, store) :=
  ⟨[], held, .done held store, h, fun _ => rfl⟩

theorem andThen {vec? : Option (Vec α)} {middle store' : Store}
    (h : StaysBacked element builder granule held store reason (vec?, middle))
    (hasides : Asides element builder middle store') :
    StaysBacked element builder granule held store reason (vec?, store') := by
  obtain ⟨deals, held', hdealings, hbacked, hnone⟩ := h
  refine ⟨deals ++ [], held', hdealings.trans (hasides held'), hbacked, ?_⟩
  rwa [List.append_nil]

theorem afterAsides {answer : Option (Vec α) × Store} {middle : Store}
    (hasides : Asides element builder store middle)
    (h : StaysBacked element builder granule held middle reason answer) :
    StaysBacked element builder granule held store reason answer := by
  obtain ⟨deals, held', hdealings, hbacked, hnone⟩ := h
  exact ⟨deals, held', (hasides held).trans hdealings, hbacked, hnone⟩

theorem congr {next : Vec α} {middle : Store}
    (h : StaysBacked element builder granule held store reason (some vec, middle))
    (hbuffer : next.buffer = vec.buffer) (hcapacity : next.capacity = vec.capacity) :
    StaysBacked element builder granule held store reason (some next, middle) := by
  obtain ⟨deals, held', hdealings, hbacked, hnone⟩ := h
  exact ⟨deals, held', hdealings, hbacked.congr hbuffer hcapacity, hnone⟩

theorem weaken {other : Prop} {answer : Option (Vec α) × Store}
    (h : StaysBacked element builder granule held store reason answer) (himp : reason → other) :
    StaysBacked element builder granule held store other answer := by
  obtain ⟨deals, held', hdealings, hbacked, hnone⟩ := h
  exact ⟨deals, held', hdealings, hbacked, fun hother => hnone fun hreason => hother (himp hreason)⟩

theorem afterDeal {answer : Option (Vec α) × Store} (deal : Deal)
    (hproper : deal.Proper element store.memory.backend.granule held) (hreason : reason)
    (h : StaysBacked element builder granule (deal.make held store).1 (deal.make held store).2
      reason answer) :
    StaysBacked element builder granule held store reason answer := by
  obtain ⟨deals, held', hdealings, hbacked, -⟩ := h
  exact ⟨deal :: deals, held', .deal deal hproper hdealings, hbacked,
    fun hnot => absurd hreason hnot⟩

end StaysBacked

namespace Vec

/-! ## Growth -/

theorem array?_layout {count : Nat} {wanted : Layout}
    (h : element.layout.array? count = some wanted) :
    wanted.Valid ∧ wanted = ⟨element.layout.size * count, element.layout.align⟩ := by
  obtain ⟨hvalid, rfl⟩ := Layout.of?_eq_some_iff.1 h
  exact ⟨hvalid, rfl⟩

/-- The first block of a vector, or the one to which its elements are moved. -/
theorem backs_of_allocate {count : Nat} {wanted : Layout}
    (hwanted : element.layout.array? count = some wanted) (hsized : element.layout.size ≠ 0)
    (hcount : 0 < count) {memory memory' : Memory} {block : Block}
    (h : memory.allocate wanted = .ok (block, memory'))
    (hgranule : memory.backend.granule = granule) (hbuffer : vec.buffer = block.address)
    (hcapacity : vec.capacity = block.size / element.layout.size) :
    Backed element granule (some vec) [.of wanted block] := by
  subst hgranule
  obtain ⟨hvalid, rfl⟩ := array?_layout hwanted
  obtain ⟨hsize, halign⟩ := Memory.allocate_granted hvalid h
  have hpos : 0 < element.layout.size * count := Nat.mul_pos (Nat.pos_of_ne_zero hsized) hcount
  have hpaged := Memory.suits_of_allocate hvalid hpos h
  obtain ⟨hbacks, hle⟩ := Backs.of_units vec (.of ⟨_, _⟩ block) memory.backend.granule_pos
    hsized hbuffer.symm rfl hvalid.1 (hbuffer ▸ halign) hcapacity hsize hpaged
  exact .block hsized (Nat.lt_of_lt_of_le hcount hle) hbacks

/-- The block of a vector after it was resized. -/
theorem Backs.resized (h : vec.Backs element granule holding) (hgranule : 0 < granule)
    (hsized : element.layout.size ≠ 0) {count : Nat} (hmore : vec.capacity < count)
    {block : Block}
    (hsize : block.size = Word.roundUp (element.layout.size * count) granule)
    (haligned : element.layout.align ∣ block.address) :
    Backed element granule (some (vec.adopt element block))
      [holding.resized (element.layout.size * count) block] := by
  have hmono : holding.recorded ≤ block.size := by
    rw [← h.rounds, hsize]
    exact Word.roundUp_mono hgranule (Nat.mul_le_mul_left _ (Nat.le_of_lt hmore))
  have hrecorded : (holding.resized (element.layout.size * count) block).recorded = block.size :=
    Nat.max_eq_right hmono
  obtain ⟨hbacks, hle⟩ := Backs.of_units (vec.adopt element block)
    (holding.resized (element.layout.size * count) block) hgranule hsized rfl h.align_eq h.power
    haligned (by rw [hrecorded]; rfl) (hrecorded.trans hsize) h.paged
  exact .block hsized (Nat.lt_of_lt_of_le (Nat.zero_lt_of_lt hmore) hle) hbacks

theorem size_lt {count : Nat} (hsized : element.layout.size ≠ 0) (hmore : vec.capacity < count) :
    element.layout.size * vec.capacity < element.layout.size * count :=
  Nat.mul_lt_mul_of_pos_left hmore (Nat.pos_of_ne_zero hsized)

theorem Backs.expanded (h : vec.Backs element granule holding)
    (hsized : element.layout.size ≠ 0) {count : Nat} (hmore : vec.capacity < count)
    {memory memory' : Memory} (hgranule : memory.backend.granule = granule) {size : Nat}
    (hgrown : memory.expand vec.buffer (holding.layout (element.layout.size * vec.capacity))
      (element.layout.size * count) = .ok (size, memory')) :
    Backed element granule (some (vec.adopt element ⟨vec.buffer, size⟩))
      [holding.resized (element.layout.size * count) ⟨vec.buffer, size⟩] := by
  subst hgranule
  have hlt := size_lt hsized hmore
  rcases (Memory.expand_granted hgrown).1 with ⟨hle, -⟩ | ⟨-, hsize⟩
  · exact absurd hlt (Nat.not_lt_of_le hle)
  · exact h.resized memory.backend.granule_pos hsized hmore hsize h.aligned

theorem Backs.reallocated (h : vec.Backs element granule holding)
    (hsized : element.layout.size ≠ 0) {count : Nat} (hmore : vec.capacity < count)
    {memory memory' : Memory} (hgranule : memory.backend.granule = granule) {block : Block}
    (hgrown : memory.reallocate vec.buffer (holding.layout (element.layout.size * vec.capacity))
      (element.layout.size * count) = .ok (block, memory')) :
    Backed element granule (some (vec.adopt element block))
      [holding.resized (element.layout.size * count) block] := by
  subst hgranule
  have hlt := size_lt hsized hmore
  rcases (Memory.reallocate_granted hgrown).1 with ⟨hle, -⟩ | ⟨-, hsize, hplace⟩
  · exact absurd hlt (Nat.not_lt_of_le hle)
  · refine h.resized memory.backend.granule_pos hsized hmore hsize ?_
    rcases hplace with haddress | halign
    · rw [haddress]
      exact h.aligned
    · have hdvd : holding.align ∣ block.address := halign (by
        show _ → holding.align ∣ _
        rw [h.align_eq]
        exact h.paged)
      rwa [h.align_eq] at hdvd

theorem resize_stays (hbacks : vec.Backs element granule holding)
    (hsized : element.layout.size ≠ 0) (hpos : 0 < vec.capacity) {count : Nat}
    (hmore : vec.capacity < count) (wanted : Layout)
    (hwanted : wanted.size = element.layout.size * count)
    (hgranule : store.memory.backend.granule = granule) {answer : Except ErrorKind (Vec α) × Store}
    (hrun : vec.resize element (holding.layout (element.layout.size * vec.capacity)) wanted store =
      answer) :
    StaysBacked element builder granule [holding] store True
      (some (vec.after answer.1), answer.2) := by
  subst hrun
  have hanswered := Allocator.reallocate_answered vec.buffer
    (holding.layout (element.layout.size * vec.capacity)) wanted.size store
  refine .afterDeal
    (.reallocate holding (element.layout.size * vec.capacity) wanted.size)
    (hgranule ▸ hbacks.names (List.mem_singleton_self holding)) trivial ?_
  simp only [Deal.make, ExceptT.run, Effect.bind_apply, Effect.pure_apply, hbacks.address_eq]
  unfold resize
  rw [Attempt.bind_apply, hwanted] at *
  generalize Allocator.reallocate vec.buffer _ _ store = run at hanswered ⊢
  obtain ⟨answer, middle⟩ := run
  cases answer with
  | error kind => exact .refl (.block hsized hpos hbacks) middle
  | ok block =>
    have hbacked := hbacks.reallocated hsized hmore hgranule hanswered
    have hheld : Deal.resized [holding] holding (element.layout.size * count) (.ok block) =
        [holding.resized (element.layout.size * count) block] := by
      simp [Deal.resized]
    dsimp only
    rw [hheld]
    exact (StaysBacked.refl hbacked middle).andThen (log_asides element builder _ _ middle)

section Growth

variable (hkeeps : KeepsUnits element builder)

include hkeeps in
theorem move_stays (hbacks : vec.Backs element granule holding)
    (hsized : element.layout.size ≠ 0) (hpos : 0 < vec.capacity) {count : Nat}
    (hcount : 0 < count) (wanted : Layout)
    (hwanted : element.layout.array? count = some wanted)
    (hgranule : store.memory.backend.granule = granule) {answer : Except ErrorKind (Vec α) × Store}
    (hrun : vec.move element (holding.layout (element.layout.size * vec.capacity)) wanted store =
      answer) :
    StaysBacked element builder granule [holding] store True
      (some (vec.after answer.1), answer.2) := by
  subst hrun
  have hanswered := Allocator.allocate_answered wanted store
  refine .afterDeal (.allocate wanted) ⟨count, hwanted⟩ trivial ?_
  simp only [Deal.make, ExceptT.run, Effect.bind_apply, Effect.pure_apply]
  unfold move
  rw [Attempt.bind_apply]
  generalize Allocator.allocate wanted store = run at hanswered ⊢
  obtain ⟨answer, middle⟩ := run
  cases answer with
  | error kind => exact .refl (.block hsized hpos hbacks) middle
  | ok block =>
    have hasides := migrate_asides element builder vec.buffer block.address vec.slots vec.length
      middle
    have hkind := (hasides.granule_eq hkeeps).trans
      ((Memory.granule_allocate hanswered).trans hgranule)
    generalize hmigrate : migrate element vec.buffer block.address vec.slots vec.length middle =
      migrated at hasides hkind
    have hbacked : Backed element granule
        (some { vec.adopt element block with slots := migrated.1 }) [.of wanted block] :=
      backs_of_allocate hwanted hsized hcount hanswered hgranule rfl rfl
    have hheld : (Deal.received [holding] wanted (.ok block)).erase holding =
        [.of wanted block] := by
      by_cases hsame : Holding.of wanted block = holding
      · simp [Deal.received, hsame]
      · simp [Deal.received, hsame]
    have hdeallocated : (Deal.deallocate holding (element.layout.size * vec.capacity)).make
        (Deal.received [holding] wanted (.ok block)) migrated.2 =
        ([.of wanted block], (Allocator.deallocate vec.buffer
          (holding.layout (element.layout.size * vec.capacity)) migrated.2).2) := by
      rw [← hheld, ← hbacks.address_eq]
      rfl
    refine .afterAsides hasides (.afterDeal
      (.deallocate holding (element.layout.size * vec.capacity))
      (hkind ▸ hbacks.names (by simp [Deal.received])) trivial ?_)
    rw [hdeallocated]
    subst hmigrate
    exact (StaysBacked.refl hbacked _).andThen (log_asides element builder .trace
      (relocatedElements vec.length block.size) _)

include hkeeps in
theorem regrow_stays (hbacks : vec.Backs element granule holding)
    (hsized : element.layout.size ≠ 0) (hpos : 0 < vec.capacity) {count : Nat}
    (hmore : vec.capacity < count) (wanted : Layout)
    (hwanted : element.layout.array? count = some wanted)
    (hgranule : store.memory.backend.granule = granule) {answer : Except ErrorKind (Vec α) × Store}
    (hrun : vec.regrow element (holding.layout (element.layout.size * vec.capacity)) wanted store =
      answer) :
    StaysBacked element builder granule [holding] store True
      (some (vec.after answer.1), answer.2) := by
  have hsize : wanted.size = element.layout.size * count := by rw [(array?_layout hwanted).2]
  have hanswered := Allocator.expand_answered vec.buffer
    (holding.layout (element.layout.size * vec.capacity)) wanted.size store
  refine .afterDeal (.expand holding (element.layout.size * vec.capacity) wanted.size)
    (hgranule ▸ hbacks.names (List.mem_singleton_self holding)) trivial ?_
  simp only [Deal.make, Effect.bind_apply, Effect.pure_apply, hbacks.address_eq]
  unfold regrow at hrun
  rw [Attempt.bind_apply, Attempt.lift_apply] at hrun
  unfold ExceptT.run at hrun ⊢
  generalize Allocator.expand vec.buffer _ wanted.size store = run at hanswered hrun ⊢
  obtain ⟨grown, middle⟩ := run
  cases grown with
  | ok size =>
    subst hrun
    have hbacked := hbacks.expanded hsized hmore hgranule (hsize ▸ hanswered)
    have hheld : Deal.resized [holding] holding wanted.size
        (Except.map (Block.mk vec.buffer) (.ok size)) =
        [holding.resized (element.layout.size * count) ⟨vec.buffer, size⟩] := by
      simp [Deal.resized, Except.map, hsize]
    dsimp only
    rw [hheld]
    exact (StaysBacked.refl hbacked middle).andThen (log_asides element builder .trace
      (grewInPlace size) middle)
  | error kind =>
    have hkind : middle.memory.backend.granule = granule :=
      (congrArg (fun memory => memory.backend.granule) hanswered).trans hgranule
    cases hbitwise : element.bitwise with
    | true =>
      simp only [hbitwise, if_true] at hrun
      exact resize_stays hbacks hsized hpos hmore wanted hsize hkind hrun
    | false =>
      simp only [hbitwise, Bool.false_eq_true, if_false] at hrun
      exact move_stays hkeeps hbacks hsized hpos (Nat.zero_lt_of_lt hmore) wanted hwanted hkind hrun

include hkeeps in
/-- Making room turns to the allocator only if there is too little of it. -/
theorem reserve_stays {capacity : Nat} (hword : capacity < Word.limit)
    (hbacked : Backed element granule (some vec) held)
    (hlow : vec.Low element)
    (hgranule : store.memory.backend.granule = granule) {answer : Except ErrorKind (Vec α) × Store}
    (hrun : vec.reserve element capacity store = answer) :
    StaysBacked element builder granule held store
      (element.layout.size ≠ 0 ∧ vec.capacity < capacity)
      (some (vec.after answer.1), answer.2) := by
  unfold reserve at hrun
  split at hrun
  · subst hrun
    exact .refl hbacked store
  rename_i hmore
  have hlt := Nat.lt_of_not_le hmore
  rcases hwanted : element.layout.array? capacity with _ | wanted
  · rw [hwanted] at hrun
    subst hrun
    exact .refl hbacked store
  rw [hwanted] at hrun
  cases hbacked with
  | sizeless hzero hall =>
    unfold Word.greatest at hall
    omega
  | fresh hsized hnone =>
    have hlayout : vec.bufferLayout? element = none := by
      unfold bufferLayout?
      rw [if_pos (Or.inr hnone)]
    rw [hlayout] at hrun
    have hanswered := Allocator.allocate_answered wanted store
    refine .afterDeal (.allocate wanted) ⟨capacity, hwanted⟩ ⟨hsized, hlt⟩ ?_
    simp only [Deal.make, ExceptT.run, Effect.bind_apply, Effect.pure_apply]
    dsimp only at hrun
    rw [Attempt.bind_apply] at hrun
    generalize Allocator.allocate wanted store = run at hanswered hrun ⊢
    obtain ⟨granted, middle⟩ := run
    cases granted with
    | error kind =>
      subst hrun
      exact .refl (.fresh hsized hnone) middle
    | ok block =>
      subst hrun
      exact .refl (backs_of_allocate hwanted hsized (Nat.zero_lt_of_lt hlt) hanswered hgranule
        rfl rfl) middle
  | block hsized hpos hbacks =>
    rw [hbacks.bufferLayout?_eq hsized hpos hlow] at hrun
    exact (regrow_stays hkeeps hbacks hsized hpos hlt wanted hwanted hgranule hrun).weaken
      fun _ => ⟨hsized, hlt⟩

include hkeeps in
theorem reserveAdditional_stays {additional : Nat}
    (hbacked : Backed element granule (some vec) held)
    (hlow : vec.Low element)
    (hgranule : store.memory.backend.granule = granule) {answer : Except ErrorKind (Vec α) × Store}
    (hrun : vec.reserveAdditional element additional store = answer) :
    StaysBacked element builder granule held store
      (element.layout.size ≠ 0 ∧ vec.capacity < vec.length + additional)
      (some (vec.after answer.1), answer.2) := by
  unfold reserveAdditional at hrun
  cases hcapacity : Word.add? vec.length additional with
  | none =>
    rw [hcapacity] at hrun
    subst hrun
    exact .refl hbacked store
  | some capacity =>
    rw [hcapacity] at hrun
    obtain ⟨hword, rfl⟩ := Word.fit?_eq_some_iff.1 hcapacity
    exact reserve_stays hkeeps hword hbacked hlow hgranule hrun

include hkeeps in
theorem growForOne_stays (hbacked : Backed element granule (some vec) held)
    (hlow : vec.Low element)
    (hgranule : store.memory.backend.granule = granule) {answer : Except ErrorKind (Vec α) × Store}
    (hrun : vec.growForOne element store = answer) :
    StaysBacked element builder granule held store
      (element.layout.size ≠ 0 ∧ ¬ vec.length < vec.capacity)
      (some (vec.after answer.1), answer.2) := by
  unfold growForOne at hrun
  split at hrun
  · subst hrun
    exact .refl hbacked store
  rename_i hfull
  split at hrun
  · exact (reserve_stays hkeeps (by decide) hbacked hlow hgranule hrun).weaken
      fun hreason => ⟨hreason.1, hfull⟩
  cases hcapacity : Word.mul? vec.capacity 2 with
  | none =>
    rw [hcapacity] at hrun
    subst hrun
    exact .refl hbacked store
  | some capacity =>
    rw [hcapacity] at hrun
    obtain ⟨hword, rfl⟩ := Word.fit?_eq_some_iff.1 hcapacity
    exact (reserve_stays hkeeps hword hbacked hlow hgranule hrun).weaken
      fun hreason => ⟨hreason.1, hfull⟩

end Growth

end Vec

/-! ## Calls -/

namespace VecCall

/-- The call needs more room than there is. -/
def Asks (element : Element α) : Option (Vec α) → VecCall α β → Prop
  | none, create (some capacity) => element.layout.size ≠ 0 ∧ 0 < capacity
  | some vec, reserve capacity => element.layout.size ≠ 0 ∧ vec.capacity < capacity
  | some vec, reserveAdditional additional =>
    element.layout.size ≠ 0 ∧ vec.capacity < vec.length + additional
  | some vec, push _ | some vec, emplace _ =>
    element.layout.size ≠ 0 ∧ ¬ vec.length < vec.capacity
  | some vec, insert index _ =>
    element.layout.size ≠ 0 ∧ index ≤ vec.length ∧ ¬ vec.length < vec.capacity
  | _, _ => False

/-- The call may turn to the allocator: it asks for room, or it clears or drops a vector
that has a block. -/
def MayDeal (element : Element α) (vec? : Option (Vec α)) (call : VecCall α β) : Prop :=
  call.Asks element vec? ∨
    (call = clear ∨ call = drop) ∧
      ∃ vec, vec? = some vec ∧ element.layout.size ≠ 0 ∧ 0 < vec.capacity

variable (builder : Builder β α)

theorem attempting_stays {attempt : Attempt (Vec α)}
    (h : ∀ answer, attempt store = answer →
      StaysBacked element builder granule held store reason
        (some (vec.after answer.1), answer.2)) :
    StaysBacked element builder granule held store reason
      ((attempting vec attempt store).1.2, (attempting vec attempt store).2) := by
  rw [attempting_apply]
  generalize hrun : attempt store = run
  have hanswer := h run hrun
  obtain ⟨answer, middle⟩ := run
  cases answer with
  | error kind => exact hanswer
  | ok next => exact hanswer

theorem remove_stays (hbacked : Backed element granule (some vec) held) (index : Nat)
    (store : Store) (reason : Prop) :
    StaysBacked element builder granule held store reason
      (match (vec.remove element index).run store with
      | (.error _, after) => (some vec, after)
      | (.ok removed, after) => (some removed.2, after)) := by
  by_cases hinside : index < vec.length
  · rw [Vec.remove, if_pos hinside]
    cases vec.slots.read index with
    | none => exact .refl hbacked store
    | some value =>
      exact ((StaysBacked.refl hbacked store).andThen
        (closeGap_asides element builder vec index store)).congr rfl rfl
  · rw [Vec.remove, if_neg hinside]
    exact .refl hbacked store

theorem pop_backed (hbacked : Backed element granule (some vec) held) {popped : α × Vec α}
    (hpop : vec.pop = some popped) : Backed element granule (some popped.2) held := by
  unfold Vec.pop at hpop
  split at hpop
  · cases hpop
  · obtain ⟨value, -, rfl⟩ := Option.map_eq_some_iff.1 hpop
    exact hbacked.congr rfl rfl

section Dealing

variable (hbacked : Backed element granule (some vec) held) (hlow : vec.Low element)
  (hkeeps : KeepsUnits element builder) (hgranule : store.memory.backend.granule = granule)

include hbacked hlow hkeeps hgranule

theorem clear_stays :
    StaysBacked element builder granule held store (element.layout.size ≠ 0 ∧ 0 < vec.capacity)
      (some (vec.clear element store).1, (vec.clear element store).2) := by
  have hasides := destroyAll_asides element builder vec.toList store
  have hkind := (hasides.granule_eq hkeeps).trans hgranule
  have hkept : Backed element granule (some { vec with length := 0, slots := #[] }) held :=
    hbacked.congr rfl rfl
  refine .afterAsides hasides ?_
  unfold Vec.clear
  simp only [Effect.bind_apply]
  cases hbacked with
  | sizeless hzero hall =>
    rw [Vec.bufferLayout?, if_pos (Or.inl hzero)]
    exact .refl hkept _
  | fresh hsized hnone =>
    rw [Vec.bufferLayout?, if_pos (Or.inr hnone)]
    exact .refl hkept _
  | @block _ holding hsized hpos hbacks =>
    rw [hbacks.bufferLayout?_eq hsized hpos hlow]
    dsimp only
    split
    · refine .afterDeal (.advise holding (element.layout.size * vec.capacity) .dontNeed)
        (hkind ▸ hbacks.names (List.mem_singleton_self holding)) ⟨hsized, hpos⟩ ?_
      simp only [Deal.make, Effect.bind_apply, Effect.pure_apply, hbacks.address_eq]
      exact .refl hkept _
    · exact .refl hkept _

theorem drop_stays :
    StaysBacked element builder granule held store (element.layout.size ≠ 0 ∧ 0 < vec.capacity)
      (none, (vec.drop element store).2) := by
  have hasides := destroyAll_asides element builder vec.toList store
  have hkind := (hasides.granule_eq hkeeps).trans hgranule
  refine .afterAsides hasides ?_
  unfold Vec.drop
  simp only [Effect.bind_apply]
  cases hbacked with
  | sizeless hzero hall =>
    rw [Vec.bufferLayout?, if_pos (Or.inl hzero)]
    exact .refl .none _
  | fresh hsized hnone =>
    rw [Vec.bufferLayout?, if_pos (Or.inr hnone)]
    exact .refl .none _
  | @block _ holding hsized hpos hbacks =>
    rw [hbacks.bufferLayout?_eq hsized hpos hlow]
    refine .afterDeal (.deallocate holding (element.layout.size * vec.capacity))
      (hkind ▸ hbacks.names (List.mem_singleton_self holding)) ⟨hsized, hpos⟩ ?_
    simp only [Deal.make, Effect.bind_apply, Effect.pure_apply, hbacks.address_eq,
      List.erase_cons_head]
    exact .refl .none _

theorem push_stays (value : α) {answer : Except ErrorKind (Vec α) × Store}
    (hrun : vec.push element value store = answer) :
    StaysBacked element builder granule held store
      (element.layout.size ≠ 0 ∧ ¬ vec.length < vec.capacity)
      (some (vec.after answer.1), answer.2) := by
  subst hrun
  rw [push_apply]
  generalize hgrow : vec.growForOne element store = run
  have hgrown := Vec.growForOne_stays hkeeps hbacked hlow hgranule hgrow
  obtain ⟨grown, middle⟩ := run
  cases grown with
  | error kind => exact hgrown.andThen (.single (.destroy value middle))
  | ok grown => exact hgrown.congr rfl rfl

theorem insert_stays (index : Nat) (value : α)
    {answer : Except ErrorKind (Vec α) × Store}
    (hrun : vec.insert element index value store = answer) :
    StaysBacked element builder granule held store
      (element.layout.size ≠ 0 ∧ index ≤ vec.length ∧ ¬ vec.length < vec.capacity)
      (some (vec.after answer.1), answer.2) := by
  subst hrun
  rw [insert_apply]
  split
  · exact (StaysBacked.refl hbacked store).andThen (.single (.destroy value store))
  rename_i hinside
  generalize hgrow : vec.growForOne element store = run
  have hgrown := Vec.growForOne_stays hkeeps hbacked hlow hgranule hgrow
  refine StaysBacked.weaken ?_ fun hreason : element.layout.size ≠ 0 ∧
    ¬ vec.length < vec.capacity => ⟨hreason.1, Nat.le_of_not_lt hinside, hreason.2⟩
  obtain ⟨grown, middle⟩ := run
  cases grown with
  | error kind => exact hgrown.andThen (.single (.destroy value middle))
  | ok grown =>
    exact (hgrown.andThen (openGap_asides element builder grown index middle)).congr rfl rfl

theorem emplace_stays (args : β) :
    StaysBacked element builder granule held store
      (element.layout.size ≠ 0 ∧ ¬ vec.length < vec.capacity)
      (some (vec.emplace element builder args store).1.2,
        (vec.emplace element builder args store).2) := by
  unfold Vec.emplace
  simp only [ExceptT.run, Effect.bind_apply]
  generalize hgrow : vec.growForOne element store = run
  have hgrown := Vec.growForOne_stays hkeeps hbacked hlow hgranule hgrow
  obtain ⟨grown, middle⟩ := run
  cases grown with
  | error kind => exact hgrown
  | ok grown =>
    have hbuilt := hgrown.andThen
      (.single (.construct (.slot grown.buffer grown.length) args middle))
    dsimp only at hbuilt ⊢
    rw [Effect.bind_apply]
    generalize builder.constructAt _ args middle = run at hbuilt ⊢
    obtain ⟨answer, after⟩ := run
    cases answer with
    | error kind => exact hbuilt
    | ok value => exact hbuilt.congr rfl rfl

end Dealing

theorem act_stays (call : VecCall α β) (hword : call.InWord)
    (hbacked : Backed element granule (some vec) held)
    (hlow : vec.Low element)
    (hkeeps : KeepsUnits element builder)
    (hgranule : store.memory.backend.granule = granule) :
    StaysBacked element builder granule held store (call.MayDeal element (some vec))
      ((call.act element builder vec store).1.2, (call.act element builder vec store).2) := by
  cases call with
  | create capacity? => exact .refl hbacked store
  | reserve capacity =>
    exact attempting_stays builder fun answer hrun =>
      (Vec.reserve_stays hkeeps hword hbacked hlow hgranule hrun).weaken Or.inl
  | reserveAdditional additional =>
    exact attempting_stays builder fun answer hrun =>
      (Vec.reserveAdditional_stays hkeeps hbacked hlow hgranule hrun).weaken Or.inl
  | push value =>
    exact attempting_stays builder fun answer hrun =>
      (push_stays builder hbacked hlow hkeeps hgranule value hrun).weaken Or.inl
  | insert index value =>
    exact attempting_stays builder fun answer hrun =>
      (insert_stays builder hbacked hlow hkeeps hgranule index value hrun).weaken Or.inl
  | emplace args =>
    have hemplaced := (emplace_stays builder hbacked hlow hkeeps hgranule args).weaken
      (Or.inl : _ → (emplace args).MayDeal element (some vec))
    simp only [act, Effect.bind_apply]
    generalize vec.emplace element builder args store = run at hemplaced ⊢
    obtain ⟨⟨answer, next⟩, middle⟩ := run
    cases answer with
    | error kind => exact hemplaced
    | ok done => exact hemplaced
  | remove index =>
    have hremoved := remove_stays builder hbacked index store
      ((remove index : VecCall α β).MayDeal element (some vec))
    simp only [act, Effect.bind_apply]
    generalize (vec.remove element index).run store = run at hremoved ⊢
    obtain ⟨answer, middle⟩ := run
    cases answer with
    | error kind => exact hremoved
    | ok removed => exact hremoved
  | pop =>
    simp only [act]
    cases hpop : vec.pop with
    | none => exact .refl hbacked store
    | some popped => exact .refl (pop_backed hbacked hpop) store
  | tryPop =>
    simp only [act, Vec.tryPop]
    cases hpop : vec.pop with
    | none => exact .refl hbacked store
    | some popped => exact .refl (pop_backed hbacked hpop) store
  | tryGet index =>
    simp only [act]
    cases vec.tryGet index with
    | error kind => exact .refl hbacked store
    | ok value => exact .refl hbacked store
  | indexed index =>
    simp only [act]
    cases vec.indexed index with
    | error trap => exact .refl hbacked store
    | ok value => exact .refl hbacked store
  | clear =>
    refine (clear_stays builder hbacked hlow hkeeps hgranule).weaken fun hreason => ?_
    exact Or.inr ⟨Or.inl rfl, vec, rfl, hreason⟩
  | drop =>
    refine (drop_stays builder hbacked hlow hkeeps hgranule).weaken fun hreason => ?_
    exact Or.inr ⟨Or.inr rfl, vec, rfl, hreason⟩

theorem Asks.sized {vec? : Option (Vec α)} {call : VecCall α β}
    (h : call.Asks element vec?) : element.layout.size ≠ 0 := by
  unfold Asks at h
  split at h
  case h_7 => exact h.elim
  all_goals exact h.1

/-- A call on a vector without a block deals with the allocator only to ask for room. -/
theorem asks_of_mayDeal {vec? : Option (Vec α)} {call : VecCall α β}
    (hbacked : Backed element granule vec? []) (hdeal : call.MayDeal element vec?) :
    call.Asks element vec? := by
  rcases hdeal with hasks | ⟨-, vec, rfl, hsized, hpos⟩
  · exact hasks
  · cases hbacked with
    | sizeless hzero hall => exact absurd hzero hsized
    | fresh hsized hnone => omega

end VecCall

theorem Vec.empty_backed (element : Element α) (granule : Nat) :
    Backed element granule (some (Vec.empty element)) [] := by
  by_cases hzero : element.layout.size = 0
  · exact .sizeless hzero (by simp [Vec.empty, hzero])
  · exact .fresh hzero (by simp [Vec.empty, hzero])

/-- Nothing is held for an empty vector. -/
theorem Backed.of_empty (h : Backed element granule (some (Vec.empty element)) held) :
    Backed element granule Option.none held := by
  cases h with
  | sizeless hzero hall => exact .none
  | fresh hsized hnone => exact .none
  | block hsized hpos hbacks => simp [Vec.empty, hsized] at hpos

theorem VecHistory.created_stays (builder : Builder β α) {capacity? : Option Nat}
    (hword : (VecCall.create capacity? : VecCall α β).InWord)
    (hkeeps : KeepsUnits element builder)
    (hgranule : store.memory.backend.granule = granule) :
    StaysBacked element builder granule [] store
      ((VecCall.create capacity? : VecCall α β).MayDeal element none)
      (match VecHistory.created element capacity? store with
      | (.error _, after) => (none, after)
      | (.ok vec, after) => (some vec, after)) := by
  have hempty := Vec.empty_backed element granule
  cases capacity? with
  | none => exact .refl hempty store
  | some capacity =>
    have hlow : (Vec.empty element).Low element := by
      intro hsized hpos
      simp [Vec.empty, hsized] at hpos
    show StaysBacked element builder granule [] store _
      (match (Vec.empty element).reserve element capacity store with
      | (.error _, after) => (none, after)
      | (.ok vec, after) => (some vec, after))
    generalize hreserve : (Vec.empty element).reserve element capacity store = run
    have hreserved := (Vec.reserve_stays hkeeps hword hempty hlow hgranule hreserve)
    have hroom : element.layout.size ≠ 0 ∧ (Vec.empty element).capacity < capacity →
        (VecCall.create (some capacity) : VecCall α β).MayDeal element none := by
      rintro ⟨hsized, hlt⟩
      exact Or.inl ⟨hsized, Nat.zero_lt_of_lt hlt⟩
    obtain ⟨answer, middle⟩ := run
    cases answer with
    | error kind =>
      obtain ⟨deals, held', hdealings, hbacked, hnone⟩ := hreserved.weaken hroom
      exact ⟨deals, held', hdealings, hbacked.of_empty, hnone⟩
    | ok vec => exact hreserved.weaken hroom

/-- A call on a vector, or on none, deals properly with the allocator. -/
theorem VecHistory.perform_stays {κ : Type} (builder : Builder β α) (view : α → κ)
    (history : VecHistory α κ) {call : VecCall α β} (hword : call.InWord)
    (hkeeps : KeepsUnits element builder)
    (hbacked : Backed element granule history.vec held)
    (hlow : ∀ vec, history.vec = some vec → vec.Low element)
    (hgranule : store.memory.backend.granule = granule) :
    StaysBacked element builder granule held store (call.MayDeal element history.vec)
      ((history.perform element builder view call store).1.2.vec,
        (history.perform element builder view call store).2) := by
  unfold VecHistory.perform
  cases hvec : history.vec with
  | some vec =>
    rw [hvec] at hbacked
    exact call.act_stays builder hword hbacked (hlow vec hvec) hkeeps hgranule
  | none =>
    rw [hvec] at hbacked
    cases hbacked
    cases call with
    | create capacity? =>
      have hcreated := VecHistory.created_stays builder hword hkeeps hgranule
      simp only [ExceptT.run, Effect.bind_apply]
      generalize VecHistory.created element capacity? store = run at hcreated ⊢
      obtain ⟨answer, middle⟩ := run
      cases answer with
      | error kind =>
        show StaysBacked element builder granule [] store _ (history.vec, middle)
        rw [hvec]
        exact hcreated
      | ok vec => exact hcreated
    | reserve | reserveAdditional | push | emplace | insert | remove | pop | tryPop | tryGet
    | indexed | clear | drop =>
      show StaysBacked element builder granule [] store _ (history.vec, store)
      rw [hvec]
      exact .refl .none store

end Freehold
