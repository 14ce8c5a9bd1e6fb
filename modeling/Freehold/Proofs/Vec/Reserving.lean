import Freehold.Proofs.Memory.Refusals
import Freehold.Proofs.Vec.ListRefinement
import Freehold.Proofs.Vec.Dealings

/-!
# Reserving room

A vector that is asked for more room gets it or stays as it is, and the memory with it.  What
is left of a failure is a count of requests and a record that tells of refusals.  A size that
is too large is noticed before the allocator is asked, and no allocator finds fault with the
size of a valid layout, so the two causes of a failure are told apart by its kind.
-/

namespace Freehold

namespace Vec

variable {α κ : Type} {element : Element α} {vec : Vec α}

theorem resize_declined {held wanted : Layout} (hheld : held.Valid) (hwanted : wanted.Valid)
    (halign : wanted.align = held.align) (store : Store) :
    Declined store (vec.resize element held wanted store) := by
  refine .bind (Allocator.reallocate_declined hheld vec.buffer ?_ store) ?_
  · rw [← halign]
    exact hwanted
  · exact fun block middle => ⟨_, _, rfl⟩

theorem move_declined {wanted : Layout} (hwanted : wanted.Valid) (held : Layout)
    (store : Store) : Declined store (vec.move element held wanted store) :=
  .bind (Allocator.allocate_declined hwanted store) fun _ _ => ⟨_, _, rfl⟩

/-- Growth in place may be refused for any cause: then the growth that follows decides. -/
theorem regrow_declined {held wanted : Layout} (hheld : held.Valid) (hwanted : wanted.Valid)
    (halign : wanted.align = held.align) (store : Store) :
    Declined store (vec.regrow element held wanted store) := by
  unfold regrow
  rw [Attempt.bind_apply, Attempt.lift_apply]
  cases hrun : Allocator.expand vec.buffer held wanted.size store with
  | mk answer middle =>
    have hrun' : (Allocator.expand vec.buffer held wanted.size).run store = (answer, middle) :=
      hrun
    rw [hrun']
    cases answer with
    | ok size => trivial
    | error kind =>
      refine .after (Allocator.expand_spared hrun) ?_
      cases hbitwise : element.bitwise with
      | true => exact resize_declined hheld hwanted halign middle
      | false => exact move_declined hwanted held middle

/-- What comes of a request for room for some elements. -/
inductive Reserving (element : Element α) (view : α → κ) (vec : Vec α) (wanted : Nat)
    (store : Store) : Except ErrorKind (Vec α) × Store → Prop
  | enough (hle : wanted ≤ vec.capacity) : Reserving element view vec wanted store (.ok vec, store)
  | overflow (hmore : vec.capacity < wanted) (hlarge : element.layout.array? wanted = none) :
    Reserving element view vec wanted store (.error .integerOverflow, store)
  | grown {grown : Vec α} {after : Store} (hmore : vec.capacity < wanted)
    (hfits : element.layout.array? wanted ≠ none)
    (hgrows : Grows element view vec wanted (.ok grown)) :
    Reserving element view vec wanted store (.ok grown, after)
  | refused {kind : ErrorKind} {after : Store} (hmore : vec.capacity < wanted)
    (hfits : element.layout.array? wanted ≠ none) (hkind : kind ≠ .integerOverflow)
    (hspared : store.Spared after) : Reserving element view vec wanted store (.error kind, after)

theorem reserve_reserving {view : α → κ} (hfaithful : Faithful element view)
    (hroomy : vec.Roomy element) {wanted : Nat} (hword : wanted < Word.limit) (store : Store) :
    Reserving element view vec wanted store (vec.reserve element wanted store) := by
  have hgrows := reserve_grows hfaithful hroomy (fun _ => hword) store
  by_cases hle : wanted ≤ vec.capacity
  · rw [reserve, if_pos hle]
    exact .enough hle
  have hmore := Nat.lt_of_not_le hle
  cases hlayout : element.layout.array? wanted with
  | none =>
    rw [reserve, if_neg hle, hlayout]
    exact .overflow hmore hlayout
  | some layout =>
    have hdeclined : Declined store (vec.reserve element wanted store) := by
      obtain ⟨hwanted, rfl⟩ := Layout.of?_eq_some_iff.1 hlayout
      rw [reserve, if_neg hle, hlayout]
      dsimp only
      cases hheld : vec.bufferLayout? element with
      | none => exact .bind (Allocator.allocate_declined hwanted store) fun _ _ => ⟨_, _, rfl⟩
      | some held =>
        unfold bufferLayout? at hheld
        split at hheld
        · cases hheld
        · obtain ⟨hvalid, rfl⟩ := Layout.of?_eq_some_iff.1 hheld
          exact regrow_declined hvalid hwanted rfl store
    have hfits : element.layout.array? wanted ≠ none := by simp [hlayout]
    generalize vec.reserve element wanted store = run at hgrows hdeclined ⊢
    obtain ⟨answer, after⟩ := run
    cases answer with
    | ok grown => exact .grown hmore hfits hgrows
    | error kind => exact .refused hmore hfits hdeclined.1 hdeclined.2

theorem growForOne_spared {view : α → κ} (hfaithful : Faithful element view)
    (hroomy : vec.Roomy element) {store after : Store} {kind : ErrorKind}
    (h : vec.growForOne element store = (.error kind, after)) : store.Spared after := by
  have hreserving : ∀ {wanted : Nat}, wanted < Word.limit →
      vec.reserve element wanted store = (.error kind, after) → store.Spared after := by
    intro wanted hword hrun
    have hreserve := reserve_reserving hfaithful hroomy hword store
    rw [hrun] at hreserve
    cases hreserve with
    | overflow => exact .refl store
    | refused hmore hfits hkind hspared => exact hspared
  unfold growForOne at h
  split at h
  · cases h
  split at h
  · exact hreserving (by decide) h
  cases hcapacity : Word.mul? vec.capacity 2 with
  | none =>
    rw [hcapacity] at h
    cases h
    exact .refl store
  | some capacity =>
    rw [hcapacity] at h
    obtain ⟨hword, rfl⟩ := Word.fit?_eq_some_iff.1 hcapacity
    exact hreserving hword h

end Vec

/-! ## Counts that have a layout -/

section Fitting

variable {α : Type} {element : Element α} {vec : Vec α} (hvalid : element.layout.Valid)

include hvalid

theorem Layout.array?_ne_none_of_size_eq_zero {count : Nat}
    (hzero : element.layout.size * count = 0) : element.layout.array? count ≠ none := by
  have halign := hvalid.align_le
  have hsome := Layout.of?_eq_some_iff.2
    ⟨(⟨hvalid.1, by simpa using halign⟩ : Layout.Valid ⟨0, element.layout.align⟩), rfl⟩
  unfold Layout.array?
  rw [hzero, hsome]
  exact Option.some_ne_none _

/-- There is a layout for as many elements as a vector has room for. -/
theorem Vec.Low.array?_ne_none (hlow : vec.Low element) {granule : Nat} {held : List Holding}
    (h : Backed element granule (some vec) held) {count : Nat} (hle : count ≤ vec.capacity) :
    element.layout.array? count ≠ none := by
  cases h with
  | sizeless hzero hall =>
    refine Layout.array?_ne_none_of_size_eq_zero hvalid ?_
    rw [hzero, Nat.zero_mul]
  | fresh hsized hnone =>
    obtain rfl : count = 0 := by omega
    exact Layout.array?_ne_none_of_size_eq_zero hvalid (Nat.mul_zero _)
  | block hsized hpos hbacks =>
    have hheld := hbacks.bufferLayout?_eq hsized hpos hlow
    rw [Vec.bufferLayout?, if_neg (by omega)] at hheld
    exact Layout.array?_ne_none_of_le hle (by simp [hheld])

end Fitting

/-! ## Asking for room -/

namespace Vec

variable {α β κ : Type} {element : Element α} {view : α → κ} {vec : Vec α}

/-- There is no layout for so many elements, or their count is no word. -/
def TooMany (element : Element α) (wanted? : Option Nat) : Prop :=
  ∀ wanted, wanted? = some wanted → element.layout.array? wanted = none

/-- What becomes of a vector and of the store if it is asked for room for some elements. -/
structure Reserves (element : Element α) (view : α → κ) (vec : Vec α) (wanted? : Option Nat)
    (store : Store) (outcome : (Reply α × Option (Vec α)) × Store) : Prop where
  /-- The vector gets the room and shows what it showed, or it stays and the memory does. -/
  settled :
    (∃ wanted grown, wanted? = some wanted ∧ outcome.1 = (.done, some grown) ∧
      wanted ≤ grown.capacity ∧ grown.Roomy element ∧
      ∀ items, vec.Shows view items → grown.Shows view items) ∨
    ∃ kind, outcome.1 = (.failed kind, some vec) ∧ store.Spared outcome.2
  /-- The allocator is not asked for room that is there. -/
  enough : ∀ wanted, wanted? = some wanted → wanted ≤ vec.capacity →
    outcome = ((.done, some vec), store)
  /-- A size is to blame just if more room is asked for than any block could give, and that is
  noticed before the allocator is asked. -/
  overflow_iff : outcome.1.1 = .failed .integerOverflow ↔
    TooMany element wanted? ∧ ∀ wanted, wanted? = some wanted → vec.capacity < wanted
  beforehand : outcome.1.1 = .failed .integerOverflow →
    outcome = ((.failed .integerOverflow, some vec), store)
  /-- A vector whose buffer lies low has not got room for too many elements itself. -/
  exactly : ∀ held, Backed element store.memory.backend.granule (some vec) held →
    vec.Low element → (outcome.1.1 = .failed .integerOverflow ↔ TooMany element wanted?)

theorem attempting_failed_iff (vec : Vec α) (attempt : Attempt (Vec α)) (store : Store)
    (kind : ErrorKind) :
    (VecCall.attempting vec attempt store).1.1 = .failed kind ↔
      (attempt store).1 = .error kind := by
  rw [VecCall.attempting_apply]
  rcases attempt store with ⟨answer, middle⟩
  cases answer with
  | error other => simp
  | ok next => simp

namespace Reserving

variable {wanted : Nat} {store : Store} {run : Except ErrorKind (Vec α) × Store}
  (h : Reserving element view vec wanted store run)

include h

theorem overflow_iff : run.1 = .error .integerOverflow ↔
    element.layout.array? wanted = none ∧ vec.capacity < wanted := by
  cases h with
  | enough hle =>
    have hless := Nat.not_lt_of_le hle
    simp [hless]
  | overflow hmore hlarge => simp [hmore, hlarge]
  | grown hmore hfits hgrows => simp [hfits]
  | refused hmore hfits hkind hspared => simp [hfits, hkind]

theorem beforehand (hrun : run.1 = .error .integerOverflow) :
    run = (.error .integerOverflow, store) := by
  cases h with
  | enough | grown => cases hrun
  | overflow => rfl
  | refused hmore hfits hkind hspared => exact absurd (Except.error.inj hrun) hkind

end Reserving

theorem Reserves.of_reserving (hvalid : element.layout.Valid) (hroomy : vec.Roomy element)
    {wanted : Nat} {store : Store} {attempt : Attempt (Vec α)}
    (h : Reserving element view vec wanted store (attempt store)) :
    vec.Reserves element view (some wanted) store
      (VecCall.attempting vec attempt store : (Reply α × _) × _) := by
  have hoverflow := h.overflow_iff
  have hbeforehand := h.beforehand
  constructor
  · rw [VecCall.attempting_apply]
    generalize attempt store = run at h ⊢
    cases h with
    | enough hle => exact .inl ⟨wanted, vec, rfl, rfl, hle, hroomy, fun _ hshows => hshows⟩
    | grown hmore hfits hgrows =>
      exact .inl ⟨wanted, _, rfl, rfl, hgrows.2.2.2, hgrows.2.1, hgrows.1⟩
    | overflow => exact .inr ⟨_, rfl, .refl store⟩
    | refused hmore hfits hkind hspared => exact .inr ⟨_, rfl, hspared⟩
  · rintro _ ⟨⟩ hle
    rw [VecCall.attempting_apply]
    generalize attempt store = run at h ⊢
    cases h with
    | enough => rfl
    | overflow hmore | grown hmore | refused hmore => exact absurd hle (Nat.not_le_of_lt hmore)
  · rw [attempting_failed_iff, hoverflow]
    simp [TooMany]
  · intro hfailed
    have hrun := hbeforehand ((attempting_failed_iff vec attempt store _).1 hfailed)
    rw [VecCall.attempting_apply, hrun]
  · intro held hbacked hlow
    rw [attempting_failed_iff, hoverflow]
    constructor
    · rintro ⟨hnone, -⟩ _ ⟨⟩
      exact hnone
    · intro htoo
      have hnone := htoo wanted rfl
      refine ⟨hnone, Nat.lt_of_not_le fun hle => ?_⟩
      exact hlow.array?_ne_none hvalid hbacked hle hnone

theorem Reserves.of_overflow (store : Store) :
    vec.Reserves element view none store
      (VecCall.attempting vec (throw .integerOverflow) store : (Reply α × _) × _) where
  settled := .inr ⟨.integerOverflow, rfl, .refl store⟩
  enough := by rintro _ ⟨⟩
  overflow_iff := ⟨fun _ => ⟨by rintro _ ⟨⟩, by rintro _ ⟨⟩⟩, fun _ => rfl⟩
  beforehand := fun _ => rfl
  exactly := fun _ _ _ => ⟨fun _ => by rintro _ ⟨⟩, fun _ => rfl⟩

theorem emplace_of_error {builder : Builder β α} {store after : Store} {kind : ErrorKind}
    (h : vec.growForOne element store = (.error kind, after)) (args : β) :
    vec.emplace element builder args store = ((.error kind, vec), after) := by
  unfold emplace
  rw [Effect.bind_apply, ExceptT.run, h]
  rfl

/-- A vector that is asked for room gets it or stays as it is, and the allocator with it.  The
vector is roomy in every state of a run. -/
theorem reserving_atomic (element : Element α) (builder : Builder β α) (view : α → κ)
    (hvalid : element.layout.Valid) (hfaithful : Faithful element view) (vec : Vec α)
    (hroomy : vec.Roomy element) (store : Store) :
    (∀ capacity, capacity < Word.limit →
      vec.Reserves element view (some capacity) store
        ((VecCall.reserve capacity).act element builder vec store)) ∧
    (∀ additional,
      vec.Reserves element view (Word.add? vec.length additional) store
        ((VecCall.reserveAdditional additional).act element builder vec store)) ∧
    ∀ kind after, vec.growForOne element store = (.error kind, after) →
      store.Spared after ∧
      (∀ value, (VecCall.push value).act element builder vec store =
        ((.failed kind, some vec), (element.destroy value after).2)) ∧
      (∀ index value, index ≤ vec.length →
        (VecCall.insert index value).act element builder vec store =
          ((.failed kind, some vec), (element.destroy value after).2)) ∧
      ∀ args, (VecCall.emplace args).act element builder vec store =
        ((.failed kind, some vec), after) := by
  refine ⟨fun capacity hword => ?_, fun additional => ?_, fun kind after hfails => ?_⟩
  · exact .of_reserving hvalid hroomy (reserve_reserving hfaithful hroomy hword store)
  · simp only [VecCall.act, reserveAdditional]
    cases hcapacity : Word.add? vec.length additional with
    | none => exact .of_overflow store
    | some capacity =>
      obtain ⟨hword, rfl⟩ := Word.fit?_eq_some_iff.1 hcapacity
      exact .of_reserving hvalid hroomy (reserve_reserving hfaithful hroomy hword store)
  · refine ⟨growForOne_spared hfaithful hroomy hfails, fun value => ?_, fun index value hle => ?_,
      fun args => ?_⟩
    · rw [VecCall.act, VecCall.attempting_apply, VecCall.push_apply, hfails]
    · rw [VecCall.act, VecCall.attempting_apply, VecCall.insert_apply,
        if_neg (Nat.not_lt_of_le hle), hfails]
    · rw [VecCall.act, Effect.bind_apply, emplace_of_error hfails]
      rfl

/-- A full vector of elements that depend on their place. -/
def fullHouse : Vec Piece where
  buffer := 4096
  capacity := 4
  length := 4
  slots := .ofList ((List.range 4).map fun n : Nat =>
    { datum := .number n, serial := some n, anchor := some (.slot 4096 n) })

/-- The memory behind the buffer is in use, and nowhere else is there enough for a larger one. -/
def fullHouseStore : Store where
  memory := { backend := .freeList { spans := [⟨4208, 160⟩], freeBytes := 160 } }
  threshold := .trace

theorem reserving_atomic_fullHouse :
    Catalogue.anchored.element.layout.Valid ∧
      Faithful Catalogue.anchored.element VecHistory.pieceView ∧
      fullHouse.Roomy Catalogue.anchored.element ∧
      Backed Catalogue.anchored.element FreeList.granule (some fullHouse) [⟨4096, 8, 96, 96⟩] ∧
      fullHouse.Reserves Catalogue.anchored.element VecHistory.pieceView (some 5) fullHouseStore
        ((VecCall.reserve 5).act Catalogue.anchored.element Catalogue.anchored.builder fullHouse
          fullHouseStore) ∧
      ∃ after, fullHouse.growForOne Catalogue.anchored.element fullHouseStore =
          (.error .allocationFailed, after) ∧
        fullHouseStore.Spared after ∧ after.trace.length = 3 := by
  have hvalid : Catalogue.anchored.element.layout.Valid := by decide
  have hfaithful := VecHistory.leaf_faithful Catalogue.anchored
  have hroomy : fullHouse.Roomy Catalogue.anchored.element :=
    ⟨by decide, fun hzero => absurd hzero (by decide)⟩
  have hbacked : Backed Catalogue.anchored.element FreeList.granule (some fullHouse)
      [⟨4096, 8, 96, 96⟩] := by
    refine .block (by decide) (by decide) ⟨rfl, rfl, ?_, ?_, ?_, ?_, ?_, ?_⟩
    · exact hvalid.1
    all_goals decide
  obtain ⟨hreserve, -, hgrow⟩ := reserving_atomic Catalogue.anchored.element
    Catalogue.anchored.builder VecHistory.pieceView hvalid hfaithful fullHouse hroomy fullHouseStore
  have hfails : fullHouse.growForOne Catalogue.anchored.element fullHouseStore =
      (.error .allocationFailed,
        (fullHouse.growForOne Catalogue.anchored.element fullHouseStore).2) := rfl
  exact ⟨hvalid, hfaithful, hroomy, hbacked, hreserve 5 (by decide), _, hfails,
    (hgrow _ _ hfails).1, rfl⟩

end Vec
end Freehold
