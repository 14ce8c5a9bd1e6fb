import Freehold.Proofs.Attempt
import Freehold.Proofs.Memory.Contents
import Freehold.Proofs.Memory.Grants
import Freehold.Proofs.Memory.Requests

/-!
# Runs in lockstep

Two runs are compared step by step.  Their stores are parallel if the allocators keep the
same books, the plans are the same and the records differ in a few things only: in
relocations, in messages for tracing, and in whether a block was resized by one call or by
three.  Effects that are in lockstep lead from parallel stores to parallel stores with
matching answers, and so do their compositions.
-/

namespace Freehold

/-! ## Records that match -/

/-- Relocations, what they announce, and messages for tracing. -/
def Entry.isAside : Entry → Bool
  | .relocation _ _ | .event (.moved _) | .log .trace _ => true
  | _ => false

/-- The same entries, but that a resize by the allocator may stand for a new block that
takes the place of the old one.  The last entry comes first. -/
inductive Tallies : List Entry → List Entry → Prop
  | nil : Tallies [] []
  | same (entry : Entry) {first second : List Entry} (h : Tallies first second) :
    Tallies (entry :: first) (entry :: second)
  | resizeRefused (address : Nat) (held : Layout) (wanted : Nat) (kind : ErrorKind)
    {first second : List Entry} (h : Tallies first second) :
    Tallies (.call (.reallocate address held.size wanted (.error kind)) :: first)
      (.call (.allocate ⟨wanted, held.align⟩ (.error kind)) :: second)
  | resized (address : Nat) (held : Layout) (wanted : Nat) (block : Block)
    {first second : List Entry} (h : Tallies first second) :
    Tallies (.call (.reallocate address held.size wanted (.ok block)) :: first)
      (.call (.deallocate address held) ::
        .call (.allocate ⟨wanted, held.align⟩ (.ok block)) :: second)

theorem Tallies.refl (entries : List Entry) : Tallies entries entries := by
  induction entries with
  | nil => exact .nil
  | cons entry later ih => exact .same entry ih

/-- The record without asides. -/
def essentials (entries : List Entry) : List Entry := entries.filter fun entry => !entry.isAside

theorem essentials_asides {asides : List Entry} (h : ∀ entry ∈ asides, entry.isAside = true)
    (entries : List Entry) : essentials (asides ++ entries) = essentials entries := by
  unfold essentials
  rw [List.filter_append, List.filter_eq_nil_iff.2, List.nil_append]
  intro entry hmem
  simp [h entry hmem]

theorem essentials_cons {entry : Entry} (h : entry.isAside = false) (entries : List Entry) :
    essentials (entry :: entries) = entry :: essentials entries := by
  unfold essentials
  rw [List.filter_cons_of_pos (by simp [h])]

/-- The records match, asides apart. -/
def RecordsMatch (first second : List Entry) : Prop :=
  Tallies (essentials first) (essentials second)

theorem RecordsMatch.same {first second : List Entry} (h : RecordsMatch first second)
    (entry : Entry) : RecordsMatch (entry :: first) (entry :: second) := by
  unfold RecordsMatch
  cases haside : entry.isAside with
  | true =>
    have honly : ∀ other ∈ [entry], other.isAside = true := by simpa using haside
    have hfirst : essentials (entry :: first) = essentials first := essentials_asides honly first
    have hsecond : essentials (entry :: second) = essentials second :=
      essentials_asides honly second
    rw [hfirst, hsecond]
    exact h
  | false =>
    rw [essentials_cons haside, essentials_cons haside]
    exact .same entry h

theorem RecordsMatch.resizeRefused {first second : List Entry} (h : RecordsMatch first second)
    (address : Nat) (held : Layout) (wanted : Nat) (kind : ErrorKind) :
    RecordsMatch (.call (.reallocate address held.size wanted (.error kind)) :: first)
      (.call (.allocate ⟨wanted, held.align⟩ (.error kind)) :: second) := by
  unfold RecordsMatch
  rw [essentials_cons rfl, essentials_cons rfl]
  exact .resizeRefused address held wanted kind h

theorem RecordsMatch.resized {first second : List Entry} (h : RecordsMatch first second)
    (address : Nat) (held : Layout) (wanted : Nat) (block : Block) {asides : List Entry}
    (hasides : ∀ entry ∈ asides, entry.isAside = true) :
    RecordsMatch (.call (.reallocate address held.size wanted (.ok block)) :: first)
      (.call (.deallocate address held) ::
        (asides ++ .call (.allocate ⟨wanted, held.align⟩ (.ok block)) :: second)) := by
  unfold RecordsMatch
  rw [essentials_cons rfl, essentials_cons rfl, essentials_asides hasides, essentials_cons rfl]
  exact .resized address held wanted block h

/-! ## Stores that match -/

/-- Allocators that resize a block by the generic operation. -/
def Backend.Copies : Backend → Prop
  | .stack _ | .freeList _ | .basic _ => True
  | .heap _ | .pages _ => False

structure Parallel (first second : Store) : Prop where
  backend_eq : first.memory.backend = second.memory.backend
  copies : first.memory.backend.Copies
  failing_eq : first.failing = second.failing
  requests_eq : first.requests = second.requests
  plan_eq : first.plan = second.plan
  serials_eq : first.serials = second.serials
  threshold_eq : first.threshold = second.threshold
  records : RecordsMatch first.trace second.trace

theorem Parallel.refl {store : Store} (h : store.memory.backend.Copies) :
    Parallel store store :=
  ⟨rfl, h, rfl, rfl, rfl, rfl, rfl, .refl _⟩

/-- Nothing has happened but asides. -/
def Store.Onward (before after : Store) : Prop :=
  ∃ asides : List Entry, (∀ entry ∈ asides, entry.isAside = true) ∧
    after = { before with trace := asides ++ before.trace }

theorem Store.Onward.refl (store : Store) : store.Onward store :=
  ⟨[], by simp, rfl⟩

theorem Store.Onward.trans {before middle after : Store} (h : before.Onward middle)
    (hnext : middle.Onward after) : before.Onward after := by
  obtain ⟨asides, hasides, rfl⟩ := h
  obtain ⟨later, hlater, rfl⟩ := hnext
  refine ⟨later ++ asides, ?_, by simp⟩
  intro entry hmem
  exact (List.mem_append.1 hmem).elim (hlater entry) (hasides entry)

/-- The effect does nothing but put asides on record. -/
def Effect.Quiet {γ : Type} (effect : Effect γ) : Prop :=
  ∀ store : Store, store.Onward (effect store).2

theorem Effect.quiet_pure {γ : Type} (value : γ) : Effect.Quiet (pure value) :=
  fun store => .refl store

theorem Effect.Quiet.bind {γ δ : Type} {effect : Effect γ} {next : γ → Effect δ}
    (h : effect.Quiet) (hnext : ∀ value, (next value).Quiet) : (effect >>= next).Quiet :=
  fun store => (h store).trans (hnext _ _)

theorem Effect.quiet_record {entry : Entry} (h : entry.isAside = true) :
    (Effect.record entry).Quiet :=
  fun _ => ⟨[entry], by simpa using h, rfl⟩

theorem Effect.quiet_log (message : String) : (Effect.log .trace message).Quiet := by
  intro store
  unfold Effect.log
  split
  · exact Effect.quiet_record rfl store
  · exact .refl store

section Parallels

variable {first second first' second' : Store}

theorem Parallel.onward (h : Parallel first second) (hfirst : first.Onward first')
    (hsecond : second.Onward second') : Parallel first' second' := by
  obtain ⟨asides, hasides, rfl⟩ := hfirst
  obtain ⟨asides', hasides', rfl⟩ := hsecond
  refine ⟨h.backend_eq, h.copies, h.failing_eq, h.requests_eq, h.plan_eq, h.serials_eq,
    h.threshold_eq, ?_⟩
  unfold RecordsMatch
  rw [essentials_asides hasides, essentials_asides hasides']
  exact h.records

theorem Parallel.recorded (h : Parallel first second) {trace trace' : List Entry}
    (hrecords : RecordsMatch trace trace') :
    Parallel { first with trace := trace } { second with trace := trace' } :=
  ⟨h.backend_eq, h.copies, h.failing_eq, h.requests_eq, h.plan_eq, h.serials_eq,
    h.threshold_eq, hrecords⟩

theorem Parallel.remembered (h : Parallel first second) {memory memory' : Memory}
    (hbackend : memory.backend = memory'.backend) (hcopies : memory.backend.Copies) :
    Parallel { first with memory := memory } { second with memory := memory' } :=
  ⟨hbackend, hcopies, h.failing_eq, h.requests_eq, h.plan_eq, h.serials_eq,
    h.threshold_eq, h.records⟩

end Parallels

/-! ## Effects in lockstep -/

section Relations

variable {α β γ δ : Type} {Alike : α → β → Prop} {Alike' : γ → δ → Prop}

/-- From parallel stores both effects lead to matching answers and to parallel stores. -/
def Lockstep (Alike : α → β → Prop) (first : Effect α) (second : Effect β) : Prop :=
  ∀ store store', Parallel store store' →
    Alike (first store).1 (second store').1 ∧ Parallel (first store).2 (second store').2

theorem Lockstep.pure {value : α} {value' : β} (h : Alike value value') :
    Lockstep Alike (pure value) (pure value') := fun _ _ hparallel => ⟨h, hparallel⟩

theorem Lockstep.bind {first : Effect α} {second : Effect β} {next : α → Effect γ}
    {next' : β → Effect δ} (h : Lockstep Alike first second)
    (hnext : ∀ value value', Alike value value' → Lockstep Alike' (next value) (next' value')) :
    Lockstep Alike' (first >>= next) (second >>= next') := by
  intro store store' hparallel
  obtain ⟨halike, hmiddle⟩ := h store store' hparallel
  exact hnext _ _ halike _ _ hmiddle

theorem Lockstep.quiet {first : Effect α} {second : Effect β} (hfirst : first.Quiet)
    (hsecond : second.Quiet) (halike : ∀ store store', Alike (first store).1 (second store').1) :
    Lockstep Alike first second :=
  fun store store' hparallel =>
    ⟨halike store store', hparallel.onward (hfirst store) (hsecond store')⟩

theorem Lockstep.mono {Weaker : α → β → Prop} {first : Effect α} {second : Effect β}
    (h : Lockstep Alike first second)
    (hweaker : ∀ value value', Alike value value' → Weaker value value') :
    Lockstep Weaker first second := by
  intro store store' hparallel
  obtain ⟨halike, hnext⟩ := h store store' hparallel
  exact ⟨hweaker _ _ halike, hnext⟩

/-- The same failure, or values that match. -/
inductive Matching (Alike : α → β → Prop) : Except ErrorKind α → Except ErrorKind β → Prop
  | failed (kind : ErrorKind) : Matching Alike (.error kind) (.error kind)
  | done {value : α} {value' : β} (h : Alike value value') :
    Matching Alike (.ok value) (.ok value')

theorem Matching.eq {answer answer' : Except ErrorKind α} (h : Matching Eq answer answer') :
    answer = answer' := by
  cases h with
  | failed kind => rfl
  | done halike => rw [halike]

/-- Attempts in lockstep fail for the same cause. -/
def Attempt.InStep (Alike : α → β → Prop) (first : Attempt α) (second : Attempt β) : Prop :=
  Lockstep (Matching Alike) first.run second.run

namespace Attempt

variable {first : Attempt α} {second : Attempt β}

theorem InStep.pure {value : α} {value' : β} (h : Alike value value') :
    InStep Alike (pure value) (pure value') := fun _ _ hparallel => ⟨.done h, hparallel⟩

theorem InStep.throw (kind : ErrorKind) :
    InStep Alike (throw kind : Attempt α) (throw kind : Attempt β) :=
  fun _ _ hparallel => ⟨.failed kind, hparallel⟩

theorem InStep.lift {effect : Effect α} {effect' : Effect β} (h : Lockstep Alike effect effect') :
    InStep Alike (ExceptT.lift effect) (ExceptT.lift effect') := by
  intro store store' hparallel
  obtain ⟨halike, hnext⟩ := h store store' hparallel
  exact ⟨.done halike, hnext⟩

theorem InStep.bind {next : α → Attempt γ} {next' : β → Attempt δ}
    (h : InStep Alike first second)
    (hnext : ∀ value value', Alike value value' → InStep Alike' (next value) (next' value')) :
    InStep Alike' (first >>= next) (second >>= next') := by
  intro store store' hparallel
  obtain ⟨hmatching, hmiddle⟩ := h store store' hparallel
  show Matching Alike' ((first >>= next) store).1 ((second >>= next') store').1 ∧
    Parallel ((first >>= next) store).2 ((second >>= next') store').2
  rw [bind_apply, bind_apply]
  have hfirst : first.run store = first store := rfl
  have hsecond : second.run store' = second store' := rfl
  rw [hfirst, hsecond] at hmatching hmiddle
  generalize first store = run at hmatching hmiddle ⊢
  generalize second store' = run' at hmatching hmiddle ⊢
  obtain ⟨answer, middle⟩ := run
  obtain ⟨answer', middle'⟩ := run'
  cases hmatching with
  | failed kind => exact ⟨.failed kind, hmiddle⟩
  | done halike => exact hnext _ _ halike middle middle' hmiddle

theorem InStep.undoing {undo undo' : Effect Unit} (h : InStep Alike first second)
    (hundo : Lockstep (fun _ _ => True) undo undo') :
    InStep Alike (first.undoing undo) (second.undoing undo') := by
  refine Lockstep.bind h fun answer answer' hmatching => ?_
  cases hmatching with
  | failed kind => exact hundo.bind fun _ _ _ => .pure (.failed kind)
  | done halike => exact .pure (.done halike)

theorem InStep.mono {Weaker : α → β → Prop} (h : InStep Alike first second)
    (hweaker : ∀ value value', Alike value value' → Weaker value value') :
    InStep Weaker first second := by
  refine Lockstep.mono h fun answer answer' hmatching => ?_
  cases hmatching with
  | failed kind => exact .failed kind
  | done halike => exact .done (hweaker _ _ halike)

/-- What each attempt is known to answer may be used. -/
theorem InStep.knowing {Known : Except ErrorKind α → Prop} {Known' : Except ErrorKind β → Prop}
    (h : InStep Alike first second) (hknown : ∀ store, Known (first store).1)
    (hknown' : ∀ store, Known' (second store).1) :
    InStep (fun value value' => Alike value value' ∧ Known (.ok value) ∧ Known' (.ok value'))
      first second := by
  intro store store' hparallel
  obtain ⟨hmatching, hnext⟩ := h store store' hparallel
  have hfirst : Known (first.run store).1 := hknown store
  have hsecond : Known' (second.run store').1 := hknown' store'
  refine ⟨?_, hnext⟩
  generalize (first.run store).1 = answer at hmatching hfirst ⊢
  generalize (second.run store').1 = answer' at hmatching hsecond ⊢
  cases hmatching with
  | failed kind => exact .failed kind
  | done halike => exact .done ⟨halike, hfirst, hsecond⟩

end Attempt
end Relations

theorem Effect.lockstep_record (entry : Entry) :
    Lockstep (fun _ _ => True) (record entry) (record entry) :=
  fun _ _ hparallel => ⟨trivial, hparallel.recorded (hparallel.records.same entry)⟩

theorem Effect.lockstep_freshSerial : Lockstep Eq freshSerial freshSerial := by
  intro store store' hparallel
  refine ⟨congrArg (· + 1) hparallel.serials_eq, ?_⟩
  exact ⟨hparallel.backend_eq, hparallel.copies, hparallel.failing_eq, hparallel.requests_eq,
    hparallel.plan_eq, congrArg (· + 1) hparallel.serials_eq, hparallel.threshold_eq,
    hparallel.records⟩

theorem Attempt.inStep_hook : InStep (fun _ _ => True) hook hook := by
  intro store store' hparallel
  have hplan := hparallel.plan_eq
  have hnext : ∀ rest, Parallel { store with plan := rest } { store' with plan := rest } :=
    fun rest => ⟨hparallel.backend_eq, hparallel.copies, hparallel.failing_eq,
      hparallel.requests_eq, rfl, hparallel.serials_eq, hparallel.threshold_eq,
      hparallel.records⟩
  show Matching _ (hook store).1 (hook store').1 ∧ Parallel (hook store).2 (hook store').2
  unfold hook
  rw [← hplan]
  cases store.plan with
  | nil => exact ⟨.done trivial, hparallel⟩
  | cons decision rest =>
    cases decision with
    | none => exact ⟨.done trivial, hnext rest⟩
    | some kind => exact ⟨.failed kind, hnext rest⟩

/-! ## Requests in lockstep -/

namespace Memory

variable {memory memory' : Memory}

theorem copies_allocate (hcopies : memory.backend.Copies) {layout : Layout} {block : Block}
    (h : memory.allocate layout = .ok (block, memory')) : memory'.backend.Copies := by
  have hcases := allocate_ok h
  cases hbackend : memory.backend with
  | stack arena | freeList list | basic list =>
    rw [hbackend] at hcases
    obtain ⟨books, -, rfl⟩ := hcases
    trivial
  | heap heap | pages pages =>
    rw [hbackend] at hcopies
    cases hcopies

theorem copies_expand (hcopies : memory.backend.Copies) {address wanted size : Nat}
    {layout : Layout} (h : memory.expand address layout wanted = .ok (size, memory')) :
    memory'.backend.Copies := by
  have hcases := expand_ok h
  cases hbackend : memory.backend with
  | stack arena | freeList list =>
    rw [hbackend] at hcases
    obtain ⟨books, -, rfl⟩ := hcases
    trivial
  | basic list =>
    rw [hbackend] at hcases
    obtain ⟨-, -, rfl⟩ := hcases
    exact hcopies
  | heap heap | pages pages =>
    rw [hbackend] at hcopies
    cases hcopies

theorem copies_deallocate (hcopies : memory.backend.Copies) (address : Nat) (layout : Layout) :
    (memory.deallocate address layout).backend.Copies := by
  cases hbackend : memory.backend with
  | stack arena | freeList list | basic list =>
    unfold deallocate
    rw [hbackend]
    trivial
  | heap heap | pages pages =>
    rw [hbackend] at hcopies
    cases hcopies

end Memory

namespace Allocator

section Asking

variable {γ : Type} {ask ask' : Memory → Except Refusal (γ × Memory)} {store store' : Store}

theorem consult_ok (ask : Memory → Except Refusal (γ × Memory)) {value : γ} {memory : Memory}
    (h : ask store.memory = .ok (value, memory)) :
    consult ask store = (.ok value, { store with memory := memory }) := by
  unfold consult
  rw [h]

theorem consult_refused (ask : Memory → Except Refusal (γ × Memory)) {refusal : Refusal}
    (h : ask store.memory = .error refusal) :
    (consult ask store).1 = .error refusal.kind ∧ store.Onward (consult ask store).2 := by
  unfold consult
  rw [h]
  dsimp only
  cases refusal.remark with
  | none => exact ⟨rfl, .refl store⟩
  | some remark => exact ⟨rfl, Effect.quiet_log remark store⟩

theorem consult_parallel (hparallel : Parallel store store')
    (hagree : Agree (ask store.memory) (ask' store'.memory))
    (hcopies : ∀ value memory, ask store.memory = .ok (value, memory) → memory.backend.Copies) :
    Matching Eq (consult ask store).1 (consult ask' store').1 ∧
      Parallel (consult ask store).2 (consult ask' store').2 := by
  rcases hagree.either with
    ⟨refusal, hfirst, hsecond⟩ | ⟨value, memory, memory', hfirst, hsecond, hbooks⟩
  · obtain ⟨hkind, honward⟩ := consult_refused ask hfirst
    obtain ⟨hkind', honward'⟩ := consult_refused ask' hsecond
    rw [hkind, hkind']
    exact ⟨.failed refusal.kind, hparallel.onward honward honward'⟩
  · rw [consult_ok ask hfirst, consult_ok ask' hsecond]
    exact ⟨.done rfl, hparallel.remembered hbooks (hcopies value memory hfirst)⟩

theorem refusedByPlan_lockstep : Lockstep Eq refusedByPlan refusedByPlan := by
  intro store store' hparallel
  have hrequests := hparallel.requests_eq
  refine ⟨?_, ?_⟩
  · show store.failing.contains (store.requests + 1) = store'.failing.contains (store'.requests + 1)
    rw [hparallel.failing_eq, hrequests]
  · exact ⟨hparallel.backend_eq, hparallel.copies, hparallel.failing_eq,
      congrArg (· + 1) hrequests, hparallel.plan_eq, hparallel.serials_eq,
      hparallel.threshold_eq, hparallel.records⟩

/-- The same question asked by both, with the same entry on record. -/
theorem counted_lockstep (call : Except ErrorKind γ → Call)
    (hagree : ∀ memory memory' : Memory, memory.backend = memory'.backend →
      Agree (ask memory) (ask memory'))
    (hcopies : ∀ memory : Memory, memory.backend.Copies → ∀ value memory',
      ask memory = .ok (value, memory') → memory'.backend.Copies) :
    Lockstep (Matching Eq) (counted ask call) (counted ask call) := by
  have hrecorded : ∀ answer answer' : Except ErrorKind γ, Matching Eq answer answer' →
      Lockstep (Matching Eq)
        (do
          Effect.record (.call (call answer))
          pure answer)
        (do
          Effect.record (.call (call answer'))
          pure answer') := by
    intro answer answer' hmatching
    obtain rfl := hmatching.eq
    exact (Effect.lockstep_record _).bind fun _ _ _ => .pure hmatching
  have hconsulted : Lockstep (Matching Eq) (consult ask) (consult ask) :=
    fun store store' hparallel => consult_parallel hparallel
      (hagree _ _ hparallel.backend_eq) (hcopies _ hparallel.copies)
  refine refusedByPlan_lockstep.bind fun refused _ hrefused => ?_
  subst hrefused
  cases refused with
  | true => exact hrecorded _ _ (.failed .allocationFailed)
  | false => exact hconsulted.bind hrecorded

end Asking

theorem allocate_inStep (layout : Layout) :
    Attempt.InStep Eq (allocate layout) (allocate layout) :=
  counted_lockstep (Call.allocate layout)
    (fun _ _ hbooks => Memory.agree_allocate hbooks layout)
    fun _ hcopies _ _ hanswer => Memory.copies_allocate hcopies hanswer

theorem deallocate_lockstep (address : Nat) (layout : Layout) :
    Lockstep (fun _ _ => True) (deallocate address layout) (deallocate address layout) := by
  have hreleased : Lockstep (fun _ _ => True)
      (modify fun store => { store with memory := store.memory.deallocate address layout })
      (modify fun store => { store with memory := store.memory.deallocate address layout }) :=
    fun store store' hparallel => ⟨trivial, hparallel.remembered
      (Memory.backend_deallocate_congr hparallel.backend_eq address layout)
      (Memory.copies_deallocate hparallel.copies address layout)⟩
  exact hreleased.bind fun _ _ _ => Effect.lockstep_record _

theorem advise_lockstep (address count : Nat) (hint : UsageHint) :
    Lockstep (fun _ _ => True) (advise address count hint) (advise address count hint) := by
  have hadvised : Lockstep (fun _ _ => True)
      (modify fun store => { store with memory := store.memory.advise address count hint })
      (modify fun store => { store with memory := store.memory.advise address count hint }) := by
    intro store store' hparallel
    refine ⟨trivial, hparallel.remembered ?_ ?_⟩
    · rw [Memory.backend_advise, Memory.backend_advise]
      exact hparallel.backend_eq
    · rw [Memory.backend_advise]
      exact hparallel.copies
  exact hadvised.bind fun _ _ _ => Effect.lockstep_record _

theorem expand_inStep (address : Nat) (layout : Layout) (wanted : Nat) :
    Attempt.InStep Eq (expand address layout wanted) (expand address layout wanted) := by
  have hconsulted : Lockstep (Matching Eq)
      (consult fun memory => memory.expand address layout wanted)
      (consult fun memory => memory.expand address layout wanted) :=
    fun store store' hparallel => consult_parallel hparallel
      (Memory.agree_expand hparallel.backend_eq address layout wanted)
      fun _ _ hanswer => Memory.copies_expand hparallel.copies hanswer
  refine hconsulted.bind fun answer answer' hmatching => ?_
  obtain rfl := hmatching.eq
  exact (Effect.lockstep_record _).bind fun _ _ _ => .pure hmatching

/-- What could not grow in place cannot grow in place if it is asked again. -/
theorem expand_refused {address wanted : Nat} {layout : Layout} {store store' : Store}
    {kind : ErrorKind} (h : expand address layout wanted store = (.error kind, store')) :
    ∃ refusal, store'.memory.expand address layout wanted = .error refusal := by
  have hanswer : (consult (fun memory => memory.expand address layout wanted) store).1 =
      .error kind := congrArg Prod.fst h
  have hmemory : (consult (fun memory => memory.expand address layout wanted) store).2.memory =
      store'.memory := congrArg (fun run => run.2.memory) h
  cases hexpand : store.memory.expand address layout wanted with
  | error refusal =>
    obtain ⟨-, asides, -, honward⟩ :=
      consult_refused (fun memory => memory.expand address layout wanted) hexpand
    rw [honward] at hmemory
    exact ⟨refusal, hmemory ▸ hexpand⟩
  | ok found =>
    rw [consult_ok (fun memory => memory.expand address layout wanted) hexpand] at hanswer
    cases hanswer

/-! ## One call for three -/

theorem counted_by_plan {γ : Type} (ask : Memory → Except Refusal (γ × Memory))
    (call : Except ErrorKind γ → Call) {store : Store}
    (hplan : store.failing.contains (store.requests + 1) = true) :
    counted ask call store = (.error .allocationFailed,
      { store with
        requests := store.requests + 1
        trace := .call (call (.error .allocationFailed)) :: store.trace }) := by
  unfold counted
  rw [Effect.bind_apply]
  have hrefused : (refusedByPlan store).1 = true := hplan
  rw [hrefused]
  rfl

theorem counted_by_memory {γ : Type} (ask : Memory → Except Refusal (γ × Memory))
    (call : Except ErrorKind γ → Call) {store : Store}
    (hplan : store.failing.contains (store.requests + 1) = false) :
    counted ask call store =
      ((consult ask (refusedByPlan store).2).1,
        (Effect.record (.call (call (consult ask (refusedByPlan store).2).1))
          (consult ask (refusedByPlan store).2).2).2) := by
  unfold counted
  rw [Effect.bind_apply]
  have hrefused : (refusedByPlan store).1 = false := hplan
  rw [hrefused]
  rfl

end Allocator

/-- Where growth in place is refused, a block is resized by way of a new one. -/
theorem Memory.reallocate_of_refused {memory : Memory} (hcopies : memory.backend.Copies)
    {address : Nat} {held wanted : Layout} (hgrows : held.size < wanted.size)
    (halign : held.align = wanted.align) (hvalid : wanted.Valid) {refusal : Refusal}
    (hrefused : memory.expand address held wanted.size = .error refusal) :
    memory.reallocate address held wanted.size =
      (memory.allocate wanted).map fun found =>
        (found.1,
          Memory.deallocate
            { found.2 with bytes := found.2.bytes.copy address found.1.address held.size }
            address held) := by
  have hcopy : memory.reallocate address held wanted.size =
      memory.reallocateByCopy address held wanted.size := by
    unfold reallocate
    cases hbackend : memory.backend with
    | stack arena | freeList list | basic list => rfl
    | heap heap | pages pages =>
      rw [hbackend] at hcopies
      cases hcopies
  have hlayout : Layout.of? wanted.size held.align = some wanted := by
    rw [halign]
    exact Layout.of?_eq_some_iff.2 ⟨hvalid, rfl⟩
  rw [hcopy]
  unfold reallocateByCopy
  rw [if_neg (Nat.not_le_of_lt hgrows), hrefused, hlayout]
  dsimp only
  cases memory.allocate wanted with
  | error refusal => rfl
  | ok found => rfl

namespace Allocator

/-- A resize by the allocator and a request for a new block are refused alike.  If they are
answered, the resize comes to the same as giving back the old block in the end, whatever is
put on record in the meantime. -/
theorem reallocate_allocate {store store' : Store} (hparallel : Parallel store store')
    {address : Nat} {held wanted : Layout} (hgrows : held.size < wanted.size)
    (halign : held.align = wanted.align) (hvalid : wanted.Valid)
    (hrefused : ∃ refusal, store.memory.expand address held wanted.size = .error refusal) :
    (∃ kind, (reallocate address held wanted.size store).1 = .error kind ∧
        (allocate wanted store').1 = .error kind ∧
        Parallel (reallocate address held wanted.size store).2 (allocate wanted store').2) ∨
      ∃ block, (reallocate address held wanted.size store).1 = .ok block ∧
        (allocate wanted store').1 = .ok block ∧
        ∀ later, (allocate wanted store').2.Onward later →
          Parallel (reallocate address held wanted.size store).2
            (deallocate address held later).2 := by
  obtain ⟨refusal, hrefused⟩ := hrefused
  have hfirst : reallocate address held wanted.size store =
      counted (fun memory => memory.reallocate address held wanted.size)
        (Call.reallocate address held.size wanted.size) store := rfl
  have hsecond : allocate wanted store' =
      counted (fun memory => memory.allocate wanted) (Call.allocate wanted) store' := rfl
  have hplan : store.failing.contains (store.requests + 1) =
      store'.failing.contains (store'.requests + 1) := (refusedByPlan_lockstep _ _ hparallel).1
  have hcounted : Parallel (refusedByPlan store).2 (refusedByPlan store').2 :=
    (refusedByPlan_lockstep _ _ hparallel).2
  have hsame : wanted = ⟨wanted.size, held.align⟩ := by rw [halign]
  rw [hfirst, hsecond]
  -- Both requests have the same number, so the plan refuses both or neither.
  cases hrefusedByPlan : store.failing.contains (store.requests + 1) with
  | true =>
    rw [counted_by_plan _ _ hrefusedByPlan, counted_by_plan _ _ (hplan ▸ hrefusedByPlan)]
    refine Or.inl ⟨.allocationFailed, rfl, rfl, ?_⟩
    have hrecords := hparallel.records.resizeRefused address held wanted.size .allocationFailed
    rw [← hsame] at hrecords
    exact hcounted.recorded hrecords
  | false =>
    rw [counted_by_memory _ _ hrefusedByPlan, counted_by_memory _ _ (hplan ▸ hrefusedByPlan)]
    have hrefused' : (refusedByPlan store).2.memory.expand address held wanted.size =
        .error refusal := hrefused
    generalize (refusedByPlan store).2 = first at hcounted hrefused' ⊢
    generalize (refusedByPlan store').2 = second at hcounted ⊢
    have hresize := Memory.reallocate_of_refused hcounted.copies hgrows halign hvalid hrefused'
    have hagree := Memory.agree_allocate hcounted.backend_eq wanted
    rcases hagree.either with
      ⟨refusal, hfound, hfound'⟩ | ⟨block, memory, memory', hfound, hfound', hbooks⟩
    · have hresize' : first.memory.reallocate address held wanted.size = .error refusal := by
        rw [hresize, hfound]
        rfl
      obtain ⟨hkind, honward⟩ :=
        consult_refused (fun memory => memory.reallocate address held wanted.size) hresize'
      obtain ⟨hkind', honward'⟩ := consult_refused (fun memory => memory.allocate wanted) hfound'
      have hmiddle := hcounted.onward honward honward'
      have hrecords :=
        hmiddle.records.resizeRefused address held wanted.size refusal.kind
      rw [← hsame] at hrecords
      refine Or.inl ⟨refusal.kind, hkind, hkind', ?_⟩
      rw [hkind, hkind']
      exact hmiddle.recorded hrecords
    · have hresize' : first.memory.reallocate address held wanted.size =
          .ok (block, Memory.deallocate
            { memory with bytes := memory.bytes.copy address block.address held.size }
            address held) := by
        rw [hresize, hfound]
        rfl
      rw [consult_ok (fun memory => memory.reallocate address held wanted.size) hresize',
        consult_ok (fun memory => memory.allocate wanted) hfound']
      refine Or.inr ⟨block, rfl, rfl, ?_⟩
      rintro later ⟨asides, hasides, rfl⟩
      have hrecords := hcounted.records.resized address held wanted.size block hasides
      rw [← hsame] at hrecords
      have hcopied : (Memory.backend
          { memory with bytes := memory.bytes.copy address block.address held.size }) =
            memory'.backend := hbooks
      have hmoved : memory.backend.Copies := Memory.copies_allocate hcounted.copies hfound
      have hcopies : (Memory.backend
          { memory with bytes := memory.bytes.copy address block.address held.size }).Copies :=
        hmoved
      exact (hcounted.remembered (Memory.backend_deallocate_congr hcopied address held)
        (Memory.copies_deallocate hcopies address held)).recorded hrecords

end Allocator

end Freehold
