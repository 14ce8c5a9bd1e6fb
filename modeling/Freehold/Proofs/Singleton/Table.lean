import Mathlib.Logic.Function.Basic
import Freehold.Proofs.Singleton.Reaching

/-!
# Singletons that share locks

A table has any number of singletons, each with its own kind of value, and any number of
locks, each of its own kind.  The singletons share the locks in any way, take them in ways
of their own, and others take the locks and give them back as they like.  Each act is a
turn of the table, and the history of a singleton is settled by its turns: failed attempts
that leave nothing behind, and then at most one value, which stays.
-/

namespace Freehold
namespace Singleton

variable {σ : Nat → Type} [∀ lock, Lockable (σ lock)] {α : Nat → Type}

/-- Which lock a singleton shares, and how it is set up. -/
structure Settings (σ : Nat → Type) [∀ lock, Lockable (σ lock)] (α : Nat → Type) where
  lockOf : Nat → Nat
  setting : (index : Nat) → Setting (σ (lockOf index)) (α index)

structure Table (settings : Settings σ α) where
  locks : (lock : Nat) → σ lock
  singletons : (index : Nat) → Singleton (σ (settings.lockOf index)) (α index)

inductive Act (σ : Nat → Type) where
  | reach (index : Nat)
  | get (index : Nat)
  | isReady (index : Nat)
  /-- Others take a lock or give it back. -/
  | others (lock : Nat) (state : σ lock)

inductive Reply (α : Nat → Type) where
  /-- Nothing is asked of a singleton. -/
  | nothing
  /-- The call would wait for a lock, and is not made. -/
  | waits
  | reached (index : Nat) (value : Option (α index))
  | failed (index : Nat) (kind : ErrorKind)
  | found (index : Nat) (value : Option (α index))
  | flag (ready : Bool)

namespace Settings

variable (settings : Settings σ α)

abbrev Deed : Type :=
  (index : Nat) × Singleton.Deed (σ (settings.lockOf index)) (α index)

def Done (deed : settings.Deed) (before after : Store) : Prop :=
  deed.2.Done (settings.setting deed.1) before after

def fresh (locks : (lock : Nat) → σ lock) : Table settings where
  locks := locks
  singletons index := new (settings.setting index).locking

end Settings

namespace Table

variable {settings : Settings σ α} {table next : Table settings}

def content (table : Table settings) (index : Nat) : Option (α index) :=
  (table.singletons index).cell.content

/-- The lock that one of the singletons shares. -/
def lockAt (table : Table settings) (index : Nat) : σ (settings.lockOf index) :=
  table.locks (settings.lockOf index)

def replace (table : Table settings) (index : Nat)
    (singleton : Singleton (σ (settings.lockOf index)) (α index))
    (lock : σ (settings.lockOf index)) : Table settings where
  locks := Function.update table.locks (settings.lockOf index) lock
  singletons := Function.update table.singletons index singleton

/-- Only singletons that are shared can be asked for a value that they may not have. -/
def act (table : Table settings) : Act σ → Effect (Reply α × Table settings)
  | .reach index =>
    let setting := settings.setting index
    match (table.singletons index).reach? setting.element setting.phases setting.spot
        (table.lockAt index) with
    | none => pure (.waits, table)
    | some effect => do
      let (answer, singleton, lock) ← effect
      let next := table.replace index singleton lock
      match answer with
      | .ok () => pure (.reached index singleton.cell.content, next)
      | .error kind => pure (.failed index kind, next)
  | .get index =>
    match table.singletons index with
    | .single _ => pure (.nothing, table)
    | .shared singleton => pure (.found index singleton.get?, table)
  | .isReady index => pure (.flag (table.singletons index).ready, table)
  | .others lock state =>
    pure (.nothing, { table with locks := Function.update table.locks lock state })

def run (table : Table settings) : List (Act σ) → Effect (List (Reply α) × Table settings)
  | [] => pure ([], table)
  | act :: later => do
    let (reply, next) ← table.act act
    let (replies, final) ← next.run later
    pure (reply :: replies, final)

/-! ## Turns -/

def attempted (table : Table settings) (index : Nat) (content : Option (α index))
    (freed : σ (settings.lockOf index)) : Table settings :=
  table.replace index (keeping (settings.setting index).locking content) freed

/-- What an act does and is answered, and what the table is afterwards. -/
inductive Turns (table : Table settings) :
    Act σ → List settings.Deed → Reply α → Table settings → Prop
  | again {index : Nat} {value : α index} (hheld : table.content index = some value) :
    Turns table (.reach index) [] (.reached index (some value)) table
  | waits {index : Nat} (hempty : table.content index = none)
      (hlocked : (settings.setting index).held (table.lockAt index) = true) :
    Turns table (.reach index) [] .waits table
  | completed {index : Nat} (hempty : table.content index = none)
      (hfree : (settings.setting index).held (table.lockAt index) = false)
      {taken freed : σ (settings.lockOf index)}
      (hpasses : (settings.setting index).Passes ⟨table.lockAt index, taken, freed⟩)
      (value : α index) :
    Turns table (.reach index)
      (((settings.setting index).completing ⟨table.lockAt index, taken, freed⟩ value).map
        (Sigma.mk index))
      (.reached index (some value)) (table.attempted index (some value) freed)
  | failed {index : Nat} (hempty : table.content index = none)
      (hfree : (settings.setting index).held (table.lockAt index) = false)
      {taken freed : σ (settings.lockOf index)}
      (hpasses : (settings.setting index).Passes ⟨table.lockAt index, taken, freed⟩)
      (kind : ErrorKind) (shell : α index) :
    Turns table (.reach index)
      (((settings.setting index).failing ⟨table.lockAt index, taken, freed⟩ kind shell).map
        (Sigma.mk index))
      (.failed index kind) (table.attempted index none freed)
  | get {index : Nat} (hshared : (settings.setting index).locking.isSome = true) :
    Turns table (.get index) [] (.found index (table.content index)) table
  | unasked {index : Nat} (hsingle : (settings.setting index).locking = none) :
    Turns table (.get index) [] .nothing table
  | isReady (index : Nat) :
    Turns table (.isReady index) [] (.flag (table.content index).isSome) table
  | others (lock : Nat) (state : σ lock) :
    Turns table (.others lock state) [] .nothing
      { table with locks := Function.update table.locks lock state }

/-- Every flag of every singleton tells the truth about its storage. -/
def Sound (table : Table settings) : Prop :=
  ∀ index,
    table.singletons index = keeping (settings.setting index).locking (table.content index)

theorem fresh_sound (settings : Settings σ α) (locks : (lock : Nat) → σ lock) :
    (settings.fresh locks).Sound := by
  intro index
  show new (settings.setting index).locking =
    keeping _ (new (settings.setting index).locking).cell.content
  rw [new_eq_keeping, cell_keeping]
  rfl

theorem content_fresh (locks : (lock : Nat) → σ lock) (index : Nat) :
    (settings.fresh locks).content index = none := by
  show (new (settings.setting index).locking).cell.content = none
  rw [new_eq_keeping, cell_keeping]
  rfl

theorem content_attempted_self (index : Nat) (content : Option (α index))
    (freed : σ (settings.lockOf index)) :
    (table.attempted index content freed).content index = content := by
  unfold Table.content attempted replace
  dsimp only
  rw [Function.update_self, cell_keeping]
  rfl

theorem content_attempted_of_ne {index other : Nat} (hne : other ≠ index)
    (content : Option (α index)) (freed : σ (settings.lockOf index)) :
    (table.attempted index content freed).content other = table.content other := by
  unfold Table.content attempted replace
  dsimp only
  rw [Function.update_of_ne hne]

theorem Sound.attempted (h : table.Sound) (index : Nat) (content : Option (α index))
    (freed : σ (settings.lockOf index)) : (table.attempted index content freed).Sound := by
  intro other
  by_cases hsame : other = index
  · subst hsame
    rw [content_attempted_self]
    exact Function.update_self ..
  · rw [content_attempted_of_ne hsame, ← h other]
    exact Function.update_of_ne hsame ..

theorem held_attempted {index : Nat}
    (hfree : (settings.setting index).held (table.lockAt index) = false)
    {taken freed : σ (settings.lockOf index)}
    (hpasses : (settings.setting index).Passes ⟨table.lockAt index, taken, freed⟩)
    (content : Option (α index)) (lock : Nat) :
    Lockable.held ((table.attempted index content freed).locks lock) =
      Lockable.held (table.locks lock) := by
  unfold attempted replace
  by_cases hsame : lock = settings.lockOf index
  · subst hsame
    dsimp only
    rw [Function.update_self]
    exact hpasses.held_eq hfree
  · dsimp only
    rw [Function.update_of_ne hsame]

section Turns

variable {act : Act σ} {deeds : List settings.Deed} {reply : Reply α}

theorem Turns.sound (h : table.Turns act deeds reply next) (hsound : table.Sound) :
    next.Sound := by
  cases h with
  | again | waits | get | unasked | isReady | others => exact hsound
  | completed hempty hfree hpasses value => exact hsound.attempted _ _ _
  | failed hempty hfree hpasses kind shell => exact hsound.attempted _ _ _

/-- No act but that of others changes which locks are held. -/
theorem Turns.held_eq (h : table.Turns act deeds reply next)
    (hcall : ∀ lock state, act ≠ .others lock state) (lock : Nat) :
    Lockable.held (next.locks lock) = Lockable.held (table.locks lock) := by
  cases h with
  | again | waits | get | unasked | isReady => rfl
  | completed hempty hfree hpasses value => exact held_attempted hfree hpasses _ lock
  | failed hempty hfree hpasses kind shell => exact held_attempted hfree hpasses _ lock
  | others lock state => exact absurd rfl (hcall lock state)

end Turns

def Follows (table : Table settings) (act : Act σ) : Prop :=
  ∀ store : Store, ∃ deeds reply next,
    (table.act act).Does settings.Done store deeds (reply, next) ∧
      table.Turns act deeds reply next

/-- What is done on behalf of one singleton, told as deeds of the table. -/
theorem does_at {index : Nat} {β : Type} {effect : Effect β} {store : Store}
    {deeds : List (Singleton.Deed (σ (settings.lockOf index)) (α index))} {result : β}
    (h : effect.Does (Singleton.Deed.Done (settings.setting index)) store deeds result) :
    effect.Does settings.Done store (deeds.map (Sigma.mk index)) result := by
  obtain ⟨after, heffect, hdone⟩ := h
  exact ⟨after, heffect, hdone.map fun _ _ _ hdeed => hdeed⟩

theorem Sound.follows_reach (h : table.Sound) (index : Nat) : table.Follows (.reach index) := by
  intro store
  have hreach : (table.singletons index).reach? (settings.setting index).element
      (settings.setting index).phases (settings.setting index).spot (table.lockAt index) =
        (settings.setting index).reach? (table.content index) (table.lockAt index) := by
    rw [h index]
    rfl
  unfold act
  dsimp only
  rw [hreach]
  cases hcontent : table.content index with
  | some value =>
    obtain ⟨effect, heffect, hdoes⟩ :=
      (settings.setting index).reach?_ready value (table.lockAt index)
    have hsame : table.replace index (keeping (settings.setting index).locking (some value))
        (table.lockAt index) = table := by
      unfold replace lockAt
      rw [← hcontent, ← h index, Function.update_eq_self, Function.update_eq_self]
    rw [heffect]
    refine ⟨[], _, table, (does_at (hdoes store)).bind_pure ?_, .again hcontent⟩
    dsimp only
    rw [hsame, cell_keeping]
    rfl
  | none =>
    cases hlocked : (settings.setting index).held (table.lockAt index) with
    | true =>
      rw [(settings.setting index).reach?_waits hlocked]
      exact ⟨[], _, table, .pure _ _ store, .waits hcontent hlocked⟩
    | false =>
      obtain ⟨effect, heffect, hattempt⟩ := (settings.setting index).reach?_attempts hlocked
      rw [heffect]
      obtain ⟨taken, freed, hpasses, ⟨value, hdoes⟩ | ⟨kind, shell, hdoes⟩⟩ := hattempt store
      · refine ⟨_, _, _, (does_at hdoes).bind_pure ?_, .completed hcontent hlocked hpasses value⟩
        dsimp only
        rw [cell_keeping]
        rfl
      · exact ⟨_, _, _, (does_at hdoes).bind_pure rfl,
          .failed hcontent hlocked hpasses kind shell⟩

theorem Sound.follows_get (h : table.Sound) (index : Nat) : table.Follows (.get index) := by
  intro store
  have hkept := h index
  unfold act
  dsimp only
  cases hlocking : (settings.setting index).locking with
  | none =>
    rw [hlocking] at hkept
    rw [hkept]
    exact ⟨[], _, table, .pure _ _ store, .unasked hlocking⟩
  | some locking =>
    have hget : SharedSingleton.get?
        { locking := locking
          ready := (table.content index).isSome
          cell := .static ⟨table.content index, (table.content index).isSome⟩ } =
        table.content index := by
      cases table.content index with
      | none | some value => rfl
    rw [hlocking] at hkept
    rw [hkept]
    refine ⟨[], _, table, .pure _ _ store, ?_⟩
    rw [hget]
    exact .get (by rw [hlocking]; rfl)

theorem Sound.follows (h : table.Sound) (act : Act σ) : table.Follows act := by
  cases act with
  | reach index => exact h.follows_reach index
  | get index => exact h.follows_get index
  | isReady index =>
    intro store
    refine ⟨[], _, table, .pure _ _ store, ?_⟩
    rw [h index, ready_keeping]
    exact .isReady index
  | others lock state => exact fun store => ⟨[], _, _, .pure _ _ store, .others lock state⟩

/-! ## Histories -/

/-- What was done to the cell of one of the singletons. -/
def within (index : Nat) (deeds : List settings.Deed) : List (Staged.Deed (α index)) :=
  deeds.filterMap fun deed =>
    if hsame : deed.1 = index then hsame ▸ deed.2.within? else none

def warnings (deeds : List settings.Deed) : List String :=
  deeds.filterMap fun deed => deed.2.warning?

def errors (index : Nat) (replies : List (Reply α)) : List ErrorKind :=
  replies.filterMap fun reply =>
    match reply with
    | .failed other kind => if other = index then some kind else none
    | _ => none

/-- One warning for each error that a singleton with a lock came to. -/
def warningsOf (settings : Settings σ α) (replies : List (Reply α)) : List String :=
  replies.filterMap fun reply =>
    match reply with
    | .failed index kind =>
      if (settings.setting index).locking.isSome then some (SharedSingleton.failureText kind)
      else none
    | _ => none

/-- An attempt that failed: a shell is built and destroyed. -/
def failedAttempt {β : Type} (spot : Spot) (failure : ErrorKind × β) : List (Staged.Deed β) :=
  [.build spot (.error failure.1) failure.2, .destroy failure.2]

theorem within_append (index : Nat) (earlier later : List settings.Deed) :
    within index (earlier ++ later) = within index earlier ++ within index later :=
  List.filterMap_append ..

theorem within_self (index : Nat)
    (deeds : List (Singleton.Deed (σ (settings.lockOf index)) (α index))) :
    within index (deeds.map (Sigma.mk index)) = deeds.filterMap Deed.within? := by
  simp [within, List.filterMap_map]

theorem within_of_ne {index other : Nat} (hne : other ≠ index)
    (deeds : List (Singleton.Deed (σ (settings.lockOf other)) (α other))) :
    within index (deeds.map (Sigma.mk other)) = [] := by
  simp [within, List.filterMap_map, hne]

theorem warnings_at (index : Nat)
    (deeds : List (Singleton.Deed (σ (settings.lockOf index)) (α index))) :
    warnings (deeds.map (Sigma.mk index)) = deeds.filterMap Deed.warning? := by
  simp only [warnings, List.filterMap_map]
  rfl

section Turns

variable {act : Act σ} {deeds : List settings.Deed} {reply : Reply α}

/-- What a turn is for one of the singletons: nothing, or one attempt. -/
theorem Turns.cases_at (h : table.Turns act deeds reply next) (index : Nat) :
    (within index deeds = [] ∧ errors index [reply] = [] ∧
      next.content index = table.content index) ∨
    (∃ value, table.content index = none ∧ next.content index = some value ∧
      within index deeds = [.build (settings.setting index).spot (.ok ()) value] ∧
      errors index [reply] = []) ∨
    ∃ failure, table.content index = none ∧ next.content index = none ∧
      within index deeds = failedAttempt (settings.setting index).spot failure ∧
      errors index [reply] = [failure.1] := by
  cases h with
  | again | waits | get | unasked | isReady | others => exact Or.inl ⟨rfl, rfl, rfl⟩
  | @completed other hempty hfree taken freed hpasses value =>
    by_cases hsame : other = index
    · subst hsame
      refine Or.inr (Or.inl ⟨value, hempty, content_attempted_self _ _ _, ?_, rfl⟩)
      rw [within_self, Setting.completing, Setting.within_guarded]
      rfl
    · exact Or.inl ⟨within_of_ne hsame _, rfl, content_attempted_of_ne (Ne.symm hsame) _ _⟩
  | @failed other hempty hfree taken freed hpasses kind shell =>
    by_cases hsame : other = index
    · subst hsame
      refine Or.inr (Or.inr ⟨(kind, shell), hempty, content_attempted_self _ _ _, ?_, ?_⟩)
      · rw [within_self, Setting.failing, Setting.within_guarded]
        cases (settings.setting other).locking with
        | none | some locking => rfl
      · simp [errors]
    · refine Or.inl ⟨within_of_ne hsame _, ?_, content_attempted_of_ne (Ne.symm hsame) _ _⟩
      simp [errors, hsame]

theorem Turns.content_kept (h : table.Turns act deeds reply next) {index : Nat}
    {value : α index} (hheld : table.content index = some value) :
    next.content index = some value := by
  rcases h.cases_at index with ⟨-, -, hsame⟩ | ⟨_, hempty, -⟩ | ⟨_, hempty, -⟩
  · rw [hsame, hheld]
  · rw [hheld] at hempty
    contradiction
  · rw [hheld] at hempty
    contradiction

/-- A reply that gives a value gives what the singleton holds afterwards. -/
theorem Turns.content_of_reached {index : Nat} {value : Option (α index)}
    (h : table.Turns act deeds (.reached index value) next) :
    value.isSome = true ∧ next.content index = value := by
  cases h with
  | again hheld => exact ⟨rfl, hheld⟩
  | completed hempty hfree hpasses value => exact ⟨rfl, content_attempted_self _ _ _⟩

/-- A singleton becomes ready by a call that gives its value. -/
theorem Turns.reached_of_content (h : table.Turns act deeds reply next) {index : Nat}
    {value : α index} (hheld : next.content index = some value) :
    table.content index = some value ∨ reply = .reached index (some value) := by
  cases h with
  | again | waits | get | unasked | isReady | others => exact Or.inl hheld
  | @completed other hempty hfree taken freed hpasses built =>
    by_cases hsame : index = other
    · subst hsame
      rw [content_attempted_self] at hheld
      obtain rfl := Option.some.inj hheld
      exact Or.inr rfl
    · rw [content_attempted_of_ne hsame] at hheld
      exact Or.inl hheld
  | @failed other hempty hfree taken freed hpasses kind shell =>
    by_cases hsame : index = other
    · subst hsame
      rw [content_attempted_self] at hheld
      contradiction
    · rw [content_attempted_of_ne hsame] at hheld
      exact Or.inl hheld

theorem Turns.warnings_eq (h : table.Turns act deeds reply next) :
    warnings deeds = warningsOf settings [reply] := by
  cases h with
  | again | waits | get | unasked | isReady | others => rfl
  | @completed index hempty hfree taken freed hpasses value =>
    rw [warnings_at, Setting.completing, Setting.warnings_guarded]
    rfl
  | @failed index hempty hfree taken freed hpasses kind shell =>
    rw [warnings_at, Setting.failing, Setting.warnings_guarded]
    simp only [warningsOf, List.filterMap_cons, List.filterMap_nil]
    cases (settings.setting index).locking with
    | none | some locking => rfl

end Turns

/-- What was done and answered in a run that led to the table. -/
structure History (deeds : List settings.Deed)
    (replies : List (Reply α)) (table : Table settings) : Prop where
  sound : table.Sound
  /-- All calls that gave a value gave the one that the singleton holds. -/
  same : ∀ index value, .reached index value ∈ replies →
    value.isSome = true ∧ table.content index = value
  reached : ∀ index value, table.content index = some value →
    .reached index (some value) ∈ replies
  /-- After the attempts that failed there is at most one more, and its value stays. -/
  attempts : ∀ index, ∃ failures : List (ErrorKind × α index),
    within index deeds = failures.flatMap (failedAttempt (settings.setting index).spot) ++
      (table.content index).toList.map (.build (settings.setting index).spot (.ok ())) ∧
    errors index replies = failures.map Prod.fst
  warned : warnings deeds = warningsOf settings replies

section Histories

variable {act : Act σ} {deeds later : List settings.Deed} {reply : Reply α}
  {replies : List (Reply α)}

theorem History.fresh (settings : Settings σ α) (locks : (lock : Nat) → σ lock) :
    History [] [] (settings.fresh locks) := by
  refine ⟨fresh_sound settings locks, ?_, ?_, ?_, rfl⟩
  · intro index value hmem
    cases hmem
  · intro index value hheld
    rw [content_fresh] at hheld
    contradiction
  · intro index
    refine ⟨[], ?_, rfl⟩
    rw [content_fresh]
    rfl

theorem History.after (h : History deeds replies table)
    (hturn : table.Turns act later reply next) :
    History (deeds ++ later) (replies ++ [reply]) next := by
  refine ⟨hturn.sound h.sound, ?_, ?_, ?_, ?_⟩
  · intro index value hmem
    rcases List.mem_append.1 hmem with hearlier | hlast
    · obtain ⟨hsome, hheld⟩ := h.same index value hearlier
      obtain ⟨value, rfl⟩ := Option.isSome_iff_exists.1 hsome
      exact ⟨hsome, hturn.content_kept hheld⟩
    · obtain rfl := List.mem_singleton.1 hlast
      exact hturn.content_of_reached
  · intro index value hheld
    rcases hturn.reached_of_content hheld with hearlier | rfl
    · exact List.mem_append_left _ (h.reached index value hearlier)
    · exact List.mem_append_right _ List.mem_cons_self
  · intro index
    obtain ⟨failures, hdeeds, herrors⟩ := h.attempts index
    have hsplit : errors index (replies ++ [reply]) =
        failures.map Prod.fst ++ errors index [reply] := by
      rw [← herrors]
      exact List.filterMap_append ..
    rw [within_append, hsplit, hdeeds]
    -- A failure is added to the others only while there is no value, so all of them precede it.
    rcases hturn.cases_at index with ⟨hnone, hquiet, hsame⟩ |
      ⟨value, hempty, hheld, hbuilt, hquiet⟩ | ⟨failure, hempty, hstill, hfailed, herror⟩
    · refine ⟨failures, ?_, ?_⟩
      · rw [hnone, hsame, List.append_nil]
      · rw [hquiet, List.append_nil]
    · refine ⟨failures, ?_, ?_⟩
      · rw [hbuilt, hempty, hheld, Option.toList_none, List.map_nil, List.append_nil]
        rfl
      · rw [hquiet, List.append_nil]
    · refine ⟨failures ++ [failure], ?_, ?_⟩
      · rw [hfailed, hempty, hstill]
        simp
      · rw [herror]
        simp
  · have hlater : warningsOf settings (replies ++ [reply]) =
        warningsOf settings replies ++ warningsOf settings [reply] := List.filterMap_append ..
    have hboth : warnings (deeds ++ later) = warnings deeds ++ warnings later :=
      List.filterMap_append ..
    rw [hboth, hlater, h.warned, hturn.warnings_eq]

theorem History.run (h : History deeds replies table) (acts : List (Act σ))
    (store : Store) :
    ∃ later answers final,
      (table.run acts).Does settings.Done store later (answers, final) ∧
      History (deeds ++ later) (replies ++ answers) final := by
  induction acts generalizing table deeds replies store with
  | nil =>
    refine ⟨[], [], table, .pure _ _ store, ?_⟩
    rw [List.append_nil, List.append_nil]
    exact h
  | cons act acts ih =>
    obtain ⟨first, reply, next, ⟨between, hact, hdone⟩, hturn⟩ := h.sound.follows act store
    obtain ⟨rest, answers, final, hrun, hhistory⟩ := ih (h.after hturn) between
    refine ⟨first ++ rest, reply :: answers, final, .bind hact hdone (hrun.bind_pure rfl), ?_⟩
    rw [List.append_assoc, List.append_assoc] at hhistory
    exact hhistory

end Histories

/-! ## Singletons initialize once -/

/-- What holds of the table after these deeds and replies, whatever comes next. -/
structure Accounted (deeds : List settings.Deed)
    (replies : List (Reply α)) (table : Table settings) : Prop where
  ready_iff : ∀ index, (table.singletons index).ready = true ↔
    ∃ value, .reached index value ∈ replies
  /-- The flag, that of the storage, and the storage agree. -/
  agrees : ∀ index,
    (table.singletons index).ready = (table.singletons index).cell.initialized ∧
      (table.singletons index).cell.initialized = (table.content index).isSome
  history : History deeds replies table
  follows : ∀ act, table.Follows act
  /-- After a call, all locks are held or free as they were before it. -/
  held_eq : ∀ act store reply next after, (∀ lock state, act ≠ .others lock state) →
    table.act act store = ((reply, next), after) →
    ∀ lock, Lockable.held (next.locks lock) = Lockable.held (table.locks lock)

theorem History.accounted {deeds : List settings.Deed} {replies : List (Reply α)}
    (h : History deeds replies table) : Accounted deeds replies table := by
  refine ⟨?_, ?_, h, h.sound.follows, ?_⟩
  · intro index
    rw [h.sound index, ready_keeping, Option.isSome_iff_exists]
    constructor
    · rintro ⟨value, hheld⟩
      exact ⟨some value, h.reached index value hheld⟩
    · rintro ⟨value, hmem⟩
      obtain ⟨hsome, hheld⟩ := h.same index value hmem
      rw [hheld]
      exact Option.isSome_iff_exists.1 hsome
  · intro index
    rw [h.sound index, ready_keeping, cell_keeping]
    exact ⟨rfl, rfl⟩
  · intro act store reply next after hcall hact
    obtain ⟨deeds, reply', next', ⟨after', hdoes, -⟩, hturn⟩ := h.sound.follows act store
    obtain ⟨hsame, -⟩ := Prod.mk.inj (hact.symm.trans hdoes)
    obtain ⟨-, rfl⟩ := Prod.mk.inj hsame
    exact hturn.held_eq hcall

/-- However singletons share locks, whatever is asked of them and whichever initializers fail,
each of them builds at most one value, keeps it for good, and gives its lock back. -/
theorem singletons_accounted (settings : Settings σ α) (locks : (lock : Nat) → σ lock)
    (acts : List (Act σ)) (store : Store) :
    ∃ deeds replies table,
      ((settings.fresh locks).run acts).Does settings.Done store deeds (replies, table) ∧
      Accounted deeds replies table := by
  obtain ⟨deeds, replies, table, hrun, hhistory⟩ :=
    (History.fresh settings locks).run acts store
  exact ⟨deeds, replies, table, hrun, hhistory.accounted⟩

end Table
end Singleton
end Freehold
