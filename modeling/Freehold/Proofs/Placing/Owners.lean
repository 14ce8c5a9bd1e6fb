import Freehold.Intrusive
import Freehold.Proofs.Placing.Holding
import Freehold.Shared.Group
import Freehold.Staged

/-!
# Owners and what they own

An owner of a value owns the block of the value, what else it needs to keep the value, and
everything that the value owns.  Each way of making an owner has the form of doing
something while a block is held.
-/

namespace Freehold

/-! ## Unique owners -/

namespace Unique

variable {α β : Type} {element : Element α} {owns : α → Assets}

def assets (element : Element α) (owns : α → Assets) (owner : Unique α) : Assets :=
  {.block owner.address element.layout} + owns owner.value

theorem place_eq_holding (element : Element α) (build : Spot → Attempt α)
    (unused : Effect Unit) :
    place element build unused =
      (Attempt.holding element.layout unused fun block => build (.block block.address)) >>=
        fun held => pure ⟨held.1.address, held.2⟩ := by
  unfold place Attempt.holding
  simp

theorem new_eq_holding (element : Element α) (value : α) :
    new element value =
      (Attempt.holding element.layout (element.destroy value) fun _ => pure value) >>=
        fun held => pure ⟨held.1.address, held.2⟩ := by
  unfold new Attempt.holding
  simp [Attempt.undoing_pure]

def steps {γ : Type} (layout : Layout) (source : Spot → Attempt γ) : Attempt Unit := do
  let block ← Allocator.allocate layout
  let _ ← source (.block block.address)
  pure ()

theorem place_places (element : Element α) {build : Spot → Attempt α} {unused : Effect Unit}
    {given : Assets}
    (hunused : unused.Turns given (fun _ => 0))
    (hbuild : ∀ spot, (build spot).Turns given owns 0) :
    (place element build unused).Places (some element.layout) given (assets element owns) := by
  rw [place_eq_holding]
  have hheld := Attempt.holding_places element.layout hunused
    fun block => hbuild (.block block.address)
  apply hheld.wrap
  intro held
  rfl

theorem new_places (hdestroy : Disposes element.destroy owns) (value : α) :
    (new element value).Places (some element.layout) (owns value) (assets element owns) := by
  rw [new_eq_holding]
  have hheld := Attempt.holding_places element.layout (hdestroy value)
    fun _ => Attempt.turns_pure_owns value
  apply hheld.wrap
  intro held
  rfl

theorem holding_covers_steps {γ δ : Type} {layout : Layout} {unused : Effect Unit}
    {body : Block → Attempt δ} {source : Spot → Attempt γ}
    (hbody : ∀ block, (body block).Covers (source (.block block.address))) :
    (Attempt.holding layout unused body).Covers (steps layout source) := by
  apply Attempt.holding_covers
  intro block
  exact (hbody block).forget

theorem place_covers {γ : Type} (element : Element α) {build : Spot → Attempt α}
    {source : Spot → Attempt γ} (hbuild : ∀ spot, (build spot).Covers (source spot))
    (unused : Effect Unit) :
    (place element build unused).Covers (steps element.layout source) := by
  rw [place_eq_holding]
  apply Attempt.Covers.wrap
  exact holding_covers_steps fun block => hbuild (.block block.address)

theorem new_covers (value : α) :
    (new element value).Covers (steps element.layout fun _ => pure ()) := by
  rw [new_eq_holding]
  apply Attempt.Covers.wrap
  exact holding_covers_steps fun _ => .pure value ()

end Unique

/-! ## Groups of shared ownership -/

def Assets.blockAt (address : Nat) : Option Layout → Assets
  | none => 0
  | some layout => {.block address layout}

def Assets.ofOption {α : Type} (owns : α → Assets) : Option α → Assets
  | none => 0
  | some value => owns value

/-- What the members of a group own together: the control block, the block of the value
and the value. -/
def Group.assets {α : Type} (owns : α → Assets) (group : Group α) : Assets :=
  {.block group.block group.blockLayout} + Assets.blockAt group.place group.own +
    Assets.ofOption owns group.value

namespace Groups

variable {α : Type} {type : SharedType α} {owns : α → Assets} {given : Assets}

def assetsAt (owns : α → Assets) (groups : Groups α) (number : Nat) : Assets :=
  Assets.ofOption (Group.assets owns) (groups.find? number)

theorem assetsAt_enroll (groups : Groups α) (group : Group α) :
    assetsAt owns (groups.enroll group).2 (groups.enroll group).1 = group.assets owns := by
  unfold assetsAt
  rw [Roster.find?_enroll_self]
  rfl

theorem assetsAt_link (hlink : ∀ value, owns (type.link value) = owns value)
    (groups : Groups α) (number : Nat) :
    (groups.link type number).assetsAt owns number = groups.assetsAt owns number := by
  unfold link
  cases hfind : groups.find? number with
  | none => rfl
  | some group =>
    dsimp only
    unfold assetsAt
    rw [Roster.find?_set_self _ (by simp [hfind]), hfind]
    cases hvalue : group.value with
    | none => simp [Assets.ofOption, Group.assets, hvalue]
    | some value => simp [Assets.ofOption, Group.assets, hvalue, hlink]

theorem separate_eq_holding (type : SharedType α) (groups : Groups α) (layout : Layout)
    (build : Spot → Attempt α) (unused : Effect Unit) :
    groups.separate type layout build unused =
      (Attempt.holding layout unused fun place => do
        let value ← build (.block place.address)
        let control ←
          Attempt.undoing (Allocator.allocate controlLayout) (type.destroy .unowned value)
        pure (value, control)) >>= fun held => pure (groups.enroll
          { block := held.2.2.address
            blockLayout := controlLayout
            place := held.1.address
            own := some layout
            value := some held.2.1 }) := by
  unfold separate Attempt.holding
  simp [Attempt.undoing_bind, Attempt.undoing_then, Attempt.undoing_map]

theorem combined_eq_holding (groups : Groups α) (layout : Layout)
    (build : Spot → Attempt α) (unused : Effect Unit) :
    groups.combined layout build unused =
      (Attempt.holding (combinedLayout layout) unused fun block =>
        build (.block (block.address + valueOffset layout))) >>= fun held =>
          pure (groups.enroll
            { block := held.1.address
              blockLayout := combinedLayout layout
              place := held.1.address + valueOffset layout
              own := none
              value := some held.2 }) := by
  unfold combined Attempt.holding
  simp

/-- The block in which a new group has its value. -/
def ownLayout (founding : Founding) (layout : Layout) : Layout :=
  if founding.combined then combinedLayout layout else layout

def steps {γ : Type} (founding : Founding) (layout : Layout) (source : Spot → Attempt γ) :
    Attempt Unit :=
  if founding.combined then do
    let block ← Allocator.allocate (combinedLayout layout)
    let _ ← source (.block (block.address + valueOffset layout))
    pure ()
  else do
    let place ← Allocator.allocate layout
    let _ ← source (.block place.address)
    let _ ← Allocator.allocate controlLayout
    pure ()

section Founding

variable {build : Spot → Attempt α} {unused : Effect Unit}

theorem combined_places (hunused : unused.Turns given (fun _ => 0))
    (hbuild : ∀ spot, (build spot).Turns given owns 0) (groups : Groups α) (layout : Layout) :
    (groups.combined layout build unused).Places (some (combinedLayout layout)) given
      (fun made => made.2.assetsAt owns made.1) := by
  rw [combined_eq_holding]
  have hheld := Attempt.holding_places (combinedLayout layout) hunused
    fun block => hbuild (.block (block.address + valueOffset layout))
  apply hheld.wrap
  intro held
  rw [assetsAt_enroll]
  simp [Group.assets, Assets.blockAt, Assets.ofOption]

/-- A value that has been built is destroyed when there is no control block for it. -/
theorem separate_places (hdestroy : Disposes (type.destroy .unowned) owns)
    (hunused : unused.Turns given (fun _ => 0))
    (hbuild : ∀ spot, (build spot).Turns given owns 0) (groups : Groups α) (layout : Layout) :
    (groups.separate type layout build unused).Places (some layout) given
      (fun made => made.2.assetsAt owns made.1) := by
  rw [separate_eq_holding]
  have hbody (place : Block) :
      Attempt.Turns
        (build (.block place.address) >>= fun value =>
          Attempt.undoing (Allocator.allocate controlLayout) (type.destroy .unowned value) >>=
            fun control => pure (value, control))
        given
        (fun made : α × Block => {.block made.2.address controlLayout} + owns made.1) 0 := by
    apply (hbuild (.block place.address)).bind
    intro value
    have hcontrol := (Allocator.turns_allocate controlLayout).frame (owns value)
    rw [zero_add] at hcontrol
    apply (hcontrol.undoing (hdestroy value)).bind
    intro control
    exact Attempt.turns_pure rfl
  have hheld := Attempt.holding_places layout hunused hbody
  apply hheld.wrap
  intro held
  rw [assetsAt_enroll]
  simp only [Group.assets, Assets.blockAt, Assets.ofOption]
  rw [add_left_comm, add_assoc]

theorem found_places (hdestroy : Disposes (type.destroy .unowned) owns)
    (hlink : ∀ value, owns (type.link value) = owns value)
    (hunused : unused.Turns given (fun _ => 0))
    (hbuild : ∀ spot, (build spot).Turns given owns 0) (groups : Groups α)
    (founding : Founding) (layout : Layout) :
    (groups.found type founding layout build unused).Places (some (ownLayout founding layout))
      given (fun made => made.2.assetsAt owns made.1) := by
  have hnew : Attempt.Places
      (if founding.combined then groups.combined layout build unused
        else groups.separate type layout build unused)
      (some (ownLayout founding layout)) given (fun made => made.2.assetsAt owns made.1) := by
    by_cases hcombined : founding.combined
    · simp only [ownLayout, if_pos hcombined]
      exact combined_places hunused hbuild groups layout
    · simp only [ownLayout, if_neg hcombined]
      exact separate_places hdestroy hunused hbuild groups layout
  unfold found
  by_cases hlinked : founding.linked
  · simp only [if_pos hlinked]
    apply hnew.wrap fun made => (made.1, made.2.link type made.1)
    intro made
    exact assetsAt_link hlink made.2 made.1
  · simp only [if_neg hlinked]
    exact hnew.wrap (fun made => (made.1, made.2)) fun made => rfl

theorem found_covers {γ : Type} {source : Spot → Attempt γ} (type : SharedType α)
    (hbuild : ∀ spot, (build spot).Covers (source spot)) (unused : Effect Unit)
    (groups : Groups α) (founding : Founding) (layout : Layout) :
    (groups.found type founding layout build unused).Covers (steps founding layout source) := by
  have hnew : Attempt.Covers
      (if founding.combined then groups.combined layout build unused
        else groups.separate type layout build unused)
      (steps founding layout source) := by
    by_cases hcombined : founding.combined
    · simp only [steps, if_pos hcombined]
      rw [combined_eq_holding]
      apply Attempt.Covers.wrap
      apply Attempt.holding_covers
      intro block
      exact (hbuild (.block (block.address + valueOffset layout))).forget
    · simp only [steps, if_neg hcombined]
      rw [separate_eq_holding]
      apply Attempt.Covers.wrap
      apply Attempt.holding_covers
      intro place
      apply (hbuild (.block place.address)).bind
      intro value other
      apply Attempt.Covers.undoing_bind
      intro control
      exact .pure (value, control) ()
  unfold found
  by_cases hlinked : founding.linked
  · simp only [if_pos hlinked]
    exact hnew.wrap fun made => (made.1, made.2.link type made.1)
  · simp only [if_neg hlinked]
    exact hnew.wrap fun made => (made.1, made.2)

end Founding
end Groups

/-! ## Counted values -/

/-- What the handles of a counted value own together: its block and the value. -/
def Counted.assets {α : Type} (owns : α → Assets) (counted : Counted α) : Assets :=
  Assets.blockAt counted.address counted.refs.owner + owns counted.value

namespace CountedValues

variable {α : Type} {type : CountedType α} {owns : α → Assets} {given : Assets}

def assetsAt (owns : α → Assets) (values : CountedValues α) (handle : Nat) : Assets :=
  Assets.ofOption (Counted.assets owns) (values.find? handle)

theorem assetsAt_adopt (values : CountedValues α) (address : Nat) (layout : Layout) (value : α) :
    assetsAt owns (values.adopt address layout value).2 (values.adopt address layout value).1 =
      {.block address layout} + owns value := by
  unfold assetsAt adopt
  rw [Roster.find?_enroll_self]
  rfl

/-- The layout of a block of at least so many bytes around a value. -/
def dynamicLayout? (type : CountedType α) (total : Nat) : Option Layout :=
  Layout.of? (max type.layout.size total) type.layout.align

theorem newDynamic_eq_holding {values : CountedValues α} {value : α} {total : Nat} {layout : Layout}
    (h : dynamicLayout? type total = some layout) :
    values.newDynamic type value total =
      (Attempt.holding layout (discard type value) fun _ => pure value) >>=
        fun held => pure (values.adopt held.1.address layout held.2) := by
  unfold dynamicLayout? at h
  unfold newDynamic Attempt.holding
  rw [h]
  simp [Attempt.undoing_map, Attempt.undoing_pure]

theorem construct_eq_holding (type : CountedType α) (values : CountedValues α)
    (build : Spot → Attempt α) (unused : Effect Unit) :
    values.construct type build unused =
      (Attempt.holding type.layout unused fun block => build (.block block.address)) >>=
        fun held => pure (values.adopt held.1.address type.layout held.2) := by
  unfold construct Attempt.holding
  simp

/-- A value that fits no layout is destroyed before any block is asked for. -/
theorem newDynamic_unasked {value : α} {total : Nat} (h : dynamicLayout? type total = none)
    (values : CountedValues α) (store : Store) :
    values.newDynamic type value total store =
      (.error .integerOverflow, (discard type value store).2) := by
  unfold dynamicLayout? at h
  unfold newDynamic
  rw [h, Attempt.undoing_apply]
  rfl

theorem newDynamic_places (hdestroy : Disposes (discard type) owns) (values : CountedValues α)
    (value : α) (total : Nat) :
    (values.newDynamic type value total).Places (dynamicLayout? type total) (owns value)
      (fun made => made.2.assetsAt owns made.1) := by
  cases hlayout : dynamicLayout? type total with
  | none =>
    intro store
    rw [newDynamic_unasked hlayout]
    obtain ⟨entries, htrace, hsettles⟩ := hdestroy value store
    exact .undone htrace (.unasked hsettles)
  | some layout =>
    rw [newDynamic_eq_holding hlayout]
    have hheld := Attempt.holding_places layout (hdestroy value)
      fun _ => Attempt.turns_pure_owns value
    apply hheld.wrap
    intro held
    exact assetsAt_adopt values held.1.address layout held.2

theorem construct_places (type : CountedType α) {build : Spot → Attempt α}
    {unused : Effect Unit} (hunused : unused.Turns given (fun _ => 0))
    (hbuild : ∀ spot, (build spot).Turns given owns 0) (values : CountedValues α) :
    (values.construct type build unused).Places (some type.layout) given
      (fun made => made.2.assetsAt owns made.1) := by
  rw [construct_eq_holding]
  have hheld := Attempt.holding_places type.layout hunused
    fun block => hbuild (.block block.address)
  apply hheld.wrap
  intro held
  exact assetsAt_adopt values held.1.address type.layout held.2

def dynamicSteps (type : CountedType α) (total : Nat) : Attempt Unit :=
  match dynamicLayout? type total with
  | none => throw .integerOverflow
  | some layout => Unique.steps layout fun _ => pure ()

theorem newDynamic_covers (values : CountedValues α) (value : α) (total : Nat) :
    (values.newDynamic type value total).Covers (dynamicSteps type total) := by
  unfold dynamicSteps
  cases hlayout : dynamicLayout? type total with
  | none =>
    intro store
    rw [newDynamic_unasked hlayout]
    exact .error .integerOverflow _ store
  | some layout =>
    rw [newDynamic_eq_holding hlayout]
    apply Attempt.Covers.wrap
    exact Unique.holding_covers_steps fun _ => .pure value ()

theorem construct_covers {γ : Type} (type : CountedType α) {build : Spot → Attempt α}
    {source : Spot → Attempt γ} (hbuild : ∀ spot, (build spot).Covers (source spot))
    (unused : Effect Unit) (values : CountedValues α) :
    (values.construct type build unused).Covers (Unique.steps type.layout source) := by
  rw [construct_eq_holding]
  apply Attempt.Covers.wrap
  exact Unique.holding_covers_steps fun block => hbuild (.block block.address)

end CountedValues

/-! ## Wrappers -/

namespace Staged

variable {α : Type} {element : Element α} {owns : α → Assets} {phases : Phases α}

def assets (element : Element α) (owns : α → Assets) : Staged α → Assets
  | inline cell | static cell => Assets.ofOption owns cell.content
  | heap owner => Assets.ofOption (Unique.assets element owns) owner

theorem init_heap_places (hdestroy : Disposes element.destroy owns)
    (hphases : phases.Careful owns 0) (spot : Spot) (owner : Option (Unique α)) :
    (init element phases spot (heap owner)).Places (some element.layout)
      ((heap owner).assets element owns) (assets element owns) := by
  cases owner with
  | some owner =>
    intro store
    exact .placed (.refl store _)
  | none =>
    have hplaced : (Unique.place element (phases.run element.toMovable)).Places
        (some element.layout) 0 (Unique.assets element owns) :=
      Unique.place_places element Effect.turns_idle fun spot =>
        Phases.run_turns hphases hdestroy spot
    exact hplaced.wrap (fun owner => heap (some owner)) fun owner => rfl

def heapSteps (element : Element α) (phases : Phases α) : Option (Unique α) → Attempt Unit
  | some _ => pure ()
  | none => Unique.steps element.layout phases.steps

theorem init_heap_covers (spot : Spot) (owner : Option (Unique α)) :
    (init element phases spot (heap owner)).Covers (heapSteps element phases owner) := by
  cases owner with
  | some owner => exact .pure (heap (some owner)) ()
  | none =>
    have hplaced : (Unique.place element (phases.run element.toMovable)).Covers
        (Unique.steps element.layout phases.steps) :=
      Unique.place_covers element (fun spot => Phases.run_covers element.toMovable phases spot) _
    exact hplaced.wrap fun owner => heap (some owner)

end Staged
end Freehold
