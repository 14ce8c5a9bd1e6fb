import Freehold.Element.Nest
import Freehold.Proofs.Placing.Entrances
import Freehold.Proofs.Placing.Owners

/-!
# What nested owners own

A vector owns its buffer and all that its elements own, and a unique owner has its block
and what the value owns.  So what a nested owner owns follows by recursion, and destroying
it gives up exactly that, from the inside to the outside.

The buffer of a vector is known by the layout that is computed from the capacity.  That
this is a layout at all is owed to the memory in which the buffer lies.
-/

namespace Freehold

/-! ## Vectors -/

namespace Vec

variable {α β : Type} {element : Element α} {owns : α → Assets}

/-- The block of a vector, if it has one. -/
def buffered (element : Element α) (vec : Vec α) : Assets :=
  if element.layout.size = 0 ∨ vec.capacity = 0 then 0
  else {.block vec.buffer ⟨element.layout.size * vec.capacity, element.layout.align⟩}

def assets (element : Element α) (owns : α → Assets) (vec : Vec α) : Assets :=
  vec.buffered element + (vec.toList.map owns).sum

theorem toList_append (vec : Vec α) (value : α) :
    (vec.append value).toList = vec.toList ++ [value] := by
  have hearlier : ∀ index ∈ List.range vec.length,
      (vec.slots.write vec.length value).read index = vec.slots.read index := fun index hmem =>
    Slots.read_write_of_ne vec.slots value (Nat.ne_of_lt (List.mem_range.1 hmem))
  show Slots.values (vec.slots.write vec.length value) (vec.length + 1) = _
  unfold toList Slots.values
  rw [List.range_succ, List.filterMap_append, List.filterMap_congr hearlier]
  simp

theorem assets_append (vec : Vec α) (value : α) :
    (vec.append value).assets element owns = owns value + vec.assets element owns := by
  have hbuffer : (vec.append value).buffered element = vec.buffered element := rfl
  unfold assets
  rw [toList_append, hbuffer, List.map_append, List.sum_append]
  simp [add_comm, add_left_comm]

theorem toList_of_length (vec : Vec α) (h : vec.length = 0) : vec.toList = [] := by
  unfold toList
  rw [h]
  rfl

theorem destroyAll_manages (hdestroy : GivesUp element.destroy owns) (values : List α) :
    (element.destroyAll values).Manages (values.map owns).sum (fun _ => 0) := by
  induction values with
  | nil => exact Effect.manages_pure rfl
  | cons value rest ih =>
    have hfirst := (hdestroy value).frame (rest.map owns).sum
    rw [zero_add] at hfirst
    simp only [List.map_cons, List.sum_cons]
    exact hfirst.bind fun _ => ih

theorem free_manages (vec : Vec α) :
    Effect.Manages
      (match vec.bufferLayout? element with
        | none => pure ()
        | some held => Allocator.deallocate vec.buffer held)
      (vec.buffered element) (fun _ => 0) := by
  by_cases hnone : element.layout.size = 0 ∨ vec.capacity = 0
  · simp only [bufferLayout?, buffered, if_pos hnone]
    exact Effect.manages_pure rfl
  · intro store regions others hlodged
    simp only [buffered, if_neg hnone] at hlodged ⊢
    have hlayout : vec.bufferLayout? element =
        some ⟨element.layout.size * vec.capacity, element.layout.align⟩ := by
      unfold bufferLayout?
      rw [if_neg hnone]
      exact Layout.of?_eq_some_iff.2 ⟨hlodged.valid, rfl⟩
    rw [hlayout]
    exact Allocator.manages_deallocate vec.buffer _ store regions others hlodged

theorem drop_givesUp (hdestroy : GivesUp element.destroy owns) :
    GivesUp (drop element) (assets element owns) := by
  intro vec
  have helements := (destroyAll_manages hdestroy vec.toList).frame (vec.buffered element)
  rw [zero_add, add_comm] at helements
  exact helements.bind fun _ => vec.free_manages

theorem assets_empty (element : Element α) : (empty element).assets element owns = 0 := by
  have hnone : element.layout.size = 0 ∨ (empty element).capacity = 0 := by
    by_cases hzero : element.layout.size = 0
    · exact Or.inl hzero
    · exact Or.inr (if_neg hzero)
  unfold assets buffered
  rw [if_pos hnone, toList_of_length _ rfl]
  rfl

/-- The room that a vector has made for so many elements. -/
structure Ready (element : Element α) (count : Nat) (vec : Vec α) : Prop where
  length_eq : vec.length = 0
  room : count ≤ vec.capacity
  /-- Nothing is asked for without need. -/
  exact : element.layout.size ≠ 0 → count = 0 → vec.capacity = 0

variable {count : Nat}

/-- A block that is large enough for some elements becomes the buffer. -/
theorem adopt_ready {block : Block} (hsized : element.layout.size ≠ 0) (hcount : count ≠ 0)
    (hsize : element.layout.size * count ≤ block.size) :
    ((empty element).adopt element block).Ready element count where
  length_eq := rfl
  room := by
    show count ≤ block.size / element.layout.size
    rw [Nat.le_div_iff_mul_le (Nat.pos_of_ne_zero hsized), Nat.mul_comm]
    exact hsize
  exact _ hzero := absurd hzero hcount

/-- A vector of elements without a size has room for as many as a word can count. -/
theorem sized_of_more (hword : count < Word.limit) (hmore : ¬ count ≤ (empty element).capacity) :
    element.layout.size ≠ 0 ∧ count ≠ 0 := by
  constructor
  · intro hzero
    have hall : (empty element).capacity = Word.greatest := if_pos hzero
    unfold Word.greatest at hall
    omega
  · omega

theorem reserve_yields (hword : count < Word.limit) :
    ((empty element).reserve element count).Yields (Ready element count) := by
  unfold reserve
  split
  · rename_i hroom
    refine Attempt.yields_pure ⟨rfl, hroom, fun hsized _ => ?_⟩
    exact if_neg hsized
  · rename_i hmore
    obtain ⟨hsized, hcount⟩ := sized_of_more hword hmore
    have hnone : (empty element).bufferLayout? element = none := if_pos (Or.inr (if_neg hsized))
    split
    · exact Attempt.yields_throw _ _
    · rename_i wanted hwanted
      obtain ⟨-, rfl⟩ := Layout.of?_eq_some_iff.1 hwanted
      rw [hnone]
      intro store vec after hrun
      obtain ⟨block, middle, hgranted, hadopted⟩ := Attempt.bind_ok hrun
      obtain rfl := Except.ok.inj (Prod.mk.inj hadopted).1
      have hfulfils := Allocator.allocate_fulfils
        ⟨element.layout.size * count, element.layout.align⟩ store
      rw [hgranted] at hfulfils
      exact adopt_ready hsized hcount hfulfils

theorem reserve_manages (hword : count < Word.limit) :
    ((empty element).reserve element count).Manages 0 (assets element owns) 0 := by
  unfold reserve
  split
  · exact Attempt.manages_pure (assets_empty element).symm
  · rename_i hmore
    obtain ⟨hsized, hcount⟩ := sized_of_more hword hmore
    have hnone : (empty element).bufferLayout? element = none := if_pos (Or.inr (if_neg hsized))
    split
    · exact Attempt.manages_throw _ rfl
    · rename_i wanted hwanted
      obtain ⟨hvalid, rfl⟩ := Layout.of?_eq_some_iff.1 hwanted
      rw [hnone]
      -- All elements for which the block has room, not only those that were asked for.
      have hgranted := Allocator.manages_allocate hvalid
        (fun block => element.layout.size * (block.size / element.layout.size))
        fun block hsize => by
          have hready := (adopt_ready hsized hcount hsize).room
          exact ⟨Nat.mul_le_mul_left _ hready, Nat.mul_div_le _ _⟩
      refine hgranted.bind_yielded fun store block after hrun => ?_
      have hfulfils := Allocator.allocate_fulfils
        ⟨element.layout.size * count, element.layout.align⟩ store
      rw [hrun] at hfulfils
      have hroom := (adopt_ready hsized hcount hfulfils).room
      have hfilled : ¬ (element.layout.size = 0 ∨
          ((empty element).adopt element block).capacity = 0) := by omega
      refine Attempt.manages_pure ?_
      unfold assets buffered
      rw [if_neg hfilled, toList_of_length _ rfl]
      exact (add_zero _).symm

/-! Copies, and vectors of values that are built one by one. -/

theorem copyAll_manages {copier : Copier α}
    (hdestroy : GivesUp element.destroy owns)
    {values : List α}
    (hcopier : ∀ value ∈ values, ∀ spot, (copier.cloneAt spot value).Manages 0 owns 0)
    (copy : Vec α) :
    (copyAll element copier copy values).Manages (copy.assets element owns)
      (assets element owns) 0 := by
  induction values generalizing copy with
  | nil => exact Attempt.manages_pure rfl
  | cons value rest ih =>
    have hfresh := (hcopier value List.mem_cons_self (.slot copy.buffer copy.length)).frame
      (copy.assets element owns)
    rw [zero_add] at hfresh
    refine (hfresh.undoing (drop_givesUp hdestroy copy)).bind fun fresh => ?_
    rw [← assets_append]
    exact ih (fun other hmem => hcopier other (List.mem_cons_of_mem value hmem))
      (copy.append fresh)

theorem clone_manages {copier : Copier α}
    (hdestroy : GivesUp element.destroy owns)
    {vec : Vec α} (hword : vec.length < Word.limit)
    (hcopier : ∀ value ∈ vec.toList, ∀ spot, (copier.cloneAt spot value).Manages 0 owns 0) :
    (clone element copier vec).Manages 0 (assets element owns) 0 :=
  (reserve_manages hword).bind fun copy => copyAll_manages hdestroy hcopier copy

/-- There is no need to grow for an element for which there is room. -/
theorem push_of_room {vec : Vec α} (hroom : vec.length < vec.capacity) (value : α) :
    vec.push element value = pure (vec.append value) := by
  unfold push growForOne
  rw [if_pos hroom, Attempt.undoing_pure, pure_bind]

/-- A vector with room is filled like a copy. -/
theorem pushAll_cons {make : β → Attempt α} {vec : Vec α} (hroom : vec.length < vec.capacity)
    (args : β) (rest : List β) :
    pushAll element make vec (args :: rest) =
      (make args).undoing (vec.drop element) >>= fun value =>
        pushAll element make (vec.append value) rest := by
  simp only [pushAll, push_of_room hroom, Attempt.undoing_bind, Attempt.undoing_pure, bind_assoc,
    pure_bind]

theorem pushAll_manages {make : β → Attempt α} (hdestroy : GivesUp element.destroy owns)
    {all : List β} (hmake : ∀ args ∈ all, (make args).Manages 0 owns 0) (vec : Vec α)
    (hroom : vec.length + all.length ≤ vec.capacity) :
    (pushAll element make vec all).Manages (vec.assets element owns) (assets element owns) 0 := by
  induction all generalizing vec with
  | nil => exact Attempt.manages_pure rfl
  | cons args rest ih =>
    rw [List.length_cons] at hroom
    rw [pushAll_cons (by omega)]
    have hmade := (hmake args List.mem_cons_self).frame (vec.assets element owns)
    rw [zero_add] at hmade
    refine (hmade.undoing (drop_givesUp hdestroy vec)).bind fun value => ?_
    rw [← assets_append]
    refine ih (fun other hmem => hmake other (List.mem_cons_of_mem args hmem)) (vec.append value) ?_
    show vec.length + 1 + rest.length ≤ vec.capacity
    omega

theorem ofArguments_manages {make : β → Attempt α}
    (hdestroy : GivesUp element.destroy owns)
    {all : List β} (hmake : ∀ args ∈ all, (make args).Manages 0 owns 0)
    (hword : all.length < Word.limit) :
    (ofArguments element make all).Manages 0 (assets element owns) 0 := by
  have hreserved : ((empty element).reserve element all.length).Manages 0
      (assets element owns) 0 := reserve_manages hword
  refine hreserved.bind_yielded fun store vec after hrun => ?_
  have hready := reserve_yields hword store vec after hrun
  refine pushAll_manages hdestroy hmake vec ?_
  rw [hready.length_eq, Nat.zero_add]
  exact hready.room

/-! Vectors that hold as many values as they say. -/

theorem length_toList_append {vec : Vec α} (h : vec.toList.length = vec.length) (value : α) :
    (vec.append value).toList.length = (vec.append value).length := by
  rw [toList_append, List.length_append, h]
  rfl

theorem pushAll_yields {make : β → Attempt α} {good : α → Prop} {all : List β}
    (hmake : ∀ args ∈ all, (make args).Yields good) (vec : Vec α)
    (hroom : vec.length + all.length ≤ vec.capacity) (hlength : vec.toList.length = vec.length)
    (hgood : ∀ value ∈ vec.toList, good value) :
    (pushAll element make vec all).Yields fun made =>
      made.toList.length = made.length ∧ made.length = vec.length + all.length ∧
        ∀ value ∈ made.toList, good value := by
  induction all generalizing vec with
  | nil => exact Attempt.yields_pure ⟨hlength, rfl, hgood⟩
  | cons args rest ih =>
    rw [List.length_cons] at hroom
    rw [pushAll_cons (by omega)]
    have hmade := hmake args List.mem_cons_self
    refine (hmade.undoing (vec.drop element)).bind fun value hvalue => ?_
    have hall : ∀ other ∈ (vec.append value).toList, good other := by
      rw [toList_append]
      simpa [or_imp, forall_and] using ⟨hgood, hvalue⟩
    have hlonger : (vec.append value).length = vec.length + 1 := rfl
    have hlast : (vec.append value).length + rest.length ≤ (vec.append value).capacity := by
      show vec.length + 1 + rest.length ≤ vec.capacity
      omega
    intro store made after hrun
    obtain ⟨hlength', hcount, hvalues⟩ :=
      ih (fun other hmem => hmake other (List.mem_cons_of_mem args hmem)) (vec.append value) hlast
        (length_toList_append hlength value) hall store made after hrun
    refine ⟨hlength', ?_, hvalues⟩
    rw [hcount, hlonger, List.length_cons]
    omega

theorem ofArguments_yields {make : β → Attempt α} {good : α → Prop} {all : List β}
    (hmake : ∀ args ∈ all, (make args).Yields good) (hword : all.length < Word.limit) :
    (ofArguments element make all).Yields fun made =>
      made.toList.length = made.length ∧ made.length = all.length ∧
        ∀ value ∈ made.toList, good value := by
  refine (reserve_yields hword).bind fun room hready => ?_
  have hnone : room.toList = [] := toList_of_length room hready.length_eq
  have hroom : room.length + all.length ≤ room.capacity := by
    rw [hready.length_eq, Nat.zero_add]
    exact hready.room
  intro store made after hrun
  have hmade := pushAll_yields hmake room hroom (by simp [hnone, hready.length_eq])
    (by simp [hnone]) store made after hrun
  rwa [hready.length_eq, Nat.zero_add] at hmade

end Vec

/-! ## Unique owners -/

namespace Unique

variable {α β : Type} {element : Element α} {owns : α → Assets}

theorem drop_givesUp (hdestroy : GivesUp element.destroy owns) :
    GivesUp (drop element) (assets element owns) := by
  intro owner
  have hvalue := (hdestroy owner.value).frame {Asset.block owner.address element.layout}
  rw [zero_add, add_comm] at hvalue
  exact hvalue.bind fun _ => Allocator.manages_deallocate owner.address element.layout

theorem place_manages (hvalid : element.layout.Valid) {build : Spot → Attempt α}
    (hbuild : ∀ spot, (build spot).Manages 0 owns 0) :
    (place element build).Manages 0 (assets element owns) 0 := by
  have hgranted : (Allocator.allocate element.layout).Manages 0
      (fun block => {.block block.address element.layout}) 0 :=
    (Allocator.turns_allocate element.layout).manages (Allocator.spends_allocate hvalid)
  refine (hgranted.undoing (Effect.manages_pure rfl)).bind fun block => ?_
  have hbuilt := (hbuild (.block block.address)).frame {Asset.block block.address element.layout}
  rw [zero_add] at hbuilt
  refine (hbuilt.undoing (Allocator.manages_deallocate block.address element.layout)).bind
    fun value => Attempt.manages_pure ?_
  exact add_comm _ _

theorem place_yields (element : Element α) {build : Spot → Attempt α} {good : α → Prop}
    (hbuild : ∀ spot, (build spot).Yields good) :
    (place element build).Yields fun owner => good owner.value := by
  refine .after fun block => ?_
  refine ((hbuild (.block block.address)).undoing _).bind fun value hvalue => ?_
  exact Attempt.yields_pure hvalue

theorem construct_manages (hvalid : element.layout.Valid) {builder : Builder β α} {args : β}
    (hbuilder : ∀ spot, (builder.constructAt spot args).Manages 0 owns 0) :
    (construct element builder args).Manages 0 (assets element owns) 0 := by
  unfold construct
  exact place_manages hvalid hbuilder

theorem clone_manages (hvalid : element.layout.Valid) {copier : Copier α} {owner : Unique α}
    (hcopier : ∀ spot, (copier.cloneAt spot owner.value).Manages 0 owns 0) :
    (clone element copier owner).Manages 0 (assets element owns) 0 := by
  unfold clone
  exact place_manages hvalid hcopier

end Unique

/-! ## Nests -/

namespace Nest

/-- What a nested owner owns. -/
def owns : (nest : Nest) → nest.Carrier → Assets
  | leaf type => type.owns
  | vec inner => Vec.assets inner.element inner.owns
  | unique inner => Unique.assets inner.element inner.owns

/-- All layouts of the leaf type are valid. -/
def Proper : Nest → Prop
  | leaf type => type.Proper
  | vec inner | unique inner => inner.Proper

theorem layout_valid : (nest : Nest) → nest.Proper → nest.element.layout.Valid
  | leaf _, hproper => hproper.layout
  | vec _, _ => (by decide : Layout.Valid ⟨32, 8⟩)
  | unique _, _ => (by decide : Layout.Valid ⟨16, 8⟩)

theorem destroy_givesUp {nest : Nest} (hproper : nest.Proper) :
    GivesUp nest.element.destroy nest.owns := by
  induction nest with
  | leaf type => exact type.destroy_givesUp hproper
  | vec inner ih => exact Vec.drop_givesUp (ih hproper)
  | unique inner ih => exact Unique.drop_givesUp (ih hproper)

/-- No list of arguments is longer than a word can count. -/
def Fits : (nest : Nest) → nest.Args → Prop
  | leaf _, _ => True
  | vec inner, (all : List inner.Args) => all.length < Word.limit ∧ ∀ args ∈ all, inner.Fits args
  | unique inner, args => inner.Fits args

theorem make_manages {nest : Nest} (hproper : nest.Proper) {args : nest.Args}
    (hfits : nest.Fits args) :
    (nest.make args).Manages 0 nest.owns 0 ∧
      ∀ spot, (nest.builder.constructAt spot args).Manages 0 nest.owns 0 := by
  induction nest with
  | leaf type =>
    exact ⟨type.make_manages hproper args, fun spot => type.builder_manages hproper spot args⟩
  | vec inner ih =>
    have hmade := Vec.ofArguments_manages (inner.destroy_givesUp hproper)
      (fun other hmem => (ih hproper (hfits.2 other hmem)).1) hfits.1
    exact ⟨hmade, fun _ => hmade⟩
  | unique inner ih =>
    have hmade := Unique.construct_manages (inner.layout_valid hproper) (ih hproper hfits).2
    exact ⟨hmade, fun _ => hmade⟩

/-- All vectors hold as many values as they say, and no more than a word can count. -/
def Whole : (nest : Nest) → nest.Carrier → Prop
  | leaf _, _ => True
  | vec inner, (values : Vec inner.Carrier) =>
    values.toList.length = values.length ∧ values.length < Word.limit ∧
      ∀ value ∈ values.toList, inner.Whole value
  | unique inner, (owner : Unique inner.Carrier) => inner.Whole owner.value

theorem make_yields {nest : Nest} {args : nest.Args} (hfits : nest.Fits args) :
    (nest.make args).Yields nest.Whole ∧
      ∀ spot, (nest.builder.constructAt spot args).Yields nest.Whole := by
  induction nest with
  | leaf type => exact ⟨fun _ _ _ _ => trivial, fun _ _ _ _ _ => trivial⟩
  | vec inner ih =>
    have hmade : (make (vec inner) args).Yields (vec inner).Whole := by
      intro store made after hrun
      obtain ⟨hlength, hcount, hvalues⟩ := Vec.ofArguments_yields
        (fun other hmem => (ih (hfits.2 other hmem)).1) hfits.1 store made after hrun
      exact ⟨hlength, hcount ▸ hfits.1, hvalues⟩
    exact ⟨hmade, fun _ => hmade⟩
  | unique inner ih =>
    have hmade : (make (unique inner) args).Yields (unique inner).Whole :=
      Unique.place_yields inner.element (ih hfits).2
    exact ⟨hmade, fun _ => hmade⟩

theorem copier_manages {nest : Nest} (hproper : nest.Proper) {source : nest.Carrier}
    (hwhole : nest.Whole source) (spot : Spot) :
    (nest.copier.cloneAt spot source).Manages 0 nest.owns 0 := by
  induction nest generalizing spot with
  | leaf type => exact type.copier_manages hproper spot source
  | vec inner ih =>
    exact Vec.clone_manages (inner.destroy_givesUp hproper) hwhole.2.1
      fun value hmem => ih hproper (hwhole.2.2 value hmem)
  | unique inner ih =>
    exact Unique.clone_manages (inner.layout_valid hproper) (ih hproper hwhole)

theorem produce_eq_passing (nest : Nest) (args : nest.Args) :
    nest.builder.produce args = nest.builder.constructAt .passing args := by
  cases nest with
  | leaf type => exact type.construction.produce_eq_passing type.element.toMovable args
  | vec inner | unique inner => rfl

theorem clone_eq_passing (nest : Nest) (source : nest.Carrier) :
    nest.copier.clone source = nest.copier.cloneAt .passing source := by
  cases nest with
  | leaf type => exact type.cloning.clone_eq_passing source
  | vec inner | unique inner => rfl

end Nest
end Freehold
