import Freehold.Memory.Backend

/-!
# Blocks in use

A user of a memory holds the blocks that it was given and has not given back.  Of a
block it knows the alignment and the largest sizes that were asked for and recorded
so far; any size between the two fits the block.  A demand is one call of the
interface, made on a block that is held and with a size that fits it.  A demand that
is refused changes nothing.
-/

namespace Freehold

structure Holding where
  address : Nat
  align : Nat
  /-- The largest size that was asked for. -/
  requested : Nat
  /-- The largest size that was answered. -/
  recorded : Nat
  deriving DecidableEq

namespace Holding

def of (layout : Layout) (block : Block) : Holding :=
  { address := block.address
    align := layout.align
    requested := layout.size
    recorded := block.size }

def layout (holding : Holding) (size : Nat) : Layout := ⟨size, holding.align⟩

def Fits (holding : Holding) (size : Nat) : Prop :=
  holding.requested ≤ size ∧ size ≤ holding.recorded

instance (holding : Holding) (size : Nat) : Decidable (holding.Fits size) :=
  inferInstanceAs (Decidable (_ ∧ _))

/-- The holding after a request for another size was answered. -/
def resized (holding : Holding) (wanted : Nat) (answer : Block) : Holding :=
  { address := answer.address
    align := holding.align
    requested := max holding.requested wanted
    recorded := max holding.recorded answer.size }

end Holding

inductive Demand where
  | addRegion (region : Span)
  | allocate (layout : Layout)
  | allocateZeroed (layout : Layout)
  | expand (holding : Holding) (size wanted : Nat)
  | reallocate (holding : Holding) (size wanted : Nat)
  | deallocate (holding : Holding) (size : Nat)
  deriving DecidableEq

structure AllocatorState where
  memory : Memory
  held : List Holding := []
  regions : List Span := []

namespace AllocatorState

def received (state : AllocatorState) (layout : Layout) :
    Except Refusal (Block × Memory) → AllocatorState
  | .error _ => state
  | .ok (block, memory) =>
    { state with memory := memory, held := .of layout block :: state.held }

def resized (state : AllocatorState) (holding : Holding) (wanted : Nat) :
    Except Refusal (Block × Memory) → AllocatorState
  | .error _ => state
  | .ok (answer, memory) =>
    { state with
      memory := memory
      held := holding.resized wanted answer :: state.held.erase holding }

def perform (state : AllocatorState) : Demand → AllocatorState
  | .addRegion region =>
    { state with
      memory := state.memory.addRegion region
      regions := region :: state.regions }
  | .allocate layout => state.received layout (state.memory.allocate layout)
  | .allocateZeroed layout => state.received layout (state.memory.allocateZeroed layout)
  | .expand holding size wanted =>
    state.resized holding wanted
      ((state.memory.expand holding.address (holding.layout size) wanted).map
        fun grown => (⟨holding.address, grown.1⟩, grown.2))
  | .reallocate holding size wanted =>
    state.resized holding wanted
      (state.memory.reallocate holding.address (holding.layout size) wanted)
  | .deallocate holding size =>
    { state with
      memory := state.memory.deallocate holding.address (holding.layout size)
      held := state.held.erase holding }

/-- A region is apart from the earlier ones, and a call is made on a block that is held
with a size that fits it.  The address of an empty block lies in no region. -/
def Allows (state : AllocatorState) : Demand → Prop
  | .addRegion region =>
    (∀ other ∈ state.regions, Span.Apart other region) ∧
      ∀ holding ∈ state.held, holding.recorded = 0 → holding.address ∉ region
  | .allocate layout | .allocateZeroed layout =>
    layout.Valid ∧ (layout.size = 0 → ∀ region ∈ state.regions, layout.align ∉ region)
  | .expand holding size _ | .reallocate holding size _ | .deallocate holding size =>
    holding ∈ state.held ∧ holding.Fits size

instance (state : AllocatorState) : (demand : Demand) → Decidable (state.Allows demand)
  | .addRegion _ | .allocate _ | .allocateZeroed _ => inferInstanceAs (Decidable (_ ∧ _))
  | .expand _ _ _ | .reallocate _ _ _ | .deallocate _ _ =>
    inferInstanceAs (Decidable (_ ∧ _))

def run (state : AllocatorState) (demands : List Demand) : AllocatorState :=
  demands.foldl perform state

/-- Every demand of the run is allowed when its turn comes. -/
def Lawful (state : AllocatorState) : List Demand → Prop
  | [] => True
  | demand :: later => state.Allows demand ∧ (state.perform demand).Lawful later

instance decidableLawful (state : AllocatorState) :
    (demands : List Demand) → Decidable (state.Lawful demands)
  | [] => .isTrue trivial
  | demand :: later =>
    have := decidableLawful (state.perform demand) later
    inferInstanceAs (Decidable (_ ∧ _))

/-- What one allowed demand preserves, a lawful run preserves. -/
theorem run_induction (Good : AllocatorState → Prop)
    (hstep : ∀ state demand, Good state → state.Allows demand → Good (state.perform demand))
    {state : AllocatorState} (hgood : Good state) {demands : List Demand}
    (hlawful : state.Lawful demands) : Good (state.run demands) := by
  induction demands generalizing state with
  | nil => exact hgood
  | cons demand later ih =>
    obtain ⟨hallowed, hlater⟩ := hlawful
    exact ih (hstep state demand hgood hallowed) hlater

end AllocatorState
end Freehold
