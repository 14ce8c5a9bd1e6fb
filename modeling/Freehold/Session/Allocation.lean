import Freehold.Session.Report

/-!
# Sessions with an allocator

The steps of these sessions call the allocator themselves.  A block is kept under
a name together with the layout that later calls pass for it and with the number
of leading bytes that are known to be written, which are the bytes a step may
read.
-/

namespace Freehold

structure Held where
  address : Nat
  layout : Layout
  written : Nat := 0
  deriving DecidableEq

structure Holdings where
  blocks : Shelf Held := {}
  regions : List Span := []
  arena : Option Span := none

inductive AllocationStep where
  | allocate (slot : String) (size align : Nat) (zeroed exact : Bool)
  | expand (slot : String) (wanted : Nat) (exact : Bool)
  | reallocate (slot : String) (wanted : Nat) (exact : Bool)
  | fill (slot : String) (byte : UInt8)
  | read (slot : String)
  | deallocate (slot : String)
  | advise (slot : String) (hint : Option UsageHint)
  | addRegion (region : Span)
  | reset
  | split (slot other : String) (cut : Nat)
  | unknown

namespace Holdings

def ofProvision (provision : Provision) : Holdings :=
  { regions := provision.regions, arena := provision.arena }

def told (holdings : Holdings) (align : Nat) (block : Block) : Shown :=
  .fields
    [("at", (Whereabouts.locate holdings.arena block.address block.size).shown),
      ("size", .count block.size),
      ("aligned", .flag (decide (align ∣ block.address)))]

def keep (holdings : Holdings) (slot : String) (held : Held) : Holdings :=
  { holdings with blocks := holdings.blocks.put slot held }

def withBlock (holdings : Holdings) (slot : String)
    (use : Held → Effect (Outcome × Holdings)) : Effect (Outcome × Holdings) :=
  match holdings.blocks.find? slot with
  | none => pure (.refused .noSuchSlot, holdings)
  | some held => use held

/-- The size that is remembered after growing: what was asked for or what was got. -/
def grownSize (held : Held) (wanted got : Nat) (exact : Bool) : Nat :=
  if exact && decide (held.layout.size < wanted) then wanted else got

def allocate (holdings : Holdings) (slot : String) (size align : Nat) (zeroed exact : Bool) :
    Effect (Outcome × Holdings) := do
  match Layout.of? size align with
  | none => pure (.refused .badLayout, holdings)
  | some layout =>
    if holdings.blocks.holds slot then pure (.refused .slotInUse, holdings)
    else
      let answer ←
        if zeroed then Allocator.consult (fun memory => memory.allocateZeroed layout)
        else Allocator.consult (fun memory => memory.allocate layout)
      match answer with
      | .error kind => pure (.failed kind, holdings)
      | .ok block =>
        let kept := if exact then size else block.size
        pure (.done (holdings.told align block),
          holdings.keep slot
            { address := block.address
              layout := ⟨kept, align⟩
              written := if zeroed then kept else 0 })

/-- An empty block of a stack arena has an address that belongs to nothing, and is
never grown. -/
def growsEmptyStackBlock (held : Held) (wanted : Nat) (memory : Memory) : Bool :=
  match memory.backend with
  | .stack _ => held.layout.size == 0 && decide (0 < wanted)
  | _ => false

def expand (holdings : Holdings) (slot : String) (wanted : Nat) (exact : Bool) :
    Effect (Outcome × Holdings) :=
  holdings.withBlock slot fun held => do
    if growsEmptyStackBlock held wanted (← get).memory then
      pure (.refused .growingEmpty, holdings)
    else
      match ← Allocator.consult (fun memory => memory.expand held.address held.layout wanted) with
      | .error kind => pure (.failed kind, holdings)
      | .ok size =>
        let layout := { held.layout with size := grownSize held wanted size exact }
        pure (.done (.count size), holdings.keep slot { held with layout := layout })

def reallocate (holdings : Holdings) (slot : String) (wanted : Nat) (exact : Bool) :
    Effect (Outcome × Holdings) :=
  holdings.withBlock slot fun held => do
    if growsEmptyStackBlock held wanted (← get).memory then
      pure (.refused .growingEmpty, holdings)
    else
      match ←
        Allocator.consult (fun memory => memory.reallocate held.address held.layout wanted) with
      | .error kind => pure (.failed kind, holdings)
      | .ok block =>
        let layout := { held.layout with size := grownSize held wanted block.size exact }
        pure (.done (holdings.told held.layout.align block),
          holdings.keep slot { held with address := block.address, layout := layout })

def fill (holdings : Holdings) (slot : String) (byte : UInt8) : Effect (Outcome × Holdings) :=
  holdings.withBlock slot fun held => do
    let size := held.layout.size
    modify fun store =>
      { store with
        memory := { store.memory with bytes := store.memory.bytes.fill held.address size byte } }
    pure (.done (.count size), holdings.keep slot { held with written := size })

def read (holdings : Holdings) (slot : String) : Effect (Outcome × Holdings) :=
  holdings.withBlock slot fun held => do
    let bytes := (← get).memory.bytes.read held.address held.written
    let shown := (runs bytes).map fun run => Shown.items [.count run.1.toNat, .count run.2]
    pure (.done (.items shown), holdings)

def release (held : Held) : Effect Unit :=
  modify fun store =>
    { store with memory := store.memory.deallocate held.address held.layout }

def deallocate (holdings : Holdings) (slot : String) : Effect (Outcome × Holdings) :=
  holdings.withBlock slot fun held => do
    release held
    pure (.done .nothing, { holdings with blocks := holdings.blocks.remove slot })

def advise (holdings : Holdings) (slot : String) (hint : Option UsageHint) :
    Effect (Outcome × Holdings) :=
  holdings.withBlock slot fun held => do
    match hint with
    | none => pure (.refused .noSuchHint, holdings)
    | some hint => do
      modify fun store =>
        { store with memory := store.memory.advise held.address held.layout.size hint }
      pure (.done .nothing, holdings)

/-- Hands another region to a free list, if it lies in the arena and is apart from
the regions handed over before. -/
def addRegion (holdings : Holdings) (region : Span) : Effect (Outcome × Holdings) := do
  match (← get).memory.backend with
  | .freeList _ | .basic _ =>
    let room := (holdings.arena.map Span.size).getD 0
    if region.stop ≤ room ∧ ∀ other ∈ holdings.regions, Span.Apart other region then do
      Allocator.addRegion (Provision.located region)
      pure (.done .nothing, { holdings with regions := region :: holdings.regions })
    else pure (.refused .badRegion, holdings)
  | _ => pure (.refused .notAFreeList, holdings)

def reset (holdings : Holdings) : Effect (Outcome × Holdings) := do
  match (← get).memory.backend with
  | .stack arena => do
    modify fun store =>
      { store with memory := { store.memory with backend := .stack arena.reset } }
    pure (.done (.count arena.capacity), { holdings with blocks := {} })
  | _ => pure (.refused .notAStack, holdings)

def split (holdings : Holdings) (slot other : String) (cut : Nat) :
    Effect (Outcome × Holdings) :=
  holdings.withBlock slot fun held => do
    match (← get).memory.backend with
    | .pages pages =>
      if holdings.blocks.holds other then pure (.refused .slotInUse, holdings)
      else if 0 < cut ∧ cut < held.layout.size ∧ pages.pageSize ∣ cut then
        let first : Held :=
          { address := held.address
            layout := { held.layout with size := cut }
            written := min held.written cut }
        let second : Held :=
          { address := held.address + cut
            layout := { held.layout with size := held.layout.size - cut }
            written := held.written - cut }
        pure (.done .nothing, (holdings.keep slot first).keep other second)
      else pure (.refused .badSplit, holdings)
    | _ => pure (.refused .badSplit, holdings)

def step (holdings : Holdings) : AllocationStep → Effect (Outcome × Holdings)
  | .allocate slot size align zeroed exact =>
    holdings.allocate slot size align zeroed exact
  | .expand slot wanted exact => holdings.expand slot wanted exact
  | .reallocate slot wanted exact => holdings.reallocate slot wanted exact
  | .fill slot byte => holdings.fill slot byte
  | .read slot => holdings.read slot
  | .deallocate slot => holdings.deallocate slot
  | .advise slot hint => holdings.advise slot hint
  | .addRegion region => holdings.addRegion region
  | .reset => holdings.reset
  | .split slot other cut => holdings.split slot other cut
  | .unknown => pure (.refused .noSuchStep, holdings)

def session : Session AllocationStep Holdings where
  step step holdings := holdings.step step
  notes _ _ := []
  finish holdings := holdings.blocks.values.forM release

def report (setup : Setup) (steps : List AllocationStep) : Shown :=
  session.reports setup (ofProvision setup.provision) steps Report.direct

end Holdings
end Freehold
