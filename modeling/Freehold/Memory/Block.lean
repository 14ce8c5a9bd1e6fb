import Freehold.ErrorKind
import Freehold.Layout
import Freehold.Memory.Span

/-!
# Blocks, refusals and hints

An allocator answers a request with a block, whose recorded size is at least
the size asked for, or with a refusal.  A refusal names its cause and may carry
a remark for the log.  A request for no bytes is answered with a dangling
block: an aligned address at which nothing is allocated.
-/

namespace Freehold

structure Block where
  address : Nat
  size : Nat
  deriving DecidableEq, Inhabited

namespace Block

def dangling (align : Nat) : Block := ⟨align, 0⟩

def span (block : Block) : Span := ⟨block.address, block.size⟩

end Block

structure Refusal where
  kind : ErrorKind
  remark : Option String := none
  deriving DecidableEq

inductive UsageHint where
  | normal
  | sequential
  | random
  | willNeed
  | dontNeed
  | cold
  | hugePages
  deriving DecidableEq

namespace UsageHint

def all : List UsageHint :=
  [normal, sequential, random, willNeed, dontNeed, cold, hugePages]

def name : UsageHint → String
  | normal => "Normal"
  | sequential => "Sequential"
  | random => "Random"
  | willNeed => "WillNeed"
  | dontNeed => "DontNeed"
  | cold => "Cold"
  | hugePages => "HugePages"

def ofName? (text : String) : Option UsageHint :=
  all.find? (fun hint => hint.name == text)

end UsageHint
end Freehold
