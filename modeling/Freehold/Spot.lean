/-!
# Where values live

A value lives in a block, in storage of its user's own, in a temporary that is
about to be moved, or as a numbered part of something that lives somewhere.  A
value that depends on its own place compares spots, not addresses, so two
neighbours of size zero are still told apart.
-/

namespace Freehold

inductive Spot where
  | block (address : Nat)
  | own (name : String)
  | passing
  | part (whole : Spot) (index : Nat)
  deriving DecidableEq

namespace Spot

def slot (buffer index : Nat) : Spot := part (block buffer) index

theorem slot_inj {buffer buffer' index index' : Nat} :
    slot buffer index = slot buffer' index' ↔ buffer = buffer' ∧ index = index' := by
  simp [slot]

end Spot
end Freehold
