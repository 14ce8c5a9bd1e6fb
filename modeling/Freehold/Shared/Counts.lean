/-!
# Shared and weak counts

A group of handles has two counts.  While there is a shared handle, the shared
handles together hold one more weak reference than there are weak handles; they
give it up after the value has been destroyed.  So the block of the group is
kept for exactly as long as the weak count is positive.

Counting has a limit: a program whose count would pass half of the address range
is stopped.  A count is at most one more than the number of handles of its kind
that exist, and each of them takes up a word of memory at least.  So the handles
that exist never bring a count near the limit, and no branch stands for it below.
Only handles that are forgotten without being given up could do so; there is no
way to forget one here.
-/

namespace Freehold

structure Counts where
  shared : Nat
  weak : Nat
  deriving DecidableEq

namespace Counts

def unowned : Counts := ⟨0, 0⟩

def first : Counts := ⟨1, 1⟩

/-- The weak count as it is reported: without the reference of the shared handles,
where there are any. -/
def weakCount (counts : Counts) : Nat :=
  if 0 < counts.shared then counts.weak - 1 else counts.weak

def acquireShared (counts : Counts) : Counts :=
  { counts with shared := counts.shared + 1 }

def acquireWeak (counts : Counts) : Counts :=
  { counts with weak := counts.weak + 1 }

def upgrade? (counts : Counts) : Option Counts :=
  if counts.shared = 0 then none else some counts.acquireShared

def releaseShared (counts : Counts) : Counts :=
  { counts with shared := counts.shared - 1 }

def releaseWeak (counts : Counts) : Counts :=
  { counts with weak := counts.weak - 1 }

end Counts
end Freehold
