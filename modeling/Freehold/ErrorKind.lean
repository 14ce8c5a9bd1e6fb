/-!
# Causes of failure

Every fallible operation of the library fails for exactly one of the causes
listed here.  A cause belongs to a category, and both have a name and a text
for people; the texts are written in this file and nowhere else.
-/

namespace Freehold

inductive ErrorCategory where
  | allocation
  | state
  | policy
  | concurrency
  deriving DecidableEq

namespace ErrorCategory

def all : List ErrorCategory := [allocation, state, policy, concurrency]

def name : ErrorCategory → String
  | allocation => "Allocation"
  | state => "State"
  | policy => "Policy"
  | concurrency => "Concurrency"

def message : ErrorCategory → String
  | allocation => "allocation"
  | state => "bounds or state"
  | policy => "policy"
  | concurrency => "concurrency or ownership"

/-- The question that holds of this category and of no other. -/
def question : ErrorCategory → String
  | allocation => "is_allocation"
  | state => "is_state"
  | policy => "is_policy"
  | concurrency => "is_concurrency"

end ErrorCategory

inductive ErrorKind where
  | allocationFailed
  | inPlaceGrowthFailed
  | integerOverflow
  | unsupportedOperation
  | outOfRange
  | outOfBounds
  | invalidArgument
  | alreadyExists
  | emptyPointer
  | pointerExpired
  | noOwner
  | deadlock
  | invalidOwner
  | stillLocked
  | notLocked
  | timedOut
  | tryAgain
  | notInitialized
  | containerEmpty
  | notFound
  deriving DecidableEq

namespace ErrorKind

def all : List ErrorKind :=
  [allocationFailed, inPlaceGrowthFailed, integerOverflow, unsupportedOperation,
    outOfRange, outOfBounds, invalidArgument, alreadyExists, emptyPointer,
    pointerExpired, noOwner, deadlock, invalidOwner, stillLocked, notLocked,
    timedOut, tryAgain, notInitialized, containerEmpty, notFound]

theorem mem_all (kind : ErrorKind) : kind ∈ all := by
  cases kind <;> decide

def category : ErrorKind → ErrorCategory
  | allocationFailed | inPlaceGrowthFailed | integerOverflow => .allocation
  | outOfRange | outOfBounds | emptyPointer | pointerExpired | notInitialized
  | containerEmpty => .state
  | unsupportedOperation | invalidArgument | alreadyExists | notFound => .policy
  | noOwner | deadlock | invalidOwner | stillLocked | notLocked | timedOut
  | tryAgain => .concurrency

def name : ErrorKind → String
  | allocationFailed => "AllocationFailed"
  | inPlaceGrowthFailed => "InPlaceGrowthFailed"
  | integerOverflow => "IntegerOverflow"
  | unsupportedOperation => "UnsupportedOperation"
  | outOfRange => "OutOfRange"
  | outOfBounds => "OutOfBounds"
  | invalidArgument => "InvalidArgument"
  | alreadyExists => "AlreadyExists"
  | emptyPointer => "EmptyPointer"
  | pointerExpired => "PointerExpired"
  | noOwner => "NoOwner"
  | deadlock => "Deadlock"
  | invalidOwner => "InvalidOwner"
  | stillLocked => "StillLocked"
  | notLocked => "NotLocked"
  | timedOut => "TimedOut"
  | tryAgain => "TryAgain"
  | notInitialized => "NotInitialized"
  | containerEmpty => "ContainerEmpty"
  | notFound => "NotFound"

def message : ErrorKind → String
  | allocationFailed => "allocation failed"
  | inPlaceGrowthFailed => "in-place growth failed"
  | integerOverflow => "integer overflow"
  | unsupportedOperation => "unsupported operation"
  | outOfRange => "out of range"
  | outOfBounds => "out of bounds"
  | invalidArgument => "invalid argument"
  | alreadyExists => "already exists"
  | emptyPointer => "empty pointer"
  | pointerExpired => "pointer expired"
  | noOwner => "no owner"
  | deadlock => "deadlock"
  | invalidOwner => "invalid owner"
  | stillLocked => "still locked"
  | notLocked => "not locked"
  | timedOut => "timed out"
  | tryAgain => "try again"
  | notInitialized => "not initialized"
  | containerEmpty => "container empty"
  | notFound => "not found"

def question : ErrorKind → String
  | allocationFailed => "is_allocation_failed"
  | inPlaceGrowthFailed => "is_in_place_growth_failed"
  | integerOverflow => "is_integer_overflow"
  | unsupportedOperation => "is_unsupported_operation"
  | outOfRange => "is_out_of_range"
  | outOfBounds => "is_out_of_bounds"
  | invalidArgument => "is_invalid_argument"
  | alreadyExists => "is_already_exists"
  | emptyPointer => "is_empty_pointer"
  | pointerExpired => "is_pointer_expired"
  | noOwner => "is_no_owner"
  | deadlock => "is_deadlock"
  | invalidOwner => "is_invalid_owner"
  | stillLocked => "is_still_locked"
  | notLocked => "is_not_locked"
  | timedOut => "is_timed_out"
  | tryAgain => "is_try_again"
  | notInitialized => "is_not_initialized"
  | containerEmpty => "is_container_empty"
  | notFound => "is_not_found"

def ofName? (text : String) : Option ErrorKind :=
  all.find? (fun kind => kind.name == text)

theorem ofName?_name (kind : ErrorKind) : ofName? kind.name = some kind := by
  cases kind <;> decide

end ErrorKind
end Freehold
