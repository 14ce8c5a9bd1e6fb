import Freehold.Diagnostics.Level
import Freehold.Element.Basic
import Freehold.Element.Catalogue
import Freehold.Element.Composite
import Freehold.Element.Handle
import Freehold.Element.Leaf
import Freehold.Element.Nest
import Freehold.ErrorKind
import Freehold.FixedArray
import Freehold.Intrusive
import Freehold.Layout
import Freehold.Memory.Backend
import Freehold.Memory.Block
import Freehold.Memory.Bytes
import Freehold.Memory.FreeList
import Freehold.Memory.Heap
import Freehold.Memory.PageMap
import Freehold.Memory.Span
import Freehold.Memory.StackArena
import Freehold.Outcome
import Freehold.Proofs.Attempt
import Freehold.Proofs.Deeds
import Freehold.Proofs.Element.Carrying
import Freehold.Proofs.Element.Composed
import Freehold.Proofs.FreeList.Accounts
import Freehold.Proofs.FreeList.Conservation
import Freehold.Proofs.FreeList.FirstFit
import Freehold.Proofs.FreeList.History
import Freehold.Proofs.FreeList.InPlace
import Freehold.Proofs.FreeList.Tidy
import Freehold.Proofs.FreeList.Words
import Freehold.Proofs.Habits
import Freehold.Proofs.Intrusive.CountedRuns
import Freehold.Proofs.Intrusive.Counting
import Freehold.Proofs.Memory.AllocatorState
import Freehold.Proofs.Memory.Answers
import Freehold.Proofs.Memory.Arena
import Freehold.Proofs.Memory.Arrangement
import Freehold.Proofs.Memory.Contents
import Freehold.Proofs.Memory.Contract
import Freehold.Proofs.Memory.EmptyBlocks
import Freehold.Proofs.Memory.Extent
import Freehold.Proofs.Memory.FittingSizes
import Freehold.Proofs.Memory.Grants
import Freehold.Proofs.Memory.Handover
import Freehold.Proofs.Memory.Headers
import Freehold.Proofs.Memory.Hints
import Freehold.Proofs.Memory.Lasting
import Freehold.Proofs.Memory.Lockstep
import Freehold.Proofs.Memory.Neighbours
import Freehold.Proofs.Memory.Passing
import Freehold.Proofs.Memory.Privacy
import Freehold.Proofs.Memory.Ranges
import Freehold.Proofs.Memory.ReachableBlocks
import Freehold.Proofs.Memory.Record
import Freehold.Proofs.Memory.Refusals
import Freehold.Proofs.Memory.Requests
import Freehold.Proofs.Memory.Resizing
import Freehold.Proofs.Memory.Reuse
import Freehold.Proofs.Memory.Sizes
import Freehold.Proofs.Memory.StackWords
import Freehold.Proofs.Memory.Words
import Freehold.Proofs.Nest.Copies
import Freehold.Proofs.Nest.DeepCopies
import Freehold.Proofs.Nest.Entrances
import Freehold.Proofs.Nest.OwnedAssets
import Freehold.Proofs.Nest.Steps
import Freehold.Proofs.Overflow
import Freehold.Proofs.Placing.Arrays
import Freehold.Proofs.Placing.AssetsInMemory
import Freehold.Proofs.Placing.EffectAccounting
import Freehold.Proofs.Placing.Entrances
import Freehold.Proofs.Placing.Factories
import Freehold.Proofs.Placing.Holding
import Freehold.Proofs.Placing.Leaves
import Freehold.Proofs.Placing.Ledger
import Freehold.Proofs.Placing.ManagedAssets
import Freehold.Proofs.Placing.Owners
import Freehold.Proofs.Placing.Strategies
import Freehold.Proofs.Placing.Transfers
import Freehold.Proofs.Shared.Dues
import Freehold.Proofs.Shared.GroupAssets
import Freehold.Proofs.Shared.Observers
import Freehold.Proofs.Shared.OwnerOrder
import Freehold.Proofs.Shared.Ownership
import Freehold.Proofs.Shared.SelfReference
import Freehold.Proofs.Shared.SharedState
import Freehold.Proofs.Singleton.Reaching
import Freehold.Proofs.Singleton.Table
import Freehold.Proofs.Staged.Machine
import Freehold.Proofs.Staged.Table
import Freehold.Proofs.Vec.Agreement
import Freehold.Proofs.Vec.AllocatorRuns
import Freehold.Proofs.Vec.AnchoredLeaves
import Freehold.Proofs.Vec.AnchoredRows
import Freehold.Proofs.Vec.AnchoredTwins
import Freehold.Proofs.Vec.Anchoring
import Freehold.Proofs.Vec.Backing
import Freehold.Proofs.Vec.Calls
import Freehold.Proofs.Vec.Dealings
import Freehold.Proofs.Vec.Growth
import Freehold.Proofs.Vec.ListRefinement
import Freehold.Proofs.Vec.Moves
import Freehold.Proofs.Vec.Operations
import Freehold.Proofs.Vec.ReachableRows
import Freehold.Proofs.Vec.Reserving
import Freehold.Proofs.Vec.Shifting
import Freehold.Proofs.Vec.Stacking
import Freehold.Proofs.Vec.Twins
import Freehold.Proofs.Vec.VacantSlots
import Freehold.Proofs.Vec.Words
import Freehold.Proofs.Words
import Freehold.Roster
import Freehold.Session.Allocation
import Freehold.Session.Array
import Freehold.Session.Causes
import Freehold.Session.Construct
import Freehold.Session.Defaults
import Freehold.Session.Diagnostics
import Freehold.Session.Intrusive
import Freehold.Session.Owner
import Freehold.Session.Pointee
import Freehold.Session.Relocate
import Freehold.Session.Report
import Freehold.Session.Setup
import Freehold.Session.Shared
import Freehold.Session.Singleton
import Freehold.Session.Staged
import Freehold.Session.Values
import Freehold.Session.Vector
import Freehold.Shared.Counts
import Freehold.Shared.Group
import Freehold.Shared.Handle
import Freehold.Shelf
import Freehold.Singleton
import Freehold.Spot
import Freehold.Staged
import Freehold.Store
import Freehold.Text.Hidden
import Freehold.Text.Quoted
import Freehold.Trace
import Freehold.Unique
import Freehold.Vec.Basic
import Freehold.Vec.Buffer
import Freehold.Vec.Slots
import Freehold.Word
