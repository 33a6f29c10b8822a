import KernelCore.Boot
import KernelCore.Clock.Sleep
import KernelCore.Logging
import KernelCore.Memory.PageFault
import KernelCore.Processor.Program
import KernelCore.Proofs.Clock.Sleep
import KernelCore.Proofs.Frames.Accounting
import KernelCore.Proofs.Frames.Scan
import KernelCore.Proofs.Heap.Allocations
import KernelCore.Proofs.Heap.BestFit
import KernelCore.Proofs.Heap.Consistency
import KernelCore.Proofs.Heap.History
import KernelCore.Proofs.Heap.Outcome
import KernelCore.Proofs.Heap.Overflow
import KernelCore.Proofs.Memory.Carving
import KernelCore.Proofs.Memory.Footprint
import KernelCore.Proofs.Memory.Ledger
import KernelCore.Proofs.Memory.Lifetime
import KernelCore.Proofs.Memory.Privacy
import KernelCore.Proofs.Memory.Refusals
import KernelCore.Proofs.Memory.Runs
import KernelCore.Proofs.Memory.Unmapping
import KernelCore.Proofs.Paging.Sharing
import KernelCore.Proofs.Processor.Sections
import KernelCore.Proofs.Scheduler.Continuity
import KernelCore.Proofs.Scheduler.Numbering
import KernelCore.Proofs.Scheduler.Plan
import KernelCore.Proofs.Scheduler.Refinement
import KernelCore.Proofs.Scheduler.Runs
import KernelCore.Proofs.System.ActiveDirectory
import KernelCore.Proofs.System.Anchoring
import KernelCore.Proofs.System.Coherence
import KernelCore.Proofs.System.FirstFrame
import KernelCore.Proofs.System.HandOver
import KernelCore.Proofs.System.Isolation
import KernelCore.Proofs.System.Lifetime
import KernelCore.Proofs.System.Ownership
import KernelCore.Proofs.System.PageFaults
import KernelCore.Proofs.System.Privacy
import KernelCore.Proofs.System.RangeMapping
import KernelCore.Proofs.System.Rotation
import KernelCore.Proofs.System.Runs
import KernelCore.Proofs.System.Spawning
import KernelCore.Proofs.System.StaticMemory
import KernelCore.Proofs.Timers.Exactness
import KernelCore.Proofs.Timers.Handles
import KernelCore.Proofs.Timers.Order
import KernelCore.Scheduler.Switch
