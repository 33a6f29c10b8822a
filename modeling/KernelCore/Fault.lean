import KernelCore.Error

/-!
# Faults

A fault is a broken contract: the operation stops where it stands and answers nothing. Each
constructor is one cause; `message` is the text reported for it.
-/

namespace KernelCore

inductive Fault where
  -- Machine arithmetic and bounded storage.
  | addOverflow
  | subOverflow
  | mulOverflow
  | remainderByZero
  | indexOutOfBounds (length index : Nat)
  | capacityExceeded
  -- Static memory.
  | imagePastLimit
  | emptyReservation
  | arenaExhausted (size addr limit : Nat)
  -- Frames and pages.
  | unalignedFrame (remainder : Nat)
  | unalignedDirectory (remainder : Nat)
  | bitmapTooShort
  | frameOutOfRange (number : Nat)
  | identityTableMissing
  -- The heap and the kernel memory built on it.
  | unalignedHeapStart (remainder : Nat)
  | unalignedHeapEnd (remainder : Nat)
  | freeOfUnallocated (addr : Nat)
  | holeMissing (addr size : Nat)
  | heapCreationFailed (cause : HeapError)
  | heapAlreadyEnabled
  | freeBeforeHeap (addr : Nat)
  | allocationFailed (size : Nat) (cause : HeapError)
  | alignedAllocationFailed (size : Nat) (cause : HeapError)
  | spaceOutlivedHeap (directory : Nat)
  | mappingInKernelTable (page : Nat)
  -- Processes.
  | initialFrameOutsideStack
  | frameOutsideStack (frame pid : Nat)
  | schedulerRunning
  | idleNotSpawned (cause : SpawnError)
  | noRunnableProcess
  | queuedProcessMissing
  -- Clock and processor.
  | clockWithoutRate
  | rateSetToZero
  | noSuchGuard (index count : Nat)
  | raised
deriving DecidableEq, Repr

namespace Fault

/-- The text of a failed comparison with zero. -/
def nonZeroText (what : String) (remainder : Nat) : String :=
  s!"assertion `left == right` failed{what}\n  left: {remainder}\n right: 0"

def message : Fault → String
  | addOverflow => "attempt to add with overflow"
  | subOverflow => "attempt to subtract with overflow"
  | mulOverflow => "attempt to multiply with overflow"
  | remainderByZero => "attempt to calculate the remainder with a divisor of zero"
  | indexOutOfBounds length index =>
      s!"index out of bounds: the len is {length} but the index is {index}"
  | capacityExceeded =>
      "called `Result::unwrap()` on an `Err` value: CapacityError: insufficient capacity"
  | imagePastLimit => "kernel image ends past the static allocator limit"
  | emptyReservation => "zero-sized static allocation"
  | arenaExhausted size addr limit =>
      s!"static allocator exhausted: {hex size} bytes at {hex addr}, limit {hex limit}"
  | unalignedFrame remainder => nonZeroText ": frame address not page aligned" remainder
  | unalignedDirectory remainder => nonZeroText "" remainder
  | bitmapTooShort => "assertion failed: bitmap.len() * BITMAP_ENTRY_SIZE >= total_frames"
  | frameOutOfRange number => s!"frame {hex number} out of range"
  | identityTableMissing => "no page table for identity mapping"
  | unalignedHeapStart remainder => nonZeroText ": heap start not page aligned" remainder
  | unalignedHeapEnd remainder => nonZeroText ": heap end not page aligned" remainder
  | freeOfUnallocated addr => s!"free of unallocated address {hex addr}"
  | holeMissing addr size => s!"hole {hex addr}+{hex size} missing from index"
  | heapCreationFailed cause => s!"Failed to create kernel heap: {cause.name}"
  | heapAlreadyEnabled => "kmalloc already enabled"
  | freeBeforeHeap addr => s!"kfree({hex addr}) before kmalloc was enabled"
  | allocationFailed size cause => s!"kmalloc({hex size}) failed: {cause.message}"
  | alignedAllocationFailed size cause =>
      s!"kmalloc_aligned({hex size}) failed: {cause.message}"
  | spaceOutlivedHeap directory => s!"address space {hex directory} outlived the kernel heap"
  | mappingInKernelTable page => s!"private mapping inside a kernel table at {hex page}"
  | initialFrameOutsideStack =>
      "assertion failed: stack.contains(frame, Registers::USER_FRAME_SIZE)"
  | frameOutsideStack frame pid => s!"frame {hex frame} is outside the stack of process {pid}"
  | schedulerRunning => "scheduler already initialized"
  | idleNotSpawned cause => s!"failed to spawn idle process: {cause.message}"
  | noRunnableProcess => "no runnable process"
  | queuedProcessMissing => "queued process missing"
  | clockWithoutRate => "assertion failed: hz > 0"
  | rateSetToZero => "tick rate must be non-zero"
  | noSuchGuard index count => s!"removal index (is {index}) should be < len (is {count})"
  | raised => "fault"

end Fault

end KernelCore
