import KernelCore.Hex

/-!
# Refusals

The errors that an operation answers with, one type per part of the kernel. Each says why it
refused; `name` is the error's name with its cause in brackets, `message` the sentence shown
to people.
-/

namespace KernelCore

inductive PagingError where
  | outOfFrames
  | outOfTableMemory
  | notMapped
deriving DecidableEq, Repr

namespace PagingError

def name : PagingError → String
  | outOfFrames => "OutOfFrames"
  | outOfTableMemory => "OutOfTableMemory"
  | notMapped => "NotMapped"

def message : PagingError → String
  | outOfFrames => "No free physical frames"
  | outOfTableMemory => "Could not allocate a page table"
  | notMapped => "Address is not mapped"

end PagingError

inductive HeapError where
  | zeroSize
  | exhausted
  | indexFull
  | invalidFree
  | notInitialized
  | mapping (cause : PagingError)
deriving DecidableEq, Repr

namespace HeapError

def name : HeapError → String
  | zeroSize => "ZeroSize"
  | exhausted => "Exhausted"
  | indexFull => "IndexFull"
  | invalidFree => "InvalidFree"
  | notInitialized => "NotInitialized"
  | mapping cause => s!"Mapping({cause.name})"

def message : HeapError → String
  | zeroSize => "Zero-sized allocation"
  | exhausted => "Heap exhausted"
  | indexFull => "Heap block index is full"
  | invalidFree => "Address was not allocated from this heap"
  | notInitialized => "Kernel heap not initialized"
  | mapping cause => s!"Heap mapping failed: {cause.message}"

end HeapError

inductive PageFaultError where
  /-- The access violated the flags of a present page. -/
  | protectionViolation (addr : Nat)
  /-- No mapping exists and none is made on demand there. -/
  | unmapped (addr : Nat)
  | mapping (cause : PagingError)
deriving DecidableEq, Repr

namespace PageFaultError

def name : PageFaultError → String
  | protectionViolation addr => s!"ProtectionViolation({addr})"
  | unmapped addr => s!"Unmapped({addr})"
  | mapping cause => s!"Mapping({cause.name})"

def message : PageFaultError → String
  | protectionViolation addr => s!"Protection violation at {hex addr}"
  | unmapped addr => s!"Access to unmapped address {hex addr}"
  | mapping cause => s!"Demand mapping failed: {cause.message}"

end PageFaultError

inductive SpawnError where
  | outOfMemory (cause : HeapError)
  | tooManyProcesses
  | queueFull
  | stackTooSmall
deriving DecidableEq, Repr

namespace SpawnError

def name : SpawnError → String
  | outOfMemory cause => s!"OutOfMemory({cause.name})"
  | tooManyProcesses => "TooManyProcesses"
  | queueFull => "QueueFull"
  | stackTooSmall => "StackTooSmall"

def message : SpawnError → String
  | outOfMemory cause => s!"No memory for process stack: {cause.message}"
  | tooManyProcesses => "Process table is full"
  | queueFull => "Ready queue is full"
  | stackTooSmall => "Stack cannot hold the initial frame"

end SpawnError

inductive SchedError where
  | noSuchProcess
  | isCurrent
  | isIdle
deriving DecidableEq, Repr

namespace SchedError

def name : SchedError → String
  | noSuchProcess => "NoSuchProcess"
  | isCurrent => "IsCurrent"
  | isIdle => "IsIdle"

def message : SchedError → String
  | noSuchProcess => "No such process"
  | isCurrent => "Operation not allowed on the running process"
  | isIdle => "Operation not allowed on the idle process"

end SchedError

inductive TimerError where
  | queueFull
  | zeroPeriod
deriving DecidableEq, Repr

namespace TimerError

def name : TimerError → String
  | queueFull => "QueueFull"
  | zeroPeriod => "ZeroPeriod"

def message : TimerError → String
  | queueFull => "Timer queue is full"
  | zeroPeriod => "Repeating timer needs a non-zero period"

end TimerError

inductive RateError where
  | zeroFrequency
  | frequencyTooLow
  | frequencyTooHigh
deriving DecidableEq, Repr

namespace RateError

def name : RateError → String
  | zeroFrequency => "ZeroFrequency"
  | frequencyTooLow => "FrequencyTooLow"
  | frequencyTooHigh => "FrequencyTooHigh"

def message : RateError → String
  | zeroFrequency => "Timer frequency must be non-zero"
  | frequencyTooLow => "Timer frequency below what a 16-bit divisor reaches"
  | frequencyTooHigh => "Timer frequency above the PIT input clock"

end RateError

end KernelCore
