/-!
# Sizes and fixed values

Page geometry, the capacities of the bounded tables, the initial processor state of a
process, and the rates and ports of the timer. Addresses and sizes are natural numbers;
`wordLimit` is the first one that no longer fits a machine word.
-/

namespace KernelCore

/-! ## Words and pages -/

/-- The first number that does not fit a 64-bit machine word. -/
abbrev wordLimit : Nat := 0x10000000000000000

abbrev wordBytes : Nat := 8

abbrev pageSize : Nat := 4096

abbrev frameSize : Nat := pageSize

abbrev entriesPerTable : Nat := 1024

abbrev tableSpan : Nat := pageSize * entriesPerTable

abbrev tableBytes : Nat := entriesPerTable * wordBytes

/-- Bytes of memory taken by a page directory: hardware entries, table addresses and its
own address, rounded up to whole pages. -/
abbrev directoryBytes : Nat := 20480

/-! ## Allocators -/

abbrev heapStart : Nat := 0xC0000000
abbrev heapInitialSize : Nat := 0x100000
abbrev heapMaxSize : Nat := 0x1000000

abbrev blockCapacity : Nat := 512

/-- Every heap block size is a multiple of this. -/
abbrev heapGranule : Nat := 16

/-- Largest alignment that the arena derives from a reservation's size. -/
abbrev maxNaturalAlign : Nat := 16

abbrev framesPerWord : Nat := 32

abbrev fullFrameWord : Nat := 0xFFFFFFFF

/-! ## Processes -/

abbrev priorityLevels : Nat := 16
abbrev processCapacity : Nat := 64

abbrev bootStackSize : Nat := 0x4000
abbrev defaultStackSize : Nat := 0x4000
abbrev idleStackSize : Nat := 0x1000

/-- Room for the initial register frame plus a little headroom. -/
abbrev minStackSize : Nat := 0x100

abbrev userStackTop : Nat := 0xC0000000

abbrev kernelCodeSelector : Nat := 0x08
abbrev kernelDataSelector : Nat := 0x10
abbrev userCodeSelector : Nat := 0x1B
abbrev userDataSelector : Nat := 0x23

/-- Interrupts on, plus the bit that is always one. -/
abbrev initialEflags : Nat := 0x202

/-! ## Timer and ports -/

abbrev timerRate : Nat := 100

/-- Input clock of the interval timer, in ticks per second. -/
abbrev timerInputRate : Nat := 1193182

abbrev timerCapacity : Nat := 32

abbrev serialPort : Nat := 0x3F8
abbrev timerChannelPort : Nat := 0x40
abbrev timerCommandPort : Nat := 0x43
abbrev interruptCommandPort : Nat := 0x20
abbrev endOfInterrupt : Nat := 0x20

end KernelCore
