import KernelCore.Memory.Basic

/-!
# Bringing memory up

The boot sequence up to the point where the kernel heap works: kernel memory, paging, and a
heap in a window of its own.
-/

namespace KernelCore

structure HeapLayout where
  start : Nat
  initialSize : Nat
  maxSize : Nat
deriving DecidableEq, Repr

def HeapLayout.kernel : HeapLayout := ⟨heapStart, heapInitialSize, heapMaxSize⟩

namespace KernelMemory

/-- Brings kernel memory up with a heap in use and the kernel directory loaded. -/
def start (info : BootInfo) (layout : HeapLayout) (cpu : Processor) :
    Traced (KernelMemory × Processor) := do
  let memory ← boot info
  let cpu ← memory.activate cpu
  let stop ← Word.add layout.start layout.initialSize
  match ← memory.createHeap layout.start stop layout.maxSize .supervisor with
  | (.error cause, _) => Traced.fault (.heapCreationFailed cause)
  | (.ok heap, memory) => return (← memory.enableHeap heap, cpu)

end KernelMemory

end KernelCore
