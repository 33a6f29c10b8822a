import KernelCore.Memory.Tables
import KernelCore.Processor.Section
import KernelCore.Process.Stack

/-!
# Kernel memory

Everything the kernel allocates from: the arena used during boot, the kernel address space
with the frame pool behind it, and, once enabled, the kernel heap.
-/

namespace KernelCore

/-- What is known about the machine at boot. -/
structure BootInfo where
  /-- First byte past the kernel image. -/
  kernelEnd : Nat
  /-- First byte past the last boot module, 0 without modules. -/
  modulesEnd : Nat
  /-- End of the memory that the arena may use. -/
  placementLimit : Nat
  /-- End of physical memory. -/
  memoryEnd : Nat
  stackBase : Nat
  stackSize : Nat
deriving DecidableEq, Repr

def BootInfo.stack (info : BootInfo) : KernelStack := ⟨info.stackBase, info.stackSize, false⟩

structure KernelMemory where
  arena : Arena
  space : KernelSpace
  /-- The kernel heap; `none` until it is enabled. -/
  heap : Option Heap
deriving DecidableEq

namespace KernelMemory

/-- Reserves the frame bitmap and an empty kernel directory in static memory. As its safety contract,
the memory from `kernelEnd` to `placementLimit` is writable and nothing else uses it: nothing here
checks that a heap made later keeps out of it. -/
def boot (info : BootInfo) : Traced KernelMemory := do
  let arena ← Arena.pastImage info.kernelEnd info.modulesEnd info.placementLimit
  let (frames, arena) ← FramePool.carve arena info.memoryEnd
  let (place, arena) ← arena.reserve directoryBytes .page
  let (directory, ram) ← PageDirectory.place place.addr place.phys .empty
  Traced.note (.memoryReady frames.total arena.base place.phys)
  return ⟨arena, ⟨directory, ram, frames⟩, none⟩

def directoryPhys (memory : KernelMemory) : Nat := memory.space.directory.phys

def translate (memory : KernelMemory) (virt : Nat) : Option Nat := memory.space.translate virt

/-! ## Static mappings -/

/-- The kernel entry that covers `virt`; a missing table is taken from static memory. -/
def ensureEntry (virt : Nat) (memory : KernelMemory) :
    Traced (Option EntryRef × KernelMemory) := do
  let space := memory.space
  let (ref, directory, arena, ram) ←
    space.directory.ensure Arena.tables virt (memory.arena, space.ram)
  return (ref, { memory with arena, space := { space with directory, ram } })

def identityMapPage (page : Nat) (memory : KernelMemory) : Traced KernelMemory := do
  match ← memory.ensureEntry page with
  | (none, _) => Traced.fault .identityTableMissing
  | (some ref, memory) => return { memory with space := ← memory.space.mapEntry ref page }

/-- Maps every page that `[start, stop)` touches onto the frame of the same address and
reserves those frames. -/
def identityMap (start stop : Nat) (memory : KernelMemory) : Traced KernelMemory := do
  let first := pageFloor start
  let last ← pageCeil stop
  Traced.sweepAll pageSize identityMapPage (pageCount first last) first memory

def identityMapKernel (memory : KernelMemory) : Traced KernelMemory := do
  let stop := min memory.arena.limit (memory.space.frames.total * frameSize)
  let memory ← memory.identityMap 0 stop
  Traced.note (.kernelIdentityMapped stop)
  return memory

/-! ## The processor's directory -/

def activate (memory : KernelMemory) (cpu : Processor) : Traced Processor := do
  let phys := memory.directoryPhys
  let cpu := cpu.critically fun cpu => (cpu.loadDirectory phys).enablePaging
  Traced.note (.pagingEnabled phys)
  return cpu

def loadDirectory (phys : Nat) (cpu : Processor) : Processor :=
  cpu.critically (·.loadDirectory phys)

/-! ## The kernel heap -/

def ensureTable (virt : Nat) (memory : KernelMemory) :
    Traced (Option HeapError × KernelMemory) := do
  let (ref, memory) ← memory.ensureEntry virt
  return (if ref.isSome then none else some (.mapping .outOfTableMemory), memory)

/-- Builds a heap over `[start, stop)` that may grow up to `start + maxSize`. The tables of
the whole window are made at once, so every address space made later shares them. -/
def createHeap (start stop maxSize : Nat) (flags : HeapFlags) (memory : KernelMemory) :
    Traced (Except HeapError Heap × KernelMemory) := do
  match Word.add? start maxSize with
  | none => return (.error .exhausted, memory)
  | some limit =>
      let first := start - start % tableSpan
      match ← Traced.sweep tableSpan ensureTable (strideCount tableSpan first limit) first
          memory with
      | (some cause, memory) => return (.error cause, memory)
      | (none, memory) =>
          let (answer, space) ←
            Heap.create KernelSpace.mapper start stop maxSize flags memory.space
          return (answer, { memory with space })

/-- Puts a heap to use as the kernel heap, once. -/
def enableHeap (heap : Heap) (memory : KernelMemory) : Traced KernelMemory := do
  match memory.heap with
  | some _ => Traced.fault .heapAlreadyEnabled
  | none =>
      Traced.note (.heapEnabled heap.start heap.stop)
      return { memory with heap := some heap }

def tryAlloc (size : Nat) (pageAligned : Bool) (memory : KernelMemory) :
    Traced (Except HeapError Nat × KernelMemory) := do
  match memory.heap with
  | none => return (.error .notInitialized, memory)
  | some heap =>
      let (answer, heap, space) ← heap.alloc KernelSpace.mapper size pageAligned memory.space
      return (answer, { memory with heap := some heap, space })

/-- Allocates from the kernel heap; a refusal is a fault. -/
def alloc (size : Nat) (memory : KernelMemory) : Traced (Nat × KernelMemory) := do
  match ← memory.tryAlloc size false with
  | (.ok addr, memory) => return (addr, memory)
  | (.error cause, _) => Traced.fault (.allocationFailed size cause)

def allocAligned (size : Nat) (memory : KernelMemory) : Traced (Nat × KernelMemory) := do
  match ← memory.tryAlloc size true with
  | (.ok addr, memory) => return (addr, memory)
  | (.error cause, _) => Traced.fault (.alignedAllocationFailed size cause)

def free (addr : Nat) (memory : KernelMemory) : Traced KernelMemory := do
  match memory.heap with
  | none => Traced.fault (.freeBeforeHeap addr)
  | some heap =>
      let (heap, space) ← heap.free KernelSpace.mapper addr memory.space
      return { memory with heap := some heap, space }

end KernelMemory

end KernelCore
