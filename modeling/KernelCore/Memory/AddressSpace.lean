import KernelCore.Memory.Basic

/-!
# Address spaces

A process's own directory, in a block of the kernel heap. It borrows every kernel table there
is when it is made; pages outside those are private to it. Destroying it gives its private
frames, its own tables and its directory back and leaves borrowed tables alone.
-/

namespace KernelCore

/-- The directory is carried as a value beside its address and never read back from memory there. So
nothing but the calls on an address space changes its slots, whatever is written to its block. -/
structure AddressSpace where
  /-- Kernel address of the directory. -/
  addr : Nat
  directory : PageDirectory
deriving DecidableEq

namespace AddressSpace

def phys (space : AddressSpace) : Nat := space.directory.phys

def text (space : AddressSpace) : String :=
  "AddressSpace \x7b " ++ s!"phys: {hex space.phys}" ++ " \x7d"

end AddressSpace

namespace KernelMemory

def translateIn (space : AddressSpace) (virt : Nat) (memory : KernelMemory) : Option Nat :=
  space.directory.translate memory.space.ram virt

/-- Makes an address space that borrows every kernel table. -/
def createSpace (memory : KernelMemory) :
    Traced (Except HeapError AddressSpace × KernelMemory) := do
  match ← memory.tryAlloc directoryBytes true with
  | (.error cause, memory) => return (.error cause, memory)
  | (.ok addr, memory) =>
      match memory.translate addr with
      | none =>
          let memory ← memory.free addr
          return (.error (.mapping .notMapped), memory)
      | some phys =>
          let (directory, ram) ← PageDirectory.place addr phys memory.space.ram
          let directory := directory.link memory.space.directory
          Traced.note (.spaceCreated phys)
          return (.ok ⟨addr, directory⟩, { memory with space := { memory.space with ram } })

/-! ## Destruction -/

def releaseTable (s : Heap × KernelSpace) (slot : TableRef) : Traced (Heap × KernelSpace) := do
  let (heap, space) := s
  let space ← space.unbackTable slot.table
  heap.free KernelSpace.mapper slot.table space

/-- Gives back an address space's private frames and tables, then its directory. -/
def destroySpace (space : AddressSpace) (memory : KernelMemory) : Traced KernelMemory := do
  match memory.heap with
  | none => Traced.fault (.spaceOutlivedHeap space.phys)
  | some heap =>
      let (heap, kernel) ← space.directory.ownTables.foldlM releaseTable (heap, memory.space)
      let memory ← { memory with heap := some heap, space := kernel }.free space.addr
      Traced.note (.spaceDestroyed space.phys)
      return memory

/-! ## Private mappings -/

/-- Backs one page of an address space; a missing table is taken from the heap. The page must
not lie under a borrowed table. -/
def mapPage (flags : HeapFlags) (page : Nat) (s : PageDirectory × Heap × KernelSpace) :
    Traced (Option PagingError × PageDirectory × Heap × KernelSpace) := do
  let (directory, heap, space) := s
  if (directory.slots.get (tableIndex page)).any (·.linked) then
    Traced.fault (.mappingInKernelTable page)
  match ← directory.ensure Heap.tables page (heap, space) with
  | (none, directory, heap, space) => return (some .outOfTableMemory, directory, heap, space)
  | (some ref, directory, heap, space) =>
      let (refused, space) ← space.backEntry ref flags
      return (refused, directory, heap, space)

/-- Backs every page that `[start, stop)` touches with a frame of its own, up to the first one
that is refused. -/
def mapRange (space : AddressSpace) (start stop : Nat) (flags : HeapFlags)
    (memory : KernelMemory) : Traced (Option PagingError × AddressSpace × KernelMemory) := do
  match memory.heap with
  | none => return (some .outOfTableMemory, space, memory)
  | some heap =>
      let first := pageFloor start
      let (refused, directory, heap, kernel) ← Traced.sweep pageSize (mapPage flags)
        (pageCount first stop) first (space.directory, heap, memory.space)
      return (refused, { space with directory },
        { memory with heap := some heap, space := kernel })

def unmapRange (space : AddressSpace) (start stop : Nat) (memory : KernelMemory) :
    Traced KernelMemory := do
  let first := pageFloor start
  let kernel ← Traced.sweepAll pageSize (fun page kernel => kernel.unbackPage space.directory page)
    (pageCount first stop) first memory.space
  return { memory with space := kernel }

end KernelMemory

end KernelCore
