import KernelCore.Memory.KernelSpace

/-!
# Where page tables come from

Kernel tables are static memory and never come back; they grant until the arena's limit, where
they fault. Tables of other address spaces are page-aligned heap blocks, and need a kernel
mapping so that the hardware can be told where they are.
-/

namespace KernelCore

namespace Arena

/-- Grants the next pages of static memory as a zeroed table. -/
def grantTable (s : Arena × Ram) : Traced (Except PagingError TableRef × Arena × Ram) := do
  let (arena, ram) := s
  let (place, arena) ← arena.reserve tableBytes .page
  let ram := ram.clearTable place.addr
  if place.addr = 0 then return (.error .outOfTableMemory, arena, ram)
  return (.ok ⟨place.addr, place.phys, false⟩, arena, ram)

def tables : TableSource (Arena × Ram) := ⟨grantTable⟩

end Arena

namespace Heap

def grantTable (s : Heap × KernelSpace) :
    Traced (Except PagingError TableRef × Heap × KernelSpace) := do
  let (heap, space) := s
  match ← heap.alloc KernelSpace.mapper tableBytes true space with
  | (.error _, heap, space) => return (.error .outOfTableMemory, heap, space)
  | (.ok addr, heap, space) =>
      match space.translate addr with
      | none => return (.error .notMapped, heap, space)
      | some phys =>
          return (.ok ⟨addr, phys, false⟩, heap,
            { space with ram := space.ram.clearTable addr })

def tables : TableSource (Heap × KernelSpace) := ⟨grantTable⟩

end Heap

end KernelCore
