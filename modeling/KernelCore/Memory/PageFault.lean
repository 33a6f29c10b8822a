import KernelCore.Memory.Basic

/-!
# Page faults

An access to a page of the heap's window that is not present gets a frame on demand. Any other
access is refused.
-/

namespace KernelCore

namespace KernelMemory

/-- Resolves a fault at `addr`; bit 0 of the error code says that the page was present. -/
def resolveFault (addr error : Nat) (memory : KernelMemory) :
    Traced (Option PageFaultError × KernelMemory) := do
  if error.testBit 0 then return (some (.protectionViolation addr), memory)
  match memory.heap.filter (·.contains addr) with
  | none => return (some (.unmapped addr), memory)
  | some heap =>
      let page := pageFloor addr
      let next ← Word.add page pageSize
      match ← memory.space.mapRegion page next heap.flags with
      | (some cause, space) => return (some (.mapping cause), { memory with space })
      | (none, space) =>
          Traced.note (.demandMapped page addr)
          return (none, { memory with space })

end KernelMemory

end KernelCore
