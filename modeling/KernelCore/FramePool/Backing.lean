import KernelCore.FramePool
import KernelCore.Paging.Entry

/-!
# Frames behind page entries

An entry that is present owns its frame. Backing an entry takes a frame for it, mapping it
reserves a chosen one, and releasing it gives the frame back and clears the entry. Present
entries are not backed again and absent ones have nothing to release.
-/

namespace KernelCore

namespace FramePool

/-- Backs an entry with the next free frame; a present entry keeps its frame and flags. -/
def back (pool : FramePool) (entry : PageEntry) (kernel writable : Bool) :
    Traced (Option PagingError × PageEntry × FramePool) := do
  if entry.present then
    Traced.note (.frameKept entry.frame)
    return (none, entry, pool)
  match ← pool.take with
  | (none, pool) => return (some .outOfFrames, entry, pool)
  | (some frame, pool) =>
      let entry ← PageEntry.make frame (PageFlag.ofAccess kernel writable)
      return (none, entry, pool)

def map (pool : FramePool) (entry : PageEntry) (frame : Nat) (kernel writable : Bool) :
    Except Fault (PageEntry × FramePool) := do
  if entry.present then return (entry, pool)
  let pool ← pool.mark frame
  let entry ← PageEntry.make frame (PageFlag.ofAccess kernel writable)
  return (entry, pool)

def unback (pool : FramePool) (entry : PageEntry) : Except Fault (PageEntry × FramePool) := do
  if entry.present then
    return (.empty, ← pool.release entry.frame)
  return (entry, pool)

end FramePool

end KernelCore
