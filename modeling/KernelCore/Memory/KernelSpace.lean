import KernelCore.FramePool.Backing
import KernelCore.Heap.Allocation
import KernelCore.Paging.Directory

/-!
# The kernel's own address space

The kernel directory together with what its mappings rest on: memory contents and the frame
pool. It backs the pages of a kernel heap, in tables that already exist. A range is checked as
a whole before anything is mapped, so a refused range stays as it was.
-/

namespace KernelCore

structure KernelSpace where
  directory : PageDirectory
  ram : Ram
  frames : FramePool
deriving DecidableEq

namespace KernelSpace

def translate (space : KernelSpace) (virt : Nat) : Option Nat :=
  space.directory.translate space.ram virt

/-! ## Single pages -/

/-- Backs the page of an entry with a frame of its own, unless it has one. -/
def backEntry (ref : EntryRef) (flags : HeapFlags) (space : KernelSpace) :
    Traced (Option PagingError × KernelSpace) := do
  let (refused, entry, frames) ←
    space.frames.back (space.ram.entry ref) (!flags.user) flags.writable
  return (refused, { space with ram := space.ram.setEntry ref entry, frames })

def mapEntry (ref : EntryRef) (frame : Nat) (space : KernelSpace) : Except Fault KernelSpace := do
  let (entry, frames) ← space.frames.map (space.ram.entry ref) frame true true
  return { space with ram := space.ram.setEntry ref entry, frames }

def unbackEntry (ref : EntryRef) (space : KernelSpace) : Except Fault KernelSpace := do
  let (entry, frames) ← space.frames.unback (space.ram.entry ref)
  return { space with ram := space.ram.setEntry ref entry, frames }

/-- Unmaps the page at `page` of some directory, if there is a table for it. -/
def unbackPage (directory : PageDirectory) (page : Nat) (space : KernelSpace) :
    Except Fault KernelSpace :=
  match directory.find? page with
  | some ref => space.unbackEntry ref
  | none => .ok space

/-- Gives back every frame that a table maps and clears those entries. -/
def unbackTable (table : Nat) (space : KernelSpace) : Except Fault KernelSpace := do
  let entries := (space.ram.table table).toList
  let frames ← entries.foldlM (fun frames entry => return (← frames.unback entry).2) space.frames
  return { space with ram := space.ram.setTable table (space.ram.table table).cleared, frames }

/-! ## Ranges -/

/-- How many of `count` pages from `page` on are not present, on top of `missing`. -/
def countMissing (space : KernelSpace) : Nat → Nat → Nat → Except PagingError Nat
  | 0, _, missing => .ok missing
  | count + 1, page, missing =>
      match space.directory.find? page with
      | none => .error .outOfTableMemory
      | some ref =>
          countMissing space count (page + pageSize)
            (if (space.ram.entry ref).present then missing else missing + 1)

def backPage (flags : HeapFlags) (page : Nat) (space : KernelSpace) :
    Traced (Option PagingError × KernelSpace) :=
  match space.directory.find? page with
  | some ref => space.backEntry ref flags
  | none => pure (none, space)

/-- Backs every page of `[start, stop)`. -/
def mapRegion (start stop : Nat) (flags : HeapFlags) (space : KernelSpace) :
    Traced (Option PagingError × KernelSpace) :=
  let pages := pageCount start stop
  match space.countMissing pages start 0 with
  | .error cause => pure (some cause, space)
  | .ok missing =>
      if space.frames.free < missing then pure (some .outOfFrames, space)
      else Traced.sweep pageSize (backPage flags) pages start space

def unmapRegion (start stop : Nat) (space : KernelSpace) : Traced KernelSpace :=
  Traced.sweepAll pageSize (fun page space => space.unbackPage space.directory page)
    (pageCount start stop) start space

def mapper : RegionMapper KernelSpace where
  map := mapRegion
  unmap := unmapRegion

end KernelSpace

end KernelCore
