import KernelCore.Word

/-!
# Static memory

The arena carves permanent blocks out of the memory above the kernel image and its boot
modules. Its cursor only moves forward and nothing handed out comes back. A request that
would pass the limit is a fault, so no block is ever granted in part.
-/

namespace KernelCore

/-- Where a block of memory lies, and where the hardware sees it. -/
structure Placement where
  addr : Nat
  phys : Nat
deriving DecidableEq, Repr

inductive Alignment where
  /-- The size itself, as `Word.naturalAlign` rounds it. -/
  | natural
  | page
deriving DecidableEq, Repr

/-- A forward-only allocator over `[base, limit)`. -/
structure Arena where
  base : Nat
  /-- The next free address. -/
  cursor : Nat
  limit : Nat
deriving DecidableEq, Repr

namespace Arena

/-- The arena from the first page boundary past the kernel image and the boot modules. -/
def pastImage (kernelEnd modulesEnd limit : Nat) : Except Fault Arena := do
  let base ← pageCeil (max kernelEnd modulesEnd)
  if base ≤ limit then return ⟨base, base, limit⟩ else throw .imagePastLimit

def alignmentOf (size : Nat) : Alignment → Except Fault Nat
  | .natural => Word.naturalAlign size
  | .page => return pageSize

/-- Grants the next `size` bytes. Static memory is identity mapped. -/
def reserve (arena : Arena) (size : Nat) (alignment : Alignment) :
    Except Fault (Placement × Arena) := do
  if size = 0 then throw .emptyReservation
  let align ← alignmentOf size alignment
  let addr ← Word.alignUp arena.cursor align
  match (Word.add? addr size).filter (· ≤ arena.limit) with
  | some stop => return (⟨addr, addr⟩, { arena with cursor := stop })
  | none => throw (.arenaExhausted size addr arena.limit)

def allocate (arena : Arena) (size : Nat) : Except Fault (Nat × Arena) := do
  let (place, arena) ← arena.reserve size .natural
  return (place.addr, arena)

def reservePages (arena : Arena) (size : Nat) : Except Fault (Placement × Arena) :=
  arena.reserve size .page

/-- Bytes handed out so far, alignment padding included. -/
def used (arena : Arena) : Nat := arena.cursor - arena.base

end Arena

end KernelCore
