import KernelCore.Flags
import KernelCore.Traced
import KernelCore.Word

/-!
# The heap's books

A heap manages a window of addresses `[start, limit)`, of which `[start, stop)` is backed by
pages. It keeps two lists about the backed part: its blocks, used and free, in address order,
and its holes, the free blocks again, in order of size and then address. Both lists are
bounded by `blockCapacity`. The managed memory itself is never read or written.
-/

namespace KernelCore

/-- A stretch of backed heap memory. -/
structure Block where
  addr : Nat
  size : Nat
  used : Bool
deriving DecidableEq, Repr

def Block.stop (block : Block) : Nat := block.addr + block.size

/-- A free block, as the index of holes lists it. -/
structure Hole where
  size : Nat
  addr : Nat
deriving DecidableEq, Repr

namespace Hole

/-- Smaller holes come first, and of equal ones the lower. -/
def before (a b : Hole) : Prop := a.size < b.size ∨ (a.size = b.size ∧ a.addr < b.addr)

instance (a b : Hole) : Decidable (a.before b) := by
  unfold before
  infer_instance

def insert (hole : Hole) : List Hole → List Hole
  | [] => [hole]
  | first :: rest => if first.before hole then first :: insert hole rest else hole :: first :: rest

theorem insert_perm (hole : Hole) (holes : List Hole) :
    (insert hole holes).Perm (hole :: holes) := by
  induction holes with
  | nil => exact .refl _
  | cons first rest ih =>
      unfold insert
      split
      · exact (ih.cons first).trans (.swap hole first rest)
      · exact .refl _

end Hole

/-- A heap over the window `[start, limit)`. -/
structure Heap where
  start : Nat
  /-- End of the backed part. -/
  stop : Nat
  /-- End of the backed part at creation; it never shrinks below. -/
  initialStop : Nat
  limit : Nat
  flags : HeapFlags
  /-- The backed part in address order, without gaps. -/
  blocks : List Block
  /-- The free blocks, smallest first. -/
  holes : List Hole
deriving DecidableEq, Repr

namespace Heap

/-! ## What the books say -/

def capacity (heap : Heap) : Nat := heap.stop - heap.start

def usedBytes (heap : Heap) : Nat :=
  ((heap.blocks.filter (·.used)).map (·.size)).foldr (· + ·) 0

def freeBytes (heap : Heap) : Nat := (heap.holes.map (·.size)).foldr (· + ·) 0

/-- Whether an address lies in the window, backed or not. -/
def contains (heap : Heap) (addr : Nat) : Bool := heap.start ≤ addr && addr < heap.limit

def allocationSize? (heap : Heap) (addr : Nat) : Option Nat :=
  match heap.blocks.find? (·.addr == addr) with
  | some block => if block.used then some block.size else none
  | none => none

def freeTail? (heap : Heap) : Option Block := heap.blocks.getLast?.filter (!·.used)

/-! ## Keeping the books -/

def setBlocks (heap : Heap) (blocks : List Block) : Except Fault Heap :=
  if blocks.length ≤ blockCapacity then .ok { heap with blocks }
  else .error .capacityExceeded

def addHole (heap : Heap) (addr size : Nat) : Except Fault Heap :=
  if heap.holes.length < blockCapacity then
    .ok { heap with holes := Hole.insert ⟨size, addr⟩ heap.holes }
  else .error .capacityExceeded

/-- Strikes a block off the holes, where it has to be listed. -/
def dropHole (heap : Heap) (addr size : Nat) : Except Fault Heap :=
  let hole : Hole := ⟨size, addr⟩
  if hole ∈ heap.holes then .ok { heap with holes := heap.holes.erase hole }
  else .error (.holeMissing addr size)

def addFree : List Block → Heap → Except Fault Heap
  | [], heap => .ok heap
  | block :: rest, heap => do
      if block.used then addFree rest heap
      else addFree rest (← heap.addHole block.addr block.size)

end Heap

end KernelCore
