import KernelCore.Heap.Region

/-!
# Allocating and freeing

An allocation takes the smallest hole that holds it, at the hole's first suitably aligned
address, and leaves what is over on either side as holes. If no hole does, the heap first
grows at its end, just far enough. Freeing merges the block with free neighbours and gives
whole free pages at the end back, down to the initial size. A refused allocation changes
nothing.
-/

namespace KernelCore

namespace Heap

variable {σ : Type}

/-! ## Creation -/

/-- A heap over `[start, stop)` that may grow up to `start + maxSize`. -/
def create (mapper : RegionMapper σ) (start stop maxSize : Nat) (flags : HeapFlags) (s : σ) :
    Traced (Except HeapError Heap × σ) := do
  if start % pageSize ≠ 0 then Traced.fault (.unalignedHeapStart (start % pageSize))
  if stop % pageSize ≠ 0 then Traced.fault (.unalignedHeapEnd (stop % pageSize))
  if stop ≤ start then return (.error .zeroSize, s)
  match (Word.add? start maxSize).filter (stop ≤ ·) with
  | none => return (.error .exhausted, s)
  | some limit =>
      match ← mapper.map start stop flags s with
      | (some cause, s) => return (.error (.mapping cause), s)
      | (none, s) =>
          let size := stop - start
          let heap : Heap :=
            ⟨start, stop, stop, limit, flags, [⟨start, size, false⟩], [⟨size, start⟩]⟩
          Traced.note (.heapCreated start stop limit flags)
          return (.ok heap, s)

/-! ## Choosing a hole -/

/-- Bytes from an address to where an allocation may start. -/
def padding (addr : Nat) (pageAligned : Bool) : Except Fault Nat := do
  if pageAligned then return (← pageCeil addr) - addr
  return 0

/-- The first hole that holds `size` bytes after the padding it needs, with that padding. -/
def firstFit (size : Nat) (pageAligned : Bool) : List Hole → Except Fault (Option (Hole × Nat))
  | [] => .ok none
  | hole :: rest => do
      let pad ← padding hole.addr pageAligned
      let needed ← Word.add pad size
      if needed ≤ hole.size then return some (hole, pad)
      firstFit size pageAligned rest

/-- The smallest hole that holds an allocation, with the padding it needs there. -/
def bestFit (heap : Heap) (size : Nat) (pageAligned : Bool) :
    Except Fault (Option (Hole × Nat)) :=
  firstFit size pageAligned (heap.holes.dropWhile (·.size < size))

/-! ## Taking a hole -/

/-- A hole cut into a free part of `pad` bytes, a used one of `size`, and the free rest. -/
def pieces (hole : Hole) (pad size : Nat) : List Block :=
  let rest := hole.size - pad - size
  (if 0 < pad then [⟨hole.addr, pad, false⟩] else [])
    ++ ⟨hole.addr + pad, size, true⟩
    :: (if 0 < rest then [⟨hole.addr + pad + size, rest, false⟩] else [])

/-- Puts `parts` in the place of the block at `addr`; `none` if there is none. -/
def replaceAt (addr : Nat) (parts : List Block) : List Block → Option (List Block)
  | [] => none
  | block :: rest =>
      if block.addr = addr then some (parts ++ rest)
      else (replaceAt addr parts rest).map (block :: ·)

def take (heap : Heap) (hole : Hole) (pad size : Nat) :
    Except Fault (Except HeapError Nat × Heap) := do
  let parts := pieces hole pad size
  if blockCapacity < heap.blocks.length + (parts.length - 1) then
    return (.error .indexFull, heap)
  match replaceAt hole.addr parts heap.blocks with
  | none => return (.error .invalidFree, heap)
  | some blocks =>
      let heap ← heap.dropHole hole.addr hole.size
      let heap ← heap.setBlocks blocks
      let heap ← addFree parts heap
      return (.ok (hole.addr + pad), heap)

/-! ## Growing -/

/-- Where the heap has to end for its tail to hold an allocation. -/
structure Growth where
  /-- The new end. -/
  stop : Nat
  /-- Entries that the larger tail and its split add to the block list. -/
  added : Nat
deriving DecidableEq, Repr

/-- Plans the least growth that lets the tail hold `size` bytes; `none` beyond the window. -/
def planGrowth (heap : Heap) (size : Nat) (pageAligned : Bool) :
    Except Fault (Option Growth) := do
  let tail := heap.freeTail?
  let tailStart := (tail.map (·.addr)).getD heap.stop
  let aligned ← if pageAligned then pageCeil tailStart else pure tailStart
  match Word.add? aligned size with
  | none => return none
  | some needed =>
      let stop ← pageCeil needed
      if heap.limit < stop then return none
      let added := tail.isNone.toNat + (decide (tailStart < aligned)).toNat
        + (decide (needed < stop)).toNat
      return some ⟨stop, added⟩

/-- Enters a longer backed part into the books: the tail block grows, or one is added. -/
def extend (heap : Heap) (stop : Nat) : Except Fault Heap := do
  let grown := stop - heap.stop
  let heap' ← match heap.freeTail? with
    | some tail => do
        let longer : Block := { tail with size := tail.size + grown }
        let heap ← heap.dropHole tail.addr tail.size
        let heap ← heap.setBlocks (heap.blocks.dropLast ++ [longer])
        heap.addHole tail.addr longer.size
    | none => do
        let heap ← heap.setBlocks (heap.blocks ++ [⟨heap.stop, grown, false⟩])
        heap.addHole heap.stop grown
  return { heap' with stop }

/-- Extends the heap just far enough for its tail to hold `size` bytes. Nothing is mapped
unless the allocation that follows is sure to succeed. -/
def grow (mapper : RegionMapper σ) (size : Nat) (pageAligned : Bool) (heap : Heap) (s : σ) :
    Traced (Option HeapError × Heap × σ) := do
  match ← heap.planGrowth size pageAligned with
  | none => return (some .exhausted, heap, s)
  | some growth =>
      if blockCapacity < heap.blocks.length + growth.added then
        return (some .indexFull, heap, s)
      match ← mapper.map heap.stop growth.stop heap.flags s with
      | (some cause, s) => return (some (.mapping cause), heap, s)
      | (none, s) =>
          Traced.note (.heapGrown heap.stop growth.stop)
          let heap ← heap.extend growth.stop
          return (none, heap, s)

/-! ## Allocating -/

def blockSize? (size : Nat) : Option Nat :=
  let rounded := (size + (heapGranule - 1)) / heapGranule * heapGranule
  if rounded < wordLimit then some rounded else none

def takeBestFit (heap : Heap) (size : Nat) (pageAligned : Bool) :
    Except Fault (Option (Except HeapError Nat × Heap)) := do
  match ← heap.bestFit size pageAligned with
  | none => return none
  | some (hole, pad) => return some (← heap.take hole pad size)

def alloc (mapper : RegionMapper σ) (size : Nat) (pageAligned : Bool) (heap : Heap) (s : σ) :
    Traced (Except HeapError Nat × Heap × σ) := do
  if size = 0 then return (.error .zeroSize, heap, s)
  match blockSize? size with
  | none => return (.error .exhausted, heap, s)
  | some size =>
      match ← heap.takeBestFit size pageAligned with
      | some (answer, heap) => return (answer, heap, s)
      | none =>
          match ← heap.grow mapper size pageAligned s with
          | (some cause, heap, s) => return (.error cause, heap, s)
          | (none, heap, s) =>
              match ← heap.takeBestFit size pageAligned with
              | some (answer, heap) => return (answer, heap, s)
              | none => return (.error .exhausted, heap, s)

/-! ## Freeing -/

/-- The blocks before the one at `addr`, nearest first, that block, and those after it. -/
def splitAt (addr : Nat) : List Block → List Block → Option (List Block × Block × List Block)
  | _, [] => none
  | passed, block :: rest =>
      if block.addr = addr then some (passed, block, rest)
      else splitAt addr (block :: passed) rest

def mergeNext (heap : Heap) (block : Block) (after : List Block) :
    Except Fault (Block × List Block × Heap) := do
  match after with
  | next :: rest =>
      if next.used then return (block, after, heap)
      return ({ block with size := block.size + next.size }, rest,
        ← heap.dropHole next.addr next.size)
  | [] => return (block, after, heap)

def mergePrevious (heap : Heap) (passed : List Block) (block : Block) :
    Except Fault (List Block × Block × Heap) := do
  match passed with
  | previous :: rest =>
      if previous.used then return (passed, block, heap)
      return (rest, { previous with size := previous.size + block.size },
        ← heap.dropHole previous.addr previous.size)
  | [] => return (passed, block, heap)

def release (heap : Heap) (addr : Nat) : Except Fault Heap := do
  match splitAt addr [] heap.blocks with
  | none => throw (.freeOfUnallocated addr)
  | some (passed, block, after) =>
      if !block.used then throw (.freeOfUnallocated addr)
      let (block, after, heap) ← heap.mergeNext { block with used := false } after
      let (passed, block, heap) ← heap.mergePrevious passed block
      let heap ← heap.setBlocks (passed.reverseAux (block :: after))
      heap.addHole block.addr block.size

/-- Where the heap can end once its free tail is given back; `none` to leave it. -/
def planContraction (heap : Heap) : Except Fault (Option (Block × Nat)) := do
  match heap.freeTail? with
  | none => return none
  | some tail =>
      if heap.stop ≤ heap.initialStop then return none
      let stop := max (← pageCeil tail.addr) heap.initialStop
      if stop < heap.stop then return some (tail, stop) else return none

def shorten (heap : Heap) (tail : Block) (stop : Nat) : Except Fault Heap := do
  let heap ← heap.dropHole tail.addr tail.size
  let before := heap.blocks.dropLast
  if stop = tail.addr then return { heap with blocks := before, stop }
  let size ← Word.sub stop tail.addr
  let heap ← heap.setBlocks (before ++ [{ tail with size }])
  let heap ← heap.addHole tail.addr size
  return { heap with stop }

/-- Gives whole free pages at the end back, down to the initial size. -/
def contract (mapper : RegionMapper σ) (heap : Heap) (s : σ) : Traced (Heap × σ) := do
  match ← heap.planContraction with
  | none => return (heap, s)
  | some (tail, stop) =>
      let s ← mapper.unmap stop heap.stop s
      Traced.note (.heapContracted heap.stop stop)
      return (← heap.shorten tail stop, s)

def free (mapper : RegionMapper σ) (addr : Nat) (heap : Heap) (s : σ) : Traced (Heap × σ) := do
  let heap ← heap.release addr
  heap.contract mapper s

def destroy (mapper : RegionMapper σ) (heap : Heap) (s : σ) : Traced σ := do
  Traced.note (.heapDestroyed heap.start heap.stop)
  mapper.unmap heap.start heap.stop s

end Heap

end KernelCore
