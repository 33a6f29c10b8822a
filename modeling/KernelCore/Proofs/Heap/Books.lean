import Mathlib
import KernelCore.Proofs.Heap.Index
import KernelCore.Proofs.Pages

/-!
# Consistent books

The two lists of a heap are consistent when the blocks tile the backed part in granules, no two
free blocks are neighbours, and the index lists exactly the free blocks in order. Each change to
the books is shown to keep them consistent, with the effect it has on the used blocks.
-/

namespace KernelCore

namespace Heap

/-! ## Layouts -/

/-- A coalesced tiling of `[start, stop)` in whole granules. -/
structure Laid (start : Nat) (blocks : List Block) (stop : Nat) : Prop where
  tiles : Tiles start blocks stop
  granular : ∀ block ∈ blocks, heapGranule ∣ block.addr ∧ heapGranule ∣ block.size
  coalesced : Coalesced blocks

theorem Laid.singleton {x : Block} (pos : 0 < x.size) (addr : heapGranule ∣ x.addr)
    (size : heapGranule ∣ x.size) : Laid x.addr [x] x.stop where
  tiles := tiles_singleton.mpr ⟨rfl, pos, rfl⟩
  granular := by simp [addr, size]
  coalesced := coalesced_singleton x

theorem Laid.append {xs ys : List Block} {a b c : Nat} (hxs : Laid a xs b) (hys : Laid b ys c)
    (meet : ∀ x ∈ xs.getLast?, ∀ y ∈ ys.head?, x.used = true ∨ y.used = true) :
    Laid a (xs ++ ys) c where
  tiles := tiles_append.mpr ⟨b, hxs.tiles, hys.tiles⟩
  granular := fun x hx =>
    (List.mem_append.mp hx).elim (hxs.granular x) (hys.granular x)
  coalesced := hxs.coalesced.append hys.coalesced meet

theorem Laid.front {pre post : List Block} {x : Block} {a b : Nat}
    (h : Laid a (pre ++ x :: post) b) : Laid a pre x.addr where
  tiles := h.tiles.split.1
  granular := fun y hy => h.granular y (by simp [hy])
  coalesced := h.coalesced.front

theorem Laid.back {pre post : List Block} {x : Block} {a b : Nat}
    (h : Laid a (pre ++ x :: post) b) : Laid x.stop post b where
  tiles := h.tiles.split.2.2
  granular := fun y hy => h.granular y (by simp [hy])
  coalesced := by
    have hsplit : pre ++ x :: post = (pre ++ [x]) ++ post := by simp
    exact (hsplit ▸ h.coalesced).back

theorem Laid.dvd_stop {xs : List Block} {a b : Nat} (h : Laid a xs b) (start : heapGranule ∣ a) :
    heapGranule ∣ b := by
  rcases List.eq_nil_or_concat xs with rfl | ⟨pre, x, rfl⟩
  · have hab : a = b := h.tiles
    exact hab ▸ start
  · rw [List.concat_eq_append] at h
    have hstop : x.stop = b := h.tiles.split.2.2
    obtain ⟨haddr, hsize⟩ := h.granular x (by simp)
    exact hstop ▸ Nat.dvd_add haddr hsize

/-- The parts before and behind a block, with any layout of the same range between them that
meets used blocks on both sides. -/
theorem Laid.between {pre mid post : List Block} {a b c d : Nat} (hpre : Laid a pre b)
    (hmid : Laid b mid c) (hpost : Laid c post d) (last : ∀ y ∈ pre.getLast?, y.used = true)
    (head : ∀ y ∈ post.head?, y.used = true) : Laid a (pre ++ mid ++ post) d where
  tiles := tiles_append.mpr ⟨c, tiles_append.mpr ⟨b, hpre.tiles, hmid.tiles⟩, hpost.tiles⟩
  granular := by
    intro x hx
    rcases List.mem_append.mp hx with hx | hx
    · exact (List.mem_append.mp hx).elim (hpre.granular x) (hmid.granular x)
    · exact hpost.granular x hx
  coalesced := hpre.coalesced.between hmid.coalesced hpost.coalesced last head

/-! ## Consistency -/

structure Books (heap : Heap) : Prop where
  laid : Laid heap.start heap.blocks heap.stop
  listed : heap.holes.Perm (freeHoles heap.blocks)
  sorted : Hole.Sorted heap.holes
  bounded : heap.blocks.length ≤ blockCapacity

variable {heap : Heap}

theorem Books.nodup_holes (h : heap.Books) : heap.holes.Nodup :=
  h.listed.nodup_iff.mpr h.laid.tiles.nodup_freeHoles

theorem Books.hole_split (h : heap.Books) {hole : Hole} (hm : hole ∈ heap.holes) :
    ∃ pre post, heap.blocks = pre ++ ⟨hole.addr, hole.size, false⟩ :: post :=
  List.append_of_mem (mem_freeHoles.mp (h.listed.mem_iff.mp hm))

theorem Books.hole_bounds (h : heap.Books) {hole : Hole} (hm : hole ∈ heap.holes) :
    heap.start ≤ hole.addr ∧ 0 < hole.size ∧ hole.addr + hole.size ≤ heap.stop ∧
      heapGranule ∣ hole.addr ∧ heapGranule ∣ hole.size := by
  have hmem := mem_freeHoles.mp (h.listed.mem_iff.mp hm)
  obtain ⟨hstart, hpos, hstop⟩ := h.laid.tiles.bounds hmem
  obtain ⟨haddr, hsize⟩ := h.laid.granular _ hmem
  exact ⟨hstart, hpos, hstop, haddr, hsize⟩

theorem Books.usedBytes_add_freeBytes (h : heap.Books) :
    heap.usedBytes + heap.freeBytes = heap.capacity := by
  have hfree : heap.freeBytes = ((freeHoles heap.blocks).map (·.size)).sum := by
    rw [freeBytes, ← List.sum_eq_foldr]
    exact (h.listed.map _).sum_eq
  have hsum := sum_usedBlocks_add_sum_freeHoles heap.blocks
  have htotal := h.laid.tiles.sum_size
  rw [hfree, usedBytes, capacity, ← List.sum_eq_foldr]
  unfold usedBlocks at hsum
  omega

/-! ## The tail -/

def freeSpan (start stop : Nat) : List Block :=
  if start < stop then [⟨start, stop - start, false⟩] else []

theorem freeSpan_of_lt {start stop : Nat} (lt : start < stop) :
    freeSpan start stop = [⟨start, stop - start, false⟩] := by
  rw [freeSpan, if_pos lt]

theorem laid_freeSpan {start stop : Nat} (le : start ≤ stop) (first : heapGranule ∣ start)
    (last : heapGranule ∣ stop) : Laid start (freeSpan start stop) stop := by
  unfold freeSpan
  split
  · next hlt =>
      have hsingle : Laid start [⟨start, stop - start, false⟩] (start + (stop - start)) :=
        Laid.singleton (x := ⟨start, stop - start, false⟩) (Nat.sub_pos_of_lt hlt) first
          (Nat.dvd_sub last first)
      rwa [Nat.add_sub_cancel' le] at hsingle
  · next hlt =>
      obtain rfl : start = stop := by omega
      exact ⟨rfl, by simp, .nil⟩

@[simp] theorem usedBlocks_freeSpan (start stop : Nat) :
    usedBlocks (freeSpan start stop) = [] := by
  unfold freeSpan
  split <;> simp [usedBlocks]

/-- Where the free tail starts; the end of the backed part if the last block is used. -/
def tailStart (heap : Heap) : Nat := (heap.freeTail?.map (·.addr)).getD heap.stop

def front (heap : Heap) : List Block :=
  if heap.freeTail?.isSome then heap.blocks.dropLast else heap.blocks

theorem freeTail?_eq_some {tail : Block} (h : heap.freeTail? = some tail) :
    tail.used = false ∧ heap.blocks = heap.front ++ [tail] := by
  obtain ⟨hlast, hfree⟩ := Option.filter_eq_some_iff.mp h
  refine ⟨by simpa using hfree, ?_⟩
  simpa [front, h] using (List.dropLast_append_getLast? tail hlast).symm

theorem freeTail?_eq_none (h : heap.freeTail? = none) :
    heap.blocks = heap.front ∧ ∀ x ∈ heap.blocks.getLast?, x.used = true := by
  refine ⟨by simp [front, h], fun x hx => ?_⟩
  simpa using Option.filter_eq_none_iff.mp h x hx

theorem tailStart_of_some {tail : Block} (h : heap.freeTail? = some tail) :
    heap.tailStart = tail.addr := by
  simp [tailStart, h]

theorem tailStart_of_none (h : heap.freeTail? = none) : heap.tailStart = heap.stop := by
  simp [tailStart, h]

theorem Books.freeTail_eq (h : heap.Books) {tail : Block} (htail : heap.freeTail? = some tail) :
    tail = ⟨heap.tailStart, heap.stop - heap.tailStart, false⟩ ∧ heap.tailStart < heap.stop := by
  obtain ⟨hfree, hblocks⟩ := freeTail?_eq_some htail
  obtain ⟨-, hpos, hend⟩ := (hblocks ▸ h.laid).tiles.split
  rw [tailStart_of_some htail]
  obtain ⟨addr, size, used⟩ := tail
  simp only at hfree hpos
  have hstop : addr + size = heap.stop := hend
  simp only [hfree, Block.mk.injEq, and_true, true_and]
  omega

theorem Books.blocks_eq (h : heap.Books) :
    heap.blocks = heap.front ++ freeSpan heap.tailStart heap.stop := by
  cases htail : heap.freeTail? with
  | none =>
      rw [tailStart_of_none htail, freeSpan, if_neg (Nat.lt_irrefl _), List.append_nil]
      exact (freeTail?_eq_none htail).1
  | some tail =>
      obtain ⟨heq, hlt⟩ := h.freeTail_eq htail
      rw [freeSpan_of_lt hlt, ← heq]
      exact (freeTail?_eq_some htail).2

/-- The front reaches up to the tail and ends with a used block, if it has any. -/
theorem Books.laid_front (h : heap.Books) :
    Laid heap.start heap.front heap.tailStart ∧ ∀ x ∈ heap.front.getLast?, x.used = true := by
  cases htail : heap.freeTail? with
  | none =>
      obtain ⟨hblocks, hlast⟩ := freeTail?_eq_none htail
      rw [tailStart_of_none htail, ← hblocks]
      exact ⟨h.laid, hlast⟩
  | some tail =>
      obtain ⟨hfree, hblocks⟩ := freeTail?_eq_some htail
      have hlaid := hblocks ▸ h.laid
      rw [tailStart_of_some htail]
      exact ⟨hlaid.front, hlaid.coalesced.last_used hfree⟩

theorem Books.usedBlocks_front (h : heap.Books) :
    usedBlocks heap.front = usedBlocks heap.blocks := by
  conv_rhs => rw [h.blocks_eq]
  simp

theorem Books.tailStart_le (h : heap.Books) : heap.tailStart ≤ heap.stop := by
  cases htail : heap.freeTail? with
  | none => rw [tailStart_of_none htail]
  | some tail => exact (h.freeTail_eq htail).2.le

theorem Books.tailStart_cases (h : heap.Books) :
    (usedBlocks heap.blocks = [] ∧ heap.tailStart = heap.start) ∨
      ∃ x, (usedBlocks heap.blocks).getLast? = some x ∧ x.stop = heap.tailStart := by
  obtain ⟨hlaid, hlast⟩ := h.laid_front
  rw [← h.usedBlocks_front]
  rcases List.eq_nil_or_concat heap.front with hnil | ⟨pre, x, hfront⟩
  · rw [hnil] at hlaid ⊢
    exact .inl ⟨rfl, hlaid.tiles.symm⟩
  · rw [List.concat_eq_append] at hfront
    rw [hfront] at hlaid hlast ⊢
    have hx : x.used = true := hlast x (by simp)
    refine .inr ⟨x, ?_, hlaid.tiles.split.2.2⟩
    simp [usedBlocks_cons, hx]

theorem Books.stop_le_tailStart (h : heap.Books) {x : Block} (hx : x ∈ usedBlocks heap.blocks) :
    x.stop ≤ heap.tailStart := by
  rw [← h.usedBlocks_front] at hx
  exact (h.laid_front.1.tiles.bounds (List.mem_of_mem_filter hx)).2.2

theorem Books.tailStart_mono {heap' : Heap} (h : heap.Books) (h' : heap'.Books)
    (start : heap'.start = heap.start)
    (used : ∀ x ∈ usedBlocks heap.blocks, x ∈ usedBlocks heap'.blocks) :
    heap.tailStart ≤ heap'.tailStart := by
  rcases h.tailStart_cases with ⟨-, hs⟩ | ⟨x, hx, hstop⟩
  · rw [hs, ← start]
    exact h'.laid_front.1.tiles.le
  · have hx' := h'.stop_le_tailStart (used x (List.mem_of_getLast? hx))
    omega

/-! ## Another tail -/

/-- The index without the free tail lists the free blocks of the front. -/
theorem Books.dropTail_eq (h : heap.Books) {tail : Block} (htail : heap.freeTail? = some tail) :
    heap.dropHole tail.addr tail.size =
        .ok { heap with holes := heap.holes.erase ⟨tail.size, tail.addr⟩ } ∧
      (heap.holes.erase ⟨tail.size, tail.addr⟩).Perm (freeHoles heap.front) := by
  obtain ⟨hfree, hblocks⟩ := freeTail?_eq_some htail
  have hperm : heap.holes.Perm (⟨tail.size, tail.addr⟩ :: freeHoles heap.front) := by
    have hlisted := h.listed
    rw [hblocks, freeHoles_append, freeHoles_cons, hfree] at hlisted
    exact hlisted.trans (List.perm_append_singleton _ _)
  refine ⟨dropHole_eq (hperm.mem_iff.mpr (by simp)), ?_⟩
  simpa using hperm.erase (⟨tail.size, tail.addr⟩ : Hole)

/-- With the same front, any free span up to the new end makes consistent books. -/
theorem Books.retail (h : heap.Books) {holes : List Hole} {stop : Nat}
    (le : heap.tailStart ≤ stop) (last : heapGranule ∣ stop)
    (listed : holes.Perm (freeHoles (heap.front ++ freeSpan heap.tailStart stop)))
    (sorted : Hole.Sorted holes)
    (room : (heap.front ++ freeSpan heap.tailStart stop).length ≤ blockCapacity)
    (first : heapGranule ∣ heap.start) :
    Books { heap with blocks := heap.front ++ freeSpan heap.tailStart stop, holes, stop } where
  laid := h.laid_front.1.append (laid_freeSpan le (h.laid_front.1.dvd_stop first) last)
    fun x hx _ _ => .inl (h.laid_front.2 x hx)
  listed := listed
  sorted := sorted
  bounded := room

theorem Books.tailStart_eq {heap' : Heap} (h : heap.Books) (h' : heap'.Books)
    (start : heap'.start = heap.start) (used : usedBlocks heap'.blocks = usedBlocks heap.blocks) :
    heap'.tailStart = heap.tailStart :=
  Nat.le_antisymm (h'.tailStart_mono h start.symm fun _ hx => used ▸ hx)
    (h.tailStart_mono h' start fun _ hx => used ▸ hx)

end Heap

end KernelCore
