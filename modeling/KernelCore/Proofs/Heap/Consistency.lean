import Mathlib
import KernelCore.Proofs.Heap.Runs

/-!
# Consistency of a heap over its runs

Every heap that a run reaches is consistent: its two lists describe the same layout, its end is
the one that its used blocks determine, and its mapper has been asked for exactly its pages. No
call on such a heap meets an index that disagrees with the blocks or a full list, so the only
faults left are those of the mapper and of address arithmetic at the top of the address range.
-/

namespace KernelCore

namespace Heap

def lastUsedStop (heap : Heap) : Nat :=
  ((heap.blocks.filter (·.used)).getLast?.map Block.stop).getD heap.start

structure Consistent (heap : Heap) : Prop where
  /-- The blocks follow each other from start to end, and none is empty. -/
  tiles : Tiles heap.start heap.blocks heap.stop
  granular : ∀ block ∈ heap.blocks, heapGranule ∣ block.addr ∧ heapGranule ∣ block.size
  /-- No two free blocks are neighbours. -/
  coalesced : Coalesced heap.blocks
  /-- The index lists the free blocks, -/
  listed : heap.holes.Perm (freeHoles heap.blocks)
  /-- in strictly ascending order of size and then address. -/
  ascending : heap.holes.Pairwise Hole.before
  bounded : heap.blocks.length ≤ blockCapacity
  stop_page : pageSize ∣ heap.stop
  stop_le : heap.stop ≤ heap.limit
  stop_eq : heap.stop = max heap.initialStop (pageUp heap.lastUsedStop)
  bytes : heap.usedBytes + heap.freeBytes = heap.capacity

theorem Books.lastUsedStop_eq {heap : Heap} (h : heap.Books) :
    heap.lastUsedStop = heap.tailStart := by
  unfold lastUsedStop
  rcases h.tailStart_cases with ⟨hnone, hstart⟩ | ⟨x, hlast, hstop⟩
  · rw [usedBlocks] at hnone
    simp [hnone, hstart]
  · rw [usedBlocks] at hlast
    simp [hlast, hstop]

theorem Valid.consistent {heap : Heap} (h : heap.Valid) : heap.Consistent where
  tiles := h.books.laid.tiles
  granular := h.books.laid.granular
  coalesced := h.books.laid.coalesced
  listed := h.books.listed
  ascending := h.books.sorted.strict h.books.nodup_holes
  bounded := h.books.bounded
  stop_page := h.window.stop_page
  stop_le := h.window.stop_le
  stop_eq := by
    rw [h.books.lastUsedStop_eq]
    exact h.snug
  bytes := h.books.usedBytes_add_freeBytes

variable {σ : Type} {mapper : RegionMapper σ} {start stop maxSize : Nat} {flags : HeapFlags}
  {run : Run σ}

/-- Destroying a heap unmaps its pages, which are all that are mapped. -/
theorem Good.replay_destroy (h : Good run) {t : Recording σ}
    (hdestroy : (run.heap.destroy mapper.recorded run.mapped).result = .ok t) :
    replay t.calls = ∅ := by
  unfold destroy at hdestroy
  simp only [Traced.result_bind, Traced.result_note, ok_bind] at hdestroy
  have hcalls := RegionMapper.recorded_unmap_eq_ok hdestroy
  simp only [hcalls, replay, h.backed, sdiff_self, Finset.bot_eq_empty]

/-- A fault of an allocation is an overflowing address or a fault of the mapper. -/
theorem Good.alloc_fault (h : Good run) {size : Nat} {pageAligned : Bool} {cause : Fault}
    (hfault : (run.heap.alloc mapper.recorded size pageAligned run.mapped).result =
      .error cause) :
    cause = .addOverflow ∨ ∃ stop,
      (mapper.map run.heap.stop stop run.heap.flags run.mapped.backing).result = .error cause := by
  have hends := h.valid.alloc_ends mapper.recorded size pageAligned run.mapped
  rw [hfault] at hends
  cases hends with
  | overflow => exact .inl rfl
  | fault hmap => exact .inr ⟨_, RegionMapper.recorded_map_eq_error hmap⟩

/-- A fault of freeing a live allocation is a fault of the mapper. -/
theorem Good.free_fault (h : Good run) {a : Allocation} (ha : a ∈ run.live) {cause : Fault}
    (hfault : (run.heap.free mapper.recorded a.addr run.mapped).result = .error cause) :
    ∃ stop, (mapper.unmap stop run.heap.stop run.mapped.backing).result = .error cause := by
  have hends := h.valid.free_ends (h.mem_usedBlocks.mpr ⟨a, ha, rfl⟩) mapper.recorded run.mapped
  rw [Allocation.block_addr, hfault] at hends
  cases hends with
  | fault hunmap => exact ⟨_, RegionMapper.recorded_unmap_eq_error hunmap⟩

/-- Every heap of a run is consistent and backed by exactly its pages, until it is destroyed. Its
calls find no hole missing and no list full: what faults they have come from address arithmetic or
from the mapper. -/
theorem Reached.heap_consistent (h : Reached mapper start stop maxSize flags run) :
    run.heap.Consistent ∧
      (run.heap.start = start ∧ run.heap.initialStop = stop ∧ run.heap.limit = start + maxSize) ∧
      replay run.mapped.calls = pagesOf run.heap.start run.heap.stop ∧
      (∀ t, (run.heap.destroy mapper.recorded run.mapped).result = .ok t → replay t.calls = ∅) ∧
      (∀ size pageAligned cause,
        (run.heap.alloc mapper.recorded size pageAligned run.mapped).result = .error cause →
          cause = .addOverflow ∨ ∃ stop,
            (mapper.map run.heap.stop stop run.heap.flags run.mapped.backing).result =
              .error cause) ∧
      ∀ a ∈ run.live, ∀ cause,
        (run.heap.free mapper.recorded a.addr run.mapped).result = .error cause →
          ∃ stop, (mapper.unmap stop run.heap.stop run.mapped.backing).result = .error cause := by
  have hgood := h.good
  obtain ⟨hstart, hinitial, hlimit, -⟩ := h.window
  refine ⟨hgood.valid.consistent, ⟨hstart, hinitial, hlimit⟩, hgood.backed, ?_, ?_, ?_⟩
  · intro t hdestroy
    exact hgood.replay_destroy hdestroy
  · intro size pageAligned cause hfault
    exact hgood.alloc_fault hfault
  · intro a ha cause hfault
    exact hgood.free_fault ha hfault

/-- A heap that grew for a second allocation and gave the first one back is consistent. -/
theorem consistent_after_free :
    ∃ run, Reached PageBudget.mapper 0x1000 0x2000 0x8000 .supervisor run ∧
      run.heap.blocks = [⟨0x1000, 0x1000, false⟩, ⟨0x2000, 0x1000, true⟩] ∧
      run.heap.Consistent ∧ replay run.mapped.calls = pagesOf 0x1000 0x3000 := by
  have hempty : Reached PageBudget.mapper 0x1000 0x2000 0x8000 .supervisor ⟨_, _, []⟩ :=
    .created (s := ⟨16, 0, []⟩) rfl
  have hsmall := hempty.step (@Step.granted _ _ _ 100 _ false _ _ rfl)
  have haligned := hsmall.step (@Step.granted _ _ _ 4096 _ true _ _ rfl)
  have hfreed := haligned.step (@Step.freed _ _ _ 0x1000 _ _ rfl)
  obtain ⟨hconsistent, -, hpages, -⟩ := hfreed.heap_consistent
  exact ⟨_, hfreed, rfl, hconsistent, hpages⟩

end Heap

end KernelCore
