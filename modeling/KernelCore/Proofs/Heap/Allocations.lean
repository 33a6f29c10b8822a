import Mathlib
import KernelCore.Proofs.Heap.Runs

/-!
# Safety of allocations over the runs of a heap

The live allocations of a run lie apart, inside the heap and on the boundaries asked for; the heap
knows exactly them by their addresses and sizes, and frees exactly them. What one call does to the
heap leaves the others as they are: their addresses, their sizes and the pages behind them.
-/

namespace KernelCore

namespace Heap

variable {σ : Type} {mapper : RegionMapper σ} {run run' : Run σ}

theorem Good.bounds (h : Good run) {a : Allocation} (ha : a ∈ run.live) :
    run.heap.start ≤ a.addr ∧ 0 < a.size ∧ a.stop ≤ run.heap.stop ∧ heapGranule ∣ a.addr := by
  have hmem := List.mem_of_mem_filter (h.mem_usedBlocks.mpr ⟨a, ha, rfl⟩)
  obtain ⟨hstart, hpos, hstop⟩ := h.valid.books.laid.tiles.bounds hmem
  exact ⟨hstart, hpos, hstop, (h.valid.books.laid.granular _ hmem).1⟩

theorem Good.apart (h : Good run) :
    run.live.Pairwise fun a b => a.stop ≤ b.addr ∨ b.stop ≤ a.addr := by
  have hordered : (usedBlocks run.heap.blocks).Pairwise fun x y => x.stop ≤ y.addr :=
    h.valid.books.laid.tiles.ordered.sublist List.filter_sublist
  have hused : (usedBlocks run.heap.blocks).Pairwise
      fun x y => x.stop ≤ y.addr ∨ y.stop ≤ x.addr := hordered.imp .inl
  exact List.pairwise_map.mp (h.listed.pairwise hused Or.symm)

theorem Good.allocationSize?_eq_some (h : Good run) {addr size : Nat} :
    run.heap.allocationSize? addr = some size ↔
      ∃ a ∈ run.live, a.addr = addr ∧ a.size = size := by
  have htiles := h.valid.books.laid.tiles
  constructor
  · intro hsize
    unfold allocationSize? at hsize
    split at hsize
    · next block hfind =>
        obtain ⟨hused, heq⟩ := Option.ite_none_right_eq_some.mp hsize
        obtain ⟨a, ha, rfl⟩ := h.mem_usedBlocks.mp
          (List.mem_filter.mpr ⟨List.mem_of_find?_eq_some hfind, hused⟩)
        have haddr : a.addr = addr := by simpa using List.find?_some hfind
        exact ⟨a, ha, haddr, Option.some.inj heq⟩
    · contradiction
  · rintro ⟨a, ha, rfl, rfl⟩
    have hmem := List.mem_of_mem_filter (h.mem_usedBlocks.mpr ⟨a, ha, rfl⟩)
    have hfind := htiles.find?_eq hmem
    rw [Allocation.block_addr] at hfind
    simp [allocationSize?, hfind]

/-- Freeing a live allocation succeeds unless the mapper faults, however full the block list. -/
theorem Good.free_live (h : Good run) {a : Allocation} (ha : a ∈ run.live) :
    (∃ heap t, (run.heap.free mapper.recorded a.addr run.mapped).result = .ok (heap, t)) ∨
      ∃ stop cause,
        (mapper.unmap stop run.heap.stop run.mapped.backing).result = .error cause ∧
        (run.heap.free mapper.recorded a.addr run.mapped).result = .error cause := by
  have hends := h.valid.free_ends (h.mem_usedBlocks.mpr ⟨a, ha, rfl⟩) mapper.recorded run.mapped
  rw [Allocation.block_addr] at hends
  cases hfree : (run.heap.free mapper.recorded a.addr run.mapped).result with
  | ok answer => exact .inl ⟨answer.1, answer.2, rfl⟩
  | error cause =>
      rw [hfree] at hends
      cases hends with
      | fault hunmap => exact .inr ⟨_, cause, RegionMapper.recorded_unmap_eq_error hunmap, rfl⟩

theorem Good.free_other (h : Good run) {addr : Nat} (other : ∀ a ∈ run.live, a.addr ≠ addr) :
    (run.heap.free mapper.recorded addr run.mapped).result = .error (.freeOfUnallocated addr) := by
  refine h.valid.free_absent ?_ mapper.recorded run.mapped
  intro x hx
  obtain ⟨a, ha, rfl⟩ := h.mem_usedBlocks.mp hx
  exact other a ha

/-- The calls of a step unmap no page of an allocation that stays live. -/
theorem Good.step_calls (h : Good run) (hs : Step mapper run run') {a : Allocation}
    (ha : a ∈ run'.live) :
    ∃ made, run'.mapped.calls = made ++ run.mapped.calls ∧
      ∀ first last, .unmap first last ∈ made →
        Disjoint (pagesOf first last) (pagesOf a.addr a.stop) := by
  have hgood := h.step hs
  rcases h.step_cases hs with ⟨size, pageAligned, addr, heap, t, hg, rfl⟩ |
    ⟨t, hcalls, rfl⟩ | ⟨freed, -, heap, t, hr, rfl⟩
  · rcases hg.backing with ⟨-, rfl⟩ | ⟨-, hmap⟩
    · exact ⟨[], rfl, by simp⟩
    · exact ⟨[_], RegionMapper.recorded_map_eq_ok hmap, by simp⟩
  · rcases hcalls with hcalls | ⟨stop, hcalls⟩
    · exact ⟨[], hcalls, by simp⟩
    · exact ⟨[_], hcalls, by simp⟩
  · rcases hr.backing with ⟨-, rfl⟩ | ⟨-, hunmap⟩
    · exact ⟨[], rfl, by simp⟩
    · refine ⟨[_], RegionMapper.recorded_unmap_eq_ok hunmap, ?_⟩
      intro first last hm
      obtain ⟨rfl, rfl⟩ : first = heap.stop ∧ last = run.heap.stop := by simpa using hm
      -- What stays live lies in front of the new end, where the unmapped pages begin.
      obtain ⟨-, -, hstop, -⟩ := hgood.bounds ha
      exact disjoint_pagesOf hr.valid.window.stop_page hstop

theorem Good.pagesOf_subset (h : Good run) {a : Allocation} (ha : a ∈ run.live) :
    pagesOf a.addr a.stop ⊆ replay run.mapped.calls := by
  obtain ⟨hstart, -, hstop, -⟩ := h.bounds ha
  rw [h.backed]
  intro page hm
  rw [mem_pagesOf] at hm ⊢
  exact ⟨Nat.lt_of_le_of_lt hstart hm.1, Nat.lt_of_lt_of_le hm.2 hstop⟩

variable {start stop maxSize : Nat} {flags : HeapFlags}

/-- Live allocations lie apart, inside the heap and aligned as asked; a size is answered for them
and for no other address; they can be freed, and nothing else can; and a call neither moves,
resizes nor unmaps those it was not about. -/
theorem Reached.allocations_safe (h : Reached mapper start stop maxSize flags run) :
    (run.live.Pairwise fun a b => a.stop ≤ b.addr ∨ b.stop ≤ a.addr) ∧
      (∀ a ∈ run.live, run.heap.start ≤ a.addr ∧ a.stop ≤ run.heap.stop ∧ heapGranule ∣ a.addr ∧
        (a.pageAligned = true → pageSize ∣ a.addr)) ∧
      (∀ addr size, run.heap.allocationSize? addr = some size ↔
        ∃ a ∈ run.live, a.addr = addr ∧ a.size = size) ∧
      (∀ a ∈ run.live,
        (∃ heap t, (run.heap.free mapper.recorded a.addr run.mapped).result = .ok (heap, t)) ∨
          ∃ stop cause,
            (mapper.unmap stop run.heap.stop run.mapped.backing).result = .error cause ∧
            (run.heap.free mapper.recorded a.addr run.mapped).result = .error cause) ∧
      (∀ addr, (∀ a ∈ run.live, a.addr ≠ addr) →
        (run.heap.free mapper.recorded addr run.mapped).result =
          .error (.freeOfUnallocated addr)) ∧
      ∀ run', Step mapper run run' → ∀ a ∈ run.live, a ∈ run'.live →
        run'.heap.allocationSize? a.addr = some a.size ∧
          pagesOf a.addr a.stop ⊆ replay run'.mapped.calls ∧
          ∃ made, run'.mapped.calls = made ++ run.mapped.calls ∧
            ∀ first last, .unmap first last ∈ made →
              Disjoint (pagesOf first last) (pagesOf a.addr a.stop) := by
  have hgood := h.good
  refine ⟨hgood.apart, ?_, ?_, ?_, ?_, ?_⟩
  · intro a ha
    obtain ⟨hstart, -, hstop, hgranule⟩ := hgood.bounds ha
    exact ⟨hstart, hstop, hgranule, hgood.pages a ha⟩
  · intro addr size
    exact hgood.allocationSize?_eq_some
  · intro a ha
    exact hgood.free_live ha
  · intro addr hother
    exact hgood.free_other hother
  · intro run' hs a _ ha
    have hnext := hgood.step hs
    exact ⟨hnext.allocationSize?_eq_some.mpr ⟨a, ha, rfl, rfl⟩, hnext.pagesOf_subset ha,
      hgood.step_calls hs ha⟩

/-- Behind a small allocation, one on a page boundary makes the heap grow. Both are then known by
address and size, and an address inside the first is not. -/
theorem allocations_safe_after_growth :
    ∃ run, Reached PageBudget.mapper 0x1000 0x2000 0x8000 .supervisor run ∧
      run.live = [⟨0x2000, 0x1000, true⟩, ⟨0x1000, 0x70, false⟩] ∧
      run.heap.allocationSize? 0x1000 = some 0x70 ∧ run.heap.allocationSize? 0x1010 = none := by
  have hempty : Reached PageBudget.mapper 0x1000 0x2000 0x8000 .supervisor ⟨_, _, []⟩ :=
    .created (s := ⟨16, 0, []⟩) rfl
  have hsmall := hempty.step (@Step.granted _ _ _ 100 _ false _ _ rfl)
  have haligned := hsmall.step (@Step.granted _ _ _ 4096 _ true _ _ rfl)
  have hsize := haligned.allocations_safe.2.2.1
  refine ⟨_, haligned, rfl, ?_, ?_⟩
  · exact (hsize _ _).mpr ⟨⟨0x1000, 0x70, false⟩, .tail _ (.head _), rfl, rfl⟩
  rw [Option.eq_none_iff_forall_ne_some]
  intro size hsome
  obtain ⟨a, ha, hstart, -⟩ := (hsize _ _).mp hsome
  revert a
  decide

end Heap

end KernelCore
