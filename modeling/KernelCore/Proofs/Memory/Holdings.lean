import Mathlib
import KernelCore.Proofs.Heap.Steps
import KernelCore.Proofs.Memory.Backing

/-!
# Who holds which heap block

Once the kernel heap works, its blocks are held as private tables, as directories, or by callers.
`Kept` says that no block is held twice and none that is held is free, that the kernel's tables lie
outside the heap's window, and that frames are owned over the kernel's and the private tables. A
block moves between the holders as it is allocated, taken for a table, cleared and freed.
-/

namespace KernelCore

open Heap

/-- Kernel memory with a heap whose blocks at `own` serve as tables and at `others` as anything
else. -/
structure Kept (directory : PageDirectory) (own others : List Nat) (heap : Heap)
    (space : KernelSpace) : Prop where
  valid : heap.Valid
  holds : space.Holds directory (directory.tableAddrs ++ own)
  distinct : directory.tableAddrs.Nodup
  outside : ∀ table ∈ directory.tableAddrs, table < heap.start ∨ heap.limit ≤ table
  once : (own ++ others).Nodup
  live : ∀ addr ∈ own ++ others, ∃ block ∈ usedBlocks heap.blocks, block.addr = addr

variable {directory : PageDirectory} {own own' others others' : List Nat} {heap heap' : Heap}
  {space space' : KernelSpace} {addr : Nat}

theorem Kept.perm (h : Kept directory own others heap space) (tables : own.Perm own')
    (rest : others.Perm others') : Kept directory own' others' heap space where
  valid := h.valid
  holds := ⟨h.holds.same, h.holds.owned.perm (tables.append_left _) fun _ _ => rfl⟩
  distinct := h.distinct
  outside := h.outside
  once := (tables.append rest).nodup_iff.mp h.once
  live := fun addr hm => h.live addr ((tables.append rest).mem_iff.mpr hm)

theorem Kept.forget (h : Kept directory own (addr :: others) heap space) :
    Kept directory own others heap space where
  valid := h.valid
  holds := h.holds
  distinct := h.distinct
  outside := h.outside
  once := h.once.sublist ((List.Sublist.refl own).append (List.sublist_cons_self addr others))
  live := fun a hm => h.live a
    (((List.Sublist.refl own).append (List.sublist_cons_self addr others)).mem hm)

theorem Kept.of_space (h : Kept directory own others heap space)
    (holds : space'.Holds directory (directory.tableAddrs ++ own)) :
    Kept directory own others heap space' :=
  ⟨h.valid, holds, h.distinct, h.outside, h.once, h.live⟩

theorem Kept.inside (_ : Kept directory own others heap space) :
    directory.tableAddrs ⊆ directory.tableAddrs ++ own :=
  List.subset_append_left _ _

/-! ## Allocating and freeing -/

theorem Kept.granted (h : Kept directory own others heap space) {size : Nat} {pageAligned : Bool}
    (hg : Granted KernelSpace.mapper size pageAligned heap space addr heap' space') :
    Kept directory own (addr :: others) heap' space' := by
  have hholds : space'.Holds directory (directory.tableAddrs ++ own) := by
    rcases hg.backing with ⟨-, rfl⟩ | ⟨-, hmap⟩
    · exact h.holds
    · exact h.holds.map h.inside hmap
  have hnodup : ((usedBlocks heap'.blocks).map (·.addr)).Nodup :=
    hg.valid.books.laid.tiles.nodup.sublist (List.filter_sublist.map _)
  rw [(hg.used.map (·.addr)).nodup_iff, List.map_cons, List.nodup_cons] at hnodup
  have hfresh : addr ∉ own ++ others := by
    intro hm
    obtain ⟨block, hblock, rfl⟩ := h.live addr hm
    exact hnodup.1 (List.mem_map.mpr ⟨block, hblock, rfl⟩)
  refine ⟨hg.valid, hholds, h.distinct, ?_, ?_, ?_⟩
  · rw [hg.same.start, hg.same.limit]
    exact h.outside
  · rw [List.perm_middle.nodup_iff, List.nodup_cons]
    exact ⟨hfresh, h.once⟩
  · intro a hm
    rcases List.mem_cons.mp (List.perm_middle.mem_iff.mp hm) with rfl | hm
    · exact ⟨_, hg.used.mem_iff.mpr List.mem_cons_self, rfl⟩
    · obtain ⟨block, hblock, hsame⟩ := h.live a hm
      exact ⟨block, hg.used.mem_iff.mpr (List.mem_cons_of_mem _ hblock), hsame⟩

theorem Kept.alloc (h : Kept directory own others heap space) {size : Nat} {pageAligned : Bool}
    {answer : Except HeapError Nat}
    (halloc : (heap.alloc KernelSpace.mapper size pageAligned space).result =
      .ok (answer, heap', space')) :
    (∃ cause, answer = .error cause ∧ Kept directory own others heap' space') ∨
      ∃ addr, answer = .ok addr ∧ Kept directory own (addr :: others) heap' space' := by
  have hends := h.valid.alloc_ends KernelSpace.mapper size pageAligned space
  rw [halloc] at hends
  cases hends with
  | refused cause => exact .inl ⟨cause, rfl, h⟩
  | unmapped hmap => exact .inl ⟨_, rfl, h.of_space (h.holds.map h.inside hmap)⟩
  | granted hg => exact .inr ⟨_, rfl, h.granted hg⟩

theorem Kept.free (h : Kept directory own (addr :: others) heap space)
    (hfree : (heap.free KernelSpace.mapper addr space).result = .ok (heap', space')) :
    Kept directory own others heap' space' := by
  obtain ⟨block, hblock, rfl⟩ := h.live addr (by simp)
  have hends := h.valid.free_ends hblock KernelSpace.mapper space
  rw [hfree] at hends
  cases hends with
  | released hr =>
      have hholds : space'.Holds directory (directory.tableAddrs ++ own) := by
        rcases hr.backing with ⟨-, rfl⟩ | ⟨-, hunmap⟩
        · exact h.holds
        · exact h.holds.unmap h.inside hunmap
      have honce := h.once
      rw [List.perm_middle.nodup_iff, List.nodup_cons] at honce
      refine ⟨hr.valid, hholds, h.distinct, ?_, honce.2, ?_⟩
      · rw [hr.same.start, hr.same.limit]
        exact h.outside
      · intro a hm
        obtain ⟨x, hx, rfl⟩ := h.forget.live a hm
        rcases List.mem_cons.mp (hr.used.mem_iff.mp hx) with rfl | hx
        · exact absurd hm honce.1
        · exact ⟨x, hx, rfl⟩

theorem Kept.exists_free (h : Kept directory own (addr :: others) heap space) :
    ∃ freed, (heap.free KernelSpace.mapper addr space).result = .ok freed := by
  obtain ⟨block, hblock, rfl⟩ := h.live addr (by simp)
  have hends := h.valid.free_ends hblock KernelSpace.mapper space
  cases hfree : (heap.free KernelSpace.mapper block.addr space).result with
  | ok freed => exact ⟨freed, rfl⟩
  | error cause =>
      rw [hfree] at hends
      cases hends with
      | fault hunmap =>
          obtain ⟨space', hback⟩ := h.holds.exists_unmap h.inside _ _
          rw [hback] at hunmap
          contradiction

/-! ## Tables -/

theorem Kept.not_mem_tableAddrs (h : Kept directory own others heap space)
    (held : addr ∈ own ++ others) : addr ∉ directory.tableAddrs := by
  intro hm
  obtain ⟨block, hblock, rfl⟩ := h.live addr held
  obtain ⟨hstart, hpos, hstop⟩ :=
    h.valid.books.laid.tiles.bounds (List.mem_of_mem_filter hblock)
  have hlimit := h.valid.window.stop_le
  have houtside := h.outside _ hm
  unfold Block.stop at hstop
  omega

theorem Kept.not_mem_tables (h : Kept directory own (addr :: others) heap space) :
    addr ∉ directory.tableAddrs ++ own := by
  intro hm
  rcases List.mem_append.mp hm with hm | hm
  · exact h.not_mem_tableAddrs (by simp) hm
  · have honce := h.once
    rw [List.perm_middle.nodup_iff, List.nodup_cons] at honce
    exact honce.1 (List.mem_append_left _ hm)

theorem Kept.nodup_tables (h : Kept directory own others heap space) :
    (directory.tableAddrs ++ own).Nodup := by
  rw [List.nodup_append']
  refine ⟨h.distinct, h.once.of_append_left, fun table hm hown => ?_⟩
  exact h.not_mem_tableAddrs (List.mem_append_left _ hown) hm

/-- A block becomes a table once it is cleared. -/
theorem Kept.adopt (h : Kept directory own (addr :: others) heap space) :
    Kept directory (addr :: own) others heap { space with ram := space.ram.clearTable addr } := by
  refine ⟨h.valid, ⟨h.holds.same, ?_⟩, h.distinct, h.outside, ?_, ?_⟩
  · exact (h.holds.owned.adopt h.not_mem_tables).perm List.perm_middle.symm fun _ _ => rfl
  · exact List.perm_middle.nodup_iff.mp h.once
  · exact fun a hm => h.live a (List.perm_middle.mem_iff.mpr hm)

/-- A table becomes a mere block once its frames are given back. -/
theorem Kept.surrender (h : Kept directory (addr :: own) others heap space)
    (hunback : space.unbackTable addr = .ok space') :
    Kept directory own (addr :: others) heap space' := by
  obtain ⟨hholds, habsent⟩ := h.holds.unbackTable (by simp) hunback
  refine ⟨h.valid, ⟨hholds.same, ?_⟩, h.distinct, h.outside, ?_, ?_⟩
  · exact (owned_cons_iff habsent).mp (hholds.owned.perm List.perm_middle fun _ _ => rfl)
  · exact List.perm_middle.nodup_iff.mpr h.once
  · exact fun a hm => h.live a (List.perm_middle.mem_iff.mp hm)

end KernelCore
