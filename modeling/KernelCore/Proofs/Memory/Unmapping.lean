import Mathlib
import KernelCore.Proofs.Memory.Custody
import KernelCore.Proofs.Memory.Footprint
import KernelCore.Proofs.Memory.Runs

/-!
# Unmapping for an address space

Unmapping a range of an address space touches the entries of its pages, in whatever tables they lie.
As long as no page of the range lies under a borrowed table, the kernel keeps all its mappings and
their frames. A page under a borrowed table is unmapped for the kernel, too.
-/

namespace KernelCore

namespace KernelMemory

variable {info : BootInfo} {run : Run} {kernel : PageDirectory} {own others : List Nat}
  {heap : Heap} {memory : KernelMemory} {space : AddressSpace}

theorem Keeps.exists_unmapRange (h : memory.Keeps kernel (space.directory.ownAddrs ++ own) others)
    (borrows : Borrows kernel space.directory) (start stop : Nat) :
    ∃ memory', (memory.unmapRange space start stop).result = .ok memory' ∧
      memory'.heap = memory.heap ∧
      memory.space.Spares (space.directory.Covers (pageFloor start) stop) memory'.space ∧
      ∀ ref, space.directory.Covers (pageFloor start) stop ref →
        (memory'.space.ram.entry ref).present = false := by
  obtain ⟨heap, -, hkept⟩ := h
  have hlookup : space.directory.tableAddrs ⊆
      kernel.tableAddrs ++ (space.directory.ownAddrs ++ own) := borrows.tables_subset
  have haligned : pageSize ∣ pageFloor start := by
    rw [pageFloor_eq]
    exact Nat.dvd_mul_left _ _
  obtain ⟨space', hsweep⟩ : ∃ space', (Traced.sweepAll pageSize
      (fun page kernel => kernel.unbackPage space.directory page)
      (pageCount (pageFloor start) stop) (pageFloor start) memory.space).result = .ok space' := by
    apply Traced.exists_sweepAll (P := fun s =>
      s.Holds kernel (kernel.tableAddrs ++ (space.directory.ownAddrs ++ own))) _ hkept.holds
    intro page s hs
    obtain ⟨t, hunback⟩ := hs.exists_unbackPage hlookup page
    exact ⟨t, hunback, hs.unbackPage hlookup hunback⟩
  refine ⟨{ memory with space := space' }, ?_, rfl,
    KernelSpace.unmapPages_spares haligned hsweep, fun ref =>
    KernelSpace.unmapPages_clears haligned hsweep⟩
  unfold KernelMemory.unmapRange
  simp only [Traced.result_bind, hsweep, ok_bind, Traced.result_pure]

/-- Unmapping a range of an address space comes back. If no page of the range lies under a borrowed
table, then every kernel translation and every entry of the kernel's tables stays as it is, and so do
the frames that these entries map. In general, the kernel loses the pages whose entries the range
covers. -/
theorem Reached.unmapRange_spares_kernel (h : Reached info run) (hm : space ∈ run.spaces)
    (start stop : Nat) :
    ∃ memory', (run.memory.unmapRange space start stop).result = .ok memory' ∧
      (space.directory.Private start stop →
        (∀ virt, memory'.translate virt = run.memory.translate virt) ∧
        ∀ ref : EntryRef, ref.table ∈ run.memory.space.directory.tableAddrs →
          memory'.space.ram.entry ref = run.memory.space.ram.entry ref ∧
          ∀ number, (run.memory.space.ram.entry ref).owns number →
            memory'.space.frames.bit number = true) ∧
      ∀ virt ref, run.memory.space.directory.find? virt = some ref →
        space.directory.Covers (pageFloor start) stop ref → memory'.translate virt = none := by
  obtain ⟨kernel, hgood⟩ := h.good
  have hfront := hgood.front hm
  have hborrows := hgood.borrows space hm
  obtain ⟨memory', hunmap, -, hspares, hclears⟩ :=
    hfront.exists_unmapRange hborrows start stop
  refine ⟨memory', hunmap, fun inside => ?_, fun virt ref hfind hcovers => ?_⟩
  · obtain ⟨heap, -, hkept⟩ := hfront
    obtain ⟨heap', -, hkept'⟩ := (hgood.front hm).unmapRange hborrows hunmap
    have huntouched : ∀ ref : EntryRef, ref.table ∈ run.memory.space.directory.tableAddrs →
        ¬space.directory.Covers (pageFloor start) stop ref := by
      rintro ref htable ⟨page, -, hlow, hhigh, hfind⟩
      rw [hkept.holds.same] at htable
      have hown := inside.own hlow hhigh hfind
      exact hkept.not_mem_tableAddrs (List.mem_append_left _ (List.mem_append_left _ hown)) htable
    refine ⟨fun virt => hspares.translate fun ref hfind =>
      huntouched ref (PageDirectory.find?_mem hfind), fun ref htable => ?_⟩
    have hentry := hspares.entries ref (huntouched ref htable)
    refine ⟨hentry, fun number howns => ?_⟩
    rw [hkept.holds.same] at htable
    rw [← hentry] at howns
    exact (hkept'.holds.owned.used number).mpr ⟨ref, List.mem_append_left _ htable, howns⟩
  · have habsent := hclears ref hcovers
    refine KernelSpace.translate_eq_none.mpr fun found hfound => ?_
    rw [hspares.same, hfind] at hfound
    obtain rfl := Option.some.inj hfound
    exact habsent

/-- The one page of the address space is unmapped, and the kernel's translations stay. -/
theorem kernel_spared_after_unmapping :
    ∃ (run : Run) (space : AddressSpace) (memory' : KernelMemory), Reached sampleInfo run ∧
      space ∈ run.spaces ∧ (run.memory.unmapRange space 0x800000 0x801000).result = .ok memory' ∧
      (∀ virt, memory'.translate virt = run.memory.translate virt) ∧
      (run.memory.translateIn space 0x800000).isSome ∧ memory'.translateIn space 0x800000 = none := by
  have hstate : (do
      let some run ← sampleRun | throw .raised
      let some space := run.spaces.head? | throw .raised
      let memory' ← (run.memory.unmapRange space 0x800000 0x801000).result
      return ((space.directory.slots.get 2).map (·.linked),
        (run.memory.translateIn space 0x800000).isSome,
        (memory'.translateIn space 0x800000).isSome) :
        Except Fault (Option Bool × Bool × Bool)) = .ok (some false, true, false) := by
    decide +kernel
  obtain ⟨found, hsample, hstate⟩ := bind_eq_ok hstate
  rcases found with - | run
  · simp at hstate
  cases hspaces : run.spaces.head? with
  | none => simp [hspaces] at hstate
  | some space =>
      simp only [hspaces] at hstate
      obtain ⟨memory', hunmap, hstate⟩ := bind_eq_ok hstate
      simp only [pure_eq_ok, Except.ok.injEq, Prod.mk.injEq] at hstate
      obtain ⟨hlinked, hmapped, hgone⟩ := hstate
      have hreached := reached_sampleRun hsample
      have hm := List.mem_of_mem_head? hspaces
      obtain ⟨memory'', hsame, hspared, -⟩ :=
        hreached.unmapRange_spares_kernel hm 0x800000 0x801000
      obtain rfl := Except.ok.inj (hunmap.symm.trans hsame)
      have hprivate : space.directory.Private 0x800000 0x801000 := by
        apply @PageDirectory.private_of_slot _ 2 _ _ (by decide) (by decide)
        intro slot hslot
        simpa [hslot] using hlinked
      exact ⟨run, space, memory', hreached, hm, hunmap, (hspared hprivate).1, hmapped,
        Option.not_isSome_iff_eq_none.mp (by simp [hgone])⟩

/-- The range holds the address space's own directory, in a live block of the kernel heap. Its page
lies under a borrowed table, so the kernel loses it, and its frame is free for others. -/
theorem kernel_heap_lost_by_unmapping :
    ∃ (run : Run) (space : AddressSpace) (memory' : KernelMemory), Reached sampleInfo run ∧
      space ∈ run.spaces ∧ space.addr = 0x400000 ∧
      (run.memory.unmapRange space 0x400000 0x401000).result = .ok memory' ∧
      (run.memory.translate 0x400000).isSome ∧ memory'.translate 0x400000 = none ∧
      memory'.heap = run.memory.heap ∧
      memory'.space.frames.free = run.memory.space.frames.free + 1 := by
  have hstate : (do
      let some run ← sampleRun | throw .raised
      let some space := run.spaces.head? | throw .raised
      let memory' ← (run.memory.unmapRange space 0x400000 0x401000).result
      return (space.addr, (run.memory.translate 0x400000).isSome,
        (memory'.translate 0x400000).isNone, decide (memory'.heap = run.memory.heap),
        memory'.space.frames.free = run.memory.space.frames.free + 1) :
        Except Fault (Nat × Bool × Bool × Bool × Bool)) =
      .ok (0x400000, true, true, true, true) := by
    decide +kernel
  obtain ⟨found, hsample, hstate⟩ := bind_eq_ok hstate
  rcases found with - | run
  · simp at hstate
  cases hspaces : run.spaces.head? with
  | none => simp [hspaces] at hstate
  | some space =>
      simp only [hspaces] at hstate
      obtain ⟨memory', hunmap, hstate⟩ := bind_eq_ok hstate
      simp only [pure_eq_ok, Except.ok.injEq, Prod.mk.injEq, decide_eq_true_eq,
        Option.isNone_iff_eq_none] at hstate
      obtain ⟨haddr, hmapped, hlost, hheap, hfree⟩ := hstate
      exact ⟨run, space, memory', reached_sampleRun hsample, List.mem_of_mem_head? hspaces, haddr,
        hunmap, hmapped, hlost, hheap, hfree⟩

end KernelMemory

end KernelCore
