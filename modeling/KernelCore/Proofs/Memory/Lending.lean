import Mathlib
import KernelCore.Proofs.Heap.Requests
import KernelCore.Proofs.Memory.Boot
import KernelCore.Proofs.Memory.Footprint

/-!
# Lent tables

A new address space borrows the kernel's tables slot for slot. Slots that name a table go on naming
it, in the kernel directory as in the one that borrowed, so the two find the same entries wherever
the kernel had a table to lend. Identity mappings and new heaps fill empty slots of the kernel
directory, private mappings those of an address space, and nothing else changes a slot. The window of
a heap has all its tables before the heap is there, so no range of it is refused for want of one.
-/

namespace KernelCore

/-! ## Slots that are kept -/

namespace PageDirectory

variable {older newer newest lent borrower kernel directory directory' : PageDirectory}
  {start stop virt : Nat}

/-- A slot of `older` that names a table names it in `newer`, too. -/
def Retains (older newer : PageDirectory) : Prop :=
  ∀ (index : Fin entriesPerTable) (slot : TableRef), older.slots.get index = some slot →
    newer.slots.get index = some slot

def Lends (lent borrower : PageDirectory) : Prop :=
  ∀ (index : Fin entriesPerTable) (slot : TableRef), lent.slots.get index = some slot →
    borrower.slots.get index = some { slot with linked := true }

def Tabled (directory : PageDirectory) (start stop : Nat) : Prop :=
  ∀ virt, start ≤ virt → virt < stop → (directory.find? virt).isSome

theorem Retains.refl (directory : PageDirectory) : directory.Retains directory :=
  fun _ _ hslot => hslot

theorem Retains.trans (h : older.Retains newer) (h' : newer.Retains newest) :
    older.Retains newest :=
  fun index slot hslot => h' index slot (h index slot hslot)

theorem Retains.find? (h : older.Retains newer) {ref : EntryRef}
    (found : older.find? virt = some ref) : newer.find? virt = some ref := by
  obtain ⟨slot, hslot, rfl⟩ := find?_eq_some found
  simp only [PageDirectory.find?, h _ slot hslot, Option.map_some]

theorem Tabled.retains (h : older.Tabled start stop) (retained : older.Retains newer) :
    newer.Tabled start stop := by
  intro virt hlow hhigh
  obtain ⟨ref, hfind⟩ := Option.isSome_iff_exists.mp (h virt hlow hhigh)
  simp [retained.find? hfind]

theorem Tabled.pages (h : directory.Tabled start stop) {first last : Nat} (low : start ≤ first)
    (high : last ≤ stop) :
    ∀ i < pageCount first last, (directory.find? (first + i * pageSize)).isSome := by
  intro i hi
  have hbelow := lt_stop_of_lt_pageCount hi
  exact h _ (by omega) (by omega)

theorem Lends.retains (h : lent.Lends borrower) (retained : borrower.Retains newer) :
    lent.Lends newer :=
  fun index slot hslot => retained index _ (h index slot hslot)

theorem retains_setSlot {index : Fin entriesPerTable} (empty : directory.slots.get index = none)
    (slot : TableRef) : directory.Retains (directory.setSlot index (some slot)) := by
  intro other found hfound
  rw [slots_setSlot, if_neg, hfound]
  rintro rfl
  simp [empty] at hfound

theorem lends_link (directory kernel : PageDirectory) : kernel.Lends (directory.link kernel) := by
  intro index slot hslot
  rw [slots_link, hslot]
  rfl

theorem ensure_retains {σ : Type} {source : TableSource σ} {s t : σ} {found : Option EntryRef}
    (h : (directory.ensure source virt s).result = .ok (found, directory', t)) :
    directory.Retains directory' := by
  rcases ensure_eq_ok h with ⟨_, -, -, rfl, -⟩ | ⟨hempty, ⟨_, -, -, rfl⟩ | ⟨slot, -, -, rfl⟩⟩
  · exact .refl _
  · exact .refl _
  · exact retains_setSlot hempty slot

/-- What goes through a lent table translates alike for both. -/
theorem Lends.translate (h : lent.Lends borrower) (retained : lent.Retains kernel)
    (covered : (lent.find? virt).isSome) (ram : Ram) :
    borrower.translate ram virt = kernel.translate ram virt := by
  obtain ⟨ref, hfind⟩ := Option.isSome_iff_exists.mp covered
  have hkernel := retained.find? hfind
  obtain ⟨slot, hslot, rfl⟩ := find?_eq_some hfind
  have hborrowed : borrower.find? virt = some ⟨slot.table, pageIndex virt⟩ := by
    simp only [PageDirectory.find?, h _ slot hslot, Option.map_some]
  rw [translate_eq hborrowed, translate_eq hkernel]

end PageDirectory

/-! ## Ranges that have their tables -/

namespace KernelSpace

variable {space space' : KernelSpace}

theorem exists_countMissing {count first missing : Nat}
    (tabled : ∀ i < count, (space.directory.find? (first + i * pageSize)).isSome) :
    ∃ found, space.countMissing count first missing = .ok found := by
  induction count generalizing first missing with
  | zero => exact ⟨missing, rfl⟩
  | succ count ih =>
      obtain ⟨ref, hfind⟩ : ∃ ref, space.directory.find? first = some ref := by
        simpa [Option.isSome_iff_exists] using tabled 0 (Nat.succ_pos count)
      unfold countMissing
      simp only [hfind]
      apply ih
      intro i hi
      have hnext := tabled (i + 1) (Nat.succ_lt_succ hi)
      rwa [Nat.succ_mul, Nat.add_comm (i * pageSize), ← Nat.add_assoc] at hnext

theorem map_tabled {start stop : Nat}
    (tabled : ∀ i < pageCount start stop, (space.directory.find? (start + i * pageSize)).isSome)
    {flags : HeapFlags} {cause : PagingError}
    (hmap : (mapper.map start stop flags space).result = .ok (some cause, space')) :
    cause = .outOfFrames := by
  change (space.mapRegion start stop flags).result = _ at hmap
  obtain ⟨missing, hmissing⟩ := @exists_countMissing space _ start 0 tabled
  unfold mapRegion at hmap
  simp only [hmissing] at hmap
  split at hmap
  · simp only [Traced.result_pure, Except.ok.injEq, Prod.mk.injEq, Option.some.injEq] at hmap
    exact hmap.1.symm
  refine Traced.sweep_refused (R := (· = .outOfFrames)) (fun page s cause t hvisit => ?_) hmap
  unfold backPage at hvisit
  split at hvisit
  · unfold backEntry at hvisit
    rw [Traced.result_bind] at hvisit
    obtain ⟨⟨refused, entry, frames⟩, hback, hvisit⟩ := bind_eq_ok hvisit
    obtain ⟨rfl, -⟩ := Prod.mk.injEq .. ▸ Except.ok.inj hvisit
    exact FramePool.back_refused hback
  · simp at hvisit

end KernelSpace

/-! ## The kernel directory under the heap's requests -/

namespace Heap

variable {heap heap' : Heap} {space space' : KernelSpace}

theorem Asked.same {refusal : Option PagingError}
    (h : Asked KernelSpace.mapper space refusal space') : space'.directory = space.directory := by
  cases h with
  | nothing => rfl
  | once hmap => exact (KernelSpace.map_extends hmap).1.same

theorem alloc_same {size : Nat} {pageAligned : Bool} {answer : Except HeapError Nat}
    (halloc : (heap.alloc KernelSpace.mapper size pageAligned space).result =
      .ok (answer, heap', space')) : space'.directory = space.directory := by
  obtain ⟨refusal, hasked, -⟩ := alloc_asks halloc
  exact hasked.same

theorem free_same {addr : Nat}
    (hfree : (heap.free KernelSpace.mapper addr space).result = .ok (heap', space')) :
    space'.directory = space.directory := by
  rcases free_asks hfree with rfl | ⟨start, stop, hunmap⟩
  · rfl
  · rw [KernelSpace.unmap_eq] at hunmap
    exact KernelSpace.unmapPages_same hunmap

end Heap

/-! ## Tables that are added -/

namespace KernelMemory

variable {memory memory' : KernelMemory} {start stop : Nat}

theorem ensureEntry_retains {virt : Nat} {found : Option EntryRef}
    (hensure : (memory.ensureEntry virt).result = .ok (found, memory')) :
    memory.space.directory.Retains memory'.space.directory ∧
      (found.isSome → (memory'.space.directory.find? virt).isSome) := by
  unfold ensureEntry at hensure
  rw [Traced.result_bind] at hensure
  obtain ⟨⟨ref, directory, arena, ram⟩, hgranted, hensure⟩ := bind_eq_ok hensure
  obtain ⟨rfl, rfl⟩ := Prod.mk.injEq .. ▸ Except.ok.inj hensure
  refine ⟨PageDirectory.ensure_retains hgranted, fun hfound => ?_⟩
  rcases PageDirectory.ensure_eq_ok hgranted with ⟨ref, hfind, -, rfl, -⟩ |
    ⟨-, ⟨cause, -, rfl, -⟩ | ⟨slot, -, -, rfl⟩⟩
  · simp [hfind]
  · simp at hfound
  · simp [PageDirectory.find?]

theorem identityMap_retains (hmap : (memory.identityMap start stop).result = .ok memory') :
    memory.space.directory.Retains memory'.space.directory := by
  refine identityMap_preserves
    (P := fun s => memory.space.directory.Retains s.space.directory) ?_ (.refl _) hmap
  intro page s prepared ref space hs hensure hspace
  unfold KernelSpace.mapEntry at hspace
  obtain ⟨⟨entry, frames⟩, -, hspace⟩ := bind_eq_ok hspace
  obtain rfl := Except.ok.inj hspace
  exact hs.trans (ensureEntry_retains hensure).1

theorem ensureTable_retains {virt : Nat} {refused : Option HeapError}
    (hensure : (memory.ensureTable virt).result = .ok (refused, memory')) :
    memory.space.directory.Retains memory'.space.directory ∧
      (refused = none → (memory'.space.directory.find? virt).isSome) := by
  unfold ensureTable at hensure
  rw [Traced.result_bind] at hensure
  obtain ⟨⟨found, made⟩, hentry, hensure⟩ := bind_eq_ok hensure
  obtain ⟨rfl, rfl⟩ := Prod.mk.injEq .. ▸ Except.ok.inj hensure
  obtain ⟨hretains, hfound⟩ := ensureEntry_retains hentry
  refine ⟨hretains, fun hnone => hfound ?_⟩
  by_contra habsent
  simp [habsent] at hnone

/-- Strides from the boundary of a table on come by the table of every later address. -/
theorem tableIndex_stride {virt : Nat} (low : start ≤ virt) :
    tableIndex (start - start % tableSpan +
      (virt - (start - start % tableSpan)) / tableSpan * tableSpan) = tableIndex virt := by
  rw [Fin.ext_iff]
  simp only [tableIndex]
  unfold tableSpan entriesPerTable pageSize
  omega

/-- A sweep over the tables of a range that is not refused leaves no address without one. -/
theorem ensureTables_tabled
    (hsweep : (Traced.sweep tableSpan ensureTable
      (strideCount tableSpan (start - start % tableSpan) stop) (start - start % tableSpan)
      memory).result = .ok (none, memory')) : memory'.space.directory.Tabled start stop := by
  intro virt hlow hhigh
  have hinside : (virt - (start - start % tableSpan)) / tableSpan <
      strideCount tableSpan (start - start % tableSpan) stop := by
    unfold strideCount tableSpan entriesPerTable pageSize
    omega
  have hsame : ∀ directory : PageDirectory, (directory.find? virt).isSome ↔
      (directory.find? (start - start % tableSpan +
        (virt - (start - start % tableSpan)) / tableSpan * tableSpan)).isSome := by
    intro directory
    simp only [PageDirectory.find?, Option.isSome_map, tableIndex_stride hlow]
  rw [hsame]
  refine Traced.sweep_reaches (Q := fun s : KernelMemory => (s.space.directory.find? _).isSome)
    hinside (fun s t hvisit => (ensureTable_retains hvisit).2 rfl) ?_ hsweep
  intro addr s refusal t hs hvisit
  obtain ⟨ref, hfind⟩ := Option.isSome_iff_exists.mp hs
  simp [(ensureTable_retains hvisit).1.find? hfind]

theorem createHeap_tabled {maxSize : Nat} {flags : HeapFlags} {answer : Except HeapError Heap}
    (hcreate : (memory.createHeap start stop maxSize flags).result = .ok (answer, memory')) :
    memory.space.directory.Retains memory'.space.directory ∧
      ∀ heap, answer = .ok heap → heap.start = start ∧ heap.limit = start + maxSize ∧
        memory'.space.directory.Tabled start (start + maxSize) := by
  unfold createHeap at hcreate
  cases hlimit : Word.add? start maxSize with
  | none =>
      simp only [hlimit, Traced.result_pure, Except.ok.injEq, Prod.mk.injEq] at hcreate
      obtain ⟨rfl, rfl⟩ := hcreate
      exact ⟨.refl _, by simp⟩
  | some limit =>
      obtain ⟨-, hsum⟩ := Option.ite_none_right_eq_some.mp hlimit
      obtain rfl := Option.some.inj hsum
      simp only [hlimit, Traced.result_bind] at hcreate
      obtain ⟨⟨refused, prepared⟩, hsweep, hcreate⟩ := bind_eq_ok hcreate
      have hretains : memory.space.directory.Retains prepared.space.directory :=
        Traced.sweep_preserves
          (P := fun s : KernelMemory => memory.space.directory.Retains s.space.directory)
          (fun _ _ _ _ hs hvisit => hs.trans (ensureTable_retains hvisit).1) (.refl _) hsweep
      cases refused with
      | some cause =>
          simp only [Traced.result_pure, Except.ok.injEq, Prod.mk.injEq] at hcreate
          obtain ⟨rfl, rfl⟩ := hcreate
          exact ⟨hretains, by simp⟩
      | none =>
          simp only [Traced.result_bind] at hcreate
          obtain ⟨⟨answer, space⟩, hcreated, hcreate⟩ := bind_eq_ok hcreate
          obtain ⟨rfl, rfl⟩ := Prod.mk.injEq .. ▸ Except.ok.inj hcreate
          obtain ⟨refusal, hasked, -⟩ := Heap.create_asks hcreated
          simp only [hasked.same]
          refine ⟨hretains, ?_⟩
          rintro heap rfl
          have hmade := Heap.create_eq_ok hcreated
          exact ⟨hmade.start_eq, hmade.limit_eq, ensureTables_tabled hsweep⟩

/-! ## Tables that are lent -/

theorem createSpace_lends {made : AddressSpace}
    (hcreate : memory.createSpace.result = .ok (.ok made, memory')) :
    memory.space.directory.Lends made.directory := by
  rcases createSpace_eq_ok hcreate with ⟨cause, -, hanswer⟩ | ⟨addr, granted, halloc, hends⟩
  · contradiction
  rcases hends with ⟨-, -, hanswer⟩ | ⟨phys, hanswer, -⟩
  · contradiction
  obtain rfl := Except.ok.inj hanswer
  cases hheap : memory.heap with
  | none => simp [tryAlloc, hheap] at halloc
  | some heap =>
      obtain ⟨heap', -, hgranted⟩ := tryAlloc_eq_ok hheap halloc
      rw [← Heap.alloc_same hgranted]
      exact PageDirectory.lends_link _ _

theorem mapPage_retains {flags : HeapFlags} {page : Nat} {refused : Option PagingError}
    {s t : PageDirectory × Heap × KernelSpace}
    (hmap : (mapPage flags page s).result = .ok (refused, t)) : s.1.Retains t.1 := by
  unfold mapPage at hmap
  simp only at hmap
  split at hmap
  · simp at hmap
  rw [Traced.result_bind] at hmap
  obtain ⟨⟨found, directory, heap, space⟩, hensure, hmap⟩ := bind_eq_ok hmap
  have hretains := PageDirectory.ensure_retains hensure
  cases found with
  | none =>
      obtain ⟨-, rfl⟩ := Prod.mk.injEq .. ▸ Except.ok.inj hmap
      exact hretains
  | some ref =>
      simp only [Traced.result_bind] at hmap
      obtain ⟨⟨refused', space'⟩, -, hmap⟩ := bind_eq_ok hmap
      obtain ⟨-, rfl⟩ := Prod.mk.injEq .. ▸ Except.ok.inj hmap
      exact hretains

theorem mapRange_retains {made made' : AddressSpace} {flags : HeapFlags}
    {refused : Option PagingError}
    (hmap : (memory.mapRange made start stop flags).result = .ok (refused, made', memory')) :
    made.directory.Retains made'.directory := by
  unfold mapRange at hmap
  cases hheap : memory.heap with
  | none =>
      simp only [hheap, Traced.result_pure, Except.ok.injEq, Prod.mk.injEq] at hmap
      rw [← hmap.2.1]
      exact .refl _
  | some heap =>
      simp only [hheap, Traced.result_bind] at hmap
      obtain ⟨⟨refused', directory, heap₁, space₁⟩, hsweep, hmap⟩ := bind_eq_ok hmap
      obtain ⟨-, rfl, -⟩ := by
        simpa only [Traced.result_pure, Except.ok.injEq, Prod.mk.injEq] using hmap
      exact Traced.sweep_preserves
        (P := fun s : PageDirectory × Heap × KernelSpace => made.directory.Retains s.1)
        (fun _ _ _ _ hs hvisit => hs.trans (mapPage_retains hvisit)) (.refl _) hsweep

/-! ## Pages on demand -/

section Demand

variable {addr error : Nat} {answer : Option PageFaultError}

theorem resolveFault_heapless (heap : memory.heap = none)
    (hresolve : (memory.resolveFault addr error).result = .ok (answer, memory')) :
    memory' = memory ∧ ∀ cause, answer ≠ some (.mapping cause) := by
  unfold resolveFault at hresolve
  simp only [heap, Option.filter_none] at hresolve
  split at hresolve <;> obtain ⟨rfl, rfl⟩ := Prod.mk.injEq .. ▸ Except.ok.inj hresolve <;> simp

theorem resolveFault_refused {heap : Heap} {cause : PagingError} (heap_eq : memory.heap = some heap)
    (hresolve : (memory.resolveFault addr error).result = .ok (some (.mapping cause), memory')) :
    heap.start ≤ addr ∧ addr < heap.limit ∧
      (KernelSpace.mapper.map (pageFloor addr) (pageFloor addr + pageSize) heap.flags
        memory.space).result = .ok (some cause, memory'.space) := by
  rcases resolveFault_maps heap_eq hresolve with ⟨-, hnot⟩ | ⟨hlow, hhigh, -, refused, hanswer, hmap⟩
  · exact absurd rfl (hnot cause)
  · obtain ⟨refusal, rfl, hsame⟩ := Option.map_eq_some_iff.mp hanswer.symm
    obtain rfl := PageFaultError.mapping.inj hsame
    exact ⟨hlow, hhigh, hmap⟩

end Demand

end KernelMemory

end KernelCore
