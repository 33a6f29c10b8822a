import Mathlib
import KernelCore.Proofs.Memory.Lending
import KernelCore.Proofs.Memory.Runs
import KernelCore.Proofs.System.Anchoring

/-!
# One kernel in all address spaces

Kernel memory from its boot on, with identity mappings and new heaps at any time, and with calls on
the heap in use and on address spaces in any order. A range of an address space may be unmapped
wherever it lies. Throughout, an address space translates as the kernel does wherever the kernel had
a table when the space was made, and that includes the window of the kernel heap.
-/

namespace KernelCore

open Heap

/-- An address space in use, with the kernel directory and the heaps that there were when it was
made. -/
structure Loan where
  space : AddressSpace
  lent : PageDirectory
  heaps : List Heap
deriving DecidableEq

/-- Kernel memory, with the heaps created so far as they were when they were created, the address
spaces in use, and the blocks that callers hold. -/
structure Realm where
  memory : KernelMemory
  heaps : List Heap
  loans : List Loan
  blocks : List Block

namespace Realm

def kernel (realm : Realm) : PageDirectory := realm.memory.space.directory

inductive Setup (realm : Realm) : Realm → Prop
  | identityMapped {start stop : Nat} {memory : KernelMemory} :
      (realm.memory.identityMap start stop).result = .ok memory →
      Setup realm ⟨memory, realm.heaps, realm.loans, realm.blocks⟩
  | heapCreated {start stop maxSize : Nat} {flags : HeapFlags} {heap : Heap}
      {memory : KernelMemory} :
      (realm.memory.createHeap start stop maxSize flags).result = .ok (.ok heap, memory) →
      Setup realm ⟨memory, heap :: realm.heaps, realm.loans, realm.blocks⟩
  | heapRefused {start stop maxSize : Nat} {flags : HeapFlags} {cause : HeapError}
      {memory : KernelMemory} :
      (realm.memory.createHeap start stop maxSize flags).result = .ok (.error cause, memory) →
      Setup realm ⟨memory, realm.heaps, realm.loans, realm.blocks⟩
  | heapEnabled {heap : Heap} {memory : KernelMemory} :
      heap ∈ realm.heaps → (realm.memory.enableHeap heap).result = .ok memory →
      Setup realm ⟨memory, realm.heaps, realm.loans, realm.blocks⟩

inductive Call (realm : Realm) : Realm → Prop
  | granted {size addr : Nat} {pageAligned : Bool} {memory : KernelMemory} :
      (realm.memory.tryAlloc size pageAligned).result = .ok (.ok addr, memory) →
      Call realm ⟨memory, realm.heaps, realm.loans, ⟨addr, rounded size, true⟩ :: realm.blocks⟩
  | refused {size : Nat} {pageAligned : Bool} {cause : HeapError} {memory : KernelMemory} :
      (realm.memory.tryAlloc size pageAligned).result = .ok (.error cause, memory) →
      Call realm ⟨memory, realm.heaps, realm.loans, realm.blocks⟩
  | freed {block : Block} {memory : KernelMemory} :
      block ∈ realm.blocks → (realm.memory.free block.addr).result = .ok memory →
      Call realm ⟨memory, realm.heaps, realm.loans, realm.blocks.erase block⟩
  | faultHandled {addr error : Nat} {answer : Option PageFaultError} {memory : KernelMemory} :
      (realm.memory.resolveFault addr error).result = .ok (answer, memory) →
      Call realm ⟨memory, realm.heaps, realm.loans, realm.blocks⟩
  | spaceCreated {space : AddressSpace} {memory : KernelMemory} :
      realm.memory.createSpace.result = .ok (.ok space, memory) →
      Call realm ⟨memory, realm.heaps, ⟨space, realm.kernel, realm.heaps⟩ :: realm.loans,
        realm.blocks⟩
  | spaceRefused {cause : HeapError} {memory : KernelMemory} :
      realm.memory.createSpace.result = .ok (.error cause, memory) →
      Call realm ⟨memory, realm.heaps, realm.loans, realm.blocks⟩
  | rangeMapped {loan : Loan} {space : AddressSpace} {start stop : Nat} {flags : HeapFlags}
      {answer : Option PagingError} {memory : KernelMemory} :
      loan ∈ realm.loans →
      (realm.memory.mapRange loan.space start stop flags).result = .ok (answer, space, memory) →
      Call realm ⟨memory, realm.heaps, { loan with space } :: realm.loans.erase loan, realm.blocks⟩
  | rangeUnmapped {loan : Loan} {start stop : Nat} {memory : KernelMemory} :
      loan ∈ realm.loans →
      (realm.memory.unmapRange loan.space start stop).result = .ok memory →
      Call realm ⟨memory, realm.heaps, realm.loans, realm.blocks⟩
  | spaceDestroyed {loan : Loan} {memory : KernelMemory} :
      loan ∈ realm.loans → (realm.memory.destroySpace loan.space).result = .ok memory →
      Call realm ⟨memory, realm.heaps, realm.loans.erase loan, realm.blocks⟩

/-- The states that kernel memory comes to from its boot on. -/
inductive Reached (info : BootInfo) : Realm → Prop
  | booted {memory : KernelMemory} :
      (KernelMemory.boot info).result = .ok memory → Reached info ⟨memory, [], [], []⟩
  | setup {realm realm' : Realm} : Reached info realm → Setup realm realm' → Reached info realm'
  | call {realm realm' : Realm} : Reached info realm → Call realm realm' → Reached info realm'

/-- Address spaces share the kernel's tables, and the kernel heap has all its tables. -/
structure Coherent (realm : Realm) : Prop where
  /-- Where the kernel had a table when it was made, an address space translates as the kernel. -/
  same : ∀ loan ∈ realm.loans, ∀ virt, (loan.lent.find? virt).isSome →
    realm.memory.translateIn loan.space virt = realm.memory.translate virt
  /-- A heap that is created has kernel tables for all of its window. -/
  created : ∀ {start stop maxSize : Nat} {flags : HeapFlags} {heap : Heap} {memory : KernelMemory},
    (realm.memory.createHeap start stop maxSize flags).result = .ok (.ok heap, memory) →
      heap.start = start ∧ heap.limit = start + maxSize ∧
        memory.space.directory.Tabled start (start + maxSize)
  /-- The windows of all heaps created so far still have them. -/
  tabled : ∀ heap ∈ realm.heaps, realm.kernel.Tabled heap.start heap.limit
  /-- The windows of the heaps created before an address space were lent to it. -/
  covered : ∀ loan ∈ realm.loans, ∀ heap ∈ loan.heaps, loan.lent.Tabled heap.start heap.limit
  /-- The kernel heap was created before all address spaces, and its window is the one it had. -/
  window : ∀ heap, realm.memory.heap = some heap → ∃ made ∈ realm.heaps,
    heap.start = made.start ∧ heap.limit = made.limit ∧ ∀ loan ∈ realm.loans, made ∈ loan.heaps
  /-- No range of a window is refused for want of a table, and mapping it makes none. -/
  mapped : ∀ heap ∈ realm.heaps, ∀ {start stop : Nat} {flags : HeapFlags}
    {refusal : Option PagingError} {space : KernelSpace}, heap.start ≤ start → stop ≤ heap.limit →
    (KernelSpace.mapper.map start stop flags realm.memory.space).result = .ok (refusal, space) →
      refusal ≠ some .outOfTableMemory ∧ space.directory = realm.kernel
  /-- The kernel heap grows without a new table. -/
  grown : ∀ {size : Nat} {pageAligned : Bool} {answer : Except HeapError Nat}
    {memory : KernelMemory},
    (realm.memory.tryAlloc size pageAligned).result = .ok (answer, memory) →
      answer ≠ .error (.mapping .outOfTableMemory) ∧ memory.space.directory = realm.kernel
  /-- So do pages that are mapped on demand. -/
  demanded : ∀ {addr error : Nat} {answer : Option PageFaultError} {memory : KernelMemory},
    (realm.memory.resolveFault addr error).result = .ok (answer, memory) →
      answer ≠ some (.mapping .outOfTableMemory) ∧ memory.space.directory = realm.kernel

/-! ## The heap in use -/

structure Tended (made : Heap) (kernel : PageDirectory) (tables : List Nat) (held : List Block)
    (heap : Heap) (directory : PageDirectory) : Prop where
  same : directory = kernel
  window : SameWindow made heap
  allocated : KernelMemory.Allocated tables held heap

theorem tended_tenure (made : Heap) (kernel : PageDirectory) : Tenure (Tended made kernel) where
  perm := fun h same rest => ⟨h.same, h.window, h.allocated.perm same rest⟩
  alloc := by
    intro tables held heap size pageAligned answer heap' space space' h halloc
    have hwindow := h.window.trans (h.allocated.valid.alloc_window halloc)
    rcases h.allocated.alloc halloc with ⟨cause, hanswer, hallocated⟩ | ⟨addr, hanswer, hallocated⟩
    · exact .inl ⟨cause, hanswer, h.same, hwindow, hallocated⟩
    · exact .inr ⟨addr, hanswer, h.same, hwindow, hallocated⟩
  free := by
    intro tables block held heap heap' space space' h hfree
    have hm := h.allocated.inside.subset (List.mem_append_right _ List.mem_cons_self)
    have hwindow := h.window.trans (h.allocated.valid.free_window hm hfree)
    exact ⟨h.same, hwindow, h.allocated.free hfree⟩
  middle := by
    intro tables addr held heap kernel'
    constructor
    · exact fun h => ⟨h.same, h.window, KernelMemory.allocated_middle.mp h.allocated⟩
    · exact fun h => ⟨h.same, h.window, KernelMemory.allocated_middle.mpr h.allocated⟩
  forget := fun h => ⟨h.same, h.window, h.allocated.forget⟩

/-! ## What a run preserves -/

def tables (realm : Realm) : List Nat := realm.loans.flatMap (·.space.directory.ownAddrs)

def held (realm : Realm) : List Block := realm.loans.map (·.space.block) ++ realm.blocks

/-- Every table that was lent is still where it was, for the kernel and for the one it was lent to. -/
structure Loan.Kept (loan : Loan) (kernel : PageDirectory) : Prop where
  retained : loan.lent.Retains kernel
  borrowed : loan.lent.Lends loan.space.directory
  covered : ∀ heap ∈ loan.heaps, loan.lent.Tabled heap.start heap.limit

/-- Heaps that were created have their tables, loans are kept, and the heap in use is one of those
that were created, and older than all loans. -/
structure Good (realm : Realm) : Prop where
  created : ∀ heap ∈ realm.heaps, heap.Valid ∧ usedBlocks heap.blocks = [] ∧
    realm.kernel.Tabled heap.start heap.limit
  kept : ∀ loan ∈ realm.loans, Loan.Kept loan realm.kernel
  settled : (realm.memory.heap = none ∧ realm.loans = [] ∧ realm.blocks = []) ∨
    ∃ made ∈ realm.heaps, (∀ loan ∈ realm.loans, made ∈ loan.heaps) ∧
      Tenure.Settled (Tended made realm.kernel) realm.tables realm.held realm.memory

variable {info : BootInfo} {realm realm' : Realm} {memory : KernelMemory}

theorem Good.extended (h : Good realm) (heap : memory.heap = realm.memory.heap)
    (retains : realm.kernel.Retains memory.space.directory) :
    Good ⟨memory, realm.heaps, realm.loans, realm.blocks⟩ where
  created := by
    intro made hm
    obtain ⟨hvalid, hused, htabled⟩ := h.created made hm
    exact ⟨hvalid, hused, htabled.retains retains⟩
  kept := by
    intro loan hm
    have hkept := h.kept loan hm
    exact ⟨hkept.retained.trans retains, hkept.borrowed, hkept.covered⟩
  settled := by
    rcases h.settled with ⟨hnone, hloans, hblocks⟩ | ⟨made, hm, hloans, used, hused, htended⟩
    · exact .inl ⟨heap.trans hnone, hloans, hblocks⟩
    · exact .inr ⟨made, hm, hloans, used, heap.trans hused, rfl, htended.window, htended.allocated⟩

theorem Good.setup (h : Good realm) (hs : Setup realm realm') : Good realm' := by
  cases hs with
  | identityMapped hmap =>
      exact h.extended (KernelMemory.identityMap_stays hmap).heap
        (KernelMemory.identityMap_retains hmap)
  | @heapCreated start stop maxSize flags heap memory hcreate =>
      obtain ⟨hstays, hfresh⟩ := KernelMemory.createHeap_stays hcreate
      obtain ⟨hretains, htables⟩ := KernelMemory.createHeap_tabled hcreate
      have hextended := h.extended hstays.heap hretains
      obtain ⟨hvalid, hused⟩ := hfresh heap rfl
      obtain ⟨hstart, hlimit, htabled⟩ := htables heap rfl
      refine ⟨List.forall_mem_cons.mpr ⟨⟨hvalid, hused, ?_⟩, hextended.created⟩, hextended.kept, ?_⟩
      · rw [hstart, hlimit]
        exact htabled
      · rcases hextended.settled with hunused | ⟨made, hm, hrest⟩
        · exact .inl hunused
        · exact .inr ⟨made, List.mem_cons_of_mem _ hm, hrest⟩
  | heapRefused hcreate =>
      exact h.extended (KernelMemory.createHeap_stays hcreate).1.heap
        (KernelMemory.createHeap_tabled hcreate).1
  | @heapEnabled heap memory hm henable =>
      have hnone : realm.memory.heap = none := by
        unfold KernelMemory.enableHeap at henable
        split at henable
        · simp at henable
        · assumption
      obtain rfl := KernelMemory.enableHeap_eq_ok henable
      refine ⟨h.created, h.kept, ?_⟩
      rcases h.settled with ⟨-, hloans, hblocks⟩ | ⟨-, -, -, used, hused, -⟩
      · obtain ⟨hvalid, hused, -⟩ := h.created heap hm
        refine .inr ⟨heap, hm, by simp [hloans], heap, rfl, rfl, .refl heap, hvalid, ?_⟩
        simp [tables, held, hloans, hblocks]
      · rw [hnone] at hused
        contradiction

theorem Call.eq_of_heapless (hc : Call realm realm') (heap : realm.memory.heap = none)
    (loans : realm.loans = []) (blocks : realm.blocks = []) : realm' = realm := by
  obtain ⟨memory, heaps, _, _⟩ := realm
  subst loans blocks
  cases hc with
  | granted halloc => simp_all [KernelMemory.tryAlloc]
  | refused halloc => simp_all [KernelMemory.tryAlloc]
  | freed hm => simp at hm
  | faultHandled hresolve =>
      simp only at heap hresolve
      rw [(KernelMemory.resolveFault_heapless heap hresolve).1]
  | spaceCreated hcreate => simp_all [KernelMemory.createSpace, KernelMemory.tryAlloc]
  | spaceRefused hcreate => simp_all [KernelMemory.createSpace, KernelMemory.tryAlloc]
  | rangeMapped hm => simp at hm
  | rangeUnmapped hm => simp at hm
  | spaceDestroyed hm => simp at hm

/-- What the calls on the heap that was created as `made` keep. -/
theorem Good.proceeds {made : Heap} {loans : List Loan} {blocks : List Block} (h : Good realm)
    (hm : made ∈ realm.heaps) (older : ∀ loan ∈ loans, made ∈ loan.heaps)
    (kept : ∀ loan ∈ loans, Loan.Kept loan realm.kernel)
    (settled : Tenure.Settled (Tended made realm.kernel)
      (loans.flatMap (·.space.directory.ownAddrs)) (loans.map (·.space.block) ++ blocks) memory) :
    Good ⟨memory, realm.heaps, loans, blocks⟩ := by
  obtain ⟨used, hused, htended⟩ := settled
  have hsame : memory.space.directory = realm.kernel := htended.same
  refine ⟨?_, ?_, .inr ⟨made, hm, older, used, hused, rfl, htended.window, htended.allocated⟩⟩
  · simp only [kernel, hsame]
    exact h.created
  · simp only [kernel, hsame]
    exact kept

theorem settled_front {made : Heap} {kernel : PageDirectory} {loan : Loan}
    (h : Tenure.Settled (Tended made kernel) realm.tables realm.held realm.memory)
    (hm : loan ∈ realm.loans) :
    Tenure.Settled (Tended made kernel)
      (loan.space.directory.ownAddrs ++
        (realm.loans.erase loan).flatMap (·.space.directory.ownAddrs))
      (loan.space.block :: ((realm.loans.erase loan).map (·.space.block) ++ realm.blocks))
      realm.memory := by
  have hperm := List.perm_cons_erase hm
  refine (tended_tenure made kernel).account.perm h ?_ ?_
  · simpa [tables] using hperm.flatMap_right (·.space.directory.ownAddrs)
  · simpa [held] using (hperm.map (·.space.block)).append_right realm.blocks

theorem Good.call (h : Good realm) (hc : Call realm realm') : Good realm' := by
  rcases h.settled with ⟨hnone, hloans, hblocks⟩ | ⟨made, hmade, holder, hsettled⟩
  · rw [hc.eq_of_heapless hnone hloans hblocks]
    exact h
  have haccount := (tended_tenure made realm.kernel).account
  cases hc with
  | granted halloc =>
      rcases haccount.tryAlloc hsettled halloc with ⟨cause, hanswer, -⟩ | ⟨addr, hanswer, hheld⟩
      · contradiction
      · obtain rfl := Except.ok.inj hanswer
        refine h.proceeds hmade holder h.kept (haccount.perm hheld (.refl _) ?_)
        exact List.perm_middle.symm
  | refused halloc =>
      rcases haccount.tryAlloc hsettled halloc with ⟨cause, -, hheld⟩ | ⟨addr, hanswer, -⟩
      · exact h.proceeds hmade holder h.kept hheld
      · contradiction
  | freed hm hfree =>
      have hperm := ((List.perm_cons_erase hm).append_left
        (realm.loans.map (·.space.block))).trans List.perm_middle
      exact h.proceeds hmade holder h.kept
        (haccount.free (haccount.perm hsettled (.refl _) hperm) hfree)
  | faultHandled hresolve =>
      exact h.proceeds hmade holder h.kept (haccount.resolveFault hsettled hresolve)
  | @spaceCreated space memory hcreate =>
      rcases haccount.createSpace hsettled hcreate with
        ⟨cause, hanswer, -⟩ | ⟨made', hanswer, hown, -, hheld⟩
      · contradiction
      obtain rfl := Except.ok.inj hanswer
      -- All heaps that were created are older than the new address space.
      refine h.proceeds hmade (List.forall_mem_cons.mpr ⟨hmade, holder⟩)
        (List.forall_mem_cons.mpr ⟨⟨.refl _, KernelMemory.createSpace_lends hcreate, ?_⟩, h.kept⟩) ?_
      · exact fun heap hm => (h.created heap hm).2.2
      · simpa [hown, tables, held] using hheld
  | spaceRefused hcreate =>
      rcases haccount.createSpace hsettled hcreate with ⟨cause, -, hheld⟩ | ⟨made', hanswer, -⟩
      · exact h.proceeds hmade holder h.kept hheld
      · contradiction
  | @rangeMapped loan space start stop flags answer memory hm hmap =>
      obtain ⟨-, haddr, hheld⟩ := haccount.mapRange trivial (settled_front hsettled hm) hmap
      have hkept := h.kept loan hm
      have hretains := KernelMemory.mapRange_retains hmap
      refine h.proceeds hmade (List.forall_mem_cons.mpr ⟨holder loan hm, ?_⟩)
        (List.forall_mem_cons.mpr ⟨⟨hkept.retained, hkept.borrowed.retains hretains,
          hkept.covered⟩, ?_⟩) ?_
      · exact fun other hother => holder other (List.mem_of_mem_erase hother)
      · exact fun other hother => h.kept other (List.mem_of_mem_erase hother)
      · have hblock : space.block = loan.space.block := by
          rw [AddressSpace.block, AddressSpace.block, haddr]
        simpa [hblock] using hheld
  | rangeUnmapped _ hunmap =>
      exact h.proceeds hmade holder h.kept (Tenure.unmapRange hsettled hunmap)
  | spaceDestroyed hm hdestroy =>
      refine h.proceeds hmade (fun other hother => holder other (List.mem_of_mem_erase hother))
        (fun other hother => h.kept other (List.mem_of_mem_erase hother)) ?_
      exact haccount.destroySpace (settled_front hsettled hm) hdestroy

theorem Reached.good (h : Reached info realm) : Good realm := by
  induction h with
  | booted hboot => exact ⟨by simp, by simp, .inl ⟨(booted_boot hboot).heapless, rfl, rfl⟩⟩
  | setup _ hs ih => exact ih.setup hs
  | call _ hc ih => exact ih.call hc

/-! ## Coherence -/

theorem Good.alloc_tabled (h : Good realm) {size : Nat} {pageAligned : Bool}
    {answer : Except HeapError Nat}
    (halloc : (realm.memory.tryAlloc size pageAligned).result = .ok (answer, memory)) :
    answer ≠ .error (.mapping .outOfTableMemory) ∧ memory.space.directory = realm.kernel := by
  rcases h.settled with ⟨hnone, -, -⟩ | ⟨made, hmade, -, heap, hheap, htended⟩
  · simp only [KernelMemory.tryAlloc, hnone, Traced.result_pure, Except.ok.injEq,
      Prod.mk.injEq] at halloc
    obtain ⟨rfl, rfl⟩ := halloc
    exact ⟨by simp, rfl⟩
  obtain ⟨heap', -, hgranted⟩ := KernelMemory.tryAlloc_eq_ok hheap halloc
  refine ⟨?_, Heap.alloc_same hgranted⟩
  rintro rfl
  obtain ⟨stop, hlimit, hmap⟩ := Heap.alloc_refused hgranted
  have hstart := htended.allocated.valid.books.laid.tiles.le
  have htabled := (h.created made hmade).2.2
  rw [← htended.window.start, ← htended.window.limit] at htabled
  have hcause := KernelSpace.map_tabled (htabled.pages hstart hlimit) hmap
  contradiction

theorem Good.fault_tabled (h : Good realm) {addr error : Nat} {answer : Option PageFaultError}
    (hresolve : (realm.memory.resolveFault addr error).result = .ok (answer, memory)) :
    answer ≠ some (.mapping .outOfTableMemory) ∧ memory.space.directory = realm.kernel := by
  rcases h.settled with ⟨hnone, -, -⟩ | ⟨made, hmade, -, heap, hheap, htended⟩
  · obtain ⟨rfl, hanswer⟩ := KernelMemory.resolveFault_heapless hnone hresolve
    exact ⟨hanswer _, rfl⟩
  constructor
  · rintro rfl
    obtain ⟨hlow, hhigh, hmap⟩ := KernelMemory.resolveFault_refused hheap hresolve
    have htabled := (h.created made hmade).2.2
    rw [← htended.window.start, ← htended.window.limit] at htabled
    have hcause := KernelSpace.map_tabled (fun i hi => ?_) hmap
    · contradiction
    -- The range is one page, and that begins in the window if any of its addresses lies there.
    have hbelow := lt_stop_of_lt_pageCount hi
    obtain ⟨page, hpage⟩ := htended.allocated.valid.window.start_page
    have hfloor := pageFloor_eq addr
    apply htabled
    · unfold pageSize at *
      omega
    · unfold pageSize at *
      omega
  · rcases KernelMemory.resolveFault_eq_ok hheap hresolve with rfl | ⟨_, _, _, -, hmap⟩
    · rfl
    · exact (KernelSpace.map_extends hmap).1.same

/-- After any calls, an address space translates as the kernel wherever the kernel had a table when
it was made. The kernel heap is older, and had tables for all of its window. So the window is
covered, the heap grows and its pages are mapped on demand without a new table, and no range of it is
refused for want of one. -/
theorem Reached.kernel_coherent (h : Reached info realm) : Coherent realm := by
  have hgood := h.good
  exact {
    same := fun loan hm virt hcovered =>
      (hgood.kept loan hm).borrowed.translate (hgood.kept loan hm).retained hcovered _
    created := fun hcreate => (KernelMemory.createHeap_tabled hcreate).2 _ rfl
    tabled := fun heap hm => (hgood.created heap hm).2.2
    covered := fun loan hm => (hgood.kept loan hm).covered
    window := by
      intro heap hheap
      rcases hgood.settled with ⟨hnone, -⟩ | ⟨made, hm, holder, used, hused, htended⟩
      · simp [hnone] at hheap
      · obtain rfl := Option.some.inj (hheap.symm.trans hused)
        exact ⟨made, hm, htended.window.start, htended.window.limit, holder⟩
    mapped := by
      intro heap hm start stop flags refusal space low high hmap
      refine ⟨?_, (KernelSpace.map_extends hmap).1.same⟩
      rintro rfl
      have hcause := KernelSpace.map_tabled ((hgood.created heap hm).2.2.pages low high) hmap
      simp at hcause
    grown := fun halloc => hgood.alloc_tabled halloc
    demanded := fun hresolve => hgood.fault_tabled hresolve }

def sampleRealm : Except Fault Realm := do
  let memory ← (KernelMemory.boot KernelMemory.sampleInfo).result
  let (answer, created) ← (memory.createHeap 0x400000 0x401000 0x10000 .supervisor).result
  let .ok heap := answer | throw .raised
  let enabled ← (created.enableHeap heap).result
  let (answer, spaced) ← enabled.createSpace.result
  let .ok space := answer | throw .raised
  let (answer, grown) ← (spaced.tryAlloc 0x1000 true).result
  let .ok addr := answer | throw .raised
  return ⟨grown, [heap], [⟨space, enabled.space.directory, [heap]⟩],
    [⟨addr, rounded 0x1000, true⟩]⟩

theorem reached_sampleRealm (h : sampleRealm = .ok realm) :
    Reached KernelMemory.sampleInfo realm := by
  unfold sampleRealm at h
  obtain ⟨booted, hboot, h⟩ := bind_eq_ok h
  obtain ⟨⟨answer, created⟩, hcreate, h⟩ := bind_eq_ok h
  rcases answer with cause | heap
  · simp at h
  obtain ⟨enabled, henable, h⟩ := bind_eq_ok h
  obtain ⟨⟨answer, spaced⟩, hspace, h⟩ := bind_eq_ok h
  rcases answer with cause | space
  · simp at h
  obtain ⟨⟨answer, grown⟩, halloc, h⟩ := bind_eq_ok h
  rcases answer with cause | addr
  · simp at h
  obtain rfl := Except.ok.inj h
  have hcreated := (Reached.booted hboot).setup (.heapCreated hcreate)
  have henabled := hcreated.setup (.heapEnabled List.mem_cons_self henable)
  exact (henabled.call (.spaceCreated hspace)).call (.granted halloc)

/-- The page is mapped after the address space was made, and both see it in one frame. -/
theorem kernel_coherent_after_growth :
    ∃ (realm : Realm) (loan : Loan) (block : Block), Reached KernelMemory.sampleInfo realm ∧
      loan ∈ realm.loans ∧ block ∈ realm.blocks ∧
      realm.memory.translateIn loan.space block.addr = realm.memory.translate block.addr ∧
      (realm.memory.translate block.addr).isSome := by
  have hfacts : (sampleRealm.map fun realm => (realm.loans.head?.map fun loan =>
      (loan.lent.find? 0x405000).isSome, realm.blocks.head?.map (·.addr),
      (realm.memory.translate 0x405000).isSome)) =
      .ok (some true, some 0x405000, true) := by decide +kernel
  cases hsample : sampleRealm with
  | error cause => simp [hsample, Except.map] at hfacts
  | ok realm =>
      simp only [hsample, Except.map, Except.ok.injEq, Prod.mk.injEq,
        Option.map_eq_some_iff] at hfacts
      obtain ⟨⟨loan, hloan, hlent⟩, ⟨block, hblock, haddr⟩, hmapped⟩ := hfacts
      have hreached := reached_sampleRealm hsample
      have hm := List.mem_of_mem_head? hloan
      refine ⟨realm, loan, block, hreached, hm, List.mem_of_mem_head? hblock, ?_, ?_⟩
      · rw [haddr]
        exact hreached.kernel_coherent.same loan hm _ hlent
      · rw [haddr]
        exact hmapped

end Realm

end KernelCore
