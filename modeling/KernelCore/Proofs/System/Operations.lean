import Mathlib
import KernelCore.Proofs.Memory.Demand
import KernelCore.Proofs.System.Coherence

/-!
# Kernel memory in anyone's hands

Here nobody keeps to what he was given: a block may be freed by whoever knows its address, and an
address space be used that was destroyed or never made. What is left then of the order in kernel
memory is enough for what it answers. The kernel space is in order, every present entry maps a
frame of the pool, the tables of the kernel directory lie apart, and each heap is valid and has
tables for all of its window.
-/

namespace KernelCore

open Heap

theorem Heap.Valid.exists_used {heap heap' : Heap} (h : heap.Valid) {addr : Nat}
    {space space' : KernelSpace}
    (hfree : (heap.free KernelSpace.mapper addr space).result = .ok (heap', space')) :
    ∃ block ∈ usedBlocks heap.blocks, block.addr = addr := by
  by_contra hnone
  rw [h.free_absent (fun block hm heq => hnone ⟨block, hm, heq⟩)] at hfree
  contradiction

namespace KernelMemory

/-- One call on kernel memory that comes back, whatever it was given. Registers are saved on stacks
by the scheduler, whose operations are made of these calls. -/
inductive Operation (memory : KernelMemory) : KernelMemory → Prop
  | allocated {size : Nat} {pageAligned : Bool} {answer : Except HeapError Nat}
      {memory' : KernelMemory} :
      (memory.tryAlloc size pageAligned).result = .ok (answer, memory') → Operation memory memory'
  | freed {addr : Nat} {memory' : KernelMemory} :
      (memory.free addr).result = .ok memory' → Operation memory memory'
  | faultHandled {addr error : Nat} {answer : Option PageFaultError} {memory' : KernelMemory} :
      (memory.resolveFault addr error).result = .ok (answer, memory') → Operation memory memory'
  | spaceCreated {answer : Except HeapError AddressSpace} {memory' : KernelMemory} :
      memory.createSpace.result = .ok (answer, memory') → Operation memory memory'
  | rangeMapped {made made' : AddressSpace} {start stop : Nat} {flags : HeapFlags}
      {refused : Option PagingError} {memory' : KernelMemory} :
      (memory.mapRange made start stop flags).result = .ok (refused, made', memory') →
      Operation memory memory'
  | rangeUnmapped {made : AddressSpace} {start stop : Nat} {memory' : KernelMemory} :
      (memory.unmapRange made start stop).result = .ok memory' → Operation memory memory'
  | spaceDestroyed {made : AddressSpace} {memory' : KernelMemory} :
      (memory.destroySpace made).result = .ok memory' → Operation memory memory'
  | frameSaved (addr : Nat) (registers : Registers) :
      Operation memory (memory.saveFrame addr registers)

/-- The states that kernel memory comes to from its boot on, with the heaps created so far as they
were when they were created. -/
inductive Operated (info : BootInfo) : List Heap → KernelMemory → Prop
  | booted {memory : KernelMemory} : (boot info).result = .ok memory → Operated info [] memory
  | identityMapped {heaps : List Heap} {memory memory' : KernelMemory} {start stop : Nat} :
      Operated info heaps memory → (memory.identityMap start stop).result = .ok memory' →
      Operated info heaps memory'
  | heapCreated {heaps : List Heap} {memory memory' : KernelMemory} {start stop maxSize : Nat}
      {flags : HeapFlags} {heap : Heap} :
      Operated info heaps memory →
      (memory.createHeap start stop maxSize flags).result = .ok (.ok heap, memory') →
      Operated info (heap :: heaps) memory'
  | heapRefused {heaps : List Heap} {memory memory' : KernelMemory} {start stop maxSize : Nat}
      {flags : HeapFlags} {cause : HeapError} :
      Operated info heaps memory →
      (memory.createHeap start stop maxSize flags).result = .ok (.error cause, memory') →
      Operated info heaps memory'
  | heapEnabled {heaps : List Heap} {memory memory' : KernelMemory} {heap : Heap} :
      Operated info heaps memory → heap ∈ heaps →
      (memory.enableHeap heap).result = .ok memory' → Operated info heaps memory'
  | operation {heaps : List Heap} {memory memory' : KernelMemory} :
      Operated info heaps memory → Operation memory memory' → Operated info heaps memory'

variable {info : BootInfo} {heaps : List Heap} {memory memory' : KernelMemory} {heap heap' : Heap}
  {P : KernelSpace → Prop}

/-! ## The heap -/

def Served (heap : Heap) (kernel : PageDirectory) : Prop :=
  heap.Valid ∧ kernel.Tabled heap.start heap.limit

theorem Served.moved {kernel : PageDirectory} (h : Served heap kernel) (valid : heap'.Valid)
    (same : SameWindow heap heap') : Served heap' kernel := by
  refine ⟨valid, ?_⟩
  rw [same.start, same.limit]
  exact h.2

theorem served_tenure : Tenure fun _ _ heap kernel => Served heap kernel where
  perm := fun h _ _ => h
  alloc := by
    intro tables held heap size pageAligned answer heap' space space' h halloc
    have hwindow := h.1.alloc_window halloc
    have hends := h.1.alloc_ends KernelSpace.mapper size pageAligned space
    rw [halloc] at hends
    cases hends with
    | refused cause => exact .inl ⟨cause, rfl, h⟩
    | unmapped => exact .inl ⟨_, rfl, h⟩
    | granted hg => exact .inr ⟨_, rfl, h.moved hg.valid hwindow⟩
  free := by
    intro tables block held heap heap' space space' h hfree
    obtain ⟨used, hm, haddr⟩ := h.1.exists_used hfree
    rw [← haddr] at hfree
    have hends := h.1.free_ends hm KernelSpace.mapper space
    rw [hfree] at hends
    cases hends with
    | released hr => exact h.moved hr.valid hr.same
  middle := .rfl
  forget := fun h => h

/-! ## Operations -/

theorem Operation.lasting (h : Operation memory memory') (lasting : KernelSpace.Lasting P)
    (holds : P memory.space) : P memory'.space := by
  cases h with
  | allocated halloc => exact lasting.tryAlloc holds halloc
  | freed hfree => exact lasting.free holds hfree
  | faultHandled hresolve => exact lasting.resolveFault holds hresolve
  | spaceCreated hcreate => exact lasting.createSpace holds hcreate
  | rangeMapped hmap => exact lasting.mapRange holds hmap
  | rangeUnmapped hunmap => exact lasting.unmapRange holds hunmap
  | spaceDestroyed hdestroy => exact lasting.destroySpace holds hdestroy
  | frameSaved addr registers => exact lasting.entries holds fun _ => rfl

theorem Operation.arena (h : Operation memory memory') : memory'.arena = memory.arena := by
  cases h with
  | allocated halloc => exact tryAlloc_arena halloc
  | freed hfree => exact free_arena hfree
  | faultHandled hresolve => exact resolveFault_arena hresolve
  | spaceCreated hcreate => exact (createSpace_arena hcreate).1
  | rangeMapped hmap => exact (mapRange_arena hmap).1
  | rangeUnmapped hunmap => rw [(unmapRange_eq_ok hunmap).1]
  | spaceDestroyed hdestroy => exact destroySpace_arena hdestroy
  | frameSaved => rfl

/-- Without a heap in use, none comes into use. -/
theorem Operation.heapless (h : Operation memory memory') (heap : memory.heap = none) :
    memory'.heap = none := by
  cases h with
  | allocated halloc => simp_all [tryAlloc]
  | freed hfree => simp_all [free]
  | faultHandled hresolve => rw [(resolveFault_heapless heap hresolve).1, heap]
  | spaceCreated hcreate => simp_all [createSpace, tryAlloc]
  | rangeMapped hmap => simp_all [mapRange]
  | rangeUnmapped hunmap => rw [(unmapRange_eq_ok hunmap).1, heap]
  | spaceDestroyed hdestroy => simp_all [destroySpace]
  | frameSaved => exact heap

/-- The heap in use stays valid, and its window is where it was. -/
theorem Operation.served (h : Operation memory memory')
    (served : Tenure.Settled (fun _ _ heap kernel => Served heap kernel) [] [] memory) :
    Tenure.Settled (fun _ _ heap kernel => Served heap kernel) [] [] memory' := by
  have haccount := served_tenure.account
  cases h with
  | allocated halloc =>
      rcases haccount.tryAlloc served halloc with ⟨-, -, hserved⟩ | ⟨addr, -, hserved⟩
      · exact hserved
      · exact hserved
  | @freed addr _ hfree =>
      exact haccount.free (show Tenure.Settled _ [] [⟨addr, 0, true⟩] memory from served) hfree
  | faultHandled hresolve => exact haccount.resolveFault served hresolve
  | spaceCreated hcreate =>
      rcases haccount.createSpace served hcreate with ⟨-, -, hserved⟩ | ⟨made, -, -, -, hserved⟩
      · exact hserved
      · exact hserved
  | @rangeMapped made made' start stop flags refused _ hmap =>
      have hserved : Tenure.Settled (fun _ _ heap kernel => Served heap kernel)
        (made.directory.ownAddrs ++ []) [] memory := served
      exact (haccount.mapRange trivial hserved hmap).2.2
  | rangeUnmapped hunmap => exact Tenure.unmapRange served hunmap
  | @spaceDestroyed made _ hdestroy =>
      have hserved : Tenure.Settled (fun _ _ heap kernel => Served heap kernel)
        (made.directory.ownAddrs ++ []) [made.block] memory := served
      exact haccount.destroySpace hserved hdestroy
  | frameSaved addr registers => exact haccount.saveFrame served addr registers

/-! ## What is left of the order -/

structure Orderly (info : BootInfo) (heaps : List Heap) (memory : KernelMemory) : Prop where
  tidy : memory.space.Tidy
  known : memory.space.Known
  stocked : ∃ blocks, Stocked info memory.space.directory memory.arena blocks
  created : ∀ heap ∈ heaps, Served heap memory.space.directory
  inUse : ∀ heap, memory.heap = some heap → Served heap memory.space.directory

theorem Orderly.operation (h : Orderly info heaps memory) (ho : Operation memory memory') :
    Orderly info heaps memory' := by
  have hsame := ho.lasting (KernelSpace.lasting_directory memory.space.directory) rfl
  obtain ⟨htidy, hknown⟩ := ho.lasting KernelSpace.lasting_known ⟨h.tidy, h.known⟩
  refine ⟨htidy, hknown, ?_, ?_, fun heap' hheap' => ?_⟩
  · rw [hsame, ho.arena]
    exact h.stocked
  · rw [hsame]
    exact h.created
  · cases hheap : memory.heap with
    | none => simp [ho.heapless hheap] at hheap'
    | some heap =>
        obtain ⟨found, hfound, hserved⟩ := ho.served ⟨heap, hheap, h.inUse heap hheap⟩
        obtain rfl := Option.some.inj (hheap'.symm.trans hfound)
        exact hserved

/-- Preparing more memory adds tables to the kernel directory. -/
theorem Orderly.prepared (h : Orderly info heaps memory) (tidy : memory'.space.Tidy)
    (known : memory'.space.Known) (prepares : Prepares info memory memory')
    (retains : memory.space.directory.Retains memory'.space.directory) :
    Orderly info heaps memory' where
  tidy := tidy
  known := known
  stocked := prepares.stocked
  created := fun heap hm => ⟨(h.created heap hm).1, (h.created heap hm).2.retains retains⟩
  inUse := by
    intro heap hheap
    have hserved := h.inUse heap (prepares.heap ▸ hheap)
    exact ⟨hserved.1, hserved.2.retains retains⟩

theorem ensureEntry_known (h : memory.space.Tidy ∧ memory.space.Known) {virt : Nat}
    {found : Option EntryRef}
    (hensure : (memory.ensureEntry virt).result = .ok (found, memory')) :
    memory'.space.Tidy ∧ memory'.space.Known := by
  refine ⟨ensureEntry_tidy h.1 hensure, ?_⟩
  rcases ensureEntry_eq_ok hensure with ⟨ref, -, -, rfl⟩ |
    ⟨-, place, arena, -, -, hram, hframes, -⟩
  · exact h.2
  · exact h.2.cleared hframes hram

theorem identityMap_known (h : memory.space.Tidy ∧ memory.space.Known) {start stop : Nat}
    (hmap : (memory.identityMap start stop).result = .ok memory') :
    memory'.space.Tidy ∧ memory'.space.Known := by
  refine identityMap_preserves (P := fun s => s.space.Tidy ∧ s.space.Known) ?_ h hmap
  intro page s prepared ref space hs hensure hspace
  obtain ⟨htidy, hknown⟩ := ensureEntry_known hs hensure
  exact ⟨htidy.mapEntry hspace, hknown.mapEntry htidy.sound hspace⟩

theorem createHeap_known (h : memory.space.Tidy ∧ memory.space.Known) {start stop maxSize : Nat}
    {flags : HeapFlags} {answer : Except HeapError Heap}
    (hcreate : (memory.createHeap start stop maxSize flags).result = .ok (answer, memory')) :
    memory'.space.Tidy ∧ memory'.space.Known := by
  rcases createHeap_eq_ok (P := fun s => s.space.Tidy ∧ s.space.Known)
    (fun hs hensure => ensureEntry_known hs hensure) h hcreate with ⟨-, hordered⟩ |
    ⟨prepared, hprepared, -, hcreated⟩
  · exact hordered
  · obtain ⟨refusal, hasked, -⟩ := Heap.create_asks hcreated
    exact KernelSpace.lasting_known.asked hprepared hasked

theorem known_boot (h : (boot info).result = .ok memory) : memory.space.Known := by
  have hempty : ∀ ref, memory.space.ram.entry ref = .empty := by
    unfold boot at h
    simp only [Traced.result_bind, Traced.result_lift, Traced.result_note, ok_bind] at h
    obtain ⟨arena, -, h⟩ := bind_eq_ok h
    obtain ⟨⟨frames, arena₁⟩, -, h⟩ := bind_eq_ok h
    obtain ⟨⟨place, arena₂⟩, -, h⟩ := bind_eq_ok h
    obtain ⟨⟨directory, ram⟩, hplace, h⟩ := bind_eq_ok h
    obtain rfl := Except.ok.inj h
    unfold PageDirectory.place at hplace
    split at hplace
    · obtain ⟨-, rfl⟩ := Prod.mk.injEq .. ▸ Except.ok.inj hplace
      exact fun ref => PageTable.getElem_empty ref.index
    · simp at hplace
  intro ref number howns
  rw [hempty] at howns
  exact absurd howns (PageEntry.not_owns rfl number)

theorem Operated.orderly (h : Operated info heaps memory) : Orderly info heaps memory := by
  induction h with
  | booted hboot =>
      exact ⟨tidy_boot hboot, known_boot hboot, (stocked_boot hboot).2.2.2, by simp,
        fun heap hheap => by simp [(booted_boot hboot).heapless] at hheap⟩
  | identityMapped _ hmap ih =>
      obtain ⟨htidy, hknown⟩ := identityMap_known ⟨ih.tidy, ih.known⟩ hmap
      exact ih.prepared htidy hknown (identityMap_prepares ih.stocked hmap)
        (identityMap_retains hmap)
  | @heapCreated heaps memory memory' start stop maxSize flags heap _ hcreate ih =>
      obtain ⟨htidy, hknown⟩ := createHeap_known ⟨ih.tidy, ih.known⟩ hcreate
      obtain ⟨hretains, htables⟩ := createHeap_tabled hcreate
      have hprepared := ih.prepared htidy hknown (createHeap_prepares ih.stocked hcreate) hretains
      obtain ⟨hstart, hlimit, htabled⟩ := htables heap rfl
      refine ⟨htidy, hknown, hprepared.stocked, List.forall_mem_cons.mpr ⟨⟨?_, ?_⟩,
        hprepared.created⟩, hprepared.inUse⟩
      · exact ((createHeap_stays hcreate).2 heap rfl).1
      · rw [hstart, hlimit]
        exact htabled
  | heapRefused _ hcreate ih =>
      obtain ⟨htidy, hknown⟩ := createHeap_known ⟨ih.tidy, ih.known⟩ hcreate
      exact ih.prepared htidy hknown (createHeap_prepares ih.stocked hcreate)
        (createHeap_tabled hcreate).1
  | @heapEnabled heaps memory memory' heap _ hm henable ih =>
      obtain rfl := enableHeap_eq_ok henable
      refine ⟨ih.tidy, ih.known, ih.stocked, ih.created, fun used hused => ?_⟩
      obtain rfl := Option.some.inj hused
      exact ih.created heap hm
  | operation _ ho ih => exact ih.operation ho

end KernelMemory

theorem Realm.Reached.operated {info : BootInfo} {realm : Realm} (h : Realm.Reached info realm) :
    KernelMemory.Operated info realm.heaps realm.memory := by
  induction h with
  | booted hboot => exact .booted hboot
  | setup _ hs ih =>
      cases hs with
      | identityMapped hmap => exact ih.identityMapped hmap
      | heapCreated hcreate => exact ih.heapCreated hcreate
      | heapRefused hcreate => exact ih.heapRefused hcreate
      | heapEnabled hm henable => exact ih.heapEnabled hm henable
  | call _ hc ih =>
      cases hc with
      | granted halloc => exact ih.operation (.allocated halloc)
      | refused halloc => exact ih.operation (.allocated halloc)
      | freed _ hfree => exact ih.operation (.freed hfree)
      | faultHandled hresolve => exact ih.operation (.faultHandled hresolve)
      | spaceCreated hcreate => exact ih.operation (.spaceCreated hcreate)
      | spaceRefused hcreate => exact ih.operation (.spaceCreated hcreate)
      | rangeMapped _ hmap => exact ih.operation (.rangeMapped hmap)
      | rangeUnmapped _ hunmap => exact ih.operation (.rangeUnmapped hunmap)
      | spaceDestroyed _ hdestroy => exact ih.operation (.spaceDestroyed hdestroy)

end KernelCore
