import Mathlib
import KernelCore.Proofs.Memory.Guarded
import KernelCore.Proofs.System.Privacy

/-!
# Static memory stays the kernel's

The boot code maps all memory below the placement limit onto itself, creates a heap behind it and
calls on the heap and on address spaces from then on. Throughout, static memory translates to
itself, its frames are in use and back nothing else, and the blocks that are carved out of it lie
apart.
-/

namespace KernelCore

open Heap

/-! ## Runs -/

namespace KernelMemory

/-- Kernel memory that is mapped onto itself. Heaps may have been asked for in vain. -/
inductive SelfMapped (info : BootInfo) : KernelMemory → Prop
  | mapped {booted memory : KernelMemory} :
      (boot info).result = .ok booted → booted.identityMapKernel.result = .ok memory →
      SelfMapped info memory
  | heapRefused {memory memory' : KernelMemory} {start stop maxSize : Nat} {flags : HeapFlags}
      {cause : HeapError} :
      SelfMapped info memory →
      (memory.createHeap start stop maxSize flags).result = .ok (.error cause, memory') →
      SelfMapped info memory'

theorem SelfMapped.pinned {info : BootInfo} {memory : KernelMemory} (h : SelfMapped info memory)
    (backed : info.placementLimit ≤ info.memoryEnd / frameSize * frameSize)
    (narrow : info.placementLimit ≤ addressSpan) : Pinned info info.staticPages memory := by
  induction h with
  | mapped hboot hmap => exact pinned_identityMapKernel hboot backed narrow hmap
  | heapRefused _ hcreate ih => exact ih.createHeap_refused hcreate

end KernelMemory

namespace System

/-- Kernel memory from the time it is mapped onto itself. A heap is created that may take `maxSize`
bytes from `base` on and is put to use, and calls may come at any time. -/
inductive Furnished (info : BootInfo) (base maxSize : Nat) : System → Prop
  | mapped {memory : KernelMemory} :
      KernelMemory.SelfMapped info memory →
      Furnished info base maxSize ⟨.empty, memory, [], [], []⟩
  | created {memory created : KernelMemory} {stop : Nat} {flags : HeapFlags} {heap : Heap} :
      KernelMemory.SelfMapped info memory →
      (memory.createHeap base stop maxSize flags).result = .ok (.ok heap, created) →
      Furnished info base maxSize ⟨.empty, created, [], [], []⟩
  | enabled {memory created memory' : KernelMemory} {stop : Nat} {flags : HeapFlags} {heap : Heap} :
      KernelMemory.SelfMapped info memory →
      (memory.createHeap base stop maxSize flags).result = .ok (.ok heap, created) →
      (created.enableHeap heap).result = .ok memory' →
      Furnished info base maxSize ⟨.empty, memory', [], [], []⟩
  | called {sys sys' : System} :
      Furnished info base maxSize sys → MemoryCall sys sys' → Furnished info base maxSize sys'

end System

/-! ## What a run preserves -/

structure KernelMemory.StaticKept (info : BootInfo) (memory : KernelMemory)
    (spaces : List AddressSpace) : Prop where
  /-- Static memory is mapped onto itself. -/
  identity : ∀ virt < info.placementLimit, memory.translate virt = some virt
  /-- Its frames are in use. -/
  used : ∀ addr < pageUp info.placementLimit, memory.space.frames.isUsed addr = .ok true
  /-- The next frame that is taken is none of them. -/
  untaken : ∀ frame rest, memory.space.frames.take = .ok (some frame, rest) →
    pageUp info.placementLimit ≤ frame
  /-- Nothing else of the kernel's lies in them. -/
  alone : ∀ virt < addressSpan, ∀ phys, memory.translate virt = some phys →
    phys < pageUp info.placementLimit → virt = phys
  /-- In particular, no page of the heap's window does. -/
  heap : ∀ heap, memory.heap = some heap → ∀ virt phys, heap.start ≤ virt → virt < heap.limit →
    memory.translate virt = some phys → pageUp info.placementLimit ≤ phys
  /-- No private page of an address space does. -/
  spaces : ∀ made ∈ spaces, ∀ virt phys, made.directory.Owns virt →
    memory.translateIn made virt = some phys → pageUp info.placementLimit ≤ phys
  /-- The frame bitmap, the kernel directory and all kernel tables are carved out of it. -/
  blocks : ∃ blocks, Stocked info memory.space.directory memory.arena blocks ∧
    (∀ block ∈ blocks, info.kernelEnd ≤ block.addr ∧ info.modulesEnd ≤ block.addr ∧
      0 < block.size ∧ block.stop ≤ info.placementLimit) ∧
    blocks.Pairwise fun a b => a.stop ≤ b.addr ∨ b.stop ≤ a.addr

theorem KernelSpace.Pins.static_kept {info : BootInfo} {memory : KernelMemory}
    {spaces : List AddressSpace} {tables : List Nat} (h : memory.space.Pins info.staticPages)
    (owned : Owned (memory.space.directory.tableAddrs ++ tables) memory.space.ram
      memory.space.frames)
    (distinct : memory.space.directory.tableAddrs.Nodup)
    (narrow : info.placementLimit ≤ addressSpan)
    (foreign : ∀ made ∈ spaces, ∀ table ∈ made.directory.ownAddrs,
      table ∈ tables ∧ table ∉ memory.space.directory.tableAddrs)
    (behind : ∀ heap, memory.heap = some heap →
      pageUp info.placementLimit ≤ heap.start ∧ heap.limit ≤ addressSpan)
    (stocked : ∃ blocks, Stocked info memory.space.directory memory.arena blocks) :
    memory.StaticKept info spaces := by
  have hspan : pageUp info.placementLimit ≤ addressSpan := pageUp_le narrow (by decide)
  have halone : ∀ virt < addressSpan, ∀ phys, memory.translate virt = some phys →
      phys < pageUp info.placementLimit → virt = phys := by
    rw [← info.staticPages_mul] at hspan ⊢
    exact fun virt hvirt phys hphys => h.alone owned distinct hspan hvirt hphys
  obtain ⟨blocks, hstocked⟩ := stocked
  refine ⟨?_, ?_, ?_, halone, ?_, ?_, blocks, hstocked, fun _ => hstocked.inside, hstocked.apart⟩
  · intro virt hvirt
    exact h.translate (info.staticPages_mul ▸ Nat.lt_of_lt_of_le hvirt (le_pageUp _))
  · rw [← info.staticPages_mul]
    exact fun addr haddr => h.isUsed owned haddr
  · rw [← info.staticPages_mul]
    exact fun frame rest htake => h.take owned htake
  · intro heap hheap virt phys hstart hlimit hphys
    obtain ⟨habove, hbelow⟩ := behind heap hheap
    refine Nat.le_of_not_lt fun hlow => ?_
    have hsame := halone virt (Nat.lt_of_lt_of_le hlimit hbelow) phys hphys hlow
    omega
  · intro made hm virt phys howns hphys
    obtain ⟨ref, -, hmine, hframe, -⟩ := owns_of_own howns hphys
    obtain ⟨htable, hforeign⟩ := foreign made hm _ hmine
    rw [← info.staticPages_mul]
    exact Nat.le_trans (Nat.mul_le_mul_right _ (h.foreign owned htable hforeign hframe))
      (Nat.div_mul_le_self _ _)

theorem Guarded.static_kept {info : BootInfo} {memory : KernelMemory} {spaces : List AddressSpace}
    {kernel : PageDirectory} {tables : List Nat} {held : List Block} {heap : Heap}
    (h : Guarded info.staticPages kernel tables held heap memory.space)
    (narrow : info.placementLimit ≤ addressSpan)
    (served : ∀ made ∈ spaces, ∀ table ∈ made.directory.ownAddrs, table ∈ tables)
    (window : ∀ used, memory.heap = some used → used = heap)
    (stocked : ∃ blocks, Stocked info kernel memory.arena blocks) :
    memory.StaticKept info spaces := by
  have hsame : memory.space.directory = kernel := h.ledger.kept.holds.same
  have howned := h.ledger.kept.holds.owned
  have hdistinct := h.ledger.kept.distinct
  rw [← hsame] at howned hdistinct stocked
  refine h.pins.static_kept howned hdistinct narrow ?_ ?_ stocked
  · intro made hm table hmine
    have hserved := served made hm table hmine
    exact ⟨hserved, hsame ▸ h.not_mem hserved⟩
  · rintro used hused
    obtain rfl := window used hused
    exact ⟨info.staticPages_mul ▸ h.above, h.below⟩

namespace System

variable {info : BootInfo} {base maxSize : Nat} {sys sys' : System}

/-- Without a heap, calls change nothing. -/
theorem MemoryCall.eq_of_heapless (h : MemoryCall sys sys') (heap : sys.memory.heap = none)
    (spaces : sys.spaces = []) (blocks : sys.blocks = []) : sys' = sys := by
  obtain ⟨scheduler, memory, _, _, trail⟩ := sys
  subst spaces blocks
  cases h with
  | granted halloc => simp_all [KernelMemory.tryAlloc]
  | refused halloc => simp_all [KernelMemory.tryAlloc]
  | freed hm => simp at hm
  | faultHandled hresolve =>
      simp only at heap hresolve
      rw [(KernelMemory.resolveFault_heapless heap hresolve).1]
  | spaceCreated hcreate => simp_all [KernelMemory.createSpace, KernelMemory.tryAlloc]
  | spaceRefused hcreate => simp_all [KernelMemory.createSpace, KernelMemory.tryAlloc]
  | rangeMapped hm => simp at hm
  | rangeUnmapped hm => simp at hm
  | spaceDestroyed hm => simp at hm

/-- The heap in use lies behind static memory, and the arena is as it was when the heap was made. -/
def Supplied (info : BootInfo) (sys : System) : Prop :=
  ∃ kernel, Good (Borrows kernel)
      (fun tables held memory => memory.InUse (Guarded info.staticPages kernel tables held)) sys ∧
    ∃ blocks, Stocked info kernel sys.memory.arena blocks

theorem Supplied.memoryCall (h : Supplied info sys) (hcall : MemoryCall sys sys') :
    Supplied info sys' := by
  obtain ⟨kernel, hgood, hstocked⟩ := h
  have haccount := (Guarded.custody info.staticPages kernel).account
    fun h hresolve => Guarded.resolveFault h hresolve
  have harena := hgood.arena.memoryCall (KernelMemory.arena_account _) hcall
  exact ⟨kernel, hgood.memoryCall haccount hcall, harena.kept ▸ hstocked⟩

theorem Supplied.static_kept (h : Supplied info sys) (narrow : info.placementLimit ≤ addressSpan) :
    sys.memory.StaticKept info sys.spaces := by
  obtain ⟨kernel, hgood, hstocked⟩ := h
  obtain ⟨heap, hheap, hguarded⟩ := hgood.kept
  refine hguarded.static_kept narrow ?_ ?_ hstocked
  · intro made hm table hmine
    exact List.mem_append_right _ (List.mem_flatMap.mpr ⟨made, hm, hmine⟩)
  · intro used hused
    exact Option.some.inj (hused.symm.trans hheap)

/-- Until the heap is put to use there is no heap, and calls have no effect. -/
theorem Furnished.supplied (h : Furnished info base maxSize sys)
    (backed : info.placementLimit ≤ info.memoryEnd / frameSize * frameSize)
    (narrow : info.placementLimit ≤ addressSpan)
    (outside : ∀ addr, base ≤ addr → addr < base + maxSize → pageUp info.placementLimit ≤ addr)
    (below : base + maxSize ≤ addressSpan) :
    (sys.memory.heap = none ∧ sys.spaces = [] ∧ sys.blocks = [] ∧
      sys.memory.StaticKept info []) ∨ Supplied info sys := by
  induction h with
  | @mapped memory hmapped =>
      have hpinned := hmapped.pinned backed narrow
      have howned := hpinned.booted.owned
      rw [← List.append_nil memory.space.directory.tableAddrs] at howned
      have hkept : memory.StaticKept info [] :=
        hpinned.pins.static_kept howned hpinned.distinct narrow (by simp)
          (by simp [hpinned.booted.heapless]) hpinned.stocked
      exact .inl ⟨hpinned.booted.heapless, rfl, rfl, hkept⟩
  | created hmapped hcreate =>
      obtain ⟨hheapless, hguarded, hstocked⟩ :=
        (hmapped.pinned backed narrow).createHeap outside below hcreate
      refine .inl ⟨hheapless, rfl, rfl, hguarded.static_kept narrow (by simp) ?_ hstocked⟩
      simp [hheapless]
  | enabled hmapped hcreate henable =>
      obtain ⟨-, hguarded, hstocked⟩ :=
        (hmapped.pinned backed narrow).createHeap outside below hcreate
      obtain rfl := KernelMemory.enableHeap_eq_ok henable
      exact .inr ⟨_, .blank ⟨_, rfl, hguarded⟩, hstocked⟩
  | called _ hcall ih =>
      rcases ih with ⟨hnone, hspaces, hblocks, hkept⟩ | hsupplied
      · rw [hcall.eq_of_heapless hnone hspaces hblocks]
        exact .inl ⟨hnone, hspaces, hblocks, hkept⟩
      · exact .inr (hsupplied.memoryCall hcall)

/-- Static memory that is at most 4 GiB and has frames stays the kernel's, if the heap's window lies
outside it and ends within 4 GiB. -/
theorem Furnished.static_memory_kept (h : Furnished info base maxSize sys)
    (backed : info.placementLimit ≤ info.memoryEnd / frameSize * frameSize)
    (narrow : info.placementLimit ≤ addressSpan)
    (outside : ∀ addr, base ≤ addr → addr < base + maxSize → pageUp info.placementLimit ≤ addr)
    (below : base + maxSize ≤ addressSpan) : sys.memory.StaticKept info sys.spaces := by
  rcases h.supplied backed narrow outside below with ⟨-, hspaces, -, hkept⟩ | hsupplied
  · rw [hspaces]
    exact hkept
  · exact hsupplied.static_kept narrow

def sampleFurnished : Except Fault System := do
  let booted ← (KernelMemory.boot KernelMemory.sampleInfo).result
  let mapped ← booted.identityMapKernel.result
  let (answer, created) ← (mapped.createHeap 0x400000 0x401000 0x10000 .supervisor).result
  let .ok heap := answer | throw .raised
  let enabled ← (created.enableHeap heap).result
  let (answer, spaced) ← enabled.createSpace.result
  let .ok made := answer | throw .raised
  let (_, made', memory) ← (spaced.mapRange made 0x800000 0x801000 .supervisor).result
  return ⟨.empty, memory, made' :: [made].erase made, [], []⟩

theorem furnished_sampleFurnished (h : sampleFurnished = .ok sys) :
    Furnished KernelMemory.sampleInfo 0x400000 0x10000 sys := by
  unfold sampleFurnished at h
  obtain ⟨booted, hboot, h⟩ := bind_eq_ok h
  obtain ⟨mapped, hidentity, h⟩ := bind_eq_ok h
  obtain ⟨⟨answer, created⟩, hcreate, h⟩ := bind_eq_ok h
  rcases answer with cause | heap
  · simp at h
  obtain ⟨enabled, henable, h⟩ := bind_eq_ok h
  obtain ⟨⟨answer, spaced⟩, hspace, h⟩ := bind_eq_ok h
  rcases answer with cause | made
  · simp at h
  obtain ⟨⟨refusal, made', memory⟩, hmap, h⟩ := bind_eq_ok h
  obtain rfl := Except.ok.inj h
  have hfurnished := Furnished.enabled (.mapped hboot hidentity) hcreate henable
  have hspaced := hfurnished.called (.spaceCreated hspace)
  exact hspaced.called (.rangeMapped List.mem_cons_self hmap)

/-- The table for the heap's window is carved out after the mapping was made, and lies in it. The
private page is there, in a frame behind static memory. -/
theorem static_memory_kept_after_mapping :
    ∃ (sys : System) (made : AddressSpace) (phys : Nat),
      Furnished KernelMemory.sampleInfo 0x400000 0x10000 sys ∧
        sys.memory.StaticKept KernelMemory.sampleInfo sys.spaces ∧
        (sys.memory.space.directory.find? 0x400000).isSome ∧ made ∈ sys.spaces ∧
        made.directory.Owns 0x800000 ∧ sys.memory.translateIn made 0x800000 = some phys := by
  have hfacts : (sampleFurnished.map fun sys => ((sys.memory.space.directory.find? 0x400000).isSome,
      sys.spaces.any fun made =>
        (made.directory.slots.get (tableIndex 0x800000)).any (!·.linked) &&
          (sys.memory.translateIn made 0x800000).isSome)) = .ok (true, true) := by decide +kernel
  cases hsample : sampleFurnished with
  | error cause => simp [hsample, Except.map] at hfacts
  | ok sys =>
      simp only [hsample, Except.map, Except.ok.injEq, Prod.mk.injEq, List.any_eq_true,
        Bool.and_eq_true, Option.any_eq_true, Bool.not_eq_true'] at hfacts
      obtain ⟨htable, made, hmade, ⟨slot, hslot, hown⟩, hphys⟩ := hfacts
      have hfurnished := furnished_sampleFurnished hsample
      obtain ⟨phys, hphys⟩ := Option.isSome_iff_exists.mp hphys
      refine ⟨sys, made, phys, hfurnished, ?_, htable, hmade, ⟨slot, hslot, hown⟩, hphys⟩
      exact hfurnished.static_memory_kept (by decide) (by decide)
        (fun addr hbase _ => Nat.le_trans (by decide) hbase) (by decide)

end System

end KernelCore
