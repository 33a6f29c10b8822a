import Mathlib
import KernelCore.Proofs.Memory.Boot
import KernelCore.Proofs.Memory.Custody

/-!
# The ledger of the kernel heap

`Kept` says that what is held is allocated. The ledger adds the converse, so that nothing is leaked:
the used blocks are those that serve as tables and those that are held as anything else. It rests on
all backed pages being mapped, since a block without a kernel mapping would be lost as a table.
Blocks that are held can be freed, and so can the tables and the directory of an address space.
-/

namespace KernelCore

open Heap

/-- Kernel memory whose used heap blocks are the tables at `tables` and those of `held`. -/
structure Ledger (kernel : PageDirectory) (tables : List Nat) (held : List Block) (heap : Heap)
    (space : KernelSpace) : Prop where
  kept : Kept kernel tables (held.map (·.addr)) heap space
  balanced : (usedBlocks heap.blocks).Perm (tables.map tableBlock ++ held)
  backed : space.Backed heap.start heap.stop
  narrow : heap.limit ≤ heap.start + addressSpan

variable {kernel : PageDirectory} {tables tables' : List Nat} {held held' : List Block}
  {heap heap' : Heap} {space space' : KernelSpace} {block : Block} {addr : Nat}

theorem Ledger.perm (h : Ledger kernel tables held heap space) (same : tables.Perm tables')
    (rest : held.Perm held') : Ledger kernel tables' held' heap space where
  kept := h.kept.perm same (rest.map _)
  balanced := h.balanced.trans ((same.map _).append rest)
  backed := h.backed
  narrow := h.narrow

theorem Ledger.of_space (h : Ledger kernel tables held heap space)
    (holds : space'.Holds kernel (kernel.tableAddrs ++ tables)) (extends' : space.Extends space') :
    Ledger kernel tables held heap space' :=
  ⟨h.kept.of_space holds, h.balanced, h.backed.mono extends', h.narrow⟩

theorem Ledger.mem_used (h : Ledger kernel tables held heap space) (hm : block ∈ held) :
    block ∈ usedBlocks heap.blocks :=
  h.balanced.mem_iff.mpr (List.mem_append_right _ hm)

/-- A change outside the kernel's tables unmaps nothing. -/
theorem Ledger.extends_of_entries (h : Ledger kernel tables held heap space)
    (same : space'.directory = space.directory) (elsewhere : addr ∉ kernel.tableAddrs)
    (entries : ∀ ref, addr ≠ ref.table → space'.ram.entry ref = space.ram.entry ref) :
    space.Extends space' := by
  refine .of_entries same fun ref hm => entries ref ?_
  rintro rfl
  exact elsewhere (h.kept.holds.same ▸ hm)

/-! ## Allocating and freeing -/

theorem Ledger.granted (h : Ledger kernel tables held heap space) {size : Nat} {pageAligned : Bool}
    (hg : Granted KernelSpace.mapper size pageAligned heap space addr heap' space') :
    Ledger kernel tables (⟨addr, rounded size, true⟩ :: held) heap' space' where
  kept := h.kept.granted hg
  balanced := hg.used.trans ((h.balanced.cons _).trans List.perm_middle.symm)
  backed := by
    rcases hg.backing with ⟨hstop, rfl⟩ | ⟨-, hmap⟩
    · rw [hg.same.start, hstop]
      exact h.backed
    · obtain ⟨hextends, hadded⟩ := KernelSpace.map_extends hmap
      rw [hg.same.start]
      intro page hpage hlow hhigh
      rcases Nat.lt_or_ge page heap.stop with hold | hnew
      · exact (h.backed page hpage hlow hold).mono hextends
      · exact hadded h.kept.valid.window.stop_page rfl page hpage hnew hhigh
  narrow := by
    rw [hg.same.limit, hg.same.start]
    exact h.narrow

theorem Ledger.alloc (h : Ledger kernel tables held heap space) {size : Nat} {pageAligned : Bool}
    {answer : Except HeapError Nat}
    (halloc : (heap.alloc KernelSpace.mapper size pageAligned space).result =
      .ok (answer, heap', space')) :
    (∃ cause, answer = .error cause ∧ Ledger kernel tables held heap' space') ∨
      ∃ addr, answer = .ok addr ∧ (pageAligned = true → pageSize ∣ addr) ∧
        Ledger kernel tables (⟨addr, rounded size, true⟩ :: held) heap' space' := by
  have hends := h.kept.valid.alloc_ends KernelSpace.mapper size pageAligned space
  rw [halloc] at hends
  cases hends with
  | refused cause => exact .inl ⟨cause, rfl, h⟩
  | unmapped hmap =>
      have hholds := h.kept.holds.map h.kept.inside hmap
      exact .inl ⟨_, rfl, h.of_space hholds (KernelSpace.map_extends hmap).1⟩
  | granted hg => exact .inr ⟨_, rfl, hg.page, h.granted hg⟩

theorem Ledger.free (h : Ledger kernel tables (block :: held) heap space) :
    ∃ freed, (heap.free KernelSpace.mapper block.addr space).result = .ok freed ∧
      Ledger kernel tables held freed.1 freed.2 := by
  obtain ⟨⟨heap', space'⟩, hfree⟩ := h.kept.exists_free
  have hends := h.kept.valid.free_ends (h.mem_used List.mem_cons_self) KernelSpace.mapper space
  rw [hfree] at hends
  cases hends with
  | released hr =>
      refine ⟨_, hfree, h.kept.free hfree, ?_, ?_, ?_⟩
      · have hall := hr.used.symm.trans (h.balanced.trans List.perm_middle)
        exact hall.cons_inv
      · rcases hr.backing with ⟨hstop, rfl⟩ | ⟨hlt, hunmap⟩
        · rw [hr.same.start, hstop]
          exact h.backed
        · rw [hr.same.start]
          -- The pages that stay have entries of their own, as the window is narrow.
          have hrest : space.Backed heap.start heap'.stop :=
            fun page hpage hlow hhigh => h.backed page hpage hlow (Nat.lt_trans hhigh hlt)
          apply hrest.unmap (h.kept.holds.same ▸ h.kept.distinct) hr.valid.window.stop_page _ hunmap
          exact Nat.le_trans h.kept.valid.window.stop_le h.narrow
      · rw [hr.same.limit, hr.same.start]
        exact h.narrow

/-! ## Tables -/

theorem Ledger.not_mem_tableAddrs (h : Ledger kernel tables (block :: held) heap space) :
    block.addr ∉ kernel.tableAddrs :=
  h.kept.not_mem_tableAddrs (List.mem_append_right _ List.mem_cons_self)

theorem Ledger.translate (h : Ledger kernel tables (block :: held) heap space)
    (aligned : pageSize ∣ block.addr) : ∃ phys, space.translate block.addr = some phys := by
  obtain ⟨hstart, hpos, hstop⟩ := h.kept.valid.books.laid.tiles.bounds
    (List.mem_of_mem_filter (h.mem_used List.mem_cons_self))
  refine KernelSpace.Maps.translate (h.backed block.addr aligned hstart ?_)
  unfold Block.stop at hstop
  omega

theorem Ledger.adopt (h : Ledger kernel tables (tableBlock addr :: held) heap space) :
    Ledger kernel (addr :: tables) held heap
      { space with ram := space.ram.clearTable addr } where
  kept := h.kept.adopt
  balanced := h.balanced.trans List.perm_middle
  backed := by
    apply h.backed.mono
    refine h.extends_of_entries rfl h.not_mem_tableAddrs fun ref hother => ?_
    exact (entry_clearTable space.ram addr ref).trans (if_neg hother)
  narrow := h.narrow

theorem Ledger.surrender (h : Ledger kernel (addr :: tables) held heap space) :
    ∃ cleared, space.unbackTable addr = .ok cleared ∧
      Ledger kernel tables (tableBlock addr :: held) heap cleared := by
  have hm : addr ∈ kernel.tableAddrs ++ addr :: tables := by simp
  obtain ⟨cleared, hunback⟩ := h.kept.holds.exists_unbackTable hm
  have hkept := h.kept.surrender hunback
  refine ⟨cleared, hunback, hkept, h.balanced.trans List.perm_middle.symm, ?_, h.narrow⟩
  apply h.backed.mono
  apply @Ledger.extends_of_entries _ _ _ _ _ _ addr h
  · rw [hkept.holds.same, h.kept.holds.same]
  · exact h.kept.not_mem_tableAddrs (List.mem_append_left _ List.mem_cons_self)
  · intro ref hother
    unfold KernelSpace.unbackTable at hunback
    obtain ⟨frames, -, hunback⟩ := bind_eq_ok hunback
    obtain rfl := Except.ok.inj hunback
    exact (Ram.entry_setTable _ _ _ _).trans (if_neg hother)

theorem Ledger.of_entry (h : Ledger kernel tables held heap space) {ref : EntryRef}
    (hm : ref.table ∈ tables) (holds : space'.Holds kernel (kernel.tableAddrs ++ tables))
    (same : space'.directory = space.directory)
    (others : ∀ other, ref ≠ other → space'.ram.entry other = space.ram.entry other) :
    Ledger kernel tables held heap space' := by
  refine h.of_space holds (.of_entries same fun other hother => others other ?_)
  rintro rfl
  exact h.kept.not_mem_tableAddrs (List.mem_append_left _ hm) (h.kept.holds.same ▸ hother)

theorem Ledger.custody (kernel : PageDirectory) : Custody kernel (Ledger kernel) where
  same := fun h => h.kept.holds.same
  perm := fun h same rest => h.perm same rest
  entries := fun h same => h.of_space
    ⟨h.kept.holds.same, h.kept.holds.owned.perm (.refl _) fun ref _ => same ref⟩
    (.of_entries rfl fun ref _ => same ref)
  alloc := fun h halloc => h.alloc halloc
  free := fun h => h.free
  translate := fun h aligned => h.translate aligned
  adopt := fun h => h.adopt
  surrender := fun h => h.surrender
  back := fun h hm hback => h.of_space (h.kept.holds.backEntry (by simp [hm]) hback)
    (KernelSpace.backEntry_extends hback).1
  unback := by
    intro tables held heap space ref space' h hm hunback
    obtain ⟨hsame, hothers⟩ := KernelSpace.unbackEntry_others hunback
    exact h.of_entry hm (h.kept.holds.unbackEntry (by simp [hm]) hunback) hsame hothers

/-! ## The operations -/

namespace KernelMemory

/-- Kernel memory with its heap in use and every used block accounted for. -/
def Balances (kernel : PageDirectory) (tables : List Nat) (held : List Block)
    (memory : KernelMemory) : Prop :=
  ∃ heap, memory.heap = some heap ∧ Ledger kernel tables held heap memory.space

variable {memory memory' : KernelMemory}

theorem Balances.perm (h : memory.Balances kernel tables held) (same : tables.Perm tables')
    (rest : held.Perm held') : memory.Balances kernel tables' held' := by
  obtain ⟨heap, hheap, hledger⟩ := h
  exact ⟨heap, hheap, hledger.perm same rest⟩

theorem Balances.tryAlloc (h : memory.Balances kernel tables held) {size : Nat}
    {pageAligned : Bool} {answer : Except HeapError Nat}
    (halloc : (memory.tryAlloc size pageAligned).result = .ok (answer, memory')) :
    (∃ cause, answer = .error cause ∧ memory'.Balances kernel tables held) ∨
      ∃ addr, answer = .ok addr ∧ (pageAligned = true → pageSize ∣ addr) ∧
        memory'.Balances kernel tables (⟨addr, rounded size, true⟩ :: held) :=
  (Ledger.custody kernel).tryAlloc h halloc

theorem Balances.free (h : memory.Balances kernel tables (block :: held)) :
    ∃ memory', (memory.free block.addr).result = .ok memory' ∧
      memory'.Balances kernel tables held :=
  (Ledger.custody kernel).exists_free h

theorem Balances.resolveFault (h : memory.Balances kernel tables held) {error : Nat}
    {answer : Option PageFaultError}
    (hresolve : (memory.resolveFault addr error).result = .ok (answer, memory')) :
    memory'.Balances kernel tables held := by
  obtain ⟨heap, hheap, hledger⟩ := h
  rcases resolveFault_eq_ok hheap hresolve with rfl | ⟨start, stop, refused, hsame, hmap⟩
  · exact ⟨heap, hheap, hledger⟩
  · refine ⟨heap, hsame, hledger.of_space ?_ (KernelSpace.map_extends hmap).1⟩
    exact hledger.kept.holds.map hledger.kept.inside hmap

theorem Balances.createSpace (h : memory.Balances kernel tables held)
    {answer : Except HeapError AddressSpace}
    (hcreate : memory.createSpace.result = .ok (answer, memory')) :
    (∃ cause, answer = .error cause ∧
        (memory.tryAlloc directoryBytes true).result = .ok (.error cause, memory') ∧
        memory'.Balances kernel tables held) ∨
      ∃ made, answer = .ok made ∧ made.directory.ownAddrs = [] ∧ Borrows kernel made.directory ∧
        memory'.Balances kernel tables (made.block :: held) :=
  (Ledger.custody kernel).createSpace h hcreate

theorem Balances.destroySpace {made : AddressSpace}
    (h : memory.Balances kernel (made.directory.ownAddrs ++ tables) (made.block :: held)) :
    ∃ memory', (memory.destroySpace made).result = .ok memory' ∧
      memory'.Balances kernel tables held :=
  (Ledger.custody kernel).destroySpace h

theorem Balances.mapRange {made made' : AddressSpace} (borrows : Borrows kernel made.directory)
    (h : memory.Balances kernel (made.directory.ownAddrs ++ tables) held) {start stop : Nat}
    {flags : HeapFlags} {refused : Option PagingError}
    (hmap : (memory.mapRange made start stop flags).result = .ok (refused, made', memory')) :
    Borrows kernel made'.directory ∧ made'.addr = made.addr ∧
      memory'.Balances kernel (made'.directory.ownAddrs ++ tables) held :=
  (Ledger.custody kernel).mapRange borrows h hmap

theorem Balances.unmapRange {made : AddressSpace}
    (h : memory.Balances kernel (made.directory.ownAddrs ++ tables) held) {start stop : Nat}
    (inside : made.directory.Private start stop)
    (hunmap : (memory.unmapRange made start stop).result = .ok memory') :
    memory'.Balances kernel (made.directory.ownAddrs ++ tables) held :=
  (Ledger.custody kernel).unmapRange h inside hunmap

end KernelMemory

theorem Booted.balances {info : BootInfo} {memory created memory' : KernelMemory}
    (h : Booted info memory) {start stop maxSize : Nat} {flags : HeapFlags} {heap : Heap}
    (apart : start + maxSize ≤ info.kernelEnd ∨ info.placementLimit ≤ start)
    (narrow : maxSize ≤ addressSpan)
    (hcreate : (memory.createHeap start stop maxSize flags).result = .ok (.ok heap, created))
    (henable : (created.enableHeap heap).result = .ok memory') :
    memory'.Balances memory'.space.directory [] [] := by
  obtain ⟨used, hused, hkept⟩ := h.enableHeap apart hcreate henable
  obtain ⟨prepared, -, hheap, hcreated⟩ := h.enableHeap_eq_ok hcreate henable
  obtain rfl := Option.some.inj (hused.symm.trans hheap)
  refine ⟨_, hheap, hkept, by simp [hcreated.used], ?_, ?_⟩
  · rw [hcreated.start_eq, hcreated.stop_eq]
    exact (KernelSpace.map_extends hcreated.backing).2
      (hcreated.start_eq ▸ hcreated.valid.window.start_page) rfl
  · rw [hcreated.limit_eq, hcreated.start_eq]
    omega

end KernelCore
