import Mathlib
import KernelCore.Proofs.Memory.Ledger
import KernelCore.Proofs.Memory.Reservations
import KernelCore.Proofs.Scheduler.Steps

/-!
# Accounts of the kernel heap

An account says who holds which heap block, in terms that every call on the kernel memory keeps. The
ledger is one that leaves nothing out, for a narrow heap outside static memory. For any heap at all,
there is one that says no more than that what is held is allocated. What goes by the heap's blocks
and the kernel directory, and by no page entry, is an account as soon as allocating and freeing keep
it, since no call on an address space changes the kernel directory.
-/

namespace KernelCore

open Heap

/-- What `holds` says of the tables and the other blocks that are held goes through every call that
comes back, and so does what `lent` says of the directories of address spaces. -/
structure Account (lent : PageDirectory → Prop)
    (holds : List Nat → List Block → KernelMemory → Prop) : Prop where
  perm : ∀ {tables tables' held held' memory}, holds tables held memory → tables.Perm tables' →
    held.Perm held' → holds tables' held' memory
  saveFrame : ∀ {tables held memory}, holds tables held memory → ∀ addr registers,
    holds tables held (memory.saveFrame addr registers)
  tryAlloc : ∀ {tables held memory size pageAligned answer memory'}, holds tables held memory →
    (memory.tryAlloc size pageAligned).result = .ok (answer, memory') →
      (∃ cause, answer = .error cause ∧ holds tables held memory') ∨
        ∃ addr, answer = .ok addr ∧ holds tables (⟨addr, rounded size, true⟩ :: held) memory'
  free : ∀ {tables block held memory memory'}, holds tables (block :: held) memory →
    (memory.free block.addr).result = .ok memory' → holds tables held memory'
  resolveFault : ∀ {tables held memory addr error answer memory'}, holds tables held memory →
    (memory.resolveFault addr error).result = .ok (answer, memory') → holds tables held memory'
  /-- A new address space holds its directory's block, and no table. -/
  createSpace : ∀ {tables held memory answer memory'}, holds tables held memory →
    memory.createSpace.result = .ok (answer, memory') →
      (∃ cause, answer = .error cause ∧ holds tables held memory') ∨
        ∃ made, answer = .ok made ∧ made.directory.ownAddrs = [] ∧ lent made.directory ∧
          holds tables (made.block :: held) memory'
  mapRange : ∀ {tables held memory made start stop flags answer made' memory'},
    lent made.directory → holds (made.directory.ownAddrs ++ tables) held memory →
    (memory.mapRange made start stop flags).result = .ok (answer, made', memory') →
      lent made'.directory ∧ made'.addr = made.addr ∧
        holds (made'.directory.ownAddrs ++ tables) held memory'
  unmapRange : ∀ {tables held memory made start stop memory'}, lent made.directory →
    holds (made.directory.ownAddrs ++ tables) held memory → made.directory.Private start stop →
    (memory.unmapRange made start stop).result = .ok memory' →
      holds (made.directory.ownAddrs ++ tables) held memory'
  destroySpace : ∀ {tables held memory made memory'},
    holds (made.directory.ownAddrs ++ tables) (made.block :: held) memory →
    (memory.destroySpace made).result = .ok memory' → holds tables held memory'

/-! ## Custody over the heap in use -/

/-- What survives each move of blocks, tables and entries is an account, as soon as pages that are
mapped on demand do it no harm. -/
theorem Custody.account {kernel : PageDirectory}
    {holds : List Nat → List Block → Heap → KernelSpace → Prop} (custody : Custody kernel holds)
    (resolve : ∀ {tables held memory addr error answer memory'},
      KernelMemory.InUse (holds tables held) memory →
      (memory.resolveFault addr error).result = .ok (answer, memory') →
        memory'.InUse (holds tables held)) :
    Account (Borrows kernel) fun tables held memory => memory.InUse (holds tables held) where
  perm := by
    rintro tables tables' held held' memory ⟨heap, hheap, hheld⟩ same rest
    exact ⟨heap, hheap, custody.perm hheld same rest⟩
  saveFrame := by
    rintro tables held memory ⟨heap, hheap, hheld⟩ addr registers
    exact ⟨heap, hheap, custody.entries hheld fun _ => rfl⟩
  tryAlloc := by
    intro tables held memory size pageAligned answer memory' h halloc
    rcases custody.tryAlloc h halloc with hrefused | ⟨addr, hanswer, -, hheld⟩
    · exact .inl hrefused
    · exact .inr ⟨addr, hanswer, hheld⟩
  free := by
    intro tables block held memory memory' h hfree
    obtain ⟨freed, hfreed, hheld⟩ := custody.exists_free h
    obtain rfl := Except.ok.inj (hfree.symm.trans hfreed)
    exact hheld
  resolveFault := resolve
  createSpace := by
    intro tables held memory answer memory' h hcreate
    rcases custody.createSpace h hcreate with ⟨cause, hanswer, -, hheld⟩ | hmade
    · exact .inl ⟨cause, hanswer, hheld⟩
    · exact .inr hmade
  mapRange := fun borrows h hmap => custody.mapRange borrows h hmap
  unmapRange := fun _ h inside hunmap => custody.unmapRange h inside hunmap
  destroySpace := by
    intro tables held memory made memory' h hdestroy
    obtain ⟨destroyed, hdestroyed, hheld⟩ := custody.destroySpace h
    obtain rfl := Except.ok.inj (hdestroy.symm.trans hdestroyed)
    exact hheld

theorem KernelMemory.Balances.account (kernel : PageDirectory) :
    Account (Borrows kernel) (Balances kernel) :=
  (Ledger.custody kernel).account fun h hresolve => Balances.resolveFault h hresolve

/-! ## Static memory -/

/-- Static memory is handed out to prepare kernel memory, and to no call. -/
theorem KernelMemory.arena_account (arena : Arena) :
    Account (fun _ => True) fun _ _ memory => memory.arena = arena where
  perm := fun h _ _ => h
  saveFrame := fun h _ _ => h
  tryAlloc := by
    rintro tables held memory size pageAligned (cause | addr) memory' h halloc
    · exact .inl ⟨cause, rfl, (tryAlloc_arena halloc).trans h⟩
    · exact .inr ⟨addr, rfl, (tryAlloc_arena halloc).trans h⟩
  free := fun h hfree => (free_arena hfree).trans h
  resolveFault := fun h hresolve => (resolveFault_arena hresolve).trans h
  createSpace := by
    intro tables held memory answer memory' h hcreate
    obtain ⟨harena, hown⟩ := createSpace_arena hcreate
    cases answer with
    | error cause => exact .inl ⟨cause, rfl, harena.trans h⟩
    | ok made => exact .inr ⟨made, rfl, hown made rfl, trivial, harena.trans h⟩
  mapRange := by
    intro tables held memory made start stop flags answer made' memory' _ h hmap
    obtain ⟨harena, haddr⟩ := mapRange_arena hmap
    exact ⟨trivial, haddr, harena.trans h⟩
  unmapRange := by
    intro tables held memory made start stop memory' _ h _ hunmap
    rw [(unmapRange_eq_ok hunmap).1]
    exact h
  destroySpace := fun h hdestroy => (destroySpace_arena hdestroy).trans h

/-! ## Accounts that go by no page entry -/

/-- What `holds` says of the heap and the kernel directory, while the heap serves tables at some
addresses and some blocks are held as anything else, goes through every allocation and every free
that comes back. -/
structure Tenure (holds : List Nat → List Block → Heap → PageDirectory → Prop) : Prop where
  perm : ∀ {tables tables' held held' heap kernel}, holds tables held heap kernel →
    tables.Perm tables' → held.Perm held' → holds tables' held' heap kernel
  alloc : ∀ {tables held heap size pageAligned answer heap'} {space space' : KernelSpace},
    holds tables held heap space.directory →
    (heap.alloc KernelSpace.mapper size pageAligned space).result = .ok (answer, heap', space') →
      (∃ cause, answer = .error cause ∧ holds tables held heap' space.directory) ∨
        ∃ addr, answer = .ok addr ∧
          holds tables (⟨addr, rounded size, true⟩ :: held) heap' space.directory
  free : ∀ {tables block held heap heap'} {space space' : KernelSpace},
    holds tables (block :: held) heap space.directory →
    (heap.free KernelSpace.mapper block.addr space).result = .ok (heap', space') →
      holds tables held heap' space.directory
  /-- A block may change hands between the tables and the rest. -/
  middle : ∀ {tables addr held heap kernel}, holds (addr :: tables) held heap kernel ↔
    holds tables (tableBlock addr :: held) heap kernel
  /-- Whoever holds a block may lose it. -/
  forget : ∀ {tables block held heap kernel}, holds tables (block :: held) heap kernel →
    holds tables held heap kernel

namespace Tenure

variable {holds : List Nat → List Block → Heap → PageDirectory → Prop} {tables : List Nat}
  {held : List Block} {block : Block} {heap : Heap} {space : KernelSpace}
  {memory memory' : KernelMemory}

def Settled (holds : List Nat → List Block → Heap → PageDirectory → Prop) (tables : List Nat)
    (held : List Block) (memory : KernelMemory) : Prop :=
  ∃ heap, memory.heap = some heap ∧ holds tables held heap memory.space.directory

/-- A block that the kernel cannot reach is lost, without harm to those that are held. -/
theorem grants (tenure : Tenure holds) :
    Grants fun own heap space => holds (own ++ tables) held heap space.directory where
  perm := fun same h => tenure.perm h (same.append_right tables) (.refl _)
  grant := by
    intro own heap space answer heap' space' h hgrant
    rcases Heap.grantTable_eq_ok hgrant with ⟨cause, rfl, halloc⟩ | ⟨addr, granted, halloc, hends⟩
    · rcases tenure.alloc h halloc with ⟨-, -, hheld⟩ | ⟨addr, hanswer, -⟩
      · exact .inl ⟨_, rfl, Heap.alloc_same halloc ▸ hheld⟩
      · contradiction
    rcases tenure.alloc h halloc with ⟨cause, hanswer, -⟩ | ⟨addr, hanswer, hheld⟩
    · contradiction
    obtain rfl := Except.ok.inj hanswer
    rw [← Heap.alloc_same halloc] at hheld
    rcases hends with ⟨-, rfl, rfl⟩ | ⟨phys, rfl, rfl⟩
    · exact .inl ⟨_, rfl, tenure.forget hheld⟩
    · exact .inr ⟨_, rfl, rfl, tenure.middle.mpr hheld⟩
  back := fun h _ hback => (KernelSpace.backEntry_spares hback).same ▸ h

theorem releaseTables (tenure : Tenure holds) {slots : List TableRef} {t : Heap × KernelSpace}
    (h : holds (slots.map (·.table) ++ tables) held heap space.directory)
    (hfold : (slots.foldlM KernelMemory.releaseTable (heap, space)).result = .ok t) :
    holds tables held t.1 t.2.directory :=
  KernelMemory.releaseTables_preserves
    (P := fun slots heap space => holds (slots.map (·.table) ++ tables) held heap space.directory)
    (fun hs hunback hfree => by
      rw [← (KernelSpace.unbackTable_spares hunback).same] at hs
      exact Heap.free_same hfree ▸ tenure.free (tenure.middle.mp hs) hfree) h hfold

theorem tryAlloc (tenure : Tenure holds) (h : Settled holds tables held memory) {size : Nat}
    {pageAligned : Bool} {answer : Except HeapError Nat}
    (halloc : (memory.tryAlloc size pageAligned).result = .ok (answer, memory')) :
    (∃ cause, answer = .error cause ∧ Settled holds tables held memory') ∨
      ∃ addr, answer = .ok addr ∧
        Settled holds tables (⟨addr, rounded size, true⟩ :: held) memory' := by
  obtain ⟨heap, hheap, hheld⟩ := h
  obtain ⟨heap', hheap', hgranted⟩ := KernelMemory.tryAlloc_eq_ok hheap halloc
  have hsame := Heap.alloc_same hgranted
  rcases tenure.alloc hheld hgranted with ⟨cause, rfl, hheld⟩ | ⟨addr, rfl, hheld⟩
  · exact .inl ⟨cause, rfl, heap', hheap', hsame ▸ hheld⟩
  · exact .inr ⟨addr, rfl, heap', hheap', hsame ▸ hheld⟩

theorem releaseBlock (tenure : Tenure holds) (h : Settled holds tables (block :: held) memory)
    (hfree : (memory.free block.addr).result = .ok memory') :
    Settled holds tables held memory' := by
  obtain ⟨heap, hheap, hheld⟩ := h
  obtain ⟨heap', hheap', hfreed⟩ := KernelMemory.free_eq_ok hheap hfree
  exact ⟨heap', hheap', Heap.free_same hfreed ▸ tenure.free hheld hfreed⟩

theorem createSpace (tenure : Tenure holds) (h : Settled holds tables held memory)
    {answer : Except HeapError AddressSpace}
    (hcreate : memory.createSpace.result = .ok (answer, memory')) :
    (∃ cause, answer = .error cause ∧ Settled holds tables held memory') ∨
      ∃ made, answer = .ok made ∧ made.directory.ownAddrs = [] ∧
        Settled holds tables (made.block :: held) memory' := by
  rcases KernelMemory.createSpace_eq_ok hcreate with
    ⟨cause, halloc, rfl⟩ | ⟨addr, granted, halloc, hends⟩
  · rcases tenure.tryAlloc h halloc with ⟨-, -, hheld⟩ | ⟨addr, hanswer, -⟩
    · exact .inl ⟨cause, rfl, hheld⟩
    · contradiction
  rcases tenure.tryAlloc h halloc with ⟨cause, hanswer, -⟩ | ⟨addr, hanswer, hheld⟩
  · contradiction
  obtain rfl := Except.ok.inj hanswer
  rcases hends with ⟨-, hfree, rfl⟩ | ⟨phys, rfl, rfl⟩
  · exact .inl ⟨_, rfl, tenure.releaseBlock hheld hfree⟩
  · exact .inr ⟨_, rfl, PageDirectory.ownAddrs_link_empty phys _, hheld⟩

theorem destroySpace (tenure : Tenure holds) {made : AddressSpace}
    (h : Settled holds (made.directory.ownAddrs ++ tables) (made.block :: held) memory)
    (hdestroy : (memory.destroySpace made).result = .ok memory') :
    Settled holds tables held memory' := by
  obtain ⟨heap, hheap, hheld⟩ := h
  obtain ⟨heap₁, space₁, hfold, hfree⟩ := KernelMemory.destroySpace_eq_ok hheap hdestroy
  have hreleased := tenure.releaseTables hheld hfold
  exact @releaseBlock _ _ _ made.block _ _ tenure ⟨heap₁, rfl, hreleased⟩ hfree

theorem unmapRange (h : Settled holds tables held memory) {made : AddressSpace} {start stop : Nat}
    (hunmap : (memory.unmapRange made start stop).result = .ok memory') :
    Settled holds tables held memory' := by
  obtain ⟨heap, hheap, hheld⟩ := h
  obtain ⟨hsame, hsweep⟩ := KernelMemory.unmapRange_eq_ok hunmap
  exact ⟨heap, by rw [hsame, hheap], KernelSpace.unmapPages_same hsweep ▸ hheld⟩

theorem account (tenure : Tenure holds) : Account (fun _ => True) (Settled holds) where
  perm := by
    rintro tables tables' held held' memory ⟨heap, hheap, hheld⟩ same rest
    exact ⟨heap, hheap, tenure.perm hheld same rest⟩
  saveFrame := fun h _ _ => h
  tryAlloc := fun h halloc => tenure.tryAlloc h halloc
  free := fun h hfree => tenure.releaseBlock h hfree
  resolveFault := by
    rintro tables held memory addr error answer memory' ⟨heap, hheap, hheld⟩ hresolve
    rcases KernelMemory.resolveFault_eq_ok hheap hresolve with
      rfl | ⟨start, stop, refused, hsame, hmap⟩
    · exact ⟨heap, hheap, hheld⟩
    · exact ⟨heap, hsame, (KernelSpace.map_extends hmap).1.same ▸ hheld⟩
  createSpace := by
    intro tables held memory answer memory' h hcreate
    rcases tenure.createSpace h hcreate with hrefused | ⟨made, hanswer, hown, hheld⟩
    · exact .inl hrefused
    · exact .inr ⟨made, hanswer, hown, trivial, hheld⟩
  mapRange := by
    rintro tables held memory made start stop flags answer made' memory' - ⟨heap, hheap, hheld⟩ hmap
    obtain ⟨-, haddr, hheld⟩ :=
      tenure.grants.mapRange hheap (.refl made.directory) hheld hmap
    exact ⟨trivial, haddr, hheld⟩
  unmapRange := fun _ h _ hunmap => unmapRange h hunmap
  destroySpace := fun h hdestroy => tenure.destroySpace h hdestroy

end Tenure

/-! ## Any heap -/

namespace KernelMemory

variable {tables : List Nat} {held : List Block} {block : Block} {heap heap' : Heap}
  {space space' : KernelSpace}

structure Allocated (tables : List Nat) (held : List Block) (heap : Heap) : Prop where
  valid : heap.Valid
  inside : (tables.map tableBlock ++ held).Subperm (usedBlocks heap.blocks)

theorem Allocated.perm (h : Allocated tables held heap) {tables' : List Nat} {held' : List Block}
    (same : tables.Perm tables') (rest : held.Perm held') : Allocated tables' held' heap where
  valid := h.valid
  inside := ((same.map tableBlock).append rest).symm.subperm.trans h.inside

theorem allocated_middle {addr : Nat} : Allocated (addr :: tables) held heap ↔
    Allocated tables (tableBlock addr :: held) heap := by
  have hperm : (tables.map tableBlock ++ tableBlock addr :: held).Perm
      ((addr :: tables).map tableBlock ++ held) := List.perm_middle
  constructor
  · exact fun h => ⟨h.valid, hperm.subperm.trans h.inside⟩
  · exact fun h => ⟨h.valid, hperm.symm.subperm.trans h.inside⟩

theorem Allocated.forget (h : Allocated tables (block :: held) heap) :
    Allocated tables held heap where
  valid := h.valid
  inside := ((List.sublist_cons_self block held).append_left _).subperm.trans h.inside

theorem Allocated.alloc (h : Allocated tables held heap) {size : Nat} {pageAligned : Bool}
    {answer : Except HeapError Nat}
    (halloc : (heap.alloc KernelSpace.mapper size pageAligned space).result =
      .ok (answer, heap', space')) :
    (∃ cause, answer = .error cause ∧ Allocated tables held heap') ∨
      ∃ addr, answer = .ok addr ∧ Allocated tables (⟨addr, rounded size, true⟩ :: held) heap' := by
  have hends := h.valid.alloc_ends KernelSpace.mapper size pageAligned space
  rw [halloc] at hends
  cases hends with
  | refused cause => exact .inl ⟨cause, rfl, h⟩
  | unmapped => exact .inl ⟨_, rfl, h⟩
  | @granted addr _ _ hg =>
      refine .inr ⟨addr, rfl, hg.valid, ?_⟩
      have hcons := List.subperm_cons ⟨addr, rounded size, true⟩ |>.mpr h.inside
      exact List.perm_middle.subperm.trans (hcons.trans hg.used.symm.subperm)

theorem Allocated.free (h : Allocated tables (block :: held) heap)
    (hfree : (heap.free KernelSpace.mapper block.addr space).result = .ok (heap', space')) :
    Allocated tables held heap' := by
  have hm : block ∈ usedBlocks heap.blocks :=
    h.inside.subset (List.mem_append_right _ List.mem_cons_self)
  have hends := h.valid.free_ends hm KernelSpace.mapper space
  rw [hfree] at hends
  cases hends with
  | released hr =>
      refine ⟨hr.valid, ?_⟩
      have hall := List.perm_middle.symm.subperm.trans (h.inside.trans hr.used.subperm)
      exact List.subperm_cons block |>.mp hall

def Reserves (tables : List Nat) (held : List Block) (memory : KernelMemory) : Prop :=
  ∃ heap, memory.heap = some heap ∧ Allocated tables held heap

theorem Allocated.tenure : Tenure fun tables held heap _ => Allocated tables held heap where
  perm := fun h same rest => h.perm same rest
  alloc := fun h halloc => h.alloc halloc
  free := fun h hfree => h.free hfree
  middle := allocated_middle
  forget := fun h => h.forget

theorem Reserves.account : Account (fun _ => True) Reserves := Allocated.tenure.account

end KernelMemory

theorem Booted.reserves {info : BootInfo} {memory created memory' : KernelMemory}
    (h : Booted info memory) {start stop maxSize : Nat} {flags : HeapFlags} {heap : Heap}
    (hcreate : (memory.createHeap start stop maxSize flags).result = .ok (.ok heap, created))
    (henable : (created.enableHeap heap).result = .ok memory') : memory'.Reserves [] [] := by
  obtain ⟨prepared, -, hheap, hcreated⟩ := h.enableHeap_eq_ok hcreate henable
  exact ⟨heap, hheap, hcreated.valid, List.nil_subperm⟩

end KernelCore
