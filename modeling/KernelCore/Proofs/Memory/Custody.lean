import Mathlib
import KernelCore.Proofs.Memory.Presence
import KernelCore.Proofs.Memory.Spaces

/-!
# Blocks that change hands

Every operation on address spaces is made of a few moves: a block is allocated or freed, a block
becomes a table or a table a block, and entries of such tables are backed and unmapped. What
survives the moves survives the operations. If blocks that are held can be freed, then so can
tables, and an address space can be destroyed.
-/

namespace KernelCore

open Heap

def tableBlock (addr : Nat) : Block := ⟨addr, rounded tableBytes, true⟩

def AddressSpace.block (space : AddressSpace) : Block := ⟨space.addr, rounded directoryBytes, true⟩

/-- No page that `[start, stop)` touches lies under a table that the directory borrows. -/
def PageDirectory.Private (directory : PageDirectory) (start stop : Nat) : Prop :=
  ∀ addr slot, pageFloor start ≤ addr → addr < stop →
    directory.slots.get (tableIndex addr) = some slot → slot.linked = false

theorem PageDirectory.private_of_slot {directory : PageDirectory} {index : Fin entriesPerTable}
    {start stop : Nat} (low : index * tableSpan ≤ pageFloor start)
    (high : stop ≤ (index + 1) * tableSpan)
    (unlinked : ∀ slot, directory.slots.get index = some slot → slot.linked = false) :
    directory.Private start stop := by
  intro addr slot hlow hhigh hslot
  have hindex : tableIndex addr = index := by
    have hlt := index.isLt
    rw [Fin.ext_iff]
    simp only [tableIndex]
    unfold tableSpan entriesPerTable pageSize at *
    omega
  exact unlinked slot (hindex ▸ hslot)

/-- The entry of a page that lies under no borrowed table is in a table of the directory's own. -/
theorem PageDirectory.Private.own {directory : PageDirectory} {start stop : Nat}
    (h : directory.Private start stop) {addr : Nat} (low : pageFloor start ≤ addr)
    (high : addr < stop) {ref : EntryRef} (found : directory.find? addr = some ref) :
    ref.table ∈ directory.ownAddrs := by
  obtain ⟨slot, hslot, rfl⟩ := find?_eq_some found
  exact mem_ownAddrs.mpr ⟨_, slot, hslot, h addr slot low high hslot, rfl⟩

/-- What `holds` says of memory, while the heap serves tables at some addresses and some blocks are
held as anything else, survives each move. -/
structure Custody (kernel : PageDirectory)
    (holds : List Nat → List Block → Heap → KernelSpace → Prop) : Prop where
  same : ∀ {tables held heap space}, holds tables held heap space → space.directory = kernel
  perm : ∀ {tables tables' held held' heap space}, holds tables held heap space →
    tables.Perm tables' → held.Perm held' → holds tables' held' heap space
  /-- Of memory contents, only page entries matter. -/
  entries : ∀ {tables held heap space ram}, holds tables held heap space →
    (∀ ref, ram.entry ref = space.ram.entry ref) → holds tables held heap { space with ram }
  alloc : ∀ {tables held heap space size pageAligned answer heap' space'},
    holds tables held heap space →
    (heap.alloc KernelSpace.mapper size pageAligned space).result = .ok (answer, heap', space') →
      (∃ cause, answer = .error cause ∧ holds tables held heap' space') ∨
        ∃ addr, answer = .ok addr ∧ (pageAligned = true → pageSize ∣ addr) ∧
          holds tables (⟨addr, rounded size, true⟩ :: held) heap' space'
  free : ∀ {tables block held heap space}, holds tables (block :: held) heap space →
    ∃ freed, (heap.free KernelSpace.mapper block.addr space).result = .ok freed ∧
      holds tables held freed.1 freed.2
  /-- A block on a page boundary has a kernel mapping. -/
  translate : ∀ {tables block held heap space}, holds tables (block :: held) heap space →
    pageSize ∣ block.addr → ∃ phys, space.translate block.addr = some phys
  /-- A block becomes a table once it is cleared. -/
  adopt : ∀ {tables addr held heap space}, holds tables (tableBlock addr :: held) heap space →
    holds (addr :: tables) held heap { space with ram := space.ram.clearTable addr }
  /-- A table becomes a mere block once its frames are given back. -/
  surrender : ∀ {tables addr held heap space}, holds (addr :: tables) held heap space →
    ∃ cleared, space.unbackTable addr = .ok cleared ∧
      holds tables (tableBlock addr :: held) heap cleared
  back : ∀ {tables held heap space ref flags refused space'}, holds tables held heap space →
    ref.table ∈ tables → (space.backEntry ref flags).result = .ok (refused, space') →
      holds tables held heap space'
  unback : ∀ {tables held heap space ref space'}, holds tables held heap space →
    ref.table ∈ tables → space.unbackEntry ref = .ok space' → holds tables held heap space'

def KernelMemory.InUse (P : Heap → KernelSpace → Prop) (memory : KernelMemory) : Prop :=
  ∃ heap, memory.heap = some heap ∧ P heap memory.space

namespace Custody

variable {kernel : PageDirectory} {holds : List Nat → List Block → Heap → KernelSpace → Prop}
  {tables : List Nat} {held : List Block} {heap heap' : Heap} {space space' : KernelSpace}
  {block : Block} {memory memory' : KernelMemory} {made made' : AddressSpace}

/-! ## Tables -/

/-- A block that is granted for a table has a kernel mapping, so none is lost. -/
theorem grantTable (custody : Custody kernel holds) (h : holds tables held heap space)
    {answer : Except PagingError TableRef}
    (hgrant : (Heap.tables.grant (heap, space)).result = .ok (answer, heap', space')) :
    (answer = .error .outOfTableMemory ∧ holds tables held heap' space') ∨
      ∃ slot : TableRef, answer = .ok slot ∧ slot.linked = false ∧
        holds (slot.table :: tables) held heap' space' := by
  rcases Heap.grantTable_eq_ok hgrant with ⟨cause, rfl, halloc⟩ | ⟨addr, granted, halloc, hends⟩
  · rcases custody.alloc h halloc with ⟨-, -, hheld⟩ | ⟨addr, hanswer, -⟩
    · exact .inl ⟨rfl, hheld⟩
    · contradiction
  rcases custody.alloc h halloc with ⟨cause, hanswer, -⟩ | ⟨addr, hanswer, hpage, hheld⟩
  · contradiction
  obtain rfl := Except.ok.inj hanswer
  rcases hends with ⟨hnone, -⟩ | ⟨phys, rfl, rfl⟩
  -- Without a mapping the block would be lost, but it lies on a page that is backed.
  · obtain ⟨phys, hphys⟩ := custody.translate hheld (hpage rfl)
    rw [hphys] at hnone
    contradiction
  · exact .inr ⟨_, rfl, rfl, custody.adopt hheld⟩

theorem grants (custody : Custody kernel holds) (rest : List Nat) :
    Grants fun own => holds (own ++ rest) held where
  perm := fun same h => custody.perm h (same.append_right rest) (.refl _)
  grant := by
    intro own heap space answer heap' space' h hgrant
    rcases custody.grantTable h hgrant with ⟨hanswer, hheld⟩ | hgranted
    · exact .inl ⟨_, hanswer, hheld⟩
    · exact .inr hgranted
  back := fun h hm hback => custody.back h (List.mem_append_left rest hm) hback

theorem releaseTables (custody : Custody kernel holds) {slots : List TableRef}
    (h : holds (slots.map (·.table) ++ tables) held heap space) :
    ∃ t, (slots.foldlM KernelMemory.releaseTable (heap, space)).result = .ok t ∧
      holds tables held t.1 t.2 := by
  induction slots generalizing heap space with
  | nil => exact ⟨_, rfl, h⟩
  | cons slot rest ih =>
      obtain ⟨cleared, hunback, hcleared⟩ := custody.surrender h
      obtain ⟨freed, hfree, hfreed⟩ := custody.free hcleared
      obtain ⟨t, hfold, hheld⟩ := ih hfreed
      refine ⟨t, ?_, hheld⟩
      have hrelease : (KernelMemory.releaseTable (heap, space) slot).result = .ok freed := by
        simp only [KernelMemory.releaseTable, Traced.result_bind, Traced.result_lift, hunback,
          ok_bind]
        exact hfree
      rw [List.foldlM_cons, Traced.result_bind, hrelease]
      exact hfold

/-! ## The operations -/

theorem tryAlloc (custody : Custody kernel holds) (h : memory.InUse (holds tables held))
    {size : Nat} {pageAligned : Bool} {answer : Except HeapError Nat}
    (halloc : (memory.tryAlloc size pageAligned).result = .ok (answer, memory')) :
    (∃ cause, answer = .error cause ∧ memory'.InUse (holds tables held)) ∨
      ∃ addr, answer = .ok addr ∧ (pageAligned = true → pageSize ∣ addr) ∧
        memory'.InUse (holds tables (⟨addr, rounded size, true⟩ :: held)) := by
  obtain ⟨heap, hheap, hheld⟩ := h
  obtain ⟨heap', hheap', hgranted⟩ := KernelMemory.tryAlloc_eq_ok hheap halloc
  rcases custody.alloc hheld hgranted with ⟨cause, rfl, hheld⟩ | ⟨addr, rfl, hpage, hheld⟩
  · exact .inl ⟨cause, rfl, heap', hheap', hheld⟩
  · exact .inr ⟨addr, rfl, hpage, heap', hheap', hheld⟩

theorem exists_free (custody : Custody kernel holds)
    (h : memory.InUse (holds tables (block :: held))) :
    ∃ memory', (memory.free block.addr).result = .ok memory' ∧
      memory'.InUse (holds tables held) := by
  obtain ⟨heap, hheap, hheld⟩ := h
  obtain ⟨freed, hfree, hfreed⟩ := custody.free hheld
  refine ⟨{ memory with heap := some freed.1, space := freed.2 }, ?_, freed.1, rfl, hfreed⟩
  unfold KernelMemory.free
  simp only [hheap, Traced.result_bind, hfree, ok_bind, Traced.result_pure]

/-- A new address space holds its directory's block, and no table. One is refused with the block. -/
theorem createSpace (custody : Custody kernel holds) (h : memory.InUse (holds tables held))
    {answer : Except HeapError AddressSpace}
    (hcreate : memory.createSpace.result = .ok (answer, memory')) :
    (∃ cause, answer = .error cause ∧
        (memory.tryAlloc directoryBytes true).result = .ok (.error cause, memory') ∧
        memory'.InUse (holds tables held)) ∨
      ∃ made, answer = .ok made ∧ made.directory.ownAddrs = [] ∧ Borrows kernel made.directory ∧
        memory'.InUse (holds tables (made.block :: held)) := by
  rcases KernelMemory.createSpace_eq_ok hcreate with
    ⟨cause, halloc, rfl⟩ | ⟨addr, granted, halloc, hends⟩
  · rcases custody.tryAlloc h halloc with ⟨-, -, hheld⟩ | ⟨addr, hanswer, -⟩
    · exact .inl ⟨cause, rfl, halloc, hheld⟩
    · contradiction
  rcases custody.tryAlloc h halloc with ⟨cause, hanswer, -⟩ | ⟨addr, hanswer, hpage, hheld⟩
  · contradiction
  obtain rfl := Except.ok.inj hanswer
  obtain ⟨heap, hheap, hheld⟩ := hheld
  rcases hends with ⟨hnone, -⟩ | ⟨phys, rfl, rfl⟩
  · obtain ⟨phys, hphys⟩ := custody.translate hheld (hpage rfl)
    rw [KernelMemory.translate, hphys] at hnone
    contradiction
  · obtain rfl := custody.same hheld
    exact .inr ⟨_, rfl, PageDirectory.ownAddrs_link_empty phys _,
      KernelMemory.borrows_link_empty phys _, heap, hheap, custody.entries hheld fun _ => rfl⟩

theorem destroySpace (custody : Custody kernel holds)
    (h : memory.InUse (holds (made.directory.ownAddrs ++ tables) (made.block :: held))) :
    ∃ memory', (memory.destroySpace made).result = .ok memory' ∧
      memory'.InUse (holds tables held) := by
  obtain ⟨heap, hheap, hheld⟩ := h
  obtain ⟨⟨heap₁, space₁⟩, hfold, hreleased⟩ := custody.releaseTables hheld
  have hcleared : ({ memory with heap := some heap₁, space := space₁ } : KernelMemory).InUse
      (holds tables (made.block :: held)) := ⟨heap₁, rfl, hreleased⟩
  obtain ⟨memory', hfree, hfreed⟩ := custody.exists_free hcleared
  refine ⟨memory', ?_, hfreed⟩
  replace hfree : (({ memory with heap := some heap₁, space := space₁ } : KernelMemory).free
    made.addr).result = .ok memory' := hfree
  unfold KernelMemory.destroySpace
  simp only [hheap, Traced.result_bind, hfold, ok_bind, hfree, Traced.result_note,
    Traced.result_pure]

theorem mapRange (custody : Custody kernel holds) (borrows : Borrows kernel made.directory)
    (h : memory.InUse (holds (made.directory.ownAddrs ++ tables) held)) {start stop : Nat}
    {flags : HeapFlags} {refused : Option PagingError}
    (hmap : (memory.mapRange made start stop flags).result = .ok (refused, made', memory')) :
    Borrows kernel made'.directory ∧ made'.addr = made.addr ∧
      memory'.InUse (holds (made'.directory.ownAddrs ++ tables) held) := by
  obtain ⟨heap, hheap, hheld⟩ := h
  exact (custody.grants tables).mapRange hheap borrows hheld hmap

theorem unmapRange (custody : Custody kernel holds)
    (h : memory.InUse (holds (made.directory.ownAddrs ++ tables) held)) {start stop : Nat}
    (inside : made.directory.Private start stop)
    (hunmap : (memory.unmapRange made start stop).result = .ok memory') :
    memory'.InUse (holds (made.directory.ownAddrs ++ tables) held) := by
  obtain ⟨heap, hheap, hheld⟩ := h
  obtain ⟨hsame, hsweep⟩ := KernelMemory.unmapRange_eq_ok hunmap
  refine ⟨heap, by rw [hsame, hheap], ?_⟩
  apply Traced.sweepAll_preserves_on
    (P := fun space => holds (made.directory.ownAddrs ++ tables) held heap space) _ hheld hsweep
  intro i hi s t hs hvisit
  replace hvisit : s.unbackPage made.directory (pageFloor start + i * pageSize) = .ok t := hvisit
  unfold KernelSpace.unbackPage at hvisit
  split at hvisit
  · next ref hfind =>
      have hown := inside.own (Nat.le_add_right _ _) (lt_stop_of_lt_pageCount hi) hfind
      exact custody.unback hs (List.mem_append_left _ hown) hvisit
  · obtain rfl := Except.ok.inj hvisit
    exact hs

end Custody

end KernelCore
