import Mathlib
import KernelCore.Memory.AddressSpace
import KernelCore.Memory.PageFault
import KernelCore.Proofs.Memory.Holdings

/-!
# Operations on kernel memory

What each operation of the kernel memory does to the holdings, whether it succeeds or fails
midway. Tables taken from the heap stay with the directory that they were taken for; tables that a
directory borrows belong to the kernel's.
-/

namespace KernelCore

/-- Every table that a directory borrows is one of the kernel's. -/
def Borrows (kernel directory : PageDirectory) : Prop :=
  ∀ (index : Fin entriesPerTable) (slot : TableRef), directory.slots.get index = some slot →
    slot.linked = true → slot.table ∈ kernel.tableAddrs

variable {kernel directory directory' : PageDirectory} {own others : List Nat} {heap heap' : Heap}
  {space space' : KernelSpace}

theorem Borrows.refl (directory : PageDirectory) : Borrows directory directory :=
  fun index slot hslot _ => PageDirectory.mem_tableAddrs.mpr ⟨index, slot, hslot, rfl⟩

theorem Borrows.tables_subset (h : Borrows kernel directory) :
    directory.tableAddrs ⊆ kernel.tableAddrs ++ (directory.ownAddrs ++ own) := by
  intro table hm
  obtain ⟨index, slot, hslot, rfl⟩ := PageDirectory.mem_tableAddrs.mp hm
  cases hlinked : slot.linked with
  | true => exact List.mem_append_left _ (h index slot hslot hlinked)
  | false =>
      have hown := PageDirectory.mem_ownAddrs.mpr ⟨index, slot, hslot, hlinked, rfl⟩
      exact List.mem_append_right _ (List.mem_append_left _ hown)

/-! ## Private tables -/

/-- A heap that is asked for a table refuses, grants a block that the kernel cannot reach, or grants
one and clears it. -/
theorem Heap.grantTable_eq_ok {answer : Except PagingError TableRef}
    (h : (Heap.tables.grant (heap, space)).result = .ok (answer, heap', space')) :
    (∃ cause, answer = .error .outOfTableMemory ∧
      (heap.alloc KernelSpace.mapper tableBytes true space).result =
        .ok (.error cause, heap', space')) ∨
    ∃ addr granted, (heap.alloc KernelSpace.mapper tableBytes true space).result =
        .ok (.ok addr, heap', granted) ∧
      ((granted.translate addr = none ∧ answer = .error .notMapped ∧ space' = granted) ∨
        ∃ phys, answer = .ok ⟨addr, phys, false⟩ ∧
          space' = { granted with ram := granted.ram.clearTable addr }) := by
  change (Heap.grantTable (heap, space)).result = _ at h
  unfold Heap.grantTable at h
  rw [Traced.result_bind] at h
  obtain ⟨⟨granted, heap₁, space₁⟩, halloc, h⟩ := bind_eq_ok h
  cases granted with
  | error cause =>
      simp only [Traced.result_pure, Except.ok.injEq, Prod.mk.injEq] at h
      obtain ⟨rfl, rfl, rfl⟩ := h
      exact .inl ⟨cause, rfl, halloc⟩
  | ok addr =>
      right
      cases hphys : space₁.translate addr with
      | none =>
          simp only [hphys, Traced.result_pure, Except.ok.injEq, Prod.mk.injEq] at h
          obtain ⟨rfl, rfl, rfl⟩ := h
          exact ⟨addr, space₁, halloc, .inl ⟨hphys, rfl, rfl⟩⟩
      | some phys =>
          simp only [hphys, Traced.result_pure, Except.ok.injEq, Prod.mk.injEq] at h
          obtain ⟨rfl, rfl, rfl⟩ := h
          exact ⟨addr, space₁, halloc, .inr ⟨phys, rfl, rfl⟩⟩

theorem Kept.grantTable (h : Kept kernel own others heap space)
    {answer : Except PagingError TableRef}
    (hgrant : (Heap.tables.grant (heap, space)).result = .ok (answer, heap', space')) :
    (∃ cause, answer = .error cause ∧ Kept kernel own others heap' space') ∨
      ∃ slot : TableRef, answer = .ok slot ∧ slot.linked = false ∧
        Kept kernel (slot.table :: own) others heap' space' := by
  rcases Heap.grantTable_eq_ok hgrant with ⟨cause, rfl, halloc⟩ | ⟨addr, granted, halloc, hends⟩
  · rcases h.alloc halloc with ⟨-, -, hkept⟩ | ⟨addr, hanswer, -⟩
    · exact .inl ⟨_, rfl, hkept⟩
    · contradiction
  · rcases h.alloc halloc with ⟨cause, hanswer, -⟩ | ⟨addr, hanswer, hkept⟩
    · contradiction
    obtain rfl := Except.ok.inj hanswer
    rcases hends with ⟨-, rfl, rfl⟩ | ⟨phys, rfl, rfl⟩
    · exact .inl ⟨_, rfl, hkept.forget⟩
    · exact .inr ⟨_, rfl, rfl, hkept.adopt⟩

/-- Looking an entry up finds it, or asks for a table and puts it into the empty slot. -/
theorem PageDirectory.ensure_eq_ok {σ : Type} {source : TableSource σ} {virt : Nat} {s t : σ}
    {found : Option EntryRef}
    (h : (directory.ensure source virt s).result = .ok (found, directory', t)) :
    (∃ ref, directory.find? virt = some ref ∧ found = some ref ∧ directory' = directory ∧ t = s) ∨
      directory.slots.get (tableIndex virt) = none ∧
        ((∃ cause, (source.grant s).result = .ok (.error cause, t) ∧ found = none ∧
            directory' = directory) ∨
          ∃ slot, (source.grant s).result = .ok (.ok slot, t) ∧
            found = some ⟨slot.table, pageIndex virt⟩ ∧
            directory' = directory.setSlot (tableIndex virt) (some slot)) := by
  unfold PageDirectory.ensure at h
  cases hfind : directory.find? virt with
  | some ref =>
      simp only [hfind, Traced.result_pure, Except.ok.injEq, Prod.mk.injEq] at h
      obtain ⟨rfl, rfl, rfl⟩ := h
      exact .inl ⟨ref, rfl, rfl, rfl, rfl⟩
  | none =>
      refine .inr ⟨PageDirectory.find?_eq_none hfind, ?_⟩
      simp only [hfind, Traced.result_bind] at h
      obtain ⟨⟨answer, u⟩, hgrant, h⟩ := bind_eq_ok h
      cases answer with
      | error cause =>
          simp only [Traced.result_bind, Traced.result_note, ok_bind, Traced.result_pure,
            Except.ok.injEq, Prod.mk.injEq] at h
          obtain ⟨rfl, rfl, rfl⟩ := h
          exact .inl ⟨cause, hgrant, rfl, rfl⟩
      | ok slot =>
          simp only [Traced.result_pure, Except.ok.injEq, Prod.mk.injEq] at h
          obtain ⟨rfl, rfl, rfl⟩ := h
          exact .inr ⟨slot, hgrant, rfl, rfl⟩

section Mapping

/-- What `holding` says of the memory while a directory has tables at the given addresses survives
the grant of another table and the backing of a page in one of them. -/
structure Grants (holding : List Nat → Heap → KernelSpace → Prop) : Prop where
  perm : ∀ {tables tables' heap space}, tables.Perm tables' → holding tables heap space →
    holding tables' heap space
  grant : ∀ {tables heap space answer heap' space'}, holding tables heap space →
    (Heap.tables.grant (heap, space)).result = .ok (answer, heap', space') →
      (∃ cause, answer = .error cause ∧ holding tables heap' space') ∨
        ∃ slot : TableRef, answer = .ok slot ∧ slot.linked = false ∧
          holding (slot.table :: tables) heap' space'
  back : ∀ {tables heap space ref flags refused space'}, holding tables heap space →
    ref.table ∈ tables → (space.backEntry ref flags).result = .ok (refused, space') →
      holding tables heap space'

theorem Kept.grants : Grants fun tables => Kept kernel (tables ++ own) others where
  perm := fun same h => h.perm (same.append_right own) (.refl _)
  grant := fun h hgrant => h.grantTable hgrant
  back := fun h hm hback => h.of_space (h.holds.backEntry (by simp [hm]) hback)

variable {holding : List Nat → Heap → KernelSpace → Prop}

structure Mapping (kernel : PageDirectory) (holding : List Nat → Heap → KernelSpace → Prop)
    (s : PageDirectory × Heap × KernelSpace) : Prop where
  borrows : Borrows kernel s.1
  holds : holding s.1.ownAddrs s.2.1 s.2.2

theorem Mapping.ensure (grants : Grants holding)
    (h : Mapping kernel holding (directory, heap, space)) {page : Nat}
    (unlinked : ∀ slot, directory.slots.get (tableIndex page) = some slot → slot.linked = false)
    {found : Option EntryRef}
    (hensure : (directory.ensure Heap.tables page (heap, space)).result =
      .ok (found, directory', heap', space')) :
    Mapping kernel holding (directory', heap', space') ∧
      ∀ ref, found = some ref → ref.table ∈ directory'.ownAddrs := by
  rcases PageDirectory.ensure_eq_ok hensure with ⟨ref, hfind, rfl, rfl, hsame⟩ |
    ⟨hempty, ⟨cause, hgrant, rfl, rfl⟩ | ⟨slot, hgrant, rfl, rfl⟩⟩
  · obtain ⟨rfl, rfl⟩ := Prod.mk.inj hsame
    refine ⟨h, fun other hother => ?_⟩
    obtain rfl := Option.some.inj hother
    obtain ⟨slot, hslot, rfl⟩ := PageDirectory.find?_eq_some hfind
    exact PageDirectory.mem_ownAddrs.mpr ⟨_, slot, hslot, unlinked slot hslot, rfl⟩
  · rcases grants.grant h.holds hgrant with ⟨-, -, hholds⟩ | ⟨slot, hanswer, -⟩
    · exact ⟨⟨h.borrows, hholds⟩, by simp⟩
    · contradiction
  · rcases grants.grant h.holds hgrant with ⟨cause, hanswer, -⟩ | ⟨slot, hanswer, hown, hholds⟩
    · contradiction
    obtain rfl := Except.ok.inj hanswer
    have hperm := PageDirectory.ownAddrs_setSlot hempty hown
    refine ⟨⟨?_, grants.perm hperm.symm hholds⟩, fun ref href => ?_⟩
    · intro index other hother hlinked
      rcases PageDirectory.slots_setSlot_eq_some hother with ⟨-, rfl⟩ | hother
      · rw [hown] at hlinked
        contradiction
      · exact h.borrows index other hother hlinked
    · obtain rfl := Option.some.inj href
      exact hperm.mem_iff.mpr List.mem_cons_self

theorem Mapping.mapPage (grants : Grants holding)
    {s t : PageDirectory × Heap × KernelSpace} (h : Mapping kernel holding s)
    {flags : HeapFlags} {page : Nat} {refused : Option PagingError}
    (hmap : (KernelMemory.mapPage flags page s).result = .ok (refused, t)) :
    Mapping kernel holding t := by
  obtain ⟨directory, heap, space⟩ := s
  unfold KernelMemory.mapPage at hmap
  simp only at hmap
  split at hmap
  · simp at hmap
  next hborrowed =>
  have hunlinked : ∀ slot, directory.slots.get (tableIndex page) = some slot →
      slot.linked = false := by
    intro slot hslot
    simpa [hslot] using hborrowed
  rw [Traced.result_bind] at hmap
  obtain ⟨⟨found, directory₁, heap₁, space₁⟩, hensure, hmap⟩ := bind_eq_ok hmap
  obtain ⟨hmapping, hfound⟩ := h.ensure grants hunlinked hensure
  cases found with
  | none =>
      obtain ⟨-, rfl⟩ := Prod.mk.injEq .. ▸ Except.ok.inj hmap
      exact hmapping
  | some ref =>
      simp only [Traced.result_bind] at hmap
      obtain ⟨⟨refused', space₂⟩, hback, hmap⟩ := bind_eq_ok hmap
      obtain ⟨-, rfl⟩ := Prod.mk.injEq .. ▸ Except.ok.inj hmap
      exact ⟨hmapping.borrows, grants.back hmapping.holds (hfound ref rfl) hback⟩

/-- Mapping a range keeps what survives the mapping of a page. -/
theorem Grants.mapRange (grants : Grants holding) {made made' : AddressSpace}
    {memory memory' : KernelMemory} (heap_eq : memory.heap = some heap)
    (borrows : Borrows kernel made.directory)
    (h : holding made.directory.ownAddrs heap memory.space) {start stop : Nat}
    {flags : HeapFlags} {refused : Option PagingError}
    (hmap : (memory.mapRange made start stop flags).result = .ok (refused, made', memory')) :
    Borrows kernel made'.directory ∧ made'.addr = made.addr ∧ ∃ heap', memory'.heap = some heap' ∧
      holding made'.directory.ownAddrs heap' memory'.space := by
  unfold KernelMemory.mapRange at hmap
  simp only [heap_eq, Traced.result_bind] at hmap
  obtain ⟨⟨refused', directory, heap₁, space₁⟩, hsweep, hmap⟩ := bind_eq_ok hmap
  obtain ⟨-, rfl, rfl⟩ := by
    simpa only [Traced.result_pure, Except.ok.injEq, Prod.mk.injEq] using hmap
  have hmapping := Traced.sweep_preserves (P := Mapping kernel holding)
    (fun _ _ _ _ hs hvisit => hs.mapPage grants hvisit) ⟨borrows, h⟩ hsweep
  exact ⟨hmapping.borrows, rfl, heap₁, rfl, hmapping.holds⟩

end Mapping

/-- Tables are released one by one: each is cleared and freed. -/
theorem KernelMemory.releaseTables_preserves {P : List TableRef → Heap → KernelSpace → Prop}
    (step : ∀ {slot rest heap space cleared heap' space'}, P (slot :: rest) heap space →
      space.unbackTable slot.table = .ok cleared →
      (heap.free KernelSpace.mapper slot.table cleared).result = .ok (heap', space') →
      P rest heap' space')
    {slots : List TableRef} {t : Heap × KernelSpace} (holds : P slots heap space)
    (hfold : (slots.foldlM KernelMemory.releaseTable (heap, space)).result = .ok t) :
    P [] t.1 t.2 := by
  induction slots generalizing heap space with
  | nil =>
      obtain rfl := Except.ok.inj hfold
      exact holds
  | cons slot rest ih =>
      rw [List.foldlM_cons, Traced.result_bind] at hfold
      obtain ⟨⟨heap₁, space₁⟩, hrelease, hfold⟩ := bind_eq_ok hfold
      unfold KernelMemory.releaseTable at hrelease
      simp only [Traced.result_bind, Traced.result_lift] at hrelease
      obtain ⟨cleared, hunback, hfree⟩ := bind_eq_ok hrelease
      exact ih (step holds hunback hfree) hfold

theorem Kept.releaseTables {slots : List TableRef} {t : Heap × KernelSpace}
    (h : Kept kernel (slots.map (·.table) ++ own) others heap space)
    (hfold : (slots.foldlM KernelMemory.releaseTable (heap, space)).result = .ok t) :
    Kept kernel own others t.1 t.2 :=
  KernelMemory.releaseTables_preserves
    (P := fun slots heap space => Kept kernel (slots.map (·.table) ++ own) others heap space)
    (fun hs hunback hfree => (hs.surrender hunback).free hfree) h hfold

/-! ## The operations -/

namespace KernelMemory

/-- Kernel memory with its heap in use, and who holds which block. -/
def Keeps (kernel : PageDirectory) (own others : List Nat) (memory : KernelMemory) : Prop :=
  ∃ heap, memory.heap = some heap ∧ Kept kernel own others heap memory.space

variable {memory memory' : KernelMemory} {addr : Nat}

theorem Keeps.perm (h : memory.Keeps kernel own others) {own' others' : List Nat}
    (tables : own.Perm own') (rest : others.Perm others') : memory.Keeps kernel own' others' := by
  obtain ⟨heap, hheap, hkept⟩ := h
  exact ⟨heap, hheap, hkept.perm tables rest⟩

theorem tryAlloc_eq_ok (heap_eq : memory.heap = some heap) {size : Nat} {pageAligned : Bool}
    {answer : Except HeapError Nat}
    (h : (memory.tryAlloc size pageAligned).result = .ok (answer, memory')) :
    ∃ heap', memory'.heap = some heap' ∧
      (heap.alloc KernelSpace.mapper size pageAligned memory.space).result =
        .ok (answer, heap', memory'.space) := by
  unfold KernelMemory.tryAlloc at h
  simp only [heap_eq, Traced.result_bind] at h
  obtain ⟨⟨granted, heap₁, space₁⟩, hgranted, hrest⟩ := bind_eq_ok h
  obtain ⟨rfl, rfl⟩ := Prod.mk.injEq .. ▸ Except.ok.inj hrest
  exact ⟨heap₁, rfl, hgranted⟩

theorem free_eq_ok (heap_eq : memory.heap = some heap)
    (h : (memory.free addr).result = .ok memory') :
    ∃ heap', memory'.heap = some heap' ∧
      (heap.free KernelSpace.mapper addr memory.space).result = .ok (heap', memory'.space) := by
  unfold KernelMemory.free at h
  simp only [heap_eq, Traced.result_bind] at h
  obtain ⟨⟨heap₁, space₁⟩, hfreed, hrest⟩ := bind_eq_ok h
  obtain rfl := Except.ok.inj hrest
  exact ⟨heap₁, rfl, hfreed⟩

/-- A space that is destroyed loses its own tables first and then its directory. -/
theorem destroySpace_eq_ok {made : AddressSpace} (heap_eq : memory.heap = some heap)
    (h : (memory.destroySpace made).result = .ok memory') :
    ∃ heap₁ space₁, (made.directory.ownTables.foldlM releaseTable (heap, memory.space)).result =
        .ok (heap₁, space₁) ∧
      ({ memory with heap := some heap₁, space := space₁ }.free made.addr).result =
        .ok memory' := by
  unfold KernelMemory.destroySpace at h
  simp only [heap_eq, Traced.result_bind] at h
  obtain ⟨⟨heap₁, space₁⟩, hfold, h⟩ := bind_eq_ok h
  obtain ⟨memory₁, hfree, h⟩ := bind_eq_ok h
  simp only [Traced.result_note, ok_bind] at h
  obtain rfl := Except.ok.inj h
  exact ⟨heap₁, space₁, hfold, hfree⟩

theorem unmapRange_eq_ok {made : AddressSpace} {start stop : Nat}
    (h : (memory.unmapRange made start stop).result = .ok memory') :
    memory' = { memory with space := memory'.space } ∧
      (Traced.sweepAll pageSize (fun page space => space.unbackPage made.directory page)
        (pageCount (pageFloor start) stop) (pageFloor start) memory.space).result =
          .ok memory'.space := by
  unfold KernelMemory.unmapRange at h
  simp only [Traced.result_bind] at h
  obtain ⟨space₁, hsweep, h⟩ := bind_eq_ok h
  obtain rfl := Except.ok.inj h
  exact ⟨rfl, hsweep⟩

theorem Keeps.tryAlloc (h : memory.Keeps kernel own others) {size : Nat} {pageAligned : Bool}
    {answer : Except HeapError Nat}
    (halloc : (memory.tryAlloc size pageAligned).result = .ok (answer, memory')) :
    (∃ cause, answer = .error cause ∧ memory'.Keeps kernel own others) ∨
      ∃ addr, answer = .ok addr ∧ memory'.Keeps kernel own (addr :: others) := by
  obtain ⟨heap, hheap, hkept⟩ := h
  obtain ⟨heap', hheap', hgranted⟩ := tryAlloc_eq_ok hheap halloc
  rcases hkept.alloc hgranted with ⟨cause, rfl, hkept⟩ | ⟨addr, rfl, hkept⟩
  · exact .inl ⟨cause, rfl, heap', hheap', hkept⟩
  · exact .inr ⟨addr, rfl, heap', hheap', hkept⟩

theorem Keeps.free (h : memory.Keeps kernel own (addr :: others))
    (hfree : (memory.free addr).result = .ok memory') : memory'.Keeps kernel own others := by
  obtain ⟨heap, hheap, hkept⟩ := h
  obtain ⟨heap', hheap', hfreed⟩ := free_eq_ok hheap hfree
  exact ⟨heap', hheap', hkept.free hfreed⟩

/-- A page fault changes nothing, or asks for the page in the window of the heap. -/
theorem resolveFault_maps (heap_eq : memory.heap = some heap) {error : Nat}
    {answer : Option PageFaultError}
    (h : (memory.resolveFault addr error).result = .ok (answer, memory')) :
    (memory' = memory ∧ ∀ cause, answer ≠ some (.mapping cause)) ∨
      heap.start ≤ addr ∧ addr < heap.limit ∧ memory' = { memory with space := memory'.space } ∧
        ∃ refused, answer = refused.map .mapping ∧
          (KernelSpace.mapper.map (pageFloor addr) (pageFloor addr + pageSize) heap.flags
            memory.space).result = .ok (refused, memory'.space) := by
  unfold KernelMemory.resolveFault at h
  split at h
  · obtain ⟨rfl, rfl⟩ := Prod.mk.injEq .. ▸ Except.ok.inj h
    exact .inl ⟨rfl, by simp⟩
  split at h
  · obtain ⟨rfl, rfl⟩ := Prod.mk.injEq .. ▸ Except.ok.inj h
    exact .inl ⟨rfl, by simp⟩
  next found hfound =>
  obtain ⟨hsome, hcontains⟩ := Option.filter_eq_some_iff.mp hfound
  obtain rfl := Option.some.inj (heap_eq.symm.trans hsome)
  simp only [Heap.contains, Bool.and_eq_true, decide_eq_true_eq] at hcontains
  simp only [Traced.result_bind, Traced.result_lift] at h
  obtain ⟨next, hnext, h⟩ := bind_eq_ok h
  obtain ⟨⟨refused, space₁⟩, hmap, h⟩ := bind_eq_ok h
  unfold Word.add at hnext
  split at hnext
  · obtain rfl := Except.ok.inj hnext
    refine .inr ⟨hcontains.1, hcontains.2, ?_⟩
    cases refused with
    | some cause =>
        obtain ⟨rfl, rfl⟩ := Prod.mk.injEq .. ▸ Except.ok.inj h
        exact ⟨rfl, _, rfl, hmap⟩
    | none =>
        simp only [Traced.result_bind, Traced.result_note, ok_bind] at h
        obtain ⟨rfl, rfl⟩ := Prod.mk.injEq .. ▸ Except.ok.inj h
        exact ⟨rfl, _, rfl, hmap⟩
  · simp at hnext

theorem resolveFault_eq_ok (heap_eq : memory.heap = some heap) {error : Nat}
    {answer : Option PageFaultError}
    (h : (memory.resolveFault addr error).result = .ok (answer, memory')) :
    memory' = memory ∨ ∃ start stop refused, memory'.heap = some heap ∧
      (KernelSpace.mapper.map start stop heap.flags memory.space).result =
        .ok (refused, memory'.space) := by
  rcases resolveFault_maps heap_eq h with ⟨hsame, -⟩ | ⟨-, -, hsame, refused, -, hmap⟩
  · exact .inl hsame
  · exact .inr ⟨_, _, refused, by rw [hsame, heap_eq], hmap⟩

theorem Keeps.resolveFault (h : memory.Keeps kernel own others) {error : Nat}
    {answer : Option PageFaultError}
    (hresolve : (memory.resolveFault addr error).result = .ok (answer, memory')) :
    memory'.Keeps kernel own others := by
  obtain ⟨heap, hheap, hkept⟩ := h
  rcases resolveFault_eq_ok hheap hresolve with rfl | ⟨start, stop, refused, hsame, hmap⟩
  · exact ⟨heap, hheap, hkept⟩
  · exact ⟨heap, hsame, hkept.of_space (hkept.holds.map hkept.inside hmap)⟩

/-- A space that is asked for is refused with the block for its directory, or that block has no
kernel mapping and goes back, or the directory is built in it. -/
theorem createSpace_eq_ok {answer : Except HeapError AddressSpace}
    (h : memory.createSpace.result = .ok (answer, memory')) :
    (∃ cause, (memory.tryAlloc directoryBytes true).result = .ok (.error cause, memory') ∧
      answer = .error cause) ∨
    ∃ addr granted, (memory.tryAlloc directoryBytes true).result = .ok (.ok addr, granted) ∧
      ((granted.translate addr = none ∧ (granted.free addr).result = .ok memory' ∧
          answer = .error (.mapping .notMapped)) ∨
        ∃ phys, answer = .ok ⟨addr, (PageDirectory.empty phys).link granted.space.directory⟩ ∧
          memory' = { granted with
            space := { granted.space with
              ram := granted.space.ram.overwrite addr directoryBytes } }) := by
  unfold KernelMemory.createSpace at h
  rw [Traced.result_bind] at h
  obtain ⟨⟨granted, memory₁⟩, halloc, h⟩ := bind_eq_ok h
  cases granted with
  | error cause =>
      obtain ⟨rfl, rfl⟩ := Prod.mk.injEq .. ▸ Except.ok.inj h
      exact .inl ⟨cause, halloc, rfl⟩
  | ok addr =>
      refine .inr ⟨addr, memory₁, halloc, ?_⟩
      cases hphys : memory₁.translate addr with
      | none =>
          simp only [hphys, Traced.result_bind] at h
          obtain ⟨memory₂, hfree, h⟩ := bind_eq_ok h
          obtain ⟨rfl, rfl⟩ := Prod.mk.injEq .. ▸ Except.ok.inj h
          exact .inl ⟨rfl, hfree, rfl⟩
      | some phys =>
          simp only [hphys, Traced.result_bind, Traced.result_lift] at h
          obtain ⟨⟨directory, ram⟩, hplace, h⟩ := bind_eq_ok h
          simp only [Traced.result_note, ok_bind] at h
          obtain ⟨rfl, rfl⟩ := Prod.mk.injEq .. ▸ Except.ok.inj h
          unfold PageDirectory.place at hplace
          split at hplace
          · obtain ⟨rfl, rfl⟩ := Prod.mk.injEq .. ▸ Except.ok.inj hplace
            exact .inr ⟨phys, rfl, rfl⟩
          · contradiction

theorem borrows_link_empty (phys : Nat) (kernel : PageDirectory) :
    Borrows kernel ((PageDirectory.empty phys).link kernel) :=
  fun _ _ hslot _ => (PageDirectory.slots_link_empty hslot).2

theorem Keeps.createSpace (h : memory.Keeps kernel own others)
    {answer : Except HeapError AddressSpace}
    (hcreate : memory.createSpace.result = .ok (answer, memory')) :
    (∃ cause, answer = .error cause ∧ memory'.Keeps kernel own others) ∨
      ∃ made, answer = .ok made ∧ made.directory.ownAddrs = [] ∧ Borrows kernel made.directory ∧
        memory'.Keeps kernel own (made.addr :: others) := by
  rcases createSpace_eq_ok hcreate with ⟨cause, halloc, rfl⟩ | ⟨addr, granted, halloc, hends⟩
  · rcases h.tryAlloc halloc with ⟨-, -, hkeeps⟩ | ⟨addr, hanswer, -⟩
    · exact .inl ⟨cause, rfl, hkeeps⟩
    · contradiction
  rcases h.tryAlloc halloc with ⟨cause, hanswer, -⟩ | ⟨addr, hanswer, hkeeps⟩
  · contradiction
  obtain rfl := Except.ok.inj hanswer
  rcases hends with ⟨-, hfree, rfl⟩ | ⟨phys, rfl, rfl⟩
  · exact .inl ⟨_, rfl, hkeeps.free hfree⟩
  · obtain ⟨heap, hheap, hkept⟩ := hkeeps
    obtain rfl := hkept.holds.same
    refine .inr ⟨_, rfl, PageDirectory.ownAddrs_link_empty phys _, borrows_link_empty phys _, heap,
      hheap, hkept.of_space ⟨rfl, ?_⟩⟩
    exact hkept.holds.owned.perm (.refl _) fun _ _ => rfl

theorem Keeps.destroySpace {space : AddressSpace}
    (h : memory.Keeps kernel (space.directory.ownAddrs ++ own) (space.addr :: others))
    (hdestroy : (memory.destroySpace space).result = .ok memory') :
    memory'.Keeps kernel own others := by
  obtain ⟨heap, hheap, hkept⟩ := h
  obtain ⟨heap₁, space₁, hfold, hfree⟩ := destroySpace_eq_ok hheap hdestroy
  have hreleased := hkept.releaseTables hfold
  exact Keeps.free ⟨heap₁, rfl, hreleased⟩ hfree

theorem Keeps.mapRange {space space' : AddressSpace} (borrows : Borrows kernel space.directory)
    (h : memory.Keeps kernel (space.directory.ownAddrs ++ own) others) {start stop : Nat}
    {flags : HeapFlags} {refused : Option PagingError}
    (hmap : (memory.mapRange space start stop flags).result = .ok (refused, space', memory')) :
    Borrows kernel space'.directory ∧ space'.addr = space.addr ∧
      memory'.Keeps kernel (space'.directory.ownAddrs ++ own) others := by
  obtain ⟨heap, hheap, hkept⟩ := h
  exact Kept.grants.mapRange hheap borrows hkept hmap

theorem Keeps.unmapRange {space : AddressSpace} (borrows : Borrows kernel space.directory)
    (h : memory.Keeps kernel (space.directory.ownAddrs ++ own) others) {start stop : Nat}
    (hunmap : (memory.unmapRange space start stop).result = .ok memory') :
    memory'.Keeps kernel (space.directory.ownAddrs ++ own) others := by
  obtain ⟨heap, hheap, hkept⟩ := h
  obtain ⟨hsame, hsweep⟩ := unmapRange_eq_ok hunmap
  refine ⟨heap, by rw [hsame, hheap], ?_⟩
  exact hkept.of_space (hkept.holds.unmapPages borrows.tables_subset hsweep)

end KernelMemory

end KernelCore
