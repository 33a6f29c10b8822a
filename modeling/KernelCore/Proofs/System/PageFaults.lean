import Mathlib
import KernelCore.Proofs.Memory.Privacy
import KernelCore.Proofs.System.Operations
import KernelCore.Proofs.System.RangeMapping

/-!
# Pages that are mapped on demand

A fault in the window of the heap is answered by mapping its page, whatever kernel memory has been
through: the window has its tables, up to a limit that need not be a page boundary. The heap does not
know of such a page. If it grows over it later, the page stays as it is and costs no further frame,
and if the heap contracts past it, its frame is free again. Directories look at an address modulo
4 GiB, so the aliases of a page are mapped with it.
-/

namespace KernelCore

open Heap

/-! ## One page -/

theorem pageFloor_dvd (addr : Nat) : pageSize ∣ pageFloor addr :=
  pageFloor_eq addr ▸ Nat.dvd_mul_left _ _

theorem pagesOf_page (addr : Nat) :
    pagesOf (pageFloor addr) (pageFloor addr + pageSize) = {addr / pageSize} := by
  ext page
  rw [mem_pagesOf, Finset.mem_singleton, pageFloor_eq]
  unfold pageSize
  omega

theorem PageDirectory.find?_ne {directory : PageDirectory} (distinct : directory.tableAddrs.Nodup)
    {addr virt : Nat} {ref : EntryRef} (found : directory.find? addr = some ref)
    (differs : virt / pageSize % 2 ^ 20 ≠ addr / pageSize % 2 ^ 20) :
    directory.find? virt ≠ some ref := by
  intro hfind
  obtain ⟨htable, hpage⟩ := find?_unique distinct hfind found
  have htable := congrArg Fin.val htable
  have hpage := congrArg Fin.val hpage
  simp only [tableIndex, pageIndex] at htable hpage
  unfold tableSpan entriesPerTable pageSize at *
  omega

namespace KernelSpace

variable {space space' : KernelSpace} {flags : HeapFlags} {addr : Nat}

theorem translate_floor_eq_none (space : KernelSpace) (addr : Nat) :
    space.translate (addr / pageSize * pageSize) = none ↔ space.translate addr = none := by
  rw [← pageFloor_eq, translate_eq_none, translate_eq_none, PageDirectory.find?_pageFloor]

structure Demanded (flags : HeapFlags) (addr : Nat) (space space' : KernelSpace) : Prop where
  directory : space'.directory = space.directory
  others : ∀ ref, space.directory.find? addr ≠ some ref →
    space'.ram.entry ref = space.ram.entry ref
  mapped : (space'.translate addr).isSome
  /-- A page that was there is as it was, and no frame is taken. -/
  kept : space.translate addr ≠ none → (∀ ref, space'.ram.entry ref = space.ram.entry ref) ∧
    space'.frames.usedNumbers = space.frames.usedNumbers ∧ space'.frames.free = space.frames.free
  /-- A page that was missing has one frame that was free, and the flags that are asked for. -/
  backed : space.translate addr = none → ∃ ref number, space.directory.find? addr = some ref ∧
    number < space.frames.total ∧ space.frames.bit number = false ∧
    space'.frames.usedNumbers = insert number space.frames.usedNumbers ∧
    space'.frames.free + 1 = space.frames.free ∧
    (space'.ram.entry ref).frame = number * frameSize ∧
    (space'.ram.entry ref).word % pageSize = PageFlag.present |||
      (if flags.writable then PageFlag.writable else 0) |||
      (if flags.user then PageFlag.user else 0)

theorem missing_page (space : KernelSpace) (addr : Nat) :
    space.missing (pagesOf (pageFloor addr) (pageFloor addr + pageSize)) =
      if space.translate addr = none then {addr / pageSize} else ∅ := by
  rw [missing, pagesOf_page, Finset.filter_singleton]
  simp only [translate_floor_eq_none]

theorem Granted.page_others
    (h : Granted flags (pageFloor addr) (pageFloor addr + pageSize) space space') {ref : EntryRef}
    (other : space.directory.find? addr ≠ some ref) :
    space'.ram.entry ref = space.ram.entry ref := by
  refine h.outside ref ?_
  rintro ⟨page, hpage, hlow, hhigh, hfind⟩
  have hsame : page = pageFloor addr := by
    have hfloor := pageFloor_eq addr
    unfold pageSize at *
    omega
  rw [hsame, PageDirectory.find?_pageFloor] at hfind
  exact other hfind

theorem Granted.demanded
    (h : Granted flags (pageFloor addr) (pageFloor addr + pageSize) space space') :
    Demanded flags addr space space' where
  directory := h.directory
  others := fun ref hother => h.page_others hother
  mapped := by
    have hm : addr / pageSize ∈ pagesOf (pageFloor addr) (pageFloor addr + pageSize) := by
      rw [pagesOf_page, Finset.mem_singleton]
    obtain ⟨phys, htranslate⟩ := (h.present _ hm).translate
    rw [Option.isSome_iff_ne_none]
    intro hnone
    rw [← translate_floor_eq_none, htranslate] at hnone
    contradiction
  kept := by
    intro hpresent
    have hmissing := missing_page space addr
    rw [if_neg hpresent] at hmissing
    obtain ⟨frameOf, -, hused, -⟩ := h.backed
    have hfree := h.free
    rw [hmissing] at hused hfree
    refine ⟨fun ref => ?_, by simpa using hused, by simpa using hfree⟩
    by_cases hhere : space.directory.find? addr = some ref
    · refine h.kept ref ?_
      rw [ne_eq, translate_eq_none] at hpresent
      simpa [hhere] using hpresent
    · exact h.page_others hhere
  backed := by
    intro habsent
    have hmissing := missing_page space addr
    rw [if_pos habsent] at hmissing
    obtain ⟨frameOf, -, hused, hframes⟩ := h.backed
    have hfree := h.free
    rw [hmissing] at hused hfree hframes
    obtain ⟨hinside, hbit, ref, hfind, hframe, hword⟩ := hframes _ (Finset.mem_singleton_self _)
    rw [← pageFloor_eq, PageDirectory.find?_pageFloor] at hfind
    refine ⟨ref, _, hfind, hinside, hbit, ?_, by simpa using hfree, hframe, hword⟩
    rw [hused, Finset.image_singleton, Finset.union_comm, Finset.insert_eq]

/-- A page that has a table is refused if it is missing and no frame is free, and mapped
otherwise. -/
theorem Tidy.map_page (tidy : space.Tidy) (distinct : space.directory.tableAddrs.Nodup)
    (tabled : (space.directory.find? addr).isSome) (flags : HeapFlags) :
    (space.translate addr = none ∧ space.frames.free = 0 ∧
      (space.mapRegion (pageFloor addr) (pageFloor addr + pageSize) flags).result =
        .ok (some .outOfFrames, space)) ∨
    (¬(space.translate addr = none ∧ space.frames.free = 0) ∧ ∃ space',
      (space.mapRegion (pageFloor addr) (pageFloor addr + pageSize) flags).result =
        .ok (none, space') ∧ Demanded flags addr space space') := by
  obtain ⟨refusal, space', hmap, houtcome⟩ := tidy.map_outcome distinct (pageFloor_dvd addr)
    (Nat.add_le_add_left (by decide : pageSize ≤ addressSpan) _) flags
  have htabled : ∀ page ∈ pagesOf (pageFloor addr) (pageFloor addr + pageSize),
      (space.directory.find? (page * pageSize)).isSome := by
    simpa [pagesOf_page, ← pageFloor_eq, PageDirectory.find?_pageFloor] using tabled
  have hframes := houtcome.frames
  rw [missing_page] at hframes
  cases refusal with
  | none =>
      refine .inr ⟨?_, space', hmap, (houtcome.granted rfl).demanded⟩
      rintro ⟨habsent, hfree⟩
      have hrefused := hframes.mpr ⟨htabled, by simp [habsent, hfree]⟩
      exact absurd hrefused (by simp)
  | some cause =>
      obtain ⟨rfl | rfl, rfl⟩ := houtcome.refused cause rfl
      · obtain ⟨page, hm, hnone⟩ := houtcome.tables.mp rfl
        simpa [hnone] using htabled page hm
      · obtain ⟨-, hfew⟩ := hframes.mp rfl
        split at hfew
        · next habsent => exact .inl ⟨habsent, by simpa using hfew, hmap⟩
        · simp at hfew

/-! ## Ranges behind the end of a heap -/

theorem Tidy.granted_of_map (tidy : space.Tidy) (distinct : space.directory.tableAddrs.Nodup)
    {start stop : Nat} (aligned : pageSize ∣ start) (narrow : stop ≤ start + addressSpan)
    (hmap : (mapper.map start stop flags space).result = .ok (none, space')) :
    Granted flags start stop space space' := by
  obtain ⟨refusal, found, hfound, houtcome⟩ := tidy.map_outcome distinct aligned narrow flags
  obtain ⟨rfl, rfl⟩ := Prod.mk.injEq .. ▸ Except.ok.inj (hfound.symm.trans hmap)
  exact houtcome.granted rfl

theorem pageCount_self (stop : Nat) : pageCount stop stop = 0 := by
  unfold pageCount strideCount pageSize
  omega

theorem Tidy.granted_self (tidy : space.Tidy) (distinct : space.directory.tableAddrs.Nodup)
    {stop : Nat} (aligned : pageSize ∣ stop) (flags : HeapFlags) :
    Granted flags stop stop space space := by
  refine tidy.granted_of_map distinct aligned (Nat.le_add_right _ _) ?_
  change (space.mapRegion stop stop flags).result = _
  simp [mapRegion, pageCount_self, countMissing, Traced.sweep, Traced.sweepFrom]

theorem Known.cleared_self (known : space.Known) (tidy : space.Tidy) {stop : Nat}
    (aligned : pageSize ∣ stop) : Cleared stop stop space space := by
  refine known.cleared_of_unmap tidy aligned ?_
  change (space.unmapRegion stop stop).result = _
  simp [unmapRegion, pageCount_self, Traced.sweepAll]

end KernelSpace

namespace KernelMemory

variable {info : BootInfo} {heaps : List Heap} {memory memory' : KernelMemory} {heap : Heap}
  {addr error : Nat}

/-! ## A fault -/

theorem resolveFault_outside (absent : error.testBit 0 = false)
    (outside : ∀ heap, memory.heap = some heap → ¬(heap.start ≤ addr ∧ addr < heap.limit)) :
    (memory.resolveFault addr error).result = .ok (some (.unmapped addr), memory) := by
  have hnone : memory.heap.filter (·.contains addr) = none := by
    rw [Option.filter_eq_none_iff]
    intro heap hheap
    simpa [Heap.contains] using outside heap hheap
  simp [resolveFault, absent, hnone]

/-- The answer for an address of the window is that of the mapper for its page. -/
theorem resolveFault_inside (absent : error.testBit 0 = false) (hheap : memory.heap = some heap)
    (low : heap.start ≤ addr) (high : addr < heap.limit) (narrow : heap.limit ≤ addressSpan)
    {refusal : Option PagingError} {space : KernelSpace}
    (hmap : (memory.space.mapRegion (pageFloor addr) (pageFloor addr + pageSize)
      heap.flags).result = .ok (refusal, space)) :
    (memory.resolveFault addr error).result =
      .ok (refusal.map .mapping, { memory with space }) := by
  have hfilter : memory.heap.filter (·.contains addr) = some heap := by
    simp [hheap, Heap.contains, low, high]
  have hnext : Word.add (pageFloor addr) pageSize = .ok (pageFloor addr + pageSize) := by
    have hfloor : pageFloor addr ≤ addr := Nat.sub_le _ _
    have hword : pageFloor addr + pageSize < wordLimit := by
      unfold addressSpan at narrow
      unfold pageSize wordLimit
      omega
    simp [Word.add, hword]
  simp only [resolveFault, absent, Bool.false_eq_true, if_false, hfilter, Traced.result_bind,
    Traced.result_lift, hnext, ok_bind, hmap]
  cases refusal <;> rfl

structure DemandMapped (heap : Heap) (addr : Nat) (memory memory' : KernelMemory) : Prop where
  arena : memory'.arena = memory.arena
  blocks : memory'.heap = memory.heap
  page : KernelSpace.Demanded heap.flags addr memory.space memory'.space
  /-- The kernel translates as before all but the page and its aliases 4 GiB away. -/
  kernel : ∀ virt, virt / pageSize % 2 ^ 20 ≠ addr / pageSize % 2 ^ 20 →
    memory'.translate virt = memory.translate virt
  /-- So does an address space all but what shares the entry of the page. -/
  spaces : ∀ made : AddressSpace, ∀ virt,
    made.directory.find? virt ≠ memory.space.directory.find? addr →
      memory'.translateIn made virt = memory.translateIn made virt

/-- What becomes of page faults, and of the pages that are mapped for them. -/
structure FaultsResolved (memory : KernelMemory) : Prop where
  protection : ∀ addr error, error.testBit 0 = true →
    (memory.resolveFault addr error).result = .ok (some (.protectionViolation addr), memory)
  unmapped : ∀ addr error, error.testBit 0 = false →
    (∀ heap, memory.heap = some heap → ¬(heap.start ≤ addr ∧ addr < heap.limit)) →
      (memory.resolveFault addr error).result = .ok (some (.unmapped addr), memory)
  exhausted : ∀ addr error heap, error.testBit 0 = false → memory.heap = some heap →
    heap.start ≤ addr → addr < heap.limit →
      memory.translate addr = none → memory.space.frames.free = 0 →
        (memory.resolveFault addr error).result = .ok (some (.mapping .outOfFrames), memory)
  resolved : ∀ addr error heap, error.testBit 0 = false → memory.heap = some heap →
    heap.start ≤ addr → addr < heap.limit →
      ¬(memory.translate addr = none ∧ memory.space.frames.free = 0) →
        ∃ memory', (memory.resolveFault addr error).result = .ok (none, memory') ∧
          DemandMapped heap addr memory memory'
  /-- Where the heap grows, pages that are present keep their entries, and only those that are
  missing take frames. -/
  grown : ∀ heap size pageAligned answer memory', memory.heap = some heap →
    (memory.tryAlloc size pageAligned).result = .ok (answer, memory') →
      ∃ heap', memory'.heap = some heap' ∧ heap.stop ≤ heap'.stop ∧
        KernelSpace.Granted heap.flags heap.stop heap'.stop memory.space memory'.space
  /-- Where it contracts, no page is left, and the frames of those that were present are free. -/
  contracted : ∀ heap, memory.heap = some heap → ∀ block ∈ usedBlocks heap.blocks,
    ∃ heap' memory', (memory.free block.addr).result = .ok memory' ∧
      memory'.heap = some heap' ∧ heap'.stop ≤ heap.stop ∧
        KernelSpace.Cleared heap'.stop heap.stop memory.space memory'.space

theorem Orderly.demandMapped (h : Orderly info heaps memory) {space : KernelSpace}
    (page : KernelSpace.Demanded heap.flags addr memory.space space) :
    DemandMapped heap addr memory { memory with space } where
  arena := rfl
  blocks := rfl
  page := page
  kernel := by
    intro virt hvirt
    obtain ⟨blocks, hstocked⟩ := h.stocked
    have hspares : memory.space.Spares (memory.space.directory.find? addr = some ·) space :=
      ⟨page.directory, page.others⟩
    exact hspares.translate fun ref hfind hhere =>
      PageDirectory.find?_ne hstocked.distinct hhere hvirt hfind
  spaces := by
    intro made virt hvirt
    refine PageDirectory.translate_congr fun ref hfind => page.others ref fun hhere => hvirt ?_
    rw [hfind, hhere]

theorem Orderly.resolveFault_cases (h : Orderly info heaps memory) (hheap : memory.heap = some heap)
    (absent : error.testBit 0 = false) (low : heap.start ≤ addr) (high : addr < heap.limit)
    (narrow : heap.limit ≤ addressSpan) :
    (memory.translate addr = none ∧ memory.space.frames.free = 0 ∧
      (memory.resolveFault addr error).result = .ok (some (.mapping .outOfFrames), memory)) ∨
    (¬(memory.translate addr = none ∧ memory.space.frames.free = 0) ∧
      ∃ memory', (memory.resolveFault addr error).result = .ok (none, memory') ∧
        DemandMapped heap addr memory memory') := by
  obtain ⟨blocks, hstocked⟩ := h.stocked
  have htabled := (h.inUse heap hheap).2 addr low high
  rcases h.tidy.map_page hstocked.distinct htabled heap.flags with
    ⟨hnone, hfree, hmap⟩ | ⟨hroom, space', hmap, hpage⟩
  · exact .inl ⟨hnone, hfree, resolveFault_inside absent hheap low high narrow hmap⟩
  · exact .inr ⟨hroom, _, resolveFault_inside absent hheap low high narrow hmap,
      h.demandMapped hpage⟩

/-! ## The heap afterwards -/

theorem Orderly.grown (h : Orderly info heaps memory) (hheap : memory.heap = some heap)
    (narrow : heap.limit ≤ addressSpan) {size : Nat} {pageAligned : Bool}
    {answer : Except HeapError Nat}
    (halloc : (memory.tryAlloc size pageAligned).result = .ok (answer, memory')) :
    ∃ heap', memory'.heap = some heap' ∧ heap.stop ≤ heap'.stop ∧
      KernelSpace.Granted heap.flags heap.stop heap'.stop memory.space memory'.space := by
  obtain ⟨heap', hheap', hasked⟩ := tryAlloc_eq_ok hheap halloc
  obtain ⟨blocks, hstocked⟩ := h.stocked
  have hvalid := (h.inUse heap hheap).1
  have hpage := hvalid.window.stop_page
  have hself := h.tidy.granted_self hstocked.distinct hpage heap.flags
  have hends := hvalid.alloc_ends KernelSpace.mapper size pageAligned memory.space
  rw [hasked] at hends
  refine ⟨heap', hheap', ?_⟩
  generalize memory'.space = space at hends ⊢
  cases hends with
  | refused => exact ⟨Nat.le_refl _, hself⟩
  | unmapped hmap =>
      obtain ⟨rfl, -⟩ := KernelSpace.map_refused h.tidy.sound hmap
      exact ⟨Nat.le_refl _, hself⟩
  | granted hg =>
      rcases hg.backing with ⟨hstop, rfl⟩ | ⟨hlonger, hmap⟩
      · rw [hstop]
        exact ⟨Nat.le_refl _, hself⟩
      · have hlimit := hg.valid.window.stop_le
        rw [hg.same.limit] at hlimit
        refine ⟨hlonger.le, h.tidy.granted_of_map hstocked.distinct hpage ?_ hmap⟩
        exact Nat.le_trans hlimit (Nat.le_trans narrow (Nat.le_add_left _ _))

theorem Orderly.contracted (h : Orderly info heaps memory) (hheap : memory.heap = some heap)
    {block : Block} (hm : block ∈ usedBlocks heap.blocks) :
    ∃ heap' memory', (memory.free block.addr).result = .ok memory' ∧
      memory'.heap = some heap' ∧ heap'.stop ≤ heap.stop ∧
      KernelSpace.Cleared heap'.stop heap.stop memory.space memory'.space := by
  have hvalid := (h.inUse heap hheap).1
  have hends := hvalid.free_ends hm KernelSpace.mapper memory.space
  cases hfree : (heap.free KernelSpace.mapper block.addr memory.space).result with
  | error cause =>
      rw [hfree] at hends
      cases hends with
      | @fault stop _ hunmap =>
          obtain ⟨space', hback, -⟩ := h.known.exists_unmap h.tidy stop heap.stop
          simp [hback] at hunmap
  | ok freed =>
      obtain ⟨heap', space'⟩ := freed
      rw [hfree] at hends
      refine ⟨heap', { memory with heap := some heap', space := space' }, ?_, rfl, ?_⟩
      · simp [free, hheap, hfree]
      cases hends with
      | released hr =>
          rcases hr.backing with ⟨hstop, rfl⟩ | ⟨hshorter, hunmap⟩
          · rw [hstop]
            exact ⟨Nat.le_refl _, h.known.cleared_self h.tidy hvalid.window.stop_page⟩
          · exact ⟨hshorter.le,
              h.known.cleared_of_unmap h.tidy hr.valid.window.stop_page hunmap⟩

/-- With a window that ends at 4 GiB or below, a fault that says that the page was present is a
violation, and one outside the window has no page. Any other is resolved unless its page is missing
and no frame is free. Nothing else is mapped then, but for aliases of the page. The heap later keeps
the page when it grows over it, and gives its frame back when it contracts past it. -/
theorem Operated.faults_resolved (h : Operated info heaps memory)
    (narrow : ∀ heap, memory.heap = some heap → heap.limit ≤ addressSpan) :
    FaultsResolved memory where
  protection := fun addr error present => by simp [resolveFault, present]
  unmapped := fun addr error absent outside => resolveFault_outside absent outside
  exhausted := by
    intro addr error heap absent hheap low high hnone hfree
    rcases h.orderly.resolveFault_cases hheap absent low high (narrow heap hheap) with
      ⟨-, -, hresolve⟩ | ⟨hroom, -⟩
    · exact hresolve
    · exact absurd ⟨hnone, hfree⟩ hroom
  resolved := by
    intro addr error heap absent hheap low high hroom
    rcases h.orderly.resolveFault_cases hheap absent low high (narrow heap hheap) with
      ⟨hnone, hfree, -⟩ | ⟨-, hresolved⟩
    · exact absurd ⟨hnone, hfree⟩ hroom
    · exact hresolved
  grown := fun heap size pageAligned answer memory' hheap halloc =>
    h.orderly.grown hheap (narrow heap hheap) halloc
  contracted := fun heap hheap block hm => h.orderly.contracted hheap hm

/-- A page nine pages behind the end of the heap. -/
theorem page_mapped_behind_the_heap :
    ∃ (realm : Realm) (heap : Heap) (memory' : KernelMemory),
      Operated sampleInfo realm.heaps realm.memory ∧ realm.memory.heap = some heap ∧
      heap.limit ≤ addressSpan ∧ heap.stop = 0x406000 ∧ realm.memory.translate 0x40f123 = none ∧
      (realm.memory.resolveFault 0x40f123 2).result = .ok (none, memory') ∧
      DemandMapped heap 0x40f123 realm.memory memory' := by
  have hfacts : (do
      let realm ← Realm.sampleRealm
      return (realm.memory.heap.map fun heap => (heap.start, heap.stop, heap.limit),
        realm.memory.translate 0x40f123, realm.memory.space.frames.free) : Except Fault _) =
      .ok (some (0x400000, 0x406000, 0x410000), none, 58) := by decide +kernel
  obtain ⟨realm, hsample, hfacts⟩ := bind_eq_ok hfacts
  simp only [pure_eq_ok, Except.ok.injEq, Prod.mk.injEq, Option.map_eq_some_iff] at hfacts
  obtain ⟨⟨heap, hheap, hstart, hstop, hlimit⟩, hnone, hfree⟩ := hfacts
  have hnarrow : heap.limit ≤ addressSpan := hlimit ▸ by decide
  have hoperated := (Realm.reached_sampleRealm hsample).operated
  obtain ⟨memory', hresolve, hmapped⟩ := (Operated.faults_resolved hoperated (by
      intro other hother
      obtain rfl := Option.some.inj (hheap.symm.trans hother)
      exact hnarrow)).resolved 0x40f123 2 heap (by decide) hheap (by omega) (by omega)
    (by simp [hfree])
  exact ⟨realm, heap, memory', hoperated, hheap, hnarrow, hstop, hnone, hresolve, hmapped⟩

/-- The page 4 GiB further up, which is another one for a 64-bit address, is mapped along. -/
theorem alias_mapped_by_fault :
    ∃ (realm : Realm) (heap : Heap) (memory' : KernelMemory) (virt : Nat),
      Operated sampleInfo realm.heaps realm.memory ∧ realm.memory.heap = some heap ∧
      heap.limit ≤ addressSpan ∧ heap.start ≤ 0x40f123 ∧ 0x40f123 < heap.limit ∧
      (realm.memory.resolveFault 0x40f123 2).result = .ok (none, memory') ∧
      virt / pageSize ≠ 0x40f123 / pageSize ∧ virt < wordLimit ∧
      memory'.translate virt ≠ realm.memory.translate virt := by
  have hfacts : (do
      let realm ← Realm.sampleRealm
      let resolved ← (realm.memory.resolveFault 0x40f123 2).result
      return (realm.memory.heap.map fun heap => (heap.start, heap.limit), resolved.1,
        realm.memory.translate 0x10040f123, (resolved.2.translate 0x10040f123).isSome) :
        Except Fault _) =
      .ok (some (0x400000, 0x410000), none, none, true) := by decide +kernel
  obtain ⟨realm, hsample, hfacts⟩ := bind_eq_ok hfacts
  obtain ⟨⟨answer, memory'⟩, hresolve, hfacts⟩ := bind_eq_ok hfacts
  simp only [pure_eq_ok, Except.ok.injEq, Prod.mk.injEq, Option.map_eq_some_iff] at hfacts
  obtain ⟨⟨heap, hheap, hstart, hlimit⟩, rfl, hbefore, hafter⟩ := hfacts
  refine ⟨realm, heap, memory', 0x10040f123, (Realm.reached_sampleRealm hsample).operated, hheap,
    hlimit ▸ by decide, by omega, by omega, hresolve, by decide, by decide, fun hsame => ?_⟩
  rw [hsame, hbefore] at hafter
  contradiction

end KernelMemory

end KernelCore
