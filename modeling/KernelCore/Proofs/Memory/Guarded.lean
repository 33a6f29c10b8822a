import Mathlib
import KernelCore.Proofs.Memory.Isolation
import KernelCore.Proofs.Memory.Pinned

/-!
# A heap behind pinned pages

The window of the kernel heap begins behind the pages that are pinned to their frames and ends where
directories begin to look at addresses anew. Whatever the heap asks of its mapper, it asks for pages
of its window. Private tables are blocks of the heap, hence none of the kernel's. So through all that
becomes of blocks, tables and their entries, pinned pages keep their frames, and no other entry has
one of these.
-/

namespace KernelCore

open Heap

/-- Kernel memory whose heap lies behind the first `last` pages, which are pinned. -/
structure Guarded (last : Nat) (kernel : PageDirectory) (tables : List Nat) (held : List Block)
    (heap : Heap) (space : KernelSpace) : Prop where
  ledger : Ledger kernel tables held heap space
  pins : space.Pins last
  above : last * pageSize ≤ heap.start
  below : heap.limit ≤ addressSpan

variable {last : Nat} {kernel : PageDirectory} {tables tables' : List Nat}
  {held held' : List Block} {heap heap' : Heap} {space space' : KernelSpace} {addr : Nat}

/-! ## What does not touch pinned pages -/

/-- Entries that may change without harm to pinned pages: those of tables that are none of the
kernel's, and those that the kernel has for pages of the window. -/
def Harmless (kernel : PageDirectory) (heap : Heap) (ref : EntryRef) : Prop :=
  ref.table ∉ kernel.tableAddrs ∨ kernel.Covers heap.start addressSpan ref

theorem Touchable.harmless {ref : EntryRef} {low high : Nat}
    (h : Touchable kernel tables low high ref) (above : heap.start ≤ low)
    (below : high ≤ addressSpan) : Harmless kernel heap ref :=
  h.imp (fun hforeign hm => hforeign (List.mem_append_left _ hm)) fun hcovers =>
    hcovers.mono above below

theorem Guarded.spared (h : Guarded last kernel tables held heap space)
    (ledger : Ledger kernel tables' held' heap' space') (window : SameWindow heap heap')
    {touched : EntryRef → Prop} (spares : space.Spares touched space')
    (harmless : ∀ ref, touched ref → Harmless kernel heap ref) :
    Guarded last kernel tables' held' heap' space' := by
  refine ⟨ledger, h.pins.spared spares fun number hlast ref hfind htouched => ?_,
    window.start ▸ h.above, window.limit ▸ h.below⟩
  rw [h.ledger.kept.holds.same] at hfind
  rcases harmless ref htouched with hforeign | hcovers
  · exact hforeign (PageDirectory.find?_mem hfind)
  · exact hcovers.behind h.ledger.kept.distinct h.above (Nat.le_refl _) hlast hfind

theorem Guarded.elsewhere (h : Guarded last kernel tables held heap space)
    (ledger : Ledger kernel tables' held' heap space') {table : Nat}
    (spares : space.Spares (table = ·.table) space') (foreign : table ∉ kernel.tableAddrs) :
    Guarded last kernel tables' held' heap space' := by
  refine h.spared ledger (.refl heap) spares fun ref htouched => .inl ?_
  exact htouched ▸ foreign

theorem Guarded.not_mem (h : Guarded last kernel tables held heap space) (hm : addr ∈ tables) :
    addr ∉ kernel.tableAddrs :=
  h.ledger.kept.not_mem_tableAddrs (List.mem_append_left _ hm)

/-! ## What becomes of blocks and tables -/

theorem Guarded.alloc (h : Guarded last kernel tables held heap space) {size : Nat}
    {pageAligned : Bool} {answer : Except HeapError Nat}
    (halloc : (heap.alloc KernelSpace.mapper size pageAligned space).result =
      .ok (answer, heap', space')) :
    (∃ cause, answer = .error cause ∧ Guarded last kernel tables held heap' space') ∨
      ∃ addr, answer = .ok addr ∧ (pageAligned = true → pageSize ∣ addr) ∧
        Guarded last kernel tables (⟨addr, rounded size, true⟩ :: held) heap' space' := by
  have hgrown : ∀ {held' : List Block}, Grown kernel tables heap space [] held' heap' space' →
      Guarded last kernel tables held' heap' space' := by
    intro held' hgrown
    refine h.spared hgrown.ledger hgrown.window hgrown.spares fun ref htouched => ?_
    have hstop := hgrown.ledger.kept.valid.window.stop_le
    rw [hgrown.window.limit] at hstop
    exact htouched.harmless h.ledger.kept.valid.books.laid.tiles.le (Nat.le_trans hstop h.below)
  rcases (@Ledger.grown kernel tables [] held heap space h.ledger).alloc halloc with
    ⟨cause, hanswer, hafter⟩ | ⟨addr, hanswer, hpage, hafter⟩
  · exact .inl ⟨cause, hanswer, hgrown hafter⟩
  · exact .inr ⟨addr, hanswer, hpage, hgrown hafter⟩

theorem Guarded.free {block : Block} (h : Guarded last kernel tables (block :: held) heap space) :
    ∃ freed, (heap.free KernelSpace.mapper block.addr space).result = .ok freed ∧
      Guarded last kernel tables held freed.1 freed.2 := by
  obtain ⟨freed, hfree, -⟩ := h.ledger.free
  have hshrunk := (@Ledger.shrunk kernel tables [] (block :: held) heap space h.ledger).free hfree
  refine ⟨freed, hfree, h.spared hshrunk.ledger hshrunk.window hshrunk.spares fun ref htouched => ?_⟩
  have hstart := hshrunk.ledger.kept.valid.books.laid.tiles.le
  rw [hshrunk.window.start] at hstart
  exact htouched.harmless hstart (Nat.le_trans h.ledger.kept.valid.window.stop_le h.below)

theorem Guarded.custody (last : Nat) (kernel : PageDirectory) :
    Custody kernel (Guarded last kernel) where
  same := fun h => h.ledger.kept.holds.same
  perm := fun h same rest => ⟨h.ledger.perm same rest, h.pins, h.above, h.below⟩
  entries := by
    intro tables held heap space ram h same
    have hspares : space.Spares (fun _ => False) { space with ram } := ⟨rfl, fun ref _ => same ref⟩
    exact h.spared ((Ledger.custody kernel).entries h.ledger same) (.refl heap) hspares
      fun _ => False.elim
  alloc := fun h halloc => h.alloc halloc
  free := fun h => h.free
  translate := fun h aligned => h.ledger.translate aligned
  adopt := fun h => h.elsewhere h.ledger.adopt (KernelSpace.clearTable_spares _ _)
    h.ledger.not_mem_tableAddrs
  surrender := by
    intro tables addr held heap space h
    obtain ⟨cleared, hunback, hledger⟩ := h.ledger.surrender
    exact ⟨cleared, hunback, h.elsewhere hledger (KernelSpace.unbackTable_spares hunback)
      (h.not_mem List.mem_cons_self)⟩
  back := by
    intro tables held heap space ref flags refused space' h hm hback
    refine h.elsewhere ((Ledger.custody kernel).back h.ledger hm hback)
      ((KernelSpace.backEntry_spares hback).mono fun other hsame => ?_) (h.not_mem hm)
    rw [hsame]
  unback := by
    intro tables held heap space ref space' h hm hunback
    refine h.elsewhere ((Ledger.custody kernel).unback h.ledger hm hunback)
      ((KernelSpace.unbackEntry_spares hunback).mono fun other hsame => ?_) (h.not_mem hm)
    rw [hsame]

/-- A page that is mapped on demand lies in the window. -/
theorem Guarded.resolveFault {memory memory' : KernelMemory}
    (h : memory.InUse (Guarded last kernel tables held)) {error : Nat}
    {answer : Option PageFaultError}
    (hresolve : (memory.resolveFault addr error).result = .ok (answer, memory')) :
    memory'.InUse (Guarded last kernel tables held) := by
  obtain ⟨heap, hheap, hguarded⟩ := h
  rcases KernelMemory.resolveFault_maps hheap hresolve with ⟨rfl, -⟩ |
    ⟨hlow, hhigh, hsame, refused, -, hmap⟩
  · exact ⟨heap, hheap, hguarded⟩
  have hpage : pageSize ∣ pageFloor addr := pageFloor_eq addr ▸ Nat.dvd_mul_left _ _
  have hspares := KernelSpace.map_spares hpage hmap
  have hledger := hguarded.ledger
  rw [hledger.kept.holds.same] at hspares
  have hafter := hledger.of_space (hledger.kept.holds.map hledger.kept.inside hmap)
    (KernelSpace.map_extends hmap).1
  refine ⟨heap, by rw [hsame, hheap], hguarded.spared hafter (.refl heap) hspares
    fun ref hcovers => .inr (hcovers.mono ?_ ?_)⟩
  · obtain ⟨first, hfirst⟩ := hledger.kept.valid.window.start_page
    rw [pageFloor_eq]
    unfold pageSize at *
    omega
  · have hbelow := hguarded.below
    rw [pageFloor_eq]
    unfold addressSpan at *
    unfold pageSize
    omega

/-! ## A new heap -/

variable {info : BootInfo} {memory created : KernelMemory} {start stop maxSize : Nat}
  {flags : HeapFlags}

/-- A heap that is asked for and refused leaves the pinned pages alone. -/
theorem Pinned.createHeap_refused (h : Pinned info last memory) {cause : HeapError}
    (hcreate : (memory.createHeap start stop maxSize flags).result = .ok (.error cause, created)) :
    Pinned info last created :=
  KernelMemory.createHeap_refused (fun hs hensure => hs.ensureEntry hensure)
    (fun hs => hs.booted.owned.sound) h hcreate

/-- A heap that is made behind the pinned pages, from whatever static memory is left for its
tables. -/
theorem Pinned.createHeap (h : Pinned info info.staticPages memory)
    (outside : ∀ addr, start ≤ addr → addr < start + maxSize → pageUp info.placementLimit ≤ addr)
    (narrow : start + maxSize ≤ addressSpan)
    (hcreate : (memory.createHeap start stop maxSize flags).result = .ok (.ok heap, created)) :
    created.heap = none ∧ Guarded info.staticPages created.space.directory [] [] heap created.space ∧
      ∃ blocks, Stocked info created.space.directory created.arena blocks := by
  rcases KernelMemory.createHeap_eq_ok (P := Pinned info info.staticPages)
    (fun hs hensure => hs.ensureEntry hensure) h hcreate with ⟨⟨cause, hanswer⟩, -⟩ |
    ⟨prepared, hprepared, hsame, hcreated⟩
  · cases hanswer
  have hmade := Heap.create_eq_ok hcreated
  have hheapless : created.heap = none := hsame ▸ hprepared.booted.heapless
  -- A heap that is created has a page, at least.
  have apart : pageUp info.placementLimit ≤ start := by
    have hpos := hmade.valid.window.start_lt
    have hstop := hmade.valid.window.stop_le
    rw [hmade.start_eq, hmade.initial_eq] at hpos
    rw [hmade.stop_eq, hmade.limit_eq] at hstop
    exact outside start (Nat.le_refl _) (Nat.lt_of_lt_of_le hpos hstop)
  have hmap := KernelSpace.map_spares (hmade.start_eq ▸ hmade.valid.window.start_page) hmade.backing
  obtain ⟨used, hused, hledger⟩ : ({ created with heap := some heap } : KernelMemory).Balances
      created.space.directory [] [] := by
    refine h.booted.balances (.inr (Nat.le_trans (le_pageUp _) apart)) (by omega) hcreate ?_
    simp [KernelMemory.enableHeap, hheapless]
  obtain rfl := Option.some.inj hused
  refine ⟨hheapless, ⟨hledger, ?_, ?_, ?_⟩, ?_⟩
  · refine hprepared.pins.spared hmap fun number hlast ref hfind hcovers => ?_
    have hstop := hmade.valid.window.stop_le
    rw [hmade.stop_eq, hmade.limit_eq] at hstop
    exact hcovers.behind hprepared.distinct (info.staticPages_mul ▸ apart)
      (Nat.le_trans hstop narrow) hlast hfind
  · rw [info.staticPages_mul, hmade.start_eq]
    exact apart
  · rw [hmade.limit_eq]
    exact narrow
  · rw [hsame, hmap.same]
    exact hprepared.stocked

end KernelCore
