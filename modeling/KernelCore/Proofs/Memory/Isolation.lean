import Mathlib
import KernelCore.Proofs.Memory.Lifetime
import KernelCore.Proofs.Memory.Privacy

/-!
# What one address space can touch

Someone who has an address space and some blocks of the heap allocates and frees, makes address
spaces, and maps into, unmaps from and destroys their own. What that touches are entries of tables
that nobody else has, and kernel entries of the pages between the old end of the heap and the new
one. All other translations stay: those under private tables of the other address spaces, and those
of the kernel outside the window and below both ends of the heap.
-/

namespace KernelCore

open Heap

variable {kernel : PageDirectory} {tables own own' : List Nat} {held held' : List Block}
  {heap₀ heap heap' : Heap} {space₀ space space' : KernelSpace} {addr low high : Nat}

/-- An entry of a table that is none of the kernel's and none of `tables`, or the kernel's entry of a
page of `[low, high)`. -/
def Touchable (kernel : PageDirectory) (tables : List Nat) (low high : Nat) (ref : EntryRef) : Prop :=
  ref.table ∉ kernel.tableAddrs ++ tables ∨ kernel.Covers low high ref

theorem Touchable.mono {ref : EntryRef} (h : Touchable kernel tables low high ref) {low' high' : Nat}
    (lower : low' ≤ low) (higher : high ≤ high') : Touchable kernel tables low' high' ref :=
  h.imp_right fun hcovers => hcovers.mono lower higher

/-! ## Growing -/

/-- Kernel memory that came from `heap₀` and `space₀` while the heap did not shrink, for someone who
has tables at `own`. -/
structure Grown (kernel : PageDirectory) (tables : List Nat) (heap₀ : Heap) (space₀ : KernelSpace)
    (own : List Nat) (held : List Block) (heap : Heap) (space : KernelSpace) : Prop where
  ledger : Ledger kernel (own ++ tables) held heap space
  window : SameWindow heap₀ heap
  longer : heap₀.stop ≤ heap.stop
  spares : space₀.Spares (Touchable kernel tables heap₀.stop heap.stop) space

theorem Ledger.grown (h : Ledger kernel (own ++ tables) held heap space) :
    Grown kernel tables heap space own held heap space :=
  ⟨h, .refl heap, Nat.le_refl _, .refl _ _⟩

theorem Grown.elsewhere (h : Grown kernel tables heap₀ space₀ own held heap space)
    (ledger : Ledger kernel (own' ++ tables) held' heap space') {touched : EntryRef → Prop}
    (spares : space.Spares touched space')
    (foreign : ∀ ref, touched ref → ref.table ∉ kernel.tableAddrs ++ tables) :
    Grown kernel tables heap₀ space₀ own' held' heap space' where
  ledger := ledger
  window := h.window
  longer := h.longer
  spares := h.spares.trans (spares.mono fun ref htouched => .inl (foreign ref htouched))

theorem Grown.alloc (h : Grown kernel tables heap₀ space₀ own held heap space) {size : Nat}
    {pageAligned : Bool} {answer : Except HeapError Nat}
    (halloc : (heap.alloc KernelSpace.mapper size pageAligned space).result =
      .ok (answer, heap', space')) :
    (∃ cause, answer = .error cause ∧ Grown kernel tables heap₀ space₀ own held heap' space') ∨
      ∃ addr, answer = .ok addr ∧ (pageAligned = true → pageSize ∣ addr) ∧
        Grown kernel tables heap₀ space₀ own (⟨addr, rounded size, true⟩ :: held) heap' space' := by
  have hends := h.ledger.kept.valid.alloc_ends KernelSpace.mapper size pageAligned space
  rw [halloc] at hends
  cases hends with
  | refused cause => exact .inl ⟨cause, rfl, h⟩
  | unmapped hmap =>
      obtain ⟨rfl, -⟩ := KernelSpace.map_refused h.ledger.kept.holds.owned.sound hmap
      exact .inl ⟨_, rfl, h⟩
  | granted hg =>
      obtain ⟨hlonger, hspares⟩ := h.ledger.granted_spares hg
      refine .inr ⟨_, rfl, hg.page, h.ledger.granted hg, h.window.trans hg.same,
        Nat.le_trans h.longer hlonger, ?_⟩
      have hbefore := h.spares.mono fun ref htouched => htouched.mono (Nat.le_refl _) hlonger
      exact hbefore.trans
        (hspares.mono fun ref hcovers => .inr (hcovers.mono h.longer (Nat.le_refl _)))

theorem Grown.entries (h : Grown kernel tables heap₀ space₀ own held heap space) {ram : Ram}
    (same : ∀ ref, ram.entry ref = space.ram.entry ref) :
    Grown kernel tables heap₀ space₀ own held heap { space with ram } := by
  have hspares : space.Spares (fun _ => False) { space with ram } := ⟨rfl, fun ref _ => same ref⟩
  exact h.elsewhere ((Ledger.custody kernel).entries h.ledger same) hspares fun _ => False.elim

theorem Grown.grants (kernel : PageDirectory) (tables : List Nat) (heap₀ : Heap)
    (space₀ : KernelSpace) (held : List Block) :
    Grants fun own => Grown kernel tables heap₀ space₀ own held where
  perm := fun same h =>
    ⟨h.ledger.perm (same.append_right tables) (.refl _), h.window, h.longer, h.spares⟩
  grant := by
    intro own heap space answer heap' space' h hgrant
    rcases Heap.grantTable_eq_ok hgrant with ⟨cause, rfl, halloc⟩ | ⟨addr, granted, halloc, hends⟩
    · rcases h.alloc halloc with ⟨-, -, hgrown⟩ | ⟨addr, hanswer, -⟩
      · exact .inl ⟨_, rfl, hgrown⟩
      · contradiction
    rcases h.alloc halloc with ⟨cause, hanswer, -⟩ | ⟨addr, hanswer, hpage, hgrown⟩
    · contradiction
    obtain rfl := Except.ok.inj hanswer
    rcases hends with ⟨hnone, -⟩ | ⟨phys, rfl, rfl⟩
    · obtain ⟨phys, hphys⟩ := hgrown.ledger.translate (hpage rfl)
      rw [hphys] at hnone
      contradiction
    · refine .inr ⟨_, rfl, rfl, ?_⟩
      refine hgrown.elsewhere hgrown.ledger.adopt (granted.clearTable_spares addr) ?_
      rintro ref rfl
      exact hgrown.ledger.foreign_block
  back := by
    intro own heap space ref flags refused space' h hm hback
    refine h.elsewhere ((Ledger.custody kernel).back h.ledger (List.mem_append_left _ hm) hback)
      (KernelSpace.backEntry_spares hback) ?_
    rintro other rfl
    exact h.ledger.foreign hm

/-! ## Shrinking -/

/-- Kernel memory that came from `heap₀` and `space₀` while the heap did not grow, for someone who
has tables at `own`. -/
structure Shrunk (kernel : PageDirectory) (tables : List Nat) (heap₀ : Heap) (space₀ : KernelSpace)
    (own : List Nat) (held : List Block) (heap : Heap) (space : KernelSpace) : Prop where
  ledger : Ledger kernel (own ++ tables) held heap space
  window : SameWindow heap₀ heap
  shorter : heap.stop ≤ heap₀.stop
  spares : space₀.Spares (Touchable kernel tables heap.stop heap₀.stop) space

theorem Ledger.shrunk (h : Ledger kernel (own ++ tables) held heap space) :
    Shrunk kernel tables heap space own held heap space :=
  ⟨h, .refl heap, Nat.le_refl _, .refl _ _⟩

theorem Shrunk.free {block : Block}
    (h : Shrunk kernel tables heap₀ space₀ own (block :: held) heap space)
    (hfree : (heap.free KernelSpace.mapper block.addr space).result = .ok (heap', space')) :
    Shrunk kernel tables heap₀ space₀ own held heap' space' := by
  obtain ⟨freed, hfreed, hledger⟩ := h.ledger.free
  obtain rfl := Except.ok.inj (hfreed.symm.trans hfree)
  have hends := h.ledger.kept.valid.free_ends (h.ledger.mem_used List.mem_cons_self)
    KernelSpace.mapper space
  rw [hfree] at hends
  cases hends with
  | released hr =>
      obtain ⟨hshorter, hspares⟩ := h.ledger.released_spares hr
      refine ⟨hledger, h.window.trans hr.same, Nat.le_trans hshorter h.shorter, ?_⟩
      have hbefore := h.spares.mono fun ref htouched => htouched.mono hshorter (Nat.le_refl _)
      exact hbefore.trans
        (hspares.mono fun ref hcovers => .inr (hcovers.mono (Nat.le_refl _) h.shorter))

theorem Shrunk.surrender (h : Shrunk kernel tables heap₀ space₀ (addr :: own) held heap space)
    (hunback : space.unbackTable addr = .ok space') :
    Shrunk kernel tables heap₀ space₀ own (tableBlock addr :: held) heap space' := by
  obtain ⟨cleared, hcleared, hledger⟩ := h.ledger.surrender
  obtain rfl := Except.ok.inj (hcleared.symm.trans hunback)
  have hspares := (KernelSpace.unbackTable_spares hunback).mono fun ref htable =>
    show Touchable kernel tables heap.stop heap₀.stop ref from
      .inl (htable ▸ h.ledger.foreign List.mem_cons_self)
  exact ⟨hledger, h.window, h.shorter, h.spares.trans hspares⟩

theorem Shrunk.releaseTables {slots : List TableRef} {t : Heap × KernelSpace}
    (h : Shrunk kernel tables heap₀ space₀ (slots.map (·.table)) held heap space)
    (hfold : (slots.foldlM KernelMemory.releaseTable (heap, space)).result = .ok t) :
    Shrunk kernel tables heap₀ space₀ [] held t.1 t.2 := by
  refine KernelMemory.releaseTables_preserves
    (P := fun slots => Shrunk kernel tables heap₀ space₀ (slots.map (·.table)) held) ?_ h hfold
  intro slot rest heap space cleared heap' space' hs hunback hfree
  have hblock := Shrunk.surrender hs hunback
  exact hblock.free hfree

/-! ## The calls -/

namespace KernelMemory

/-- A call by someone who has the address space `made` and the blocks `blocks`, with an answer or an
error. -/
inductive Dealing (memory : KernelMemory) (made : AddressSpace) (blocks : List Block) :
    KernelMemory → Prop
  | allocated {size : Nat} {pageAligned : Bool} {answer : Except HeapError Nat}
      {memory' : KernelMemory} :
      (memory.tryAlloc size pageAligned).result = .ok (answer, memory') →
      Dealing memory made blocks memory'
  | freed {block : Block} {memory' : KernelMemory} :
      block ∈ blocks → (memory.free block.addr).result = .ok memory' →
      Dealing memory made blocks memory'
  | created {answer : Except HeapError AddressSpace} {memory' : KernelMemory} :
      memory.createSpace.result = .ok (answer, memory') → Dealing memory made blocks memory'
  | mapped {start stop : Nat} {flags : HeapFlags} {answer : Option PagingError}
      {made' : AddressSpace} {memory' : KernelMemory} :
      (memory.mapRange made start stop flags).result = .ok (answer, made', memory') →
      Dealing memory made blocks memory'
  | unmapped {start stop : Nat} {memory' : KernelMemory} :
      made.directory.Private start stop →
      (memory.unmapRange made start stop).result = .ok memory' → Dealing memory made blocks memory'
  | destroyed {memory' : KernelMemory} :
      (memory.destroySpace made).result = .ok memory' → Dealing memory made blocks memory'

end KernelMemory

/-- Kernel memory that came from `heap₀` and `space₀` by a call of someone else than those who have
`tables`. -/
structure Parted (kernel : PageDirectory) (tables : List Nat) (heap₀ : Heap) (space₀ : KernelSpace)
    (heap : Heap) (space : KernelSpace) : Prop where
  valid : heap.Valid
  window : SameWindow heap₀ heap
  spares : space₀.Spares
    (Touchable kernel tables (min heap₀.stop heap.stop) (max heap₀.stop heap.stop)) space

theorem Grown.parted (h : Grown kernel tables heap₀ space₀ own held heap space) :
    Parted kernel tables heap₀ space₀ heap space where
  valid := h.ledger.kept.valid
  window := h.window
  spares := by
    rw [Nat.min_eq_left h.longer, Nat.max_eq_right h.longer]
    exact h.spares

theorem Shrunk.parted (h : Shrunk kernel tables heap₀ space₀ own held heap space) :
    Parted kernel tables heap₀ space₀ heap space where
  valid := h.ledger.kept.valid
  window := h.window
  spares := by
    rw [Nat.min_eq_right h.shorter, Nat.max_eq_left h.shorter]
    exact h.spares

section Parted

variable (old : Ledger kernel (own ++ tables) held heap₀ space₀)

include old

/-- Under private tables of the others, and where they have no table, nothing changes for them. -/
theorem Parted.translateIn (h : Parted kernel tables heap₀ space₀ heap space)
    {directory : PageDirectory} (theirs : directory.ownAddrs ⊆ tables) {virt : Nat}
    (unlinked : ∀ slot, directory.slots.get (tableIndex virt) = some slot → slot.linked = false) :
    directory.translate space.ram virt = directory.translate space₀.ram virt := by
  refine PageDirectory.translate_congr fun ref hfind => h.spares.entries _ ?_
  obtain ⟨slot, hslot, rfl⟩ := PageDirectory.find?_eq_some hfind
  have hown : slot.table ∈ tables :=
    theirs (PageDirectory.mem_ownAddrs.mpr ⟨_, slot, hslot, unlinked slot hslot, rfl⟩)
  rintro (hforeign | ⟨page, -, -, -, hkernel⟩)
  · exact hforeign (List.mem_append_right _ hown)
  · have hm : slot.table ∈ (own ++ tables) ++ held.map (·.addr) := by simp [hown]
    exact old.kept.not_mem_tableAddrs hm (PageDirectory.find?_mem hkernel)

/-- What changes for the kernel lies between the ends of the heap, as far as directories tell
addresses apart. -/
theorem Parted.covered (h : Parted kernel tables heap₀ space₀ heap space) {virt : Nat}
    (changed : space.translate virt ≠ space₀.translate virt) :
    ∃ ref, kernel.find? virt = some ref ∧
      kernel.Covers (min heap₀.stop heap.stop) (max heap₀.stop heap.stop) ref := by
  by_contra hnone
  refine changed (h.spares.translate fun ref hfind htouched => ?_)
  rw [old.kept.holds.same] at hfind
  rcases htouched with hforeign | hcovers
  · exact hforeign (List.mem_append_left _ (PageDirectory.find?_mem hfind))
  · exact hnone ⟨ref, hfind, hcovers⟩

theorem Parted.translate_outside (h : Parted kernel tables heap₀ space₀ heap space) {virt : Nat}
    (outside : ∀ addr, heap₀.start ≤ addr → addr < heap₀.limit →
      addr % addressSpan ≠ virt % addressSpan) :
    space.translate virt = space₀.translate virt := by
  by_contra hchanged
  obtain ⟨ref, hfind, page, hpage, hlow, hhigh, hcovered⟩ := h.covered old hchanged
  obtain ⟨htable, hindex⟩ := PageDirectory.find?_unique old.kept.distinct hfind hcovered
  have hstart := old.kept.valid.books.laid.tiles.le
  have hstart' := h.valid.books.laid.tiles.le
  have hstop := old.kept.valid.window
  have hstop' := h.valid.window
  have hlimit := hstop.stop_le
  have hlimit' := hstop'.stop_le
  rw [h.window.start] at hstart'
  rw [h.window.limit] at hlimit'
  obtain ⟨last, hlast⟩ := hstop.stop_page
  obtain ⟨last', hlast'⟩ := hstop'.stop_page
  obtain ⟨number, rfl⟩ := hpage
  -- The byte of the covered page that has the same place in it is in the window.
  refine outside (pageSize * number + virt % pageSize) ?_ ?_ ?_
  · omega
  · unfold pageSize at *
    omega
  · have htable := congrArg Fin.val htable
    have hindex := congrArg Fin.val hindex
    simp only [tableIndex, pageIndex] at htable hindex
    unfold tableSpan entriesPerTable addressSpan pageSize at *
    omega

theorem Parted.translate_below (h : Parted kernel tables heap₀ space₀ heap space) {virt : Nat}
    (low : heap₀.start ≤ virt) (before : virt < heap₀.stop) (after : virt < heap.stop) :
    space.translate virt = space₀.translate virt := by
  by_contra hchanged
  obtain ⟨ref, hfind, hcovers⟩ := h.covered old hchanged
  have hstart := old.kept.valid.books.laid.tiles.le
  have hstart' := h.valid.books.laid.tiles.le
  have hlimit := old.kept.valid.window.stop_le
  have hlimit' := h.valid.window.stop_le
  have hnarrow := old.narrow
  rw [h.window.start] at hstart'
  rw [h.window.limit] at hlimit'
  obtain ⟨first, hfirst⟩ := old.kept.valid.window.start_page
  have hfloor := pageFloor_eq virt
  rw [← PageDirectory.find?_pageFloor] at hfind
  have hpage : pageSize ∣ pageFloor virt := hfloor ▸ Nat.dvd_mul_left _ _
  have hinside := @PageDirectory.Covers.inside _ _ _ _ hcovers old.kept.distinct heap₀.start
    (pageFloor virt) (by omega) (by omega) hpage (by unfold pageSize at *; omega)
    (by unfold pageSize at *; omega) hfind
  unfold pageSize at *
  omega

end Parted

namespace KernelMemory

variable {made : AddressSpace} {memory memory' : KernelMemory} {blocks : List Block}

theorem createSpace_grown {answer : Except HeapError AddressSpace} (heap_eq : memory.heap = some heap)
    (h : Ledger kernel (own ++ tables) held heap memory.space)
    (hcreate : memory.createSpace.result = .ok (answer, memory')) :
    ∃ held' heap', memory'.heap = some heap' ∧
      Grown kernel tables heap memory.space own held' heap' memory'.space := by
  rcases createSpace_eq_ok hcreate with ⟨cause, halloc, -⟩ | ⟨addr, granted, halloc, hends⟩
  · obtain ⟨heap', hheap', hrefused⟩ := tryAlloc_eq_ok heap_eq halloc
    rcases h.grown.alloc hrefused with ⟨-, -, hgrown⟩ | ⟨addr, hanswer, -⟩
    · exact ⟨held, heap', hheap', hgrown⟩
    · contradiction
  obtain ⟨heap', hheap', hgranted⟩ := tryAlloc_eq_ok heap_eq halloc
  rcases h.grown.alloc hgranted with ⟨cause, hanswer, -⟩ | ⟨addr, hanswer, hpage, hgrown⟩
  · contradiction
  obtain rfl := Except.ok.inj hanswer
  rcases hends with ⟨hnone, -⟩ | ⟨phys, -, rfl⟩
  -- A block for a directory lies on a page that is mapped.
  · obtain ⟨phys, hphys⟩ := hgrown.ledger.translate (hpage rfl)
    rw [KernelMemory.translate, hphys] at hnone
    contradiction
  · exact ⟨_, heap', hheap', hgrown.entries fun _ => rfl⟩

/-- A call by someone who has no table of `tables` touches none of theirs, and of the kernel's
entries those of the pages between the ends of the heap at most. -/
theorem Balances.parted
    (h : memory.Balances kernel (made.directory.ownAddrs ++ tables) (made.block :: held))
    (mine : blocks ⊆ held) (hcall : memory.Dealing made blocks memory') :
    ∃ heap heap', memory.heap = some heap ∧ memory'.heap = some heap' ∧
      Parted kernel tables heap memory.space heap' memory'.space := by
  obtain ⟨heap, hheap, hledger⟩ := h
  cases hcall with
  | allocated halloc =>
      obtain ⟨heap', hheap', hgranted⟩ := tryAlloc_eq_ok hheap halloc
      rcases hledger.grown.alloc hgranted with ⟨-, -, hgrown⟩ | ⟨_, -, -, hgrown⟩
      · exact ⟨heap, heap', hheap, hheap', hgrown.parted⟩
      · exact ⟨heap, heap', hheap, hheap', hgrown.parted⟩
  | freed hm hfree =>
      obtain ⟨heap', hheap', hfreed⟩ := free_eq_ok hheap hfree
      have hfront := hledger.perm (.refl _)
        (List.perm_cons_erase (List.mem_cons_of_mem made.block (mine hm)))
      exact ⟨heap, heap', hheap, hheap', (hfront.shrunk.free hfreed).parted⟩
  | created hcreate =>
      obtain ⟨held', heap', hheap', hgrown⟩ := createSpace_grown hheap hledger hcreate
      exact ⟨heap, heap', hheap, hheap', hgrown.parted⟩
  | mapped hmap =>
      obtain ⟨-, -, heap', hheap', hgrown⟩ :=
        (Grown.grants kernel tables heap memory.space _).mapRange hheap (.refl made.directory)
          hledger.grown hmap
      exact ⟨heap, heap', hheap, hheap', hgrown.parted⟩
  | @unmapped start stop memory' inside hunmap =>
      obtain ⟨hsame, hsweep⟩ := unmapRange_eq_ok hunmap
      have hpage : pageSize ∣ pageFloor start := by
        rw [pageFloor_eq]
        exact Nat.dvd_mul_left _ _
      refine ⟨heap, heap, hheap, by rw [hsame, hheap], hledger.kept.valid, .refl heap, ?_⟩
      refine (KernelSpace.unmapPages_spares hpage hsweep).mono ?_
      rintro ref ⟨page, -, hlow, hhigh, hfind⟩
      exact .inl (hledger.foreign (inside.own hlow hhigh hfind))
  | destroyed hdestroy =>
      obtain ⟨heap₁, space₁, hfold, hfree⟩ := destroySpace_eq_ok hheap hdestroy
      have hreleased := hledger.shrunk.releaseTables hfold
      obtain ⟨heap', hheap', hfreed⟩ := @free_eq_ok heap₁ _ _ _ rfl hfree
      exact ⟨heap, heap', hheap, hheap',
        (@Shrunk.free _ _ _ _ _ _ _ _ _ _ made.block hreleased hfreed).parted⟩

end KernelMemory

end KernelCore
