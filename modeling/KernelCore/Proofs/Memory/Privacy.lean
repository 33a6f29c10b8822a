import Mathlib
import KernelCore.Proofs.Memory.Refusals

/-!
# Bytes and their physical addresses

A byte that is mapped lies in the frame that its page's entry owns. The kernel's tables and the
private tables of all address spaces are distinct, and no two of their entries own one frame. So
bytes of the heap and bytes under private tables lie at physical addresses of their own. All bytes
of the heap are mapped.
-/

namespace KernelCore

open Heap

/-! ## Bytes and entries -/

namespace PageDirectory

variable {directory : PageDirectory} {ram : Ram} {virt phys : Nat} {ref : EntryRef}

theorem find?_pageFloor (directory : PageDirectory) (virt : Nat) :
    directory.find? (pageFloor virt) = directory.find? virt := by
  have htable : tableIndex (pageFloor virt) = tableIndex virt :=
    (congrArg tableIndex (pageFloor_eq virt)).trans (tableIndex_frame virt)
  have hpage : pageIndex (pageFloor virt) = pageIndex virt :=
    (congrArg pageIndex (pageFloor_eq virt)).trans (pageIndex_frame virt)
  rw [find?, find?, htable, hpage]

/-- The byte behind an address lies in the frame that the page's entry owns, at the same place as in
the page. -/
theorem owns_of_translate (h : directory.translate ram virt = some phys) :
    ∃ ref, directory.find? virt = some ref ∧ (ram.entry ref).owns (phys / frameSize) ∧
      phys % pageSize = virt % pageSize := by
  obtain ⟨ref, hfind, hpresent, rfl⟩ := translate_eq_some.mp h
  refine ⟨ref, hfind, ⟨hpresent, ?_⟩, ?_⟩
  · unfold PageEntry.frame pageFloor frameSize pageSize
    omega
  · unfold PageEntry.frame pageFloor pageSize
    omega

def Owns (directory : PageDirectory) (virt : Nat) : Prop :=
  ∃ slot, directory.slots.get (tableIndex virt) = some slot ∧ slot.linked = false

theorem Owns.mem_ownAddrs (h : directory.Owns virt) (found : directory.find? virt = some ref) :
    ref.table ∈ directory.ownAddrs := by
  obtain ⟨slot, hslot, hown⟩ := h
  obtain ⟨same, hsame, rfl⟩ := find?_eq_some found
  obtain rfl := Option.some.inj (hslot.symm.trans hsame)
  exact PageDirectory.mem_ownAddrs.mpr ⟨_, slot, hslot, hown, rfl⟩

theorem Owns.find?_unique (distinct : directory.ownAddrs.Nodup) {a b : Nat}
    (ha : directory.Owns a) (hb : directory.Owns b) (found_a : directory.find? a = some ref)
    (found_b : directory.find? b = some ref) :
    tableIndex a = tableIndex b ∧ pageIndex a = pageIndex b := by
  obtain ⟨x, hx, own_x⟩ := ha
  obtain ⟨y, hy, own_y⟩ := hb
  obtain ⟨x', hx', rfl⟩ := find?_eq_some found_a
  obtain ⟨y', hy', hsame⟩ := find?_eq_some found_b
  obtain rfl := Option.some.inj (hx.symm.trans hx')
  obtain rfl := Option.some.inj (hy.symm.trans hy')
  obtain ⟨htable, hindex⟩ := EntryRef.mk.inj hsame
  exact ⟨own_index_unique distinct hx hy own_x own_y htable, hindex⟩

end PageDirectory

/-! ## Bytes of the heap -/

section Bytes

variable {kernel : PageDirectory} {tables : List Nat} {held : List Block} {heap : Heap}
  {space : KernelSpace} {block : Block} {virt phys : Nat} {ref ref' : EntryRef}

theorem Ledger.bounds (h : Ledger kernel tables held heap space)
    (hm : block ∈ usedBlocks heap.blocks) (low : block.addr ≤ virt) (high : virt < block.stop) :
    heap.start ≤ virt ∧ virt < heap.stop := by
  obtain ⟨hstart, -, hstop⟩ :=
    h.kept.valid.books.laid.tiles.bounds (List.mem_of_mem_filter hm)
  omega

theorem Ledger.translate_byte (h : Ledger kernel tables held heap space) (low : heap.start ≤ virt)
    (high : virt < heap.stop) : ∃ phys, space.translate virt = some phys := by
  have hfloor := pageFloor_eq virt
  obtain ⟨page, hpage⟩ := h.kept.valid.window.start_page
  obtain ⟨ref, hfind, hpresent⟩ := h.backed (pageFloor virt) (hfloor ▸ Nat.dvd_mul_left _ _)
    (by unfold pageSize at *; omega) (by unfold pageSize at *; omega)
  rw [PageDirectory.find?_pageFloor] at hfind
  exact ⟨_, PageDirectory.translate_eq_some.mpr ⟨ref, hfind, hpresent, rfl⟩⟩

/-- Two entries of tables in use that own one frame are the same entry. -/
theorem Ledger.entry_unique (h : Ledger kernel tables held heap space)
    (hm : ref.table ∈ kernel.tableAddrs ++ tables) (hm' : ref'.table ∈ kernel.tableAddrs ++ tables)
    {number : Nat} (howns : (space.ram.entry ref).owns number)
    (howns' : (space.ram.entry ref').owns number) : ref = ref' :=
  h.kept.holds.owned.unique ref ref' hm hm' number howns howns'

/-- A byte of the kernel's lies in a frame that an entry of the kernel's tables owns. -/
theorem Ledger.kernel_owns (h : Ledger kernel tables held heap space)
    (hphys : space.translate virt = some phys) :
    ∃ ref, kernel.find? virt = some ref ∧ ref.table ∈ kernel.tableAddrs ∧
      (space.ram.entry ref).owns (phys / frameSize) ∧ phys % pageSize = virt % pageSize := by
  unfold KernelSpace.translate at hphys
  rw [h.kept.holds.same] at hphys
  obtain ⟨ref, hfind, howns, hplace⟩ := PageDirectory.owns_of_translate hphys
  exact ⟨ref, hfind, PageDirectory.find?_mem hfind, howns, hplace⟩

theorem Ledger.heap_byte_unique (h : Ledger kernel tables held heap space) {a b : Nat}
    (low_a : heap.start ≤ a) (high_a : a < heap.stop) (low_b : heap.start ≤ b)
    (high_b : b < heap.stop) (phys_a : space.translate a = some phys)
    (phys_b : space.translate b = some phys) : a = b := by
  obtain ⟨ref, hfind, hm, howns, hplace⟩ := h.kernel_owns phys_a
  obtain ⟨ref', hfind', hm', howns', hplace'⟩ := h.kernel_owns phys_b
  obtain rfl := h.entry_unique (List.mem_append_left _ hm) (List.mem_append_left _ hm') howns howns'
  obtain ⟨htable, hpage⟩ := PageDirectory.find?_unique h.kept.distinct hfind hfind'
  have hstop := h.kept.valid.window.stop_le
  have hnarrow := h.narrow
  exact byte_unique low_a low_b (by omega) (by omega) htable hpage (hplace.symm.trans hplace')

end Bytes

/-! ## Bytes of address spaces -/

section Spaces

variable {kernel : PageDirectory} {spaces : List AddressSpace} {held : List Block} {heap : Heap}
  {space : KernelSpace} {made other : AddressSpace} {virt phys : Nat}

/-- A byte under a private table lies in a frame that an entry of that table owns. -/
theorem owns_of_own {ram : Ram} (own : made.directory.Owns virt)
    (hphys : made.directory.translate ram virt = some phys) :
    ∃ ref, made.directory.find? virt = some ref ∧ ref.table ∈ made.directory.ownAddrs ∧
      (ram.entry ref).owns (phys / frameSize) ∧ phys % pageSize = virt % pageSize := by
  obtain ⟨ref, hfind, howns, hplace⟩ := PageDirectory.owns_of_translate hphys
  exact ⟨ref, hfind, own.mem_ownAddrs hfind, howns, hplace⟩

/-- An address space is told from the others by any of its private tables. -/
theorem eq_of_mem_ownAddrs (distinct : (spaces.flatMap (·.directory.ownAddrs)).Nodup)
    (hm : made ∈ spaces) (hm' : other ∈ spaces) {table : Nat}
    (mine : table ∈ made.directory.ownAddrs) (theirs : table ∈ other.directory.ownAddrs) :
    made = other := by
  obtain ⟨-, hapart⟩ := List.nodup_flatMap.mp distinct
  have : Std.Symm (Function.onFun List.Disjoint fun made : AddressSpace => made.directory.ownAddrs) :=
    ⟨fun _ _ h => h.symm⟩
  by_contra hdiffers
  exact hapart.forall hm hm' hdiffers mine theirs

/-- No byte under a private table lies where a byte of the kernel's lies. -/
theorem Ledger.own_apart
    (h : Ledger kernel (spaces.flatMap (·.directory.ownAddrs)) held heap space)
    (hm : made ∈ spaces) (own : made.directory.Owns virt)
    (hphys : made.directory.translate space.ram virt = some phys) (addr : Nat) :
    space.translate addr ≠ some phys := by
  intro hkernel
  obtain ⟨ref, -, hown, howns, -⟩ := owns_of_own own hphys
  obtain ⟨ref', -, hm', howns', -⟩ := h.kernel_owns hkernel
  have htables : ref.table ∈ spaces.flatMap (·.directory.ownAddrs) :=
    List.mem_flatMap.mpr ⟨made, hm, hown⟩
  obtain rfl := h.entry_unique (List.mem_append_right _ htables) (List.mem_append_left _ hm') howns
    howns'
  exact h.kept.not_mem_tableAddrs (List.mem_append_left _ htables) hm'

theorem Ledger.own_byte_unique
    (h : Ledger kernel (spaces.flatMap (·.directory.ownAddrs)) held heap space)
    (hm : made ∈ spaces) (hm' : other ∈ spaces) {a b : Nat} (below_a : a < addressSpan)
    (below_b : b < addressSpan) (own_a : made.directory.Owns a) (own_b : other.directory.Owns b)
    (phys_a : made.directory.translate space.ram a = some phys)
    (phys_b : other.directory.translate space.ram b = some phys) : made = other ∧ a = b := by
  obtain ⟨ref, hfind, hown, howns, hplace⟩ := owns_of_own own_a phys_a
  obtain ⟨ref', hfind', hown', howns', hplace'⟩ := owns_of_own own_b phys_b
  have htables : ref.table ∈ spaces.flatMap (·.directory.ownAddrs) :=
    List.mem_flatMap.mpr ⟨made, hm, hown⟩
  have htables' : ref'.table ∈ spaces.flatMap (·.directory.ownAddrs) :=
    List.mem_flatMap.mpr ⟨other, hm', hown'⟩
  obtain rfl := h.entry_unique (List.mem_append_right _ htables) (List.mem_append_right _ htables')
    howns howns'
  have hdistinct := h.kept.once.of_append_left
  obtain rfl := eq_of_mem_ownAddrs hdistinct hm hm' hown hown'
  have hnodup := (List.nodup_flatMap.mp hdistinct).1 made hm
  obtain ⟨htable, hpage⟩ := PageDirectory.Owns.find?_unique hnodup own_a own_b hfind hfind'
  exact ⟨rfl, @byte_unique 0 a b (Nat.zero_le a) (Nat.zero_le b) (by omega) (by omega) htable hpage
    (hplace.symm.trans hplace')⟩

theorem Ledger.nodup_addrs {tables : List Nat} {rest : List Block}
    (h : Ledger kernel tables (spaces.map (·.block) ++ rest) heap space) :
    (spaces.map (·.addr)).Nodup := by
  have hheld := h.kept.once.of_append_right
  rw [List.map_append, List.map_map] at hheld
  exact hheld.of_append_left

end Spaces

end KernelCore
