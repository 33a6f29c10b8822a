import Mathlib
import KernelCore.Proofs.Memory.Custody
import KernelCore.Proofs.Memory.Reservations

/-!
# What becomes of saved registers

Register frames are lost where memory is taken over: for another frame, for a directory or for a
table. They are kept by address, whatever frame backs the page, so changes of page entries do them no
harm. What is taken over is a block that was granted just now, or static memory that was not handed
out before. So a frame in a used block of the heap stays, whatever is made beside it.
-/

namespace KernelCore

open Heap

/-! ## Memory contents -/

namespace Ram

variable {ram ram' : Ram} {addr size frame : Nat}

theorem frameAt?_congr (same : ram'.saved = ram.saved) (frame : Nat) :
    ram'.frameAt? frame = ram.frameAt? frame := by
  rw [frameAt?, frameAt?, same]

/-- A frame survives what is written beside it. -/
theorem frameAt?_overwrite
    (apart : frame + Registers.userFrameBytes ≤ addr ∨ addr + size ≤ frame) :
    (ram.overwrite addr size).frameAt? frame = ram.frameAt? frame := by
  unfold frameAt? overwrite
  rw [List.find?_filter]
  congr 2
  funext saved
  by_cases hhere : saved.addr = frame
  · have htouches : saved.touches addr size = false := by
      unfold SavedFrame.touches
      rw [hhere, Bool.and_eq_false_iff, decide_eq_false_iff_not, decide_eq_false_iff_not]
      omega
    simp [htouches, hhere]
  · simp [hhere]

theorem frameAt?_saveFrame
    (apart : frame + Registers.userFrameBytes ≤ addr ∨ addr + Registers.userFrameBytes ≤ frame)
    (registers : Registers) :
    (ram.saveFrame addr registers).frameAt? frame = ram.frameAt? frame := by
  have hother : addr ≠ frame := by
    rintro rfl
    have hpos : 0 < Registers.userFrameBytes := by decide
    omega
  have hbefore : (ram.saveFrame addr registers).frameAt? frame =
      (ram.overwrite addr Registers.userFrameBytes).frameAt? frame := by
    simp [saveFrame, frameAt?, hother]
  rw [hbefore, frameAt?_overwrite apart]

theorem frameAt?_clearTable
    (apart : frame + Registers.userFrameBytes ≤ addr ∨ addr + tableBytes ≤ frame) :
    (ram.clearTable addr).frameAt? frame = ram.frameAt? frame :=
  (frameAt?_congr rfl frame).trans (frameAt?_overwrite apart)

end Ram

/-! ## Page entries -/

namespace KernelSpace

variable {space space' : KernelSpace} {ref : EntryRef} {page start stop : Nat}

theorem backEntry_saved {flags : HeapFlags} {refused : Option PagingError}
    (hback : (space.backEntry ref flags).result = .ok (refused, space')) :
    space'.ram.saved = space.ram.saved := by
  unfold backEntry at hback
  rw [Traced.result_bind] at hback
  obtain ⟨⟨refused', entry, frames⟩, -, hback⟩ := bind_eq_ok hback
  obtain ⟨-, rfl⟩ := Prod.mk.injEq .. ▸ Except.ok.inj hback
  rfl

theorem mapEntry_saved {frame : Nat} (hmap : space.mapEntry ref frame = .ok space') :
    space'.directory = space.directory ∧ space'.ram.saved = space.ram.saved := by
  unfold mapEntry at hmap
  obtain ⟨⟨entry, frames⟩, -, hmap⟩ := bind_eq_ok hmap
  obtain rfl := Except.ok.inj hmap
  exact ⟨rfl, rfl⟩

theorem unbackPage_saved {lookup : PageDirectory}
    (hunback : space.unbackPage lookup page = .ok space') :
    space'.ram.saved = space.ram.saved := by
  unfold unbackPage at hunback
  split at hunback
  · unfold unbackEntry at hunback
    obtain ⟨⟨entry, frames⟩, -, hunback⟩ := bind_eq_ok hunback
    obtain rfl := Except.ok.inj hunback
    rfl
  · obtain rfl := Except.ok.inj hunback
    rfl

theorem unmapPages_saved {lookup : PageDirectory} {count first : Nat}
    (hunmap : (Traced.sweepAll pageSize (fun page space => space.unbackPage lookup page) count first
      space).result = .ok space') : space'.ram.saved = space.ram.saved := by
  apply Traced.sweepAll_preserves (P := fun s => s.ram.saved = space.ram.saved) _ rfl hunmap
  intro page s t hs hvisit
  exact (unbackPage_saved (Traced.result_lift _ ▸ hvisit)).trans hs

theorem unbackTable_saved {table : Nat} (hunback : space.unbackTable table = .ok space') :
    space'.ram.saved = space.ram.saved := by
  unfold unbackTable at hunback
  obtain ⟨frames, -, hunback⟩ := bind_eq_ok hunback
  obtain rfl := Except.ok.inj hunback
  rfl

theorem map_saved {flags : HeapFlags} {refused : Option PagingError}
    (hmap : (mapper.map start stop flags space).result = .ok (refused, space')) :
    space'.ram.saved = space.ram.saved := by
  change (space.mapRegion start stop flags).result = _ at hmap
  simp only [mapRegion] at hmap
  split at hmap
  · obtain ⟨-, rfl⟩ := Prod.mk.injEq .. ▸ Except.ok.inj hmap
    rfl
  split at hmap
  · obtain ⟨-, rfl⟩ := Prod.mk.injEq .. ▸ Except.ok.inj hmap
    rfl
  apply Traced.sweep_preserves (P := fun s => s.ram.saved = space.ram.saved) _ rfl hmap
  intro page s refusal t hs hvisit
  unfold backPage at hvisit
  split at hvisit
  · exact (backEntry_saved hvisit).trans hs
  · obtain ⟨-, rfl⟩ := Prod.mk.injEq .. ▸ Except.ok.inj hvisit
    exact hs

end KernelSpace

/-! ## The heap -/

namespace Heap

variable {heap heap' : Heap} {space space' : KernelSpace}

theorem Asked.saved {refusal : Option PagingError}
    (h : Asked KernelSpace.mapper space refusal space') : space'.ram.saved = space.ram.saved := by
  cases h with
  | nothing => rfl
  | once hmap => exact KernelSpace.map_saved hmap

theorem alloc_saved {size : Nat} {pageAligned : Bool} {answer : Except HeapError Nat}
    (halloc : (heap.alloc KernelSpace.mapper size pageAligned space).result =
      .ok (answer, heap', space')) : space'.ram.saved = space.ram.saved := by
  obtain ⟨refusal, hasked, -⟩ := alloc_asks halloc
  exact hasked.saved

theorem free_saved {addr : Nat}
    (hfree : (heap.free KernelSpace.mapper addr space).result = .ok (heap', space')) :
    space'.ram.saved = space.ram.saved := by
  rcases free_asks hfree with rfl | ⟨start, stop, hunmap⟩
  · rfl
  · rw [KernelSpace.unmap_eq] at hunmap
    exact KernelSpace.unmapPages_saved hunmap

end Heap

namespace KernelMemory

variable {memory memory' : KernelMemory} {addr : Nat}

theorem tryAlloc_saved {size : Nat} {pageAligned : Bool} {answer : Except HeapError Nat}
    (h : (memory.tryAlloc size pageAligned).result = .ok (answer, memory')) :
    memory'.space.ram.saved = memory.space.ram.saved := by
  cases hheap : memory.heap with
  | none =>
      simp only [tryAlloc, hheap, Traced.result_pure, Except.ok.injEq, Prod.mk.injEq] at h
      rw [h.2]
  | some heap =>
      obtain ⟨heap', -, halloc⟩ := tryAlloc_eq_ok hheap h
      exact Heap.alloc_saved halloc

theorem free_saved (h : (memory.free addr).result = .ok memory') :
    memory'.space.ram.saved = memory.space.ram.saved := by
  cases hheap : memory.heap with
  | none => simp [free, hheap] at h
  | some heap =>
      obtain ⟨heap', -, hfree⟩ := free_eq_ok hheap h
      exact Heap.free_saved hfree

theorem resolveFault_saved {error : Nat} {answer : Option PageFaultError}
    (h : (memory.resolveFault addr error).result = .ok (answer, memory')) :
    memory'.space.ram.saved = memory.space.ram.saved := by
  cases hheap : memory.heap with
  | none => rw [(resolveFault_heapless hheap h).1]
  | some heap =>
      rcases resolveFault_eq_ok hheap h with rfl | ⟨start, stop, refused, -, hmap⟩
      · rfl
      · exact KernelSpace.map_saved hmap

theorem unmapRange_saved {made : AddressSpace} {start stop : Nat}
    (h : (memory.unmapRange made start stop).result = .ok memory') :
    memory'.space.ram.saved = memory.space.ram.saved :=
  KernelSpace.unmapPages_saved (unmapRange_eq_ok h).2

theorem destroySpace_saved {made : AddressSpace}
    (h : (memory.destroySpace made).result = .ok memory') :
    memory'.space.ram.saved = memory.space.ram.saved := by
  cases hheap : memory.heap with
  | none => simp [destroySpace, hheap] at h
  | some heap =>
      obtain ⟨released, space, hfold, hfree⟩ := destroySpace_eq_ok hheap h
      rw [free_saved hfree]
      exact releaseTables_preserves
        (P := fun _ _ space => space.ram.saved = memory.space.ram.saved)
        (fun hs hunback hfreed =>
          (Heap.free_saved hfreed).trans ((KernelSpace.unbackTable_saved hunback).trans hs))
        rfl hfold

end KernelMemory

/-! ## Blocks that shelter a frame -/

/-- A used block of the heap, and what is saved at `frame`. -/
structure Sheltered (block : Block) (frame : Nat) (registers : Option Registers) (heap : Heap)
    (space : KernelSpace) : Prop where
  valid : heap.Valid
  used : block ∈ usedBlocks heap.blocks
  saved : space.ram.frameAt? frame = registers

section Shelter

variable {block : Block} {frame : Nat} {registers : Option Registers} {heap heap' : Heap}
  {space space' : KernelSpace}

/-- A block that is granted lies apart from those that were used before. -/
theorem Sheltered.alloc (h : Sheltered block frame registers heap space) {size : Nat}
    {pageAligned : Bool} {answer : Except HeapError Nat}
    (halloc : (heap.alloc KernelSpace.mapper size pageAligned space).result =
      .ok (answer, heap', space')) :
    Sheltered block frame registers heap' space' ∧
      ∀ addr, answer = .ok addr → block.stop ≤ addr ∨ addr + rounded size ≤ block.addr := by
  have hsaved := (Ram.frameAt?_congr (Heap.alloc_saved halloc) frame).trans h.saved
  have hends := h.valid.alloc_ends KernelSpace.mapper size pageAligned space
  rw [halloc] at hends
  cases hends with
  | refused => exact ⟨h, by simp⟩
  | unmapped => exact ⟨⟨h.valid, h.used, hsaved⟩, by simp⟩
  | granted hgranted =>
      have hused := hgranted.used.mem_iff.mpr (List.mem_cons_of_mem _ h.used)
      refine ⟨⟨hgranted.valid, hused, hsaved⟩, ?_⟩
      rintro addr hanswer
      obtain rfl := Except.ok.inj hanswer
      have hapart := hgranted.used.pairwise hgranted.valid.used_apart Or.symm
      exact ((List.pairwise_cons.mp hapart).1 block h.used).symm

theorem Sheltered.stays {memory memory' : KernelMemory}
    (h : memory.InUse (Sheltered block frame registers))
    (same : memory'.space.ram.saved = memory.space.ram.saved) :
    memory'.space.ram.frameAt? frame = registers := by
  obtain ⟨heap, -, hsheltered⟩ := h
  exact (Ram.frameAt?_congr same frame).trans hsheltered.saved

variable (low : block.addr ≤ frame) (high : frame + Registers.userFrameBytes ≤ block.stop)

include low high

/-- The tables of an address space are made beside the block. -/
theorem Sheltered.grants :
    Grants fun _ heap space => Sheltered block frame registers heap space where
  perm := fun _ h => h
  grant := by
    intro tables heap space answer heap' space' h hgrant
    rcases Heap.grantTable_eq_ok hgrant with ⟨cause, rfl, halloc⟩ | ⟨addr, granted, halloc, hends⟩
    · exact .inl ⟨_, rfl, (h.alloc halloc).1⟩
    obtain ⟨hsheltered, hapart⟩ := h.alloc halloc
    rcases hends with ⟨-, rfl, rfl⟩ | ⟨phys, rfl, rfl⟩
    · exact .inl ⟨_, rfl, hsheltered⟩
    · refine .inr ⟨_, rfl, rfl, hsheltered.valid, hsheltered.used, ?_⟩
      have hround := le_rounded tableBytes
      have hbeside := hapart addr rfl
      rw [← hsheltered.saved]
      exact Ram.frameAt?_clearTable (by omega)
  back := fun h _ hback => ⟨h.valid, h.used,
    (Ram.frameAt?_congr (KernelSpace.backEntry_saved hback) frame).trans h.saved⟩

variable {memory memory' : KernelMemory}

theorem Sheltered.createSpace (h : memory.InUse (Sheltered block frame registers))
    {answer : Except HeapError AddressSpace}
    (hcreate : memory.createSpace.result = .ok (answer, memory')) :
    memory'.space.ram.frameAt? frame = registers := by
  rcases KernelMemory.createSpace_eq_ok hcreate with
    ⟨cause, halloc, -⟩ | ⟨addr, granted, halloc, hends⟩
  · exact Sheltered.stays h (KernelMemory.tryAlloc_saved halloc)
  obtain ⟨heap, hheap, hsheltered⟩ := h
  obtain ⟨heap', hheap', hgranted⟩ := KernelMemory.tryAlloc_eq_ok hheap halloc
  obtain ⟨hafter, hapart⟩ := hsheltered.alloc hgranted
  rcases hends with ⟨-, hfree, -⟩ | ⟨phys, -, rfl⟩
  · exact (Ram.frameAt?_congr (KernelMemory.free_saved hfree) frame).trans hafter.saved
  · have hround := le_rounded directoryBytes
    have hbeside := hapart addr rfl
    rw [← hafter.saved]
    exact Ram.frameAt?_overwrite (by omega)

theorem Sheltered.mapRange (h : memory.InUse (Sheltered block frame registers))
    {made made' : AddressSpace} {start stop : Nat} {flags : HeapFlags}
    {refused : Option PagingError}
    (hmap : (memory.mapRange made start stop flags).result = .ok (refused, made', memory')) :
    memory'.space.ram.frameAt? frame = registers := by
  obtain ⟨heap, hheap, hsheltered⟩ := h
  obtain ⟨-, -, heap', -, hafter⟩ :=
    (Sheltered.grants low high).mapRange hheap (.refl made.directory) hsheltered hmap
  exact hafter.saved

theorem Sheltered.saveFrame (h : memory.InUse (Sheltered block frame registers)) {size addr : Nat}
    {pageAligned : Bool}
    (halloc : (memory.tryAlloc size pageAligned).result = .ok (.ok addr, memory')) {other : Nat}
    (above : addr ≤ other) (below : other + Registers.userFrameBytes ≤ addr + size)
    (saved : Registers) :
    (memory'.space.ram.saveFrame other saved).frameAt? frame = registers := by
  obtain ⟨heap, hheap, hsheltered⟩ := h
  obtain ⟨heap', hheap', hgranted⟩ := KernelMemory.tryAlloc_eq_ok hheap halloc
  obtain ⟨hafter, hapart⟩ := hsheltered.alloc hgranted
  have hround := le_rounded size
  have hbeside := hapart addr rfl
  rw [← hafter.saved]
  exact Ram.frameAt?_saveFrame (by omega) saved

end Shelter

/-! ## Preparing more memory -/

/-- What becomes of kernel memory while identity mappings and heaps are made, whatever they are. -/
structure Prepares (info : BootInfo) (before memory : KernelMemory) : Prop where
  stocked : ∃ blocks, Stocked info memory.space.directory memory.arena blocks
  heap : memory.heap = before.heap
  /-- Frames outside static memory stay. -/
  saved : ∀ frame,
    frame + Registers.userFrameBytes ≤ info.staticStart ∨ info.placementLimit ≤ frame →
    memory.space.ram.frameAt? frame = before.space.ram.frameAt? frame

section Preparing

variable {info : BootInfo} {before memory memory' : KernelMemory} {space : KernelSpace}

theorem Prepares.of_space (h : Prepares info before memory)
    (same : space.directory = memory.space.directory)
    (saved : space.ram.saved = memory.space.ram.saved) :
    Prepares info before { memory with space } where
  stocked := same ▸ h.stocked
  heap := h.heap
  saved := fun frame outside => (Ram.frameAt?_congr saved frame).trans (h.saved frame outside)

theorem Prepares.ensureEntry (h : Prepares info before memory) {virt : Nat}
    {found : Option EntryRef}
    (hensure : (memory.ensureEntry virt).result = .ok (found, memory')) :
    Prepares info before memory' := by
  obtain ⟨blocks, hstocked⟩ := h.stocked
  obtain ⟨-, blocks', hstocked'⟩ := KernelMemory.ensureEntry_stocked hstocked hensure
  rcases KernelMemory.ensureEntry_eq_ok hensure with ⟨ref, -, -, rfl⟩ |
    ⟨hempty, place, arena, hreserve, -, hram, -, hheap, hzero | ⟨-, hdirectory⟩⟩
  · exact h
  · have hbehind := (Arena.reserve_eq_ok hreserve).1
    have hpos := hstocked.cursor_pos
    omega
  · refine ⟨⟨blocks', hstocked'⟩, hheap.trans h.heap, fun frame outside => ?_⟩
    have hperm := PageDirectory.tableAddrs_setSlot ⟨place.addr, place.phys, false⟩ hempty
    have hm : place.addr ∈ memory'.space.directory.tableAddrs :=
      hdirectory ▸ hperm.mem_iff.mpr List.mem_cons_self
    obtain ⟨hlow, -, hhigh⟩ := hstocked'.within (hstocked'.table_mem hm)
    rw [hram, ← h.saved frame outside]
    apply Ram.frameAt?_clearTable
    unfold Reservation.ofTable Reservation.stop at hhigh
    unfold Reservation.ofTable at hlow
    simp only at hlow hhigh
    omega

theorem KernelMemory.identityMap_prepares
    (stocked : ∃ blocks, Stocked info memory.space.directory memory.arena blocks)
    {start stop : Nat} (hmap : (memory.identityMap start stop).result = .ok memory') :
    Prepares info memory memory' := by
  refine identityMap_preserves (P := Prepares info memory) ?_
    ⟨stocked, rfl, fun _ _ => rfl⟩ hmap
  intro page s prepared ref space hs hensure hspace
  obtain ⟨hsame, hsaved⟩ := KernelSpace.mapEntry_saved hspace
  exact (hs.ensureEntry hensure).of_space hsame hsaved

theorem KernelMemory.createHeap_prepares
    (stocked : ∃ blocks, Stocked info memory.space.directory memory.arena blocks)
    {start stop maxSize : Nat} {flags : HeapFlags} {answer : Except HeapError Heap}
    (hcreate : (memory.createHeap start stop maxSize flags).result = .ok (answer, memory')) :
    Prepares info memory memory' := by
  rcases createHeap_eq_ok (P := Prepares info memory) (fun hs hensure => hs.ensureEntry hensure)
    ⟨stocked, rfl, fun _ _ => rfl⟩ hcreate with ⟨-, hprepares⟩ |
    ⟨prepared, hprepares, hsame, hcreated⟩
  · exact hprepares
  · obtain ⟨refusal, hasked, -⟩ := Heap.create_asks hcreated
    rw [hsame]
    exact hprepares.of_space hasked.same hasked.saved

end Preparing

end KernelCore
