import Mathlib
import KernelCore.Proofs.Memory.Lending

/-!
# What static memory is handed out for

Static memory serves the frame bitmap, the kernel directory and the kernel's page tables, one block
after the other. A block once handed out stays so, and later blocks lie behind it. Tables that are
made for a heap after the boot are such blocks, too.
-/

namespace KernelCore

structure Reservation where
  addr : Nat
  size : Nat
deriving DecidableEq, Repr

def Reservation.stop (block : Reservation) : Nat := block.addr + block.size

def Reservation.ofTable (table : Nat) : Reservation := ⟨table, tableBytes⟩

/-! ## The arena -/

namespace Arena

variable {first arena arena' : Arena} {blocks : List Reservation} {block : Reservation}

/-- The blocks that are handed out on the way from `first` on, the latest first. -/
inductive Issued (first : Arena) : List Reservation → Arena → Prop
  | nothing : Issued first [] first
  | reserved {blocks : List Reservation} {arena arena' : Arena} {size : Nat}
      {alignment : Alignment} {place : Placement} :
      Issued first blocks arena → arena.reserve size alignment = .ok (place, arena') →
      Issued first (⟨place.addr, size⟩ :: blocks) arena'

/-- The cursor stands behind all that was handed out, and within the limit. -/
theorem Issued.bounds (h : first.Issued blocks arena) (fits : first.cursor ≤ first.limit) :
    first.cursor ≤ arena.cursor ∧ arena.cursor ≤ arena.limit ∧ arena.limit = first.limit := by
  induction h with
  | nothing => exact ⟨Nat.le_refl _, fits, rfl⟩
  | reserved _ hreserve ih =>
      obtain ⟨hbehind, -, hcursor, hwithin, hlimit⟩ := reserve_eq_ok hreserve
      exact ⟨by omega, hwithin, hlimit.trans ih.2.2⟩

theorem Issued.between (h : first.Issued blocks arena) (fits : first.cursor ≤ first.limit)
    (hm : block ∈ blocks) :
    first.cursor ≤ block.addr ∧ 0 < block.size ∧ block.stop ≤ arena.cursor := by
  induction h with
  | nothing => simp at hm
  | reserved hissued hreserve ih =>
      obtain ⟨hbehind, hpos, hcursor, -, -⟩ := reserve_eq_ok hreserve
      have hfirst := (hissued.bounds fits).1
      rcases List.mem_cons.mp hm with rfl | hm
      · exact ⟨by simp only; omega, hpos, Nat.le_of_eq hcursor.symm⟩
      · obtain ⟨hlow, hsize, hhigh⟩ := ih hm
        exact ⟨hlow, hsize, by omega⟩

theorem Issued.ordered (h : first.Issued blocks arena) (fits : first.cursor ≤ first.limit) :
    blocks.Pairwise fun later earlier => earlier.stop ≤ later.addr := by
  induction h with
  | nothing => exact .nil
  | reserved hissued hreserve ih =>
      refine List.pairwise_cons.mpr ⟨fun earlier hm => ?_, ih⟩
      exact Nat.le_trans (hissued.between fits hm).2.2 (reserve_eq_ok hreserve).1

theorem reserve_phys {size : Nat} {alignment : Alignment} {place : Placement}
    (h : arena.reserve size alignment = .ok (place, arena')) : place.phys = place.addr := by
  unfold reserve at h
  split at h
  · simp at h
  obtain ⟨align, -, h⟩ := bind_eq_ok h
  obtain ⟨addr, -, h⟩ := bind_eq_ok h
  split at h
  · obtain ⟨rfl, -⟩ := Prod.mk.injEq .. ▸ Except.ok.inj h
    rfl
  · simp at h

theorem pastImage_fresh {kernelEnd modulesEnd limit : Nat}
    (h : pastImage kernelEnd modulesEnd limit = .ok arena) :
    arena = ⟨pageUp (max kernelEnd modulesEnd), pageUp (max kernelEnd modulesEnd), limit⟩ := by
  unfold pastImage at h
  obtain ⟨base, hbase, h⟩ := bind_eq_ok h
  rw [pageCeil_eq] at hbase
  split at hbase
  · obtain rfl := Except.ok.inj hbase
    split at h
    · obtain rfl := Except.ok.inj h
      rfl
    · simp at h
  · simp at hbase

theorem pastImage_cursor {kernelEnd modulesEnd limit : Nat}
    (h : pastImage kernelEnd modulesEnd limit = .ok arena) :
    arena.cursor = pageUp (max kernelEnd modulesEnd) := congrArg cursor (pastImage_fresh h)

end Arena

/-! ## The kernel's static memory -/

def BootInfo.staticStart (info : BootInfo) : Nat := pageUp (max info.kernelEnd info.modulesEnd)

/-- The blocks of static memory that are handed out: one for the frame bitmap, one for the kernel
directory and one for each of the kernel's page tables. -/
structure Stocked (info : BootInfo) (kernel : PageDirectory) (arena : Arena)
    (blocks : List Reservation) : Prop where
  issued : ∃ first, Arena.pastImage info.kernelEnd info.modulesEnd info.placementLimit = .ok first ∧
    first.Issued blocks arena
  serve : ∃ bitmap : Nat,
    .framesCounted (info.memoryEnd / frameSize) (FramePool.wordsFor (info.memoryEnd / frameSize))
      bitmap ∈ (KernelMemory.boot info).events ∧
    blocks.Perm (kernel.tableAddrs.map .ofTable ++ [⟨kernel.phys, directoryBytes⟩,
      ⟨bitmap, FramePool.wordsFor (info.memoryEnd / frameSize) * FramePool.wordSize⟩])

namespace Stocked

variable {info : BootInfo} {kernel : PageDirectory} {arena : Arena} {blocks : List Reservation}
  {block : Reservation} {memory memory' : KernelMemory}

theorem within (h : Stocked info kernel arena blocks) (hm : block ∈ blocks) :
    info.staticStart ≤ block.addr ∧ 0 < block.size ∧ block.stop ≤ info.placementLimit := by
  obtain ⟨first, hfirst, hissued⟩ := h.issued
  obtain ⟨-, hfits, hlimit⟩ := Arena.pastImage_eq_ok hfirst
  obtain ⟨hlow, hpos, hhigh⟩ := hissued.between hfits hm
  obtain ⟨-, hcursor, hsame⟩ := hissued.bounds hfits
  rw [Arena.pastImage_cursor hfirst] at hlow
  exact ⟨hlow, hpos, by omega⟩

theorem inside (h : Stocked info kernel arena blocks) (hm : block ∈ blocks) :
    info.kernelEnd ≤ block.addr ∧ info.modulesEnd ≤ block.addr ∧ 0 < block.size ∧
      block.stop ≤ info.placementLimit := by
  obtain ⟨hlow, hpos, hhigh⟩ := h.within hm
  have hpast := Nat.le_trans (le_pageUp _) hlow
  exact ⟨Nat.le_trans (Nat.le_max_left _ _) hpast, Nat.le_trans (Nat.le_max_right _ _) hpast, hpos,
    hhigh⟩

theorem apart (h : Stocked info kernel arena blocks) :
    blocks.Pairwise fun a b => a.stop ≤ b.addr ∨ b.stop ≤ a.addr := by
  obtain ⟨first, hfirst, hissued⟩ := h.issued
  exact (hissued.ordered (Arena.pastImage_eq_ok hfirst).2.1).imp Or.inr

theorem table_mem (h : Stocked info kernel arena blocks) {table : Nat}
    (hm : table ∈ kernel.tableAddrs) : Reservation.ofTable table ∈ blocks := by
  obtain ⟨bitmap, -, hserve⟩ := h.serve
  exact hserve.mem_iff.mpr (List.mem_append_left _ (List.mem_map_of_mem hm))

theorem distinct (h : Stocked info kernel arena blocks) : kernel.tableAddrs.Nodup := by
  obtain ⟨bitmap, -, hserve⟩ := h.serve
  have hapart := (hserve.pairwise h.apart Or.symm).sublist (List.sublist_append_left _ _)
  rw [List.pairwise_map] at hapart
  refine hapart.imp fun {a b} hab => ?_
  simp only [Reservation.ofTable, Reservation.stop] at hab
  have hpos : 0 < tableBytes := by decide
  omega

/-- The kernel directory takes static memory, so what is left does not begin at 0. -/
theorem cursor_pos (h : Stocked info kernel arena blocks) : 0 < arena.cursor := by
  obtain ⟨bitmap, -, hserve⟩ := h.serve
  obtain ⟨first, hfirst, hissued⟩ := h.issued
  have hdirectory : (⟨kernel.phys, directoryBytes⟩ : Reservation) ∈ blocks :=
    hserve.mem_iff.mpr (by simp)
  have hbehind := (hissued.between (Arena.pastImage_eq_ok hfirst).2.1 hdirectory).2.2
  exact Nat.lt_of_lt_of_le (Nat.add_pos_right kernel.phys (by decide : 0 < directoryBytes)) hbehind

end Stocked

theorem stocked_boot {info : BootInfo} {memory : KernelMemory}
    (h : (KernelMemory.boot info).result = .ok memory) :
    memory.arena.limit = info.placementLimit ∧
      memory.space.frames.total = info.memoryEnd / frameSize ∧
      memory.space.directory.tableAddrs = [] ∧
      ∃ blocks, Stocked info memory.space.directory memory.arena blocks := by
  have hevents : ∀ (arena bitmapArena : Arena) (bitmap : Placement),
      Arena.pastImage info.kernelEnd info.modulesEnd info.placementLimit = .ok arena →
      arena.reserve (FramePool.wordsFor (info.memoryEnd / frameSize) * FramePool.wordSize)
        .natural = .ok (bitmap, bitmapArena) →
      .framesCounted (info.memoryEnd / frameSize)
        (FramePool.wordsFor (info.memoryEnd / frameSize)) bitmap.addr ∈
          (KernelMemory.boot info).events := by
    intro arena bitmapArena bitmap harena hbitmap
    simp [KernelMemory.boot, FramePool.carve, Traced.events_bind, harena, hbitmap, Traced.note]
  unfold KernelMemory.boot FramePool.carve at h
  simp only [Traced.result_bind, Traced.result_lift, Traced.result_note, ok_bind] at h
  obtain ⟨arena, harena, h⟩ := bind_eq_ok h
  obtain ⟨⟨frames, arena₂⟩, hcarve, h⟩ := bind_eq_ok h
  obtain ⟨⟨bitmap, arena₁⟩, hbitmap, hcarve⟩ := bind_eq_ok hcarve
  obtain ⟨pool, hpool, hcarve⟩ := bind_eq_ok hcarve
  obtain ⟨rfl, rfl⟩ := Prod.mk.injEq .. ▸ Except.ok.inj hcarve
  obtain ⟨⟨place, arena₃⟩, hplace, h⟩ := bind_eq_ok h
  obtain ⟨⟨directory, ram⟩, hdirectory, h⟩ := bind_eq_ok h
  obtain rfl := Except.ok.inj h
  have hissued := (Arena.Issued.nothing.reserved hbitmap).reserved hplace
  obtain ⟨-, hfits, hlimit⟩ := Arena.pastImage_eq_ok harena
  have hempty : directory = .empty place.addr := by
    rw [← Arena.reserve_phys hplace]
    unfold PageDirectory.place at hdirectory
    split at hdirectory
    · exact (Prod.mk.inj (Except.ok.inj hdirectory)).1.symm
    · simp at hdirectory
  refine ⟨(hissued.bounds hfits).2.2.trans hlimit, ?_, by simp [hempty], _,
    ⟨arena, harena, hissued⟩, bitmap.addr, hevents arena arena₁ bitmap harena hbitmap, ?_⟩
  · unfold FramePool.cleared at hpool
    split at hpool
    · obtain rfl := Except.ok.inj hpool
      rfl
    · simp at hpool
  · rw [hempty, PageDirectory.tableAddrs_empty]
    exact .refl _

/-! ## Making tables -/

namespace KernelMemory

variable {info : BootInfo} {blocks : List Reservation} {memory memory' : KernelMemory} {virt : Nat}
  {found : Option EntryRef}

/-- A kernel entry is there, or its table is made in the next block of static memory. The table
would be refused if static memory began at 0. -/
theorem ensureEntry_eq_ok (h : (memory.ensureEntry virt).result = .ok (found, memory')) :
    (∃ ref, memory.space.directory.find? virt = some ref ∧ found = some ref ∧ memory' = memory) ∨
      memory.space.directory.slots.get (tableIndex virt) = none ∧ ∃ place arena,
        memory.arena.reserve tableBytes .page = .ok (place, arena) ∧ memory'.arena = arena ∧
          memory'.space.ram = memory.space.ram.clearTable place.addr ∧
          memory'.space.frames = memory.space.frames ∧ memory'.heap = memory.heap ∧
          (place.addr = 0 ∨ found = some ⟨place.addr, pageIndex virt⟩ ∧
            memory'.space.directory = memory.space.directory.setSlot (tableIndex virt)
              (some ⟨place.addr, place.phys, false⟩)) := by
  unfold ensureEntry at h
  rw [Traced.result_bind] at h
  obtain ⟨⟨ref, directory, arena, ram⟩, hensure, h⟩ := bind_eq_ok h
  obtain ⟨rfl, rfl⟩ := Prod.mk.injEq .. ▸ Except.ok.inj h
  rcases PageDirectory.ensure_eq_ok hensure with ⟨ref, hfind, rfl, rfl, hsame⟩ |
    ⟨hempty, ⟨cause, hgrant, rfl, rfl⟩ | ⟨slot, hgrant, rfl, rfl⟩⟩
  · obtain ⟨rfl, rfl⟩ := Prod.mk.inj hsame
    exact .inl ⟨ref, hfind, rfl, rfl⟩
  · obtain ⟨place, hreserve, rfl, ⟨hzero, -⟩ | hanswer⟩ := Arena.grantTable_reserves hgrant
    · exact .inr ⟨hempty, place, arena, hreserve, rfl, rfl, rfl, rfl, .inl hzero⟩
    · cases hanswer
  · obtain ⟨place, hreserve, rfl, ⟨-, hanswer⟩ | hanswer⟩ := Arena.grantTable_reserves hgrant
    · cases hanswer
    · obtain rfl := Except.ok.inj hanswer
      exact .inr ⟨hempty, place, arena, hreserve, rfl, rfl, rfl, rfl, .inr ⟨rfl, rfl⟩⟩

theorem ensureEntry_stocked (h : Stocked info memory.space.directory memory.arena blocks)
    (hensure : (memory.ensureEntry virt).result = .ok (found, memory')) :
    found.isSome ∧ ∃ blocks', Stocked info memory'.space.directory memory'.arena blocks' := by
  rcases ensureEntry_eq_ok hensure with ⟨ref, -, rfl, rfl⟩ |
    ⟨hempty, place, arena, hreserve, harena, -, -, -, hzero | ⟨rfl, hdirectory⟩⟩
  · exact ⟨rfl, blocks, h⟩
  · have hbehind := (Arena.reserve_eq_ok hreserve).1
    have hpos := h.cursor_pos
    omega
  · obtain ⟨first, hfirst, hissued⟩ := h.issued
    obtain ⟨bitmap, hcounted, hserve⟩ := h.serve
    refine ⟨rfl, _, ⟨first, hfirst, harena ▸ hissued.reserved hreserve⟩, bitmap, hcounted, ?_⟩
    have hperm := PageDirectory.tableAddrs_setSlot ⟨place.addr, place.phys, false⟩ hempty
    rw [hdirectory]
    exact (hserve.cons _).trans ((hperm.map Reservation.ofTable).append_right _).symm

/-! ## Calls that take nothing -/

theorem tryAlloc_arena {size : Nat} {pageAligned : Bool} {answer : Except HeapError Nat}
    (h : (memory.tryAlloc size pageAligned).result = .ok (answer, memory')) :
    memory'.arena = memory.arena := by
  unfold tryAlloc at h
  split at h
  · obtain ⟨-, rfl⟩ := Prod.mk.injEq .. ▸ Except.ok.inj h
    rfl
  · rw [Traced.result_bind] at h
    obtain ⟨⟨_, heap, space⟩, -, h⟩ := bind_eq_ok h
    obtain ⟨-, rfl⟩ := Prod.mk.injEq .. ▸ Except.ok.inj h
    rfl

theorem free_arena {addr : Nat} (h : (memory.free addr).result = .ok memory') :
    memory'.arena = memory.arena := by
  unfold free at h
  split at h
  · simp at h
  · rw [Traced.result_bind] at h
    obtain ⟨⟨heap, space⟩, -, h⟩ := bind_eq_ok h
    obtain rfl := Except.ok.inj h
    rfl

theorem resolveFault_arena {addr error : Nat} {answer : Option PageFaultError}
    (h : (memory.resolveFault addr error).result = .ok (answer, memory')) :
    memory'.arena = memory.arena := by
  cases hheap : memory.heap with
  | none => rw [(resolveFault_heapless hheap h).1]
  | some heap =>
      rcases resolveFault_maps hheap h with ⟨rfl, -⟩ | ⟨-, -, hsame, -⟩
      · rfl
      · rw [hsame]

theorem createSpace_arena {answer : Except HeapError AddressSpace}
    (h : memory.createSpace.result = .ok (answer, memory')) :
    memory'.arena = memory.arena ∧ ∀ made, answer = .ok made → made.directory.ownAddrs = [] := by
  rcases createSpace_eq_ok h with ⟨cause, halloc, rfl⟩ | ⟨addr, granted, halloc, hends⟩
  · exact ⟨tryAlloc_arena halloc, by simp⟩
  · rcases hends with ⟨-, hfree, rfl⟩ | ⟨phys, rfl, rfl⟩
    · exact ⟨(free_arena hfree).trans (tryAlloc_arena halloc), by simp⟩
    · refine ⟨by rw [← tryAlloc_arena halloc], ?_⟩
      rintro made hanswer
      obtain rfl := Except.ok.inj hanswer
      exact PageDirectory.ownAddrs_link_empty phys _

theorem mapRange_arena {made made' : AddressSpace} {start stop : Nat} {flags : HeapFlags}
    {answer : Option PagingError}
    (h : (memory.mapRange made start stop flags).result = .ok (answer, made', memory')) :
    memory'.arena = memory.arena ∧ made'.addr = made.addr := by
  unfold mapRange at h
  split at h
  · obtain ⟨-, rfl, rfl⟩ := by simpa using h
    exact ⟨rfl, rfl⟩
  · rw [Traced.result_bind] at h
    obtain ⟨⟨refused, directory, heap, space⟩, -, h⟩ := bind_eq_ok h
    obtain ⟨-, rfl, rfl⟩ := by simpa using h
    exact ⟨rfl, rfl⟩

theorem destroySpace_arena {made : AddressSpace}
    (h : (memory.destroySpace made).result = .ok memory') : memory'.arena = memory.arena := by
  cases hheap : memory.heap with
  | none => simp [destroySpace, hheap] at h
  | some heap =>
      obtain ⟨released, space, -, hfree⟩ := destroySpace_eq_ok hheap h
      rw [free_arena hfree]

end KernelMemory

end KernelCore
