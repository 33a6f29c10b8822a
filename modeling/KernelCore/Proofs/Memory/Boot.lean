import Mathlib
import KernelCore.Boot
import KernelCore.Proofs.Memory.Spaces

/-!
# Kernel memory before its heap

During boot the kernel's tables are static memory and every mapping is an identity mapping, so a
frame that is in use is mapped at its own address and nowhere else. Mapping another page therefore
never takes a frame that is already owned.
-/

namespace KernelCore

/-! ## Static memory -/

theorem Word.le_alignUp {addr align aligned : Nat} (h : Word.alignUp addr align = .ok aligned) :
    addr ≤ aligned := by
  unfold Word.alignUp at h
  obtain ⟨past, hpast, h⟩ := bind_eq_ok h
  obtain ⟨last, hlast, h⟩ := bind_eq_ok h
  obtain ⟨mask, hmask, h⟩ := bind_eq_ok h
  obtain rfl := Except.ok.inj h
  unfold Word.add at hpast
  unfold Word.sub at hlast hmask
  split at hpast
  · obtain rfl := Except.ok.inj hpast
    split at hlast
    · obtain rfl := Except.ok.inj hlast
      split at hmask
      · obtain rfl := Except.ok.inj hmask
        have hmasked : (addr + align - 1) &&& (align - 1) ≤ align - 1 := Nat.and_le_right
        unfold Word.clear
        omega
      · contradiction
    · contradiction
  · contradiction

namespace Arena

variable {arena arena' : Arena} {size : Nat} {alignment : Alignment} {place : Placement}

/-- A reservation lies behind all earlier ones and within the limit. -/
theorem reserve_eq_ok (h : arena.reserve size alignment = .ok (place, arena')) :
    arena.cursor ≤ place.addr ∧ 0 < size ∧ arena'.cursor = place.addr + size ∧
      arena'.cursor ≤ arena'.limit ∧ arena'.limit = arena.limit := by
  unfold reserve at h
  by_cases hzero : size = 0
  · simp [hzero] at h
  simp only [hzero, if_false] at h
  obtain ⟨align, -, h⟩ := bind_eq_ok h
  obtain ⟨addr, haddr, h⟩ := bind_eq_ok h
  split at h
  · next stop hstop =>
      obtain ⟨rfl, rfl⟩ := Prod.mk.injEq .. ▸ Except.ok.inj h
      obtain ⟨hsum, hfits⟩ := Option.filter_eq_some_iff.mp hstop
      obtain ⟨-, heq⟩ := Option.ite_none_right_eq_some.mp hsum
      obtain rfl := Option.some.inj heq
      exact ⟨Word.le_alignUp haddr, Nat.pos_of_ne_zero hzero, rfl, of_decide_eq_true hfits, rfl⟩
  · simp at h

theorem pastImage_eq_ok {kernelEnd modulesEnd limit : Nat}
    (h : pastImage kernelEnd modulesEnd limit = .ok arena) :
    kernelEnd ≤ arena.cursor ∧ arena.cursor ≤ arena.limit ∧ arena.limit = limit := by
  unfold pastImage at h
  obtain ⟨base, hbase, h⟩ := bind_eq_ok h
  split at h
  · next hfits =>
      obtain rfl := Except.ok.inj h
      have hle := Word.le_alignUp hbase
      exact ⟨Nat.le_trans (Nat.le_max_left _ _) hle, hfits, rfl⟩
  · simp at h

end Arena

/-! ## Booted memory -/

/-- Kernel memory that so far holds identity mappings only. -/
structure Booted (info : BootInfo) (memory : KernelMemory) : Prop where
  heapless : memory.heap = none
  low : info.kernelEnd ≤ memory.arena.cursor
  high : memory.arena.cursor ≤ memory.arena.limit
  limit_eq : memory.arena.limit = info.placementLimit
  placed : ∀ table ∈ memory.space.directory.tableAddrs,
    info.kernelEnd ≤ table ∧ table < memory.arena.cursor
  distinct : ∀ (i j : Fin entriesPerTable) (a b : TableRef),
    memory.space.directory.slots.get i = some a → memory.space.directory.slots.get j = some b →
      a.table = b.table → i = j
  owned : Owned memory.space.directory.tableAddrs memory.space.ram memory.space.frames
  /-- A present entry maps the frame at the address that the entry covers. -/
  identity : ∀ (index place : Fin entriesPerTable) (slot : TableRef) (number : Nat),
    memory.space.directory.slots.get index = some slot →
      (memory.space.ram.entry ⟨slot.table, place⟩).owns number →
        tableIndex (number * pageSize) = index ∧ pageIndex (number * pageSize) = place

variable {info : BootInfo} {memory memory' : KernelMemory}

theorem booted_boot (h : (KernelMemory.boot info).result = .ok memory) : Booted info memory := by
  unfold KernelMemory.boot FramePool.carve at h
  simp only [Traced.result_bind, Traced.result_lift, Traced.result_note, ok_bind] at h
  obtain ⟨arena, harena, h⟩ := bind_eq_ok h
  obtain ⟨⟨frames, arena₂⟩, hcarve, h⟩ := bind_eq_ok h
  obtain ⟨⟨bitmap, arena₁⟩, hbitmap, hcarve⟩ := bind_eq_ok hcarve
  obtain ⟨pool, hpool, hcarve⟩ := bind_eq_ok hcarve
  obtain ⟨rfl, rfl⟩ := Prod.mk.injEq .. ▸ Except.ok.inj hcarve
  obtain ⟨⟨place, arena₃⟩, hplace, h⟩ := bind_eq_ok h
  obtain ⟨⟨directory, ram⟩, hdirectory, h⟩ := bind_eq_ok h
  obtain rfl := Except.ok.inj h
  obtain ⟨hlow, -, hlimit⟩ := Arena.pastImage_eq_ok harena
  obtain ⟨hfirst, -, hcursor, -, hlimit₁⟩ := Arena.reserve_eq_ok hbitmap
  obtain ⟨hfirst₃, -, hcursor₃, hfits, hlimit₃⟩ := Arena.reserve_eq_ok hplace
  obtain ⟨hsound, -, hbit⟩ := FramePool.sound_cleared hpool
  unfold PageDirectory.place at hdirectory
  split at hdirectory
  · obtain ⟨rfl, rfl⟩ := Prod.mk.injEq .. ▸ Except.ok.inj hdirectory
    simp only at hfirst₃ hlimit₃
    refine ⟨rfl, by simp only; omega, hfits, by simp only; omega, by simp, ?_,
      ⟨hsound, ?_, ?_⟩, ?_⟩
    · intro i j a b ha
      simp at ha
    · intro number
      simp [hbit]
    · intro ref ref' hm
      simp at hm
    · intro index place' slot number hslot
      simp at hslot
  · simp at hdirectory

/-! ## Making tables -/

theorem Arena.grantTable_reserves {arena arena' : Arena} {ram ram' : Ram}
    {answer : Except PagingError TableRef}
    (h : (Arena.tables.grant (arena, ram)).result = .ok (answer, arena', ram')) :
    ∃ place, arena.reserve tableBytes .page = .ok (place, arena') ∧
      ram' = ram.clearTable place.addr ∧
      (place.addr = 0 ∧ answer = .error .outOfTableMemory ∨
        answer = .ok ⟨place.addr, place.phys, false⟩) := by
  change (Arena.grantTable (arena, ram)).result = _ at h
  unfold Arena.grantTable at h
  simp only [Traced.result_bind, Traced.result_lift] at h
  obtain ⟨⟨place, arena₁⟩, hreserve, h⟩ := bind_eq_ok h
  simp only at h
  split at h
  · next hzero =>
      obtain ⟨rfl, rfl, rfl⟩ := by
        simpa only [Traced.result_pure, Except.ok.injEq, Prod.mk.injEq] using h
      exact ⟨place, hreserve, rfl, .inl ⟨hzero, rfl⟩⟩
  · obtain ⟨rfl, rfl, rfl⟩ := by
      simpa only [Traced.result_pure, Except.ok.injEq, Prod.mk.injEq] using h
    exact ⟨place, hreserve, rfl, .inr rfl⟩

/-- Static memory grants what it never granted before. -/
theorem Arena.grantTable_eq_ok {arena arena' : Arena} {ram ram' : Ram}
    {answer : Except PagingError TableRef}
    (h : (Arena.tables.grant (arena, ram)).result = .ok (answer, arena', ram')) :
    ∃ addr, arena.cursor ≤ addr ∧ addr < arena'.cursor ∧ arena'.cursor ≤ arena'.limit ∧
      arena'.limit = arena.limit ∧ ram' = ram.clearTable addr ∧
      ∀ slot, answer = .ok slot → slot.table = addr := by
  obtain ⟨place, hreserve, hram, hanswer⟩ := Arena.grantTable_reserves h
  obtain ⟨hfirst, hpos, hcursor, hfits, hlimit⟩ := Arena.reserve_eq_ok hreserve
  refine ⟨place.addr, hfirst, by omega, hfits, hlimit, hram, fun slot hslot => ?_⟩
  rcases hanswer with ⟨-, rfl⟩ | rfl
  · cases hslot
  · obtain rfl := Except.ok.inj hslot
    rfl

/-- More of static memory is handed out, and cleared. -/
theorem Booted.reserved (h : Booted info memory) {arena : Arena} {addr : Nat}
    (first : memory.arena.cursor ≤ addr) (last : addr < arena.cursor)
    (fits : arena.cursor ≤ arena.limit) (limit : arena.limit = memory.arena.limit) :
    addr ∉ memory.space.directory.tableAddrs ∧ Booted info { memory with
      arena, space := { memory.space with ram := memory.space.ram.clearTable addr } } := by
  have hbehind : ∀ table ∈ memory.space.directory.tableAddrs, table < addr := by
    intro table hm
    exact Nat.lt_of_lt_of_le (h.placed table hm).2 first
  have hfresh : addr ∉ memory.space.directory.tableAddrs := by
    intro hm
    exact Nat.lt_irrefl _ (hbehind addr hm)
  have hlow := h.low
  refine ⟨hfresh, h.heapless, by simp only; omega, fits, limit.trans h.limit_eq, ?_, h.distinct,
    h.owned.clearTable hfresh, ?_⟩
  · intro table hm
    obtain ⟨hlo, hhi⟩ := h.placed table hm
    exact ⟨hlo, by simp only; omega⟩
  · intro index place slot number hslot howns
    have hm := PageDirectory.mem_tableAddrs.mpr ⟨index, slot, hslot, rfl⟩
    simp only at howns
    rw [entry_clearTable, if_neg (Nat.ne_of_gt (hbehind _ hm))] at howns
    exact h.identity index place slot number hslot howns

theorem Booted.setSlot (h : Booted info memory) {index : Fin entriesPerTable} {slot : TableRef}
    (empty : memory.space.directory.slots.get index = none) (low : info.kernelEnd ≤ slot.table)
    (high : slot.table < memory.arena.cursor)
    (fresh : slot.table ∉ memory.space.directory.tableAddrs)
    (blank : ∀ place, (memory.space.ram.entry ⟨slot.table, place⟩).present = false) :
    Booted info { memory with space := { memory.space with
      directory := memory.space.directory.setSlot index (some slot) } } := by
  have hperm := PageDirectory.tableAddrs_setSlot slot empty
  have hold : ∀ (i : Fin entriesPerTable) (a : TableRef),
      memory.space.directory.slots.get i = some a → a.table ≠ slot.table := by
    intro i a ha hsame
    exact fresh (PageDirectory.mem_tableAddrs.mpr ⟨i, a, ha, hsame⟩)
  refine ⟨h.heapless, h.low, h.high, h.limit_eq, ?_, ?_,
    ((owned_cons_iff blank).mpr h.owned).perm hperm.symm fun _ _ => rfl, ?_⟩
  · intro table hm
    rcases List.mem_cons.mp (hperm.mem_iff.mp hm) with rfl | hm
    · exact ⟨low, high⟩
    · exact h.placed table hm
  · intro i j a b ha hb hsame
    rcases PageDirectory.slots_setSlot_eq_some ha with ⟨rfl, rfl⟩ | hold_a
    · rcases PageDirectory.slots_setSlot_eq_some hb with ⟨rfl, -⟩ | hold_b
      · rfl
      · exact absurd hsame.symm (hold j b hold_b)
    · rcases PageDirectory.slots_setSlot_eq_some hb with ⟨rfl, rfl⟩ | hold_b
      · exact absurd hsame (hold i a hold_a)
      · exact h.distinct i j a b hold_a hold_b hsame
  · intro i place named number hnamed howns
    rcases PageDirectory.slots_setSlot_eq_some hnamed with ⟨rfl, rfl⟩ | hnamed
    · exact absurd howns (PageEntry.not_owns (blank place) number)
    · exact h.identity i place named number hnamed howns

theorem Booted.ensureEntry (h : Booted info memory) {virt : Nat} {found : Option EntryRef}
    (hensure : (memory.ensureEntry virt).result = .ok (found, memory')) :
    Booted info memory' ∧ ∀ ref, found = some ref →
      ∃ slot, memory'.space.directory.slots.get (tableIndex virt) = some slot ∧
        ref = ⟨slot.table, pageIndex virt⟩ := by
  unfold KernelMemory.ensureEntry PageDirectory.ensure at hensure
  cases hfind : memory.space.directory.find? virt with
  | some ref =>
      simp only [hfind, Traced.pure_bind, Traced.result_pure, Except.ok.injEq,
        Prod.mk.injEq] at hensure
      obtain ⟨rfl, rfl⟩ := hensure
      refine ⟨h, fun other hother => ?_⟩
      obtain rfl := Option.some.inj hother
      exact PageDirectory.find?_eq_some hfind
  | none =>
      have hempty := PageDirectory.find?_eq_none hfind
      simp only [hfind, Traced.result_bind] at hensure
      obtain ⟨⟨found₁, directory, arena, ram⟩, hgranted, hensure⟩ := bind_eq_ok hensure
      obtain ⟨⟨answer, arena₁, ram₁⟩, hgrant, hgranted⟩ := bind_eq_ok hgranted
      obtain ⟨addr, hfirst, hlast, hfits, hlimit, rfl, hanswer⟩ := Arena.grantTable_eq_ok hgrant
      obtain ⟨hfresh, hreserved⟩ := h.reserved hfirst hlast hfits hlimit
      cases answer with
      | error cause =>
          simp only [Traced.result_bind, Traced.result_note, ok_bind, Traced.result_pure,
            Except.ok.injEq, Prod.mk.injEq] at hgranted hensure
          obtain ⟨rfl, rfl, rfl, rfl⟩ := hgranted
          obtain ⟨rfl, rfl⟩ := hensure
          exact ⟨hreserved, by simp⟩
      | ok slot =>
          obtain rfl := hanswer slot rfl
          simp only [Traced.result_pure, Except.ok.injEq, Prod.mk.injEq] at hgranted hensure
          obtain ⟨rfl, rfl, rfl, rfl⟩ := hgranted
          obtain ⟨rfl, rfl⟩ := hensure
          refine ⟨hreserved.setSlot hempty (Nat.le_trans h.low hfirst) hlast hfresh
            (present_clearTable _ _), fun ref href => ?_⟩
          obtain rfl := Option.some.inj href
          exact ⟨slot, by rw [PageDirectory.slots_setSlot, if_pos rfl], rfl⟩

/-! ## Identity mappings -/

theorem tableIndex_frame (addr : Nat) :
    tableIndex (addr / frameSize * pageSize) = tableIndex addr := by
  unfold tableIndex tableSpan frameSize pageSize entriesPerTable
  congr 2
  omega

theorem pageIndex_frame (addr : Nat) :
    pageIndex (addr / frameSize * pageSize) = pageIndex addr := by
  unfold pageIndex frameSize pageSize
  congr 2
  omega

theorem Booted.mapEntry (h : Booted info memory) {page : Nat} {slot : TableRef}
    (hslot : memory.space.directory.slots.get (tableIndex page) = some slot) {space : KernelSpace}
    (hmap : memory.space.mapEntry ⟨slot.table, pageIndex page⟩ page = .ok space) :
    Booted info { memory with space } := by
  have hmem : slot.table ∈ memory.space.directory.tableAddrs :=
    PageDirectory.mem_tableAddrs.mpr ⟨_, slot, hslot, rfl⟩
  -- The only entry that could map the frame already is the one to be changed.
  have hfree : (memory.space.ram.entry ⟨slot.table, pageIndex page⟩).present = false →
      memory.space.frames.bit (page / frameSize) = false := by
    intro habsent
    by_contra hbit
    obtain ⟨⟨table, place⟩, hm, howns⟩ := (h.owned.used _).mp (by simpa using hbit)
    obtain ⟨index, other, hother, rfl⟩ := PageDirectory.mem_tableAddrs.mp hm
    obtain ⟨rfl, rfl⟩ := h.identity index place other _ hother howns
    rw [tableIndex_frame, hslot] at hother
    obtain rfl := Option.some.inj hother
    rw [pageIndex_frame] at howns
    exact PageEntry.not_owns habsent _ howns
  unfold KernelSpace.mapEntry at hmap
  obtain ⟨⟨entry, frames⟩, hmapped, hmap⟩ := bind_eq_ok hmap
  obtain rfl := Except.ok.inj hmap
  obtain ⟨hsound, hx, hentry⟩ := h.owned.sound.map hfree hmapped
  refine ⟨h.heapless, h.low, h.high, h.limit_eq, h.placed, h.distinct,
    h.owned.exchange hmem hsound hx, ?_⟩
  intro index place other number hother howns
  simp only at hother howns
  rw [Ram.entry_setEntry] at howns
  split at howns
  · next heq =>
      obtain ⟨htable, rfl⟩ := EntryRef.mk.inj heq
      rcases hentry with rfl | hnew
      · rw [heq] at howns
        exact h.identity index _ other number hother howns
      · obtain rfl := h.distinct _ _ slot other hslot hother htable
        rw [← hnew.unique howns]
        exact ⟨tableIndex_frame page, pageIndex_frame page⟩
  · exact h.identity index place other number hother howns

/-- Identity mapping goes page by page: a table is made if there is none, and the entry is mapped. -/
theorem KernelMemory.identityMap_preserves {P : KernelMemory → Prop}
    (step : ∀ {page s prepared ref space}, P s →
      (s.ensureEntry page).result = .ok (some ref, prepared) →
      prepared.space.mapEntry ref page = .ok space → P { prepared with space })
    (holds : P memory) {start stop : Nat}
    (hmap : (memory.identityMap start stop).result = .ok memory') : P memory' := by
  unfold KernelMemory.identityMap at hmap
  simp only [Traced.result_bind, Traced.result_lift] at hmap
  obtain ⟨last, -, hmap⟩ := bind_eq_ok hmap
  refine Traced.sweepAll_preserves (P := P) ?_ holds hmap
  intro page s t hs hvisit
  unfold KernelMemory.identityMapPage at hvisit
  rw [Traced.result_bind] at hvisit
  obtain ⟨⟨found, prepared⟩, hensure, hvisit⟩ := bind_eq_ok hvisit
  cases found with
  | none => simp at hvisit
  | some ref =>
      simp only [Traced.result_bind, Traced.result_lift] at hvisit
      obtain ⟨space, hspace, hvisit⟩ := bind_eq_ok hvisit
      obtain rfl := Except.ok.inj hvisit
      exact step hs hensure hspace

theorem Booted.identityMap (h : Booted info memory) {start stop : Nat}
    (hmap : (memory.identityMap start stop).result = .ok memory') : Booted info memory' := by
  refine KernelMemory.identityMap_preserves (P := Booted info) ?_ h hmap
  intro page s prepared ref space hs hensure hspace
  obtain ⟨hprepared, hfound⟩ := hs.ensureEntry hensure
  obtain ⟨slot, hslot, rfl⟩ := hfound ref rfl
  exact hprepared.mapEntry hslot hspace

/-! ## The heap -/

/-- Creating a heap first makes the tables of its window; it may come to an end there. -/
theorem KernelMemory.createHeap_eq_ok {P : KernelMemory → Prop}
    (ensures : ∀ {virt s found t}, P s → (s.ensureEntry virt).result = .ok (found, t) → P t)
    (holds : P memory) {start stop maxSize : Nat} {flags : HeapFlags}
    {answer : Except HeapError Heap}
    (hcreate : (memory.createHeap start stop maxSize flags).result = .ok (answer, memory')) :
    ((∃ cause, answer = .error cause) ∧ P memory') ∨
      ∃ prepared, P prepared ∧ memory' = { prepared with space := memory'.space } ∧
        (Heap.create KernelSpace.mapper start stop maxSize flags prepared.space).result =
          .ok (answer, memory'.space) := by
  unfold KernelMemory.createHeap at hcreate
  cases hlimit : Word.add? start maxSize with
  | none =>
      simp only [hlimit, Traced.result_pure, Except.ok.injEq, Prod.mk.injEq] at hcreate
      obtain ⟨rfl, rfl⟩ := hcreate
      exact .inl ⟨⟨_, rfl⟩, holds⟩
  | some limit =>
      simp only [hlimit, Traced.result_bind] at hcreate
      obtain ⟨⟨refused, prepared⟩, hsweep, hcreate⟩ := bind_eq_ok hcreate
      have hprepared : P prepared := by
        refine Traced.sweep_preserves (P := P) ?_ holds hsweep
        intro virt s refusal t hs hvisit
        unfold KernelMemory.ensureTable at hvisit
        rw [Traced.result_bind] at hvisit
        obtain ⟨⟨found, made⟩, hensure, hvisit⟩ := bind_eq_ok hvisit
        obtain ⟨-, rfl⟩ := Prod.mk.injEq .. ▸ Except.ok.inj hvisit
        exact ensures hs hensure
      cases refused with
      | some cause =>
          simp only [Traced.result_pure, Except.ok.injEq, Prod.mk.injEq] at hcreate
          obtain ⟨rfl, rfl⟩ := hcreate
          exact .inl ⟨⟨_, rfl⟩, hprepared⟩
      | none =>
          simp only [Traced.result_bind] at hcreate
          obtain ⟨⟨answer, space⟩, hcreated, hcreate⟩ := bind_eq_ok hcreate
          obtain ⟨rfl, rfl⟩ := Prod.mk.injEq .. ▸ Except.ok.inj hcreate
          exact .inr ⟨prepared, hprepared, rfl, hcreated⟩

theorem Booted.createHeap_eq_ok (h : Booted info memory) {start stop maxSize : Nat}
    {flags : HeapFlags} {answer : Except HeapError Heap}
    (hcreate : (memory.createHeap start stop maxSize flags).result = .ok (answer, memory')) :
    ((∃ cause, answer = .error cause) ∧ Booted info memory') ∨
      ∃ prepared, Booted info prepared ∧ memory' = { prepared with space := memory'.space } ∧
        (Heap.create KernelSpace.mapper start stop maxSize flags prepared.space).result =
          .ok (answer, memory'.space) :=
  KernelMemory.createHeap_eq_ok (fun hs hensure => (hs.ensureEntry hensure).1) h hcreate

theorem Booted.createHeap (h : Booted info memory) {start stop maxSize : Nat} {flags : HeapFlags}
    {heap : Heap}
    (hcreate : (memory.createHeap start stop maxSize flags).result = .ok (.ok heap, memory')) :
    ∃ prepared, Booted info prepared ∧ memory' = { prepared with space := memory'.space } ∧
      Heap.Created KernelSpace.mapper start stop maxSize flags prepared.space heap
        memory'.space := by
  rcases h.createHeap_eq_ok hcreate with ⟨⟨cause, hanswer⟩, -⟩ |
    ⟨prepared, hprepared, hsame, hcreated⟩
  · cases hanswer
  · exact ⟨prepared, hprepared, hsame, Heap.create_eq_ok hcreated⟩

theorem KernelMemory.enableHeap_eq_ok {heap : Heap}
    (h : (memory.enableHeap heap).result = .ok memory') :
    memory' = { memory with heap := some heap } := by
  unfold KernelMemory.enableHeap at h
  split at h
  · simp at h
  · simp only [Traced.result_bind, Traced.result_note, ok_bind] at h
    exact (Except.ok.inj h).symm

theorem Booted.enableHeap_eq_ok (h : Booted info memory) {start stop maxSize : Nat}
    {flags : HeapFlags} {heap : Heap} {created : KernelMemory}
    (hcreate : (memory.createHeap start stop maxSize flags).result = .ok (.ok heap, created))
    (henable : (created.enableHeap heap).result = .ok memory') :
    ∃ prepared, Booted info prepared ∧ memory'.heap = some heap ∧
      Heap.Created KernelSpace.mapper start stop maxSize flags prepared.space heap
        memory'.space := by
  obtain ⟨prepared, hprepared, -, hcreated⟩ := h.createHeap hcreate
  obtain rfl := KernelMemory.enableHeap_eq_ok henable
  exact ⟨prepared, hprepared, rfl, hcreated⟩

/-- A heap outside static memory is put to use with no block held by anyone. -/
theorem Booted.enableHeap (h : Booted info memory) {start stop maxSize : Nat} {flags : HeapFlags}
    {heap : Heap} {created : KernelMemory}
    (apart : start + maxSize ≤ info.kernelEnd ∨ info.placementLimit ≤ start)
    (hcreate : (memory.createHeap start stop maxSize flags).result = .ok (.ok heap, created))
    (henable : (created.enableHeap heap).result = .ok memory') :
    memory'.Keeps memory'.space.directory [] [] := by
  obtain ⟨prepared, hprepared, hheap, hcreated⟩ := h.enableHeap_eq_ok hcreate henable
  have hholds : memory'.space.Holds prepared.space.directory prepared.space.directory.tableAddrs :=
    KernelSpace.Holds.map ⟨rfl, hprepared.owned⟩ (List.Subset.refl _) hcreated.backing
  refine ⟨heap, hheap, ?_⟩
  rw [hholds.same]
  refine ⟨hcreated.valid, by simpa using hholds, ?_, ?_, by simp, by simp⟩
  · exact PageDirectory.nodup_tableAddrs hprepared.distinct
  · intro table hm
    obtain ⟨hlow, hhigh⟩ := hprepared.placed table hm
    have hlimit := hprepared.limit_eq
    have harena := hprepared.high
    rw [hcreated.start_eq, hcreated.limit_eq]
    omega

end KernelCore
