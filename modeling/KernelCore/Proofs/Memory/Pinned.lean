import Mathlib
import KernelCore.Proofs.Memory.Privacy
import KernelCore.Proofs.Memory.Reservations

/-!
# Pages that are pinned to their frames

The kernel maps itself: every page below the arena's limit onto the frame of the same number. As the
sweep comes by a page, the pages before it are mapped and no later frame is in use, so the page is
absent and gets its frame. The tables for this are made in the memory that is being mapped. Making
more tables afterwards, for the window of a heap, changes no entry there is.
-/

namespace KernelCore

def KernelSpace.Pins (space : KernelSpace) (last : Nat) : Prop :=
  ∀ number < last, ∃ ref, space.directory.find? (number * pageSize) = some ref ∧
    (space.ram.entry ref).owns number

namespace KernelSpace

variable {space space' : KernelSpace} {last virt : Nat} {touched : EntryRef → Prop}

theorem Pins.translate (h : space.Pins last) (below : virt < last * pageSize) :
    space.translate virt = some virt := by
  obtain ⟨ref, hfind, hpresent, hframe⟩ :=
    h (virt / pageSize) (Nat.div_lt_of_lt_mul (Nat.mul_comm last pageSize ▸ below))
  rw [← pageFloor_eq, PageDirectory.find?_pageFloor] at hfind
  refine PageDirectory.translate_eq_some.mpr ⟨ref, hfind, hpresent, ?_⟩
  unfold PageEntry.frame at hframe ⊢
  rw [pageFloor_eq] at hframe ⊢
  unfold frameSize pageSize at *
  omega

theorem Pins.spared (h : space.Pins last) (spares : space.Spares touched space')
    (apart : ∀ number < last, ∀ ref, space.directory.find? (number * pageSize) = some ref →
      ¬touched ref) : space'.Pins last := by
  intro number hlast
  obtain ⟨ref, hfind, howns⟩ := h number hlast
  exact ⟨ref, spares.same ▸ hfind, spares.entries ref (apart number hlast ref hfind) ▸ howns⟩

variable {tables : List Nat} {number : Nat} {ref : EntryRef}

/-- The frame of a pinned page belongs to that page's entry alone. -/
theorem Pins.find? (h : space.Pins last)
    (owned : Owned (space.directory.tableAddrs ++ tables) space.ram space.frames)
    (below : number < last) (hm : ref.table ∈ space.directory.tableAddrs ++ tables)
    (howns : (space.ram.entry ref).owns number) :
    space.directory.find? (number * pageSize) = some ref := by
  obtain ⟨pinned, hfind, hpinned⟩ := h number below
  have hpm := List.mem_append_left tables (PageDirectory.find?_mem hfind)
  rw [hfind, owned.unique pinned ref hpm hm number hpinned howns]

theorem Pins.isUsed (h : space.Pins last)
    (owned : Owned (space.directory.tableAddrs ++ tables) space.ram space.frames) {addr : Nat}
    (below : addr < last * pageSize) : space.frames.isUsed addr = .ok true := by
  obtain ⟨ref, hfind, howns⟩ := h (addr / pageSize)
    (Nat.div_lt_of_lt_mul (Nat.mul_comm last pageSize ▸ below))
  have hbit : space.frames.bit (addr / frameSize) = true :=
    (owned.used _).mpr ⟨ref, List.mem_append_left _ (PageDirectory.find?_mem hfind), howns⟩
  simp [FramePool.isUsed, FramePool.isUsedNumber, FramePool.checkNumber,
    owned.sound.lt_total hbit, hbit]

theorem Pins.take (h : space.Pins last)
    (owned : Owned (space.directory.tableAddrs ++ tables) space.ram space.frames) {frame : Nat}
    {rest : FramePool} (htake : space.frames.take = .ok (some frame, rest)) :
    last * pageSize ≤ frame := by
  obtain ⟨-, -, ⟨hnone, -⟩ | ⟨number, hfound, hfree, -⟩⟩ := owned.sound.take htake
  · cases hnone
  obtain rfl := Option.some.inj hfound
  refine Nat.mul_le_mul_right _ (Nat.le_of_not_lt fun hbelow => ?_)
  obtain ⟨ref, hfind, howns⟩ := h number hbelow
  have hused := (owned.used number).mpr
    ⟨ref, List.mem_append_left _ (PageDirectory.find?_mem hfind), howns⟩
  rw [hfree] at hused
  contradiction

/-- No other byte of the kernel's lies in a pinned frame. -/
theorem Pins.alone (h : space.Pins last)
    (owned : Owned (space.directory.tableAddrs ++ tables) space.ram space.frames)
    (distinct : space.directory.tableAddrs.Nodup) (fits : last * pageSize ≤ addressSpan)
    {phys : Nat} (narrow : virt < addressSpan) (hphys : space.translate virt = some phys)
    (below : phys < last * pageSize) : virt = phys := by
  obtain ⟨ref, hfind, howns, hplace⟩ := PageDirectory.owns_of_translate hphys
  have hlast : phys / frameSize < last :=
    Nat.div_lt_of_lt_mul (Nat.mul_comm last frameSize ▸ below)
  have hpinned := h.find? owned hlast (List.mem_append_left _ (PageDirectory.find?_mem hfind)) howns
  have hfloor : phys / frameSize * pageSize = pageFloor phys := (pageFloor_eq phys).symm
  rw [hfloor, PageDirectory.find?_pageFloor] at hpinned
  obtain ⟨htable, hpage⟩ := PageDirectory.find?_unique distinct hfind hpinned
  exact @byte_unique 0 virt phys (Nat.zero_le _) (Nat.zero_le _) (by omega) (by omega) htable hpage
    hplace.symm

/-- Entries of tables that are none of the kernel's own no pinned frame. -/
theorem Pins.foreign (h : space.Pins last)
    (owned : Owned (space.directory.tableAddrs ++ tables) space.ram space.frames)
    (hm : ref.table ∈ tables) (foreign : ref.table ∉ space.directory.tableAddrs)
    (howns : (space.ram.entry ref).owns number) : last ≤ number :=
  Nat.le_of_not_lt fun hbelow => foreign
    (PageDirectory.find?_mem (h.find? owned hbelow (List.mem_append_right _ hm) howns))

end KernelSpace

theorem PageDirectory.Covers.behind {directory : PageDirectory} {start stop last number : Nat}
    {ref : EntryRef} (h : directory.Covers start stop ref) (distinct : directory.tableAddrs.Nodup)
    (low : last * pageSize ≤ start) (high : stop ≤ addressSpan) (pinned : number < last) :
    directory.find? (number * pageSize) ≠ some ref := by
  intro hfind
  have hbelow : number * pageSize < last * pageSize :=
    Nat.mul_lt_mul_of_pos_right pinned (by decide)
  have hwithin : start < addressSpan := by
    obtain ⟨page, -, hfirst, hbefore, -⟩ := h
    omega
  have hinside := @Covers.inside _ _ _ _ h distinct 0 (number * pageSize) (Nat.zero_le _) (by omega)
    (Nat.dvd_mul_left _ _) (Nat.zero_le _) (by omega) hfind
  omega

/-! ## Mapping the kernel -/

/-- Kernel memory whose first `last` pages are mapped onto their frames, and nothing else is
mapped. -/
structure Pinned (info : BootInfo) (last : Nat) (memory : KernelMemory) : Prop where
  booted : Booted info memory
  stocked : ∃ blocks, Stocked info memory.space.directory memory.arena blocks
  low : ∀ (ref : EntryRef) (number : Nat), ref.table ∈ memory.space.directory.tableAddrs →
    (memory.space.ram.entry ref).owns number → number < last
  pins : memory.space.Pins last

variable {info : BootInfo} {last virt : Nat} {memory memory' : KernelMemory}
  {found : Option EntryRef}

theorem Pinned.distinct (h : Pinned info last memory) :
    memory.space.directory.tableAddrs.Nodup :=
  PageDirectory.nodup_tableAddrs h.booted.distinct

theorem Booted.ensureEntry_owns (h : Booted info memory) {blocks : List Reservation}
    (stocked : Stocked info memory.space.directory memory.arena blocks)
    (hensure : (memory.ensureEntry virt).result = .ok (found, memory')) (ref : EntryRef)
    (number : Nat) :
    ref.table ∈ memory'.space.directory.tableAddrs ∧ (memory'.space.ram.entry ref).owns number ↔
      ref.table ∈ memory.space.directory.tableAddrs ∧
        (memory.space.ram.entry ref).owns number := by
  rcases KernelMemory.ensureEntry_eq_ok hensure with ⟨_, -, -, rfl⟩ |
    ⟨hempty, place, arena, hreserve, -, hram, -, -, hzero | ⟨-, hdirectory⟩⟩
  · exact Iff.rfl
  · have hbehind := (Arena.reserve_eq_ok hreserve).1
    have hpos := stocked.cursor_pos
    omega
  · have hperm := PageDirectory.tableAddrs_setSlot ⟨place.addr, place.phys, false⟩ hempty
    have hfresh : place.addr ∉ memory.space.directory.tableAddrs := by
      intro hm
      have hbefore := (h.placed _ hm).2
      have hbehind := (Arena.reserve_eq_ok hreserve).1
      omega
    rw [hdirectory, hram, hperm.mem_iff, List.mem_cons, entry_clearTable]
    by_cases hnew : place.addr = ref.table
    · rw [if_pos hnew]
      refine iff_of_false (fun hown => PageEntry.not_owns rfl number hown.2) fun hold => ?_
      exact hfresh (hnew ▸ hold.1)
    · rw [if_neg hnew, or_iff_right (Ne.symm hnew)]

theorem Pinned.ensureEntry (h : Pinned info last memory)
    (hensure : (memory.ensureEntry virt).result = .ok (found, memory')) :
    Pinned info last memory' := by
  obtain ⟨blocks, hstocked⟩ := h.stocked
  have howned := h.booted.ensureEntry_owns hstocked hensure
  have hretains := (KernelMemory.ensureEntry_retains hensure).1
  refine ⟨(h.booted.ensureEntry hensure).1,
    (KernelMemory.ensureEntry_stocked hstocked hensure).2, ?_, ?_⟩
  · intro ref number hm howns
    obtain ⟨hm, howns⟩ := (howned ref number).mp ⟨hm, howns⟩
    exact h.low ref number hm howns
  · intro number hlast
    obtain ⟨ref, hfind, howns⟩ := h.pins number hlast
    exact ⟨ref, hretains.find? hfind,
      ((howned ref number).mpr ⟨PageDirectory.find?_mem hfind, howns⟩).2⟩

theorem Pinned.mapEntry (h : Pinned info last memory) (fits : (last + 1) * pageSize ≤ addressSpan)
    {slot : TableRef} (hslot : memory.space.directory.slots.get (tableIndex (last * pageSize)) =
      some slot) {space : KernelSpace}
    (hmap : memory.space.mapEntry ⟨slot.table, pageIndex (last * pageSize)⟩ (last * pageSize) =
      .ok space) : Pinned info (last + 1) { memory with space } := by
  have hbooted := h.booted.mapEntry hslot hmap
  have hfind : memory.space.directory.find? (last * pageSize) =
      some ⟨slot.table, pageIndex (last * pageSize)⟩ := by
    simp only [PageDirectory.find?, hslot, Option.map_some]
  have hm := PageDirectory.find?_mem hfind
  -- A frame behind the entry would be a later one, of a page with other indices.
  have habsent :
      (memory.space.ram.entry ⟨slot.table, pageIndex (last * pageSize)⟩).present = false := by
    by_contra hpresent
    obtain ⟨number, howns⟩ : ∃ number,
        (memory.space.ram.entry ⟨slot.table, pageIndex (last * pageSize)⟩).owns number :=
      ⟨_, by simpa using hpresent, rfl⟩
    obtain ⟨htable, hindex⟩ := h.booted.identity _ _ slot number hslot howns
    have hlow := h.low _ number hm howns
    have hbefore : number * pageSize < last * pageSize :=
      Nat.mul_lt_mul_of_pos_right hlow (by decide)
    have hspan : last * pageSize < 0 + addressSpan := by
      rw [Nat.zero_add]
      exact Nat.lt_of_lt_of_le (Nat.mul_lt_mul_of_pos_right (Nat.lt_succ_self last) (by decide)) fits
    have hsame := page_unique (Nat.dvd_mul_left _ _) (Nat.dvd_mul_left _ _) (Nat.zero_le _)
      (Nat.zero_le _) (Nat.lt_trans hbefore hspan) hspan htable hindex
    exact absurd hsame (Nat.ne_of_lt hbefore)
  obtain ⟨entry, frames, hexchange, rfl⟩ : ∃ entry frames,
      memory.space.frames.map (memory.space.ram.entry ⟨slot.table, pageIndex (last * pageSize)⟩)
        (last * pageSize) true true = .ok (entry, frames) ∧ space = { memory.space with
          ram := memory.space.ram.setEntry ⟨slot.table, pageIndex (last * pageSize)⟩ entry
          frames } := by
    unfold KernelSpace.mapEntry at hmap
    obtain ⟨⟨entry, frames⟩, hexchange, hmap⟩ := bind_eq_ok hmap
    exact ⟨entry, frames, hexchange, (Except.ok.inj hmap).symm⟩
  obtain ⟨hpresent, -⟩ | ⟨-, -, hmake⟩ := FramePool.map_eq_ok hexchange
  · simp [habsent] at hpresent
  have howns := PageEntry.make_owns hmake
  rw [Nat.mul_div_cancel _ (by decide)] at howns
  refine ⟨hbooted, h.stocked, ?_, ?_⟩
  · intro ref number hm' hown
    rcases (owns_setEntry_taken habsent howns).mp hown with ⟨-, rfl⟩ | hold
    · exact Nat.lt_succ_self _
    · exact Nat.lt_succ_of_lt (h.low ref number hm' hold)
  · intro number hlast
    rcases Nat.lt_succ_iff_lt_or_eq.mp hlast with hbefore | rfl
    · obtain ⟨ref, hfound, hold⟩ := h.pins number hbefore
      exact ⟨ref, hfound, (owns_setEntry_taken habsent howns).mpr (.inr hold)⟩
    · exact ⟨_, hfind, (owns_setEntry_taken habsent howns).mpr (.inl ⟨rfl, rfl⟩)⟩

theorem Pinned.identityMapPage (h : Pinned info last memory)
    (fits : (last + 1) * pageSize ≤ addressSpan)
    (hmap : (memory.identityMapPage (last * pageSize)).result = .ok memory') :
    Pinned info (last + 1) memory' := by
  unfold KernelMemory.identityMapPage at hmap
  rw [Traced.result_bind] at hmap
  obtain ⟨⟨found, prepared⟩, hensure, hmap⟩ := bind_eq_ok hmap
  cases found with
  | none => simp at hmap
  | some ref =>
      simp only [Traced.result_bind, Traced.result_lift] at hmap
      obtain ⟨space, hspace, hmap⟩ := bind_eq_ok hmap
      obtain rfl := Except.ok.inj hmap
      obtain ⟨slot, hslot, rfl⟩ := (h.booted.ensureEntry hensure).2 ref rfl
      exact (h.ensureEntry hensure).mapEntry fits hslot hspace

def BootInfo.staticPages (info : BootInfo) : Nat := pageUp info.placementLimit / pageSize

theorem BootInfo.staticPages_mul (info : BootInfo) :
    info.staticPages * pageSize = pageUp info.placementLimit :=
  Nat.div_mul_cancel (dvd_pageUp _)

theorem pinned_boot (h : (KernelMemory.boot info).result = .ok memory) : Pinned info 0 memory := by
  obtain ⟨-, -, hnone, hstocked⟩ := stocked_boot h
  refine ⟨booted_boot h, hstocked, ?_, ?_⟩
  · intro ref number hm
    simp [hnone] at hm
  · intro number hlast
    exact absurd hlast (Nat.not_lt_zero number)

/-- Static memory that there are frames for is mapped as a whole. -/
theorem pinned_identityMapKernel (h : (KernelMemory.boot info).result = .ok memory)
    (backed : info.placementLimit ≤ info.memoryEnd / frameSize * frameSize)
    (narrow : info.placementLimit ≤ addressSpan)
    (hmap : memory.identityMapKernel.result = .ok memory') :
    Pinned info info.staticPages memory' := by
  obtain ⟨hlimit, htotal, -, -⟩ := stocked_boot h
  have hspan : pageUp info.placementLimit ≤ addressSpan := pageUp_le narrow (by decide)
  unfold KernelMemory.identityMapKernel at hmap
  simp only [hlimit, htotal, Nat.min_eq_left backed, Traced.result_bind, Traced.result_note] at hmap
  obtain ⟨mapped, hmapped, hmap⟩ := bind_eq_ok hmap
  obtain rfl := Except.ok.inj hmap
  unfold KernelMemory.identityMap at hmapped
  have hceil : pageCeil info.placementLimit = .ok (pageUp info.placementLimit) :=
    pageCeil_of_lt (by unfold addressSpan at narrow; unfold pageSize wordLimit; omega)
  simp only [Traced.result_bind, Traced.result_lift, hceil, ok_bind] at hmapped
  have hcount : pageCount (pageFloor 0) (pageUp info.placementLimit) = info.staticPages := by
    have hpages := info.staticPages_mul
    unfold pageCount strideCount pageFloor
    unfold pageSize at *
    omega
  rw [hcount] at hmapped
  refine Traced.sweepAll_advances (P := fun last => Pinned info last) ?_ (pinned_boot h) hmapped
  intro i hi s t hs hvisit
  have hfits : (i + 1) * pageSize ≤ info.staticPages * pageSize := Nat.mul_le_mul_right _ hi
  rw [info.staticPages_mul] at hfits
  refine hs.identityMapPage (Nat.le_trans hfits hspan) ?_
  simpa [pageFloor] using hvisit

end KernelCore
