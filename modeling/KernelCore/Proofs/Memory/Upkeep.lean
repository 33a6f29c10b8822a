import Mathlib
import KernelCore.Proofs.Frames.Calls
import KernelCore.Proofs.Memory.Lending
import KernelCore.Proofs.Memory.Saved

/-!
# What every call keeps of the kernel space

Whatever is asked of kernel memory once it is prepared, its tables, entries and frames change by a
few kinds of step: a page is backed or unmapped, a table is cleared or given back. So what these
steps keep, every call keeps, whoever holds what. The kernel directory is kept in this way. So is
order in the kernel space: its frame pool is sound, and an entry that is not present is empty.
Preparing more memory makes new tables for the directory, and keeps order, too.
-/

namespace KernelCore

open Heap

variable {memory memory' : KernelMemory}

namespace KernelSpace

variable {space space' : KernelSpace} {P : KernelSpace → Prop}

/-! ## Steps -/

/-- No step of a call on kernel memory undoes `P`. -/
structure Lasting (P : KernelSpace → Prop) : Prop where
  back : ∀ {space ref flags refused space'}, P space →
    (space.backEntry ref flags).result = .ok (refused, space') → P space'
  unback : ∀ {space ref space'}, P space → space.unbackEntry ref = .ok space' → P space'
  unbackTable : ∀ {space table space'}, P space → space.unbackTable table = .ok space' → P space'
  clearTable : ∀ {space}, P space → ∀ addr, P { space with ram := space.ram.clearTable addr }
  /-- Of other memory contents, nothing is said. -/
  entries : ∀ {space ram}, P space → (∀ ref, ram.entry ref = space.ram.entry ref) →
    P { space with ram }

theorem lasting_directory (kernel : PageDirectory) :
    Lasting fun space => space.directory = kernel where
  back := fun h hback => (backEntry_spares hback).same.trans h
  unback := fun h hunback => (unbackEntry_spares hunback).same.trans h
  unbackTable := fun h hunback => (unbackTable_spares hunback).same.trans h
  clearTable := fun h _ => h
  entries := fun h _ => h

namespace Lasting

theorem backPage (lasting : Lasting P) (h : P space) {flags : HeapFlags} {page : Nat}
    {refused : Option PagingError}
    (hback : (KernelSpace.backPage flags page space).result = .ok (refused, space')) :
    P space' := by
  unfold KernelSpace.backPage at hback
  split at hback
  · exact lasting.back h hback
  · obtain ⟨-, rfl⟩ := Prod.mk.injEq .. ▸ Except.ok.inj hback
    exact h

theorem map (lasting : Lasting P) (h : P space) {start stop : Nat} {flags : HeapFlags}
    {refused : Option PagingError}
    (hmap : (mapper.map start stop flags space).result = .ok (refused, space')) : P space' := by
  change (space.mapRegion start stop flags).result = _ at hmap
  simp only [mapRegion] at hmap
  split at hmap
  · obtain ⟨-, rfl⟩ := Prod.mk.injEq .. ▸ Except.ok.inj hmap
    exact h
  split at hmap
  · obtain ⟨-, rfl⟩ := Prod.mk.injEq .. ▸ Except.ok.inj hmap
    exact h
  · exact Traced.sweep_preserves (fun _ _ _ _ hs hvisit => lasting.backPage hs hvisit) h hmap

theorem unmapPages (lasting : Lasting P) (h : P space) {lookup : PageDirectory} {count first : Nat}
    (hunmap : (Traced.sweepAll pageSize (fun page space => space.unbackPage lookup page) count first
      space).result = .ok space') : P space' := by
  refine Traced.sweepAll_preserves (fun page s t hs hvisit => ?_) h hunmap
  replace hvisit : s.unbackPage lookup page = .ok t := hvisit
  unfold KernelSpace.unbackPage at hvisit
  split at hvisit
  · exact lasting.unback hs hvisit
  · obtain rfl := Except.ok.inj hvisit
    exact hs

/-! ## The heap -/

variable {heap heap' : Heap}

theorem asked (lasting : Lasting P) (h : P space) {refusal : Option PagingError}
    (hasked : Asked mapper space refusal space') : P space' := by
  cases hasked with
  | nothing => exact h
  | once hmap => exact lasting.map h hmap

theorem alloc (lasting : Lasting P) (h : P space) {size : Nat} {pageAligned : Bool}
    {answer : Except HeapError Nat}
    (halloc : (heap.alloc mapper size pageAligned space).result = .ok (answer, heap', space')) :
    P space' := by
  obtain ⟨refusal, hasked, -⟩ := Heap.alloc_asks halloc
  exact lasting.asked h hasked

theorem release (lasting : Lasting P) (h : P space) {addr : Nat}
    (hfree : (heap.free mapper addr space).result = .ok (heap', space')) : P space' := by
  rcases Heap.free_asks hfree with rfl | ⟨start, stop, hunmap⟩
  · exact h
  · rw [unmap_eq] at hunmap
    exact lasting.unmapPages h hunmap

/-- A table is granted in a block that is cleared for it. -/
theorem grants (lasting : Lasting P) : Grants fun _ _ space => P space where
  perm := fun _ h => h
  grant := by
    intro tables heap space answer heap' space' h hgrant
    rcases Heap.grantTable_eq_ok hgrant with ⟨cause, rfl, halloc⟩ | ⟨addr, granted, halloc, hends⟩
    · exact .inl ⟨_, rfl, lasting.alloc h halloc⟩
    have hgranted := lasting.alloc h halloc
    rcases hends with ⟨-, rfl, rfl⟩ | ⟨phys, rfl, rfl⟩
    · exact .inl ⟨_, rfl, hgranted⟩
    · exact .inr ⟨_, rfl, rfl, lasting.clearTable hgranted addr⟩
  back := fun h _ hback => lasting.back h hback

/-! ## Calls -/

theorem tryAlloc (lasting : Lasting P) (h : P memory.space) {size : Nat} {pageAligned : Bool}
    {answer : Except HeapError Nat}
    (halloc : (memory.tryAlloc size pageAligned).result = .ok (answer, memory')) :
    P memory'.space := by
  cases hheap : memory.heap with
  | none =>
      simp only [KernelMemory.tryAlloc, hheap, Traced.result_pure, Except.ok.injEq,
        Prod.mk.injEq] at halloc
      exact halloc.2 ▸ h
  | some heap =>
      obtain ⟨heap', -, hgranted⟩ := KernelMemory.tryAlloc_eq_ok hheap halloc
      exact lasting.alloc h hgranted

theorem free (lasting : Lasting P) (h : P memory.space) {addr : Nat}
    (hfree : (memory.free addr).result = .ok memory') : P memory'.space := by
  cases hheap : memory.heap with
  | none => simp [KernelMemory.free, hheap] at hfree
  | some heap =>
      obtain ⟨heap', -, hfreed⟩ := KernelMemory.free_eq_ok hheap hfree
      exact lasting.release h hfreed

theorem resolveFault (lasting : Lasting P) (h : P memory.space) {addr error : Nat}
    {answer : Option PageFaultError}
    (hresolve : (memory.resolveFault addr error).result = .ok (answer, memory')) :
    P memory'.space := by
  cases hheap : memory.heap with
  | none => rwa [(KernelMemory.resolveFault_heapless hheap hresolve).1]
  | some heap =>
      rcases KernelMemory.resolveFault_eq_ok hheap hresolve with
        rfl | ⟨start, stop, refused, -, hmap⟩
      · exact h
      · exact lasting.map h hmap

theorem createSpace (lasting : Lasting P) (h : P memory.space)
    {answer : Except HeapError AddressSpace}
    (hcreate : memory.createSpace.result = .ok (answer, memory')) : P memory'.space := by
  rcases KernelMemory.createSpace_eq_ok hcreate with
    ⟨cause, halloc, -⟩ | ⟨addr, granted, halloc, hends⟩
  · exact lasting.tryAlloc h halloc
  have hgranted := lasting.tryAlloc h halloc
  rcases hends with ⟨-, hfree, -⟩ | ⟨phys, -, rfl⟩
  · exact lasting.free hgranted hfree
  · exact lasting.entries hgranted fun _ => rfl

theorem mapRange (lasting : Lasting P) (h : P memory.space) {made made' : AddressSpace}
    {start stop : Nat} {flags : HeapFlags} {refused : Option PagingError}
    (hmap : (memory.mapRange made start stop flags).result = .ok (refused, made', memory')) :
    P memory'.space := by
  cases hheap : memory.heap with
  | none =>
      simp only [KernelMemory.mapRange, hheap, Traced.result_pure, Except.ok.injEq,
        Prod.mk.injEq] at hmap
      exact hmap.2.2 ▸ h
  | some heap =>
      obtain ⟨-, -, heap', -, hholds⟩ :=
        lasting.grants.mapRange hheap (.refl made.directory) h hmap
      exact hholds

theorem unmapRange (lasting : Lasting P) (h : P memory.space) {made : AddressSpace}
    {start stop : Nat} (hunmap : (memory.unmapRange made start stop).result = .ok memory') :
    P memory'.space :=
  lasting.unmapPages h (KernelMemory.unmapRange_eq_ok hunmap).2

theorem destroySpace (lasting : Lasting P) (h : P memory.space) {made : AddressSpace}
    (hdestroy : (memory.destroySpace made).result = .ok memory') : P memory'.space := by
  cases hheap : memory.heap with
  | none => simp [KernelMemory.destroySpace, hheap] at hdestroy
  | some heap =>
      obtain ⟨released, space, hfold, hfree⟩ := KernelMemory.destroySpace_eq_ok hheap hdestroy
      have hreleased := KernelMemory.releaseTables_preserves (P := fun _ _ space => P space)
        (fun hs hunback hfreed => lasting.release (lasting.unbackTable hs hunback) hfreed) h hfold
      exact lasting.free hreleased hfree

end Lasting

/-! ## Order -/

/-- The frame pool is sound and its hint points into it, and an entry that is not present is
empty. -/
structure Tidy (space : KernelSpace) : Prop where
  sound : space.frames.Sound
  aimed : space.frames.Aimed
  blank : ∀ ref, (space.ram.entry ref).present = false → space.ram.entry ref = .empty

theorem Tidy.emptied (h : space.Tidy) (frames : space'.frames = space.frames)
    (entries : ∀ ref, space'.ram.entry ref = space.ram.entry ref ∨ space'.ram.entry ref = .empty) :
    space'.Tidy where
  sound := frames ▸ h.sound
  aimed := frames ▸ h.aimed
  blank := by
    intro ref habsent
    rcases entries ref with hsame | hempty
    · rw [hsame] at habsent ⊢
      exact h.blank ref habsent
    · exact hempty

theorem Tidy.cleared (h : space.Tidy) {addr : Nat} (frames : space'.frames = space.frames)
    (ram : space'.ram = space.ram.clearTable addr) : space'.Tidy := by
  refine h.emptied frames fun ref => ?_
  rw [ram, entry_clearTable]
  split
  · exact .inr rfl
  · exact .inl rfl

/-- Entries change with an answered call of the pool. -/
theorem Tidy.setEntry (h : space.Tidy) {call : FramePool.Call} {answer : FramePool.Answer}
    {frames : FramePool} (hperform : call.perform space.frames = .ok (answer, frames))
    {entry : PageEntry} (blank : entry.present = false → entry = .empty) (ref : EntryRef) :
    Tidy { space with ram := space.ram.setEntry ref entry, frames } := by
  have hsettled := (h.sound.answered h.aimed hperform).1
  refine ⟨hsettled.sound, hsettled.aimed, fun other habsent => ?_⟩
  simp only [Ram.entry_setEntry] at habsent ⊢
  split
  · next hsame => exact blank (by rwa [if_pos hsame] at habsent)
  · next hother => exact h.blank other (by rwa [if_neg hother] at habsent)

theorem Tidy.backEntry (h : space.Tidy) {ref : EntryRef} {flags : HeapFlags}
    {refused : Option PagingError}
    (hback : (space.backEntry ref flags).result = .ok (refused, space')) : space'.Tidy := by
  unfold KernelSpace.backEntry at hback
  rw [Traced.result_bind] at hback
  obtain ⟨⟨refused', entry, frames⟩, hexchange, hback⟩ := bind_eq_ok hback
  obtain ⟨-, rfl⟩ := Prod.mk.injEq .. ▸ Except.ok.inj hback
  have hperform : (FramePool.Call.back (space.ram.entry ref) (!flags.user) flags.writable).perform
      space.frames = .ok (.backed refused' entry, frames) := by
    simp only [FramePool.Call.perform, hexchange, ok_bind, pure_eq_ok]
  refine h.setEntry hperform (fun habsent => ?_) ref
  obtain ⟨-, -, rfl, -⟩ | ⟨-, -, rfl, -⟩ | ⟨-, -, frame, -, hmake⟩ := FramePool.back_eq_ok hexchange
  · exact h.blank ref habsent
  · exact h.blank ref habsent
  · simp [(PageEntry.make_owns hmake).1] at habsent

theorem Tidy.unbackEntry (h : space.Tidy) {ref : EntryRef}
    (hunback : space.unbackEntry ref = .ok space') : space'.Tidy := by
  unfold KernelSpace.unbackEntry at hunback
  obtain ⟨⟨entry, frames⟩, hexchange, hunback⟩ := bind_eq_ok hunback
  obtain rfl := Except.ok.inj hunback
  have hperform : (FramePool.Call.unback (space.ram.entry ref)).perform space.frames =
      .ok (.changed entry, frames) := by
    simp only [FramePool.Call.perform, hexchange, ok_bind, pure_eq_ok]
  refine h.setEntry hperform (fun habsent => ?_) ref
  obtain ⟨-, rfl, -⟩ | ⟨-, rfl, -⟩ := FramePool.unback_eq_ok hexchange
  · rfl
  · exact h.blank ref habsent

theorem Tidy.mapEntry (h : space.Tidy) {ref : EntryRef} {frame : Nat}
    (hmap : space.mapEntry ref frame = .ok space') : space'.Tidy := by
  unfold KernelSpace.mapEntry at hmap
  obtain ⟨⟨entry, frames⟩, hexchange, hmap⟩ := bind_eq_ok hmap
  obtain rfl := Except.ok.inj hmap
  have hperform : (FramePool.Call.map (space.ram.entry ref) frame true true).perform space.frames =
      .ok (.changed entry, frames) := by
    simp only [FramePool.Call.perform, hexchange, ok_bind, pure_eq_ok]
  refine h.setEntry hperform (fun habsent => ?_) ref
  obtain ⟨-, rfl, -⟩ | ⟨-, -, hmake⟩ := FramePool.map_eq_ok hexchange
  · exact h.blank ref habsent
  · simp [(PageEntry.make_owns hmake).1] at habsent

theorem unbackAll_ordered {entries : List PageEntry} {pool pool' : FramePool} (sound : pool.Sound)
    (aimed : pool.Aimed)
    (hfold : entries.foldlM (fun frames entry => return (← frames.unback entry).2) pool =
      .ok pool') : pool'.Sound ∧ pool'.Aimed := by
  induction entries generalizing pool with
  | nil =>
      obtain rfl := Except.ok.inj hfold
      exact ⟨sound, aimed⟩
  | cons entry rest ih =>
      rw [List.foldlM_cons] at hfold
      obtain ⟨released, hrelease, hfold⟩ := bind_eq_ok hfold
      obtain ⟨⟨cleared, pool₁⟩, hunback, hrelease⟩ := bind_eq_ok hrelease
      obtain rfl := Except.ok.inj hrelease
      have hperform : (FramePool.Call.unback entry).perform pool = .ok (.changed cleared, pool₁) := by
        simp only [FramePool.Call.perform, hunback, ok_bind, pure_eq_ok]
      have hsettled := (sound.answered aimed hperform).1
      exact ih hsettled.sound hsettled.aimed hfold

theorem lasting_tidy : Lasting Tidy where
  back := fun h hback => h.backEntry hback
  unback := fun h hunback => h.unbackEntry hunback
  unbackTable := by
    intro space table space' h hunback
    unfold unbackTable at hunback
    obtain ⟨frames, hfold, hunback⟩ := bind_eq_ok hunback
    obtain rfl := Except.ok.inj hunback
    obtain ⟨hsound, haimed⟩ := unbackAll_ordered h.sound h.aimed hfold
    refine ⟨hsound, haimed, fun ref habsent => ?_⟩
    simp only [Ram.entry_setTable] at habsent ⊢
    split
    · next hhere =>
        subst hhere
        rw [PageTable.getElem_cleared]
        split
        · rfl
        · next hnot => exact h.blank ref ((Bool.not_eq_true _).mp hnot)
    · next hother => exact h.blank ref (by rwa [if_neg hother] at habsent)
  clearTable := fun h _ => h.cleared rfl rfl
  entries := fun h same => h.emptied rfl fun ref => .inl (same ref)

end KernelSpace

/-! ## Preparing memory -/

namespace KernelMemory

variable {info : BootInfo}

theorem tidy_boot (h : (boot info).result = .ok memory) : memory.space.Tidy := by
  unfold boot FramePool.carve at h
  simp only [Traced.result_bind, Traced.result_lift, Traced.result_note, ok_bind] at h
  obtain ⟨arena, -, h⟩ := bind_eq_ok h
  obtain ⟨⟨frames, arena₂⟩, hcarve, h⟩ := bind_eq_ok h
  obtain ⟨⟨bitmap, arena₁⟩, -, hcarve⟩ := bind_eq_ok hcarve
  obtain ⟨pool, hpool, hcarve⟩ := bind_eq_ok hcarve
  obtain ⟨rfl, rfl⟩ := Prod.mk.injEq .. ▸ Except.ok.inj hcarve
  obtain ⟨⟨place, arena₃⟩, -, h⟩ := bind_eq_ok h
  obtain ⟨⟨directory, ram⟩, hplace, h⟩ := bind_eq_ok h
  obtain rfl := Except.ok.inj h
  refine ⟨(FramePool.sound_cleared hpool).1, ?_, ?_⟩
  · unfold FramePool.cleared at hpool
    split at hpool
    · obtain rfl := Except.ok.inj hpool
      exact .inr rfl
    · simp at hpool
  · intro ref _
    unfold PageDirectory.place at hplace
    split at hplace
    · obtain ⟨-, rfl⟩ := Prod.mk.injEq .. ▸ Except.ok.inj hplace
      exact PageTable.getElem_empty ref.index
    · simp at hplace

theorem ensureEntry_tidy (h : memory.space.Tidy) {virt : Nat} {found : Option EntryRef}
    (hensure : (memory.ensureEntry virt).result = .ok (found, memory')) : memory'.space.Tidy := by
  rcases ensureEntry_eq_ok hensure with ⟨ref, -, -, rfl⟩ |
    ⟨-, place, arena, -, -, hram, hframes, -⟩
  · exact h
  · exact h.cleared hframes hram

theorem identityMap_tidy (h : memory.space.Tidy) {start stop : Nat}
    (hmap : (memory.identityMap start stop).result = .ok memory') : memory'.space.Tidy :=
  identityMap_preserves (P := fun s => s.space.Tidy)
    (fun hs hensure hspace => (ensureEntry_tidy hs hensure).mapEntry hspace) h hmap

theorem createHeap_tidy (h : memory.space.Tidy) {start stop maxSize : Nat} {flags : HeapFlags}
    {answer : Except HeapError Heap}
    (hcreate : (memory.createHeap start stop maxSize flags).result = .ok (answer, memory')) :
    memory'.space.Tidy := by
  rcases createHeap_eq_ok (P := fun s => s.space.Tidy)
    (fun hs hensure => ensureEntry_tidy hs hensure) h hcreate with ⟨-, htidy⟩ |
    ⟨prepared, hprepared, -, hcreated⟩
  · exact htidy
  · obtain ⟨refusal, hasked, -⟩ := Heap.create_asks hcreated
    exact KernelSpace.lasting_tidy.asked hprepared hasked

end KernelMemory

end KernelCore
