import Mathlib
import KernelCore.Proofs.Memory.Ranges
import KernelCore.Proofs.System.Coherence

/-!
# Ranges are mapped as a whole or not at all

Whatever kernel memory has been through, its kernel space is in order and its tables lie apart. So
the kernel's mapper answers for every range of at most 4 GiB, refuses exactly when a page has no
table or the free frames are fewer than the pages that are missing, and then changes nothing.
Otherwise all pages are present, those that were missing by frames of their own, and unmapping takes
it all back if no page was present before.
-/

namespace KernelCore

open Heap

/-! ## One range -/

namespace KernelSpace

variable {space space' : KernelSpace} {flags : HeapFlags} {start stop : Nat} {frameOf : Nat → Nat}

structure Granted (flags : HeapFlags) (start stop : Nat) (space space' : KernelSpace) : Prop where
  directory : space'.directory = space.directory
  present : ∀ page ∈ pagesOf start stop, space'.Maps (page * pageSize)
  /-- Entries that are present keep their frames and flags. -/
  kept : ∀ ref, (space.ram.entry ref).present = true → space'.ram.entry ref = space.ram.entry ref
  outside : ∀ ref, ¬space.directory.Covers start stop ref →
    space'.ram.entry ref = space.ram.entry ref
  /-- Pages that were missing get free frames, one each, with the flags that are asked for. -/
  backed : ∃ frameOf : Nat → Nat, Set.InjOn frameOf (space.missing (pagesOf start stop)) ∧
    space'.frames.usedNumbers =
      space.frames.usedNumbers ∪ (space.missing (pagesOf start stop)).image frameOf ∧
    ∀ page ∈ space.missing (pagesOf start stop), frameOf page < space.frames.total ∧
      space.frames.bit (frameOf page) = false ∧
      ∃ ref, space.directory.find? (page * pageSize) = some ref ∧
        (space'.ram.entry ref).frame = frameOf page * frameSize ∧
        (space'.ram.entry ref).word % pageSize = PageFlag.present |||
          (if flags.writable then PageFlag.writable else 0) |||
          (if flags.user then PageFlag.user else 0)
  free : space'.frames.free + (space.missing (pagesOf start stop)).card = space.frames.free
  /-- Unmapping takes it back if no page was present. -/
  reverted : space.Bare start stop →
    ∃ unmapped, (mapper.unmap start stop space').result = .ok unmapped ∧
      (∀ ref, unmapped.ram.entry ref = space.ram.entry ref) ∧
      unmapped.frames.usedNumbers = space.frames.usedNumbers

/-- How the mapper answers for a range, and the kernel space afterwards. -/
structure MapOutcome (space : KernelSpace) (start stop : Nat) (flags : HeapFlags)
    (refusal : Option PagingError) (space' : KernelSpace) : Prop where
  tables : refusal = some .outOfTableMemory ↔
    ∃ page ∈ pagesOf start stop, space.directory.find? (page * pageSize) = none
  frames : refusal = some .outOfFrames ↔
    (∀ page ∈ pagesOf start stop, (space.directory.find? (page * pageSize)).isSome) ∧
      space.frames.free < (space.missing (pagesOf start stop)).card
  /-- There is no other refusal, and nothing changes with one. -/
  refused : ∀ cause, refusal = some cause →
    (cause = .outOfTableMemory ∨ cause = .outOfFrames) ∧ space' = space
  granted : refusal = none → Granted flags start stop space space'

theorem Backs.granted (h : Backs flags (pagesOf start stop) frameOf space space')
    (tidy : space.Tidy) (aligned : pageSize ∣ start)
    (discerns : space.directory.Discerns (pagesOf start stop))
    (tabled : ∀ page ∈ pagesOf start stop, (space.directory.find? (page * pageSize)).isSome) :
    Granted flags start stop space space' where
  directory := h.same
  present := by
    intro page hm
    obtain ⟨ref, hfind⟩ := Option.isSome_iff_exists.mp (tabled page hm)
    refine ⟨ref, h.same ▸ hfind, ?_⟩
    by_cases hmissing : page ∈ space.missing (pagesOf start stop)
    · rw [h.entry page hmissing ref hfind]
      exact (PageEntry.backed_owns _ _).1
    · have hpresent : (space.ram.entry ref).present = true := by
        simpa [mem_missing_iff hfind, hm] using hmissing
      rw [h.kept hpresent, hpresent]
  kept := fun ref hpresent => h.kept hpresent
  outside := by
    intro ref houtside
    refine h.others ref fun page hm hfind => houtside ?_
    obtain ⟨hlow, hhigh⟩ := (mem_pagesOf_of_dvd aligned).mp (mem_missing.mp hm).1
    exact ⟨page * pageSize, Nat.dvd_mul_left _ _, hlow, hhigh, hfind⟩
  backed := by
    refine ⟨frameOf, h.distinct, h.frames.used, fun page hm => ?_⟩
    obtain ⟨hinside, hfresh⟩ := h.fresh page hm
    obtain ⟨ref, hfind⟩ := Option.isSome_iff_exists.mp (tabled page (mem_missing.mp hm).1)
    rw [tidy.sound.mem_usedNumbers, Bool.not_eq_true] at hfresh
    refine ⟨hinside, hfresh, ref, hfind, ?_⟩
    rw [h.entry page hm ref hfind, PageEntry.frame_backed, PageEntry.word_backed_mod]
    refine ⟨rfl, ?_⟩
    cases hu : flags.user <;> simp [PageFlag.ofAccess]
  free := h.free tidy
  reverted := by
    intro hbare
    have hmissing : ∀ page ∈ pagesOf start stop, space.translate (page * pageSize) = none := by
      intro page hm
      obtain ⟨hlow, hhigh⟩ := (mem_pagesOf_of_dvd aligned).mp hm
      exact hbare _ (Nat.dvd_mul_left _ _) hlow hhigh
    obtain ⟨unmapped, hunmap, hbacks⟩ := h.exists_unmap tidy aligned discerns tabled hmissing
    refine ⟨unmapped, hunmap, fun ref => hbacks.others ref (by simp [missing]), ?_⟩
    simpa [missing] using hbacks.frames.used

/-- For every range of at most 4 GiB there is an answer. -/
theorem Tidy.map_outcome (tidy : space.Tidy) (distinct : space.directory.tableAddrs.Nodup)
    (aligned : pageSize ∣ start) (narrow : stop ≤ start + addressSpan) (flags : HeapFlags) :
    ∃ refusal space', (mapper.map start stop flags space).result = .ok (refusal, space') ∧
      MapOutcome space start stop flags refusal space' := by
  change ∃ refusal space', (space.mapRegion start stop flags).result = _ ∧ _
  have hdiscerns := PageDirectory.discerns_pagesOf distinct aligned narrow
  by_cases htabled : ∀ page ∈ pagesOf start stop, (space.directory.find? (page * pageSize)).isSome
  · have hnone : ¬∃ page ∈ pagesOf start stop, space.directory.find? (page * pageSize) = none := by
      rintro ⟨page, hm, hfind⟩
      simpa [hfind] using htabled page hm
    simp only [mapRegion, countMissing_pagesOf aligned htabled]
    by_cases hfew : space.frames.free < (space.missing (pagesOf start stop)).card
    · refine ⟨some .outOfFrames, space, by simp [hfew], ?_⟩
      exact {
        tables := by simpa using hnone
        frames := by simpa [hfew] using htabled
        refused := by simp
        granted := by simp }
    · obtain ⟨frameOf, space', hsweep, hbacks⟩ :=
        tidy.exists_mapPages aligned hdiscerns htabled (Nat.le_of_not_lt hfew) flags
      refine ⟨none, space', by simpa [hfew] using hsweep, ?_⟩
      exact {
        tables := by simpa using hnone
        frames := by simp [hfew]
        refused := by simp
        granted := fun _ => hbacks.granted tidy aligned hdiscerns htabled }
  · have hsome : ∃ page ∈ pagesOf start stop, space.directory.find? (page * pageSize) = none := by
      simpa using htabled
    simp only [mapRegion, countMissing_untabled aligned hsome]
    refine ⟨some .outOfTableMemory, space, rfl, ?_⟩
    exact {
      tables := by simpa using hsome
      frames := by simp [htabled]
      refused := by simp
      granted := by simp }

end KernelSpace

/-! ## Kernel memory after any calls -/

namespace Realm

variable {info : BootInfo} {realm realm' : Realm} {P : KernelSpace → Prop}

theorem Call.lasting (hc : Call realm realm') (lasting : KernelSpace.Lasting P)
    (h : P realm.memory.space) : P realm'.memory.space := by
  cases hc with
  | granted halloc => exact lasting.tryAlloc h halloc
  | refused halloc => exact lasting.tryAlloc h halloc
  | freed _ hfree => exact lasting.free h hfree
  | faultHandled hresolve => exact lasting.resolveFault h hresolve
  | spaceCreated hcreate => exact lasting.createSpace h hcreate
  | spaceRefused hcreate => exact lasting.createSpace h hcreate
  | rangeMapped _ hmap => exact lasting.mapRange h hmap
  | rangeUnmapped _ hunmap => exact lasting.unmapRange h hunmap
  | spaceDestroyed _ hdestroy => exact lasting.destroySpace h hdestroy

theorem Call.arena (hc : Call realm realm') : realm'.memory.arena = realm.memory.arena := by
  cases hc with
  | granted halloc => exact KernelMemory.tryAlloc_arena halloc
  | refused halloc => exact KernelMemory.tryAlloc_arena halloc
  | freed _ hfree => exact KernelMemory.free_arena hfree
  | faultHandled hresolve => exact KernelMemory.resolveFault_arena hresolve
  | spaceCreated hcreate => exact (KernelMemory.createSpace_arena hcreate).1
  | spaceRefused hcreate => exact (KernelMemory.createSpace_arena hcreate).1
  | rangeMapped _ hmap => exact (KernelMemory.mapRange_arena hmap).1
  | rangeUnmapped _ hunmap => rw [(KernelMemory.unmapRange_eq_ok hunmap).1]
  | spaceDestroyed _ hdestroy => exact KernelMemory.destroySpace_arena hdestroy

theorem Reached.tidy (h : Reached info realm) : realm.memory.space.Tidy := by
  induction h with
  | booted hboot => exact KernelMemory.tidy_boot hboot
  | setup _ hs ih =>
      cases hs with
      | identityMapped hmap => exact KernelMemory.identityMap_tidy ih hmap
      | heapCreated hcreate => exact KernelMemory.createHeap_tidy ih hcreate
      | heapRefused hcreate => exact KernelMemory.createHeap_tidy ih hcreate
      | heapEnabled _ henable => rwa [KernelMemory.enableHeap_eq_ok henable]
  | call _ hc ih => exact hc.lasting KernelSpace.lasting_tidy ih

/-- Static memory was handed out for the tables that the kernel directory has. -/
theorem Reached.stocked (h : Reached info realm) :
    ∃ blocks, Stocked info realm.kernel realm.memory.arena blocks := by
  induction h with
  | booted hboot => exact (stocked_boot hboot).2.2.2
  | setup _ hs ih =>
      cases hs with
      | identityMapped hmap => exact (KernelMemory.identityMap_prepares ih hmap).stocked
      | heapCreated hcreate => exact (KernelMemory.createHeap_prepares ih hcreate).stocked
      | heapRefused hcreate => exact (KernelMemory.createHeap_prepares ih hcreate).stocked
      | heapEnabled _ henable =>
          obtain rfl := KernelMemory.enableHeap_eq_ok henable
          exact ih
  | @call realm realm' _ hc ih =>
      have hsame := hc.lasting (KernelSpace.lasting_directory realm.kernel) rfl
      rw [kernel, hsame, hc.arena]
      exact ih

/-- The kernel's mapper answers for every range of at most 4 GiB, whatever kernel memory has been
through. It maps all of the range, each page that is missing by a frame of its own, or nothing. -/
theorem Reached.map_all_or_nothing (h : Reached info realm) {start stop : Nat}
    (aligned : pageSize ∣ start) (narrow : stop ≤ start + addressSpan) (flags : HeapFlags) :
    ∃ refusal space,
      (KernelSpace.mapper.map start stop flags realm.memory.space).result = .ok (refusal, space) ∧
        KernelSpace.MapOutcome realm.memory.space start stop flags refusal space := by
  obtain ⟨blocks, hstocked⟩ := h.stocked
  exact h.tidy.map_outcome hstocked.distinct aligned narrow flags

/-- The heap has grown into the first two pages of a range, and the other two take a frame each. -/
theorem range_mapped_past_present_pages :
    ∃ (realm : Realm) (space : KernelSpace), Reached KernelMemory.sampleInfo realm ∧
      (KernelSpace.mapper.map 0x404000 0x408000 .supervisor realm.memory.space).result =
        .ok (none, space) ∧
      (realm.memory.space.missing (pagesOf 0x404000 0x408000)).card = 2 ∧
      KernelSpace.MapOutcome realm.memory.space 0x404000 0x408000 .supervisor none space := by
  have hfacts : (do
      let realm ← sampleRealm
      let mapped ← (KernelSpace.mapper.map 0x404000 0x408000 .supervisor
        realm.memory.space).result
      return (mapped.1, mapped.2.frames.free, realm.memory.space.frames.free) : Except Fault _) =
      .ok (none, 56, 58) := by decide +kernel
  obtain ⟨realm, hsample, hfacts⟩ := bind_eq_ok hfacts
  have hreached := reached_sampleRealm hsample
  obtain ⟨refusal, space, hmap, houtcome⟩ :=
    @Reached.map_all_or_nothing _ _ hreached 0x404000 0x408000 (by decide) (by decide) .supervisor
  simp only [hmap, ok_bind, pure_eq_ok, Except.ok.injEq, Prod.mk.injEq] at hfacts
  obtain ⟨rfl, hafter, hbefore⟩ := hfacts
  refine ⟨realm, space, hreached, hmap, ?_, houtcome⟩
  have hfree := (houtcome.granted rfl).free
  omega

end Realm

end KernelCore
