import Mathlib
import KernelCore.Proofs.Memory.Backing

/-!
# Pages that stay mapped

The kernel's directory maps every backed page of its heap. Growing the heap maps the pages that are
added, contracting it unmaps the pages that are given up, and both leave the rest mapped as long as
the window is narrow enough for its pages to have entries of their own.
-/

namespace KernelCore

/-- Addresses that are this far apart share their entries. -/
def addressSpan : Nat := 0x100000000

theorem byte_unique {first a b : Nat} (ha_low : first ≤ a) (hb_low : first ≤ b)
    (ha_high : a < first + addressSpan) (hb_high : b < first + addressSpan)
    (table : tableIndex a = tableIndex b) (page : pageIndex a = pageIndex b)
    (place : a % pageSize = b % pageSize) : a = b := by
  have htable := congrArg Fin.val table
  have hpage := congrArg Fin.val page
  simp only [tableIndex, pageIndex] at htable hpage
  unfold tableSpan entriesPerTable addressSpan pageSize at *
  omega

theorem page_unique {first a b : Nat} (ha : pageSize ∣ a) (hb : pageSize ∣ b) (ha_low : first ≤ a)
    (hb_low : first ≤ b) (ha_high : a < first + addressSpan) (hb_high : b < first + addressSpan)
    (table : tableIndex a = tableIndex b) (page : pageIndex a = pageIndex b) : a = b :=
  byte_unique ha_low hb_low ha_high hb_high table page
    ((Nat.mod_eq_zero_of_dvd ha).trans (Nat.mod_eq_zero_of_dvd hb).symm)

theorem lt_stop_of_lt_pageCount {start stop i : Nat} (h : i < pageCount start stop) :
    start + i * pageSize < stop := by
  unfold pageCount strideCount at h
  unfold pageSize at *
  omega

namespace KernelSpace

variable {space space' space'' : KernelSpace} {page : Nat}

def Maps (space : KernelSpace) (page : Nat) : Prop :=
  ∃ ref, space.directory.find? page = some ref ∧ (space.ram.entry ref).present = true

def Backed (space : KernelSpace) (start stop : Nat) : Prop :=
  ∀ page, pageSize ∣ page → start ≤ page → page < stop → space.Maps page

theorem Maps.translate (h : space.Maps page) : ∃ phys, space.translate page = some phys := by
  obtain ⟨ref, hfind, hpresent⟩ := h
  refine ⟨(space.ram.entry ref).frame + page % pageSize, ?_⟩
  unfold KernelSpace.translate PageDirectory.translate
  simp only [hfind, hpresent, if_true]

/-! ## Nothing gets unmapped -/

structure Extends (space space' : KernelSpace) : Prop where
  same : space'.directory = space.directory
  present : ∀ ref, ref.table ∈ space.directory.tableAddrs →
    (space.ram.entry ref).present = true → (space'.ram.entry ref).present = true

theorem Extends.refl (space : KernelSpace) : space.Extends space := ⟨rfl, fun _ _ h => h⟩

theorem Extends.trans (h : space.Extends space') (h' : space'.Extends space'') :
    space.Extends space'' := by
  refine ⟨h'.same.trans h.same, fun ref hm hpresent => ?_⟩
  apply h'.present ref _ (h.present ref hm hpresent)
  rwa [h.same]

/-- Entries of tables that the kernel's directory does not name do not matter. -/
theorem Extends.of_entries (same : space'.directory = space.directory)
    (entries : ∀ ref, ref.table ∈ space.directory.tableAddrs →
      space'.ram.entry ref = space.ram.entry ref) : space.Extends space' :=
  ⟨same, fun ref hm hpresent => by rwa [entries ref hm]⟩

theorem Maps.mono (h : space.Maps page) (extends' : space.Extends space') : space'.Maps page := by
  obtain ⟨ref, hfind, hpresent⟩ := h
  refine ⟨ref, ?_, extends'.present ref (PageDirectory.find?_mem hfind) hpresent⟩
  rw [extends'.same, hfind]

theorem Backed.mono {start stop : Nat} (h : space.Backed start stop)
    (extends' : space.Extends space') : space'.Backed start stop :=
  fun page hpage hlow hhigh => (h page hpage hlow hhigh).mono extends'

theorem backEntry_extends {ref : EntryRef} {flags : HeapFlags} {refused : Option PagingError}
    (hback : (space.backEntry ref flags).result = .ok (refused, space')) :
    space.Extends space' ∧ (refused = none → (space'.ram.entry ref).present = true) := by
  unfold backEntry at hback
  rw [Traced.result_bind] at hback
  obtain ⟨⟨refused', entry, frames⟩, hexchange, hback⟩ := bind_eq_ok hback
  obtain ⟨rfl, rfl⟩ := Prod.mk.injEq .. ▸ Except.ok.inj hback
  have hkept := FramePool.back_present hexchange
  refine ⟨⟨rfl, fun other _ hpresent => ?_⟩, fun hnone => ?_⟩
  · rw [Ram.entry_setEntry]
    split
    · next hsame => exact hkept (.inl (hsame ▸ hpresent))
    · exact hpresent
  · rw [Ram.entry_setEntry, if_pos rfl]
    exact hkept (.inr hnone)

theorem backPage_extends {flags : HeapFlags} {refused : Option PagingError}
    (hback : (backPage flags page space).result = .ok (refused, space')) :
    space.Extends space' ∧
      ((space.directory.find? page).isSome → refused = none → space'.Maps page) := by
  unfold backPage at hback
  split at hback
  · next ref hfind =>
      obtain ⟨hextends, hpresent⟩ := backEntry_extends hback
      refine ⟨hextends, fun _ hnone => ⟨ref, ?_, hpresent hnone⟩⟩
      rw [hextends.same, hfind]
  · next hfind =>
      obtain ⟨-, rfl⟩ := Prod.mk.injEq .. ▸ Except.ok.inj hback
      exact ⟨.refl _, fun hsome => by simp [hfind] at hsome⟩

theorem sweep_extends {flags : HeapFlags} {count first : Nat} {refused : Option PagingError}
    (hsweep : (Traced.sweep pageSize (backPage flags) count first space).result =
      .ok (refused, space')) : space.Extends space' :=
  Traced.sweep_preserves (P := fun s => space.Extends s)
    (fun _ _ _ _ hs hvisit => hs.trans (backPage_extends hvisit).1) (.refl space) hsweep

theorem countMissing_eq_ok {count first missing found : Nat}
    (h : space.countMissing count first missing = .ok found) :
    ∀ i < count, (space.directory.find? (first + i * pageSize)).isSome := by
  induction count generalizing first missing with
  | zero => simp
  | succ count ih =>
      unfold countMissing at h
      split at h
      · contradiction
      · next ref hfind =>
          intro i hi
          cases i with
          | zero => simp [hfind]
          | succ i =>
              have hrest := ih h i (Nat.lt_of_succ_lt_succ hi)
              rwa [Nat.succ_mul, Nat.add_comm (i * pageSize), ← Nat.add_assoc]

theorem sweep_maps {flags : HeapFlags} {count first : Nat}
    (tables : ∀ i < count, (space.directory.find? (first + i * pageSize)).isSome)
    (hsweep : (Traced.sweep pageSize (backPage flags) count first space).result =
      .ok (none, space')) : ∀ i < count, space'.Maps (first + i * pageSize) := by
  induction count generalizing first space with
  | zero => simp
  | succ count ih =>
      rw [Traced.sweep_succ, Traced.result_bind] at hsweep
      obtain ⟨⟨refused, backed⟩, hvisit, hrest⟩ := bind_eq_ok hsweep
      cases refused with
      | some cause => simp at hrest
      | none =>
          obtain ⟨hextends, hmaps⟩ := backPage_extends hvisit
          have hnext : ∀ i, first + pageSize + i * pageSize = first + (i + 1) * pageSize := by
            intro i
            rw [Nat.succ_mul]
            omega
          intro i hi
          cases i with
          | zero =>
              have hfirst := hmaps (by simpa using tables 0 (Nat.succ_pos count)) rfl
              simpa using hfirst.mono (sweep_extends hrest)
          | succ i =>
              rw [← hnext]
              refine ih (fun j hj => ?_) hrest i (Nat.lt_of_succ_lt_succ hi)
              rw [hextends.same, hnext]
              exact tables (j + 1) (Nat.succ_lt_succ hj)

/-- Mapping a range unmaps nothing, and maps all of it unless it is refused. -/
theorem map_extends {start stop : Nat} {flags : HeapFlags} {refused : Option PagingError}
    (hmap : (mapper.map start stop flags space).result = .ok (refused, space')) :
    space.Extends space' ∧ (pageSize ∣ start → refused = none → space'.Backed start stop) := by
  change (space.mapRegion start stop flags).result = _ at hmap
  unfold mapRegion at hmap
  cases hmissing : space.countMissing (pageCount start stop) start 0 with
  | error cause =>
      simp only [hmissing] at hmap
      obtain ⟨rfl, rfl⟩ := Prod.mk.injEq .. ▸ Except.ok.inj hmap
      exact ⟨.refl _, by simp⟩
  | ok missing =>
      simp only [hmissing] at hmap
      split at hmap
      · obtain ⟨rfl, rfl⟩ := Prod.mk.injEq .. ▸ Except.ok.inj hmap
        exact ⟨.refl _, by simp⟩
      · refine ⟨sweep_extends hmap, ?_⟩
        rintro hstart rfl page hpage hlow hhigh
        have hmaps := sweep_maps (countMissing_eq_ok hmissing) hmap ((page - start) / pageSize)
        have hback : start + (page - start) / pageSize * pageSize = page := by
          unfold pageSize at *
          omega
        rw [hback] at hmaps
        apply hmaps
        unfold pageCount strideCount
        unfold pageSize at *
        omega

/-! ## What stays when pages are unmapped -/

theorem unbackEntry_others {ref : EntryRef} (hunback : space.unbackEntry ref = .ok space') :
    space'.directory = space.directory ∧
      ∀ other, ref ≠ other → space'.ram.entry other = space.ram.entry other := by
  unfold unbackEntry at hunback
  obtain ⟨⟨entry, frames⟩, -, hunback⟩ := bind_eq_ok hunback
  obtain rfl := Except.ok.inj hunback
  exact ⟨rfl, fun other hother => by rw [Ram.entry_setEntry, if_neg hother]⟩

theorem unbackPage_same {lookup : PageDirectory}
    (hunback : space.unbackPage lookup page = .ok space') :
    space'.directory = space.directory := by
  unfold unbackPage at hunback
  split at hunback
  · exact (unbackEntry_others hunback).1
  · rw [Except.ok.inj hunback]

theorem unmapPages_same {lookup : PageDirectory} {count first : Nat}
    (hunmap : (Traced.sweepAll pageSize (fun page space => space.unbackPage lookup page) count first
      space).result = .ok space') : space'.directory = space.directory := by
  apply Traced.sweepAll_preserves (P := fun s => s.directory = space.directory) _ rfl hunmap
  intro page s t hs hvisit
  exact (unbackPage_same (Traced.result_lift _ ▸ hvisit)).trans hs

theorem Maps.unbackPage (h : space.Maps page) (distinct : space.directory.tableAddrs.Nodup)
    {other : Nat} (apart : ¬(tableIndex other = tableIndex page ∧ pageIndex other = pageIndex page))
    (hunback : space.unbackPage space.directory other = .ok space') : space'.Maps page := by
  unfold KernelSpace.unbackPage at hunback
  split at hunback
  · next ref hother =>
      obtain ⟨own, hfind, hpresent⟩ := h
      obtain ⟨hsame, hentries⟩ := unbackEntry_others hunback
      refine ⟨own, by rw [hsame, hfind], ?_⟩
      rwa [hentries]
      rintro rfl
      exact apart (PageDirectory.find?_unique distinct hother hfind)
  · obtain rfl := Except.ok.inj hunback
    exact h

theorem Backed.unmap {start middle stop : Nat} (h : space.Backed start middle)
    (distinct : space.directory.tableAddrs.Nodup) (aligned : pageSize ∣ middle)
    (narrow : stop ≤ start + addressSpan)
    (hunmap : (mapper.unmap middle stop space).result = .ok space') :
    space'.Backed start middle := by
  intro page hpage hlow hhigh
  have hsame : space'.directory = space.directory ∧ space'.Maps page := by
    apply Traced.sweepAll_preserves_on
      (P := fun s => s.directory = space.directory ∧ s.Maps page) _
      ⟨rfl, h page hpage hlow hhigh⟩ hunmap
    rintro i hi s t ⟨hs, hmaps⟩ hvisit
    have hother := lt_stop_of_lt_pageCount hi
    refine ⟨?_, hmaps.unbackPage (hs ▸ distinct) ?_ hvisit⟩
    · exact (unbackPage_same (Traced.result_lift _ ▸ hvisit)).trans hs
    · rintro ⟨htable, hindex⟩
      have hmultiple : pageSize ∣ middle + i * pageSize := aligned.add (Nat.dvd_mul_left _ _)
      have heq := @page_unique start _ _ hmultiple hpage (by omega) hlow (by omega) (by omega)
        htable hindex
      omega
  exact hsame.2

end KernelSpace

end KernelCore
