import Mathlib
import KernelCore.Proofs.Memory.Presence

/-!
# Which entries an operation touches

Backing or unmapping a page touches its entry, clearing a table touches the entries in it, and the
kernel's mapper touches the entries of the pages that it is asked for. All other entries stay as
they are, and so does every translation that goes through one of them. A range that the mapper
unmaps is bare afterwards, and a range that it refuses is left as it was.
-/

namespace KernelCore

namespace PageDirectory

variable {directory : PageDirectory} {start stop virt phys : Nat} {ref : EntryRef} {ram : Ram}

theorem translate_eq (found : directory.find? virt = some ref) (ram : Ram) :
    directory.translate ram virt =
      if (ram.entry ref).present then some ((ram.entry ref).frame + virt % pageSize) else none := by
  simp only [translate, found]

/-- A translation reads the entry of its page and no other. -/
theorem translate_congr {ram ram' : Ram}
    (same : ∀ ref, directory.find? virt = some ref → ram'.entry ref = ram.entry ref) :
    directory.translate ram' virt = directory.translate ram virt := by
  cases hfind : directory.find? virt with
  | none => simp only [translate, hfind]
  | some ref => rw [translate_eq hfind, translate_eq hfind, same ref hfind]

theorem translate_eq_some :
    directory.translate ram virt = some phys ↔ ∃ ref, directory.find? virt = some ref ∧
      (ram.entry ref).present = true ∧ (ram.entry ref).frame + virt % pageSize = phys := by
  cases hfind : directory.find? virt with
  | none => simp [translate, hfind]
  | some ref => simp [translate_eq hfind]

def Covers (directory : PageDirectory) (start stop : Nat) (ref : EntryRef) : Prop :=
  ∃ page, pageSize ∣ page ∧ start ≤ page ∧ page < stop ∧ directory.find? page = some ref

theorem Covers.mono (h : directory.Covers start stop ref) {start' stop' : Nat}
    (low : start' ≤ start) (high : stop ≤ stop') : directory.Covers start' stop' ref := by
  obtain ⟨page, hpage, hlow, hhigh, hfind⟩ := h
  exact ⟨page, hpage, by omega, by omega, hfind⟩

/-- Pages of a narrow range share no entry, so a page whose entry is covered lies in the range. -/
theorem Covers.inside (h : directory.Covers start stop ref) (distinct : directory.tableAddrs.Nodup)
    {first page : Nat} (low : first ≤ start) (high : stop ≤ first + addressSpan)
    (aligned : pageSize ∣ page) (page_low : first ≤ page) (page_high : page < first + addressSpan)
    (found : directory.find? page = some ref) : start ≤ page ∧ page < stop := by
  obtain ⟨other, hother, hlow, hhigh, hfind⟩ := h
  obtain ⟨htable, hindex⟩ := find?_unique distinct found hfind
  have hsame := @page_unique first page other aligned hother page_low (by omega) page_high
    (by omega) htable hindex
  omega

end PageDirectory

namespace KernelSpace

variable {touched wider : EntryRef → Prop} {space space' space'' : KernelSpace}
  {lookup : PageDirectory} {ref : EntryRef} {start stop page virt : Nat}

structure Spares (touched : EntryRef → Prop) (space space' : KernelSpace) : Prop where
  same : space'.directory = space.directory
  entries : ∀ ref, ¬touched ref → space'.ram.entry ref = space.ram.entry ref

theorem Spares.refl (touched : EntryRef → Prop) (space : KernelSpace) :
    space.Spares touched space :=
  ⟨rfl, fun _ _ => rfl⟩

theorem Spares.trans (h : Spares touched space space') (h' : Spares touched space' space'') :
    Spares touched space space'' where
  same := h'.same.trans h.same
  entries := fun ref hspared => (h'.entries ref hspared).trans (h.entries ref hspared)

theorem Spares.mono (h : Spares touched space space') (covered : ∀ ref, touched ref → wider ref) :
    Spares wider space space' where
  same := h.same
  entries := fun ref hspared => h.entries ref fun htouched => hspared (covered ref htouched)

/-- What goes through no touched entry translates as before. -/
theorem Spares.translate (h : Spares touched space space')
    (elsewhere : ∀ ref, space.directory.find? virt = some ref → ¬touched ref) :
    space'.translate virt = space.translate virt := by
  unfold KernelSpace.translate
  rw [h.same]
  exact PageDirectory.translate_congr fun ref hfind => h.entries ref (elsewhere ref hfind)

/-! ## Single entries and tables -/

theorem backEntry_spares {flags : HeapFlags} {refused : Option PagingError}
    (hback : (space.backEntry ref flags).result = .ok (refused, space')) :
    space.Spares (ref = ·) space' := by
  unfold backEntry at hback
  rw [Traced.result_bind] at hback
  obtain ⟨⟨refused', entry, frames⟩, -, hback⟩ := bind_eq_ok hback
  obtain ⟨-, rfl⟩ := Prod.mk.injEq .. ▸ Except.ok.inj hback
  refine ⟨rfl, fun other hother => ?_⟩
  rw [Ram.entry_setEntry, if_neg hother]

theorem backPage_spares {flags : HeapFlags} {refused : Option PagingError}
    (hback : (backPage flags page space).result = .ok (refused, space')) :
    space.Spares (space.directory.find? page = some ·) space' := by
  unfold backPage at hback
  split at hback
  · next ref hfind =>
      refine (backEntry_spares hback).mono ?_
      rintro other rfl
      exact hfind
  · obtain ⟨-, rfl⟩ := Prod.mk.injEq .. ▸ Except.ok.inj hback
    exact .refl _ _

theorem unbackEntry_spares (hunback : space.unbackEntry ref = .ok space') :
    space.Spares (ref = ·) space' :=
  ⟨(unbackEntry_others hunback).1, (unbackEntry_others hunback).2⟩

theorem unbackEntry_absent (hunback : space.unbackEntry ref = .ok space') {other : EntryRef}
    (absent : ref = other ∨ (space.ram.entry other).present = false) :
    (space'.ram.entry other).present = false := by
  unfold unbackEntry at hunback
  obtain ⟨⟨entry, frames⟩, hexchange, hunback⟩ := bind_eq_ok hunback
  obtain rfl := Except.ok.inj hunback
  rw [Ram.entry_setEntry]
  split
  · exact FramePool.unback_absent hexchange
  · next hother => exact absent.resolve_left hother

theorem unbackPage_spares (hunback : space.unbackPage lookup page = .ok space') :
    space.Spares (lookup.find? page = some ·) space' := by
  unfold unbackPage at hunback
  split at hunback
  · next ref hfind =>
      refine (unbackEntry_spares hunback).mono ?_
      rintro other rfl
      exact hfind
  · obtain rfl := Except.ok.inj hunback
    exact .refl _ _

theorem unbackPage_absent (hunback : space.unbackPage lookup page = .ok space')
    (absent : lookup.find? page = some ref ∨ (space.ram.entry ref).present = false) :
    (space'.ram.entry ref).present = false := by
  unfold unbackPage at hunback
  split at hunback
  · next found hfind =>
      refine unbackEntry_absent hunback (absent.imp_left fun hsame => ?_)
      exact Option.some.inj (hfind.symm.trans hsame)
  · next hnone =>
      obtain rfl := Except.ok.inj hunback
      rw [hnone] at absent
      simpa using absent

theorem unbackTable_spares {table : Nat} (hunback : space.unbackTable table = .ok space') :
    space.Spares (table = ·.table) space' := by
  unfold unbackTable at hunback
  obtain ⟨frames, -, hunback⟩ := bind_eq_ok hunback
  obtain rfl := Except.ok.inj hunback
  exact ⟨rfl, fun ref hother => (Ram.entry_setTable _ _ _ _).trans (if_neg hother)⟩

theorem clearTable_spares (space : KernelSpace) (table : Nat) :
    space.Spares (table = ·.table) { space with ram := space.ram.clearTable table } :=
  ⟨rfl, fun ref hother => (entry_clearTable space.ram table ref).trans (if_neg hother)⟩

/-! ## Ranges -/

def Bare (space : KernelSpace) (start stop : Nat) : Prop :=
  ∀ page, pageSize ∣ page → start ≤ page → page < stop → space.translate page = none

theorem translate_eq_none :
    space.translate virt = none ↔
      ∀ ref, space.directory.find? virt = some ref → (space.ram.entry ref).present = false := by
  unfold KernelSpace.translate
  cases hfind : space.directory.find? virt with
  | none => simp [PageDirectory.translate, hfind]
  | some ref => simp [PageDirectory.translate_eq hfind]

theorem Bare.absent (h : space.Bare start stop) (covered : space.directory.Covers start stop ref) :
    (space.ram.entry ref).present = false := by
  obtain ⟨page, hpage, hlow, hhigh, hfind⟩ := covered
  exact translate_eq_none.mp (h page hpage hlow hhigh) ref hfind

theorem covers_of_lt_pageCount (aligned : pageSize ∣ start) {i : Nat}
    (inside : i < pageCount start stop)
    (found : lookup.find? (start + i * pageSize) = some ref) : lookup.Covers start stop ref :=
  ⟨_, aligned.add (Nat.dvd_mul_left _ _), Nat.le_add_right _ _, lt_stop_of_lt_pageCount inside,
    found⟩

/-- Mapping a range touches the entries of its pages at most. -/
theorem map_spares (aligned : pageSize ∣ start) {flags : HeapFlags} {refused : Option PagingError}
    (hmap : (mapper.map start stop flags space).result = .ok (refused, space')) :
    space.Spares (space.directory.Covers start stop) space' := by
  change (space.mapRegion start stop flags).result = _ at hmap
  unfold mapRegion at hmap
  cases hmissing : space.countMissing (pageCount start stop) start 0 with
  | error cause =>
      simp only [hmissing] at hmap
      obtain ⟨-, rfl⟩ := Prod.mk.injEq .. ▸ Except.ok.inj hmap
      exact .refl _ _
  | ok missing =>
      simp only [hmissing] at hmap
      split at hmap
      · obtain ⟨-, rfl⟩ := Prod.mk.injEq .. ▸ Except.ok.inj hmap
        exact .refl _ _
      · apply Traced.sweep_preserves_on
          (P := fun s => space.Spares (space.directory.Covers start stop) s) _ (.refl _ _) hmap
        intro i hi s refusal t hs hvisit
        refine hs.trans ((backPage_spares hvisit).mono fun ref hfind => ?_)
        rw [hs.same] at hfind
        exact covers_of_lt_pageCount aligned hi hfind

section Unmapping

variable {count first : Nat}

theorem unmapPages_spares (aligned : pageSize ∣ start)
    (hunmap : (Traced.sweepAll pageSize (fun page space => space.unbackPage lookup page)
      (pageCount start stop) start space).result = .ok space') :
    space.Spares (lookup.Covers start stop) space' := by
  apply Traced.sweepAll_preserves_on (P := fun s => space.Spares (lookup.Covers start stop) s) _
    (.refl _ _) hunmap
  intro i hi s t hs hvisit
  replace hvisit : s.unbackPage lookup (start + i * pageSize) = .ok t := hvisit
  exact hs.trans ((unbackPage_spares hvisit).mono fun ref hfind =>
    covers_of_lt_pageCount aligned hi hfind)

theorem unmapPages_absent
    (hunmap : (Traced.sweepAll pageSize (fun page space => space.unbackPage lookup page) count first
      space).result = .ok space') (absent : (space.ram.entry ref).present = false) :
    (space'.ram.entry ref).present = false :=
  Traced.sweepAll_preserves (P := fun s => (s.ram.entry ref).present = false)
    (fun _ _ _ hs hvisit => unbackPage_absent (Traced.result_lift _ ▸ hvisit) (.inr hs)) absent
    hunmap

theorem unmapPages_clears (aligned : pageSize ∣ start)
    (hunmap : (Traced.sweepAll pageSize (fun page space => space.unbackPage lookup page)
      (pageCount start stop) start space).result = .ok space')
    (covered : lookup.Covers start stop ref) : (space'.ram.entry ref).present = false := by
  obtain ⟨page, hpage, hlow, hhigh, hfind⟩ := covered
  have hinside : (page - start) / pageSize < pageCount start stop := by
    unfold pageCount strideCount
    unfold pageSize at *
    omega
  have hback : start + (page - start) / pageSize * pageSize = page := by
    unfold pageSize at *
    omega
  refine Traced.sweepAll_reaches (P := fun _ => True) (Q := fun s =>
    (s.ram.entry ref).present = false) hinside (fun _ _ _ h _ => h) ?_
    (fun _ _ _ _ hs hvisit => unbackPage_absent (Traced.result_lift _ ▸ hvisit) (.inr hs)) trivial
    hunmap
  intro s t _ hvisit
  rw [hback] at hvisit
  exact unbackPage_absent (Traced.result_lift _ ▸ hvisit) (.inl hfind)

/-- The mapper goes by the kernel's directory throughout. -/
theorem unmap_eq (space : KernelSpace) (start stop : Nat) :
    mapper.unmap start stop space =
      Traced.sweepAll pageSize (fun page s => s.unbackPage space.directory page)
        (pageCount start stop) start space := by
  apply Traced.sweepAll_congr (P := fun s => s.directory = space.directory)
  · intro page s t hs hvisit
    exact (unbackPage_same (Traced.result_lift _ ▸ hvisit)).trans hs
  · intro page s hs
    simp only [hs]
  · rfl

theorem unmap_bare (aligned : pageSize ∣ start)
    (hunmap : (mapper.unmap start stop space).result = .ok space') : space'.Bare start stop := by
  rw [unmap_eq] at hunmap
  intro page hpage hlow hhigh
  rw [translate_eq_none, (unmapPages_spares aligned hunmap).same]
  intro ref hfind
  exact unmapPages_clears aligned hunmap ⟨page, hpage, hlow, hhigh, hfind⟩

end Unmapping

/-! ## Ranges that are refused -/

theorem le_countMissing {count first missing found : Nat}
    (h : space.countMissing count first missing = .ok found) : missing ≤ found := by
  induction count generalizing first missing with
  | zero => exact Nat.le_of_eq (Except.ok.inj h)
  | succ count ih =>
      unfold countMissing at h
      split at h
      · contradiction
      · have hrest := ih h
        split at hrest <;> omega

theorem countMissing_eq_error {count first missing : Nat} {cause : PagingError}
    (h : space.countMissing count first missing = .error cause) : cause = .outOfTableMemory := by
  induction count generalizing first missing with
  | zero => contradiction
  | succ count ih =>
      unfold countMissing at h
      split at h
      · exact (Except.error.inj h).symm
      · exact ih h

theorem countMissing_mono (extends' : space.Extends space') {count first missing found : Nat}
    (h : space.countMissing count first missing = .ok found) {missing' : Nat}
    (fewer : missing' ≤ missing) :
    ∃ found', space'.countMissing count first missing' = .ok found' ∧ found' ≤ found := by
  induction count generalizing first missing missing' with
  | zero =>
      obtain rfl := Except.ok.inj h
      exact ⟨missing', rfl, fewer⟩
  | succ count ih =>
      unfold countMissing at h ⊢
      rw [extends'.same]
      cases hfind : space.directory.find? first with
      | none => simp [hfind] at h
      | some ref =>
          simp only [hfind] at h ⊢
          refine ih h ?_
          have hkept := extends'.present ref (PageDirectory.find?_mem hfind)
          split
          · split <;> omega
          · next habsent' =>
              rw [if_neg fun hpresent => habsent' (hkept hpresent)]
              omega

/-- With a free frame for each page that is missing, none is refused. -/
theorem sweep_not_refused {flags : HeapFlags} {count first missing found : Nat}
    (sound : space.frames.Sound)
    (hcount : space.countMissing count first missing = .ok found)
    (enough : found ≤ space.frames.free + missing) {refused : Option PagingError}
    (hsweep : (Traced.sweep pageSize (backPage flags) count first space).result =
      .ok (refused, space')) : refused = none := by
  induction count generalizing first missing found space with
  | zero => exact (Prod.mk.inj (Except.ok.inj hsweep)).1.symm
  | succ count ih =>
      rw [Traced.sweep_succ, Traced.result_bind] at hsweep
      obtain ⟨⟨refusal, backed⟩, hvisit, hrest⟩ := bind_eq_ok hsweep
      unfold countMissing at hcount
      split at hcount
      · contradiction
      next ref hfind =>
      have hextends := (backPage_extends hvisit).1
      unfold backPage at hvisit
      simp only [hfind, backEntry, Traced.result_bind] at hvisit
      obtain ⟨⟨refusal', entry, frames⟩, hexchange, hvisit⟩ := bind_eq_ok hvisit
      obtain ⟨rfl, rfl⟩ := Prod.mk.injEq .. ▸ Except.ok.inj hvisit
      have hsound := (sound.back hexchange).1
      have hleast := le_countMissing hcount
      obtain ⟨found', hcount', hfewer⟩ := countMissing_mono hextends hcount (Nat.le_refl _)
      rcases sound.back_cases hexchange with ⟨hpresent, rfl, hfree⟩ | ⟨habsent, rfl, hfree⟩ |
        ⟨habsent, rfl, hfree⟩
      · rw [if_pos hpresent] at hcount'
        exact ih hsound hcount' (by simp only [hfree]; omega) hrest
      · rw [habsent, if_neg Bool.false_ne_true] at hcount'
        exact ih hsound hcount' (by simp only; omega) hrest
      · rw [habsent, if_neg Bool.false_ne_true] at hleast
        omega

/-- The mapper refuses for want of tables or of frames, and leaves the range as it was. -/
theorem map_refused (sound : space.frames.Sound) {flags : HeapFlags} {cause : PagingError}
    (hmap : (mapper.map start stop flags space).result = .ok (some cause, space')) :
    space' = space ∧ (cause = .outOfTableMemory ∨ cause = .outOfFrames) := by
  change (space.mapRegion start stop flags).result = _ at hmap
  unfold mapRegion at hmap
  cases hmissing : space.countMissing (pageCount start stop) start 0 with
  | error unmapped =>
      simp only [hmissing, Traced.result_pure, Except.ok.injEq, Prod.mk.injEq,
        Option.some.injEq] at hmap
      obtain ⟨rfl, rfl⟩ := hmap
      exact ⟨rfl, .inl (countMissing_eq_error hmissing)⟩
  | ok missing =>
      simp only [hmissing] at hmap
      split at hmap
      · simp only [Traced.result_pure, Except.ok.injEq, Prod.mk.injEq, Option.some.injEq] at hmap
        exact ⟨hmap.2.symm, .inr hmap.1.symm⟩
      · have hnone := sweep_not_refused sound hmissing (by omega) hmap
        contradiction

end KernelSpace

end KernelCore
