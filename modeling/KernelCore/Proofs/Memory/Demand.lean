import Mathlib
import KernelCore.Proofs.Memory.Ranges

/-!
# Pages that come and go behind the heap's back

A page of the heap's window may be mapped before the heap grows over it. Whoever mapped it, its
frame is one of the pool's, as that of every present entry is, so it can be given back when the
heap contracts past it. Unmapping a range empties the entries of its pages and frees the frames
that they mapped, and no others.
-/

namespace KernelCore

namespace FramePool

variable {pool pool' : FramePool} {entry entry' : PageEntry}

theorem Sound.back_known (h : pool.Sound) {kernel writable : Bool} {refused : Option PagingError}
    (hback : (pool.back entry kernel writable).result = .ok (refused, entry', pool')) :
    pool'.total = pool.total ∧
      (entry' = entry ∨ ∀ number, entry'.owns number → number < pool.total) := by
  obtain ⟨-, -, rfl, rfl⟩ | ⟨-, -, rfl, htake⟩ | ⟨-, -, frame, htake, hmake⟩ := back_eq_ok hback
  · exact ⟨rfl, .inl rfl⟩
  · exact ⟨(h.take htake).2.1, .inl rfl⟩
  · obtain ⟨hsound, htotal, ⟨hnone, -⟩ | ⟨number, hfound, -, hbit⟩⟩ := h.take htake
    · contradiction
    obtain rfl := Option.some.inj hfound
    refine ⟨htotal, .inr fun other howns => ?_⟩
    obtain rfl := howns.unique (PageEntry.make_owns hmake)
    rw [Nat.mul_div_cancel _ (by decide), ← htotal]
    exact hsound.lt_total (by rw [hbit, beq_self_eq_true, Bool.true_or])

end FramePool

namespace KernelSpace

variable {space space' : KernelSpace} {ref : EntryRef} {flags : HeapFlags} {lookup : PageDirectory}
  {start stop page : Nat}

/-! ## Frames of the pool -/

def Known (space : KernelSpace) : Prop :=
  ∀ ref number, (space.ram.entry ref).owns number → number < space.frames.total

theorem Known.emptied (h : space.Known) (total : space'.frames.total = space.frames.total)
    (entries : ∀ ref, space'.ram.entry ref = space.ram.entry ref ∨ space'.ram.entry ref = .empty) :
    space'.Known := by
  intro ref number howns
  rw [total]
  rcases entries ref with hsame | hempty
  · exact h ref number (hsame ▸ howns)
  · exact absurd (hempty ▸ howns) (PageEntry.not_owns rfl number)

theorem Known.cleared (h : space.Known) {addr : Nat} (frames : space'.frames = space.frames)
    (ram : space'.ram = space.ram.clearTable addr) : space'.Known := by
  refine h.emptied (by rw [frames]) fun ref => ?_
  rw [ram, entry_clearTable]
  split
  · exact .inr rfl
  · exact .inl rfl

theorem Known.setEntry (h : space.Known) {frames : FramePool} {entry : PageEntry}
    (total : frames.total = space.frames.total)
    (inside : ∀ number, entry.owns number → number < space.frames.total) (ref : EntryRef) :
    Known { space with ram := space.ram.setEntry ref entry, frames } := by
  intro other number howns
  simp only [Ram.entry_setEntry] at howns
  show number < frames.total
  rw [total]
  split at howns
  · exact inside number howns
  · exact h other number howns

theorem Known.backEntry (h : space.Known) (sound : space.frames.Sound)
    {refused : Option PagingError}
    (hback : (space.backEntry ref flags).result = .ok (refused, space')) : space'.Known := by
  unfold KernelSpace.backEntry at hback
  rw [Traced.result_bind] at hback
  obtain ⟨⟨refused', entry, frames⟩, hexchange, hback⟩ := bind_eq_ok hback
  obtain ⟨-, rfl⟩ := Prod.mk.injEq .. ▸ Except.ok.inj hback
  obtain ⟨htotal, rfl | hinside⟩ := sound.back_known hexchange
  · exact h.setEntry htotal (h ref) ref
  · exact h.setEntry htotal hinside ref

theorem Known.unbackEntry (h : space.Known) (sound : space.frames.Sound)
    (hunback : space.unbackEntry ref = .ok space') : space'.Known := by
  unfold KernelSpace.unbackEntry at hunback
  obtain ⟨⟨entry, frames⟩, hexchange, hunback⟩ := bind_eq_ok hunback
  obtain rfl := Except.ok.inj hunback
  obtain ⟨-, rfl, hrelease⟩ | ⟨-, rfl, rfl⟩ := FramePool.unback_eq_ok hexchange
  · exact h.setEntry (sound.release hrelease).2.1
      (fun number howns => absurd howns (PageEntry.not_owns rfl number)) ref
  · exact h.setEntry rfl (h ref) ref

theorem Known.mapEntry (h : space.Known) (sound : space.frames.Sound) {frame : Nat}
    (hmap : space.mapEntry ref frame = .ok space') : space'.Known := by
  unfold KernelSpace.mapEntry at hmap
  obtain ⟨⟨entry, frames⟩, hexchange, hmap⟩ := bind_eq_ok hmap
  obtain rfl := Except.ok.inj hmap
  obtain ⟨-, rfl, rfl⟩ | ⟨-, hmark, hmake⟩ := FramePool.map_eq_ok hexchange
  · exact h.setEntry rfl (h ref) ref
  · obtain ⟨-, hinside, htotal, -⟩ := sound.mark hmark
    refine h.setEntry htotal (fun number howns => ?_) ref
    obtain rfl := howns.unique (PageEntry.make_owns hmake)
    exact hinside

theorem unbackAll_total {entries : List PageEntry} {pool pool' : FramePool} (sound : pool.Sound)
    (hfold : entries.foldlM (fun frames entry => return (← frames.unback entry).2) pool =
      .ok pool') : pool'.total = pool.total := by
  induction entries generalizing pool with
  | nil =>
      obtain rfl := Except.ok.inj hfold
      rfl
  | cons entry rest ih =>
      rw [List.foldlM_cons] at hfold
      obtain ⟨released, hrelease, hfold⟩ := bind_eq_ok hfold
      obtain ⟨⟨cleared, pool₁⟩, hunback, hrelease⟩ := bind_eq_ok hrelease
      obtain rfl := Except.ok.inj hrelease
      have htotal : pool₁.total = pool.total := by
        obtain ⟨-, -, hreleased⟩ | ⟨-, -, rfl⟩ := FramePool.unback_eq_ok hunback
        · exact (sound.release hreleased).2.1
        · rfl
      exact (ih (sound.unback hunback).1 hfold).trans htotal

/-- No call gives an entry a frame from elsewhere. -/
theorem lasting_known : Lasting fun space => space.Tidy ∧ space.Known where
  back := fun h hback => ⟨h.1.backEntry hback, h.2.backEntry h.1.sound hback⟩
  unback := fun h hunback => ⟨h.1.unbackEntry hunback, h.2.unbackEntry h.1.sound hunback⟩
  unbackTable := by
    intro space table space' h hunback
    refine ⟨lasting_tidy.unbackTable h.1 hunback, ?_⟩
    unfold unbackTable at hunback
    obtain ⟨frames, hfold, hunback⟩ := bind_eq_ok hunback
    obtain rfl := Except.ok.inj hunback
    refine h.2.emptied (unbackAll_total h.1.sound hfold) fun ref => ?_
    simp only [Ram.entry_setTable]
    split
    · next hhere =>
        subst hhere
        rw [PageTable.getElem_cleared]
        split
        · exact .inr rfl
        · exact .inl rfl
    · exact .inl rfl
  clearTable := fun h addr => ⟨lasting_tidy.clearTable h.1 addr, h.2.cleared rfl rfl⟩
  entries := fun h same =>
    ⟨lasting_tidy.entries h.1 same, h.2.emptied rfl fun ref => .inl (same ref)⟩

/-! ## Unmapping a range -/

theorem covers_iff (aligned : pageSize ∣ start) :
    lookup.Covers start stop ref ↔
      ∃ i < pageCount start stop, lookup.find? (start + i * pageSize) = some ref := by
  constructor
  · rintro ⟨page, hpage, hlow, hhigh, hfind⟩
    refine ⟨(page - start) / pageSize, ?_, ?_⟩
    · unfold pageCount strideCount
      unfold pageSize at *
      omega
    · have hback : start + (page - start) / pageSize * pageSize = page := by
        unfold pageSize at *
        omega
      rw [hback, hfind]
  · rintro ⟨i, hi, hfind⟩
    exact covers_of_lt_pageCount aligned hi hfind

/-- Compared with `space`, the first `count` pages from `start` on are unmapped. -/
structure Clears (start count : Nat) (space now : KernelSpace) : Prop where
  tidy : now.Tidy
  known : now.Known
  same : now.directory = space.directory
  entries : ∀ ref, now.ram.entry ref = space.ram.entry ref ∨
    (now.ram.entry ref).present = false ∧
      ∃ i < count, space.directory.find? (start + i * pageSize) = some ref
  /-- The frames that these pages mapped are free. -/
  frames : ∀ number, now.frames.bit number = true ↔ space.frames.bit number = true ∧
    ∀ i < count, ∀ ref, space.directory.find? (start + i * pageSize) = some ref →
      ¬(space.ram.entry ref).owns number

theorem Clears.refl (tidy : space.Tidy) (known : space.Known) (start : Nat) :
    Clears start 0 space space :=
  ⟨tidy, known, rfl, fun _ => .inl rfl, fun number => by simp⟩

theorem Clears.congr {count : Nat} {now now' : KernelSpace} (h : Clears start count space now)
    (same : now'.directory = now.directory) (frames : now'.frames = now.frames)
    (entries : ∀ ref, now'.ram.entry ref = now.ram.entry ref) : Clears start count space now' where
  tidy := h.tidy.emptied frames fun ref => .inl (entries ref)
  known := h.known.emptied (by rw [frames]) fun ref => .inl (entries ref)
  same := same.trans h.same
  entries := fun ref => entries ref ▸ h.entries ref
  frames := frames ▸ h.frames

/-- A page without a table, or one whose entry is absent, has no frame to give back. -/
theorem Clears.skip {count : Nat} {now : KernelSpace} (h : Clears start count space now)
    (absent : ∀ ref, space.directory.find? (start + count * pageSize) = some ref →
      (now.ram.entry ref).present = false) : Clears start (count + 1) space now where
  tidy := h.tidy
  known := h.known
  same := h.same
  entries := fun ref => (h.entries ref).imp_right fun ⟨hgone, i, hi, hfind⟩ =>
    ⟨hgone, i, Nat.lt_succ_of_lt hi, hfind⟩
  frames := by
    intro number
    rw [h.frames number]
    refine and_congr_right fun _ => ⟨fun hnone i hi ref hfind howns => ?_,
      fun hnone i hi => hnone i (Nat.lt_succ_of_lt hi)⟩
    rcases Nat.lt_succ_iff_lt_or_eq.mp hi with hlt | rfl
    · exact hnone i hlt ref hfind howns
    -- If the entry was present before, an earlier page of the range shared it.
    rcases h.entries ref with hsame | ⟨-, j, hj, hshared⟩
    · exact PageEntry.not_owns (hsame ▸ absent ref hfind) number howns
    · exact hnone j hj ref hshared howns

theorem Clears.unback {count : Nat} {now now' : KernelSpace} (h : Clears start count space now)
    (found : space.directory.find? (start + count * pageSize) = some ref)
    (present : (now.ram.entry ref).present = true)
    (hunback : now.unbackEntry ref = .ok now') : Clears start (count + 1) space now' := by
  have hentry : now.ram.entry ref = space.ram.entry ref :=
    (h.entries ref).resolve_right fun hgone => by simp [hgone.1] at present
  have htidy := h.tidy.unbackEntry hunback
  have hknown := h.known.unbackEntry h.tidy.sound hunback
  have habsent := unbackEntry_absent hunback (.inl rfl)
  obtain ⟨hsame, hothers⟩ := unbackEntry_others hunback
  refine ⟨htidy, hknown, hsame.trans h.same, fun other => ?_, fun number => ?_⟩
  · by_cases hother : ref = other
    · subst hother
      exact .inr ⟨habsent, count, Nat.lt_succ_self count, found⟩
    · rw [hothers other hother]
      exact (h.entries other).imp_right fun ⟨hgone, i, hi, hfind⟩ =>
        ⟨hgone, i, Nat.lt_succ_of_lt hi, hfind⟩
  · have hbit : now'.frames.bit number =
        ((space.ram.entry ref).frame / frameSize != number && now.frames.bit number) := by
      unfold KernelSpace.unbackEntry at hunback
      obtain ⟨⟨entry, frames⟩, hexchange, hunback⟩ := bind_eq_ok hunback
      obtain rfl := Except.ok.inj hunback
      obtain ⟨-, -, hrelease⟩ | ⟨hgone, -⟩ := FramePool.unback_eq_ok hexchange
      · rw [← hentry]
        exact (h.tidy.sound.release hrelease).2.2 number
      · simp [hgone] at present
    rw [hbit, Bool.and_eq_true, bne_iff_ne, h.frames number]
    constructor
    · rintro ⟨hne, hused, hnone⟩
      refine ⟨hused, fun i hi other hfind howns => ?_⟩
      rcases Nat.lt_succ_iff_lt_or_eq.mp hi with hlt | rfl
      · exact hnone i hlt other hfind howns
      · obtain rfl := Option.some.inj (found.symm.trans hfind)
        exact hne howns.2
    · rintro ⟨hused, hnone⟩
      refine ⟨fun heq => ?_, hused, fun i hi => hnone i (Nat.lt_succ_of_lt hi)⟩
      exact hnone count (Nat.lt_succ_self count) ref found ⟨hentry ▸ present, heq⟩

theorem Clears.exists_unbackPage {count : Nat} {now : KernelSpace}
    (h : Clears start count space now) :
    ∃ now', now.unbackPage now.directory (start + count * pageSize) = .ok now' ∧
      Clears start (count + 1) space now' := by
  unfold KernelSpace.unbackPage
  rw [h.same]
  cases hfind : space.directory.find? (start + count * pageSize) with
  | none => exact ⟨now, rfl, h.skip (by simp [hfind])⟩
  | some ref =>
      obtain ⟨entry, frames, hexchange, -⟩ := FramePool.exists_unback (h.known ref)
      have hunback : now.unbackEntry ref =
          .ok { now with ram := now.ram.setEntry ref entry, frames } := by
        simp only [KernelSpace.unbackEntry, hexchange, ok_bind, pure_eq_ok]
      refine ⟨_, hunback, ?_⟩
      cases hpresent : (now.ram.entry ref).present with
      | true => exact h.unback hfind hpresent hunback
      | false =>
          obtain ⟨hpresent', -⟩ | ⟨-, rfl, rfl⟩ := FramePool.unback_eq_ok hexchange
          · simp [hpresent] at hpresent'
          have hskip : Clears start (count + 1) space now := h.skip fun other hother => by
            rwa [← Option.some.inj (hfind.symm.trans hother)]
          refine hskip.congr rfl rfl fun other => ?_
          rw [Ram.entry_setEntry]
          split
          · next hsame => rw [hsame]
          · rfl

structure Cleared (start stop : Nat) (space space' : KernelSpace) : Prop where
  directory : space'.directory = space.directory
  outside : ∀ ref, ¬space.directory.Covers start stop ref →
    space'.ram.entry ref = space.ram.entry ref
  absent : ∀ ref, space.directory.Covers start stop ref → (space'.ram.entry ref).present = false
  /-- The frames that the pages mapped are free, and no others. -/
  frames : ∀ number, space'.frames.bit number = true ↔ space.frames.bit number = true ∧
    ∀ ref, space.directory.Covers start stop ref → ¬(space.ram.entry ref).owns number

theorem Known.exists_unmap (known : space.Known) (tidy : space.Tidy) (start stop : Nat) :
    ∃ space', (mapper.unmap start stop space).result = .ok space' ∧
      Clears start (pageCount start stop) space space' := by
  have hstep : ∀ i < pageCount start stop, ∀ s, Clears start i space s → ∃ t,
      s.unbackPage s.directory (start + i * pageSize) = .ok t ∧ Clears start (i + 1) space t :=
    fun _ _ _ hs => hs.exists_unbackPage
  exact Traced.exists_sweepAll_advances (P := fun i s => Clears start i space s) hstep
    (.refl tidy known start)

theorem Known.cleared_of_unmap (known : space.Known) (tidy : space.Tidy)
    (aligned : pageSize ∣ start) (hunmap : (mapper.unmap start stop space).result = .ok space') :
    Cleared start stop space space' := by
  obtain ⟨found, hfound, hclears⟩ := known.exists_unmap tidy start stop
  obtain rfl := Except.ok.inj (hfound.symm.trans hunmap)
  rw [unmap_eq] at hunmap
  refine ⟨hclears.same, (unmapPages_spares aligned hunmap).entries,
    fun ref => unmapPages_clears aligned hunmap, fun number => ?_⟩
  rw [hclears.frames number]
  simp only [covers_iff aligned]
  exact and_congr_right fun _ => ⟨fun h ref ⟨i, hi, hfind⟩ => h i hi ref hfind,
    fun h i hi ref hfind => h ref ⟨i, hi, hfind⟩⟩

end KernelSpace

end KernelCore
