import Mathlib
import KernelCore.Proofs.Memory.Upkeep

/-!
# Backing a range, page by page

The kernel's mapper first counts the pages of a range that are missing and then backs them, each
with a frame of its own. `Backs` says what the first of these pages have got when the sweep has come
so far. The count bounds the frames that the sweep takes, so the sweep is never refused, and when
all pages were missing, unmapping them goes the same way back.
-/

namespace KernelCore

/-! ## Entries -/

/-- Pages of a set have entries of their own. -/
def PageDirectory.Discerns (directory : PageDirectory) (pages : Finset Nat) : Prop :=
  ∀ page ∈ pages, ∀ other ∈ pages, ∀ ref, directory.find? (page * pageSize) = some ref →
    directory.find? (other * pageSize) = some ref → page = other

theorem PageDirectory.Discerns.mono {directory : PageDirectory} {pages wider : Finset Nat}
    (h : directory.Discerns wider) (inside : pages ⊆ wider) : directory.Discerns pages :=
  fun page hm other hm' => h page (inside hm) other (inside hm')

theorem PageDirectory.Discerns.ne {directory : PageDirectory} {pages : Finset Nat} {page other : Nat}
    {ref ref' : EntryRef} (h : directory.Discerns (insert page pages)) (new : page ∉ pages)
    (found : directory.find? (page * pageSize) = some ref) (inside : other ∈ pages)
    (found' : directory.find? (other * pageSize) = some ref') : ref ≠ ref' := by
  rintro rfl
  have hsame := h page (Finset.mem_insert_self page pages) other (Finset.mem_insert_of_mem inside)
    ref found found'
  exact new (hsame ▸ inside)

theorem PageDirectory.discerns_pagesOf {directory : PageDirectory} {start stop : Nat}
    (distinct : directory.tableAddrs.Nodup) (aligned : pageSize ∣ start)
    (narrow : stop ≤ start + addressSpan) : directory.Discerns (pagesOf start stop) := by
  intro page hm other hm' ref hfind hfind'
  obtain ⟨hlow, hhigh⟩ := (mem_pagesOf_of_dvd aligned).mp hm
  obtain ⟨hlow', hhigh'⟩ := (mem_pagesOf_of_dvd aligned).mp hm'
  obtain ⟨htable, hindex⟩ := find?_unique distinct hfind hfind'
  have hsame := @page_unique start _ _ (Nat.dvd_mul_left _ page) (Nat.dvd_mul_left _ other) hlow
    hlow' (Nat.lt_of_lt_of_le hhigh narrow) (Nat.lt_of_lt_of_le hhigh' narrow) htable hindex
  exact Nat.eq_of_mul_eq_mul_right (by decide) hsame

namespace PageEntry

def backed (number : Nat) (flags : HeapFlags) : PageEntry :=
  ⟨number * frameSize ||| PageFlag.ofAccess (!flags.user) flags.writable⟩

variable (number : Nat) (flags : HeapFlags)

theorem make_backed :
    PageEntry.make (number * frameSize) (PageFlag.ofAccess (!flags.user) flags.writable) =
      .ok (backed number flags) :=
  if_pos (Nat.mul_mod_left number pageSize)

theorem backed_owns : (backed number flags).owns number := by
  have howns := make_owns (make_backed number flags)
  rwa [Nat.mul_div_cancel _ (by decide)] at howns

theorem frame_backed : (backed number flags).frame = number * frameSize :=
  (make_frame (make_backed number flags)).2

theorem word_backed_mod : (backed number flags).word % pageSize =
    PageFlag.ofAccess (!flags.user) flags.writable := by
  have hsmall : PageFlag.ofAccess (!flags.user) flags.writable < 2 ^ 12 := by
    obtain ⟨user, writable⟩ := flags
    cases user <;> cases writable <;> decide
  have hword := Nat.two_pow_add_eq_or_of_lt hsmall number
  rw [backed, Nat.mul_comm, ← hword, Nat.mul_add_mod]
  exact Nat.mod_eq_of_lt hsmall

end PageEntry

/-! ## One frame -/

namespace FramePool

variable {pool : FramePool} {entry : PageEntry} {flags : HeapFlags} {number : Nat}

theorem back_present_eq (pool : FramePool) (present : entry.present = true)
    (kernel writable : Bool) :
    (pool.back entry kernel writable).result = .ok (none, entry, pool) := by
  unfold back
  rw [if_pos present]
  rfl

theorem Sound.exists_back (h : pool.Sound) (aimed : pool.Aimed) (absent : entry.present = false)
    (enough : 0 < pool.free) (flags : HeapFlags) :
    ∃ number pool', (pool.back entry (!flags.user) flags.writable).result =
        .ok (none, .backed number flags, pool') ∧
      number < pool.total ∧ number ∉ pool.usedNumbers ∧
        Settled pool pool' (insert number pool.usedNumbers) := by
  obtain ⟨found, pool', htake, -⟩ := h.exists_take aimed
  obtain ⟨-, hfree, -⟩ | ⟨number, rfl, hinside, hfresh, hsettled⟩ := h.settled_take aimed htake
  · omega
  refine ⟨number, pool', ?_, hinside, hfresh, hsettled⟩
  simp only [FramePool.back, absent, Bool.false_eq_true, if_false, Traced.result_bind, Traced.result_lift,
    htake, ok_bind, PageEntry.make_backed, Traced.result_pure]

theorem Sound.exists_unback (h : pool.Sound) (aimed : pool.Aimed) (owns : entry.owns number)
    (known : number < pool.total) :
    ∃ pool', pool.unback entry = .ok (.empty, pool') ∧
      Settled pool pool' (pool.usedNumbers.erase number) := by
  obtain ⟨hpresent, rfl⟩ := owns
  obtain ⟨pool', hrelease, -⟩ := exists_releaseNumber known
  refine ⟨pool', ?_, h.settled_release aimed hrelease⟩
  simp only [FramePool.unback, hpresent, if_true, FramePool.release, hrelease, ok_bind, pure_eq_ok]

end FramePool

namespace KernelSpace

variable {space now : KernelSpace} {flags : HeapFlags} {pages : Finset Nat} {frameOf : Nat → Nat}
  {page : Nat} {ref : EntryRef}

/-! ## Pages that are missing -/

def missing (space : KernelSpace) (pages : Finset Nat) : Finset Nat :=
  pages.filter fun page => space.translate (page * pageSize) = none

theorem mem_missing :
    page ∈ space.missing pages ↔ page ∈ pages ∧ space.translate (page * pageSize) = none :=
  Finset.mem_filter

theorem mem_missing_iff (found : space.directory.find? (page * pageSize) = some ref) :
    page ∈ space.missing pages ↔ page ∈ pages ∧ (space.ram.entry ref).present = false := by
  rw [mem_missing, translate_eq_none]
  simp [found]

theorem missing_insert_absent (found : space.directory.find? (page * pageSize) = some ref)
    (absent : (space.ram.entry ref).present = false) :
    space.missing (insert page pages) = insert page (space.missing pages) := by
  rw [missing, Finset.filter_insert, if_pos (translate_eq_none.mpr (by simp [found, absent]))]
  rfl

theorem missing_insert_present (found : space.directory.find? (page * pageSize) = some ref)
    (present : (space.ram.entry ref).present = true) :
    space.missing (insert page pages) = space.missing pages := by
  rw [missing, Finset.filter_insert, if_neg (by simp [translate_eq_none, found, present])]
  rfl

/-- The mapper counts the pages that are missing, if there are tables for all. -/
theorem countMissing_eq {count first missing : Nat}
    (tabled : ∀ page ∈ Finset.Ico first (first + count),
      (space.directory.find? (page * pageSize)).isSome) :
    space.countMissing count (first * pageSize) missing =
      .ok (missing + (space.missing (Finset.Ico first (first + count))).card) := by
  induction count generalizing first missing with
  | zero => simp [countMissing, KernelSpace.missing]
  | succ count ih =>
      obtain ⟨ref, hfind⟩ := Option.isSome_iff_exists.mp (tabled first (by simp))
      have hrest := @ih (first + 1)
        (if (space.ram.entry ref).present then missing else missing + 1) fun page hm =>
          tabled page (by rw [Finset.mem_Ico] at hm ⊢; omega)
      have hstop : first + 1 + count = first + (count + 1) := by omega
      rw [hstop, Nat.succ_mul] at hrest
      unfold countMissing
      simp only [hfind, hrest]
      rw [← Finset.insert_Ico_add_one_left_eq_Ico (Nat.lt_add_of_pos_right (Nat.succ_pos count))]
      cases hpresent : (space.ram.entry ref).present with
      | true => rw [missing_insert_present hfind hpresent, if_pos rfl]
      | false =>
          have hnew : first ∉ space.missing (Finset.Ico (first + 1) (first + (count + 1))) := by
            simp [mem_missing]
          rw [missing_insert_absent hfind hpresent, Finset.card_insert_of_notMem hnew,
            if_neg Bool.false_ne_true]
          congr 1
          omega

theorem countMissing_pagesOf {start stop : Nat} (aligned : pageSize ∣ start)
    (tabled : ∀ page ∈ pagesOf start stop, (space.directory.find? (page * pageSize)).isSome) :
    space.countMissing (pageCount start stop) start 0 =
      .ok (space.missing (pagesOf start stop)).card := by
  obtain ⟨first, rfl⟩ := exists_eq_mul_left_of_dvd aligned
  rw [pagesOf_mul] at tabled ⊢
  rw [countMissing_eq tabled, Nat.zero_add]

theorem countMissing_untabled {start stop : Nat} (aligned : pageSize ∣ start)
    (untabled : ∃ page ∈ pagesOf start stop, space.directory.find? (page * pageSize) = none) :
    space.countMissing (pageCount start stop) start 0 = .error .outOfTableMemory := by
  cases hcount : space.countMissing (pageCount start stop) start 0 with
  | error cause => rw [countMissing_eq_error hcount]
  | ok found =>
      obtain ⟨first, rfl⟩ := exists_eq_mul_left_of_dvd aligned
      obtain ⟨page, hm, hnone⟩ := untabled
      rw [pagesOf_mul, Finset.mem_Ico] at hm
      have htabled := countMissing_eq_ok hcount (page - first) (by omega)
      rw [← Nat.add_mul, Nat.add_sub_cancel' hm.1, hnone] at htabled
      contradiction

/-! ## Pages that are backed -/

/-- Compared with `space`, the pages of a set that were missing are backed, each by a frame of its
own that was free, and nothing else has changed. -/
structure Backs (flags : HeapFlags) (pages : Finset Nat) (frameOf : Nat → Nat)
    (space now : KernelSpace) : Prop where
  same : now.directory = space.directory
  frames : FramePool.Settled space.frames now.frames
    (space.frames.usedNumbers ∪ (space.missing pages).image frameOf)
  others : ∀ ref, (∀ page ∈ space.missing pages,
    space.directory.find? (page * pageSize) ≠ some ref) → now.ram.entry ref = space.ram.entry ref
  entry : ∀ page ∈ space.missing pages, ∀ ref,
    space.directory.find? (page * pageSize) = some ref →
      now.ram.entry ref = .backed (frameOf page) flags
  fresh : ∀ page ∈ space.missing pages,
    frameOf page < space.frames.total ∧ frameOf page ∉ space.frames.usedNumbers
  distinct : Set.InjOn frameOf (space.missing pages)

theorem Backs.refl (tidy : space.Tidy) (flags : HeapFlags) (frameOf : Nat → Nat) :
    Backs flags ∅ frameOf space space where
  same := rfl
  frames := ⟨tidy.sound, tidy.aimed, rfl, by simp [missing]⟩
  others := fun _ _ => rfl
  entry := by simp [missing]
  fresh := by simp [missing]
  distinct := by simp [missing]

theorem Backs.free (h : Backs flags pages frameOf space now) (tidy : space.Tidy) :
    now.frames.free + (space.missing pages).card = space.frames.free := by
  have hapart : Disjoint space.frames.usedNumbers ((space.missing pages).image frameOf) := by
    rw [Finset.disjoint_left]
    intro number hused hm
    obtain ⟨page, hpage, rfl⟩ := Finset.mem_image.mp hm
    exact (h.fresh page hpage).2 hused
  have hcard := Finset.card_union_of_disjoint hapart
  rw [Finset.card_image_of_injOn h.distinct, ← h.frames.used] at hcard
  have hbefore := tidy.sound.counted
  have hafter := h.frames.sound.counted
  have htotal := h.frames.total
  omega

theorem Backs.kept (h : Backs flags pages frameOf space now)
    (present : (space.ram.entry ref).present = true) :
    now.ram.entry ref = space.ram.entry ref := by
  refine h.others ref fun page hm hfind => ?_
  rw [((mem_missing_iff hfind).mp hm).2] at present
  contradiction

theorem Backs.entry_eq (h : Backs flags pages frameOf space now)
    (discerns : space.directory.Discerns (insert page pages)) (new : page ∉ pages)
    (found : space.directory.find? (page * pageSize) = some ref) :
    now.ram.entry ref = space.ram.entry ref := by
  refine h.others ref fun other hother hsame => ?_
  exact discerns.ne new found (mem_missing.mp hother).1 hsame rfl

theorem backPage_eq {refused : Option PagingError} {entry : PageEntry} {frames : FramePool}
    {addr : Nat} (found : now.directory.find? addr = some ref)
    (hback : (now.frames.back (now.ram.entry ref) (!flags.user) flags.writable).result =
      .ok (refused, entry, frames)) :
    (KernelSpace.backPage flags addr now).result =
      .ok (refused, { now with ram := now.ram.setEntry ref entry, frames }) := by
  simp only [KernelSpace.backPage, found, backEntry, Traced.result_bind, hback, ok_bind,
    Traced.result_pure]

/-- A page that is present costs nothing. -/
theorem Backs.keep (h : Backs flags pages frameOf space now)
    (found : space.directory.find? (page * pageSize) = some ref)
    (present : (space.ram.entry ref).present = true) :
    Backs flags (insert page pages) frameOf space
      { now with ram := now.ram.setEntry ref (now.ram.entry ref) } := by
  have hsame : ∀ other, (now.ram.setEntry ref (now.ram.entry ref)).entry other =
      now.ram.entry other := by
    intro other
    rw [Ram.entry_setEntry]
    split
    · next hother => rw [hother]
    · rfl
  have hmissing := @missing_insert_present space pages page ref found present
  constructor <;> simp only [hmissing, hsame]
  exacts [h.same, h.frames, h.others, h.entry, h.fresh, h.distinct]

/-- A page that is missing takes a frame. -/
theorem Backs.take (h : Backs flags pages frameOf space now)
    (discerns : space.directory.Discerns (insert page pages)) (new : page ∉ pages)
    (found : space.directory.find? (page * pageSize) = some ref)
    (absent : (space.ram.entry ref).present = false) {number : Nat} {frames : FramePool}
    (inside : number < now.frames.total) (unused : number ∉ now.frames.usedNumbers)
    (settled : FramePool.Settled now.frames frames (insert number now.frames.usedNumbers)) :
    Backs flags (insert page pages) (Function.update frameOf page number) space
      { now with ram := now.ram.setEntry ref (.backed number flags), frames } := by
  have hmissing := @missing_insert_absent space pages page ref found absent
  have hnew : page ∉ space.missing pages := fun hm => new (mem_missing.mp hm).1
  have hkept : ∀ other ∈ space.missing pages,
      Function.update frameOf page number other = frameOf other :=
    fun other hm => Function.update_of_ne (ne_of_mem_of_not_mem hm hnew) _ _
  have himage : (space.missing pages).image (Function.update frameOf page number) =
      (space.missing pages).image frameOf := Finset.image_congr hkept
  rw [h.frames.used] at settled unused
  rw [h.frames.total] at inside
  rw [Finset.mem_union, not_or] at unused
  constructor <;> simp only [hmissing]
  case same => exact h.same
  case frames =>
    rw [Finset.image_insert, himage, Function.update_self, Finset.union_insert]
    exact ⟨settled.sound, settled.aimed, settled.total.trans h.frames.total, settled.used⟩
  case others =>
    intro other hother
    rw [Finset.forall_mem_insert] at hother
    have hdiffers : ref ≠ other := by
      rintro rfl
      exact hother.1 found
    rw [Ram.entry_setEntry, if_neg hdiffers]
    exact h.others other hother.2
  case entry =>
    rw [Finset.forall_mem_insert]
    constructor
    · intro other hother
      obtain rfl := Option.some.inj (found.symm.trans hother)
      rw [Ram.entry_setEntry, if_pos rfl, Function.update_self]
    · intro other hm ref' hfind'
      have hdiffers := discerns.ne new found (mem_missing.mp hm).1 hfind'
      rw [Ram.entry_setEntry, if_neg hdiffers, hkept other hm]
      exact h.entry other hm ref' hfind'
  case fresh =>
    rw [Finset.forall_mem_insert, Function.update_self]
    refine ⟨⟨inside, unused.1⟩, fun other hm => ?_⟩
    rw [hkept other hm]
    exact h.fresh other hm
  case distinct =>
    rw [Finset.coe_insert, Set.injOn_insert hnew, Function.update_self]
    refine ⟨h.distinct.congr fun other hm => (hkept other hm).symm, ?_⟩
    rintro ⟨other, hm, heq⟩
    rw [hkept other hm] at heq
    exact unused.2 (Finset.mem_image.mpr ⟨other, hm, heq⟩)

theorem Backs.backPage (h : Backs flags pages frameOf space now)
    (discerns : space.directory.Discerns (insert page pages)) (new : page ∉ pages)
    (found : space.directory.find? (page * pageSize) = some ref)
    (enough : (space.ram.entry ref).present = false → 0 < now.frames.free) :
    ∃ frameOf' now', (KernelSpace.backPage flags (page * pageSize) now).result = .ok (none, now') ∧
      Backs flags (insert page pages) frameOf' space now' := by
  have hentry := h.entry_eq discerns new found
  have hfind : now.directory.find? (page * pageSize) = some ref := by rw [h.same, found]
  cases hpresent : (space.ram.entry ref).present with
  | true =>
      have hback := now.frames.back_present_eq (hentry ▸ hpresent) (!flags.user) flags.writable
      exact ⟨frameOf, _, backPage_eq hfind hback, h.keep found hpresent⟩
  | false =>
      obtain ⟨number, frames, hback, hinside, hunused, hsettled⟩ :=
        h.frames.sound.exists_back h.frames.aimed (hentry ▸ hpresent) (enough hpresent) flags
      exact ⟨_, _, backPage_eq hfind hback,
        h.take discerns new found hpresent hinside hunused hsettled⟩

/-- One page less is backed, and its entry is as it was before. -/
theorem Backs.unbackPage (h : Backs flags (insert page pages) frameOf space now)
    (tidy : space.Tidy) (discerns : space.directory.Discerns (insert page pages))
    (new : page ∉ pages)
    (found : space.directory.find? (page * pageSize) = some ref)
    (absent : (space.ram.entry ref).present = false) :
    ∃ now', now.unbackPage now.directory (page * pageSize) = .ok now' ∧
      Backs flags pages frameOf space now' := by
  have hmissing := @missing_insert_absent space pages page ref found absent
  have hnew : page ∉ space.missing pages := fun hm => new (mem_missing.mp hm).1
  have hfind : now.directory.find? (page * pageSize) = some ref := by rw [h.same, found]
  have hpage : page ∈ space.missing (insert page pages) := hmissing ▸ Finset.mem_insert_self _ _
  have hlater : ∀ other ∈ space.missing pages, other ∈ space.missing (insert page pages) :=
    fun other hm => hmissing ▸ Finset.mem_insert_of_mem hm
  have howns : (now.ram.entry ref).owns (frameOf page) := by
    rw [h.entry page hpage ref found]
    exact PageEntry.backed_owns _ _
  have hknown : frameOf page < now.frames.total := by
    rw [h.frames.total]
    exact (h.fresh page hpage).1
  obtain ⟨frames, hunback, hsettled⟩ := h.frames.sound.exists_unback h.frames.aimed howns hknown
  refine ⟨{ now with ram := now.ram.setEntry ref .empty, frames }, ?_, ?_⟩
  · simp only [KernelSpace.unbackPage, hfind, unbackEntry, hunback, ok_bind, pure_eq_ok]
  have hout : frameOf page ∉ space.frames.usedNumbers ∪ (space.missing pages).image frameOf := by
    rw [Finset.mem_union, not_or]
    refine ⟨(h.fresh page hpage).2, fun hm => ?_⟩
    obtain ⟨other, hother, heq⟩ := Finset.mem_image.mp hm
    have hsame := h.distinct (hlater other hother) hpage heq
    exact hnew (hsame ▸ hother)
  constructor
  case same => exact h.same
  case frames =>
    rw [h.frames.used, hmissing, Finset.image_insert, Finset.union_insert,
      Finset.erase_insert hout] at hsettled
    exact ⟨hsettled.sound, hsettled.aimed, hsettled.total.trans h.frames.total, hsettled.used⟩
  case others =>
    intro other hother
    simp only [Ram.entry_setEntry]
    split
    · next hsame =>
        subst hsame
        exact (tidy.blank ref absent).symm
    · next hdiffers =>
        refine h.others other ?_
        rw [hmissing, Finset.forall_mem_insert]
        exact ⟨fun heq => hdiffers (Option.some.inj (found.symm.trans heq)), hother⟩
  case entry =>
    intro other hm ref' hfind'
    have hdiffers := discerns.ne new found (mem_missing.mp hm).1 hfind'
    simp only [Ram.entry_setEntry, if_neg hdiffers]
    exact h.entry other (hlater other hm) ref' hfind'
  case fresh => exact fun other hm => h.fresh other (hlater other hm)
  case distinct => exact h.distinct.mono fun other hm => hlater other hm

/-! ## Sweeps -/

section Sweeps

variable {start stop : Nat}

/-- With as many free frames as pages are missing, the sweep finds one for the next of them. -/
theorem Backs.enough {wider : Finset Nat} (h : Backs flags pages frameOf space now)
    (tidy : space.Tidy) (new : page ∉ pages) (inside : insert page pages ⊆ wider)
    (enough : (space.missing wider).card ≤ space.frames.free)
    (found : space.directory.find? (page * pageSize) = some ref)
    (absent : (space.ram.entry ref).present = false) : 0 < now.frames.free := by
  have hcard : (space.missing (insert page pages)).card ≤ (space.missing wider).card :=
    Finset.card_le_card (Finset.filter_subset_filter _ inside)
  rw [missing_insert_absent found absent,
    Finset.card_insert_of_notMem fun hm => new (mem_missing.mp hm).1] at hcard
  have hfree := h.free tidy
  omega

/-- The mapper backs every page of a range that has its tables, if there are frames enough. -/
theorem Tidy.exists_mapPages (tidy : space.Tidy) (aligned : pageSize ∣ start)
    (discerns : space.directory.Discerns (pagesOf start stop))
    (tabled : ∀ page ∈ pagesOf start stop, (space.directory.find? (page * pageSize)).isSome)
    (enough : (space.missing (pagesOf start stop)).card ≤ space.frames.free) (flags : HeapFlags) :
    ∃ frameOf now, (Traced.sweep pageSize (KernelSpace.backPage flags) (pageCount start stop) start
        space).result = .ok (none, now) ∧
      Backs flags (pagesOf start stop) frameOf space now := by
  obtain ⟨first, rfl⟩ := exists_eq_mul_left_of_dvd aligned
  rw [pagesOf_mul] at discerns tabled enough ⊢
  let backed (i : Nat) (s : KernelSpace) : Prop :=
    ∃ frameOf, Backs flags (Finset.Ico first (first + i)) frameOf space s
  have hstep : ∀ i < pageCount (first * pageSize) stop, ∀ s, backed i s → ∃ t,
      (KernelSpace.backPage flags (first * pageSize + i * pageSize) s).result = .ok (none, t) ∧
        backed (i + 1) t := by
    rintro i hi s ⟨frameOf, hbacks⟩
    have hgrown := Finset.insert_Ico_right_eq_Ico_add_one (Nat.le_add_right first i)
    have hinside : insert (first + i) (Finset.Ico first (first + i)) ⊆
        Finset.Ico first (first + pageCount (first * pageSize) stop) := by
      rw [hgrown]
      exact Finset.Ico_subset_Ico_right (by omega)
    have hnew : first + i ∉ Finset.Ico first (first + i) := Finset.right_notMem_Ico
    obtain ⟨ref, hfind⟩ := Option.isSome_iff_exists.mp
      (tabled (first + i) (hinside (Finset.mem_insert_self _ _)))
    obtain ⟨frameOf', t, hback, hbacks'⟩ := hbacks.backPage (discerns.mono hinside) hnew hfind
      (hbacks.enough tidy hnew hinside enough hfind)
    rw [hgrown] at hbacks'
    rw [Nat.add_mul] at hback
    exact ⟨t, hback, frameOf', hbacks'⟩
  have hnothing : backed 0 space := ⟨id, by simpa using Backs.refl tidy flags id⟩
  obtain ⟨now, hsweep, frameOf, hbacks⟩ := Traced.exists_sweep_advances hstep hnothing
  exact ⟨frameOf, now, hsweep, hbacks⟩

/-- Unmapping a range that was bare before it was backed takes everything back. -/
theorem Backs.exists_unmap (h : Backs flags (pagesOf start stop) frameOf space now)
    (tidy : space.Tidy) (aligned : pageSize ∣ start)
    (discerns : space.directory.Discerns (pagesOf start stop))
    (tabled : ∀ page ∈ pagesOf start stop, (space.directory.find? (page * pageSize)).isSome)
    (bare : ∀ page ∈ pagesOf start stop, space.translate (page * pageSize) = none) :
    ∃ now', (mapper.unmap start stop now).result = .ok now' ∧
      Backs flags ∅ frameOf space now' := by
  obtain ⟨first, rfl⟩ := exists_eq_mul_left_of_dvd aligned
  rw [pagesOf_mul] at h discerns tabled bare
  let left (i : Nat) (s : KernelSpace) : Prop := Backs flags
    (Finset.Ico (first + i) (first + pageCount (first * pageSize) stop)) frameOf space s
  have hstep : ∀ i < pageCount (first * pageSize) stop, ∀ s, left i s → ∃ t,
      s.unbackPage s.directory (first * pageSize + i * pageSize) = .ok t ∧ left (i + 1) t := by
    intro i hi s hs
    have hlt : first + i < first + pageCount (first * pageSize) stop := by omega
    have hshrunk := Finset.insert_Ico_add_one_left_eq_Ico hlt
    have hinside : insert (first + i)
        (Finset.Ico (first + i + 1) (first + pageCount (first * pageSize) stop)) ⊆
          Finset.Ico first (first + pageCount (first * pageSize) stop) := by
      rw [hshrunk]
      exact Finset.Ico_subset_Ico_left (by omega)
    have hpage := hinside (Finset.mem_insert_self _ _)
    obtain ⟨ref, hfind⟩ := Option.isSome_iff_exists.mp (tabled (first + i) hpage)
    have habsent := translate_eq_none.mp (bare (first + i) hpage) ref hfind
    have hbacks : Backs flags (Finset.Ico (first + i) _) frameOf space s := hs
    rw [← hshrunk] at hbacks
    obtain ⟨t, hunback, hbacks'⟩ :=
      hbacks.unbackPage tidy (discerns.mono hinside) (by simp) hfind habsent
    rw [Nat.add_mul] at hunback
    exact ⟨t, hunback, hbacks'⟩
  obtain ⟨now', hsweep, hbacks⟩ :
      ∃ t, (mapper.unmap (first * pageSize) stop now).result = .ok t ∧ left _ t :=
    Traced.exists_sweepAll_advances (P := left) hstep h
  exact ⟨now', hsweep, by simpa [left] using hbacks⟩

end Sweeps

end KernelSpace

end KernelCore
