import Mathlib
import KernelCore.FramePool.Backing
import KernelCore.Proofs.Frames.Pool

/-!
# What becomes of an entry and its frame

Each operation on one entry and the pool is an exchange: it changes neither, or an absent entry
takes a free frame, or a present one gives its frame up.
-/

namespace KernelCore

def PageEntry.owns (entry : PageEntry) (number : Nat) : Prop :=
  entry.present = true ∧ entry.frame / frameSize = number

theorem PageEntry.owns.unique {entry : PageEntry} {a b : Nat} (ha : entry.owns a)
    (hb : entry.owns b) : a = b :=
  ha.2.symm.trans hb.2

theorem PageEntry.not_owns {entry : PageEntry} (absent : entry.present = false) (number : Nat) :
    ¬entry.owns number := by
  rintro ⟨hpresent, -⟩
  rw [absent] at hpresent
  contradiction

theorem PageEntry.make_owns {frame : Nat} {kernel writable : Bool} {entry : PageEntry}
    (h : PageEntry.make frame (PageFlag.ofAccess kernel writable) = .ok entry) :
    entry.owns (frame / frameSize) := by
  unfold PageEntry.make at h
  split at h
  · next haligned =>
      obtain rfl := Except.ok.inj h
      obtain ⟨number, rfl⟩ := Nat.dvd_of_mod_eq_zero haligned
      have hflags : PageFlag.ofAccess kernel writable < 2 ^ 12 ∧
          PageFlag.ofAccess kernel writable % 2 = 1 := by
        cases kernel <;> cases writable <;> decide
      have hword : pageSize * number ||| PageFlag.ofAccess kernel writable =
          4096 * number + PageFlag.ofAccess kernel writable :=
        (Nat.two_pow_add_eq_or_of_lt hflags.1 number).symm
      constructor
      · have hodd : (4096 * number + PageFlag.ofAccess kernel writable) % 2 = 1 := by omega
        rw [PageEntry.present, hword, Nat.testBit_zero, decide_eq_true_eq]
        exact hodd
      · have hfloor : pageFloor (4096 * number + PageFlag.ofAccess kernel writable) =
            4096 * number := by
          unfold pageFloor pageSize
          omega
        rw [PageEntry.frame, hword, hfloor]
  · contradiction

theorem PageEntry.exists_make {frame : Nat} (aligned : frame % pageSize = 0) (flags : Nat) :
    ∃ entry, PageEntry.make frame flags = .ok entry := ⟨_, if_pos aligned⟩

theorem PageEntry.make_frame {frame : Nat} {kernel writable : Bool} {entry : PageEntry}
    (h : PageEntry.make frame (PageFlag.ofAccess kernel writable) = .ok entry) :
    frame % pageSize = 0 ∧ entry.frame = frame := by
  obtain ⟨-, hnumber⟩ := PageEntry.make_owns h
  have haligned : frame % pageSize = 0 := by
    unfold PageEntry.make at h
    split at h
    · assumption
    · contradiction
  refine ⟨haligned, ?_⟩
  rw [PageEntry.frame, pageFloor_eq, Nat.mul_div_cancel _ (by decide)] at hnumber
  rw [PageEntry.frame, pageFloor_eq, hnumber]
  exact Nat.div_mul_cancel (Nat.dvd_of_mod_eq_zero haligned)

/-- How an entry and the frame pool change together. -/
inductive Exchange (entry : PageEntry) (pool : FramePool) : PageEntry → FramePool → Prop
  | kept {pool' : FramePool} :
      (∀ number, pool'.bit number = pool.bit number) → Exchange entry pool entry pool'
  | taken {entry' : PageEntry} {pool' : FramePool} (number : Nat) :
      entry.present = false → entry'.owns number → pool.bit number = false →
      (∀ other, pool'.bit other = (number == other || pool.bit other)) →
      Exchange entry pool entry' pool'
  | given {entry' : PageEntry} {pool' : FramePool} (number : Nat) :
      entry.owns number → entry'.present = false →
      (∀ other, pool'.bit other = (number != other && pool.bit other)) →
      Exchange entry pool entry' pool'

namespace FramePool

variable {pool pool' : FramePool} {entry entry' : PageEntry}

theorem back_eq_ok {kernel writable : Bool} {refused : Option PagingError}
    (hback : (pool.back entry kernel writable).result = .ok (refused, entry', pool')) :
    (entry.present = true ∧ refused = none ∧ entry' = entry ∧ pool' = pool) ∨
      (entry.present = false ∧ refused = some .outOfFrames ∧ entry' = entry ∧
        pool.take = .ok (none, pool')) ∨
      (entry.present = false ∧ refused = none ∧ ∃ frame,
        pool.take = .ok (some frame, pool') ∧
        PageEntry.make frame (PageFlag.ofAccess kernel writable) = .ok entry') := by
  unfold FramePool.back at hback
  split at hback
  · next hpresent =>
      simp only [Traced.result_bind, Traced.result_note, ok_bind, Traced.result_pure,
        Except.ok.injEq, Prod.mk.injEq] at hback
      obtain ⟨rfl, rfl, rfl⟩ := hback
      exact .inl ⟨hpresent, rfl, rfl, rfl⟩
  · next hpresent =>
      have habsent : entry.present = false := by simpa using hpresent
      simp only [Traced.result_bind, Traced.result_lift] at hback
      obtain ⟨⟨found, taken⟩, htake, hback⟩ := bind_eq_ok hback
      cases found with
      | none =>
          simp only [Traced.result_pure, Except.ok.injEq, Prod.mk.injEq] at hback
          obtain ⟨rfl, rfl, rfl⟩ := hback
          exact .inr (.inl ⟨habsent, rfl, rfl, htake⟩)
      | some frame =>
          simp only [Traced.result_bind, Traced.result_lift] at hback
          obtain ⟨made, hmake, hback⟩ := bind_eq_ok hback
          simp only [Traced.result_pure, Except.ok.injEq, Prod.mk.injEq] at hback
          obtain ⟨rfl, rfl, rfl⟩ := hback
          exact .inr (.inr ⟨habsent, rfl, frame, htake, hmake⟩)

theorem Sound.back (h : pool.Sound) {kernel writable : Bool} {refused : Option PagingError}
    (hback : (pool.back entry kernel writable).result = .ok (refused, entry', pool')) :
    pool'.Sound ∧ Exchange entry pool entry' pool' := by
  obtain ⟨-, -, rfl, rfl⟩ | ⟨-, -, rfl, htake⟩ | ⟨habsent, -, frame, htake, hmake⟩ :=
    back_eq_ok hback
  · exact ⟨h, .kept fun _ => rfl⟩
  · obtain ⟨hsound, -, ⟨-, hbit⟩ | ⟨_, hfound, -⟩⟩ := h.take htake
    · exact ⟨hsound, .kept hbit⟩
    · cases hfound
  · obtain ⟨hsound, -, ⟨hfound, -⟩ | ⟨number, hfound, hfree, hbit⟩⟩ := h.take htake
    · cases hfound
    · obtain rfl := Option.some.inj hfound
      have howns := PageEntry.make_owns hmake
      rw [Nat.mul_div_cancel _ (by decide)] at howns
      exact ⟨hsound, .taken number habsent howns hfree hbit⟩

theorem Sound.back_cases (h : pool.Sound) {kernel writable : Bool} {refused : Option PagingError}
    (hback : (pool.back entry kernel writable).result = .ok (refused, entry', pool')) :
    (entry.present = true ∧ refused = none ∧ pool'.free = pool.free) ∨
      (entry.present = false ∧ refused = none ∧ pool'.free + 1 = pool.free) ∨
        entry.present = false ∧ refused = some .outOfFrames ∧ pool.free = 0 := by
  obtain ⟨hpresent, hrefused, -, rfl⟩ | ⟨habsent, hrefused, -, htake⟩ |
    ⟨habsent, hrefused, frame, htake, -⟩ := back_eq_ok hback
  · exact .inl ⟨hpresent, hrefused, rfl⟩
  · obtain ⟨-, hnone⟩ | ⟨hsome, -⟩ := h.take_free htake
    · exact .inr (.inr ⟨habsent, hrefused, hnone⟩)
    · cases hsome
  · obtain ⟨hnone, -⟩ | ⟨-, hfree⟩ := h.take_free htake
    · cases hnone
    · exact .inr (.inl ⟨habsent, hrefused, hfree⟩)

theorem back_present {kernel writable : Bool} {refused : Option PagingError}
    (hback : (pool.back entry kernel writable).result = .ok (refused, entry', pool'))
    (present : entry.present = true ∨ refused = none) : entry'.present = true := by
  obtain ⟨hpresent, -, rfl, -⟩ | ⟨habsent, rfl, -⟩ | ⟨-, -, frame, -, hmake⟩ := back_eq_ok hback
  · exact hpresent
  · simp [habsent] at present
  · exact (PageEntry.make_owns hmake).1

/-- Nothing but a want of frames keeps an entry from being backed. -/
theorem back_refused {kernel writable : Bool} {cause : PagingError}
    (hback : (pool.back entry kernel writable).result = .ok (some cause, entry', pool')) :
    cause = .outOfFrames := by
  obtain ⟨-, hrefused, -⟩ | ⟨-, hrefused, -⟩ | ⟨-, hrefused, -⟩ := back_eq_ok hback
  · cases hrefused
  · exact Option.some.inj hrefused
  · cases hrefused

theorem map_eq_ok {frame : Nat} {kernel writable : Bool}
    (hmap : pool.map entry frame kernel writable = .ok (entry', pool')) :
    (entry.present = true ∧ entry' = entry ∧ pool' = pool) ∨
      (entry.present = false ∧ pool.markNumber (frame / frameSize) = .ok pool' ∧
        PageEntry.make frame (PageFlag.ofAccess kernel writable) = .ok entry') := by
  unfold FramePool.map at hmap
  split at hmap
  · next hpresent =>
      obtain ⟨rfl, rfl⟩ := Prod.mk.injEq .. ▸ Except.ok.inj hmap
      exact .inl ⟨hpresent, rfl, rfl⟩
  · next hpresent =>
      obtain ⟨marked, hmark, hmap⟩ := bind_eq_ok hmap
      obtain ⟨made, hmake, hmap⟩ := bind_eq_ok hmap
      obtain ⟨rfl, rfl⟩ := Prod.mk.injEq .. ▸ Except.ok.inj hmap
      exact .inr ⟨by simpa using hpresent, hmark, hmake⟩

theorem unback_eq_ok (hunback : pool.unback entry = .ok (entry', pool')) :
    (entry.present = true ∧ entry' = .empty ∧
      pool.releaseNumber (entry.frame / frameSize) = .ok pool') ∨
      (entry.present = false ∧ entry' = entry ∧ pool' = pool) := by
  unfold FramePool.unback at hunback
  split at hunback
  · next hpresent =>
      obtain ⟨released, hrelease, hunback⟩ := bind_eq_ok hunback
      obtain ⟨rfl, rfl⟩ := Prod.mk.injEq .. ▸ Except.ok.inj hunback
      exact .inl ⟨hpresent, rfl, hrelease⟩
  · next habsent =>
      obtain ⟨rfl, rfl⟩ := Prod.mk.injEq .. ▸ Except.ok.inj hunback
      exact .inr ⟨by simpa using habsent, rfl, rfl⟩

theorem Sound.map (h : pool.Sound) {frame : Nat} {kernel writable : Bool}
    (free : entry.present = false → pool.bit (frame / frameSize) = false)
    (hmap : pool.map entry frame kernel writable = .ok (entry', pool')) :
    pool'.Sound ∧ Exchange entry pool entry' pool' ∧
      (entry' = entry ∨ entry'.owns (frame / frameSize)) := by
  obtain ⟨-, rfl, rfl⟩ | ⟨habsent, hmark, hmake⟩ := map_eq_ok hmap
  · exact ⟨h, .kept fun _ => rfl, .inl rfl⟩
  · obtain ⟨hsound, -, -, hbit⟩ := h.mark hmark
    have howns := PageEntry.make_owns hmake
    exact ⟨hsound, .taken _ habsent howns (free habsent) hbit, .inr howns⟩

theorem unback_absent (hunback : pool.unback entry = .ok (entry', pool')) :
    entry'.present = false := by
  obtain ⟨-, rfl, -⟩ | ⟨habsent, rfl, -⟩ := unback_eq_ok hunback
  · rfl
  · exact habsent

theorem Sound.unback (h : pool.Sound) (hunback : pool.unback entry = .ok (entry', pool')) :
    pool'.Sound ∧ Exchange entry pool entry' pool' ∧ entry'.present = false := by
  have habsent := unback_absent hunback
  obtain ⟨hpresent, -, hrelease⟩ | ⟨-, rfl, rfl⟩ := unback_eq_ok hunback
  · obtain ⟨hsound, -, hbit⟩ := h.release hrelease
    exact ⟨hsound, .given _ ⟨hpresent, rfl⟩ habsent hbit, habsent⟩
  · exact ⟨h, .kept fun _ => rfl, habsent⟩

theorem exists_unback (known : ∀ number, entry.owns number → number < pool.total) :
    ∃ entry' pool', pool.unback entry = .ok (entry', pool') ∧ pool'.total = pool.total := by
  unfold FramePool.unback
  by_cases hpresent : entry.present = true
  · obtain ⟨released, hrelease, htotal⟩ := exists_releaseNumber (known _ ⟨hpresent, rfl⟩)
    refine ⟨.empty, released, ?_, htotal⟩
    rw [if_pos hpresent, release, hrelease]
    rfl
  · exact ⟨entry, pool, by rw [if_neg hpresent]; rfl, rfl⟩

end FramePool

end KernelCore
