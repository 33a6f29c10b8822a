import Mathlib
import KernelCore.Proofs.Frames.Entries

/-!
# Calls of a frame pool

The six operations of a pool as calls with an answer, and what each does to the set of frame
numbers in use: taking and backing add a frame that was not in it, reserving and mapping add the
named one, releasing removes it. From a sound pool every call about one of its frames is answered
and settles the bitmap as it settles the set; a call about any other frame is a fault.
-/

namespace KernelCore

namespace FramePool

variable {pool pool' : FramePool} {number : Nat} {entry entry' : PageEntry}

/-! ## Operations that come back -/

/-- The next search starts at a frame, or at zero in an empty pool. -/
def Aimed (pool : FramePool) : Prop := pool.hint < pool.total ∨ pool.hint = 0

theorem checkNumber_outside (outside : pool.total ≤ number) :
    pool.checkNumber number = .error (.frameOutOfRange number) := if_neg (Nat.not_lt.mpr outside)

theorem hint_markNumber (h : pool.markNumber number = .ok pool') : pool'.hint = pool.hint := by
  unfold markNumber at h
  obtain ⟨_, -, h⟩ := bind_eq_ok h
  split at h
  all_goals
    obtain rfl := Except.ok.inj h
    rfl

theorem hint_releaseNumber (h : pool.releaseNumber number = .ok pool') :
    pool'.hint = pool.hint := by
  unfold releaseNumber at h
  obtain ⟨_, -, h⟩ := bind_eq_ok h
  split at h
  all_goals
    obtain rfl := Except.ok.inj h
    rfl

theorem exists_markNumber (inside : number < pool.total) :
    ∃ pool', pool.markNumber number = .ok pool' ∧ pool'.total = pool.total := by
  have hcheck : pool.checkNumber number = .ok () := if_pos inside
  simp only [markNumber, hcheck, ok_bind, pure_eq_ok]
  split
  · exact ⟨_, rfl, rfl⟩
  · exact ⟨_, rfl, rfl⟩

theorem exists_advanceHint (inside : pool.hint < pool.total) (step : Nat) :
    ∃ pool', pool.advanceHint step = .ok pool' ∧ pool'.hint < pool'.total := by
  have hpos := Nat.zero_lt_of_lt inside
  exact ⟨_, if_neg (Nat.ne_of_gt hpos), Nat.mod_lt _ hpos⟩

theorem Sound.exists_hintAtFullWord (h : pool.Sound) (inside : pool.hint < pool.total) :
    ∃ full, pool.hintAtFullWord = .ok full := by
  have hplace := h.place_lt inside
  unfold hintAtFullWord
  rw [Array.getElem?_eq_getElem hplace]
  split
  · exact ⟨_, rfl⟩
  · exact ⟨false, rfl⟩

theorem Sound.exists_search (h : pool.Sound) (inside : pool.hint < pool.total) (steps : Nat) :
    ∃ found pool', FramePool.search steps pool = .ok (found, pool') ∧
      pool'.hint < pool'.total := by
  induction steps generalizing pool with
  | zero => exact ⟨none, pool, rfl, inside⟩
  | succ steps ih =>
      unfold FramePool.search
      obtain ⟨full, hfull⟩ := h.exists_hintAtFullWord inside
      simp only [hfull, ok_bind]
      split
      · obtain ⟨moved, hmove, hinside⟩ := exists_advanceHint inside framesPerWord
        simp only [hmove, ok_bind]
        exact ih (h.advanceHint hmove).1 hinside
      have hused : pool.isUsedNumber pool.hint = .ok (pool.bit pool.hint) := by
        simp only [isUsedNumber, checkNumber, if_pos inside, ok_bind, pure_eq_ok]
      simp only [hused, ok_bind]
      split
      · obtain ⟨moved, hmove, hinside⟩ := exists_advanceHint inside 1
        simp only [hmove, ok_bind]
        exact ih (h.advanceHint hmove).1 hinside
      · obtain ⟨taken, hmark, htotal⟩ := exists_markNumber inside
        have hinside : taken.hint < taken.total := by rwa [hint_markNumber hmark, htotal]
        obtain ⟨moved, hmove, hmoved⟩ := exists_advanceHint hinside 1
        simp only [hmark, hmove, ok_bind, pure_eq_ok]
        exact ⟨_, moved, rfl, hmoved⟩

theorem Sound.exists_take (h : pool.Sound) (aimed : pool.Aimed) :
    ∃ found pool', pool.take = .ok (found, pool') ∧ pool'.Aimed := by
  unfold FramePool.take
  split
  · exact ⟨none, pool, rfl, aimed⟩
  · next hfree =>
      have hcounted := h.counted
      have hinside : pool.hint < pool.total := by
        rcases aimed with hlt | hzero
        · exact hlt
        · omega
      obtain ⟨found, pool', hsearch, hhint⟩ := h.exists_search hinside pool.total
      exact ⟨found, pool', hsearch, .inl hhint⟩

theorem Sound.take_none (h : pool.Sound) (htake : pool.take = .ok (none, pool')) :
    pool.free = 0 ∧ pool' = pool := by
  obtain ⟨-, hfree⟩ | ⟨hsome, -⟩ := h.take_free htake
  · unfold FramePool.take at htake
    rw [if_pos hfree] at htake
    obtain ⟨-, rfl⟩ := Prod.mk.injEq .. ▸ Except.ok.inj htake
    exact ⟨hfree, rfl⟩
  · cases hsome

theorem Sound.mem_usedNumbers (h : pool.Sound) :
    number ∈ pool.usedNumbers ↔ pool.bit number = true := by
  rw [usedNumbers, Finset.mem_filter, Finset.mem_range]
  exact ⟨And.right, fun hused => ⟨h.lt_total hused, hused⟩⟩

/-! ## Calls and the set of frames -/

/-- A call of the pool. The entries that it works on come with it and are handed back. -/
inductive Call where
  | take
  | mark (frame : Nat)
  | release (frame : Nat)
  | back (entry : PageEntry) (kernel writable : Bool)
  | map (entry : PageEntry) (frame : Nat) (kernel writable : Bool)
  | unback (entry : PageEntry)

inductive Answer where
  | done
  | found (frame : Option Nat)
  | backed (refused : Option PagingError) (entry : PageEntry)
  | changed (entry : PageEntry)

namespace Call

def perform (pool : FramePool) : Call → Except Fault (Answer × FramePool)
  | take => do
      let (frame, pool) ← pool.take
      return (.found frame, pool)
  | mark frame => return (.done, ← pool.mark frame)
  | release frame => return (.done, ← pool.release frame)
  | back entry kernel writable => do
      let (refused, entry, pool) ← (pool.back entry kernel writable).result
      return (.backed refused entry, pool)
  | map entry frame kernel writable => do
      let (entry, pool) ← pool.map entry frame kernel writable
      return (.changed entry, pool)
  | unback entry => do
      let (entry, pool) ← pool.unback entry
      return (.changed entry, pool)

/-- Number of the frame that a call is about. An entry that is already as asked names none. -/
def target? : Call → Option Nat
  | take | back .. => none
  | mark frame | release frame => some (frame / frameSize)
  | map entry frame .. => if entry.present then none else some (frame / frameSize)
  | unback entry => if entry.present then some (entry.frame / frameSize) else none

def chosen? : Call → Answer → Option Nat
  | take, .found frame => frame
  | back entry .., .backed none entry' => if entry.present then none else some entry'.frame
  | _, _ => none

def freed? : Call → Option Nat
  | release frame => some (frame / frameSize)
  | unback entry => if entry.present then some (entry.frame / frameSize) else none
  | _ => none

def Aligned : Call → Prop
  | map entry frame .. => entry.present = false → frame % pageSize = 0
  | _ => True

/-- What a call does to the set of frames in use. -/
def settle (call : Call) (answer : Answer) (used : Finset Nat) : Finset Nat :=
  match call with
  | take | back .. => (call.chosen? answer).elim used fun frame => insert (frame / frameSize) used
  | mark _ | map .. => call.target?.elim used (insert · used)
  | release _ | unback _ => call.freed?.elim used used.erase

end Call

/-! ## One call -/

/-- What a call keeps of a pool and what it does to the frames in use. -/
structure Settled (pool pool' : FramePool) (used : Finset Nat) : Prop where
  sound : pool'.Sound
  aimed : pool'.Aimed
  total : pool'.total = pool.total
  used : pool'.usedNumbers = used

theorem Sound.settled_mark (h : pool.Sound) (aimed : pool.Aimed)
    (hmark : pool.markNumber number = .ok pool') :
    Settled pool pool' (insert number pool.usedNumbers) := by
  obtain ⟨hsound, hinside, htotal, hbit⟩ := h.mark hmark
  refine ⟨hsound, ?_, htotal, usedNumbers_eq_insert htotal hinside hbit⟩
  rwa [Aimed, hint_markNumber hmark, htotal]

theorem Sound.settled_release (h : pool.Sound) (aimed : pool.Aimed)
    (hrelease : pool.releaseNumber number = .ok pool') :
    Settled pool pool' (pool.usedNumbers.erase number) := by
  obtain ⟨hsound, htotal, hbit⟩ := h.release hrelease
  refine ⟨hsound, ?_, htotal, usedNumbers_eq_erase htotal hbit⟩
  rwa [Aimed, hint_releaseNumber hrelease, htotal]

theorem Sound.settled_take (h : pool.Sound) (aimed : pool.Aimed) {found : Option Nat}
    (htake : pool.take = .ok (found, pool')) :
    (found = none ∧ pool.free = 0 ∧ pool' = pool) ∨
      ∃ number, found = some (number * frameSize) ∧ number < pool.total ∧
        number ∉ pool.usedNumbers ∧ Settled pool pool' (insert number pool.usedNumbers) := by
  have haimed : pool'.Aimed := by
    obtain ⟨again, pool'', hagain, haimed⟩ := h.exists_take aimed
    obtain ⟨rfl, rfl⟩ := Prod.mk.injEq .. ▸ Except.ok.inj (htake.symm.trans hagain)
    exact haimed
  obtain ⟨hsound, htotal, ⟨rfl, -⟩ | ⟨number, rfl, hfree, hbit⟩⟩ := h.take htake
  · obtain ⟨hfree, rfl⟩ := h.take_none htake
    exact .inl ⟨rfl, hfree, rfl⟩
  · have hinside : number < pool.total := by
      rw [← htotal]
      exact hsound.lt_total (by rw [hbit, beq_self_eq_true, Bool.true_or])
    have hfresh : number ∉ pool.usedNumbers := by
      rw [h.mem_usedNumbers, hfree]
      exact Bool.false_ne_true
    exact .inr ⟨number, rfl, hinside, hfresh, hsound, haimed, htotal,
      usedNumbers_eq_insert htotal hinside hbit⟩

/-- Every answered call settles the pool as it settles the set of frames, and a frame that the pool
chooses was not in use. -/
theorem Sound.answered (h : pool.Sound) (aimed : pool.Aimed) {call : Call} {answer : Answer}
    (hperform : call.perform pool = .ok (answer, pool')) :
    Settled pool pool' (call.settle answer pool.usedNumbers) ∧
      ∀ frame, call.chosen? answer = some frame → ∃ number, frame = number * frameSize ∧
        number < pool.total ∧ number ∉ pool.usedNumbers := by
  have hsame : Settled pool pool pool.usedNumbers := ⟨h, aimed, rfl, rfl⟩
  have hnumber (number : Nat) : number * frameSize / frameSize = number :=
    Nat.mul_div_cancel number (by decide)
  cases call with
  | take =>
      obtain ⟨⟨found, taken⟩, htake, hperform⟩ := bind_eq_ok hperform
      obtain ⟨rfl, rfl⟩ := Prod.mk.injEq .. ▸ Except.ok.inj hperform
      obtain ⟨rfl, -, rfl⟩ | ⟨number, rfl, hinside, hfresh, hsettled⟩ := h.settled_take aimed htake
      · exact ⟨hsame, fun _ hchosen => by cases hchosen⟩
      · refine ⟨by simpa [Call.settle, Call.chosen?, hnumber] using hsettled, ?_⟩
        rintro _ ⟨⟩
        exact ⟨number, rfl, hinside, hfresh⟩
  | mark frame =>
      obtain ⟨marked, hmark, hperform⟩ := bind_eq_ok hperform
      obtain ⟨rfl, rfl⟩ := Prod.mk.injEq .. ▸ Except.ok.inj hperform
      exact ⟨h.settled_mark aimed hmark, fun _ hchosen => by cases hchosen⟩
  | release frame =>
      obtain ⟨released, hrelease, hperform⟩ := bind_eq_ok hperform
      obtain ⟨rfl, rfl⟩ := Prod.mk.injEq .. ▸ Except.ok.inj hperform
      exact ⟨h.settled_release aimed hrelease, fun _ hchosen => by cases hchosen⟩
  | back entry kernel writable =>
      obtain ⟨⟨refused, entry', taken⟩, hback, hperform⟩ := bind_eq_ok hperform
      obtain ⟨rfl, rfl⟩ := Prod.mk.injEq .. ▸ Except.ok.inj hperform
      obtain ⟨hpresent, rfl, rfl, rfl⟩ | ⟨-, rfl, rfl, htake⟩ |
        ⟨habsent, rfl, frame, htake, hmake⟩ := back_eq_ok hback
      · simpa [Call.settle, Call.chosen?, hpresent] using hsame
      · obtain ⟨-, -, rfl⟩ | ⟨_, hfound, -⟩ := h.settled_take aimed htake
        · exact ⟨hsame, fun _ hchosen => by cases hchosen⟩
        · cases hfound
      · obtain ⟨hfound, -⟩ | ⟨number, hfound, hinside, hfresh, hsettled⟩ :=
          h.settled_take aimed htake
        · cases hfound
        · obtain rfl := Option.some.inj hfound
          obtain ⟨-, hframe⟩ := PageEntry.make_frame hmake
          refine ⟨by simpa [Call.settle, Call.chosen?, habsent, hframe, hnumber] using hsettled, ?_⟩
          intro frame hchosen
          obtain rfl : number * frameSize = frame := by
            simpa [Call.chosen?, habsent, hframe] using hchosen
          exact ⟨number, rfl, hinside, hfresh⟩
  | map entry frame kernel writable =>
      obtain ⟨⟨entry', marked⟩, hmap, hperform⟩ := bind_eq_ok hperform
      obtain ⟨rfl, rfl⟩ := Prod.mk.injEq .. ▸ Except.ok.inj hperform
      obtain ⟨hpresent, rfl, rfl⟩ | ⟨habsent, hmark, -⟩ := map_eq_ok hmap
      · exact ⟨by simpa [Call.settle, Call.target?, hpresent] using hsame,
          fun _ hchosen => by cases hchosen⟩
      · exact ⟨by simpa [Call.settle, Call.target?, habsent] using h.settled_mark aimed hmark,
          fun _ hchosen => by cases hchosen⟩
  | unback entry =>
      obtain ⟨⟨entry', released⟩, hunback, hperform⟩ := bind_eq_ok hperform
      obtain ⟨rfl, rfl⟩ := Prod.mk.injEq .. ▸ Except.ok.inj hperform
      obtain ⟨hpresent, -, hrelease⟩ | ⟨habsent, rfl, rfl⟩ := unback_eq_ok hunback
      · exact ⟨by simpa [Call.settle, Call.freed?, hpresent] using h.settled_release aimed hrelease,
          fun _ hchosen => by cases hchosen⟩
      · exact ⟨by simpa [Call.settle, Call.freed?, habsent] using hsame,
          fun _ hchosen => by cases hchosen⟩

theorem Sound.exists_perform (h : pool.Sound) (aimed : pool.Aimed) {call : Call}
    (inside : ∀ number, call.target? = some number → number < pool.total)
    (aligned : call.Aligned) : ∃ answer pool', call.perform pool = .ok (answer, pool') := by
  cases call with
  | take =>
      obtain ⟨found, pool', htake, -⟩ := h.exists_take aimed
      exact ⟨.found found, pool', by simp [Call.perform, htake]⟩
  | mark frame =>
      obtain ⟨pool', hmark, -⟩ := exists_markNumber (inside _ rfl)
      exact ⟨.done, pool', by simp [Call.perform, FramePool.mark, hmark]⟩
  | release frame =>
      obtain ⟨pool', hrelease, -⟩ := exists_releaseNumber (inside _ rfl)
      exact ⟨.done, pool', by simp [Call.perform, FramePool.release, hrelease]⟩
  | back entry kernel writable =>
      obtain ⟨found, pool', htake, -⟩ := h.exists_take aimed
      cases hentry : entry.present with
      | true => exact ⟨.backed none entry, pool, by simp [Call.perform, FramePool.back, hentry]⟩
      | false =>
          obtain ⟨rfl, -⟩ | ⟨number, rfl, -⟩ := h.settled_take aimed htake
          · exact ⟨.backed (some .outOfFrames) entry, pool',
              by simp [Call.perform, FramePool.back, hentry, htake]⟩
          · obtain ⟨made, hmake⟩ := PageEntry.exists_make (Nat.mul_mod_left number pageSize)
              (PageFlag.ofAccess kernel writable)
            exact ⟨.backed none made, pool', by simp [Call.perform, FramePool.back, hentry, htake, hmake]⟩
  | map entry frame kernel writable =>
      cases hentry : entry.present with
      | true => exact ⟨.changed entry, pool, by simp [Call.perform, FramePool.map, hentry]⟩
      | false =>
          obtain ⟨pool', hmark, -⟩ :=
            exists_markNumber (inside (frame / frameSize) (by simp [Call.target?, hentry]))
          obtain ⟨made, hmake⟩ :=
            PageEntry.exists_make (aligned hentry) (PageFlag.ofAccess kernel writable)
          exact ⟨.changed made, pool', by simp [Call.perform, FramePool.map, FramePool.mark, hentry, hmark, hmake]⟩
  | unback entry =>
      have hknown : ∀ number, entry.owns number → number < pool.total := by
        rintro number ⟨hpresent, rfl⟩
        exact inside _ (by simp [Call.target?, hpresent])
      obtain ⟨entry', pool', hunback, -⟩ := exists_unback hknown
      exact ⟨.changed entry', pool', by simp [Call.perform, hunback]⟩

theorem perform_outside {call : Call} (target : call.target? = some number)
    (outside : pool.total ≤ number) : call.perform pool = .error (.frameOutOfRange number) := by
  have hcheck := checkNumber_outside outside
  cases call with
  | take => cases target
  | back => cases target
  | mark frame =>
      obtain rfl := Option.some.inj target
      simp [Call.perform, mark, markNumber, hcheck]
  | release frame =>
      obtain rfl := Option.some.inj target
      simp [Call.perform, release, releaseNumber, hcheck]
  | map entry frame kernel writable =>
      simp only [Call.target?, Option.ite_none_left_eq_some, Option.some.injEq] at target
      obtain ⟨habsent, rfl⟩ := target
      simp [Call.perform, map, mark, markNumber, habsent, hcheck]
  | unback entry =>
      simp only [Call.target?, Option.ite_none_right_eq_some, Option.some.injEq] at target
      obtain ⟨hpresent, rfl⟩ := target
      simp [Call.perform, unback, release, releaseNumber, hpresent, hcheck]

end FramePool

end KernelCore
