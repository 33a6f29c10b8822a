import Mathlib
import KernelCore.Proofs.Frames.Accounting

/-!
# The search for a free frame as a scan round the pool

A search skips words that are full and looks at the other frames one by one, and the number of its
steps is bounded. What it answers is what a plain scan round the pool answers, which looks at every
frame from the hint on: the first that is clear. A skipped word lies within the pool, since no bit
past the last frame is set, so the skip comes past used frames only and never round the end; and the
bound on the steps is never what ends a search of a pool with a free frame.
-/

namespace KernelCore

namespace FramePool

variable {pool : FramePool} {number : Nat}

/-! ## The scan -/

/-- The frame that a scan looks at after `k` others, going round the pool from the hint on. -/
def nth (pool : FramePool) (k : Nat) : Nat := (pool.hint + k) % pool.total

structure FirstClear (pool : FramePool) (k : Nat) : Prop where
  clear : pool.bit (pool.nth k) = false
  passed : ∀ j < k, pool.bit (pool.nth j) = true

theorem FirstClear.isLeast {k : Nat} (first : pool.FirstClear k) :
    IsLeast { k | pool.bit (pool.nth k) = false } k := by
  refine ⟨first.clear, fun j clear => Nat.le_of_not_lt fun earlier => ?_⟩
  exact Bool.false_ne_true (clear.symm.trans (first.passed j earlier))

theorem exists_firstClear (inside : number < pool.total) (clear : pool.bit number = false) :
    ∃ k < pool.total, pool.FirstClear k := by
  obtain ⟨k, hk, rfl⟩ := exists_offset pool.hint inside
  have hexists : ∃ k, pool.bit (pool.nth k) = false := ⟨k, clear⟩
  refine ⟨Nat.find hexists, Nat.lt_of_le_of_lt (Nat.find_min' hexists clear) hk,
    Nat.find_spec hexists, fun j hj => ?_⟩
  simpa using Nat.find_min hexists hj

def passing (pool : FramePool) (step : Nat) : FramePool := { pool with hint := pool.nth step }

theorem nth_passing (pool : FramePool) (step k : Nat) :
    (pool.passing step).nth k = pool.nth (step + k) := by
  simp only [nth, passing, Nat.mod_add_mod, Nat.add_assoc]

theorem Sound.passing (h : pool.Sound) (step : Nat) : (pool.passing step).Sound :=
  ⟨h.stored, h.beyond, h.counted⟩

theorem FirstClear.passing {step k : Nat} (first : pool.FirstClear (step + k)) :
    (pool.passing step).FirstClear k where
  clear := by
    rw [nth_passing]
    exact first.clear
  passed j hj := by
    rw [nth_passing]
    exact first.passed (step + j) (by omega)

theorem advanceHint_eq (inside : pool.hint < pool.total) (step : Nat) :
    pool.advanceHint step = .ok (pool.passing step) :=
  if_neg (Nat.ne_of_gt (Nat.zero_lt_of_lt inside))

theorem nth_lt (inside : pool.hint < pool.total) (k : Nat) : pool.nth k < pool.total :=
  Nat.mod_lt _ (Nat.zero_lt_of_lt inside)

/-! ## The search -/

theorem Sound.full_word (h : pool.Sound) (full : pool.hintAtFullWord = .ok true) :
    pool.hint + framesPerWord ≤ pool.total ∧
      ∀ k < framesPerWord, pool.bit (pool.hint + k) = true := by
  have hused : ∀ k < framesPerWord, pool.bit (pool.hint + k) = true := fun k hk =>
    bit_of_hintAtFullWord full hk
  have hlast := h.lt_total (hused (framesPerWord - 1) (by decide))
  refine ⟨?_, hused⟩
  unfold framesPerWord at *
  omega

/-- The scan does not find a frame within a full word. -/
theorem Sound.le_of_full (h : pool.Sound) (full : pool.hintAtFullWord = .ok true) {k : Nat}
    (first : pool.FirstClear k) : framesPerWord ≤ k := by
  obtain ⟨hinside, hused⟩ := h.full_word full
  refine Nat.le_of_not_lt fun hk => ?_
  have hclear := first.clear
  rw [nth, Nat.mod_eq_of_lt (by omega), hused k hk] at hclear
  exact Bool.false_ne_true hclear.symm

def takenAt (pool : FramePool) (number : Nat) : FramePool :=
  { pool.changeWord number (pool.free - 1) (· ||| mask number) with
    hint := (number + 1) % pool.total }

theorem exists_takenAt (inside : pool.hint < pool.total) (clear : pool.bit pool.hint = false) :
    ∃ marked, pool.markNumber pool.hint = .ok marked ∧
      marked.advanceHint 1 = .ok (pool.takenAt pool.hint) := by
  refine ⟨pool.changeWord pool.hint (pool.free - 1) (· ||| mask pool.hint), ?_,
    @advanceHint_eq (pool.changeWord _ _ _) inside 1⟩
  simp only [markNumber, checkNumber, if_pos inside, ok_bind, clear, Bool.false_eq_true, if_false,
    pure_eq_ok]

/-- A search finds what the scan finds, within one step for each frame that the scan looks at. -/
theorem Sound.search_eq {k steps : Nat} (h : pool.Sound) (inside : pool.hint < pool.total)
    (first : pool.FirstClear k) (enough : k < steps) :
    FramePool.search steps pool =
      .ok (some (pool.nth k * frameSize), pool.takenAt (pool.nth k)) := by
  induction steps generalizing pool k with
  | zero => exact absurd enough (Nat.not_lt_zero k)
  | succ steps ih =>
      -- Behind `step` passed frames the same frame is found, `step` places nearer.
      have go_on (step j : Nat) (positive : 0 < step) (split : k = step + j) :
          FramePool.search steps (pool.passing step) =
            .ok (some (pool.nth k * frameSize), pool.takenAt (pool.nth k)) := by
        subst split
        have hrest := ih (h.passing step) (nth_lt inside step) first.passing (by omega)
        rw [hrest, nth_passing]
        rfl
      unfold FramePool.search
      obtain ⟨full, hfull⟩ := h.exists_hintAtFullWord inside
      have hused : pool.isUsedNumber pool.hint = .ok (pool.bit pool.hint) := by
        simp only [isUsedNumber, checkNumber, if_pos inside, ok_bind, pure_eq_ok]
      have hstart : pool.nth 0 = pool.hint := Nat.mod_eq_of_lt inside
      cases full with
      | true =>
          obtain ⟨j, hsplit⟩ := Nat.exists_eq_add_of_le (h.le_of_full hfull first)
          simp only [hfull, ok_bind, if_true, advanceHint_eq inside]
          exact go_on framesPerWord j (by decide) hsplit
      | false =>
          simp only [hfull, hused, ok_bind, Bool.false_eq_true, if_false]
          cases hbit : pool.bit pool.hint with
          | true =>
              have hpos : k ≠ 0 := by
                rintro rfl
                have hclear := first.clear
                rw [hstart, hbit] at hclear
                exact Bool.false_ne_true hclear.symm
              simp only [if_true, ok_bind, advanceHint_eq inside]
              exact go_on 1 (k - 1) (by decide) (by omega)
          | false =>
              have hzero : k = 0 := Nat.eq_zero_of_not_pos fun hpos => by
                have hpassed := first.passed 0 hpos
                rw [hstart, hbit] at hpassed
                exact Bool.false_ne_true hpassed
              obtain ⟨marked, hmark, hmoved⟩ := exists_takenAt inside hbit
              simp only [Bool.false_eq_true, if_false, hmark, hmoved, ok_bind, pure_eq_ok, hzero,
                hstart]

/-! ## Taking a frame -/

structure Took (pool : FramePool) (number : Nat) (pool' : FramePool) : Prop where
  total : pool'.total = pool.total
  /-- The bit of that frame is set, and no other changes. -/
  bits : ∀ other, pool'.bit other = (number == other || pool.bit other)
  free : pool'.free + 1 = pool.free
  /-- The next search starts just past it. -/
  hint : pool'.hint = (number + 1) % pool.total

theorem Sound.took (h : pool.Sound) (inside : number < pool.total)
    (clear : pool.bit number = false) : Took pool number (pool.takenAt number) where
  total := rfl
  bits other := bit_setMask pool number (pool.free - 1) other (h.place_lt inside)
  free := by
    have hfresh : number ∈ Finset.range pool.total \ pool.usedNumbers := by
      simp [usedNumbers, inside, clear]
    have hpos := Finset.card_pos.mpr ⟨number, hfresh⟩
    have hsub : pool.usedNumbers ⊆ Finset.range pool.total := Finset.filter_subset _ _
    have hcounted := h.counted
    rw [Finset.card_sdiff_of_subset hsub, Finset.card_range] at hpos
    simp only [takenAt, changeWord]
    omega
  hint := rfl

structure Scanned (pool : FramePool) : Prop where
  /-- If a frame is free, it takes the first clear one from the hint on. The search for it ends
  within one step for each frame looked at, and goes on no further whatever the bound. -/
  found : (∃ number < pool.total, pool.bit number = false) → ∃ k pool',
    IsLeast { k | pool.bit ((pool.hint + k) % pool.total) = false } k ∧ k < pool.total ∧
      pool.take = .ok (some ((pool.hint + k) % pool.total * frameSize), pool') ∧
      Took pool ((pool.hint + k) % pool.total) pool' ∧
      ∀ steps, k < steps → search steps pool = pool.take
  /-- If none is, it finds none and changes nothing. -/
  none : (∀ number < pool.total, pool.bit number = true) → pool.take = .ok (none, pool)
  /-- Wherever a search comes past a full word, that word lies within the pool and its frames are in
  use. -/
  skips : ∀ hint < pool.total, hintAtFullWord { pool with hint } = .ok true →
    hint + framesPerWord ≤ pool.total ∧ ∀ j < framesPerWord, pool.bit (hint + j) = true

theorem Sound.scanned (h : pool.Sound) (aimed : pool.Aimed) : Scanned pool where
  found := by
    rintro ⟨number, inside, clear⟩
    have hinside : pool.hint < pool.total := by
      rcases aimed with hlt | hzero
      · exact hlt
      · omega
    obtain ⟨k, hk, first⟩ := exists_firstClear inside clear
    have hsearch := fun steps => @Sound.search_eq pool k steps h hinside first
    have hfree : pool.free ≠ 0 := by
      have htook := (h.took (nth_lt hinside k) first.clear).free
      omega
    have htake : pool.take = .ok (some (pool.nth k * frameSize), pool.takenAt (pool.nth k)) := by
      rw [FramePool.take, if_neg hfree]
      exact hsearch pool.total hk
    exact ⟨k, _, first.isLeast, hk, htake, h.took (nth_lt hinside k) first.clear,
      fun steps enough => (hsearch steps enough).trans htake.symm⟩
  none := by
    intro used
    have hall : pool.usedNumbers = Finset.range pool.total :=
      Finset.filter_true_of_mem fun number hnumber => used number (Finset.mem_range.mp hnumber)
    have hcounted := h.counted
    rw [hall, Finset.card_range] at hcounted
    rw [FramePool.take, if_pos (by omega)]
  skips hint _ full := by
    have hmoved : Sound { pool with hint } := ⟨h.stored, h.beyond, h.counted⟩
    exact hmoved.full_word full

/-! ## Every pool there can be -/

/-- An address off the page boundary is found out when its frame is already reserved. -/
theorem InPlace.runOn_map_marked {entry : PageEntry} {frame : Nat} {kernel writable : Bool}
    {pool' : FramePool} (absent : entry.present = false)
    (hmark : pool.markNumber (frame / frameSize) = .ok pool') :
    ((InPlace.map frame kernel writable).runOn pool entry).2.1 = pool' := by
  cases hmake : PageEntry.make frame (PageFlag.ofAccess kernel writable) <;>
    simp [InPlace.map, runOn_bind, absent, hmark, hmake, allOrNothing]

/-- Work in place keeps a pool sound, also where it ends in a fault. -/
theorem Sound.runOn (h : pool.Sound) (aimed : pool.Aimed) (call : Call) (atHand : PageEntry) :
    Sound (call.inPlace.runOn pool (call.entryOr atHand)).2.1 ∧
      Aimed (call.inPlace.runOn pool (call.entryOr atHand)).2.1 ∧
      FramePool.total (call.inPlace.runOn pool (call.entryOr atHand)).2.1 = pool.total := by
  by_cases early : call.Aligned ∨ ∃ number, call.target? = some number ∧ pool.total ≤ number
  · rw [runOn_inPlace call atHand early]
    cases hperform : call.perform pool with
    | error cause => exact ⟨h, aimed, rfl⟩
    | ok answered =>
        obtain ⟨hsettled, -⟩ := h.answered aimed hperform
        exact ⟨hsettled.sound, hsettled.aimed, hsettled.total⟩
  obtain ⟨unaligned, inside⟩ := not_or.mp early
  cases call with
  | map entry frame kernel writable =>
      have absent : entry.present = false := (Classical.not_imp.mp unaligned).1
      have known : frame / frameSize < pool.total := Nat.lt_of_not_le fun outside =>
        inside ⟨_, by simp [Call.target?, absent], outside⟩
      obtain ⟨marked, hmark, -⟩ := exists_markNumber known
      have hsettled := h.settled_mark aimed hmark
      simp only [Call.inPlace, Call.entryOr, InPlace.runOn_map_marked absent hmark]
      exact ⟨hsettled.sound, hsettled.aimed, hsettled.total⟩
  | _ => exact absurd trivial unaligned

/-- The pools that any work leads to from a cleared bitmap, whatever it comes to. -/
inductive Worked (words total : Nat) : FramePool → Prop
  | cleared {pool : FramePool} (h : FramePool.cleared words total = .ok pool) :
      Worked words total pool
  | call {pool : FramePool} (before : Worked words total pool) (call : Call)
      (atHand : PageEntry) :
      Worked words total (call.inPlace.runOn pool (call.entryOr atHand)).2.1

variable {words total : Nat}

theorem Worked.sound (h : Worked words total pool) :
    pool.Sound ∧ pool.Aimed ∧ pool.total = total := by
  induction h with
  | cleared hcleared =>
      obtain ⟨hsound, haimed, htotal, -⟩ := (Ran.cleared hcleared).settled
      exact ⟨hsound, haimed, htotal⟩
  | call _ call atHand ih =>
      obtain ⟨hsound, haimed, htotal⟩ := ih
      obtain ⟨hsound', haimed', htotal'⟩ := hsound.runOn haimed call atHand
      exact ⟨hsound', haimed', htotal'.trans htotal⟩

/-- Calls that were all answered are work that came to no fault. -/
theorem Ran.worked {trace : Trace} (ran : Ran words total trace pool) :
    Worked words total pool := by
  induction ran with
  | cleared h => exact .cleared h
  | @step trace pool pool' call answer _ answered ih =>
      have aligned : call.Aligned := by
        cases call with
        | map entry frame kernel writable =>
            intro absent
            obtain ⟨⟨made, marked⟩, hmap, -⟩ := bind_eq_ok answered
            obtain ⟨present, -⟩ | ⟨-, -, hmake⟩ := map_eq_ok hmap
            · exact absurd (absent.symm.trans present) Bool.false_ne_true
            · exact (PageEntry.make_frame hmake).1
        | _ => trivial
      have hrun := @runOn_inPlace pool call .empty (.inl aligned)
      rw [answered] at hrun
      have hstep := ih.call call .empty
      rwa [hrun] at hstep

/-- A pool answers as a scan round it does, after any work from a cleared bitmap on. -/
theorem Worked.take_scans (h : Worked words total pool) :
    pool.total = total ∧ Scanned pool := by
  obtain ⟨hsound, haimed, htotal⟩ := h.sound
  exact ⟨htotal, hsound.scanned haimed⟩

/-- Of forty frames all are taken, and then one is given back. -/
def roundPool : FramePool := ⟨40, 1, 0, #[0xFFFFFFFF#32, 0xF7#32]⟩

theorem worked_roundPool : Worked 2 40 roundPool :=
  (ran_of_replay (.release 0x23000 :: List.replicate 40 .take) rfl).worked

/-- A search from the hint on skips the full word and goes through the one that is cut short. -/
theorem scan_past_full_word :
    Worked 2 40 roundPool ∧ ∃ pool', roundPool.take = .ok (some 0x23000, pool') ∧
      IsLeast { k | roundPool.bit ((0 + k) % 40) = false } 35 ∧ Took roundPool 35 pool' := by
  obtain ⟨k, pool', hleast, hlt, htake, htook, -⟩ :=
    (Worked.take_scans worked_roundPool).2.found ⟨35, by decide, by decide⟩
  have hanswer : roundPool.take.map (·.1) = .ok (some 0x23000) := by decide +kernel
  have hnumber : (0 + k) % 40 * frameSize = 0x23000 := by
    rw [htake] at hanswer
    exact Option.some.inj (Except.ok.inj hanswer)
  obtain rfl : k = 35 := by
    have hsmall : k < 40 := hlt
    unfold frameSize pageSize at hnumber
    omega
  exact ⟨worked_roundPool, pool', htake, hleast, htook⟩

end FramePool

end KernelCore
