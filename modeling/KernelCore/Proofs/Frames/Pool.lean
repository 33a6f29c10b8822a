import Mathlib
import KernelCore.FramePool
import KernelCore.Proofs.Results

/-!
# A sound frame pool

A pool is sound when every frame has a place in the bitmap, no bit is set beyond the last frame,
and the count of free frames is that of the clear bits. Taking, reserving and giving back a frame
keep it so, and change the bit of that frame alone. A search comes past every frame, so it finds one
as long as the count is not zero.
-/

namespace KernelCore

namespace FramePool

def usedNumbers (pool : FramePool) : Finset Nat :=
  (Finset.range pool.total).filter fun number => pool.bit number = true

structure Sound (pool : FramePool) : Prop where
  stored : pool.total ≤ pool.words.size * framesPerWord
  beyond : ∀ number, pool.total ≤ number → pool.bit number = false
  counted : pool.free + pool.usedNumbers.card = pool.total

variable {pool pool' : FramePool} {number : Nat}

theorem Sound.lt_total (h : pool.Sound) (used : pool.bit number = true) : number < pool.total := by
  rcases Nat.lt_or_ge number pool.total with hlt | hge
  · exact hlt
  · rw [h.beyond number hge] at used
    contradiction

theorem Sound.place_lt (h : pool.Sound) (inside : number < pool.total) :
    number / framesPerWord < pool.words.size := by
  have hstored := h.stored
  exact Nat.div_lt_of_lt_mul (Nat.mul_comm _ _ ▸ Nat.lt_of_lt_of_le inside hstored)

theorem sound_cleared {words total : Nat} (h : cleared words total = .ok pool) :
    pool.Sound ∧ pool.total = total ∧ ∀ number, pool.bit number = false := by
  unfold cleared at h
  split at h
  · next hfits =>
      obtain rfl := Except.ok.inj h
      have hbit : ∀ number, (FramePool.mk total total 0 (Array.replicate words 0)).bit number =
          false := by
        intro number
        rw [bit, Array.getD_eq_getD_getElem?, Array.getElem?_replicate]
        split <;> exact BitVec.getLsbD_zero
      refine ⟨⟨by simpa using hfits, fun number _ => hbit number, ?_⟩, rfl, hbit⟩
      rw [usedNumbers, Finset.filter_false_of_mem]
      · rfl
      · intro number _
        rw [hbit]
        exact Bool.false_ne_true
  · contradiction

/-! ## One frame -/

theorem checkNumber_eq_ok {u : Unit} (h : pool.checkNumber number = .ok u) :
    number < pool.total := by
  unfold checkNumber at h
  split at h
  · assumption
  · contradiction

theorem usedNumbers_eq_insert (total : pool'.total = pool.total) (inside : number < pool.total)
    (hbit : ∀ other, pool'.bit other = (number == other || pool.bit other)) :
    pool'.usedNumbers = insert number pool.usedNumbers := by
  ext other
  simp only [usedNumbers, total, Finset.mem_filter, Finset.mem_range, Finset.mem_insert, hbit,
    Bool.or_eq_true, beq_iff_eq]
  constructor
  · rintro ⟨hlt, rfl | hold⟩
    · exact .inl rfl
    · exact .inr ⟨hlt, hold⟩
  · rintro (rfl | ⟨hlt, hold⟩)
    · exact ⟨inside, .inl rfl⟩
    · exact ⟨hlt, .inr hold⟩

theorem usedNumbers_eq_erase (total : pool'.total = pool.total)
    (hbit : ∀ other, pool'.bit other = (number != other && pool.bit other)) :
    pool'.usedNumbers = pool.usedNumbers.erase number := by
  ext other
  simp only [usedNumbers, total, Finset.mem_filter, Finset.mem_range, Finset.mem_erase, hbit,
    Bool.and_eq_true, bne_iff_ne]
  exact ⟨fun ⟨hlt, hne, hold⟩ => ⟨Ne.symm hne, hlt, hold⟩,
    fun ⟨hne, hlt, hold⟩ => ⟨hlt, Ne.symm hne, hold⟩⟩

theorem Sound.mark (h : pool.Sound) (hmark : pool.markNumber number = .ok pool') :
    pool'.Sound ∧ number < pool.total ∧ pool'.total = pool.total ∧
      ∀ other, pool'.bit other = (number == other || pool.bit other) := by
  unfold markNumber at hmark
  obtain ⟨_, hcheck, hmark⟩ := bind_eq_ok hmark
  have hinside := checkNumber_eq_ok hcheck
  split at hmark
  · next hused =>
      obtain rfl := Except.ok.inj hmark
      refine ⟨h, hinside, rfl, fun other => ?_⟩
      by_cases hsame : number = other
      · simp [← hsame, hused]
      · simp [hsame]
  · next hunused =>
      obtain rfl := Except.ok.inj hmark
      have hbit := fun other =>
        bit_setMask pool number (pool.free - 1) other (h.place_lt hinside)
      have hnumbers : (pool.changeWord number (pool.free - 1) (· ||| mask number)).usedNumbers =
          insert number pool.usedNumbers := usedNumbers_eq_insert rfl hinside hbit
      have hfresh : number ∉ pool.usedNumbers := by simp [usedNumbers, hunused]
      -- The bit that is clear leaves a frame to count down from.
      have hlt : pool.usedNumbers.card < pool.total := by
        have hsub : pool.usedNumbers ⊂ Finset.range pool.total :=
          Finset.filter_ssubset.mpr ⟨number, Finset.mem_range.mpr hinside, hunused⟩
        simpa using Finset.card_lt_card hsub
      refine ⟨⟨?_, ?_, ?_⟩, hinside, rfl, hbit⟩
      · simpa [changeWord] using h.stored
      · intro other hge
        rw [hbit, h.beyond other hge, Bool.or_false, beq_eq_false_iff_ne]
        rintro rfl
        exact absurd hinside (Nat.not_lt.mpr hge)
      · have hcounted := h.counted
        rw [hnumbers, Finset.card_insert_of_notMem hfresh]
        simp only [changeWord]
        omega

theorem Sound.release (h : pool.Sound) (hrelease : pool.releaseNumber number = .ok pool') :
    pool'.Sound ∧ pool'.total = pool.total ∧
      ∀ other, pool'.bit other = (number != other && pool.bit other) := by
  unfold releaseNumber at hrelease
  obtain ⟨_, hcheck, hrelease⟩ := bind_eq_ok hrelease
  have hinside := checkNumber_eq_ok hcheck
  split at hrelease
  · next hused =>
      obtain rfl := Except.ok.inj hrelease
      have hbit := fun other =>
        bit_clearMask pool number (pool.free + 1) other (h.place_lt hinside)
      have hnumbers : (pool.changeWord number (pool.free + 1) (· &&& ~~~mask number)).usedNumbers =
          pool.usedNumbers.erase number := usedNumbers_eq_erase rfl hbit
      have hmem : number ∈ pool.usedNumbers := by simp [usedNumbers, hinside, hused]
      refine ⟨⟨?_, ?_, ?_⟩, rfl, hbit⟩
      · simpa [changeWord] using h.stored
      · intro other hge
        rw [hbit, h.beyond other hge, Bool.and_false]
      · have hcounted := h.counted
        have hpos := Finset.card_pos.mpr ⟨number, hmem⟩
        rw [hnumbers, Finset.card_erase_of_mem hmem]
        simp only [changeWord]
        omega
  · next hunused =>
      obtain rfl := Except.ok.inj hrelease
      refine ⟨h, rfl, fun other => ?_⟩
      by_cases hsame : number = other
      · simp [← hsame, hunused]
      · simp [hsame]

theorem exists_releaseNumber (known : number < pool.total) :
    ∃ pool', pool.releaseNumber number = .ok pool' ∧ pool'.total = pool.total := by
  have hcheck : pool.checkNumber number = .ok () := if_pos known
  simp only [releaseNumber, hcheck, ok_bind, pure_eq_ok]
  split
  · exact ⟨_, rfl, rfl⟩
  · exact ⟨_, rfl, rfl⟩

/-! ## The search -/

theorem Sound.advanceHint (h : pool.Sound) {step : Nat}
    (hadvance : pool.advanceHint step = .ok pool') :
    pool'.Sound ∧ pool'.total = pool.total ∧ ∀ other, pool'.bit other = pool.bit other := by
  unfold FramePool.advanceHint at hadvance
  split at hadvance
  · contradiction
  · obtain rfl := Except.ok.inj hadvance
    exact ⟨⟨h.stored, h.beyond, h.counted⟩, rfl, fun _ => rfl⟩

theorem isUsedNumber_eq_ok {used : Bool} (h : pool.isUsedNumber number = .ok used) :
    used = pool.bit number := by
  unfold isUsedNumber at h
  obtain ⟨_, -, h⟩ := bind_eq_ok h
  exact (Except.ok.inj h).symm

theorem Sound.search {steps : Nat} (h : pool.Sound) {found : Option Nat}
    (hsearch : FramePool.search steps pool = .ok (found, pool')) :
    pool'.Sound ∧ pool'.total = pool.total ∧
      ((found = none ∧ ∀ other, pool'.bit other = pool.bit other) ∨
        ∃ number, found = some (number * frameSize) ∧ pool.bit number = false ∧
          ∀ other, pool'.bit other = (number == other || pool.bit other)) := by
  induction steps generalizing pool with
  | zero =>
      obtain ⟨rfl, rfl⟩ := Prod.mk.injEq .. ▸ Except.ok.inj hsearch
      exact ⟨h, rfl, .inl ⟨rfl, fun _ => rfl⟩⟩
  | succ steps ih =>
      unfold FramePool.search at hsearch
      obtain ⟨full, -, hsearch⟩ := bind_eq_ok hsearch
      split at hsearch
      · obtain ⟨moved, hmove, hsearch⟩ := bind_eq_ok hsearch
        obtain ⟨hsound, htotal, hbit⟩ := h.advanceHint hmove
        obtain ⟨hsound', htotal', hends⟩ := ih hsound hsearch
        simp only [hbit] at hends
        exact ⟨hsound', htotal'.trans htotal, hends⟩
      obtain ⟨used, hused, hsearch⟩ := bind_eq_ok hsearch
      obtain rfl := isUsedNumber_eq_ok hused
      split at hsearch
      · obtain ⟨moved, hmove, hsearch⟩ := bind_eq_ok hsearch
        obtain ⟨hsound, htotal, hbit⟩ := h.advanceHint hmove
        obtain ⟨hsound', htotal', hends⟩ := ih hsound hsearch
        simp only [hbit] at hends
        exact ⟨hsound', htotal'.trans htotal, hends⟩
      · next hunused =>
          obtain ⟨taken, hmark, hsearch⟩ := bind_eq_ok hsearch
          obtain ⟨moved, hmove, hsearch⟩ := bind_eq_ok hsearch
          obtain ⟨rfl, rfl⟩ := Prod.mk.injEq .. ▸ Except.ok.inj hsearch
          obtain ⟨hsound, -, htotal, hbit⟩ := h.mark hmark
          obtain ⟨hsound', htotal', hbit'⟩ := hsound.advanceHint hmove
          refine ⟨hsound', htotal'.trans htotal, .inr ⟨pool.hint, rfl, by simpa using hunused, ?_⟩⟩
          intro other
          rw [hbit', hbit]

theorem Sound.take (h : pool.Sound) {found : Option Nat}
    (htake : pool.take = .ok (found, pool')) :
    pool'.Sound ∧ pool'.total = pool.total ∧
      ((found = none ∧ ∀ other, pool'.bit other = pool.bit other) ∨
        ∃ number, found = some (number * frameSize) ∧ pool.bit number = false ∧
          ∀ other, pool'.bit other = (number == other || pool.bit other)) := by
  unfold FramePool.take at htake
  split at htake
  · obtain ⟨rfl, rfl⟩ := Prod.mk.injEq .. ▸ Except.ok.inj htake
    exact ⟨h, rfl, .inl ⟨rfl, fun _ => rfl⟩⟩
  · exact h.search htake

/-! ## A search that finds nothing -/

/-- A word that is skipped records used frames only. -/
theorem bit_of_hintAtFullWord (h : pool.hintAtFullWord = .ok true) {k : Nat}
    (inside : k < framesPerWord) : pool.bit (pool.hint + k) = true := by
  unfold hintAtFullWord at h
  split at h
  · next hstart =>
      split at h
      · next word hword =>
          have hfull : word = BitVec.allOnes framesPerWord := by
            rw [eq_of_beq (Except.ok.inj h)]
            rfl
          have hplace : (pool.hint + k) / framesPerWord = pool.hint / framesPerWord ∧
              (pool.hint + k) % framesPerWord = k := by
            unfold framesPerWord at *
            omega
          rw [bit, hplace.1, hplace.2, Array.getD_eq_getD_getElem?, hword, Option.getD_some, hfull,
            BitVec.getLsbD_allOnes, decide_eq_true_eq]
          exact inside
      · contradiction
  · cases h

theorem hint_advanceHint {step : Nat} (h : pool.advanceHint step = .ok pool') :
    pool'.hint = (pool.hint + step) % pool.total := by
  unfold FramePool.advanceHint at h
  split at h
  · contradiction
  · obtain rfl := Except.ok.inj h
    rfl

/-- A search that goes on from `passed` used frames further and then finds nothing. -/
theorem Sound.passed {moved : FramePool} {passed steps : Nat} (h : pool.Sound)
    (used : ∀ k < passed, pool.bit (pool.hint + k) = true)
    (hmove : pool.advanceHint passed = .ok moved)
    (rest : ∀ k < steps, moved.bit ((moved.hint + k) % moved.total) = true) :
    ∀ k < passed + steps, pool.bit ((pool.hint + k) % pool.total) = true := by
  obtain ⟨-, htotal, hbit⟩ := h.advanceHint hmove
  have hhint := hint_advanceHint hmove
  intro k hk
  rcases Nat.lt_or_ge k passed with hnear | hfar
  · have hused := used k hnear
    rwa [Nat.mod_eq_of_lt (h.lt_total hused)]
  · obtain ⟨j, rfl⟩ := Nat.exists_eq_add_of_le hfar
    have hrest := rest j (by omega)
    rwa [hbit, htotal, hhint, Nat.mod_add_mod, Nat.add_assoc] at hrest

theorem Sound.search_none {steps : Nat} (h : pool.Sound)
    (hsearch : FramePool.search steps pool = .ok (none, pool')) :
    ∀ k < steps, pool.bit ((pool.hint + k) % pool.total) = true := by
  induction steps generalizing pool with
  | zero => simp
  | succ steps ih =>
      unfold FramePool.search at hsearch
      obtain ⟨full, hfull, hsearch⟩ := bind_eq_ok hsearch
      split at hsearch
      · next hskip =>
          subst hskip
          obtain ⟨moved, hmove, hsearch⟩ := bind_eq_ok hsearch
          have hrest := ih (h.advanceHint hmove).1 hsearch
          have hpassed := h.passed (fun k => bit_of_hintAtFullWord hfull) hmove hrest
          intro k hk
          apply hpassed
          unfold framesPerWord
          omega
      obtain ⟨used, hused, hsearch⟩ := bind_eq_ok hsearch
      obtain rfl := isUsedNumber_eq_ok hused
      split at hsearch
      · next hset =>
          obtain ⟨moved, hmove, hsearch⟩ := bind_eq_ok hsearch
          have hrest := ih (h.advanceHint hmove).1 hsearch
          have hfirst : ∀ k < 1, pool.bit (pool.hint + k) = true := by
            intro k hk
            rwa [Nat.lt_one_iff.mp hk]
          intro k hk
          exact h.passed hfirst hmove hrest k (by omega)
      · obtain ⟨taken, -, hsearch⟩ := bind_eq_ok hsearch
        obtain ⟨moved, -, hsearch⟩ := bind_eq_ok hsearch
        simp at hsearch

theorem exists_offset {total : Nat} (hint : Nat) (inside : number < total) :
    ∃ k < total, (hint + k) % total = number := by
  have hpos := Nat.zero_lt_of_lt inside
  have hmod := Nat.mod_lt hint hpos
  have hsum : hint % total + (number + (total - hint % total)) = number + total := by omega
  refine ⟨(number + (total - hint % total)) % total, Nat.mod_lt _ hpos, ?_⟩
  rw [Nat.add_mod_mod, ← Nat.mod_add_mod, hsum, Nat.add_mod_right, Nat.mod_eq_of_lt inside]

/-- The count goes down by one with every frame that is taken, and nothing is found only in a pool
without free frames. -/
theorem Sound.take_free (h : pool.Sound) {found : Option Nat}
    (htake : pool.take = .ok (found, pool')) :
    (found = none ∧ pool.free = 0) ∨ (found.isSome ∧ pool'.free + 1 = pool.free) := by
  obtain ⟨hsound, htotal, ⟨rfl, -⟩ | ⟨number, rfl, hfree, hbit⟩⟩ := h.take htake
  · left
    refine ⟨rfl, ?_⟩
    unfold FramePool.take at htake
    split at htake
    · assumption
    · have hall := h.search_none htake
      have hused : pool.usedNumbers = Finset.range pool.total := by
        refine Finset.filter_true_of_mem fun number hnumber => ?_
        have hlt := Finset.mem_range.mp hnumber
        obtain ⟨k, hk, rfl⟩ := exists_offset pool.hint hlt
        exact hall k hk
      have hcounted := h.counted
      rw [hused, Finset.card_range] at hcounted
      omega
  · right
    refine ⟨rfl, ?_⟩
    have hinside : number < pool.total := by
      rw [← htotal]
      exact hsound.lt_total (by rw [hbit, beq_self_eq_true, Bool.true_or])
    have hnumbers := usedNumbers_eq_insert htotal hinside hbit
    have hfresh : number ∉ pool.usedNumbers := by simp [usedNumbers, hfree]
    have hcounted := h.counted
    have hcounted' := hsound.counted
    rw [hnumbers, Finset.card_insert_of_notMem hfresh, htotal] at hcounted'
    omega

end FramePool

end KernelCore
