import Mathlib
import KernelCore.Clock
import KernelCore.Proofs.Results

/-!
# Conversions between ticks and durations

Both conversions take whole seconds apart from the rest, so that no product of a large count with a
rate is formed. The ticks for a duration are the exact quotient, rounded up and saturated once at the
end. The uptime is exact as long as it fits a word; past that the saturated seconds are the largest
word, and what of a second has begun since overflows the sum.
-/

namespace KernelCore

namespace Word

theorem mul_of_lt {a b : Nat} (fits : a * b < wordLimit) : mul a b = .ok (a * b) := if_pos fits

/-- Saturating part of a sum first makes no difference to the saturated sum. -/
theorem saturate_saturate_add (a b : Nat) : saturate (saturate a + b) = saturate (a + b) := by
  unfold saturate
  omega

theorem saturate_mono : Monotone saturate := fun _ _ h => min_le_min_right _ h

end Word

namespace Clock

variable {clock : Clock}

/-! ## The clocks there can be -/

/-- Clocks that are started and have ticked, at rates of 32 bits. -/
inductive Reached : Clock → Prop
  | started {clock : Clock} {rate : Nat} (fits : rate < rateLimit)
      (h : Clock.start rate = .ok clock) : Reached clock
  | rated {clock clock' : Clock} {rate : Nat} (before : Reached clock) (fits : rate < rateLimit)
      (h : clock.setRate rate = .ok clock') : Reached clock'
  | ticked {clock clock' : Clock} {count : Nat} (before : Reached clock)
      (h : clock.tick = (.ok count, clock')) : Reached clock'

theorem tick_eq (room : clock.ticks + 1 < wordLimit) :
    clock.tick = (.ok (clock.ticks + 1), { clock with ticks := clock.ticks + 1 }) := by
  rw [tick, Word.add, if_pos room, Nat.mod_eq_of_lt room]

theorem tick_eq_ok {clock' : Clock} {count : Nat} (h : clock.tick = (.ok count, clock')) :
    clock.ticks + 1 < wordLimit ∧ clock' = { clock with ticks := clock.ticks + 1 } := by
  by_cases room : clock.ticks + 1 < wordLimit
  · rw [tick_eq room] at h
    exact ⟨room, (Prod.mk.inj h).2.symm⟩
  · rw [tick, Word.add, if_neg room] at h
    cases (Prod.mk.inj h).1

theorem reached_iff :
    Reached clock ↔ clock.ticks < wordLimit ∧ 0 < clock.rate ∧ clock.rate < rateLimit := by
  constructor
  · intro h
    induction h with
    | @started clock rate fits h =>
        unfold Clock.start at h
        split at h
        · next positive =>
            obtain rfl := Except.ok.inj h
            exact ⟨(by decide : 0 < wordLimit), positive, fits⟩
        · cases h
    | @rated clock clock' rate _ fits h ih =>
        unfold setRate at h
        split at h
        · next positive =>
            obtain rfl := Except.ok.inj h
            exact ⟨ih.1, positive, fits⟩
        · cases h
    | ticked _ h ih =>
        obtain ⟨room, rfl⟩ := tick_eq_ok h
        exact ⟨room, ih.2⟩
  · obtain ⟨ticks, rate⟩ := clock
    rintro ⟨room, positive, fits⟩
    simp only at room positive fits
    induction ticks with
    | zero => exact .started fits (if_pos positive)
    | succ ticks ih => exact .ticked (ih (Nat.lt_of_succ_lt room)) (tick_eq room)

/-! ## Ticks for a duration -/

/-- Whole seconds and the rest are converted apart without a loss. -/
theorem ceilDiv_seconds (usecs rate : Nat) :
    (usecs * rate) ⌈/⌉ usecsPerSecond =
      usecs / usecsPerSecond * rate + (usecs % usecsPerSecond * rate) ⌈/⌉ usecsPerSecond := by
  have hsplit : usecs * rate = usecsPerSecond * (usecs / usecsPerSecond * rate) +
      usecs % usecsPerSecond * rate := by
    rw [← Nat.mul_assoc, ← Nat.add_mul, Nat.div_add_mod]
  rw [Nat.ceilDiv_eq_add_pred_div, Nat.ceilDiv_eq_add_pred_div, hsplit, Nat.add_assoc,
    Nat.add_sub_assoc (Nat.le_add_left_of_le (by decide)), Nat.mul_add_div (by decide)]

theorem ticksForUsecs_eq (fits : clock.rate < rateLimit) (usecs : Nat) :
    clock.ticksForUsecs usecs =
      .ok (Word.saturate ((usecs * clock.rate) ⌈/⌉ usecsPerSecond)) := by
  have hrest : usecs % usecsPerSecond * clock.rate < wordLimit := by
    have hlt : usecs % usecsPerSecond < usecsPerSecond := Nat.mod_lt _ (by decide)
    exact (Nat.mul_lt_mul'' hlt fits).trans (by decide)
  simp only [ticksForUsecs, Word.mul_of_lt hrest, ok_bind, pure_eq_ok]
  rw [Word.saturate_saturate_add, ceilDiv_seconds, Nat.ceilDiv_eq_add_pred_div,
    Nat.add_sub_assoc (by decide)]

/-- How a duration is rounded to ticks. -/
structure Covers (clock : Clock) (usecs ticks : Nat) : Prop where
  /-- The exact quotient rounded up, or the largest word if that is less. -/
  exact : ticks = min (wordLimit - 1) ((usecs * clock.rate) ⌈/⌉ usecsPerSecond)
  /-- Where the duration fits the clock, no fewer ticks cover it. -/
  least : usecs * clock.rate ≤ (wordLimit - 1) * usecsPerSecond →
    IsLeast { n | usecs * clock.rate ≤ n * usecsPerSecond } ticks

theorem covers_saturate (clock : Clock) (usecs : Nat) :
    Covers clock usecs (Word.saturate ((usecs * clock.rate) ⌈/⌉ usecsPerSecond)) where
  exact := Nat.min_comm ..
  least := by
    have hcover : ∀ n, (usecs * clock.rate) ⌈/⌉ usecsPerSecond ≤ n ↔
        usecs * clock.rate ≤ n * usecsPerSecond := fun n => by
      rw [ceilDiv_le_iff_le_mul (by decide), Nat.mul_comm n]
    intro fits
    rw [Word.saturate, Nat.min_eq_left ((hcover _).mpr fits)]
    exact ⟨(hcover _).mp le_rfl, fun n hn => (hcover n).mpr hn⟩

/-- Every duration is answered with the least number of ticks that covers it, or with the largest
word where none that fits a word does, and longer durations with no fewer ticks. -/
theorem durations_covered (fits : clock.rate < rateLimit) :
    ∃ ticks : Nat → Nat, Monotone ticks ∧
      ∀ usecs, clock.ticksForUsecs usecs = .ok (ticks usecs) ∧ Covers clock usecs (ticks usecs) := by
  refine ⟨fun usecs => Word.saturate ((usecs * clock.rate) ⌈/⌉ usecsPerSecond), ?_,
    fun usecs => ⟨ticksForUsecs_eq fits usecs, covers_saturate clock usecs⟩⟩
  intro usecs usecs' hle
  have hpos : 0 < usecsPerSecond := by decide
  exact Word.saturate_mono ((gc_mul_ceilDiv hpos).monotone_l (Nat.mul_le_mul_right _ hle))

/-- The whole seconds come to the largest word without saturating, and the rest of the duration saturates
the sum. -/
theorem covered_where_only_the_sum_saturates :
    0xFFFFFFFF < rateLimit ∧
      4294967297000001 / usecsPerSecond * 0xFFFFFFFF = wordLimit - 1 ∧
      Clock.ticksForUsecs ⟨0, 0xFFFFFFFF⟩ 4294967297000001 = .ok (wordLimit - 1) ∧
      Covers ⟨0, 0xFFFFFFFF⟩ 4294967297000001 (wordLimit - 1) := by
  obtain ⟨ticks, -, hticks⟩ := @durations_covered ⟨0, 0xFFFFFFFF⟩ (by decide)
  obtain ⟨hanswer, hcovers⟩ := hticks 4294967297000001
  have hlast : ticks 4294967297000001 = wordLimit - 1 := hcovers.exact.trans (by decide)
  rw [hlast] at hanswer hcovers
  exact ⟨by decide, by decide, hanswer, hcovers⟩

/-! ## The uptime -/

def elapsedMs (clock : Clock) : Nat := 1000 * clock.ticks / clock.rate

def subsecondMs (clock : Clock) : Nat := clock.ticks % clock.rate * 1000 / clock.rate

theorem elapsedMs_eq (positive : 0 < clock.rate) :
    clock.elapsedMs = clock.ticks / clock.rate * 1000 + clock.subsecondMs := by
  have hsplit : 1000 * clock.ticks =
      clock.rate * (clock.ticks / clock.rate * 1000) + clock.ticks % clock.rate * 1000 := by
    rw [← Nat.mul_assoc, ← Nat.add_mul, Nat.div_add_mod, Nat.mul_comm]
  rw [elapsedMs, hsplit, Nat.mul_add_div positive, subsecondMs]

theorem elapsedMs_mono {later : Nat} (h : clock.ticks ≤ later) :
    clock.elapsedMs ≤ elapsedMs { clock with ticks := later } :=
  Nat.div_le_div_right (Nat.mul_le_mul_left 1000 h)

theorem uptimeMs_eq (positive : 0 < clock.rate) (fits : clock.rate < rateLimit) :
    clock.uptimeMs =
      if wordLimit ≤ clock.elapsedMs ∧ clock.subsecondMs ≠ 0 then .error .addOverflow
      else .ok (Word.saturate clock.elapsedMs) := by
  have hrest : clock.ticks % clock.rate * 1000 < wordLimit := by
    have hlt : clock.ticks % clock.rate < rateLimit := (Nat.mod_lt _ positive).trans fits
    exact (Nat.mul_lt_mul_of_pos_right hlt (by decide)).trans (by decide)
  simp only [uptimeMs, Word.mul_of_lt hrest, ok_bind]
  rw [← subsecondMs, elapsedMs_eq positive]
  unfold Word.add Word.saturate
  split
  · rw [if_neg (by omega)]
    congr 1
    omega
  · rw [if_pos (by omega)]

/-- What a clock answers when it is asked for its uptime. -/
structure Uptime (clock : Clock) : Prop where
  /-- The exact time, rounded down, as long as it fits a word. -/
  exact : clock.elapsedMs < wordLimit → clock.uptimeMs = .ok clock.elapsedMs
  /-- Past that the largest word, if the clock stands on a whole second. -/
  saturated : wordLimit ≤ clock.elapsedMs → clock.subsecondMs = 0 →
    clock.uptimeMs = .ok (wordLimit - 1)
  /-- In between the sum of seconds and rest overflows. -/
  overflows : wordLimit ≤ clock.elapsedMs → clock.subsecondMs ≠ 0 →
    clock.uptimeMs = .error .addOverflow
  /-- A clock that ticks at least once a millisecond never comes there. -/
  within : 1000 ≤ clock.rate → clock.ticks < wordLimit → clock.elapsedMs < wordLimit
  /-- A later answer is no less. -/
  later : ∀ ticks ms ms', clock.ticks ≤ ticks → clock.uptimeMs = .ok ms →
    uptimeMs { clock with ticks } = .ok ms' → ms ≤ ms'

theorem uptimeMs_eq_ok (positive : 0 < clock.rate) (fits : clock.rate < rateLimit) {ms : Nat}
    (h : clock.uptimeMs = .ok ms) : ms = Word.saturate clock.elapsedMs := by
  rw [uptimeMs_eq positive fits] at h
  split at h
  · cases h
  · exact (Except.ok.inj h).symm

/-- The uptime is exact as long as it fits a word, and it never decreases. Past that it is answered on
whole seconds only, with the largest word: within a second the sum is a fault. -/
theorem uptime_exact (positive : 0 < clock.rate) (fits : clock.rate < rateLimit) :
    Uptime clock where
  exact hfits := by
    rw [uptimeMs_eq positive fits, if_neg (by omega), Word.saturate, Nat.min_eq_left (by omega)]
  saturated hlarge hwhole := by
    rw [uptimeMs_eq positive fits, if_neg (by omega), Word.saturate, Nat.min_eq_right (by omega)]
  overflows hlarge hbegun := by rw [uptimeMs_eq positive fits, if_pos ⟨hlarge, hbegun⟩]
  within hfast hticks := by
    refine Nat.lt_of_le_of_lt ?_ hticks
    exact Nat.div_le_of_le_mul (Nat.mul_le_mul_right _ hfast)
  later ticks ms ms' hle hms hms' := by
    rw [uptimeMs_eq_ok positive fits hms, @uptimeMs_eq_ok ⟨ticks, _⟩ positive fits _ hms']
    exact Word.saturate_mono (elapsedMs_mono hle)

/-- At two ticks a second, and on a whole second past all words. -/
theorem uptime_exact_before_the_overflow :
    Reached ⟨36893488147419104, 2⟩ ∧ Clock.uptimeMs ⟨36893488147419104, 2⟩ = .ok (wordLimit - 1) := by
  have hreached : Reached ⟨36893488147419104, 2⟩ := reached_iff.mpr (by decide)
  obtain ⟨-, positive, fits⟩ := reached_iff.mp hreached
  exact ⟨hreached, (uptime_exact positive fits).saturated (by decide) (by decide)⟩

/-- One tick on, half a second is added to the largest word, which is what the time rounds to. -/
theorem uptime_overflows :
    Reached ⟨36893488147419105, 2⟩ ∧
      min (wordLimit - 1) (elapsedMs ⟨36893488147419105, 2⟩) = wordLimit - 1 ∧
      Clock.uptimeMs ⟨36893488147419105, 2⟩ = .error .addOverflow :=
  ⟨reached_iff.mpr (by decide), by decide, by decide⟩

end Clock

end KernelCore
