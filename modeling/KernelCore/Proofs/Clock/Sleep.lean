import Mathlib
import KernelCore.Clock.Sleep
import KernelCore.Proofs.Clock.Conversions

/-!
# How long a sleep lasts

A sleep goes round a loop of interrupt windows until the clock has reached its target. `Waits` is that
loop, with no bound on its rounds; `sleep` bounds them by the ticks that are missing, and any bound
that does not cut the loop short gives the same answer. If every halt brings some ticks, the loop ends
with the halt that brings the clock to the target, and leaves the interrupt flag as it was.
-/

namespace KernelCore

namespace Clock

/-- How many ticks a sleep spans: as many as cover it, but at least one. -/
def sleepSpan (clock : Clock) (usecs : Nat) : Nat :=
  max 1 ((usecs * clock.rate) ⌈/⌉ usecsPerSecond)

theorem sleepSpan_pos (clock : Clock) (usecs : Nat) : 0 < clock.sleepSpan usecs :=
  Nat.lt_of_lt_of_le Nat.zero_lt_one (Nat.le_max_left ..)

end Clock

namespace SleepingMachine

variable {machine last : SleepingMachine} {target halts usecs : Nat}

theorem sleepTarget_eq {clock : Clock} (fits : clock.rate < Clock.rateLimit)
    (room : clock.ticks + clock.sleepSpan usecs < wordLimit) :
    sleepTarget clock usecs = .ok (clock.ticks + clock.sleepSpan usecs) := by
  simp only [sleepTarget, Clock.ticksForUsecs_eq fits, ok_bind, pure_eq_ok]
  unfold Clock.sleepSpan at room ⊢
  unfold Word.saturate
  congr 1
  omega

/-! ## One window -/

theorem tickTimes_eq (times : Nat) (machine : SleepingMachine)
    (room : machine.clock.ticks + times < wordLimit) :
    tickTimes times machine = (.ok (),
      { machine with clock := { machine.clock with ticks := machine.clock.ticks + times } }) := by
  induction times generalizing machine with
  | zero => rfl
  | succ times ih =>
      have hroom : machine.clock.ticks + 1 + times < wordLimit := by omega
      rw [tickTimes, Clock.tick_eq (Nat.lt_of_le_of_lt (Nat.le_add_right ..) hroom)]
      refine (ih _ hroom).trans ?_
      simp only [Nat.add_assoc, Nat.add_comm 1]

def woken (machine : SleepingMachine) : SleepingMachine :=
  { machine with
    cpu := machine.cpu.halt
    clock := { machine.clock with ticks := machine.clock.ticks + machine.ticksPerHalt } }

theorem woken_iterate (machine : SleepingMachine) (halts : Nat) :
    woken^[halts] machine = { machine with
      cpu := { machine.cpu with halts := machine.cpu.halts + halts }
      clock := { machine.clock with
        ticks := machine.clock.ticks + halts * machine.ticksPerHalt } } := by
  induction halts with
  | zero => simp
  | succ halts ih =>
      rw [Function.iterate_succ_apply', ih]
      simp only [woken, Processor.halt, Nat.add_assoc, Nat.succ_mul]

/-- A halt in a window finds interrupts enabled, and the window closes behind it as it was. -/
theorem window_eq (room : machine.clock.ticks + machine.ticksPerHalt < wordLimit) :
    withInterrupts halt machine = (.ok (), machine.woken) := by
  obtain ⟨cpu, clock, ticksPerHalt, enabledAtHalts⟩ := machine
  have hticks := fun cpu on => tickTimes_eq ticksPerHalt ⟨cpu, clock, ticksPerHalt, on⟩ room
  cases hon : cpu.interrupts <;>
    simp [withInterrupts, halt, hticks, woken, InterruptFlag.enabled, InterruptFlag.setEnabled,
      Processor.setInterrupts, Processor.halt, hon]

/-! ## The loop -/

/-- The loop of a sleep: as long as the clock is short of `target`, another window is opened for a
halt. It ends with `last` after `halts` halts. -/
inductive Waits (target : Nat) : Nat → SleepingMachine → SleepingMachine → Prop
  | met {machine : SleepingMachine} (there : target ≤ machine.clock.ticks) :
      Waits target 0 machine machine
  | window {halts : Nat} {machine next last : SleepingMachine}
      (short : machine.clock.ticks < target)
      (woke : withInterrupts halt machine = (.ok (), next))
      (rest : Waits target halts next last) : Waits target (halts + 1) machine last

/-- A bound on the rounds is not noticed unless it cuts the loop short. -/
theorem Waits.haltUntil_eq {missing : Nat} (run : Waits target halts machine last)
    (enough : halts ≤ missing) : haltUntil target missing machine = (.ok (), last) := by
  induction run generalizing missing with
  | met there =>
      cases missing with
      | zero => rfl
      | succ missing => rw [haltUntil, if_neg (Nat.not_lt_of_le there)]
  | window short woke _ ih =>
      obtain ⟨rest, rfl⟩ : ∃ rest, missing = rest + 1 := ⟨missing - 1, by omega⟩
      rw [haltUntil, if_pos short, woke]
      exact ih (Nat.le_of_succ_le_succ enough)

theorem Waits.reached (run : Waits target halts machine last) : target ≤ last.clock.ticks := by
  induction run with
  | met there => exact there
  | window _ _ _ ih => exact ih

theorem Waits.last_halt (run : Waits target (halts + 1) machine last) :
    ∃ before, haltUntil target halts machine = (.ok (), before) ∧ before.clock.ticks < target ∧
      withInterrupts halt before = (.ok (), last) := by
  induction halts generalizing machine with
  | zero =>
      cases run with
      | window short woke rest =>
          cases rest
          exact ⟨machine, rfl, short, woke⟩
  | succ halts ih =>
      cases run with
      | window short woke rest =>
          obtain ⟨before, hcut, hbefore⟩ := ih rest
          refine ⟨before, ?_, hbefore⟩
          rw [haltUntil, if_pos short, woke]
          exact hcut

/-- The loop ends after as many halts as it takes to come to the target, if no count overflows. -/
theorem waits_woken (short : ∀ i < halts, machine.clock.ticks + i * machine.ticksPerHalt < target)
    (met : target ≤ machine.clock.ticks + halts * machine.ticksPerHalt)
    (room : machine.clock.ticks + halts * machine.ticksPerHalt < wordLimit) :
    Waits target halts machine (woken^[halts] machine) := by
  induction halts generalizing machine with
  | zero => exact .met (by simpa using met)
  | succ halts ih =>
      have hshift : ∀ i, machine.woken.clock.ticks + i * machine.woken.ticksPerHalt =
          machine.clock.ticks + (i + 1) * machine.ticksPerHalt := fun i => by
        simp only [woken, Nat.succ_mul]
        omega
      have hfirst : machine.clock.ticks < target := by simpa using short 0 (Nat.succ_pos halts)
      have hwindow : machine.clock.ticks + machine.ticksPerHalt < wordLimit := by
        refine Nat.lt_of_le_of_lt (Nat.add_le_add_left ?_ _) room
        exact Nat.le_mul_of_pos_left _ (Nat.succ_pos halts)
      refine .window hfirst (window_eq hwindow) ?_
      rw [Function.iterate_succ_apply]
      apply ih
      · intro i hi
        rw [hshift]
        exact short (i + 1) (Nat.succ_lt_succ hi)
      · rwa [hshift]
      · rwa [hshift]

/-! ## Sleeping -/

/-- The least number of halts that brings `span` ticks is at least one, and no more than one for each
tick; fewer would not do. -/
theorem exists_rounds {span ticksPerHalt : Nat} (positive : 0 < span)
    (progress : 1 ≤ ticksPerHalt) :
    ∃ rounds < span, span ⌈/⌉ ticksPerHalt = rounds + 1 ∧
      span ≤ (rounds + 1) * ticksPerHalt ∧ ∀ i < rounds + 1, i * ticksPerHalt < span := by
  have hcount : ∀ n, span ⌈/⌉ ticksPerHalt ≤ n ↔ span ≤ n * ticksPerHalt := fun n => by
    rw [ceilDiv_le_iff_le_mul progress, Nat.mul_comm]
  obtain ⟨rounds, hrounds⟩ : ∃ rounds, span ⌈/⌉ ticksPerHalt = rounds + 1 := by
    refine Nat.exists_eq_succ_of_ne_zero fun hzero => Nat.not_le_of_lt positive ?_
    simpa using (hcount 0).mp hzero.le
  have hbound : rounds + 1 ≤ span := by
    rw [← hrounds, hcount]
    exact Nat.le_mul_of_pos_right span progress
  refine ⟨rounds, hbound, hrounds, (hcount _).mp hrounds.le, fun i hi => ?_⟩
  rw [← hrounds] at hi
  exact Nat.lt_of_not_le fun h => Nat.not_le_of_lt hi ((hcount i).mpr h)

/-- How a sleep goes on a machine that has not halted yet: it leaves `last` after `halts` halts. -/
structure SleepsTo (usecs : Nat) (machine last : SleepingMachine) (halts : Nat) : Prop where
  answer : sleep usecs machine = (.ok (), last)
  /-- The loop ends by itself, whatever bound is set to its rounds. -/
  waits : Waits (machine.clock.ticks + machine.clock.sleepSpan usecs) halts machine last
  /-- The clock has reached the target, -/
  reached : machine.clock.ticks + machine.clock.sleepSpan usecs ≤ last.clock.ticks
  /-- and had not when the loop came to its last halt. -/
  short : ∃ before,
    haltUntil (machine.clock.ticks + machine.clock.sleepSpan usecs) (halts - 1) machine =
      (.ok (), before) ∧
    before.clock.ticks < machine.clock.ticks + machine.clock.sleepSpan usecs ∧
    withInterrupts halt before = (.ok (), last)
  /-- Only the halts are counted up: the interrupt flag is what it was. -/
  cpu : last.cpu = { machine.cpu with halts := machine.cpu.halts + halts }
  clock : last.clock =
    { machine.clock with ticks := machine.clock.ticks + halts * machine.ticksPerHalt }
  /-- Interrupts were enabled at every halt. -/
  enabled : last.enabledAtHalts = true

/-- A sleep ends after the least number of halts that brings as many ticks as it spans, on every
processor whose halts bring some, with interrupts on or off before it. -/
theorem sleep_lasts {cpu : Processor} {clock : Clock} {ticksPerHalt : Nat}
    (fits : clock.rate < Clock.rateLimit) (progress : 1 ≤ ticksPerHalt)
    (room : clock.ticks + clock.sleepSpan usecs + ticksPerHalt ≤ wordLimit - 1) :
    ∃ last, SleepsTo usecs (start cpu clock ticksPerHalt) last
      (clock.sleepSpan usecs ⌈/⌉ ticksPerHalt) := by
  obtain ⟨rounds, hbound, hrounds, hmet, hshort⟩ :=
    exists_rounds (clock.sleepSpan_pos usecs) progress
  rw [hrounds]
  -- The clock comes past the target by less than one halt.
  have hlast : (rounds + 1) * ticksPerHalt < clock.sleepSpan usecs + ticksPerHalt := by
    rw [Nat.succ_mul]
    exact Nat.add_lt_add_right (hshort rounds (Nat.lt_succ_self rounds)) _
  have hroom : clock.ticks + (rounds + 1) * ticksPerHalt < wordLimit := by omega
  have hrun : Waits (clock.ticks + clock.sleepSpan usecs) (rounds + 1)
      (start cpu clock ticksPerHalt) (woken^[rounds + 1] (start cpu clock ticksPerHalt)) :=
    waits_woken (fun i hi => Nat.add_lt_add_left (hshort i hi) _) (Nat.add_le_add_left hmet _) hroom
  have hanswer : sleep usecs (start cpu clock ticksPerHalt) =
      (.ok (), woken^[rounds + 1] (start cpu clock ticksPerHalt)) := by
    have hclock : (start cpu clock ticksPerHalt).clock = clock := rfl
    simp only [sleep, hclock, @sleepTarget_eq usecs clock fits (by omega)]
    exact hrun.haltUntil_eq (by omega)
  refine ⟨_, hanswer, hrun, hrun.reached, hrun.last_halt, ?_, ?_, ?_⟩ <;> rw [woken_iterate]
  rfl

/-- Three and a half ticks are rounded up to four, which two halts of three ticks bring. -/
theorem sleep_lasts_two_halts :
    100 < Clock.rateLimit ∧ 1 ≤ 3 ∧ 7 + Clock.sleepSpan ⟨7, 100⟩ 35000 + 3 ≤ wordLimit - 1 ∧
      ∃ last, SleepsTo 35000 (start .reset ⟨7, 100⟩ 3) last 2 ∧ last.clock.ticks = 13 := by
  have hspan : Clock.sleepSpan ⟨7, 100⟩ 35000 = 4 := by decide
  have hroom : 7 + Clock.sleepSpan ⟨7, 100⟩ 35000 + 3 ≤ wordLimit - 1 := by
    rw [hspan]
    decide
  obtain ⟨last, hlast⟩ := @sleep_lasts 35000 .reset ⟨7, 100⟩ 3 (by decide) (by decide) hroom
  rw [hspan] at hlast
  exact ⟨by decide, by decide, hroom, last, hlast, congrArg Clock.ticks hlast.clock⟩

end SleepingMachine

end KernelCore
