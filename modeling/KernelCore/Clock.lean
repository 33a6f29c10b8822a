import KernelCore.Fault
import KernelCore.Limits
import KernelCore.Word

/-!
# The tick clock

The interval timer interrupts at a programmed rate and each interrupt advances the clock by
one tick. Conversions between ticks and durations saturate at the largest word.
-/

namespace KernelCore

/-- The reload value that makes the interval timer interrupt `rate` times a second. -/
def timerDivisor (rate : Nat) : Except RateError Nat :=
  if rate = 0 then .error .zeroFrequency
  else
    let divisor := timerInputRate / rate
    if divisor = 0 then .error .frequencyTooHigh
    else if 0xFFFF < divisor then .error .frequencyTooLow
    else .ok divisor

structure Clock where
  ticks : Nat
  /-- Ticks per second. -/
  rate : Nat
deriving DecidableEq, Repr

namespace Clock

abbrev usecsPerSecond : Nat := 1000000

abbrev rateLimit : Nat := 0x100000000

def start (rate : Nat) : Except Fault Clock :=
  if 0 < rate then .ok ⟨0, rate⟩ else .error .clockWithoutRate

def setRate (clock : Clock) (rate : Nat) : Except Fault Clock :=
  if 0 < rate then .ok { clock with rate } else .error .rateSetToZero

/-- Records one interrupt and answers the new count. The counter wraps, but a count that no
longer fits a word is a fault. -/
def tick (clock : Clock) : Except Fault Nat × Clock :=
  (Word.add clock.ticks 1, { clock with ticks := (clock.ticks + 1) % wordLimit })

/-- Milliseconds that one tick stands for, never less than one. -/
def msPerTick (clock : Clock) : Nat := max (1000 / clock.rate) 1

/-- How many whole ticks cover a duration. Whole seconds are converted apart from the rest of
the duration, which is less than one. -/
def ticksForUsecs (clock : Clock) (usecs : Nat) : Except Fault Nat := do
  let whole := Word.saturate (usecs / usecsPerSecond * clock.rate)
  let rest ← Word.mul (usecs % usecsPerSecond) clock.rate
  let part := (rest + (usecsPerSecond - 1)) / usecsPerSecond
  return Word.saturate (whole + part)

def uptimeMs (clock : Clock) : Except Fault Nat := do
  let whole := Word.saturate (clock.ticks / clock.rate * 1000)
  let rest ← Word.mul (clock.ticks % clock.rate) 1000
  Word.add whole (rest / clock.rate)

end Clock

end KernelCore
