import KernelCore.Clock
import KernelCore.Processor.Section

/-!
# Sleeping

A sleeper opens an interrupt window, halts until an interrupt arrives and closes the window
again, until the clock has reached the tick it waits for. The machine here is a processor
whose every halt is ended by a fixed number of timer interrupts.
-/

namespace KernelCore

structure SleepingMachine where
  cpu : Processor
  clock : Clock
  /-- Timer interrupts that arrive while the processor is halted. -/
  ticksPerHalt : Nat
  /-- Whether interrupts were enabled at every halt so far. -/
  enabledAtHalts : Bool
deriving DecidableEq, Repr

namespace SleepingMachine

instance : InterruptFlag SleepingMachine where
  enabled machine := machine.cpu.interrupts
  setEnabled enabled machine := { machine with cpu := machine.cpu.setInterrupts enabled }

def start (cpu : Processor) (clock : Clock) (ticksPerHalt : Nat) : SleepingMachine :=
  ⟨cpu, clock, ticksPerHalt, true⟩

def tickTimes : Nat → Code SleepingMachine Unit
  | 0, machine => (.ok (), machine)
  | times + 1, machine =>
      match machine.clock.tick with
      | (.ok _, clock) => tickTimes times { machine with clock }
      | (.error fault, clock) => (.error fault, { machine with clock })

def halt : Code SleepingMachine Unit := fun machine =>
  tickTimes machine.ticksPerHalt { machine with
    cpu := machine.cpu.halt
    enabledAtHalts := machine.enabledAtHalts && machine.cpu.interrupts }

/-- Halts until the clock has reached `target`. Each halt that brings a tick comes at least
one nearer, so `missing` halts suffice if that many ticks are missing. -/
def haltUntil (target : Nat) : Nat → Code SleepingMachine Unit
  | 0, machine => (.ok (), machine)
  | missing + 1, machine =>
      if machine.clock.ticks < target then
        match withInterrupts halt machine with
        | (.ok (), machine) => haltUntil target missing machine
        | (.error fault, machine) => (.error fault, machine)
      else (.ok (), machine)

/-- The tick that a sleep of `usecs` microseconds waits for, at least the next one. -/
def sleepTarget (clock : Clock) (usecs : Nat) : Except Fault Nat := do
  let ticks ← clock.ticksForUsecs usecs
  return Word.saturate (clock.ticks + max ticks 1)

def sleep (usecs : Nat) : Code SleepingMachine Unit := fun machine =>
  match sleepTarget machine.clock usecs with
  | .ok target => haltUntil target (target - machine.clock.ticks) machine
  | .error fault => (.error fault, machine)

end SleepingMachine

end KernelCore
