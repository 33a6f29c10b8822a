import KernelCore.Fault
import KernelCore.Processor

/-!
# Critical sections

A section runs a body with interrupts disabled or enabled. The first kind is a guard that
remembers whether interrupts were on and turns them on again when it is dropped, also when a
fault leaves the body. The second kind turns interrupts off again only after a body that ends
normally.
-/

namespace KernelCore

/-- A state that holds a processor's interrupt flag. -/
class InterruptFlag (σ : Type) where
  enabled : σ → Bool
  setEnabled : Bool → σ → σ

instance : InterruptFlag Processor where
  enabled := Processor.interrupts
  setEnabled enabled cpu := cpu.setInterrupts enabled

/-- Code that runs on a machine: it may fault, and the state it reached is kept. -/
abbrev Code (σ α : Type) := σ → Except Fault α × σ

namespace Code

def update {σ : Type} (change : σ → σ) : Code σ Unit := fun s => (.ok (), change s)

end Code

/-- A critical section that is being held: whether interrupts were on when it began. -/
structure Guard where
  wasEnabled : Bool
deriving DecidableEq, Repr

namespace Guard

variable {σ : Type} [InterruptFlag σ]

def acquire (s : σ) : Guard × σ :=
  let wasEnabled := InterruptFlag.enabled s
  (⟨wasEnabled⟩, if wasEnabled then InterruptFlag.setEnabled false s else s)

def drop (guard : Guard) (s : σ) : σ :=
  if guard.wasEnabled then InterruptFlag.setEnabled true s else s

/-- Runs a body in a scope that holds a guard. Leaving the scope drops it, also when a fault
leaves it. -/
def scope {α : Type} (body : Code σ α) : Code σ α := fun s =>
  let (guard, s) := acquire s
  let (result, s) := body s
  (result, guard.drop s)

end Guard

section

variable {σ α : Type} [InterruptFlag σ]

/-- Runs a body with interrupts disabled and restores them on every way out. -/
def withoutInterrupts (body : Code σ α) : Code σ α := Guard.scope body

/-- Runs a body with interrupts enabled and restores them when it ends normally. -/
def withInterrupts (body : Code σ α) : Code σ α := fun s =>
  let wasEnabled := InterruptFlag.enabled s
  let (result, s) := body (if wasEnabled then s else InterruptFlag.setEnabled true s)
  match result with
  | .ok a => (.ok a, if wasEnabled then s else InterruptFlag.setEnabled false s)
  | .error fault => (.error fault, s)

end

namespace Processor

def critically (cpu : Processor) (change : Processor → Processor) : Processor :=
  (withoutInterrupts (Code.update change) cpu).2

end Processor

end KernelCore
