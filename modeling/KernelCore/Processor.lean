import KernelCore.Limits

/-!
# The processor

What the kernel does to the processor: the interrupt flag, paging with the active directory,
the stack for interrupts from ring 3, and halting. The processor counts halts and directory
loads.
-/

namespace KernelCore

structure Processor where
  /-- Whether maskable interrupts are enabled. -/
  interrupts : Bool
  paging : Bool
  /-- The directory loaded last. -/
  directory : Option Nat
  loads : Nat
  halts : Nat
  /-- The stack for the next interrupt from ring 3. -/
  kernelStack : Option Nat
deriving DecidableEq, Repr

namespace Processor

def reset : Processor := ⟨false, false, none, 0, 0, none⟩

def setInterrupts (cpu : Processor) (enabled : Bool) : Processor :=
  { cpu with interrupts := enabled }

def halt (cpu : Processor) : Processor := { cpu with halts := cpu.halts + 1 }

def loadDirectory (cpu : Processor) (phys : Nat) : Processor :=
  { cpu with directory := some phys, loads := cpu.loads + 1 }

def enablePaging (cpu : Processor) : Processor := { cpu with paging := true }

def setKernelStack (cpu : Processor) (top : Nat) : Processor :=
  { cpu with kernelStack := some top }

end Processor

end KernelCore
