import KernelCore.Flags
import KernelCore.Registers
import KernelCore.Word

/-!
# Kernel stacks

The kernel stack of a process and the register frame a new process starts from. A ring 3 frame
ends at the aligned top of the stack. A ring 0 frame sits lower, so that the entry point starts
with the stack alignment of a freshly called function.
-/

namespace KernelCore

/-- A stack over `size` bytes at `base`. Owned stacks came from the heap and go back to it. -/
structure KernelStack where
  base : Nat
  size : Nat
  owned : Bool
deriving DecidableEq, Repr

namespace KernelStack

abbrev alignment : Nat := 16

def top (stack : KernelStack) : Except Fault Nat := do
  Word.alignDown (← Word.add stack.base stack.size) alignment

def contains (stack : KernelStack) (addr length : Nat) : Except Fault Bool :=
  if stack.base ≤ addr then
    match Word.add? addr length with
    | some stop => return stop ≤ (← Word.add stack.base stack.size)
    | none => return false
  else return false

/-- Where the first register frame of a process goes. -/
def initialFrame (stack : KernelStack) (flags : ProcessFlags) : Except Fault Nat := do
  let top ← stack.top
  if flags.user then Word.sub top Registers.userFrameBytes
  else
    let aligned ← Word.sub top alignment
    let entryStack ← Word.sub aligned wordBytes
    Word.sub entryStack Registers.kernelFrameBytes

def placeInitialFrame (stack : KernelStack) (flags : ProcessFlags) : Except Fault Nat := do
  let frame ← stack.initialFrame flags
  if ← stack.contains frame Registers.userFrameBytes then return frame
  throw .initialFrameOutsideStack

def text (stack : KernelStack) : String :=
  "KernelStack \x7b " ++ s!"base: {stack.base}, size: {stack.size}, owned: {stack.owned}"
    ++ " \x7d"

end KernelStack

/-- The registers a new process starts with: its argument in `ecx`, interrupts on. -/
def Registers.initial (entry arg : Nat) (flags : ProcessFlags) : Registers :=
  let data := if flags.user then userDataSelector else kernelDataSelector
  { Registers.zero with
    ds := data
    ecx := arg
    eip := entry
    cs := if flags.user then userCodeSelector else kernelCodeSelector
    eflags := initialEflags
    useresp := if flags.user then userStackTop else 0
    ss := data }

end KernelCore
