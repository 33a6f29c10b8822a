import KernelCore.Memory.AddressSpace
import KernelCore.Process.Priority

/-!
# Processes

A process runs on its own kernel stack, in the kernel's address space or one of its own. While
it is off the processor its registers lie in a frame on that stack.
-/

namespace KernelCore

/-- The number of a process. Numbers are counted in 32 bits and come round again. -/
structure Pid where
  number : Nat
deriving DecidableEq, Repr

namespace Pid

abbrev limit : Nat := 0x100000000

def next (pid : Pid) : Pid := ⟨(pid.number + 1) % limit⟩

def text (pid : Pid) : String := s!"Pid({pid.number})"

end Pid

inductive ProcessState where
  | ready
  | running
  | terminated
deriving DecidableEq, Repr

def ProcessState.text : ProcessState → String
  | ready => "Ready"
  | running => "Running"
  | terminated => "Terminated"

structure Process where
  pid : Pid
  entry : Nat
  priority : Priority
  state : ProcessState
  flags : ProcessFlags
  stack : KernelStack
  /-- Where the saved registers lie; 0 for boot code that has not been interrupted yet. -/
  frame : Nat
  /-- The process's own address space, if it has one. -/
  space : Option AddressSpace
  /-- Timer ticks spent running. -/
  ticks : Nat
deriving DecidableEq

namespace Process

/-- The directory to load for the process; `kernel` if it has no address space of its own. -/
def directoryPhys (process : Process) (kernel : Nat) : Nat :=
  (process.space.map (·.phys)).getD kernel

def text (process : Process) : String :=
  "Process \x7b " ++ s!"pid: {process.pid.text}, entry: {hex process.entry}, "
    ++ s!"priority: {process.priority.text}, state: {process.state.text}, "
    ++ s!"flags: {process.flags.text}, frame: {hex process.frame}, ticks: {process.ticks}"
    ++ " \x7d"

end Process

end KernelCore
