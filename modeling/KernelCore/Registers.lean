import KernelCore.Hex
import KernelCore.Limits

/-!
# Register frames

The registers an interrupt leaves on a stack, in memory order from the stack pointer up: the
data selector, the general registers, and what the processor pushed. The last two words are
only pushed by an interrupt from ring 3; below them ends the part that a return to ring 0
consumes.
-/

namespace KernelCore

structure Registers where
  ds : Nat
  edi : Nat
  esi : Nat
  ebp : Nat
  /-- The stack pointer as it was pushed; ignored when the registers are restored. -/
  pushedEsp : Nat
  ebx : Nat
  edx : Nat
  ecx : Nat
  eax : Nat
  eip : Nat
  cs : Nat
  eflags : Nat
  useresp : Nat
  ss : Nat
deriving DecidableEq, Repr

namespace Registers

/-- Bytes of a frame that returns to ring 0: everything below `useresp`. -/
abbrev kernelFrameBytes : Nat := 12 * wordBytes

abbrev userFrameBytes : Nat := 14 * wordBytes

def zero : Registers := ⟨0, 0, 0, 0, 0, 0, 0, 0, 0, 0, 0, 0, 0, 0⟩

/-- The words of the frame, from the lowest address up. -/
def toList (r : Registers) : List Nat :=
  [r.ds, r.edi, r.esi, r.ebp, r.pushedEsp, r.ebx, r.edx, r.ecx, r.eax, r.eip, r.cs, r.eflags,
    r.useresp, r.ss]

def ofList? : List Nat → Option Registers
  | [ds, edi, esi, ebp, pushedEsp, ebx, edx, ecx, eax, eip, cs, eflags, useresp, ss] =>
      some ⟨ds, edi, esi, ebp, pushedEsp, ebx, edx, ecx, eax, eip, cs, eflags, useresp, ss⟩
  | _ => none

@[simp] theorem length_toList (r : Registers) : r.toList.length = 14 := rfl

@[simp] theorem ofList?_toList (r : Registers) : ofList? r.toList = some r := rfl

/-- The registers that are shown, each with its value: selectors with at least four digits,
the others with at least eight. -/
def fields (r : Registers) : List (String × String) :=
  [("ds", hexPadded 4 r.ds), ("edi", hexPadded 8 r.edi), ("esi", hexPadded 8 r.esi),
   ("ebp", hexPadded 8 r.ebp), ("ebx", hexPadded 8 r.ebx), ("edx", hexPadded 8 r.edx),
   ("ecx", hexPadded 8 r.ecx), ("eax", hexPadded 8 r.eax), ("eip", hexPadded 8 r.eip),
   ("cs", hexPadded 4 r.cs), ("eflags", hexPadded 8 r.eflags),
   ("useresp", hexPadded 8 r.useresp), ("ss", hexPadded 4 r.ss)]

def text (r : Registers) : String :=
  let shown := r.fields.map fun (name, value) => s!"{name}: {value}"
  "Registers \x7b " ++ ", ".intercalate shown ++ " \x7d"

def longText (r : Registers) : String :=
  let shown := r.fields.map fun (name, value) => s!"    {name}: {value},\n"
  "Registers \x7b\n" ++ String.join shown ++ "\x7d"

end Registers

end KernelCore
