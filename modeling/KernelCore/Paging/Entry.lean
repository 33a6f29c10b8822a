import KernelCore.Flags
import KernelCore.Word

/-!
# Page entries

A page entry is one word: the frame address in its high bits and flags in its low twelve.
Flags that mean nothing are kept in the word but not reported.
-/

namespace KernelCore

namespace PageFlag

abbrev present : Nat := 1
abbrev writable : Nat := 2
abbrev user : Nat := 4
abbrev accessed : Nat := 0x20
abbrev dirty : Nat := 0x40

/-- A software bit: the table belongs to the kernel directory and is only borrowed. -/
abbrev linked : Nat := 0x200

/-- The flags that mean something. -/
def known : Nat := present ||| writable ||| user ||| accessed ||| dirty ||| linked

def text (bits : Nat) : String :=
  flagText "PageFlags"
    [("PRESENT", bits.testBit 0), ("WRITABLE", bits.testBit 1), ("USER", bits.testBit 2),
     ("ACCESSED", bits.testBit 5), ("DIRTY", bits.testBit 6), ("LINKED", bits.testBit 9)]

/-- The flags of a page in use, for the kernel alone unless `kernel` is false. -/
def ofAccess (kernel writable : Bool) : Nat :=
  present ||| (if writable then PageFlag.writable else 0) ||| (if kernel then 0 else user)

end PageFlag

structure PageEntry where
  word : Nat
deriving DecidableEq, Repr, Inhabited

namespace PageEntry

def empty : PageEntry := ⟨0⟩

/-- An entry for a frame, which has to start on a page boundary. -/
def make (frame flags : Nat) : Except Fault PageEntry :=
  if frame % pageSize = 0 then .ok ⟨frame ||| flags⟩
  else .error (.unalignedFrame (frame % pageSize))

def present (entry : PageEntry) : Bool := entry.word.testBit 0

def unused (entry : PageEntry) : Bool := entry.word == 0

def frame (entry : PageEntry) : Nat := pageFloor entry.word

def flags (entry : PageEntry) : Nat := entry.word % pageSize &&& PageFlag.known

@[simp] theorem present_empty : empty.present = false := rfl

end PageEntry

end KernelCore
