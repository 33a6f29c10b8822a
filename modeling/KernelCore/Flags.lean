/-!
# Flag sets

The permissions of heap pages and the privilege of a process, with the bits they are written
as, and the text of a flag set: the names of the flags in it between bars, or `0x0` if none.
-/

namespace KernelCore

/-- The text of a flag set called `name`, given each flag and whether it is set. -/
def flagText (name : String) (flags : List (String × Bool)) : String :=
  let present := (flags.filter (·.2)).map (·.1)
  let inner := if present.isEmpty then "0x0" else " | ".intercalate present
  s!"{name}({inner})"

structure HeapFlags where
  /-- Pages are reachable from ring 3. -/
  user : Bool
  writable : Bool
deriving DecidableEq, Repr

namespace HeapFlags

def supervisor : HeapFlags := ⟨false, true⟩

/-- Reads bit 0 as `user` and bit 1 as `writable`; other bits mean nothing. -/
def ofBits (bits : Nat) : HeapFlags := ⟨bits.testBit 0, bits.testBit 1⟩

def bits (flags : HeapFlags) : Nat := flags.user.toNat + 2 * flags.writable.toNat

def text (flags : HeapFlags) : String :=
  flagText "HeapFlags" [("USER", flags.user), ("WRITABLE", flags.writable)]

@[simp] theorem ofBits_bits (flags : HeapFlags) : ofBits flags.bits = flags := by
  obtain ⟨user, writable⟩ := flags
  cases user <;> cases writable <;> rfl

end HeapFlags

/-- The rings a process asks for. A process that asks for both runs in ring 3. -/
structure ProcessFlags where
  /-- Runs in ring 0 on kernel selectors. -/
  supervisor : Bool
  /-- Runs in ring 3 on user selectors. -/
  user : Bool
deriving DecidableEq, Repr

namespace ProcessFlags

/-- Reads bit 0 as `supervisor` and bit 1 as `user`; other bits mean nothing. -/
def ofBits (bits : Nat) : ProcessFlags := ⟨bits.testBit 0, bits.testBit 1⟩

def bits (flags : ProcessFlags) : Nat := flags.supervisor.toNat + 2 * flags.user.toNat

def text (flags : ProcessFlags) : String :=
  flagText "ProcessFlags" [("SUPERVISOR", flags.supervisor), ("USER", flags.user)]

@[simp] theorem ofBits_bits (flags : ProcessFlags) : ofBits flags.bits = flags := by
  obtain ⟨supervisor, user⟩ := flags
  cases supervisor <;> cases user <;> rfl

end ProcessFlags

end KernelCore
