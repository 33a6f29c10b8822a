import KernelCore.Fault
import KernelCore.Limits

/-!
# Machine words

Arithmetic on addresses and sizes that have to stay below `wordLimit`: a sum, difference or
product that leaves the range is a fault, and rounding to an alignment is built from such sums. For
pages, `pageCeil_eq` gives the rounding in plain arithmetic.
-/

namespace KernelCore

namespace Word

/-- The sum, unless it no longer fits a word. -/
def add (a b : Nat) : Except Fault Nat :=
  if a + b < wordLimit then .ok (a + b) else .error .addOverflow

def sub (a b : Nat) : Except Fault Nat :=
  if b ≤ a then .ok (a - b) else .error .subOverflow

def mul (a b : Nat) : Except Fault Nat :=
  if a * b < wordLimit then .ok (a * b) else .error .mulOverflow

/-- The sum if it fits a word, for callers that answer the other case themselves. -/
def add? (a b : Nat) : Option Nat :=
  if a + b < wordLimit then some (a + b) else none

/-- The largest word in place of a number that does not fit one. -/
def saturate (n : Nat) : Nat := min n (wordLimit - 1)

def clear (a mask : Nat) : Nat := a - (a &&& mask)

/-- The least multiple of `align` from `addr` on, for a power of two `align`. -/
def alignUp (addr align : Nat) : Except Fault Nat := do
  let past ← add addr align
  let last ← sub past 1
  let mask ← sub align 1
  return clear last mask

def alignDown (addr align : Nat) : Except Fault Nat := do
  let mask ← sub align 1
  return clear addr mask

/-- The least power of two that is not below `n`. It is one more than the number whose ones fill
`n - 1` from its highest one down. -/
def nextPowerOfTwo (n : Nat) : Nat := if n ≤ 1 then 1 else 1 <<< ((n - 1).log2 + 1)

/--
The alignment that a reservation of `size` bytes gets from its own size: the least power of
two that is not below it, at most `maxNaturalAlign`.
-/
def naturalAlign (size : Nat) : Except Fault Nat :=
  if size ≤ 0x8000000000000000 then .ok (min (nextPowerOfTwo size) maxNaturalAlign)
  else .error .addOverflow

end Word

/-! ## Pages -/

def pageFloor (addr : Nat) : Nat := addr - addr % pageSize

def pageCeil (addr : Nat) : Except Fault Nat := Word.alignUp addr pageSize

/-- How many of `start`, `start + stride`, … lie below `stop`. -/
def strideCount (stride start stop : Nat) : Nat := (stop - start + (stride - 1)) / stride

def pageCount (start stop : Nat) : Nat := strideCount pageSize start stop

/-- Which page table covers an address. Addresses 4 GiB apart share their tables. -/
def tableIndex (virt : Nat) : Fin entriesPerTable :=
  ⟨virt / tableSpan % entriesPerTable, Nat.mod_lt _ (by decide)⟩

def pageIndex (virt : Nat) : Fin entriesPerTable :=
  ⟨virt / pageSize % entriesPerTable, Nat.mod_lt _ (by decide)⟩

/-! ## Rounding in plain arithmetic -/

theorem Word.clear_shift (a k : Nat) : Word.clear a (1 <<< k - 1) = a >>> k <<< k := by
  have h := Nat.div_add_mod' a (2 ^ k)
  rw [Word.clear, Nat.one_shiftLeft, Nat.and_two_pow_sub_one_eq_mod, Nat.shiftRight_eq_div_pow,
    Nat.shiftLeft_eq]
  omega

theorem Word.alignUp_shift (addr k : Nat) :
    Word.alignUp addr (1 <<< k) =
      if addr + 1 <<< k < wordLimit then .ok ((addr + (1 <<< k - 1)) >>> k <<< k)
      else .error .addOverflow := by
  have positive : 1 ≤ 1 <<< k := by
    rw [Nat.one_shiftLeft]
    exact Nat.one_le_two_pow
  by_cases fits : addr + 1 <<< k < wordLimit
  · simp only [alignUp, add, sub, fits, if_true, bind, Except.bind, pure, Except.pure]
    rw [if_pos (by omega), if_pos positive]
    simp only [clear_shift]
    rw [Nat.add_sub_assoc positive]
  · simp only [alignUp, add, fits, if_false, bind, Except.bind]

theorem Word.alignDown_shift (addr k : Nat) :
    Word.alignDown addr (1 <<< k) = .ok (addr >>> k <<< k) := by
  have positive : 1 ≤ 1 <<< k := by
    rw [Nat.one_shiftLeft]
    exact Nat.one_le_two_pow
  simp only [alignDown, sub, positive, if_true, bind, Except.bind, pure, Except.pure, clear_shift]

/-- Rounding up to a page faults only where the page after the address does not fit. -/
theorem pageCeil_eq (addr : Nat) :
    pageCeil addr =
      if addr + pageSize < wordLimit then .ok ((addr + (pageSize - 1)) / pageSize * pageSize)
      else .error .addOverflow := by
  have h := Word.alignUp_shift addr 12
  simp only [Nat.shiftLeft_eq, Nat.shiftRight_eq_div_pow, Nat.reducePow, Nat.one_mul] at h
  exact h

theorem pageFloor_eq (addr : Nat) : pageFloor addr = addr / pageSize * pageSize := by
  have h := Nat.div_add_mod' addr pageSize
  rw [pageFloor]
  omega

end KernelCore
