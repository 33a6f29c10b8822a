import Mathlib
import KernelCore.Word

/-!
# Page boundaries

`pageUp` is the first page boundary from an address on, in plain arithmetic. It is what `pageCeil`
answers as long as one more page still fits a word. `pagesOf` are the pages between two addresses.
-/

namespace KernelCore

def pageUp (addr : Nat) : Nat := (addr + (pageSize - 1)) / pageSize * pageSize

theorem pageCeil_of_lt {addr : Nat} (fits : addr + pageSize < wordLimit) :
    pageCeil addr = .ok (pageUp addr) := by
  rw [pageCeil_eq, if_pos fits]
  rfl

theorem pageCeil_of_le {addr : Nat} (large : wordLimit ≤ addr + pageSize) :
    pageCeil addr = .error .addOverflow := by
  rw [pageCeil_eq, if_neg (Nat.not_lt.mpr large)]

theorem dvd_pageUp (addr : Nat) : pageSize ∣ pageUp addr := Nat.dvd_mul_left _ _

theorem le_pageUp (addr : Nat) : addr ≤ pageUp addr := by
  unfold pageUp pageSize
  omega

theorem pageUp_lt (addr : Nat) : pageUp addr < addr + pageSize := by
  unfold pageUp pageSize
  omega

theorem pageUp_mono {a b : Nat} (h : a ≤ b) : pageUp a ≤ pageUp b :=
  Nat.mul_le_mul_right _ (Nat.div_le_div_right (by omega))

theorem pageUp_of_dvd {addr : Nat} (h : pageSize ∣ addr) : pageUp addr = addr := by
  obtain ⟨k, rfl⟩ := h
  unfold pageUp pageSize
  omega

theorem pageUp_le {a b : Nat} (h : a ≤ b) (hb : pageSize ∣ b) : pageUp a ≤ b :=
  pageUp_of_dvd hb ▸ pageUp_mono h

theorem granule_dvd_of_page_dvd {addr : Nat} (h : pageSize ∣ addr) : heapGranule ∣ addr :=
  Nat.dvd_trans (by decide) h

/-! ## Pages of a range -/

/-- The numbers of the pages that a range of addresses touches. -/
def pagesOf (start stop : Nat) : Finset Nat :=
  Finset.Ico (start / pageSize) (pageUp stop / pageSize)

theorem mem_pagesOf {start stop page : Nat} :
    page ∈ pagesOf start stop ↔ start < (page + 1) * pageSize ∧ page * pageSize < stop := by
  rw [pagesOf, Finset.mem_Ico]
  unfold pageUp pageSize
  omega

theorem pagesOf_union {a b c : Nat} (hb : pageSize ∣ b) (hab : a ≤ b) (hbc : b ≤ c) :
    pagesOf b c ∪ pagesOf a b = pagesOf a c := by
  obtain ⟨k, rfl⟩ := hb
  ext page
  simp only [Finset.mem_union, mem_pagesOf]
  unfold pageSize at *
  omega

theorem pagesOf_sdiff {a b c : Nat} (hb : pageSize ∣ b) (hbc : b ≤ c) :
    pagesOf a c \ pagesOf b c = pagesOf a b := by
  obtain ⟨k, rfl⟩ := hb
  ext page
  simp only [Finset.mem_sdiff, mem_pagesOf]
  unfold pageSize at *
  omega

theorem disjoint_pagesOf {a b c d : Nat} (hb : pageSize ∣ c) (hbc : b ≤ c) :
    Disjoint (pagesOf c d) (pagesOf a b) := by
  obtain ⟨k, rfl⟩ := hb
  rw [Finset.disjoint_left]
  intro page hback hfront
  rw [mem_pagesOf] at hback hfront
  unfold pageSize at *
  omega

theorem mem_pagesOf_of_dvd {start stop page : Nat} (h : pageSize ∣ start) :
    page ∈ pagesOf start stop ↔ start ≤ page * pageSize ∧ page * pageSize < stop := by
  obtain ⟨k, rfl⟩ := h
  rw [mem_pagesOf]
  unfold pageSize
  omega

/-- A sweep from there comes by all of them, one after the other. -/
theorem pagesOf_mul (first stop : Nat) :
    pagesOf (first * pageSize) stop =
      Finset.Ico first (first + pageCount (first * pageSize) stop) := by
  ext page
  rw [mem_pagesOf, Finset.mem_Ico]
  unfold pageCount strideCount pageSize
  omega

end KernelCore
