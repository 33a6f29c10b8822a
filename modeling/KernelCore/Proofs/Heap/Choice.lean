import Mathlib
import KernelCore.Proofs.Heap.Books

/-!
# Choosing where to allocate

The ends of a heap are page boundaries below the last page of a word, so no sum that the search
for a hole makes leaves the range of words: `bestFit_eq` gives the search as a plain search through
the index. Planned growth ends at the first page boundary past the request.
-/

namespace KernelCore

namespace Heap

/-! ## Where the ends lie -/

structure Window (heap : Heap) : Prop where
  start_page : pageSize ∣ heap.start
  initial_page : pageSize ∣ heap.initialStop
  stop_page : pageSize ∣ heap.stop
  start_lt : heap.start < heap.initialStop
  initial_le : heap.initialStop ≤ heap.stop
  stop_le : heap.stop ≤ heap.limit
  limit_lt : heap.limit < wordLimit

variable {heap : Heap}

theorem Window.start_granule (w : heap.Window) : heapGranule ∣ heap.start :=
  granule_dvd_of_page_dvd w.start_page

theorem Window.stop_add_page_le (w : heap.Window) : heap.stop + pageSize ≤ wordLimit := by
  have hpage := w.stop_page
  have hle := w.stop_le
  have hlt := w.limit_lt
  unfold pageSize wordLimit at *
  omega

/-! ## The search -/

def padTo (addr : Nat) (pageAligned : Bool) : Nat := if pageAligned then pageUp addr - addr else 0

theorem padTo_lt (addr : Nat) (pageAligned : Bool) : padTo addr pageAligned < pageSize := by
  cases pageAligned with
  | false => exact Nat.succ_pos 4095
  | true => exact Nat.sub_lt_left_of_lt_add (le_pageUp addr) (pageUp_lt addr)

theorem dvd_padTo {addr : Nat} (h : heapGranule ∣ addr) (pageAligned : Bool) :
    heapGranule ∣ padTo addr pageAligned := by
  cases pageAligned with
  | false => exact Nat.dvd_zero _
  | true => exact Nat.dvd_sub (granule_dvd_of_page_dvd (dvd_pageUp addr)) h

theorem add_padTo_aligned (addr : Nat) : addr + padTo addr true = pageUp addr :=
  Nat.add_sub_cancel' (le_pageUp addr)

theorem padding_eq {addr : Nat} (fits : addr + pageSize < wordLimit) (pageAligned : Bool) :
    padding addr pageAligned = .ok (padTo addr pageAligned) := by
  cases pageAligned with
  | false => rfl
  | true =>
      simp only [padding, if_true, pageCeil_of_lt fits]
      rfl

def fitting (size : Nat) (pageAligned : Bool) (hole : Hole) : Option (Hole × Nat) :=
  if padTo hole.addr pageAligned + size ≤ hole.size then some (hole, padTo hole.addr pageAligned)
  else none

theorem fitting_eq_some {size pad : Nat} {pageAligned : Bool} {hole chosen : Hole}
    (h : fitting size pageAligned hole = some (chosen, pad)) :
    hole = chosen ∧ pad = padTo chosen.addr pageAligned ∧ pad + size ≤ chosen.size := by
  unfold fitting at h
  split at h
  · next hfits =>
      obtain ⟨rfl, rfl⟩ := Prod.mk.injEq .. ▸ Option.some.inj h
      exact ⟨rfl, rfl, hfits⟩
  · contradiction

theorem firstFit_eq {size : Nat} {pageAligned : Bool} {holes : List Hole}
    (near : ∀ hole ∈ holes, hole.addr + pageSize < wordLimit)
    (large : ∀ hole ∈ holes, size ≤ hole.size ∧ hole.size + pageSize ≤ wordLimit) :
    firstFit size pageAligned holes = .ok (holes.findSome? (fitting size pageAligned)) := by
  induction holes with
  | nil => rfl
  | cons hole rest ih =>
      have hpad := padTo_lt hole.addr pageAligned
      obtain ⟨hle, hlimit⟩ := large hole (by simp)
      have hsum : padTo hole.addr pageAligned + size < wordLimit := by omega
      have hrest := ih (fun x hx => near x (by simp [hx])) (fun x hx => large x (by simp [hx]))
      simp only [firstFit, padding_eq (near hole (by simp)), Word.add, if_pos hsum, bind,
        Except.bind, pure, Except.pure, List.findSome?_cons, fitting]
      split
      · rfl
      · exact hrest

/-- In the order of the index, no hole behind the first large enough one is too small. -/
theorem le_size_of_mem_dropWhile {holes : List Hole} (h : Hole.Sorted holes) {size : Nat}
    {hole : Hole} (hm : hole ∈ holes.dropWhile (·.size < size)) : size ≤ hole.size := by
  induction holes with
  | nil => simp at hm
  | cons first rest ih =>
      obtain ⟨hfirst, hrest⟩ := List.pairwise_cons.mp h
      by_cases hsmall : first.size < size
      · rw [List.dropWhile_cons_of_pos (by simpa using hsmall)] at hm
        exact ih hrest hm
      · rw [List.dropWhile_cons_of_neg (by simpa using hsmall)] at hm
        rcases List.mem_cons.mp hm with rfl | hm
        · omega
        · have hnot := hfirst hole hm
          unfold Hole.before at hnot
          omega

theorem findSome?_dropWhile {α β : Type} {p : α → Bool} {f : α → Option β} {xs : List α}
    (h : ∀ x, p x = true → f x = none) : (xs.dropWhile p).findSome? f = xs.findSome? f := by
  induction xs with
  | nil => rfl
  | cons x xs ih =>
      cases hp : p x with
      | true => rw [List.dropWhile_cons_of_pos hp, ih, List.findSome?_cons, h x hp]
      | false => rw [List.dropWhile_cons_of_neg (by simp [hp])]

/-- The search goes through the whole index and takes the first hole that fits. -/
theorem Books.bestFit_eq (h : heap.Books) (w : heap.Window) (size : Nat) (pageAligned : Bool) :
    heap.bestFit size pageAligned = .ok (heap.holes.findSome? (fitting size pageAligned)) := by
  have hpage := w.stop_add_page_le
  have hmem : ∀ hole ∈ heap.holes.dropWhile (·.size < size), hole ∈ heap.holes :=
    fun hole hm => (List.dropWhile_sublist _).mem hm
  have hskip : ∀ hole : Hole, (decide (hole.size < size)) = true →
      fitting size pageAligned hole = none := by
    intro hole hsmall
    rw [fitting, if_neg]
    have hlt := of_decide_eq_true hsmall
    omega
  unfold bestFit
  rw [firstFit_eq, findSome?_dropWhile hskip]
  · intro hole hm
    obtain ⟨-, hpos, hstop, -⟩ := h.hole_bounds (hmem hole hm)
    omega
  · intro hole hm
    obtain ⟨-, -, hstop, -⟩ := h.hole_bounds (hmem hole hm)
    exact ⟨le_size_of_mem_dropWhile h.sorted hm, by omega⟩

/-- The hole that a request takes: of those that hold it, padding included, the smallest, and of
equal ones the lowest. -/
structure Best (heap : Heap) (size : Nat) (pageAligned : Bool) (hole : Hole) : Prop where
  mem : hole ∈ heap.holes
  fits : padTo hole.addr pageAligned + size ≤ hole.size
  least : ∀ other ∈ heap.holes, padTo other.addr pageAligned + size ≤ other.size →
    other = hole ∨ hole.before other

theorem Best.unique {size : Nat} {pageAligned : Bool} {hole other : Hole}
    (h : heap.Best size pageAligned hole) (h' : heap.Best size pageAligned other) :
    hole = other := by
  rcases h.least other h'.mem h'.fits with heq | hbefore
  · exact heq.symm
  rcases h'.least hole h.mem h.fits with heq | hafter
  · exact heq
  · exact absurd hafter (Hole.before_asymm hbefore)

/-- The search finds no hole only if none holds the request, and else the best one. -/
theorem Books.bestFit_cases (h : heap.Books) (w : heap.Window) (size : Nat) (pageAligned : Bool) :
    (heap.bestFit size pageAligned = .ok none ∧
        ∀ hole ∈ heap.holes, hole.size < padTo hole.addr pageAligned + size) ∨
      ∃ hole, heap.Best size pageAligned hole ∧
        heap.bestFit size pageAligned = .ok (some (hole, padTo hole.addr pageAligned)) := by
  rw [h.bestFit_eq w]
  cases hfind : heap.holes.findSome? (fitting size pageAligned) with
  | none =>
      refine .inl ⟨rfl, fun hole hm => ?_⟩
      have hnone := List.findSome?_eq_none_iff.mp hfind hole hm
      unfold fitting at hnone
      split at hnone
      · contradiction
      · omega
  | some choice =>
      obtain ⟨hole, pad⟩ := choice
      obtain ⟨passed, found, rest, hholes, hfits, hskip⟩ := List.findSome?_eq_some_iff.mp hfind
      obtain ⟨rfl, rfl, hle⟩ := fitting_eq_some hfits
      refine .inr ⟨found, ⟨by simp [hholes], hle, ?_⟩, rfl⟩
      intro other hm hother
      have hsorted := h.sorted
      rw [hholes] at hm hsorted
      -- What comes before the first hole that fits does not fit; what comes after is larger.
      rcases List.mem_append.mp hm with hpassed | hlater
      · have hnone := hskip other hpassed
        rw [fitting, if_pos hother] at hnone
        cases hnone
      rcases List.mem_cons.mp hlater with heq | hrest
      · exact .inl heq
      · have hordered := (List.pairwise_append.mp hsorted).2.1
        have hnot := (List.pairwise_cons.mp hordered).1 other hrest
        by_cases heq : other = found
        · exact .inl heq
        · exact .inr (Hole.before_of_not_before hnot (Ne.symm heq))

theorem Books.bestFit_of_best (h : heap.Books) (w : heap.Window) {size : Nat} {pageAligned : Bool}
    {hole : Hole} (best : heap.Best size pageAligned hole) :
    heap.bestFit size pageAligned = .ok (some (hole, padTo hole.addr pageAligned)) := by
  rcases h.bestFit_cases w size pageAligned with ⟨-, hnone⟩ | ⟨found, hbest, hfound⟩
  · exact absurd (hnone hole best.mem) (Nat.not_lt.mpr best.fits)
  · rwa [best.unique hbest]

/-! ## Growth -/

def needed (heap : Heap) (size : Nat) (pageAligned : Bool) : Nat :=
  heap.tailStart + padTo heap.tailStart pageAligned + size

def growth (heap : Heap) (size : Nat) (pageAligned : Bool) : Growth where
  stop := pageUp (heap.needed size pageAligned)
  added := heap.freeTail?.isNone.toNat + (decide (0 < padTo heap.tailStart pageAligned)).toNat
    + (decide (heap.needed size pageAligned < pageUp (heap.needed size pageAligned))).toNat

def planFrom (heap : Heap) (size aligned : Nat) : Except Fault (Option Growth) :=
  match Word.add? aligned size with
  | none => .ok none
  | some needed => do
      let stop ← pageCeil needed
      if heap.limit < stop then return none
      return some ⟨stop, heap.freeTail?.isNone.toNat + (decide (heap.tailStart < aligned)).toNat
        + (decide (needed < stop)).toNat⟩

theorem planGrowth_eq (heap : Heap) (size : Nat) (pageAligned : Bool) :
    heap.planGrowth size pageAligned =
      (if pageAligned then pageCeil heap.tailStart else .ok heap.tailStart) >>=
        heap.planFrom size := by
  cases pageAligned <;> rfl

theorem planGrowth_of_lt {size : Nat} {pageAligned : Bool}
    (fits : heap.needed size pageAligned + pageSize < wordLimit) :
    heap.planGrowth size pageAligned =
      .ok (if heap.limit < (heap.growth size pageAligned).stop then none
        else some (heap.growth size pageAligned)) := by
  have htail : heap.tailStart + padTo heap.tailStart pageAligned + size + pageSize < wordLimit :=
    fits
  have haligned : (if pageAligned then pageCeil heap.tailStart else .ok heap.tailStart) =
      .ok (heap.tailStart + padTo heap.tailStart pageAligned) := by
    cases pageAligned with
    | false => rfl
    | true =>
        rw [add_padTo_aligned]
        exact pageCeil_of_lt (by omega)
  have hsum : Word.add? (heap.tailStart + padTo heap.tailStart pageAligned) size =
      some (heap.needed size pageAligned) := if_pos (by omega)
  have hpad : decide (heap.tailStart < heap.tailStart + padTo heap.tailStart pageAligned) =
      decide (0 < padTo heap.tailStart pageAligned) := by simp
  rw [planGrowth_eq, haligned]
  simp only [bind, Except.bind, planFrom, hsum, pageCeil_of_lt fits, hpad]
  change (if heap.limit < (heap.growth size pageAligned).stop then _ else _) = _
  split <;> rfl

theorem planGrowth_cases (heap : Heap) (size : Nat) (pageAligned : Bool) :
    heap.planGrowth size pageAligned = .error .addOverflow ∨
      heap.planGrowth size pageAligned = .ok none ∨
      (heap.planGrowth size pageAligned = .ok (some (heap.growth size pageAligned)) ∧
        (heap.growth size pageAligned).stop ≤ heap.limit) := by
  rcases Nat.lt_or_ge (heap.needed size pageAligned + pageSize) wordLimit with hlt | hge
  · rw [planGrowth_of_lt hlt]
    split
    · exact .inr (.inl rfl)
    · next hlimit => exact .inr (.inr ⟨rfl, Nat.not_lt.mp hlimit⟩)
  have haligned : (if pageAligned then pageCeil heap.tailStart else .ok heap.tailStart) =
      .error .addOverflow ∨
        (if pageAligned then pageCeil heap.tailStart else .ok heap.tailStart) =
          .ok (heap.tailStart + padTo heap.tailStart pageAligned) := by
    cases pageAligned with
    | false => exact .inr rfl
    | true =>
        rw [add_padTo_aligned]
        rcases Nat.lt_or_ge (heap.tailStart + pageSize) wordLimit with hlt | hge
        · exact .inr (pageCeil_of_lt hlt)
        · exact .inl (pageCeil_of_le hge)
  rw [planGrowth_eq]
  rcases haligned with hal | hal
  · exact .inl (by rw [hal]; rfl)
  simp only [hal, bind, Except.bind, planFrom, Word.add?]
  split
  · exact .inr (.inl rfl)
  · next needed hsum =>
      obtain ⟨-, heq⟩ := Option.ite_none_right_eq_some.mp hsum
      obtain rfl := Option.some.inj heq
      have hceil := pageCeil_of_le hge
      unfold needed at hceil
      simp only [hceil]
      exact .inl trivial

end Heap

end KernelCore
