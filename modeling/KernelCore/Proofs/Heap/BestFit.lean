import Mathlib
import KernelCore.Proofs.Heap.Outcome

/-!
# Best fit

An allocation looks for its place in the index of holes, from the first hole that is large enough on
and no further than the first that fits. `placeFor` looks for it in the list of blocks instead, at
every block there is: of those that hold the request, at the first address in them where it may
start, it takes the smallest, and of equal ones the lowest; without any it goes on from where the
free tail starts. Both find the same place.
-/

namespace KernelCore

def firstFrom (addr : Nat) (pageAligned : Bool) : Nat := addr + Heap.padTo addr pageAligned

theorem isLeast_firstFrom (addr : Nat) (pageAligned : Bool) :
    IsLeast { first | addr ≤ first ∧ (pageAligned = true → pageSize ∣ first) }
      (firstFrom addr pageAligned) := by
  refine ⟨⟨Nat.le_add_right _ _, Heap.page_dvd_of_padTo⟩, fun first ⟨hle, hpage⟩ => ?_⟩
  cases pageAligned with
  | false => exact hle
  | true =>
      rw [firstFrom, Heap.add_padTo_aligned]
      exact pageUp_le hle (hpage rfl)

namespace Block

/-- A free block with room for `size` bytes behind the padding needed in it. -/
def Holds (block : Block) (size : Nat) (pageAligned : Bool) : Prop :=
  block.used = false ∧ firstFrom block.addr pageAligned + size ≤ block.stop

instance (block : Block) (size : Nat) (pageAligned : Bool) :
    Decidable (block.Holds size pageAligned) := inferInstanceAs (Decidable (_ ∧ _))

def rank (block : Block) : Nat ×ₗ Nat := toLex (block.size, block.addr)

theorem rank_le_of_before {hole other : Hole} (h : hole.before other) :
    rank ⟨hole.addr, hole.size, false⟩ ≤ rank ⟨other.addr, other.size, false⟩ := by
  rw [rank, rank, Prod.Lex.toLex_le_toLex]
  rcases h with hsize | ⟨hsize, haddr⟩
  · exact .inl hsize
  · exact .inr ⟨hsize, haddr.le⟩

theorem eq_of_rank_eq {block other : Block} (free : block.used = false) (free' : other.used = false)
    (h : block.rank = other.rank) : block = other := by
  obtain ⟨addr, size, used⟩ := block
  obtain ⟨addr', size', used'⟩ := other
  obtain ⟨rfl, rfl⟩ := Prod.mk.inj (toLex.injective h)
  obtain rfl : used = false := free
  obtain rfl : used' = false := free'
  rfl

end Block

namespace Heap

variable {σ τ : Type} {mapper : RegionMapper σ} {heap heap' : Heap} {s t : σ} {size addr : Nat}
  {pageAligned : Bool}

/-! ## The search through the blocks -/

/-- Where a search through all blocks places a request. -/
def placeFor (heap : Heap) (size : Nat) (pageAligned : Bool) : Nat :=
  let chosen := (heap.blocks.filter (·.Holds size pageAligned)).argmin Block.rank
  firstFrom (chosen.elim heap.tailStart (·.addr)) pageAligned

/-- The block that a request takes: of all that hold it the one of least rank. -/
structure Chosen (heap : Heap) (size : Nat) (pageAligned : Bool) (block : Block) : Prop where
  mem : block ∈ heap.blocks
  holds : block.Holds size pageAligned
  least : ∀ other ∈ heap.blocks, other.Holds size pageAligned → block.rank ≤ other.rank

theorem Chosen.placeFor {block : Block} (h : heap.Chosen size pageAligned block) :
    heap.placeFor size pageAligned = firstFrom block.addr pageAligned := by
  have hm : block ∈ heap.blocks.filter (·.Holds size pageAligned) := by simp [h.mem, h.holds]
  cases hmin : (heap.blocks.filter (·.Holds size pageAligned)).argmin Block.rank with
  | none => simp [List.argmin_eq_none.mp hmin] at hm
  | some found =>
      have hfound := List.argmin_mem hmin
      simp only [List.mem_filter, decide_eq_true_eq] at hfound
      have hle : found.rank ≤ block.rank := List.le_of_mem_argmin hm hmin
      have hge : block.rank ≤ found.rank := h.least found hfound.1 hfound.2
      have heq := Block.eq_of_rank_eq hfound.2.1 h.holds.1 (le_antisymm hle hge)
      simp [Heap.placeFor, hmin, heq]

theorem placeFor_of_none (none_holds : ∀ block ∈ heap.blocks, ¬ block.Holds size pageAligned) :
    heap.placeFor size pageAligned = firstFrom heap.tailStart pageAligned := by
  have hnil : heap.blocks.filter (·.Holds size pageAligned) = [] := by
    simpa [List.filter_eq_nil_iff] using none_holds
  simp [placeFor, hnil]

/-! ## The search through the holes -/

theorem holds_iff (addr holeSize : Nat) :
    (⟨addr, holeSize, false⟩ : Block).Holds size pageAligned ↔
      padTo addr pageAligned + size ≤ holeSize := by
  simp only [Block.Holds, firstFrom, Block.stop, true_and]
  omega

theorem Books.none_holds (h : heap.Books)
    (none_fits : ∀ hole ∈ heap.holes, hole.size < padTo hole.addr pageAligned + size) :
    ∀ block ∈ heap.blocks, ¬ block.Holds size pageAligned := by
  rintro ⟨addr, holeSize, used⟩ hm hholds
  obtain rfl : used = false := hholds.1
  have hlisted : (⟨holeSize, addr⟩ : Hole) ∈ heap.holes :=
    h.listed.mem_iff.mpr (mem_freeHoles.mpr hm)
  exact absurd ((holds_iff addr holeSize).mp hholds) (Nat.not_le.mpr (none_fits _ hlisted))

/-- The best of the listed holes is the best of all blocks. -/
theorem Books.chosen_of_best (h : heap.Books) {hole : Hole}
    (best : heap.Best size pageAligned hole) :
    heap.Chosen size pageAligned ⟨hole.addr, hole.size, false⟩ where
  mem := mem_freeHoles.mp (h.listed.mem_iff.mp best.mem)
  holds := (holds_iff hole.addr hole.size).mpr best.fits
  least := by
    rintro ⟨addr, otherSize, used⟩ hm hholds
    obtain rfl : used = false := hholds.1
    have hlisted : (⟨otherSize, addr⟩ : Hole) ∈ heap.holes :=
      h.listed.mem_iff.mpr (mem_freeHoles.mpr hm)
    rcases best.least _ hlisted ((holds_iff addr otherSize).mp hholds) with rfl | hbefore
    · exact le_refl _
    · exact Block.rank_le_of_before hbefore

/-! ## Where an allocation is placed -/

/-- With a block for it, a request is answered from the present blocks, without the mapper. -/
theorem Valid.alloc_of_best (h : heap.Valid) (pos : 0 < size) {hole : Hole}
    (best : heap.Best (rounded size) pageAligned hole) (mapper : RegionMapper σ) (s : σ) :
    ∃ answer heap', (heap.alloc mapper size pageAligned s).result = .ok (answer, heap', s) ∧
      heap'.stop = heap.stop ∧
      (answer = .error .indexFull ∨ answer = .ok (firstFrom hole.addr pageAligned)) := by
  have hfits := h.rounded_lt_of_best best
  rcases h.books.takeBestFit_cases h.window (rounded_pos pos) (dvd_rounded size) pageAligned with
    ⟨-, hnone⟩ | ⟨found, hbest, ⟨htake, -⟩ | ⟨blocks, holes, htake, -⟩⟩
  · exact absurd (hnone hole best.mem) (Nat.not_lt.mpr best.fits)
  · exact ⟨_, _, alloc_of_taken pos hfits htake, rfl, .inl rfl⟩
  · obtain rfl := best.unique hbest
    exact ⟨_, _, alloc_of_taken pos hfits htake, rfl, .inr rfl⟩

/-- Without one, a request is granted past the old end, at the first address from the tail on. -/
theorem Valid.grown_of_granted (h : heap.Valid) (pos : 0 < size)
    (none_fits : ∀ hole ∈ heap.holes, hole.size < padTo hole.addr pageAligned + rounded size)
    (halloc : (heap.alloc mapper size pageAligned s).result = .ok (.ok addr, heap', t)) :
    addr = firstFrom heap.tailStart pageAligned ∧ heap.stop < heap'.stop := by
  by_cases fits : rounded size < wordLimit
  case neg =>
    have hblock : blockSize? size = none := if_neg fits
    simp [alloc, Nat.ne_of_gt pos, hblock] at halloc
  have htake := h.takeBestFit_none pos none_fits
  rcases h.grow_ends (rounded_pos pos) none_fits mapper s with
    ⟨cause, hgrow, -⟩ | ⟨cause, u, hgrow, -⟩ | ⟨grown, heap'', u, hgrow, hagain, hgranted⟩
  · simp [alloc, Nat.ne_of_gt pos, blockSize?_of_lt fits, htake, hgrow] at halloc
  · simp [alloc_of_refused pos fits htake hgrow] at halloc
  rw [alloc_of_grown pos fits htake hgrow hagain] at halloc
  simp only [Except.ok.injEq, Prod.mk.injEq] at halloc
  obtain ⟨rfl, rfl, rfl⟩ := halloc
  refine ⟨rfl, ?_⟩
  -- The granted block lies in the grown heap and ends past the old one.
  have hneeded := h.books.stop_lt_needed (rounded_pos pos) none_fits
  have hused := List.mem_of_mem_filter (hgranted.used.mem_iff.mpr List.mem_cons_self)
  obtain ⟨-, -, hstop⟩ := hgranted.valid.books.laid.tiles.bounds hused
  unfold needed at hneeded
  simp only [Block.stop] at hstop
  omega

structure BestFit (mapper : RegionMapper σ) (heap : Heap) (size : Nat) (pageAligned : Bool)
    (s : σ) : Prop where
  /-- The heap does not grow if any block holds the request, and the mapper is not asked. -/
  stays : (∃ block ∈ heap.blocks, block.Holds (rounded size) pageAligned) →
    ∃ answer heap', (heap.alloc mapper size pageAligned s).result = .ok (answer, heap', s) ∧
      heap'.stop = heap.stop
  /-- Granted without growth, it starts at the first address in the chosen block. -/
  in_place : ∀ addr heap' t, (heap.alloc mapper size pageAligned s).result =
      .ok (.ok addr, heap', t) → heap'.stop = heap.stop →
    ∃ block, heap.Chosen (rounded size) pageAligned block ∧
      IsLeast { first | block.addr ≤ first ∧ (pageAligned = true → pageSize ∣ first) } addr ∧
      addr + rounded size ≤ block.stop
  /-- Granted with growth, it starts at the first address from the tail on. -/
  grown : ∀ addr heap' t, (heap.alloc mapper size pageAligned s).result =
      .ok (.ok addr, heap', t) → heap'.stop ≠ heap.stop →
    (∀ block ∈ heap.blocks, ¬ block.Holds (rounded size) pageAligned) ∧
      IsLeast { first | heap.tailStart ≤ first ∧ (pageAligned = true → pageSize ∣ first) } addr
  /-- In both cases a search through all blocks finds the same place. -/
  exhaustive : ∀ addr heap' t, (heap.alloc mapper size pageAligned s).result =
      .ok (.ok addr, heap', t) → addr = heap.placeFor (rounded size) pageAligned

theorem Valid.bestFit (h : heap.Valid) (mapper : RegionMapper σ) (size : Nat) (pageAligned : Bool)
    (s : σ) : BestFit mapper heap size pageAligned s := by
  rcases Nat.eq_zero_or_pos size with rfl | pos
  · have hzero := alloc_zero mapper heap pageAligned s
    exact ⟨fun _ => ⟨_, _, hzero, rfl⟩, by simp [hzero], by simp [hzero], by simp [hzero]⟩
  rcases h.books.bestFit_cases h.window (rounded size) pageAligned with
    ⟨-, none_fits⟩ | ⟨hole, best, -⟩
  · have none_holds := h.books.none_holds none_fits
    refine ⟨?_, ?_, ?_, ?_⟩
    · rintro ⟨block, hm, hholds⟩
      exact absurd hholds (none_holds block hm)
    · intro addr heap' t halloc hstop
      obtain ⟨-, hlonger⟩ := h.grown_of_granted pos none_fits halloc
      omega
    · intro addr heap' t halloc _
      obtain ⟨rfl, -⟩ := h.grown_of_granted pos none_fits halloc
      exact ⟨none_holds, isLeast_firstFrom heap.tailStart pageAligned⟩
    · intro addr heap' t halloc
      rw [placeFor_of_none none_holds]
      exact (h.grown_of_granted pos none_fits halloc).1
  · have chosen := h.books.chosen_of_best best
    obtain ⟨answer, found, halloc, hstop, hanswer⟩ := h.alloc_of_best pos best mapper s
    have granted : ∀ addr heap' t, (heap.alloc mapper size pageAligned s).result =
        .ok (.ok addr, heap', t) → addr = firstFrom hole.addr pageAligned ∧ heap' = found := by
      intro addr heap' t hgranted
      rw [halloc] at hgranted
      simp only [Except.ok.injEq, Prod.mk.injEq] at hgranted
      obtain ⟨rfl, rfl, -⟩ := hgranted
      exact ⟨by simpa using hanswer, rfl⟩
    refine ⟨fun _ => ⟨answer, found, halloc, hstop⟩, ?_, ?_, ?_⟩
    · intro addr heap' t hgranted _
      obtain ⟨rfl, -⟩ := granted addr heap' t hgranted
      exact ⟨_, chosen, isLeast_firstFrom hole.addr pageAligned, chosen.holds.2⟩
    · intro addr heap' t hgranted hlonger
      obtain ⟨-, rfl⟩ := granted addr heap' t hgranted
      exact absurd hstop hlonger
    · intro addr heap' t hgranted
      rw [chosen.placeFor]
      exact (granted addr heap' t hgranted).1

/-- Every allocation from a heap of a run is placed by best fit. -/
theorem Reached.alloc_best_fit {start stop maxSize : Nat} {flags : HeapFlags}
    {origin : RegionMapper τ} {run : Run τ} (h : Reached origin start stop maxSize flags run)
    (mapper : RegionMapper σ) (size : Nat) (pageAligned : Bool) (s : σ) :
    BestFit mapper run.heap size pageAligned s :=
  h.good.valid.bestFit mapper size pageAligned s

def gappedRun : Run PageBudget where
  heap := ⟨0x1000, 0x6000, 0x6000, 0x9000, .supervisor,
    [⟨0x1000, 0x70, true⟩, ⟨0x1070, 0xF90, false⟩, ⟨0x2000, 0x1000, true⟩,
      ⟨0x3000, 0x3000, false⟩],
    [⟨0xF90, 0x1070⟩, ⟨0x3000, 0x3000⟩]⟩
  mapped := ⟨[.map 0x1000 0x6000 .supervisor true],
    ⟨16, 5, [.map 0x1000 0x6000 .supervisor true]⟩⟩
  live := [⟨0x2000, 0x1000, true⟩, ⟨0x1000, 0x70, false⟩]

theorem reached_gappedRun :
    Reached PageBudget.mapper 0x1000 0x6000 0x8000 .supervisor gappedRun := by
  have hempty : Reached PageBudget.mapper 0x1000 0x6000 0x8000 .supervisor ⟨_, _, []⟩ :=
    .created (s := ⟨16, 0, []⟩) rfl
  have hfirst := hempty.step (@Step.granted _ _ _ 100 _ false _ _ rfl)
  exact hfirst.step (@Step.granted _ _ _ 0x1000 _ true _ _ rfl)

/-- The smaller hole is large enough for half a page, but not from a page boundary on. -/
theorem best_fit_past_smaller_hole :
    Reached PageBudget.mapper 0x1000 0x6000 0x8000 .supervisor gappedRun ∧
      BestFit quota gappedRun.heap 0x800 true 0 ∧
      gappedRun.heap.placeFor (rounded 0x800) true = 0x3000 ∧
      ∃ heap', (gappedRun.heap.alloc quota 0x800 true 0).result = .ok (.ok 0x3000, heap', 0) := by
  have hfit : BestFit quota gappedRun.heap 0x800 true 0 :=
    Reached.alloc_best_fit reached_gappedRun quota 0x800 true 0
  have halloc : (gappedRun.heap.alloc quota 0x800 true 0).result.map (·.1) =
      .ok (.ok 0x3000) := by rfl
  obtain ⟨answer, heap', hresult, -⟩ := hfit.stays ⟨⟨0x3000, 0x3000, false⟩, by decide +kernel⟩
  rw [hresult] at halloc
  obtain rfl : answer = .ok 0x3000 := Except.ok.inj halloc
  exact ⟨reached_gappedRun, hfit, (hfit.exhaustive _ _ _ hresult).symm, heap', hresult⟩

end Heap

end KernelCore
