import Mathlib
import KernelCore.Proofs.Heap.Runs

/-!
# How an allocation ends

The books of a heap decide how an allocation ends, up to the answer of the mapper if they come to
ask it. A request takes the best hole that holds it; without one it takes the tail, grown to the
least page boundary that makes it large enough. Both are refused before anything changes, and once
the mapper has granted the growth the rest cannot fail: the search that follows finds the grown tail
and cuts it into as many pieces as were counted.
-/

namespace KernelCore

/-- A mapper that always answers, and that changes nothing where it refuses. -/
structure RegionMapper.Clean {σ : Type} (mapper : RegionMapper σ) : Prop where
  answers : ∀ start stop flags s, ∃ refusal t,
    (mapper.map start stop flags s).result = .ok (refusal, t)
  refusals : ∀ start stop flags s cause t,
    (mapper.map start stop flags s).result = .ok (some cause, t) → t = s

namespace Heap

variable {σ τ : Type} {mapper : RegionMapper σ} {heap heap' : Heap} {s t : σ} {size : Nat}
  {pageAligned : Bool} {answer : Except HeapError Nat}

/-- How a request ends that the best hole holds: it is granted there unless the pieces of the hole
are too many for the block list. -/
structure EndsInHole (heap : Heap) (size : Nat) (pageAligned : Bool) (s : σ) (hole : Hole)
    (answer : Except HeapError Nat) (t : σ) : Prop where
  full : answer = .error .indexFull ↔ blockCapacity < heap.blocks.length +
    ((pieces hole (padTo hole.addr pageAligned) size).length - 1)
  granted : heap.blocks.length + ((pieces hole (padTo hole.addr pageAligned) size).length - 1) ≤
    blockCapacity → answer = .ok (hole.addr + padTo hole.addr pageAligned) ∧ t = s

/-- How a request ends that no hole holds. -/
structure EndsAtTail (mapper : RegionMapper σ) (heap : Heap) (size : Nat) (pageAligned : Bool)
    (s : σ) (answer : Except HeapError Nat) (t : σ) : Prop where
  /-- The heap would end at the least page boundary past the request at its tail. -/
  least : IsLeast { stop | pageSize ∣ stop ∧ heap.needed size pageAligned ≤ stop }
    (heap.growth size pageAligned).stop
  /-- The added blocks that are counted are a tail, if there was none, and the pieces of it. -/
  counted : (heap.growth size pageAligned).added = heap.freeTail?.isNone.toNat +
    ((pieces (heap.grownTail size pageAligned) (padTo heap.tailStart pageAligned) size).length - 1)
  exhausted : answer = .error .exhausted ↔ heap.limit < (heap.growth size pageAligned).stop
  full : (heap.growth size pageAligned).stop ≤ heap.limit →
    (answer = .error .indexFull ↔
      blockCapacity < heap.blocks.length + (heap.growth size pageAligned).added)
  mapping : (heap.growth size pageAligned).stop ≤ heap.limit →
    heap.blocks.length + (heap.growth size pageAligned).added ≤ blockCapacity → ∀ cause,
    (answer = .error (.mapping cause) ↔
      (mapper.map heap.stop (heap.growth size pageAligned).stop heap.flags s).result =
        .ok (some cause, s))
  /-- Once the mapper has granted the growth, the second search finds the grown tail. -/
  granted : (heap.growth size pageAligned).stop ≤ heap.limit →
    heap.blocks.length + (heap.growth size pageAligned).added ≤ blockCapacity → ∀ u,
    (mapper.map heap.stop (heap.growth size pageAligned).stop heap.flags s).result =
      .ok (none, u) →
    answer = .ok (heap.tailStart + padTo heap.tailStart pageAligned) ∧ t = u ∧
      ∃ grown, heap.extend (heap.growth size pageAligned).stop = .ok grown ∧
        grown.bestFit size pageAligned =
          .ok (some (heap.grownTail size pageAligned, padTo heap.tailStart pageAligned))

/-- How an allocation of `size` bytes ends, by what the books say before. -/
structure Outcome (mapper : RegionMapper σ) (heap : Heap) (size : Nat) (pageAligned : Bool) (s : σ)
    (answer : Except HeapError Nat) (heap' : Heap) (t : σ) : Prop where
  /-- A refused allocation changes nothing. -/
  unchanged : ∀ cause, answer = .error cause → heap' = heap ∧ t = s
  zero : answer = .error .zeroSize ↔ size = 0
  hole : 0 < size → ∀ hole, heap.Best (rounded size) pageAligned hole →
    EndsInHole heap (rounded size) pageAligned s hole answer t
  tail : 0 < size →
    (∀ hole ∈ heap.holes, hole.size < padTo hole.addr pageAligned + rounded size) →
    EndsAtTail mapper heap (rounded size) pageAligned s answer t
  granted : ∀ addr, answer = .ok addr → Granted mapper size pageAligned heap s addr heap' t

/-! ## The ways to an end -/

theorem rounded_pos (pos : 0 < size) : 0 < rounded size :=
  Nat.lt_of_lt_of_le pos (le_rounded size)

theorem blockSize?_of_lt (fits : rounded size < wordLimit) : blockSize? size = some (rounded size) :=
  if_pos fits

theorem alloc_zero (mapper : RegionMapper σ) (heap : Heap) (pageAligned : Bool) (s : σ) :
    (heap.alloc mapper 0 pageAligned s).result = .ok (.error .zeroSize, heap, s) := rfl

theorem alloc_of_taken (pos : 0 < size) (fits : rounded size < wordLimit)
    (htake : heap.takeBestFit (rounded size) pageAligned = .ok (some (answer, heap'))) :
    (heap.alloc mapper size pageAligned s).result = .ok (answer, heap', s) := by
  simp [alloc, Nat.ne_of_gt pos, blockSize?_of_lt fits, htake]

theorem Valid.rounded_lt_of_best (h : heap.Valid) {hole : Hole}
    (best : heap.Best (rounded size) pageAligned hole) : rounded size < wordLimit := by
  obtain ⟨-, -, hstop, -⟩ := h.books.hole_bounds best.mem
  have hpage := h.window.stop_add_page_le
  have hfits := best.fits
  unfold pageSize at hpage
  omega

/-- With a hole for it, the request is refused for want of room in the block list or granted. -/
theorem Valid.alloc_in_hole (h : heap.Valid) (pos : 0 < size) {hole : Hole}
    (best : heap.Best (rounded size) pageAligned hole) (mapper : RegionMapper σ) (s : σ) :
    ∃ answer heap' t, (heap.alloc mapper size pageAligned s).result = .ok (answer, heap', t) ∧
      answer ≠ .error .zeroSize ∧ EndsInHole heap (rounded size) pageAligned s hole answer t := by
  have hfits := h.rounded_lt_of_best best
  rcases h.books.takeBestFit_cases h.window (rounded_pos pos) (dvd_rounded size) pageAligned with
    ⟨-, hnone⟩ | ⟨found, hbest, ⟨htake, hfull⟩ | ⟨blocks, holes, htake, hroom, -⟩⟩
  · exact absurd (hnone hole best.mem) (Nat.not_lt.mpr best.fits)
  · obtain rfl := best.unique hbest
    refine ⟨_, _, s, alloc_of_taken pos hfits htake, by simp, ⟨by simp [hfull], fun hroom => ?_⟩⟩
    exact absurd hfull (Nat.not_lt.mpr hroom)
  · obtain rfl := best.unique hbest
    refine ⟨_, _, s, alloc_of_taken pos hfits htake, by simp, ⟨?_, fun _ => ⟨rfl, rfl⟩⟩⟩
    simpa using hroom

theorem isLeast_growth (heap : Heap) (size : Nat) (pageAligned : Bool) :
    IsLeast { stop | pageSize ∣ stop ∧ heap.needed size pageAligned ≤ stop }
      (heap.growth size pageAligned).stop :=
  ⟨⟨dvd_pageUp _, le_pageUp _⟩, fun _ ⟨hpage, hle⟩ => pageUp_le hle hpage⟩

theorem Valid.takeBestFit_none (h : heap.Valid) (pos : 0 < size)
    (none_fits : ∀ hole ∈ heap.holes, hole.size < padTo hole.addr pageAligned + rounded size) :
    heap.takeBestFit (rounded size) pageAligned = .ok none := by
  rcases h.books.takeBestFit_cases h.window (rounded_pos pos) (dvd_rounded size) pageAligned with
    ⟨htake, -⟩ | ⟨hole, hbest, -⟩
  · exact htake
  · exact absurd (none_fits hole hbest.mem) (Nat.not_lt.mpr hbest.fits)

theorem alloc_of_refused (pos : 0 < size) (fits : rounded size < wordLimit)
    (htake : heap.takeBestFit (rounded size) pageAligned = .ok none) {cause : HeapError}
    (hgrow : (heap.grow mapper (rounded size) pageAligned s).result = .ok (some cause, heap', t)) :
    (heap.alloc mapper size pageAligned s).result = .ok (.error cause, heap', t) := by
  simp [alloc, Nat.ne_of_gt pos, blockSize?_of_lt fits, htake, hgrow]

theorem alloc_of_grown (pos : 0 < size) (fits : rounded size < wordLimit)
    (htake : heap.takeBestFit (rounded size) pageAligned = .ok none) {grown : Heap}
    (hgrow : (heap.grow mapper (rounded size) pageAligned s).result = .ok (none, grown, t))
    (hagain : grown.takeBestFit (rounded size) pageAligned = .ok (some (answer, heap'))) :
    (heap.alloc mapper size pageAligned s).result = .ok (answer, heap', t) := by
  simp [alloc, Nat.ne_of_gt pos, blockSize?_of_lt fits, htake, hgrow, hagain]

/-- Without a hole for it, the request is refused for want of room in the window or in the block
list, or ends as the mapper answers. -/
theorem Valid.alloc_at_tail (h : heap.Valid) (pos : 0 < size)
    (none_fits : ∀ hole ∈ heap.holes, hole.size < padTo hole.addr pageAligned + rounded size)
    (fits : heap.needed (rounded size) pageAligned + pageSize < wordLimit) (clean : mapper.Clean)
    (s : σ) :
    ∃ answer heap' t, (heap.alloc mapper size pageAligned s).result = .ok (answer, heap', t) ∧
      answer ≠ .error .zeroSize ∧
      EndsAtTail mapper heap (rounded size) pageAligned s answer t := by
  have hsize : rounded size < wordLimit := by
    unfold needed at fits
    omega
  have htake := h.takeBestFit_none pos none_fits
  have hplan := planGrowth_of_lt fits
  have hleast := isLeast_growth heap (rounded size) pageAligned
  have hcounted := (length_pieces_growth heap (rounded size) pageAligned).symm
  rcases Nat.lt_or_ge heap.limit (heap.growth (rounded size) pageAligned).stop with hpast | hlimit
  · rw [if_pos hpast] at hplan
    have hgrow := grow_of_beyond hplan mapper s
    have hnot := Nat.not_le.mpr hpast
    exact ⟨_, _, s, alloc_of_refused pos hsize htake hgrow, by simp, hleast, hcounted,
      by simp [hpast], fun hle => absurd hle hnot, fun hle => absurd hle hnot,
      fun hle => absurd hle hnot⟩
  rw [if_neg (Nat.not_lt.mpr hlimit)] at hplan
  rcases Nat.lt_or_ge blockCapacity
    (heap.blocks.length + (heap.growth (rounded size) pageAligned).added) with hfull | hroom
  · have hgrow := grow_of_full hplan hfull mapper s
    have hnot := Nat.not_le.mpr hfull
    exact ⟨_, _, s, alloc_of_refused pos hsize htake hgrow, by simp, hleast, hcounted,
      by simpa using hlimit, fun _ => by simp [hfull], fun _ hle => absurd hle hnot,
      fun _ hle => absurd hle hnot⟩
  obtain ⟨refusal, t, hmap⟩ := clean.answers heap.stop
    (heap.growth (rounded size) pageAligned).stop heap.flags s
  cases refusal with
  | some cause =>
      obtain rfl := clean.refusals _ _ _ _ _ _ hmap
      have hgrow := grow_of_unmapped hplan hroom hmap
      exact ⟨_, _, t, alloc_of_refused pos hsize htake hgrow, by simp, hleast, hcounted,
        by simpa using hlimit, fun _ => by simpa using hroom, fun _ _ other => by simp [hmap],
        fun _ _ u hgranted => by simp [hmap] at hgranted⟩
  | none =>
      obtain ⟨grown, heap', hextend, hbest, hagain, -⟩ :=
        h.granted_of_growth (rounded_pos pos) none_fits hlimit hroom hmap
      have hgrow := grow_of_mapped hplan hroom hmap hextend
      refine ⟨_, _, t, alloc_of_grown pos hsize htake hgrow hagain, by simp, hleast, hcounted,
        by simpa using hlimit, fun _ => by simpa using hroom, fun _ _ other => by simp [hmap],
        fun _ _ u hgranted => ?_⟩
      obtain ⟨-, rfl⟩ := Prod.mk.injEq .. ▸ Except.ok.inj (hmap.symm.trans hgranted)
      exact ⟨rfl, rfl, grown, hextend, hbest⟩

/-! ## The outcome -/

theorem Valid.outcome_of_ends (h : heap.Valid) (clean : mapper.Clean)
    (halloc : (heap.alloc mapper size pageAligned s).result = .ok (answer, heap', t)) :
    (∀ cause, answer = .error cause → heap' = heap ∧ t = s) ∧
      ∀ addr, answer = .ok addr → Granted mapper size pageAligned heap s addr heap' t := by
  have hends := h.alloc_ends mapper size pageAligned s
  rw [halloc] at hends
  cases hends with
  | refused cause => exact ⟨fun _ _ => ⟨rfl, rfl⟩, by simp⟩
  | unmapped hmap => exact ⟨fun _ _ => ⟨rfl, clean.refusals _ _ _ _ _ _ hmap⟩, by simp⟩
  | granted hg =>
      refine ⟨by simp, ?_⟩
      rintro _ ⟨⟩
      exact hg

/-- Every allocation from a heap of a run comes back with the outcome that its books decide. -/
theorem Reached.alloc_outcome {start stop maxSize : Nat} {flags : HeapFlags}
    {origin : RegionMapper τ} {run : Run τ} (h : Reached origin start stop maxSize flags run)
    (clean : mapper.Clean) (s : σ)
    (fits : run.heap.needed (rounded size) pageAligned + pageSize < wordLimit) :
    ∃ answer heap' t, (run.heap.alloc mapper size pageAligned s).result = .ok (answer, heap', t) ∧
      Outcome mapper run.heap size pageAligned s answer heap' t := by
  have hvalid := h.good.valid
  rcases Nat.eq_zero_or_pos size with rfl | hpos
  · refine ⟨_, _, s, alloc_zero mapper run.heap pageAligned s, ?_⟩
    exact ⟨fun _ _ => ⟨rfl, rfl⟩, by simp, fun hlt => absurd hlt (Nat.lt_irrefl 0),
      fun hlt => absurd hlt (Nat.lt_irrefl 0), by simp⟩
  have hnonzero : size ≠ 0 := Nat.ne_of_gt hpos
  rcases hvalid.books.bestFit_cases hvalid.window (rounded size) pageAligned with
    ⟨-, hnone⟩ | ⟨hole, hbest, -⟩
  · obtain ⟨answer, heap', t, halloc, hzero, hends⟩ :=
      hvalid.alloc_at_tail hpos hnone fits clean s
    obtain ⟨hunchanged, hgranted⟩ := hvalid.outcome_of_ends clean halloc
    refine ⟨answer, heap', t, halloc, hunchanged, by simp [hzero, hnonzero], ?_,
      fun _ _ => hends, hgranted⟩
    intro _ hole hbest
    exact absurd (hnone hole hbest.mem) (Nat.not_lt.mpr hbest.fits)
  · obtain ⟨answer, heap', t, halloc, hzero, hends⟩ :=
      hvalid.alloc_in_hole hpos hbest mapper s
    obtain ⟨hunchanged, hgranted⟩ := hvalid.outcome_of_ends clean halloc
    refine ⟨answer, heap', t, halloc, hunchanged, by simp [hzero, hnonzero], ?_, ?_, hgranted⟩
    · intro _ other hother
      rwa [← hbest.unique hother]
    · intro _ hnone
      exact absurd (hnone hole hbest.mem) (Nat.not_lt.mpr hbest.fits)

def quota : RegionMapper Nat where
  map start stop _ left :=
    pure (if pageCount start stop ≤ left then (none, left - pageCount start stop)
      else (some .outOfFrames, left))
  unmap start stop left := pure (left + pageCount start stop)

theorem quota_clean : quota.Clean where
  answers start stop flags left := ⟨_, _, rfl⟩
  refusals start stop flags left cause t h := by
    simp only [quota, Traced.result_pure, Except.ok.injEq] at h
    split at h
    · simp at h
    · exact (Prod.mk.inj h).2.symm

/-- A heap of one page, where the first 112 bytes are allocated. -/
def smallRun : Run PageBudget where
  heap := ⟨0x1000, 0x2000, 0x2000, 0x9000, .supervisor,
    [⟨0x1000, 0x70, true⟩, ⟨0x1070, 0xF90, false⟩], [⟨0xF90, 0x1070⟩]⟩
  mapped := ⟨[.map 0x1000 0x2000 .supervisor true],
    ⟨16, 1, [.map 0x1000 0x2000 .supervisor true]⟩⟩
  live := [⟨0x1000, 0x70, false⟩]

theorem reached_smallRun :
    Reached PageBudget.mapper 0x1000 0x2000 0x8000 .supervisor smallRun := by
  have hempty : Reached PageBudget.mapper 0x1000 0x2000 0x8000 .supervisor ⟨_, _, []⟩ :=
    .created (s := ⟨16, 0, []⟩) rfl
  exact hempty.step (@Step.granted _ _ _ 100 _ false _ _ rfl)

/-- A request that pads the free tail of a heap and grows it by two pages is granted there. -/
theorem granted_at_padded_tail :
    Reached PageBudget.mapper 0x1000 0x2000 0x8000 .supervisor smallRun ∧ quota.Clean ∧
      smallRun.heap.needed (rounded 0x1800) true + pageSize < wordLimit ∧
      ∃ heap' t, (smallRun.heap.alloc quota 0x1800 true 2).result =
          .ok (.ok 0x2000, heap', t) ∧
        Outcome quota smallRun.heap 0x1800 true 2 (.ok 0x2000) heap' t := by
  have hfits : smallRun.heap.needed (rounded 0x1800) true + pageSize < wordLimit := by
    decide +kernel
  obtain ⟨answer, heap', t, halloc, houtcome⟩ :=
    Reached.alloc_outcome reached_smallRun quota_clean 2 hfits
  obtain rfl : answer = .ok 0x2000 := by
    have heval : (smallRun.heap.alloc quota 0x1800 true 2).result.map (·.1) =
        .ok (.ok 0x2000) := by rfl
    rw [halloc] at heval
    exact Except.ok.inj heval
  exact ⟨reached_smallRun, quota_clean, hfits, heap', t, halloc, houtcome⟩

/-- Where a request would end on the last page boundary of a word, its end is rounded up by way of a
sum that overflows, although it would fit when rounded. -/
theorem exhaustion_overflows :
    Reached PageBudget.mapper 0x1000 0x2000 0x8000 .supervisor smallRun ∧ quota.Clean ∧
      (smallRun.heap.growth (rounded 0xFFFFFFFFFFFFDF90) false).stop < wordLimit ∧
      (∀ hole ∈ smallRun.heap.holes,
        hole.size < padTo hole.addr false + rounded 0xFFFFFFFFFFFFDF90) ∧
      smallRun.heap.limit < (smallRun.heap.growth (rounded 0xFFFFFFFFFFFFDF90) false).stop ∧
      ∀ left, (smallRun.heap.alloc quota 0xFFFFFFFFFFFFDF90 false left).result =
        .error .addOverflow :=
  ⟨reached_smallRun, quota_clean, by decide +kernel, by decide +kernel, by decide +kernel,
    fun _ => rfl⟩

end Heap

end KernelCore
