import Mathlib
import KernelCore.Proofs.Heap.Outcome

/-!
# Where an allocation overflows

Of the sums an allocation makes, rounding up to a page is the only one that is not checked. The
rounding of a hole's address never reaches the last page of a word, so it is the planning of growth
alone that can overflow: `Overflows` says for which requests, whatever the window allows.
Every other request comes back, and one that its window cannot hold is refused with the heap and
the mapper as they were.
-/

namespace KernelCore

def RegionMapper.Answers {σ : Type} (mapper : RegionMapper σ) : Prop :=
  ∀ start stop flags s, ∃ answer, (mapper.map start stop flags s).result = .ok answer

theorem RegionMapper.Clean.mapAnswers {σ : Type} {mapper : RegionMapper σ} (h : mapper.Clean) :
    mapper.Answers := by
  intro start stop flags s
  obtain ⟨refusal, t, hmap⟩ := h.answers start stop flags s
  exact ⟨(refusal, t), hmap⟩

namespace Heap

variable {σ τ : Type} {mapper : RegionMapper σ} {heap : Heap} {size : Nat} {pageAligned : Bool}

/-- A request at the tail for which a page boundary is sought in the last page of a word: that from
the tail on, or that from the end of the request on. -/
def Overflows (heap : Heap) (size : Nat) (pageAligned : Bool) : Prop :=
  (pageAligned = true ∧ wordLimit ≤ heap.tailStart + pageSize) ∨
    (heap.needed size pageAligned < wordLimit ∧
      wordLimit ≤ heap.needed size pageAligned + pageSize)

instance : Decidable (heap.Overflows size pageAligned) := inferInstanceAs (Decidable (_ ∨ _))

def Unheld (heap : Heap) (size : Nat) (pageAligned : Bool) : Prop :=
  ∀ hole ∈ heap.holes, hole.size < padTo hole.addr pageAligned + size

instance : Decidable (heap.Unheld size pageAligned) :=
  inferInstanceAs (Decidable (∀ hole ∈ heap.holes, _))

/-! ## Planning -/

theorem Overflows.planGrowth (h : heap.Overflows size pageAligned) :
    heap.planGrowth size pageAligned = .error .addOverflow := by
  rw [planGrowth_eq]
  rcases h with ⟨rfl, htail⟩ | ⟨hword, hlast⟩
  · simp only [if_true, pageCeil_of_le htail]
    rfl
  have hpage : pageCeil (heap.needed size pageAligned) = .error .addOverflow := pageCeil_of_le hlast
  cases pageAligned with
  | false =>
      have hsum : Word.add? heap.tailStart size = some (heap.needed size false) := if_pos hword
      simp only [Bool.false_eq_true, if_false, bind, Except.bind, planFrom, hsum, hpage]
  | true =>
      rcases Nat.lt_or_ge (heap.tailStart + pageSize) wordLimit with hlt | hge
      · have hsum : Word.add? (pageUp heap.tailStart) size = some (heap.needed size true) := by
          rw [needed, add_padTo_aligned] at hword ⊢
          exact if_pos hword
        simp only [if_true, pageCeil_of_lt hlt, bind, Except.bind, planFrom, hsum, hpage]
      · simp only [if_true, pageCeil_of_le hge]
        rfl

/-- Growth that does not overflow is planned as if words had no limit. -/
theorem Window.planGrowth_eq_least (w : heap.Window) (h : ¬ heap.Overflows size pageAligned) :
    heap.planGrowth size pageAligned =
      .ok (if heap.limit < (heap.growth size pageAligned).stop then none
        else some (heap.growth size pageAligned)) := by
  rcases Nat.lt_or_ge (heap.needed size pageAligned + pageSize) wordLimit with hlt | hge
  · exact planGrowth_of_lt hlt
  obtain ⟨htail, hneeded⟩ := not_or.mp h
  have hpast : wordLimit ≤ heap.needed size pageAligned :=
    Nat.le_of_not_lt fun hword => hneeded ⟨hword, hge⟩
  have hlimit : heap.limit < (heap.growth size pageAligned).stop :=
    Nat.lt_of_lt_of_le w.limit_lt (Nat.le_trans hpast (le_pageUp _))
  have haligned : (if pageAligned then pageCeil heap.tailStart else .ok heap.tailStart) =
      .ok (heap.tailStart + padTo heap.tailStart pageAligned) := by
    cases pageAligned with
    | false => rfl
    | true =>
        rw [add_padTo_aligned]
        exact pageCeil_of_lt (Nat.lt_of_not_le fun hle => htail ⟨rfl, hle⟩)
  have hsum : Word.add? (heap.tailStart + padTo heap.tailStart pageAligned) size = none :=
    if_neg (Nat.not_lt.mpr hpast)
  rw [planGrowth_eq, haligned, if_pos hlimit]
  simp only [bind, Except.bind, planFrom, hsum]

theorem Window.size_lt_of_within (w : heap.Window)
    (within : (heap.growth size pageAligned).stop ≤ heap.limit) : size < wordLimit := by
  have hneeded : heap.needed size pageAligned ≤ (heap.growth size pageAligned).stop := le_pageUp _
  have hlimit := w.limit_lt
  unfold needed at hneeded
  omega

/-! ## Allocating -/

theorem Valid.alloc_overflows (h : heap.Valid) (pos : 0 < size) (fits : rounded size < wordLimit)
    (unheld : heap.Unheld (rounded size) pageAligned)
    (overflows : heap.Overflows (rounded size) pageAligned) (mapper : RegionMapper σ) (s : σ) :
    (heap.alloc mapper size pageAligned s).result = .error .addOverflow := by
  have htake := h.takeBestFit_none pos unheld
  simp [alloc, Nat.ne_of_gt pos, blockSize?_of_lt fits, htake, grow, overflows.planGrowth]

/-- A request beyond the window is refused before anything changes. -/
theorem Valid.alloc_beyond (h : heap.Valid) (pos : 0 < size)
    (unheld : heap.Unheld (rounded size) pageAligned)
    (beyond : heap.limit < (heap.growth (rounded size) pageAligned).stop)
    (room : rounded size < wordLimit → ¬ heap.Overflows (rounded size) pageAligned)
    (mapper : RegionMapper σ) (s : σ) :
    (heap.alloc mapper size pageAligned s).result = .ok (.error .exhausted, heap, s) := by
  by_cases fits : rounded size < wordLimit
  · have hplan := h.window.planGrowth_eq_least (room fits)
    rw [if_pos beyond] at hplan
    exact alloc_of_refused pos fits (h.takeBestFit_none pos unheld) (grow_of_beyond hplan mapper s)
  · have hblock : blockSize? size = none := if_neg fits
    simp [alloc, Nat.ne_of_gt pos, hblock]

/-- A request within the window comes back, if the mapper does. -/
theorem Valid.alloc_within (h : heap.Valid) (pos : 0 < size)
    (unheld : heap.Unheld (rounded size) pageAligned)
    (within : (heap.growth (rounded size) pageAligned).stop ≤ heap.limit)
    (room : ¬ heap.Overflows (rounded size) pageAligned) (answers : mapper.Answers) (s : σ) :
    ∃ answer, (heap.alloc mapper size pageAligned s).result = .ok answer := by
  have htake := h.takeBestFit_none pos unheld
  have hplan := h.window.planGrowth_eq_least room
  rw [if_neg (Nat.not_lt.mpr within)] at hplan
  have fits := h.window.size_lt_of_within within
  rcases Nat.lt_or_ge blockCapacity
    (heap.blocks.length + (heap.growth (rounded size) pageAligned).added) with full | spare
  · exact ⟨_, alloc_of_refused pos fits htake (grow_of_full hplan full mapper s)⟩
  obtain ⟨⟨refusal, t⟩, hmap⟩ := answers heap.stop
    (heap.growth (rounded size) pageAligned).stop heap.flags s
  cases refusal with
  | some cause =>
      exact ⟨_, alloc_of_refused pos fits htake (grow_of_unmapped hplan spare hmap)⟩
  | none =>
      obtain ⟨grown, heap', hextend, -, hagain, -⟩ :=
        h.granted_of_growth (rounded_pos pos) unheld within spare hmap
      have hgrow := grow_of_mapped hplan spare hmap hextend
      exact ⟨_, alloc_of_grown pos fits htake hgrow hagain⟩

structure Rounding (mapper : RegionMapper σ) (heap : Heap) (size : Nat) (pageAligned : Bool)
    (s : σ) : Prop where
  /-- It overflows if it has to be placed at the tail and its end lies in the last page of a word,
  and faults for no other reason. -/
  faults : ∀ fault, (heap.alloc mapper size pageAligned s).result = .error fault ↔
    fault = .addOverflow ∧ 0 < size ∧ rounded size < wordLimit ∧
      heap.Unheld (rounded size) pageAligned ∧ heap.Overflows (rounded size) pageAligned
  /-- What the window cannot hold is otherwise refused, however large it is. -/
  exhausted : 0 < size → heap.Unheld (rounded size) pageAligned →
    heap.limit < (heap.growth (rounded size) pageAligned).stop →
    (rounded size < wordLimit → ¬ heap.Overflows (rounded size) pageAligned) →
    (heap.alloc mapper size pageAligned s).result = .ok (.error .exhausted, heap, s)
  /-- Whatever the reason, a refusal leaves the heap as it was. -/
  refused : ∀ cause heap' t,
    (heap.alloc mapper size pageAligned s).result = .ok (.error cause, heap', t) → heap' = heap

/-- An allocation that overflows does so for every mapper, and any other comes back. -/
theorem Valid.alloc_faults_iff (h : heap.Valid) (answers : mapper.Answers) (s : σ)
    (fault : Fault) :
    (heap.alloc mapper size pageAligned s).result = .error fault ↔
      fault = .addOverflow ∧ 0 < size ∧ rounded size < wordLimit ∧
        heap.Unheld (rounded size) pageAligned ∧ heap.Overflows (rounded size) pageAligned := by
  constructor
  case mpr =>
    rintro ⟨rfl, pos, fits, unheld, overflows⟩
    exact h.alloc_overflows pos fits unheld overflows mapper s
  intro hfault
  have comes_back : ¬ ∃ answer, (heap.alloc mapper size pageAligned s).result = .ok answer := by
    rintro ⟨answer, hok⟩
    exact absurd (hok.symm.trans hfault) (by simp)
  rcases Nat.eq_zero_or_pos size with rfl | pos
  · exact absurd ⟨_, alloc_zero mapper heap pageAligned s⟩ comes_back
  rcases h.books.bestFit_cases h.window (rounded size) pageAligned with
    ⟨-, unheld⟩ | ⟨hole, best, -⟩
  case inr =>
    obtain ⟨answer, heap', t, hok, -⟩ := h.alloc_in_hole pos best mapper s
    exact absurd ⟨_, hok⟩ comes_back
  by_cases tight : rounded size < wordLimit ∧ heap.Overflows (rounded size) pageAligned
  · have hover := h.alloc_overflows pos tight.1 unheld tight.2 mapper s
    exact ⟨Except.error.inj (hfault.symm.trans hover), pos, tight.1, unheld, tight.2⟩
  have room := not_and.mp tight
  rcases Nat.lt_or_ge heap.limit (heap.growth (rounded size) pageAligned).stop with
    beyond | within
  · exact absurd ⟨_, h.alloc_beyond pos unheld beyond room mapper s⟩ comes_back
  have fits := h.window.size_lt_of_within within
  exact absurd (h.alloc_within pos unheld within (room fits) answers s) comes_back

/-- Every allocation from a heap of a run comes back unless it overflows in the last page of a
word. -/
theorem Reached.alloc_rounding {start stop maxSize : Nat} {flags : HeapFlags}
    {origin : RegionMapper τ} {run : Run τ} (h : Reached origin start stop maxSize flags run)
    (answers : mapper.Answers) (size : Nat) (pageAligned : Bool) (s : σ) :
    Rounding mapper run.heap size pageAligned s := by
  have hvalid := h.good.valid
  refine ⟨hvalid.alloc_faults_iff answers s, fun pos unheld beyond room =>
    hvalid.alloc_beyond pos unheld beyond room mapper s, fun cause heap' t hrefused => ?_⟩
  have hends := hvalid.alloc_ends mapper size pageAligned s
  rw [hrefused] at hends
  cases hends with
  | refused | unmapped => rfl

/-- A request that would end at the first address past all words is refused. -/
theorem exhausted_past_all_words :
    Reached PageBudget.mapper 0x1000 0x2000 0x8000 .supervisor smallRun ∧ quota.Answers ∧
      smallRun.heap.needed (rounded 0xFFFFFFFFFFFFEF90) false = wordLimit ∧
      ∀ left, (smallRun.heap.alloc quota 0xFFFFFFFFFFFFEF90 false left).result =
        .ok (.error .exhausted, smallRun.heap, left) :=
  ⟨reached_smallRun, quota_clean.mapAnswers, by decide +kernel, fun left =>
    (Reached.alloc_rounding reached_smallRun quota_clean.mapAnswers _ _ left).exhausted
      (by decide +kernel) (by decide +kernel) (by decide +kernel) (by decide +kernel)⟩

/-- One that ends before that, but past the last page boundary of a word, is not. -/
theorem growth_rounding_overflows :
    Reached PageBudget.mapper 0x1000 0x2000 0x8000 .supervisor smallRun ∧ quota.Answers ∧
      0xFFFFFFFFFFFFE000 < wordLimit ∧
      smallRun.heap.Unheld (rounded 0xFFFFFFFFFFFFE000) false ∧
      smallRun.heap.limit < (smallRun.heap.growth (rounded 0xFFFFFFFFFFFFE000) false).stop ∧
      ∀ left, (smallRun.heap.alloc quota 0xFFFFFFFFFFFFE000 false left).result =
        .error .addOverflow :=
  ⟨reached_smallRun, quota_clean.mapAnswers, by decide +kernel, by decide +kernel,
    by decide +kernel, fun _ => rfl⟩

end Heap

end KernelCore
