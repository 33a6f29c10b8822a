import Mathlib
import KernelCore.Proofs.Heap.Changes
import KernelCore.Proofs.Heap.Choice
import KernelCore.Proofs.Results

/-!
# What one call does to a heap

A heap is valid when its books are consistent and its end is the least page boundary, from the
initial end on, that covers the used blocks. `alloc_ends` and `free_ends` list all that a call on a
valid heap can do: which heap it leaves, what it asks of the mapper, and how it can fault.
-/

namespace KernelCore

namespace Heap

/-! ## Valid heaps -/

structure Valid (heap : Heap) : Prop where
  books : heap.Books
  window : heap.Window
  /-- No page more than the used blocks need is backed, beyond the initial ones. -/
  snug : heap.stop = max heap.initialStop (pageUp heap.tailStart)

structure SameWindow (heap heap' : Heap) : Prop where
  start : heap'.start = heap.start
  initialStop : heap'.initialStop = heap.initialStop
  limit : heap'.limit = heap.limit
  flags : heap'.flags = heap.flags

theorem SameWindow.refl (heap : Heap) : SameWindow heap heap := ⟨rfl, rfl, rfl, rfl⟩

theorem SameWindow.symm {heap heap' : Heap} (h : SameWindow heap heap') : SameWindow heap' heap :=
  ⟨h.start.symm, h.initialStop.symm, h.limit.symm, h.flags.symm⟩

theorem SameWindow.trans {a b c : Heap} (hab : SameWindow a b) (hbc : SameWindow b c) :
    SameWindow a c :=
  ⟨hbc.start.trans hab.start, hbc.initialStop.trans hab.initialStop, hbc.limit.trans hab.limit,
    hbc.flags.trans hab.flags⟩

open Traced

variable {σ : Type} {heap : Heap}

theorem Valid.used_apart (h : heap.Valid) :
    (usedBlocks heap.blocks).Pairwise fun a b => a.stop ≤ b.addr ∨ b.stop ≤ a.addr :=
  (h.books.laid.tiles.ordered.sublist List.filter_sublist).imp .inl

/-- The end stays snug as long as it stays and no used block is given up. -/
theorem Valid.of_more_used (h : heap.Valid) {blocks : List Block} {holes : List Hole}
    (books : Books { heap with blocks, holes })
    (used : ∀ x ∈ usedBlocks heap.blocks, x ∈ usedBlocks blocks) :
    Valid { heap with blocks, holes } where
  books := books
  window := ⟨h.window.start_page, h.window.initial_page, h.window.stop_page, h.window.start_lt,
    h.window.initial_le, h.window.stop_le, h.window.limit_lt⟩
  snug := by
    have hmono := h.books.tailStart_mono books rfl used
    have hlow := pageUp_mono hmono
    have hhigh := pageUp_le books.tailStart_le h.window.stop_page
    have hsnug := h.snug
    have hinitial := h.window.initial_le
    simp only at hhigh ⊢
    omega

/-! ## Creation -/

theorem valid_create {start stop limit : Nat} {flags : HeapFlags} (first : pageSize ∣ start)
    (last : pageSize ∣ stop) (lt : start < stop) (le : stop ≤ limit) (fits : limit < wordLimit) :
    Valid ⟨start, stop, stop, limit, flags, [⟨start, stop - start, false⟩],
      [⟨stop - start, start⟩]⟩ := by
  have hlaid := laid_freeSpan lt.le (granule_dvd_of_page_dvd first) (granule_dvd_of_page_dvd last)
  rw [freeSpan_of_lt lt] at hlaid
  have hbooks : Books ⟨start, stop, stop, limit, flags, [⟨start, stop - start, false⟩],
      [⟨stop - start, start⟩]⟩ :=
    ⟨hlaid, by simp [freeHoles], List.pairwise_singleton _ _, by simp⟩
  refine ⟨hbooks, ⟨first, last, last, lt, Nat.le_refl _, le, fits⟩, ?_⟩
  have hpage := pageUp_le hbooks.tailStart_le last
  simp only at hpage ⊢
  omega

structure Created (mapper : RegionMapper σ) (start stop maxSize : Nat) (flags : HeapFlags) (s : σ)
    (heap : Heap) (t : σ) : Prop where
  valid : heap.Valid
  start_eq : heap.start = start
  stop_eq : heap.stop = stop
  initial_eq : heap.initialStop = stop
  limit_eq : heap.limit = start + maxSize
  flags_eq : heap.flags = flags
  used : usedBlocks heap.blocks = []
  backing : (mapper.map start stop flags s).result = .ok (none, t)

theorem create_eq_ok {mapper : RegionMapper σ} {start stop maxSize : Nat} {flags : HeapFlags}
    {s t : σ} (h : (create mapper start stop maxSize flags s).result = .ok (.ok heap, t)) :
    Created mapper start stop maxSize flags s heap t := by
  unfold create at h
  by_cases hfirst : start % pageSize ≠ 0
  · simp [hfirst] at h
  by_cases hlast : stop % pageSize ≠ 0
  · simp [hfirst, hlast] at h
  by_cases hle : stop ≤ start
  · simp [hfirst, hlast, hle] at h
  cases hlimit : (Word.add? start maxSize).filter (stop ≤ ·) with
  | none => simp [hfirst, hlast, hle, hlimit] at h
  | some limit =>
      simp only [hfirst, hlast, hle, hlimit, if_false, result_bind] at h
      obtain ⟨⟨refusal, t'⟩, hmap, hrest⟩ := bind_eq_ok h
      cases refusal with
      | some cause => simp at hrest
      | none =>
          simp only [result_bind, result_note, ok_bind, result_pure, Except.ok.injEq,
            Prod.mk.injEq] at hrest
          obtain ⟨rfl, rfl⟩ := hrest
          obtain ⟨hsum, hfits⟩ := Option.filter_eq_some_iff.mp hlimit
          obtain ⟨hlt, heq⟩ := Option.ite_none_right_eq_some.mp hsum
          obtain rfl := Option.some.inj heq
          refine ⟨valid_create (Nat.dvd_of_mod_eq_zero (not_not.mp hfirst))
            (Nat.dvd_of_mod_eq_zero (not_not.mp hlast)) (Nat.lt_of_not_le hle)
            (of_decide_eq_true hfits) hlt, rfl, rfl, rfl, rfl, rfl, ?_, hmap⟩
          simp [usedBlocks]

/-! ## Allocating -/

def rounded (size : Nat) : Nat := (size + (heapGranule - 1)) / heapGranule * heapGranule

theorem le_rounded (size : Nat) : size ≤ rounded size := by
  unfold rounded heapGranule
  omega

theorem dvd_rounded (size : Nat) : heapGranule ∣ rounded size := Nat.dvd_mul_left _ _

theorem blockSize?_eq_some {size block : Nat} (h : blockSize? size = some block) :
    block = rounded size := by
  unfold blockSize? at h
  exact (Option.some.inj (Option.ite_none_right_eq_some.mp h).2).symm

theorem Books.takeBestFit_cases (h : heap.Books) (w : heap.Window) {size : Nat} (pos : 0 < size)
    (granular : heapGranule ∣ size) (pageAligned : Bool) :
    (heap.takeBestFit size pageAligned = .ok none ∧
        ∀ hole ∈ heap.holes, hole.size < padTo hole.addr pageAligned + size) ∨
      ∃ hole, heap.Best size pageAligned hole ∧
        ((heap.takeBestFit size pageAligned = .ok (some (.error .indexFull, heap)) ∧
            blockCapacity < heap.blocks.length +
              ((pieces hole (padTo hole.addr pageAligned) size).length - 1)) ∨
          ∃ blocks holes, heap.takeBestFit size pageAligned =
              .ok (some (.ok (hole.addr + padTo hole.addr pageAligned),
                { heap with blocks, holes })) ∧
            heap.blocks.length + ((pieces hole (padTo hole.addr pageAligned) size).length - 1) ≤
              blockCapacity ∧
            Books { heap with blocks, holes } ∧
            (usedBlocks blocks).Perm (⟨hole.addr + padTo hole.addr pageAligned, size, true⟩ ::
              usedBlocks heap.blocks)) := by
  rcases h.bestFit_cases w size pageAligned with ⟨hbest, hnone⟩ | ⟨hole, hole_best, hbest⟩
  · exact .inl ⟨by simp [takeBestFit, hbest, bind, Except.bind, pure, Except.pure], hnone⟩
  refine .inr ⟨hole, hole_best, ?_⟩
  obtain ⟨-, -, -, haddr, -⟩ := h.hole_bounds hole_best.mem
  rcases Nat.lt_or_ge blockCapacity (heap.blocks.length +
    ((pieces hole (padTo hole.addr pageAligned) size).length - 1)) with hfull | hroom
  · left
    exact ⟨by simp [takeBestFit, hbest, take_full hfull, bind, Except.bind, pure, Except.pure],
      hfull⟩
  · right
    obtain ⟨blocks, holes, htake, hbooks, hperm⟩ := h.take_eq hole_best.mem hole_best.fits pos
      (dvd_padTo haddr pageAligned) granular hroom
    exact ⟨blocks, holes,
      by simp [takeBestFit, hbest, htake, bind, Except.bind, pure, Except.pure], hroom, hbooks,
      hperm⟩

structure Granted (mapper : RegionMapper σ) (size : Nat) (pageAligned : Bool) (heap : Heap) (s : σ)
    (addr : Nat) (heap' : Heap) (t : σ) : Prop where
  valid : heap'.Valid
  same : SameWindow heap heap'
  used : (usedBlocks heap'.blocks).Perm (⟨addr, rounded size, true⟩ :: usedBlocks heap.blocks)
  page : pageAligned = true → pageSize ∣ addr
  /-- Nothing is asked of the mapper unless the heap grows. -/
  backing : (heap'.stop = heap.stop ∧ t = s) ∨
    (heap.stop < heap'.stop ∧
      (mapper.map heap.stop heap'.stop heap.flags s).result = .ok (none, t))

/-- All the ways an allocation from a valid heap can end. -/
inductive AllocEnds (mapper : RegionMapper σ) (size : Nat) (pageAligned : Bool) (heap : Heap)
    (s : σ) : Except Fault (Except HeapError Nat × Heap × σ) → Prop
  | overflow : AllocEnds mapper size pageAligned heap s (.error .addOverflow)
  | fault {stop : Nat} {cause : Fault} :
      (mapper.map heap.stop stop heap.flags s).result = .error cause →
      AllocEnds mapper size pageAligned heap s (.error cause)
  | refused (cause : HeapError) :
      AllocEnds mapper size pageAligned heap s (.ok (.error cause, heap, s))
  | unmapped {stop : Nat} {cause : PagingError} {t : σ} :
      (mapper.map heap.stop stop heap.flags s).result = .ok (some cause, t) →
      AllocEnds mapper size pageAligned heap s (.ok (.error (.mapping cause), heap, t))
  | granted {addr : Nat} {heap' : Heap} {t : σ} :
      Granted mapper size pageAligned heap s addr heap' t →
      AllocEnds mapper size pageAligned heap s (.ok (.ok addr, heap', t))

theorem page_dvd_of_padTo {addr : Nat} {pageAligned : Bool} (h : pageAligned = true) :
    pageSize ∣ addr + padTo addr pageAligned := by
  subst h
  rw [add_padTo_aligned]
  exact dvd_pageUp addr

/-- What no hole holds would end past the heap at its tail. -/
theorem Books.stop_lt_needed (h : heap.Books) {size : Nat} (pos : 0 < size) {pageAligned : Bool}
    (none_fits : ∀ hole ∈ heap.holes, hole.size < padTo hole.addr pageAligned + size) :
    heap.stop < heap.needed size pageAligned := by
  unfold needed
  cases htail : heap.freeTail? with
  | none =>
      rw [tailStart_of_none htail]
      omega
  | some tail =>
      obtain ⟨htaileq, hlt⟩ := h.freeTail_eq htail
      have hm : (⟨heap.stop - heap.tailStart, heap.tailStart⟩ : Hole) ∈ heap.holes := by
        rw [h.listed.mem_iff, mem_freeHoles, ← htaileq, (freeTail?_eq_some htail).2]
        simp
      have hsmall := none_fits _ hm
      simp only at hsmall
      omega

theorem Books.stop_lt_growth (h : heap.Books) {size : Nat} (pos : 0 < size) {pageAligned : Bool}
    (none_fits : ∀ hole ∈ heap.holes, hole.size < padTo hole.addr pageAligned + size) :
    heap.stop < (heap.growth size pageAligned).stop :=
  Nat.lt_of_lt_of_le (h.stop_lt_needed pos none_fits) (le_pageUp _)

/-- The hole at the tail once the growth for a request is entered into the books. -/
def grownTail (heap : Heap) (size : Nat) (pageAligned : Bool) : Hole :=
  ⟨(heap.growth size pageAligned).stop - heap.tailStart, heap.tailStart⟩

/-- The pieces of the grown tail are those that were counted when the growth was planned. -/
theorem length_pieces_growth (heap : Heap) (size : Nat) (pageAligned : Bool) :
    heap.freeTail?.isNone.toNat +
        ((pieces (heap.grownTail size pageAligned) (padTo heap.tailStart pageAligned) size).length -
          1) =
      (heap.growth size pageAligned).added := by
  have hneeded : heap.needed size pageAligned ≤ (heap.growth size pageAligned).stop :=
    le_pageUp _
  have hrest : (0 < (heap.growth size pageAligned).stop - heap.tailStart -
      padTo heap.tailStart pageAligned - size) ↔
        heap.needed size pageAligned < (heap.growth size pageAligned).stop := by
    unfold needed at *
    omega
  have hadded : (heap.growth size pageAligned).added =
      heap.freeTail?.isNone.toNat + (decide (0 < padTo heap.tailStart pageAligned)).toNat
        + (decide (heap.needed size pageAligned < (heap.growth size pageAligned).stop)).toNat := rfl
  rw [hadded]
  simp only [grownTail, pieces, hrest]
  by_cases hpad : 0 < padTo heap.tailStart pageAligned <;>
    by_cases hstop : heap.needed size pageAligned < (heap.growth size pageAligned).stop <;>
    simp [hpad, hstop]

/-- Of the holes after a growth, the tail is the only one that can hold what none held before. -/
theorem Books.only_tail_fits (h : heap.Books) {size : Nat} {pageAligned : Bool}
    (none_fits : ∀ hole ∈ heap.holes, hole.size < padTo hole.addr pageAligned + size)
    {holes : List Hole} {tail : Hole} (listed : holes.Perm (tail :: freeHoles heap.front)) :
    ∀ hole ∈ holes, padTo hole.addr pageAligned + size ≤ hole.size → hole = tail := by
  intro hole hm hfits
  rcases List.mem_cons.mp (listed.mem_iff.mp hm) with rfl | hfree
  · rfl
  · have hold : hole ∈ heap.holes := by
      rw [h.listed.mem_iff, h.blocks_eq, freeHoles_append]
      exact List.mem_append_left _ hfree
    have hsmall := none_fits hole hold
    omega

/-- Once the growth is mapped, the second search finds the grown tail, and the request is cut out of
it. -/
theorem Valid.granted_of_growth (h : heap.Valid) {size : Nat} (pos : 0 < rounded size)
    {pageAligned : Bool} {mapper : RegionMapper σ} {s t : σ}
    (none_fits : ∀ hole ∈ heap.holes, hole.size < padTo hole.addr pageAligned + rounded size)
    (limit : (heap.growth (rounded size) pageAligned).stop ≤ heap.limit)
    (room : heap.blocks.length + (heap.growth (rounded size) pageAligned).added ≤ blockCapacity)
    (mapped : (mapper.map heap.stop (heap.growth (rounded size) pageAligned).stop heap.flags
      s).result = .ok (none, t)) :
    ∃ grown heap', heap.extend (heap.growth (rounded size) pageAligned).stop = .ok grown ∧
      grown.bestFit (rounded size) pageAligned =
        .ok (some (heap.grownTail (rounded size) pageAligned,
          padTo heap.tailStart pageAligned)) ∧
      grown.takeBestFit (rounded size) pageAligned =
        .ok (some (.ok (heap.tailStart + padTo heap.tailStart pageAligned), heap')) ∧
      Granted mapper size pageAligned heap s (heap.tailStart + padTo heap.tailStart pageAligned)
        heap' t := by
  have hcount := length_pieces_growth heap (rounded size) pageAligned
  have hlonger := h.books.stop_lt_growth pos none_fits
  have hneeded : heap.needed (rounded size) pageAligned ≤
      (heap.growth (rounded size) pageAligned).stop := le_pageUp _
  have hpage : pageSize ∣ (heap.growth (rounded size) pageAligned).stop := dvd_pageUp _
  have hupper : (heap.growth (rounded size) pageAligned).stop =
      pageUp (heap.needed (rounded size) pageAligned) := rfl
  unfold grownTail at *
  generalize (heap.growth (rounded size) pageAligned).stop = stop at *
  obtain ⟨holes, hextend, hholes, hbooks⟩ := h.books.extend_eq hlonger h.window.start_granule
    (granule_dvd_of_page_dvd hpage) (by omega)
  have hwindow : Window { heap with
      blocks := heap.front ++ freeSpan heap.tailStart stop, holes, stop } :=
    ⟨h.window.start_page, h.window.initial_page, hpage, h.window.start_lt,
      Nat.le_trans h.window.initial_le hlonger.le, limit, h.window.limit_lt⟩
  have hused : usedBlocks (heap.front ++ freeSpan heap.tailStart stop) =
      usedBlocks heap.blocks := by
    simp [h.books.usedBlocks_front]
  have hlength := length_front_append_freeSpan (Nat.lt_of_le_of_lt h.books.tailStart_le hlonger)
  -- The first search found nothing, so the second one finds the tail and nothing else.
  have honly := h.books.only_tail_fits none_fits hholes
  rcases hbooks.takeBestFit_cases hwindow pos (dvd_rounded size) pageAligned with
    ⟨-, hnone⟩ | ⟨hole, hbest, htaken⟩
  · have hsmall := hnone _ (hholes.mem_iff.mpr List.mem_cons_self)
    unfold needed at hneeded
    simp only at hsmall
    omega
  obtain rfl := honly hole hbest.mem hbest.fits
  rcases htaken with ⟨-, hfull⟩ | ⟨blocks, holes', htake, -, hbooks', hperm⟩
  · simp only [hlength] at hfull
    omega
  refine ⟨_, _, hextend, hbooks.bestFit_of_best hwindow hbest, htake, ?_⟩
  simp only [hused] at hperm
  have htail : heap.needed (rounded size) pageAligned ≤
      tailStart { heap with blocks, holes := holes', stop } :=
    hbooks'.stop_le_tailStart (hperm.mem_iff.mpr List.mem_cons_self)
  have hsnug : stop = max heap.initialStop
      (pageUp (tailStart { heap with blocks, holes := holes', stop })) := by
    have hlow := pageUp_mono htail
    have hhigh := pageUp_le hbooks'.tailStart_le hpage
    have hinitial := hwindow.initial_le
    simp only at hhigh hinitial
    omega
  exact ⟨⟨hbooks', ⟨hwindow.start_page, hwindow.initial_page, hpage, hwindow.start_lt,
    hwindow.initial_le, limit, h.window.limit_lt⟩, hsnug⟩, ⟨rfl, rfl, rfl, rfl⟩, hperm,
    page_dvd_of_padTo, .inr ⟨hlonger, mapped⟩⟩

section Growing

variable {mapper : RegionMapper σ} {s t : σ} {size : Nat} {pageAligned : Bool} {growth : Growth}

theorem grow_of_beyond (hplan : heap.planGrowth size pageAligned = .ok none)
    (mapper : RegionMapper σ) (s : σ) :
    (heap.grow mapper size pageAligned s).result = .ok (some .exhausted, heap, s) := by
  simp [grow, hplan]

theorem grow_of_full (hplan : heap.planGrowth size pageAligned = .ok (some growth))
    (full : blockCapacity < heap.blocks.length + growth.added) (mapper : RegionMapper σ) (s : σ) :
    (heap.grow mapper size pageAligned s).result = .ok (some .indexFull, heap, s) := by
  simp [grow, hplan, full]

theorem grow_of_unmapped (hplan : heap.planGrowth size pageAligned = .ok (some growth))
    (room : heap.blocks.length + growth.added ≤ blockCapacity) {cause : PagingError}
    (hmap : (mapper.map heap.stop growth.stop heap.flags s).result = .ok (some cause, t)) :
    (heap.grow mapper size pageAligned s).result = .ok (some (.mapping cause), heap, t) := by
  simp [grow, hplan, Nat.not_lt.mpr room, hmap]

theorem grow_of_mapped (hplan : heap.planGrowth size pageAligned = .ok (some growth))
    (room : heap.blocks.length + growth.added ≤ blockCapacity)
    (hmap : (mapper.map heap.stop growth.stop heap.flags s).result = .ok (none, t)) {grown : Heap}
    (hextend : heap.extend growth.stop = .ok grown) :
    (heap.grow mapper size pageAligned s).result = .ok (none, grown, t) := by
  simp [grow, hplan, Nat.not_lt.mpr room, hmap, hextend]

end Growing

theorem Valid.grow_ends (h : heap.Valid) {size : Nat} (pos : 0 < rounded size)
    {pageAligned : Bool}
    (none_fits : ∀ hole ∈ heap.holes, hole.size < padTo hole.addr pageAligned + rounded size)
    (mapper : RegionMapper σ) (s : σ) :
    (∃ cause, (heap.grow mapper (rounded size) pageAligned s).result = .error cause ∧
        AllocEnds mapper size pageAligned heap s (.error cause)) ∨
      (∃ cause t, (heap.grow mapper (rounded size) pageAligned s).result =
          .ok (some cause, heap, t) ∧
        AllocEnds mapper size pageAligned heap s (.ok (.error cause, heap, t))) ∨
      ∃ grown heap' t, (heap.grow mapper (rounded size) pageAligned s).result =
          .ok (none, grown, t) ∧
        grown.takeBestFit (rounded size) pageAligned =
          .ok (some (.ok (heap.tailStart + padTo heap.tailStart pageAligned), heap')) ∧
        Granted mapper size pageAligned heap s (heap.tailStart + padTo heap.tailStart pageAligned)
          heap' t := by
  rcases heap.planGrowth_cases (rounded size) pageAligned with hplan | hplan | ⟨hplan, hlimit⟩
  · exact .inl ⟨_, by simp [grow, hplan], .overflow⟩
  · exact .inr (.inl ⟨.exhausted, s, grow_of_beyond hplan mapper s, .refused _⟩)
  rcases Nat.lt_or_ge blockCapacity
    (heap.blocks.length + (heap.growth (rounded size) pageAligned).added) with hfull | hroom
  · exact .inr (.inl ⟨.indexFull, s, grow_of_full hplan hfull mapper s, .refused _⟩)
  cases hmap : (mapper.map heap.stop (heap.growth (rounded size) pageAligned).stop heap.flags
    s).result with
  | error cause =>
      exact .inl ⟨cause, by simp [grow, hplan, Nat.not_lt.mpr hroom, hmap], .fault hmap⟩
  | ok answer =>
      obtain ⟨refusal, t⟩ := answer
      cases refusal with
      | some cause =>
          exact .inr (.inl ⟨.mapping cause, t, grow_of_unmapped hplan hroom hmap,
            .unmapped hmap⟩)
      | none =>
          obtain ⟨grown, heap', hextend, -, htake, hgranted⟩ :=
            h.granted_of_growth pos none_fits hlimit hroom hmap
          exact .inr (.inr ⟨grown, heap', t, grow_of_mapped hplan hroom hmap hextend, htake,
            hgranted⟩)

theorem Valid.alloc_ends (h : heap.Valid) (mapper : RegionMapper σ) (size : Nat)
    (pageAligned : Bool) (s : σ) :
    AllocEnds mapper size pageAligned heap s (heap.alloc mapper size pageAligned s).result := by
  unfold alloc
  by_cases hzero : size = 0
  · simp only [hzero, if_true, result_pure]
    exact .refused _
  rw [if_neg hzero]
  cases hblock : blockSize? size with
  | none => exact .refused _
  | some block =>
      obtain rfl := blockSize?_eq_some hblock
      have hpos : 0 < rounded size :=
        Nat.lt_of_lt_of_le (Nat.pos_of_ne_zero hzero) (le_rounded size)
      rcases h.books.takeBestFit_cases h.window hpos (dvd_rounded size) pageAligned with
        ⟨htake, hnone⟩ | ⟨hole, -, ⟨htake, -⟩ | ⟨blocks, holes, htake, -, hbooks, hperm⟩⟩
      · rcases h.grow_ends hpos hnone mapper s with
          ⟨cause, hgrow, hends⟩ | ⟨cause, t, hgrow, hends⟩ |
          ⟨grown, heap', t, hgrow, hagain, hg⟩
        · simpa [htake, hgrow] using hends
        · simpa [htake, hgrow] using hends
        · simpa [htake, hgrow, hagain] using AllocEnds.granted hg
      · simpa [htake] using AllocEnds.refused _
      · have hvalid := h.of_more_used hbooks fun x hx =>
          hperm.mem_iff.mpr (List.mem_cons_of_mem _ hx)
        have hgranted : Granted mapper size pageAligned heap s _ { heap with blocks, holes } s :=
          ⟨hvalid, ⟨rfl, rfl, rfl, rfl⟩, hperm, page_dvd_of_padTo, .inl ⟨rfl, rfl⟩⟩
        simpa [htake] using AllocEnds.granted hgranted

/-! ## Freeing -/

structure Released (mapper : RegionMapper σ) (block : Block) (heap : Heap) (s : σ) (heap' : Heap)
    (t : σ) : Prop where
  valid : heap'.Valid
  same : SameWindow heap heap'
  used : (usedBlocks heap.blocks).Perm (block :: usedBlocks heap'.blocks)
  /-- Pages are given back only where the heap ends earlier. -/
  backing : (heap'.stop = heap.stop ∧ t = s) ∨
    (heap'.stop < heap.stop ∧ (mapper.unmap heap'.stop heap.stop s).result = .ok t)

/-- All the ways freeing a used block of a valid heap can end. -/
inductive FreeEnds (mapper : RegionMapper σ) (block : Block) (heap : Heap) (s : σ) :
    Except Fault (Heap × σ) → Prop
  | fault {stop : Nat} {cause : Fault} :
      (mapper.unmap stop heap.stop s).result = .error cause →
      FreeEnds mapper block heap s (.error cause)
  | released {heap' : Heap} {t : σ} :
      Released mapper block heap s heap' t → FreeEnds mapper block heap s (.ok (heap', t))

/-- What a contraction aims at: the free tail is cut at the least allowed page boundary. -/
theorem Books.planContraction_eq (h : heap.Books) (w : heap.Window) :
    (heap.planContraction = .ok none ∧
        heap.stop = max heap.initialStop (pageUp heap.tailStart)) ∨
      ∃ tail stop, heap.planContraction = .ok (some (tail, stop)) ∧ heap.freeTail? = some tail ∧
        stop = max heap.initialStop (pageUp heap.tailStart) ∧ stop < heap.stop := by
  have hpage := w.stop_add_page_le
  have hinitial := w.initial_le
  unfold planContraction
  cases htail : heap.freeTail? with
  | none =>
      rw [tailStart_of_none htail, pageUp_of_dvd w.stop_page]
      exact .inl ⟨rfl, by omega⟩
  | some tail =>
      obtain ⟨-, hlt⟩ := h.freeTail_eq htail
      have hstart := (tailStart_of_some htail).symm
      have hup := pageUp_le h.tailStart_le w.stop_page
      have hceil : pageCeil heap.tailStart = .ok (pageUp heap.tailStart) :=
        pageCeil_of_lt (by omega)
      by_cases hleast : heap.stop ≤ heap.initialStop
      · simp only [hleast, if_true]
        exact .inl ⟨rfl, by omega⟩
      · simp only [hleast, if_false, hstart, hceil, bind, Except.bind, pure, Except.pure]
        split
        · next hshorter =>
            exact .inr ⟨tail, _, rfl, rfl, Nat.max_comm _ _, hshorter⟩
        · next hlonger => exact .inl ⟨rfl, by omega⟩

theorem Books.contract_ends (h : heap.Books) (w : heap.Window) (mapper : RegionMapper σ) (s : σ) :
    (∃ stop cause, (mapper.unmap stop heap.stop s).result = .error cause ∧
        (heap.contract mapper s).result = .error cause) ∨
      ∃ heap' t, (heap.contract mapper s).result = .ok (heap', t) ∧ heap'.Valid ∧
        SameWindow heap heap' ∧ usedBlocks heap'.blocks = usedBlocks heap.blocks ∧
        ((heap'.stop = heap.stop ∧ t = s) ∨
          (heap'.stop < heap.stop ∧ (mapper.unmap heap'.stop heap.stop s).result = .ok t)) := by
  unfold contract
  rcases h.planContraction_eq w with ⟨hplan, hsnug⟩ | ⟨tail, stop, hplan, htail, hstop, hlt⟩
  · exact .inr ⟨heap, s, by simp [hplan], ⟨h, w, hsnug⟩, .refl heap, rfl,
      .inl ⟨rfl, rfl⟩⟩
  cases hunmap : (mapper.unmap stop heap.stop s).result with
  | error cause =>
      exact .inl ⟨stop, cause, hunmap, by simp [hplan, hunmap]⟩
  | ok t =>
      have hstart := tailStart_of_some htail
      have hup := le_pageUp heap.tailStart
      have hpage : pageSize ∣ stop := by
        rcases Nat.le_total heap.initialStop (pageUp heap.tailStart) with hle | hle
        · rw [hstop, Nat.max_eq_right hle]
          exact dvd_pageUp _
        · rw [hstop, Nat.max_eq_left hle]
          exact w.initial_page
      have hle : tail.addr ≤ stop := by omega
      obtain ⟨holes, hshorten, hbooks⟩ := h.shorten_eq htail hle w.start_granule
        (granule_dvd_of_page_dvd hpage)
      have hused : usedBlocks (heap.front ++ freeSpan heap.tailStart stop) =
          usedBlocks heap.blocks := by
        simp [h.usedBlocks_front]
      have hsame := h.tailStart_eq hbooks rfl hused
      refine .inr ⟨_, t, by simp [hplan, hunmap, hshorten],
        ⟨hbooks, ?_, by simpa only [hsame] using hstop⟩, ⟨rfl, rfl, rfl, rfl⟩, hused,
        .inr ⟨hlt, hunmap⟩⟩
      exact ⟨w.start_page, w.initial_page, hpage, w.start_lt, by simp only; omega,
        Nat.le_trans hlt.le w.stop_le, w.limit_lt⟩

theorem Valid.free_ends (h : heap.Valid) {block : Block} (hm : block ∈ usedBlocks heap.blocks)
    (mapper : RegionMapper σ) (s : σ) :
    FreeEnds mapper block heap s (heap.free mapper block.addr s).result := by
  obtain ⟨blocks, holes, hrelease, hbooks, hperm⟩ := h.books.release_eq hm
  have hwindow : Window { heap with blocks, holes } :=
    ⟨h.window.start_page, h.window.initial_page, h.window.stop_page, h.window.start_lt,
      h.window.initial_le, h.window.stop_le, h.window.limit_lt⟩
  unfold free
  rcases hbooks.contract_ends hwindow mapper s with
    ⟨stop, cause, hunmap, hend⟩ | ⟨heap', t, hend, hvalid, hsame, hused, hback⟩
  · have hfault : FreeEnds mapper block heap s (.error cause) := .fault hunmap
    simpa [hrelease, hend] using hfault
  · have hreleased : Released mapper block heap s heap' t :=
      ⟨hvalid, ⟨hsame.start, hsame.initialStop, hsame.limit, hsame.flags⟩, by rwa [hused], hback⟩
    simpa [hrelease, hend] using FreeEnds.released hreleased

theorem Valid.free_absent (h : heap.Valid) {addr : Nat}
    (absent : ∀ x ∈ usedBlocks heap.blocks, x.addr ≠ addr) (mapper : RegionMapper σ) (s : σ) :
    (heap.free mapper addr s).result = .error (.freeOfUnallocated addr) := by
  simp [free, h.books.release_absent absent]

/-! ## The window -/

theorem Valid.alloc_window (h : heap.Valid) {size : Nat} {pageAligned : Bool} {s t : σ}
    {mapper : RegionMapper σ} {answer : Except HeapError Nat} {heap' : Heap}
    (halloc : (heap.alloc mapper size pageAligned s).result = .ok (answer, heap', t)) :
    SameWindow heap heap' := by
  have hends := h.alloc_ends mapper size pageAligned s
  rw [halloc] at hends
  cases hends with
  | refused cause => exact .refl heap
  | unmapped => exact .refl heap
  | granted hg => exact hg.same

theorem Valid.free_window (h : heap.Valid) {block : Block} (hm : block ∈ usedBlocks heap.blocks)
    {s t : σ} {mapper : RegionMapper σ} {heap' : Heap}
    (hfree : (heap.free mapper block.addr s).result = .ok (heap', t)) : SameWindow heap heap' := by
  have hends := h.free_ends hm mapper s
  rw [hfree] at hends
  cases hends with
  | released hr => exact hr.same

end Heap

end KernelCore
