import Mathlib
import KernelCore.Proofs.Heap.Runs

/-!
# What a heap remembers

A valid heap is a function of its window and its used blocks: the gaps between them are its free
blocks, and the last of them decides where it ends. So a heap remembers which allocations are live
and nothing of how it came to them; in particular freeing undoes allocating, in any order.
-/

namespace KernelCore

namespace Heap

/-! ## Layouts with the same used blocks -/

theorem Coalesced.gap_stop {x : Block} {xs : List Block} {a b : Nat} (h : Coalesced (x :: xs))
    (tiles : Tiles a (x :: xs) b) (free : x.used = false) :
    x.stop = ((usedBlocks (x :: xs)).head?.map (·.addr)).getD b := by
  have hused : usedBlocks (x :: xs) = usedBlocks xs := by simp [usedBlocks_cons, free]
  rw [hused]
  obtain ⟨-, -, hrest⟩ := tiles
  cases xs with
  | nil => exact hrest
  | cons y ys =>
      have hnil : Coalesced ([] ++ x :: y :: ys) := h
      have hy : y.used = true := hnil.head_used free y (by simp)
      rw [usedBlocks_cons, if_pos hy]
      exact hrest.1.symm

theorem Tiles.not_mem_used {xs : List Block} {x : Block} {a b : Nat} (h : Tiles a xs b)
    (early : x.addr < a) : x ∉ usedBlocks xs := by
  intro hx
  have hle := (h.bounds (List.mem_of_mem_filter hx)).1
  omega

theorem Coalesced.first_eq {x y : Block} {xs ys : List Block} {a b : Nat}
    (hxs : Coalesced (x :: xs)) (hys : Coalesced (y :: ys)) (txs : Tiles a (x :: xs) b)
    (tys : Tiles a (y :: ys) b) (same : usedBlocks (x :: xs) = usedBlocks (y :: ys)) : x = y := by
  have hxlt : x.addr < x.stop := Nat.lt_add_of_pos_right txs.2.1
  have hylt : y.addr < y.stop := Nat.lt_add_of_pos_right tys.2.1
  have haddr : x.addr = y.addr := txs.1.trans tys.1.symm
  cases ux : x.used with
  | true =>
      rw [usedBlocks_cons, if_pos ux, usedBlocks_cons] at same
      cases uy : y.used with
      | true =>
          rw [if_pos uy] at same
          exact (List.cons.inj same).1
      | false =>
          rw [if_neg (by simp [uy])] at same
          exact absurd (same ▸ List.mem_cons_self) (tys.2.2.not_mem_used (haddr ▸ hylt))
  | false =>
      cases uy : y.used with
      | true =>
          rw [usedBlocks_cons, if_neg (by simp [ux]), usedBlocks_cons, if_pos uy] at same
          exact absurd (same ▸ List.mem_cons_self) (txs.2.2.not_mem_used (haddr ▸ hxlt))
      | false =>
          have hstop : x.stop = y.stop := by
            rw [hxs.gap_stop txs ux, hys.gap_stop tys uy, same]
          have hsize : x.size = y.size := by
            unfold Block.stop at hstop
            omega
          cases x
          cases y
          simp_all

/-- Two coalesced layouts of one range that have the same used blocks are the same. -/
theorem Coalesced.eq_of_usedBlocks {xs ys : List Block} {a b : Nat} (hxs : Coalesced xs)
    (hys : Coalesced ys) (txs : Tiles a xs b) (tys : Tiles a ys b)
    (same : usedBlocks xs = usedBlocks ys) : xs = ys := by
  induction xs generalizing ys a with
  | nil =>
      cases ys with
      | nil => rfl
      | cons y ys =>
          obtain rfl : a = b := txs
          exact absurd tys.2.2.le (Nat.not_le.mpr (tys.1 ▸ Nat.lt_add_of_pos_right tys.2.1))
  | cons x xs ih =>
      cases ys with
      | nil =>
          obtain rfl : a = b := tys
          exact absurd txs.2.2.le (Nat.not_le.mpr (txs.1 ▸ Nat.lt_add_of_pos_right txs.2.1))
      | cons y ys =>
          obtain rfl : x = y := hxs.first_eq hys txs tys same
          have hrest : usedBlocks xs = usedBlocks ys := by
            rw [usedBlocks_cons, usedBlocks_cons] at same
            split at same
            · exact (List.cons.inj same).2
            · exact same
          have hback : ∀ zs, Coalesced (x :: zs) → Coalesced zs :=
            fun zs hzs => Coalesced.back (show Coalesced ([x] ++ zs) from hzs)
          rw [ih (hback xs hxs) (hback ys hys) txs.2.2 tys.2.2 hrest]

/-! ## Heaps with the same used blocks -/

variable {heap heap' : Heap}

theorem Books.ordered_used (h : heap.Books) :
    (usedBlocks heap.blocks).Pairwise fun x y => x.stop ≤ y.addr :=
  h.laid.tiles.ordered.sublist List.filter_sublist

theorem Books.nodup_used (h : heap.Books) : ((usedBlocks heap.blocks).map (·.addr)).Nodup :=
  h.laid.tiles.nodup.sublist (List.filter_sublist.map _)

/-- Used blocks come in the order of their addresses, so a rearrangement of them is no change. -/
theorem Books.usedBlocks_eq (h : heap.Books) (h' : heap'.Books)
    (used : (usedBlocks heap.blocks).Perm (usedBlocks heap'.blocks)) :
    usedBlocks heap.blocks = usedBlocks heap'.blocks := by
  apply used.eq_of_pairwise _ h.ordered_used h'.ordered_used
  intro x y hx hy hxy hyx
  have hxpos := (h.laid.tiles.bounds (List.mem_of_mem_filter hx)).2.1
  unfold Block.stop at hxy hyx
  omega

theorem Books.holes_eq (h : heap.Books) (h' : heap'.Books) (blocks : heap.blocks = heap'.blocks) :
    heap.holes = heap'.holes := by
  have hperm : heap.holes.Perm heap'.holes := by
    apply h.listed.trans
    rw [blocks]
    exact h'.listed.symm
  apply hperm.eq_of_pairwise _ (h.sorted.strict h.nodup_holes) (h'.sorted.strict h'.nodup_holes)
  intro a b _ _ hab hba
  exact absurd hba (Hole.before_asymm hab)

theorem Books.tailStart_eq_of_perm (h : heap.Books) (h' : heap'.Books)
    (start : heap'.start = heap.start)
    (used : (usedBlocks heap.blocks).Perm (usedBlocks heap'.blocks)) :
    heap.tailStart = heap'.tailStart := by
  apply Nat.le_antisymm
  · exact h.tailStart_mono h' start fun x hx => used.mem_iff.mp hx
  · exact h'.tailStart_mono h start.symm fun x hx => used.mem_iff.mpr hx

/-- A valid heap is determined by its window and its used blocks. -/
theorem Valid.eq_of_used (h : heap.Valid) (h' : heap'.Valid) (same : SameWindow heap heap')
    (used : (usedBlocks heap.blocks).Perm (usedBlocks heap'.blocks)) : heap = heap' := by
  have hstop : heap.stop = heap'.stop := by
    rw [h.snug, h'.snug, same.initialStop, h.books.tailStart_eq_of_perm h'.books same.start used]
  have htiles : Tiles heap.start heap'.blocks heap.stop := by
    have hlaid := h'.books.laid.tiles
    rwa [same.start, ← hstop] at hlaid
  have hblocks : heap.blocks = heap'.blocks :=
    h.books.laid.coalesced.eq_of_usedBlocks h'.books.laid.coalesced h.books.laid.tiles htiles
      (h.books.usedBlocks_eq h'.books used)
  have hholes : heap.holes = heap'.holes := h.books.holes_eq h'.books hblocks
  obtain ⟨hstart, hinitial, hlimit, hflags⟩ := same
  cases heap
  cases heap'
  simp_all

/-! ## Runs with the same live allocations -/

variable {σ τ : Type} {mapper : RegionMapper σ} {mapper' : RegionMapper τ}

def Run.held (run : Run σ) : Finset (Nat × Nat) :=
  (run.live.map fun a => (a.addr, a.size)).toFinset

theorem Run.mem_held {run : Run σ} {addr size : Nat} :
    (addr, size) ∈ run.held ↔ ∃ a ∈ run.live, a.addr = addr ∧ a.size = size := by
  simp [held]

theorem Good.nodup_addrs {run : Run σ} (h : Good run) : (run.live.map (·.addr)).Nodup := by
  have hnodup := h.valid.books.nodup_used
  rw [(h.listed.map (·.addr)).nodup_iff, List.map_map] at hnodup
  exact hnodup

theorem Good.mem_usedBlocks_iff_held {run : Run σ} (h : Good run) (block : Block) :
    block ∈ usedBlocks run.heap.blocks ↔
      block.used = true ∧ (block.addr, block.size) ∈ run.held := by
  rw [h.mem_usedBlocks, Run.mem_held]
  constructor
  · rintro ⟨a, ha, rfl⟩
    exact ⟨rfl, a, ha, rfl, rfl⟩
  · rintro ⟨hused, a, ha, haddr, hsize⟩
    refine ⟨a, ha, ?_⟩
    obtain ⟨addr, size, used⟩ := block
    simp_all [Allocation.block]

theorem Good.usedBlocks_perm {run : Run σ} {run' : Run τ} (h : Good run) (h' : Good run')
    (same : run.held = run'.held) :
    (usedBlocks run.heap.blocks).Perm (usedBlocks run'.heap.blocks) := by
  rw [List.perm_ext_iff_of_nodup (.of_map _ h.valid.books.nodup_used)
    (.of_map _ h'.valid.books.nodup_used)]
  intro block
  rw [h.mem_usedBlocks_iff_held, h'.mem_usedBlocks_iff_held, same]

theorem Good.heap_eq {run : Run σ} {run' : Run τ} (h : Good run) (h' : Good run')
    (window : SameWindow run.heap run'.heap) (same : run.held = run'.held) :
    run.heap = run'.heap :=
  h.valid.eq_of_used h'.valid window (h.usedBlocks_perm h' same)

/-! ## Freeing several allocations -/

def freeAll (mapper : RegionMapper σ) : List Nat → Heap → σ → Traced (Heap × σ)
  | [], heap, s => pure (heap, s)
  | addr :: rest, heap, s => do
      let (heap, s) ← heap.free mapper addr s
      freeAll mapper rest heap s

def Run.without (run : Run σ) (addrs : List Nat) : List Allocation :=
  run.live.filter fun a => decide (a.addr ∉ addrs)

/-- Freeing the allocations at `addrs` leaves `heap`, unless the mapper faults. -/
def Run.FreesTo (mapper : RegionMapper σ) (addrs : List Nat) (run : Run σ) (heap : Heap) : Prop :=
  (∃ t, (freeAll mapper.recorded addrs run.heap run.mapped).result = .ok (heap, t)) ∨
    ∃ first last s cause, (mapper.unmap first last s).result = .error cause ∧
      (freeAll mapper.recorded addrs run.heap run.mapped).result = .error cause

theorem Run.mem_held_without {run : Run σ} {addrs : List Nat} {heap : Heap} {t : Recording σ}
    {addr size : Nat} :
    (addr, size) ∈ Run.held ⟨heap, t, run.without addrs⟩ ↔
      (addr, size) ∈ run.held ∧ addr ∉ addrs := by
  rw [mem_held, mem_held]
  simp only [without, List.mem_filter, decide_eq_true_eq]
  constructor
  · rintro ⟨a, ⟨ha, hnot⟩, rfl, rfl⟩
    exact ⟨⟨a, ha, rfl, rfl⟩, hnot⟩
  · rintro ⟨⟨a, ha, rfl, rfl⟩, hnot⟩
    exact ⟨a, ⟨ha, hnot⟩, rfl, rfl⟩

theorem Run.without_cons (heap : Heap) (t : Recording σ) (run : Run σ) (addr : Nat)
    (addrs : List Nat) :
    Run.without ⟨heap, t, run.live.filter (·.addr ≠ addr)⟩ addrs = run.without (addr :: addrs) := by
  simp only [without, List.filter_filter]
  apply List.filter_congr
  intro a _
  simp [Bool.and_comm]

variable (mapper) in
theorem Good.freeAll_ends {run : Run σ} (h : Good run) {addrs : List Nat} (once : addrs.Nodup)
    (live : ∀ addr ∈ addrs, ∃ a ∈ run.live, a.addr = addr) :
    (∃ heap t, (freeAll mapper.recorded addrs run.heap run.mapped).result = .ok (heap, t) ∧
        Good ⟨heap, t, run.without addrs⟩ ∧ SameWindow run.heap heap) ∨
      ∃ first last s cause, (mapper.unmap first last s).result = .error cause ∧
        (freeAll mapper.recorded addrs run.heap run.mapped).result = .error cause := by
  induction addrs generalizing run with
  | nil =>
      refine .inl ⟨run.heap, run.mapped, rfl, ?_, .refl _⟩
      simpa [Run.without] using h
  | cons addr rest ih =>
      obtain ⟨hnot, honce⟩ := List.nodup_cons.mp once
      obtain ⟨a, ha, rfl⟩ := live addr List.mem_cons_self
      have hends := h.valid.free_ends (h.mem_usedBlocks.mpr ⟨a, ha, rfl⟩) mapper.recorded run.mapped
      rw [Allocation.block_addr] at hends
      simp only [freeAll, Traced.result_bind]
      cases hfree : (run.heap.free mapper.recorded a.addr run.mapped).result with
      | error cause =>
          rw [hfree] at hends
          cases hends with
          | fault hunmap =>
              exact .inr ⟨_, _, _, cause, RegionMapper.recorded_unmap_eq_error hunmap, rfl⟩
      | ok answer =>
          obtain ⟨heap, t⟩ := answer
          rw [hfree] at hends
          cases hends with
          | released hr =>
              have hgood := h.released hr
              have hrest := ih hgood honce fun other hother => by
                obtain ⟨b, hb, rfl⟩ := live other (List.mem_cons_of_mem _ hother)
                have hdiffers : b.addr ≠ a.addr := fun hsame => hnot (hsame ▸ hother)
                exact ⟨b, List.mem_filter.mpr ⟨hb, decide_eq_true hdiffers⟩, rfl⟩
              rw [Allocation.block_addr, Run.without_cons] at hrest
              rcases hrest with ⟨heap', t', hres, hgood', hsame⟩ | hfault
              · exact .inl ⟨heap', t', hres, hgood', hr.same.trans hsame⟩
              · exact .inr hfault

theorem Good.freesTo {run : Run σ} {run' : Run τ} (h : Good run) (h' : Good run')
    (window : SameWindow run.heap run'.heap) {addrs : List Nat} (once : addrs.Nodup)
    (live : ∀ addr ∈ addrs, ∃ a ∈ run.live, a.addr = addr)
    (left : ∀ addr size, (addr, size) ∈ run'.held ↔ (addr, size) ∈ run.held ∧ addr ∉ addrs) :
    run.FreesTo mapper addrs run'.heap := by
  rcases h.freeAll_ends mapper once live with ⟨heap, t, hres, hgood, hsame⟩ | hfault
  · have hheap : heap = run'.heap := by
      apply hgood.heap_eq h' (hsame.symm.trans window)
      ext ⟨addr, size⟩
      rw [Run.mem_held_without, left]
    exact .inl ⟨t, hheap ▸ hres⟩
  · exact .inr hfault

/-- Which allocations are freed decides what is left, their order does not. -/
theorem Good.freesTo_comm {run : Run σ} (h : Good run) {addrs : List Nat} (once : addrs.Nodup)
    (live : ∀ addr ∈ addrs, ∃ a ∈ run.live, a.addr = addr) :
    ∃ heap, ∀ order, addrs.Perm order → run.FreesTo mapper order heap := by
  have honce : ∀ {order}, addrs.Perm order → order.Nodup := fun hperm => hperm.nodup_iff.mp once
  have hlive : ∀ {order}, addrs.Perm order → ∀ addr ∈ order, ∃ a ∈ run.live, a.addr = addr :=
    fun hperm addr ha => live addr (hperm.mem_iff.mpr ha)
  by_cases hsome : ∃ order heap t, addrs.Perm order ∧
      (freeAll mapper.recorded order run.heap run.mapped).result = .ok (heap, t)
  · obtain ⟨first, heap, t, hfirst, hres⟩ := hsome
    rcases h.freeAll_ends mapper (honce hfirst) (hlive hfirst) with
      ⟨heap', t', hres', hgood, hsame⟩ | ⟨_, _, _, _, -, hres'⟩
    · refine ⟨heap', fun order horder => h.freesTo hgood hsame (honce horder) (hlive horder) ?_⟩
      intro addr size
      rw [Run.mem_held_without, ← hfirst.mem_iff, horder.mem_iff]
    · rw [hres] at hres'
      contradiction
  · refine ⟨run.heap, fun order horder => ?_⟩
    rcases h.freeAll_ends mapper (honce horder) (hlive horder) with
      ⟨heap, t, hres, -⟩ | hfault
    · exact absurd ⟨order, heap, t, horder, hres⟩ hsome
    · exact .inr hfault

/-- Freeing what was just granted restores the heap, also where it had to grow. -/
theorem Good.freesTo_granted {run : Run σ} (h : Good run) {size addr : Nat} {pageAligned : Bool}
    {heap : Heap} {t : Recording σ}
    (granted : (run.heap.alloc mapper.recorded size pageAligned run.mapped).result =
      .ok (.ok addr, heap, t)) :
    Run.FreesTo mapper [addr] ⟨heap, t, ⟨addr, rounded size, pageAligned⟩ :: run.live⟩
      run.heap := by
  have hstep : Step mapper run ⟨heap, t, ⟨addr, rounded size, pageAligned⟩ :: run.live⟩ :=
    .granted granted
  have hgood := h.step hstep
  have hfresh : ∀ a ∈ run.live, a.addr ≠ addr := by
    have hnodup := hgood.nodup_addrs
    simp only [List.map_cons, List.nodup_cons, List.mem_map, not_exists, not_and] at hnodup
    exact fun a ha => hnodup.1 a ha
  apply hgood.freesTo h (h.same hstep).symm (List.nodup_singleton addr)
  · intro other hother
    exact ⟨_, List.mem_cons_self, (List.mem_singleton.mp hother).symm⟩
  · intro other size
    simp only [Run.mem_held, List.mem_singleton, List.exists_mem_cons_iff]
    constructor
    · rintro ⟨a, ha, rfl, rfl⟩
      exact ⟨.inr ⟨a, ha, rfl, rfl⟩, hfresh a ha⟩
    · rintro ⟨⟨rfl, -⟩ | hold, hdiffers⟩
      · exact absurd rfl hdiffers
      · exact hold

/-! ## Any two histories -/

variable {start stop maxSize : Nat} {flags : HeapFlags} {run : Run σ}

theorem Reached.sameWindow {run' : Run τ} (h : Reached mapper start stop maxSize flags run)
    (h' : Reached mapper' start stop maxSize flags run') : SameWindow run.heap run'.heap := by
  obtain ⟨hstart, hinitial, hlimit, hflags⟩ := h.window
  obtain ⟨hstart', hinitial', hlimit', hflags'⟩ := h'.window
  exact ⟨hstart'.trans hstart.symm, hinitial'.trans hinitial.symm, hlimit'.trans hlimit.symm,
    hflags'.trans hflags.symm⟩

/-- Two runs over one window that hold the same allocations have the same heap, whatever led there.
Freeing some allocations leaves the same heap in any order, freeing what was just granted restores
the heap, and freeing all that is live leaves a heap like any that was just created. -/
theorem Reached.history_independent (h : Reached mapper start stop maxSize flags run) :
    (∀ {τ : Type} {mapper' : RegionMapper τ} {run' : Run τ},
        Reached mapper' start stop maxSize flags run' → run.held = run'.held →
          run.heap = run'.heap) ∧
      (∀ addrs : List Nat, addrs.Nodup → (∀ addr ∈ addrs, ∃ a ∈ run.live, a.addr = addr) →
        ∃ heap, ∀ order, addrs.Perm order → run.FreesTo mapper order heap) ∧
      (∀ {size addr pageAligned heap t},
        (run.heap.alloc mapper.recorded size pageAligned run.mapped).result =
            .ok (.ok addr, heap, t) →
          Run.FreesTo mapper [addr] ⟨heap, t, ⟨addr, rounded size, pageAligned⟩ :: run.live⟩
            run.heap) ∧
      ∀ {τ : Type} {mapper' : RegionMapper τ} {s fresh t},
        (create mapper'.recorded start stop maxSize flags ⟨[], s⟩).result = .ok (.ok fresh, t) →
          ∀ order, (run.live.map (·.addr)).Perm order → run.FreesTo mapper order fresh := by
  have hgood := h.good
  refine ⟨?_, ?_, ?_, ?_⟩
  · intro τ mapper' run' h' same
    exact hgood.heap_eq h'.good (h.sameWindow h') same
  · intro addrs once live
    exact hgood.freesTo_comm once live
  · intro size addr pageAligned heap t granted
    exact hgood.freesTo_granted granted
  · intro τ mapper' s fresh t hcreate order hperm
    have hfresh := Reached.created hcreate
    have hall : ∀ a ∈ run.live, a.addr ∈ order := fun a ha =>
      hperm.mem_iff.mp (List.mem_map_of_mem ha)
    apply hgood.freesTo hfresh.good (h.sameWindow hfresh) (hperm.nodup_iff.mp hgood.nodup_addrs)
    · intro addr haddr
      exact List.mem_map.mp (hperm.mem_iff.mpr haddr)
    · intro addr size
      simp only [Run.mem_held, List.not_mem_nil, false_and, exists_false, false_iff, not_and,
        not_not]
      rintro ⟨a, ha, rfl, -⟩
      exact hall a ha

/-- A heap that grew once, and one that grew twice and shrank again, end up the same. -/
theorem history_independent_after_growth :
    ∃ run run', Reached PageBudget.mapper 0x1000 0x2000 0x8000 .supervisor run ∧
      Reached PageBudget.mapper 0x1000 0x2000 0x8000 .supervisor run' ∧
      run.held = {(0x2000, 0x1000)} ∧ run'.held = {(0x2000, 0x1000)} ∧
      run.mapped.calls.length = 2 ∧ run'.mapped.calls.length = 4 ∧ run.heap = run'.heap := by
  have hempty : Reached PageBudget.mapper 0x1000 0x2000 0x8000 .supervisor ⟨_, _, []⟩ :=
    .created (s := ⟨16, 0, []⟩) rfl
  have hsmall := hempty.step (@Step.granted _ _ _ 100 _ false _ _ rfl)
  have haligned := hsmall.step (@Step.granted _ _ _ 4096 _ true _ _ rfl)
  have hleft := haligned.step (@Step.freed _ _ _ 0x1000 _ _ rfl)
  have hfirst := hempty.step (@Step.granted _ _ _ 4096 _ false _ _ rfl)
  have hsecond := hfirst.step (@Step.granted _ _ _ 4090 _ false _ _ rfl)
  have hthird := hsecond.step (@Step.granted _ _ _ 16 _ false _ _ rfl)
  have hshrunk := hthird.step (@Step.freed _ _ _ 0x3000 _ _ rfl)
  have hleft' := hshrunk.step (@Step.freed _ _ _ 0x1000 _ _ rfl)
  have hheld := hleft.history_independent.1 hleft'
  exact ⟨_, _, hleft, hleft', by decide, by decide, by decide, by decide, hheld (by decide)⟩

end Heap

end KernelCore
