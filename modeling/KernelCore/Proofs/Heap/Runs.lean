import Mathlib
import KernelCore.Proofs.Heap.Steps

/-!
# Runs of a heap

A run starts with a heap that was created and goes on with allocations and frees, over a mapper
whose calls are recorded. Beside the heap it keeps the allocations that are live. `Reached.good`
says what every state of a run has in common: the heap is valid, replaying the recorded calls maps
its pages and no others, and its used blocks are the live allocations.
-/

namespace KernelCore

/-! ## Recorded calls -/

structure Recording (σ : Type) where
  calls : List RegionCall
  backing : σ

variable {σ : Type}

def RegionMapper.recorded (mapper : RegionMapper σ) : RegionMapper (Recording σ) where
  map start stop flags s := do
    let (refusal, backing) ← mapper.map start stop flags s.backing
    return (refusal, ⟨.map start stop flags refusal.isNone :: s.calls, backing⟩)
  unmap start stop s := do
    return ⟨.unmap start stop :: s.calls, ← mapper.unmap start stop s.backing⟩

namespace RegionMapper

theorem recorded_map_eq_ok {mapper : RegionMapper σ} {start stop : Nat} {flags : HeapFlags}
    {s t : Recording σ} {refusal : Option PagingError}
    (h : (mapper.recorded.map start stop flags s).result = .ok (refusal, t)) :
    t.calls = .map start stop flags refusal.isNone :: s.calls := by
  simp only [recorded, Traced.result_bind] at h
  obtain ⟨⟨answer, backing⟩, -, hrest⟩ := bind_eq_ok h
  simp only [Traced.result_pure, Except.ok.injEq, Prod.mk.injEq] at hrest
  obtain ⟨rfl, rfl⟩ := hrest
  rfl

theorem recorded_map_eq_error {mapper : RegionMapper σ} {start stop : Nat} {flags : HeapFlags}
    {s : Recording σ} {cause : Fault}
    (h : (mapper.recorded.map start stop flags s).result = .error cause) :
    (mapper.map start stop flags s.backing).result = .error cause := by
  simp only [recorded, Traced.result_bind] at h
  cases hmap : (mapper.map start stop flags s.backing).result with
  | error _ => simpa [hmap] using h
  | ok answer => simp [hmap] at h

theorem recorded_unmap_eq_ok {mapper : RegionMapper σ} {start stop : Nat} {s t : Recording σ}
    (h : (mapper.recorded.unmap start stop s).result = .ok t) :
    t.calls = .unmap start stop :: s.calls := by
  simp only [recorded, Traced.result_bind] at h
  obtain ⟨backing, -, hrest⟩ := bind_eq_ok h
  simp only [Traced.result_pure, Except.ok.injEq] at hrest
  exact hrest ▸ rfl

theorem recorded_unmap_eq_error {mapper : RegionMapper σ} {start stop : Nat} {s : Recording σ}
    {cause : Fault} (h : (mapper.recorded.unmap start stop s).result = .error cause) :
    (mapper.unmap start stop s.backing).result = .error cause := by
  simp only [recorded, Traced.result_bind] at h
  cases hunmap : (mapper.unmap start stop s.backing).result with
  | error _ => simpa [hunmap] using h
  | ok answer => simp [hunmap] at h

end RegionMapper

/-! ## Replayed calls -/

/-- The pages mapped after some calls, the latest first. A refused call maps nothing. -/
def replay : List RegionCall → Finset Nat
  | [] => ∅
  | .map start stop _ true :: earlier => pagesOf start stop ∪ replay earlier
  | .map _ _ _ false :: earlier => replay earlier
  | .unmap start stop :: earlier => replay earlier \ pagesOf start stop

namespace Heap

/-! ## Runs -/

/-- A live allocation: where it starts, how many bytes its block has, and whether a page boundary
was asked for. -/
structure Allocation where
  addr : Nat
  size : Nat
  pageAligned : Bool
deriving DecidableEq, Repr

namespace Allocation

def stop (allocation : Allocation) : Nat := allocation.addr + allocation.size

def block (allocation : Allocation) : Block := ⟨allocation.addr, allocation.size, true⟩

@[simp] theorem block_addr (allocation : Allocation) : allocation.block.addr = allocation.addr :=
  rfl

@[simp] theorem block_size (allocation : Allocation) : allocation.block.size = allocation.size :=
  rfl

@[simp] theorem block_used (allocation : Allocation) : allocation.block.used = true := rfl

end Allocation

structure Run (σ : Type) where
  heap : Heap
  mapped : Recording σ
  live : List Allocation

/-- One call on the heap that comes back, with an answer or an error. -/
inductive Step (mapper : RegionMapper σ) (run : Run σ) : Run σ → Prop
  | granted {size addr : Nat} {pageAligned : Bool} {heap : Heap} {t : Recording σ} :
      (run.heap.alloc mapper.recorded size pageAligned run.mapped).result =
        .ok (.ok addr, heap, t) →
      Step mapper run ⟨heap, t, ⟨addr, rounded size, pageAligned⟩ :: run.live⟩
  | refused {size : Nat} {pageAligned : Bool} {cause : HeapError} {heap : Heap}
      {t : Recording σ} :
      (run.heap.alloc mapper.recorded size pageAligned run.mapped).result =
        .ok (.error cause, heap, t) →
      Step mapper run ⟨heap, t, run.live⟩
  | freed {addr : Nat} {heap : Heap} {t : Recording σ} :
      (run.heap.free mapper.recorded addr run.mapped).result = .ok (heap, t) →
      Step mapper run ⟨heap, t, run.live.filter (·.addr ≠ addr)⟩

/-- The states that a heap created over `[start, stop)`, to grow up to `start + maxSize`, can come
to. -/
inductive Reached (mapper : RegionMapper σ) (start stop maxSize : Nat) (flags : HeapFlags) :
    Run σ → Prop
  | created {s : σ} {heap : Heap} {t : Recording σ} :
      (create mapper.recorded start stop maxSize flags ⟨[], s⟩).result = .ok (.ok heap, t) →
      Reached mapper start stop maxSize flags ⟨heap, t, []⟩
  | step {run run' : Run σ} :
      Reached mapper start stop maxSize flags run → Step mapper run run' →
      Reached mapper start stop maxSize flags run'

structure Good (run : Run σ) : Prop where
  valid : run.heap.Valid
  backed : replay run.mapped.calls = pagesOf run.heap.start run.heap.stop
  listed : (usedBlocks run.heap.blocks).Perm (run.live.map Allocation.block)
  pages : ∀ a ∈ run.live, a.pageAligned = true → pageSize ∣ a.addr

variable {mapper : RegionMapper σ} {run run' : Run σ}

/-! ## What a run preserves -/

theorem good_created {start stop maxSize : Nat} {flags : HeapFlags} {s : σ} {heap : Heap}
    {t : Recording σ}
    (h : (create mapper.recorded start stop maxSize flags ⟨[], s⟩).result = .ok (.ok heap, t)) :
    Good ⟨heap, t, []⟩ := by
  have hcreated := create_eq_ok h
  refine ⟨hcreated.valid, ?_, ?_, by simp⟩
  · have hcalls := RegionMapper.recorded_map_eq_ok hcreated.backing
    simp [hcalls, replay, hcreated.start_eq, hcreated.stop_eq]
  · simp [hcreated.used]

/-- A granted allocation joins the live ones; growth maps exactly the pages added. -/
theorem Good.granted (h : Good run) {size addr : Nat} {pageAligned : Bool} {heap : Heap}
    {t : Recording σ}
    (hg : Granted mapper.recorded size pageAligned run.heap run.mapped addr heap t) :
    Good ⟨heap, t, ⟨addr, rounded size, pageAligned⟩ :: run.live⟩ := by
  refine ⟨hg.valid, ?_, hg.used.trans (h.listed.cons _), ?_⟩
  · rcases hg.backing with ⟨hstop, rfl⟩ | ⟨hlt, hmap⟩
    · simp only [hg.same.start, hstop, h.backed]
    · have hcalls := RegionMapper.recorded_map_eq_ok hmap
      have hle := h.valid.books.laid.tiles.le
      simp only [hcalls, Option.isNone_none, replay, h.backed, hg.same.start]
      exact pagesOf_union h.valid.window.stop_page hle hlt.le
  · intro a ha
    rcases List.mem_cons.mp ha with rfl | ha
    · exact hg.page
    · exact h.pages a ha

theorem Good.perm_filter (h : Good run) {block : Block} {blocks : List Block}
    (used : (usedBlocks run.heap.blocks).Perm (block :: usedBlocks blocks)) :
    (usedBlocks blocks).Perm
      ((run.live.filter (·.addr ≠ block.addr)).map Allocation.block) := by
  have hnodup : ((usedBlocks run.heap.blocks).map (·.addr)).Nodup :=
    h.valid.books.laid.tiles.nodup.sublist (List.filter_sublist.map _)
  have hother : ∀ x ∈ usedBlocks blocks, x.addr ≠ block.addr := by
    have hcons := (used.map (·.addr)).nodup_iff.mp hnodup
    intro x hx hsame
    rw [List.map_cons, List.nodup_cons] at hcons
    exact hcons.1 (hsame ▸ List.mem_map_of_mem hx)
  have hkeep : (block :: usedBlocks blocks).filter (·.addr ≠ block.addr) = usedBlocks blocks := by
    rw [List.filter_cons_of_neg (by simp), List.filter_eq_self]
    intro x hx
    simpa using hother x hx
  have hperm := (used.symm.trans h.listed).filter (·.addr ≠ block.addr)
  rw [hkeep, List.filter_map] at hperm
  exact hperm

/-- A freed allocation leaves the live ones; contraction unmaps exactly the pages given back. -/
theorem Good.released (h : Good run) {block : Block} {heap : Heap} {t : Recording σ}
    (hr : Released mapper.recorded block run.heap run.mapped heap t) :
    Good ⟨heap, t, run.live.filter (·.addr ≠ block.addr)⟩ := by
  refine ⟨hr.valid, ?_, h.perm_filter hr.used, ?_⟩
  · rcases hr.backing with ⟨hstop, rfl⟩ | ⟨hlt, hunmap⟩
    · simp only [hr.same.start, hstop, h.backed]
    · have hcalls := RegionMapper.recorded_unmap_eq_ok hunmap
      simp only [hcalls, replay, h.backed, hr.same.start]
      exact pagesOf_sdiff hr.valid.window.stop_page hlt.le
  · intro a ha
    exact h.pages a (List.mem_of_mem_filter ha)

theorem Good.mem_usedBlocks (h : Good run) {block : Block} :
    block ∈ usedBlocks run.heap.blocks ↔ ∃ a ∈ run.live, a.block = block := by
  rw [h.listed.mem_iff, List.mem_map]

theorem Good.step_cases (h : Good run) (hs : Step mapper run run') :
    (∃ size pageAligned addr heap t,
        Granted mapper.recorded size pageAligned run.heap run.mapped addr heap t ∧
        run' = ⟨heap, t, ⟨addr, rounded size, pageAligned⟩ :: run.live⟩) ∨
      (∃ t, (t.calls = run.mapped.calls ∨ ∃ stop,
          t.calls = .map run.heap.stop stop run.heap.flags false :: run.mapped.calls) ∧
        run' = ⟨run.heap, t, run.live⟩) ∨
      ∃ a ∈ run.live, ∃ heap t,
        Released mapper.recorded a.block run.heap run.mapped heap t ∧
        run' = ⟨heap, t, run.live.filter (·.addr ≠ a.addr)⟩ := by
  cases hs with
  | @granted size addr pageAligned heap t hres =>
      have hends := h.valid.alloc_ends mapper.recorded size pageAligned run.mapped
      rw [hres] at hends
      cases hends with
      | granted hg => exact .inl ⟨size, pageAligned, addr, heap, t, hg, rfl⟩
  | @refused size pageAligned cause heap t hres =>
      have hends := h.valid.alloc_ends mapper.recorded size pageAligned run.mapped
      rw [hres] at hends
      cases hends with
      | refused cause => exact .inr (.inl ⟨_, .inl rfl, rfl⟩)
      | unmapped hmap =>
          exact .inr (.inl ⟨t, .inr ⟨_, RegionMapper.recorded_map_eq_ok hmap⟩, rfl⟩)
  | @freed addr heap t hres =>
      by_cases hlive : ∃ x ∈ usedBlocks run.heap.blocks, x.addr = addr
      · obtain ⟨x, hx, rfl⟩ := hlive
        obtain ⟨a, ha, rfl⟩ := h.mem_usedBlocks.mp hx
        have hends := h.valid.free_ends hx mapper.recorded run.mapped
        rw [hres] at hends
        cases hends with
        | released hr => exact .inr (.inr ⟨a, ha, heap, t, hr, rfl⟩)
      · have habsent : (run.heap.free mapper.recorded addr run.mapped).result =
            .error (.freeOfUnallocated addr) :=
          h.valid.free_absent (fun x hx hsame => hlive ⟨x, hx, hsame⟩) _ _
        rw [hres] at habsent
        contradiction

theorem Good.step (h : Good run) (hs : Step mapper run run') : Good run' := by
  rcases h.step_cases hs with ⟨size, pageAligned, addr, heap, t, hg, rfl⟩ |
    ⟨t, hcalls, rfl⟩ | ⟨a, ha, heap, t, hr, rfl⟩
  · exact h.granted hg
  · refine ⟨h.valid, ?_, h.listed, h.pages⟩
    rcases hcalls with hcalls | ⟨stop, hcalls⟩
    · simpa only [hcalls] using h.backed
    · simpa only [hcalls, replay] using h.backed
  · exact h.released hr

theorem Good.same (h : Good run) (hs : Step mapper run run') : SameWindow run.heap run'.heap := by
  rcases h.step_cases hs with ⟨size, pageAligned, addr, heap, t, hg, rfl⟩ |
    ⟨t, -, rfl⟩ | ⟨a, ha, heap, t, hr, rfl⟩
  · exact hg.same
  · exact .refl run.heap
  · exact hr.same

variable {start stop maxSize : Nat} {flags : HeapFlags}

theorem Reached.good (h : Reached mapper start stop maxSize flags run) : Good run := by
  induction h with
  | created hres => exact good_created hres
  | step _ hs ih => exact ih.step hs

theorem Reached.window (h : Reached mapper start stop maxSize flags run) :
    run.heap.start = start ∧ run.heap.initialStop = stop ∧ run.heap.limit = start + maxSize ∧
      run.heap.flags = flags := by
  induction h with
  | created hres =>
      have hcreated := create_eq_ok hres
      exact ⟨hcreated.start_eq, hcreated.initial_eq, hcreated.limit_eq, hcreated.flags_eq⟩
  | step hreach hs ih =>
      have hsame := hreach.good.same hs
      obtain ⟨hstart, hinitial, hlimit, hflags⟩ := ih
      exact ⟨hsame.start.trans hstart, hsame.initialStop.trans hinitial,
        hsame.limit.trans hlimit, hsame.flags.trans hflags⟩

end Heap

end KernelCore
