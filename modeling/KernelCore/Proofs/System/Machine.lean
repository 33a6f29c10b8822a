import Mathlib
import KernelCore.Proofs.Memory.Saved
import KernelCore.Proofs.System.Coherence
import KernelCore.Proofs.System.HandOver
import KernelCore.Proofs.System.Privacy

/-!
# Runs with memory prepared at any time

The scheduler and the memory from the boot on. Identity mappings and heaps are made at any time, one
heap is put to use, ranges of address spaces are unmapped wherever they lie, and whoever has the
processor, or holds a block, writes to it. Throughout, what callers and processes hold is allocated
in the window of the heap in use, static memory is handed out block by block, and borrowed stacks
lie outside the window.
-/

namespace KernelCore

open Heap

def KernelMemory.overwrite (memory : KernelMemory) (addr size : Nat) : KernelMemory :=
  { memory with space := { memory.space with ram := memory.space.ram.overwrite addr size } }

def KernelStack.Clear (stack : KernelStack) (addr size : Nat) : Prop :=
  stack.base + stack.size ≤ addr ∨ addr + size ≤ stack.base

instance (stack : KernelStack) (addr size : Nat) : Decidable (stack.Clear addr size) :=
  inferInstanceAs (Decidable (_ ∨ _))

def KernelStack.block (stack : KernelStack) : Block := ⟨stack.base, rounded stack.size, true⟩

theorem KernelStack.clear_of_apart {stack : KernelStack} {other : Block}
    (apart : other.stop ≤ stack.block.addr ∨ stack.block.stop ≤ other.addr) :
    stack.Clear other.addr other.size := by
  have hround := le_rounded stack.size
  unfold block Block.stop at apart
  unfold Clear
  simp only at apart
  omega

theorem Process.stack_mem_blocks {p : Process} (owned : p.stack.owned = true) :
    p.stack.block ∈ p.blocks := by
  simp [Process.blocks, KernelStack.blocks, KernelStack.block, owned]

/-- Memory that someone may write to: outside the `maxSize` bytes from `base` on, a block of the
callers', or the stack of the process on the processor. -/
inductive System.Writable (base maxSize : Nat) (sys : System) (addr size : Nat) : Prop
  | outside : base + maxSize ≤ addr ∨ addr + size ≤ base → Writable base maxSize sys addr size
  | block {block : Block} :
      block ∈ sys.blocks → block.addr ≤ addr → addr + size ≤ block.stop →
      Writable base maxSize sys addr size
  | stack {pid : Pid} {p : Process} :
      sys.scheduler.current = some pid → sys.scheduler.process? pid = some p →
      p.stack.base ≤ addr → addr + size ≤ p.stack.base + p.stack.size →
      Writable base maxSize sys addr size

/-- The scheduler and the memory with their users, and the heaps created so far as they were when
they were created. -/
structure Machine where
  system : System
  heaps : List Heap

namespace Machine

def kernel (m : Machine) : PageDirectory := m.system.memory.space.directory

/-- One operation that comes back. The heap that is put to use takes `maxSize` bytes from `base` on,
and the boot code runs on a stack outside. -/
inductive Move (base maxSize : Nat) (m : Machine) : Machine → Prop
  | stepped {sys : System} : System.Step m.system sys → Move base maxSize m ⟨sys, m.heaps⟩
  | started {stack : KernelStack} {idleEntry : Nat} {t : Scheduler} {memory : KernelMemory} :
      stack.owned = false → stack.Clear base maxSize →
      (m.system.scheduler.start stack idleEntry m.system.memory).result = .ok (t, memory) →
      Move base maxSize m ⟨⟨t, memory, m.system.spaces, m.system.blocks,
        (t.idle.map fun pid => .built pid (t.builtFrame pid)).toList ++ m.system.trail⟩, m.heaps⟩
  | identityMapped {start stop : Nat} {memory : KernelMemory} :
      (m.system.memory.identityMap start stop).result = .ok memory →
      Move base maxSize m ⟨{ m.system with memory }, m.heaps⟩
  | heapCreated {start stop size : Nat} {flags : HeapFlags} {heap : Heap} {memory : KernelMemory} :
      (m.system.memory.createHeap start stop size flags).result = .ok (.ok heap, memory) →
      Move base maxSize m ⟨{ m.system with memory }, heap :: m.heaps⟩
  | heapRefused {start stop size : Nat} {flags : HeapFlags} {cause : HeapError}
      {memory : KernelMemory} :
      (m.system.memory.createHeap start stop size flags).result = .ok (.error cause, memory) →
      Move base maxSize m ⟨{ m.system with memory }, m.heaps⟩
  | heapEnabled {heap : Heap} {memory : KernelMemory} :
      heap ∈ m.heaps → heap.start = base → heap.limit = base + maxSize →
      (m.system.memory.enableHeap heap).result = .ok memory →
      Move base maxSize m ⟨{ m.system with memory }, m.heaps⟩
  | rangeUnmapped {made : AddressSpace} {start stop : Nat} {memory : KernelMemory} :
      made ∈ m.system.spaces → (m.system.memory.unmapRange made start stop).result = .ok memory →
      Move base maxSize m ⟨{ m.system with memory }, m.heaps⟩
  | written {addr size : Nat} :
      m.system.Writable base maxSize addr size →
      Move base maxSize m ⟨{ m.system with memory := m.system.memory.overwrite addr size }, m.heaps⟩

inductive Reached (info : BootInfo) (base maxSize : Nat) : Machine → Prop
  | booted {memory : KernelMemory} :
      (KernelMemory.boot info).result = .ok memory →
      Reached info base maxSize ⟨⟨.empty, memory, [], [], []⟩, []⟩
  | moved {m m' : Machine} :
      Reached info base maxSize m → Move base maxSize m m' → Reached info base maxSize m'

/-! ## The heap in use -/

abbrev Span (base maxSize : Nat) : Type :=
  { made : Heap // made.start = base ∧ made.limit = base + maxSize }

variable {info : BootInfo} {base maxSize : Nat} {kernel : PageDirectory} {tables : List Nat}
  {held : List Block} {memory memory' : KernelMemory}

/-- Without a heap nobody holds anything, and with one, what is held is allocated. -/
def Spans (kernel : PageDirectory) : Option (Span base maxSize) → List Nat → List Block →
    KernelMemory → Prop
  | none => fun tables held memory =>
      memory.heap = none ∧ memory.space.directory = kernel ∧ tables = [] ∧ held = []
  | some made => Tenure.Settled (Realm.Tended made kernel)

theorem vacant_account (kernel : PageDirectory) :
    Account (fun _ => True) fun tables held memory =>
      memory.heap = none ∧ memory.space.directory = kernel ∧ tables = [] ∧ held = [] where
  perm := by
    rintro tables tables' held held' memory ⟨hheap, hsame, rfl, rfl⟩ same rest
    exact ⟨hheap, hsame, same.nil_eq.symm, rest.nil_eq.symm⟩
  saveFrame := fun h _ _ => h
  tryAlloc := by
    intro tables held memory size pageAligned answer memory' h halloc
    simp only [KernelMemory.tryAlloc, h.1, Traced.result_pure, Except.ok.injEq,
      Prod.mk.injEq] at halloc
    obtain ⟨rfl, rfl⟩ := halloc
    exact .inl ⟨_, rfl, h⟩
  free := fun h => absurd h.2.2.2 (List.cons_ne_nil _ _)
  resolveFault := fun h hresolve => (KernelMemory.resolveFault_heapless h.1 hresolve).1 ▸ h
  createSpace := by
    intro tables held memory answer memory' h hcreate
    simp only [KernelMemory.createSpace, KernelMemory.tryAlloc, h.1, Traced.pure_bind,
      Traced.result_pure, Except.ok.injEq, Prod.mk.injEq] at hcreate
    obtain ⟨rfl, rfl⟩ := hcreate
    exact .inl ⟨_, rfl, h⟩
  mapRange := by
    intro tables held memory made start stop flags answer made' memory' _ h hmap
    simp only [KernelMemory.mapRange, h.1, Traced.result_pure, Except.ok.injEq,
      Prod.mk.injEq] at hmap
    obtain ⟨-, rfl, rfl⟩ := hmap
    exact ⟨trivial, rfl, h⟩
  unmapRange := by
    intro tables held memory made start stop memory' _ h _ hunmap
    obtain ⟨hsame, hsweep⟩ := KernelMemory.unmapRange_eq_ok hunmap
    exact ⟨by rw [hsame, h.1], (KernelSpace.unmapPages_same hsweep).trans h.2.1, h.2.2⟩
  destroySpace := fun h => absurd h.2.2.2 (List.cons_ne_nil _ _)

theorem Spans.account (kernel : PageDirectory) (span : Option (Span base maxSize)) :
    Account (fun _ => True) (Spans kernel span) := by
  cases span with
  | none => exact vacant_account kernel
  | some made => exact (Realm.tended_tenure made kernel).account

theorem Spans.same {span : Option (Span base maxSize)} (h : Spans kernel span tables held memory) :
    memory.space.directory = kernel := by
  cases span with
  | none => exact h.2.1
  | some made =>
      obtain ⟨heap, -, htended⟩ := h
      exact htended.same

theorem Spans.of_heap {span : Option (Span base maxSize)} (h : Spans kernel span tables held memory)
    (same : memory'.heap = memory.heap) :
    Spans memory'.space.directory span tables held memory' := by
  cases span with
  | none => exact ⟨same.trans h.1, rfl, h.2.2⟩
  | some made =>
      obtain ⟨heap, hheap, htended⟩ := h
      exact ⟨heap, same.trans hheap, rfl, htended.window, htended.allocated⟩

theorem Spans.enable {span : Option (Span base maxSize)} (h : Spans kernel span tables held memory)
    {heap : Heap} (valid : heap.Valid) (window : heap.start = base ∧ heap.limit = base + maxSize)
    (henable : (memory.enableHeap heap).result = .ok memory') :
    ∃ span : Option (Span base maxSize),
      Spans memory'.space.directory span tables held memory' := by
  cases span with
  | none =>
      obtain ⟨-, -, rfl, rfl⟩ := h
      obtain rfl := KernelMemory.enableHeap_eq_ok henable
      exact ⟨some ⟨heap, window⟩, heap, rfl, rfl, .refl heap, valid, List.nil_subperm⟩
  | some made =>
      obtain ⟨other, hother, -⟩ := h
      simp [KernelMemory.enableHeap, hother] at henable

end Machine

namespace System

variable {sys sys' : System} {lent : PageDirectory → Prop}
  {holds holds' : List Nat → List Block → KernelMemory → Prop}

theorem Good.with_memory (h : Good lent holds sys) {memory : KernelMemory}
    (kept : holds' sys.tables sys.held memory) : Good lent holds' { sys with memory } :=
  ⟨h.sound, kept, h.lends, h.boot⟩

theorem Passage.stacks (h : Passage sys sys') (sound : sys.scheduler.Sound)
    (after : sys'.scheduler.Sound) {q : Process} (hm : q ∈ sys'.scheduler.processes) :
    q.stack.owned = true ∨ ∃ p ∈ sys.scheduler.processes, p.stack = q.stack := by
  have hq := Scheduler.process?_of_mem after.distinct hm
  cases h with
  | stays hplace =>
      obtain ⟨p, hp, -, hkeeps⟩ :=
        hplace.continues.exists_old (hplace.pids ▸ List.Subset.refl _) hq
      exact .inr ⟨p, (Scheduler.process?_mem hp).1, hkeeps.stack.symm⟩
  | enters hspawned howned =>
      rcases hspawned.eq_or_old hq with rfl | ⟨hp, -⟩
      · exact .inl howned
      · exact .inr ⟨q, (Scheduler.process?_mem hp).1, rfl⟩
  | hands hcurrent hswitch hsame hhanded =>
      obtain ⟨p, hp, -, hstack, -⟩ := hhanded.exists_old (hsame ▸ hq)
      exact .inr ⟨p, (Scheduler.process?_mem hp).1, hstack.symm⟩
  | kills hkill =>
      obtain ⟨p, hp, -, hkeeps⟩ :=
        (sound.kill_continues hkill).exists_old (sound.kill_pids hkill) hq
      exact .inr ⟨p, (Scheduler.process?_mem hp).1, hkeeps.stack.symm⟩

theorem start_stacks {s t : Scheduler} (sound : s.Sound) {stack : KernelStack} {idleEntry : Nat}
    {memory memory' : KernelMemory}
    (hstart : (s.start stack idleEntry memory).result = .ok (t, memory')) {q : Process}
    (hm : q ∈ t.processes) : q.stack.owned = true ∨ q.stack = stack ∨ q ∈ s.processes := by
  obtain ⟨hbefore, hroom, idle, u, hspawn, rfl⟩ := Scheduler.start_eq_ok hstart
  rcases (sound.withBoot hbefore hroom stack).toFiled.spawn_eq_ok hspawn with
    ⟨cause, -, hanswer, -⟩ | ⟨pid, base, frame, granted, -, hspawned, -⟩
  · contradiction
  · replace hm : q ∈ u.processes := hm
    rw [hspawned.left] at hm
    simp only [Scheduler.withBoot, List.mem_append, List.mem_singleton] at hm
    rcases hm with (hold | rfl) | rfl
    · exact .inr (.inr hold)
    · exact .inr (.inl rfl)
    · exact .inl rfl

end System

namespace Machine

variable {info : BootInfo} {base maxSize : Nat} {m m' : Machine}

/-! ## What a run preserves -/

/-- What holds of a machine after any operations. -/
structure Sane (info : BootInfo) (base maxSize : Nat) (m : Machine) : Prop where
  created : ∀ heap ∈ m.heaps, heap.Valid
  good : ∃ span : Option (Span base maxSize),
    System.Good (fun _ => True) (Spans m.kernel span) m.system
  stocked : ∃ blocks, Stocked info m.kernel m.system.memory.arena blocks
  clear : ∀ p ∈ m.system.scheduler.processes, p.stack.owned = false → p.stack.Clear base maxSize

theorem Sane.sound (h : m.Sane info base maxSize) : m.system.scheduler.Sound := by
  obtain ⟨span, hgood⟩ := h.good
  exact hgood.sound

/-- An operation that every account survives hands out no static memory. -/
theorem Sane.operated (h : m.Sane info base maxSize) {sys : System}
    (good : ∀ {holds}, Account (fun _ => True) holds → System.Good (fun _ => True) holds m.system →
      System.Good (fun _ => True) holds sys)
    (clear : sys.scheduler.Sound →
      ∀ p ∈ sys.scheduler.processes, p.stack.owned = false → p.stack.Clear base maxSize) :
    Sane info base maxSize ⟨sys, m.heaps⟩ := by
  obtain ⟨span, hgood⟩ := h.good
  have hafter := good (Spans.account m.kernel span) hgood
  have harena := (good (KernelMemory.arena_account _) hgood.arena).kept
  have hsame : (⟨sys, m.heaps⟩ : Machine).kernel = m.kernel := hafter.kept.same
  refine ⟨h.created, ⟨span, ?_⟩, ?_, clear hafter.sound⟩
  · rw [hsame]
    exact hafter
  · rw [hsame, harena]
    exact h.stocked

/-- Memory may be prepared as long as the heap in use is left alone. -/
theorem Sane.prepared (h : m.Sane info base maxSize) {memory : KernelMemory}
    (heap : memory.heap = m.system.memory.heap)
    (stocked : ∃ blocks, Stocked info memory.space.directory memory.arena blocks) :
    Sane info base maxSize ⟨{ m.system with memory }, m.heaps⟩ := by
  obtain ⟨span, hgood⟩ := h.good
  exact ⟨h.created, ⟨span, hgood.with_memory (hgood.kept.of_heap heap)⟩, stocked, h.clear⟩

theorem Sane.move (h : m.Sane info base maxSize) (hmove : Move base maxSize m m') :
    m'.Sane info base maxSize := by
  cases hmove with
  | stepped hs =>
      refine h.operated (fun account hgood => hgood.step account hs) fun hafter q hq hborrowed => ?_
      rcases (hs.passage h.sound).stacks h.sound hafter hq with howned | ⟨p, hp, hstack⟩
      · rw [howned] at hborrowed
        contradiction
      · rw [← hstack] at hborrowed ⊢
        exact h.clear p hp hborrowed
  | started borrowed outside hstart =>
      refine h.operated (fun account hgood => ?_) fun _ q hq hborrowed => ?_
      · have hstarted := hgood.start account borrowed hstart
        exact ⟨hstarted.sound, hstarted.kept, hstarted.lends, hstarted.boot⟩
      · rcases System.start_stacks h.sound hstart hq with howned | hstack | hold
        · rw [howned] at hborrowed
          contradiction
        · rw [hstack]
          exact outside
        · exact h.clear q hold hborrowed
  | identityMapped hmap =>
      have hprepares := KernelMemory.identityMap_prepares h.stocked hmap
      exact h.prepared hprepares.heap hprepares.stocked
  | @heapCreated start stop size flags heap memory hcreate =>
      have hprepares := KernelMemory.createHeap_prepares h.stocked hcreate
      have hafter := h.prepared hprepares.heap hprepares.stocked
      obtain ⟨hvalid, -⟩ := (KernelMemory.createHeap_stays hcreate).2 heap rfl
      have hcreated := List.forall_mem_cons.mpr ⟨hvalid, h.created⟩
      exact ⟨hcreated, hafter.good, hafter.stocked, hafter.clear⟩
  | heapRefused hcreate =>
      have hprepares := KernelMemory.createHeap_prepares h.stocked hcreate
      exact h.prepared hprepares.heap hprepares.stocked
  | @heapEnabled heap memory hm hstart hlimit henable =>
      obtain ⟨span, hgood⟩ := h.good
      obtain ⟨span', hspans⟩ := hgood.kept.enable (h.created heap hm) ⟨hstart, hlimit⟩ henable
      refine ⟨h.created, ⟨span', hgood.with_memory hspans⟩, ?_, h.clear⟩
      obtain rfl := KernelMemory.enableHeap_eq_ok henable
      exact h.stocked
  | rangeUnmapped _ hunmap =>
      obtain ⟨hsame, hsweep⟩ := KernelMemory.unmapRange_eq_ok hunmap
      refine h.prepared (by rw [hsame]) ?_
      rw [KernelSpace.unmapPages_same hsweep, hsame]
      exact h.stocked
  | written _ => exact h.prepared rfl h.stocked

theorem Reached.sane (h : Reached info base maxSize m) : m.Sane info base maxSize := by
  induction h with
  | booted hboot =>
      obtain ⟨-, -, -, hstocked⟩ := stocked_boot hboot
      have hvacant : Spans _ (none : Option (Span base maxSize)) [] [] _ :=
        ⟨(booted_boot hboot).heapless, rfl, rfl, rfl⟩
      exact ⟨by simp, ⟨none, .blank hvacant⟩, hstocked, by simp [Scheduler.empty]⟩
  | moved _ hmove ih => exact ih.move hmove

/-! ## Where stacks lie -/

variable {heap : Heap} {block : Block} {p : Process}

structure Serves (base maxSize : Nat) (m : Machine) (heap : Heap) : Prop where
  used : m.system.memory.heap = some heap
  start : heap.start = base
  limit : heap.limit = base + maxSize
  allocated : KernelMemory.Allocated m.system.tables m.system.held heap

theorem Serves.mem_used (h : Serves base maxSize m heap) (held : block ∈ m.system.holdings) :
    block ∈ usedBlocks heap.blocks :=
  h.allocated.inside.subset (m.system.perm_holdings.mem_iff.mp held)

theorem Serves.bounds (h : Serves base maxSize m heap) (held : block ∈ m.system.holdings) :
    base ≤ block.addr ∧ block.stop ≤ base + maxSize ∧ base + maxSize < wordLimit := by
  have hvalid := h.allocated.valid
  have hused := h.mem_used held
  obtain ⟨hlow, -, hhigh⟩ := hvalid.books.laid.tiles.bounds (List.mem_of_mem_filter hused)
  rw [← h.limit]
  exact ⟨h.start ▸ hlow, Nat.le_trans hhigh hvalid.window.stop_le, hvalid.window.limit_lt⟩

theorem Serves.apart (h : Serves base maxSize m heap) :
    m.system.holdings.Pairwise fun a b => a.stop ≤ b.addr ∨ b.stop ≤ a.addr := by
  obtain ⟨allocated, hperm, hsub⟩ := m.system.perm_holdings.subperm.trans h.allocated.inside
  exact hperm.pairwise (h.allocated.valid.used_apart.sublist hsub) Or.symm

/-- Whoever holds a block has it from the heap in use. -/
theorem Sane.serves (h : m.Sane info base maxSize) (held : block ∈ m.system.holdings) :
    ∃ heap, Serves base maxSize m heap := by
  obtain ⟨span, hgood⟩ := h.good
  cases span with
  | none =>
      obtain ⟨-, -, htables, hheld⟩ := hgood.kept
      have hall := m.system.perm_holdings.mem_iff.mp held
      simp [htables, hheld] at hall
  | some made =>
      obtain ⟨heap, hheap, htended⟩ := hgood.kept
      obtain ⟨hstart, hlimit⟩ := made.property
      exact ⟨heap, hheap, htended.window.start.trans hstart, htended.window.limit.trans hlimit,
        htended.allocated⟩

theorem Sane.granted (h : m.Sane info base maxSize) {size addr : Nat} {pageAligned : Bool}
    {memory : KernelMemory}
    (halloc : (m.system.memory.tryAlloc size pageAligned).result = .ok (.ok addr, memory)) :
    base ≤ addr ∧ addr + size ≤ base + maxSize ∧ base + maxSize < wordLimit := by
  have hafter := h.move (.stepped (.memory (.granted halloc)))
  have hheld : (⟨addr, rounded size, true⟩ : Block) ∈ System.holdings
      { m.system with memory, blocks := ⟨addr, rounded size, true⟩ :: m.system.blocks } := by
    simp [System.holdings]
  obtain ⟨heap, hserves⟩ := hafter.serves hheld
  obtain ⟨hlow, hhigh, hword⟩ := hserves.bounds hheld
  have hround := le_rounded size
  unfold Block.stop at hhigh
  exact ⟨hlow, by simp only at hhigh; omega, hword⟩

theorem stack_mem_holdings (hm : p ∈ m.system.scheduler.processes)
    (owned : p.stack.owned = true) : p.stack.block ∈ m.system.holdings :=
  List.mem_append_right _ (List.mem_flatMap.mpr ⟨p, hm, p.stack_mem_blocks owned⟩)

section Stack

variable (h : Serves base maxSize m heap) (hm : p ∈ m.system.scheduler.processes)
  (owned : p.stack.owned = true)

include h hm owned

theorem Serves.stack_within :
    base ≤ p.stack.base ∧ p.stack.base + p.stack.size ≤ base + maxSize := by
  obtain ⟨hlow, hhigh, -⟩ := h.bounds (stack_mem_holdings hm owned)
  have hround := le_rounded p.stack.size
  unfold KernelStack.block Block.stop at hhigh
  unfold KernelStack.block at hlow
  simp only at hlow hhigh
  exact ⟨hlow, by omega⟩

theorem Serves.callers_clear
    (held : block ∈ m.system.blocks ++ m.system.spaces.flatMap (·.blocks)) :
    p.stack.Clear block.addr block.size := by
  have hcross := (List.pairwise_append.mp h.apart).2.2
  exact KernelStack.clear_of_apart
    (hcross block held _ (List.mem_flatMap.mpr ⟨p, hm, p.stack_mem_blocks owned⟩))

theorem Serves.others_clear {q : Process} (hq : q ∈ m.system.scheduler.processes)
    (distinct : q.pid ≠ p.pid) (held : block ∈ q.blocks) :
    p.stack.Clear block.addr block.size := by
  have hsymm : Std.Symm fun a b : Process => ∀ x ∈ a.blocks, ∀ y ∈ b.blocks,
      x.stop ≤ y.addr ∨ y.stop ≤ x.addr := ⟨fun _ _ hapart x hx y hy => (hapart y hy x hx).symm⟩
  have hprocesses := (List.pairwise_append.mp h.apart).2.1
  have htable := (List.pairwise_flatMap.mp hprocesses).2
  have hblocks := htable.forall hq hm fun hsame => distinct (congrArg Process.pid hsame)
  exact KernelStack.clear_of_apart (hblocks block held _ (p.stack_mem_blocks owned))

theorem Serves.own_clear {made : AddressSpace} (hmade : p.space = some made)
    (held : block ∈ made.blocks) : p.stack.Clear block.addr block.size := by
  have hprocesses := (List.pairwise_append.mp h.apart).2.1
  have hblocks := (List.pairwise_flatMap.mp hprocesses).1 p hm
  have hcross := (List.pairwise_append.mp hblocks).2.2
  have hstack : p.stack.block ∈ p.stack.blocks := by
    simp [KernelStack.blocks, KernelStack.block, owned]
  exact KernelStack.clear_of_apart (hcross _ hstack block (by simpa [hmade] using held)).symm

end Stack

/-- Nobody else's stack overlaps a stack from the heap. -/
theorem Sane.stacks_apart (h : m.Sane info base maxSize)
    (hm : p ∈ m.system.scheduler.processes) (owned : p.stack.owned = true) {q : Process}
    (hq : q ∈ m.system.scheduler.processes) (distinct : q.pid ≠ p.pid) :
    q.stack.Apart p.stack := by
  obtain ⟨heap, hserves⟩ := h.serves (stack_mem_holdings hm owned)
  cases howned : q.stack.owned with
  | true =>
      have hclear := hserves.others_clear hm owned hq distinct (q.stack_mem_blocks howned)
      have hround := le_rounded q.stack.size
      unfold KernelStack.Clear KernelStack.block at hclear
      unfold KernelStack.Apart
      simp only at hclear
      omega
  | false =>
      have hwithin := hserves.stack_within hm owned
      have hclear := h.clear q hq howned
      unfold KernelStack.Clear at hclear
      unfold KernelStack.Apart
      omega

/-- While a process does not have the processor, nobody may write to its stack. -/
theorem Sane.writable_clear (h : m.Sane info base maxSize)
    (hm : p ∈ m.system.scheduler.processes) (owned : p.stack.owned = true)
    (off : m.system.scheduler.current ≠ some p.pid) {addr size : Nat}
    (writable : m.system.Writable base maxSize addr size) : p.stack.Clear addr size := by
  obtain ⟨heap, hserves⟩ := h.serves (stack_mem_holdings hm owned)
  cases writable with
  | outside houtside =>
      have hwithin := hserves.stack_within hm owned
      unfold KernelStack.Clear
      omega
  | @block block hblock hlow hhigh =>
      have hclear := hserves.callers_clear hm owned (List.mem_append_left _ hblock)
      unfold Block.stop at hhigh
      unfold KernelStack.Clear at hclear ⊢
      omega
  | @stack other q hcurrent hq hlow hhigh =>
      obtain ⟨hqm, rfl⟩ := Scheduler.process?_mem hq
      have hapart := h.stacks_apart hm owned hqm fun hsame => off (hsame ▸ hcurrent)
      unfold KernelStack.Apart at hapart
      unfold KernelStack.Clear
      omega

structure Beside (info : BootInfo) (m : Machine) (p : Process) : Prop where
  /-- The stacks of the others, and so the frames on them. -/
  others : ∀ q ∈ m.system.scheduler.processes, q.pid ≠ p.pid → q.stack.Apart p.stack
  /-- All directories and private tables. -/
  spaces : ∀ made ∈ m.system.liveSpaces, ∀ block ∈ made.blocks,
    p.stack.Clear block.addr block.size
  /-- The callers' blocks. -/
  blocks : ∀ block ∈ m.system.blocks, p.stack.Clear block.addr block.size
  /-- The frame bitmap, the kernel directory and the kernel's tables. -/
  static : ∃ blocks, Stocked info m.kernel m.system.memory.arena blocks ∧
    ∀ block ∈ blocks, p.stack.Clear block.addr block.size

theorem Sane.beside (h : m.Sane info base maxSize)
    (apart : base + maxSize ≤ info.staticStart ∨ info.placementLimit ≤ base)
    (hm : p ∈ m.system.scheduler.processes) (owned : p.stack.owned = true) : m.Beside info p := by
  obtain ⟨heap, hserves⟩ := h.serves (stack_mem_holdings hm owned)
  refine ⟨fun q hq distinct => h.stacks_apart hm owned hq distinct,
    fun made hmade block hblock => ?_, fun block hblock => ?_, ?_⟩
  · rcases List.mem_append.mp hmade with hprocess | hcaller
    · obtain ⟨q, hq, hspace⟩ := List.mem_flatMap.mp hprocess
      replace hspace := Option.mem_toList.mp hspace
      by_cases hsame : q.pid = p.pid
      · have hfound := Scheduler.process?_of_mem h.sound.distinct hm
        have hfound' := Scheduler.process?_of_mem h.sound.distinct hq
        rw [hsame, hfound] at hfound'
        obtain rfl := Option.some.inj hfound'
        exact hserves.own_clear hm owned hspace hblock
      · refine hserves.others_clear hm owned hq hsame (List.mem_append_right _ ?_)
        rw [hspace]
        simpa using hblock
    · exact hserves.callers_clear hm owned
        (List.mem_append_right _ (List.mem_flatMap.mpr ⟨made, hcaller, hblock⟩))
  · exact hserves.callers_clear hm owned (List.mem_append_left _ hblock)
  · obtain ⟨blocks, hstocked⟩ := h.stocked
    refine ⟨blocks, hstocked, fun block hblock => ?_⟩
    obtain ⟨hlow, hhigh⟩ := hserves.stack_within hm owned
    obtain ⟨hbegin, -, hend⟩ := hstocked.within hblock
    unfold Reservation.stop at hend
    unfold KernelStack.Clear
    omega

end Machine

end KernelCore
