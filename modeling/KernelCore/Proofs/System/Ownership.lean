import Mathlib
import KernelCore.Proofs.System.Runs

/-!
# Who owns the kernel heap

Over the runs of scheduler and memory, the live blocks of the kernel heap are those that callers and
processes hold, each held once. A process that has ended keeps what it holds while it is on the
processor, is never given the processor again, and gives back exactly what it holds when the next
switch or kill reaps it.
-/

namespace KernelCore

open Heap

def KernelMemory.live (memory : KernelMemory) : List Block :=
  (memory.heap.map fun heap => usedBlocks heap.blocks).getD []

theorem KernelMemory.Balances.perm_live {kernel : PageDirectory} {tables : List Nat}
    {held : List Block} {memory : KernelMemory} (h : memory.Balances kernel tables held) :
    memory.live.Perm (tables.map tableBlock ++ held) := by
  obtain ⟨heap, hheap, hledger⟩ := h
  rw [KernelMemory.live, hheap]
  exact hledger.balanced

theorem KernelMemory.Balances.live_apart {kernel : PageDirectory} {tables : List Nat}
    {held : List Block} {memory : KernelMemory} (h : memory.Balances kernel tables held) :
    (∀ block ∈ memory.live, 0 < block.size) ∧
      memory.live.Pairwise fun a b => a.stop ≤ b.addr ∨ b.stop ≤ a.addr := by
  obtain ⟨heap, hheap, hledger⟩ := h
  have hvalid := hledger.kept.valid
  rw [KernelMemory.live, hheap]
  refine ⟨fun block hm => ?_, hvalid.used_apart⟩
  exact (hvalid.books.laid.tiles.bounds (List.mem_of_mem_filter hm)).2.1

namespace System

variable {info : BootInfo} {base maxSize : Nat} {started : Bool} {sys sys' : System}
  {kernel : PageDirectory} {pid : Pid} {p q : Process}

/-! ## The account of the heap -/

/-- The live blocks of the heap are those that callers and processes hold, and they lie apart. A
process on a borrowed stack holds none. -/
structure Accounted (sys : System) : Prop where
  enabled : sys.memory.heap.isSome
  live : sys.memory.live.Perm sys.holdings
  nonempty : ∀ block ∈ sys.holdings, 0 < block.size
  apart : sys.holdings.Pairwise fun a b => a.stop ≤ b.addr ∨ b.stop ≤ a.addr
  borrowed : ∀ p ∈ sys.scheduler.processes, p.stack.owned = false → p.blocks = []

theorem perm_spaces (spaces : List AddressSpace) :
    (spaces.flatMap (·.blocks)).Perm
      ((spaces.flatMap (·.directory.ownAddrs)).map tableBlock ++ spaces.map (·.block)) := by
  rw [List.map_flatMap]
  exact (List.map_append_flatMap_perm spaces _ _).symm.trans List.perm_append_comm

theorem perm_processes (processes : List Process) :
    (processes.flatMap (·.blocks)).Perm
      ((processes.flatMap Process.tables).map tableBlock ++ processes.flatMap Process.held) := by
  rw [List.map_flatMap]
  refine .trans ?_ (List.flatMap_append_perm processes _ _).symm
  exact List.Perm.flatMap_left processes fun p _ => p.perm_blocks

theorem perm_holdings (sys : System) :
    sys.holdings.Perm (sys.tables.map tableBlock ++ sys.held) := by
  have hspaces := perm_spaces sys.spaces
  have hprocesses := perm_processes sys.scheduler.processes
  rw [List.perm_iff_count] at hspaces hprocesses ⊢
  intro block
  have hspace := hspaces block
  have hprocess := hprocesses block
  rw [holdings, tables, held, Scheduler.tables, Scheduler.held]
  simp only [List.map_append, List.count_append] at hspace hprocess ⊢
  omega

theorem Exact.perm_live (h : Exact kernel sys) : sys.memory.live.Perm sys.holdings :=
  h.kept.perm_live.trans sys.perm_holdings.symm

theorem Exact.accounted (h : Exact kernel sys) : sys.Accounted := by
  obtain ⟨hpos, hapart⟩ := h.kept.live_apart
  refine ⟨?_, h.perm_live, fun block hm => hpos block (h.perm_live.mem_iff.mpr hm),
    h.perm_live.pairwise hapart Or.symm, ?_⟩
  · obtain ⟨heap, hheap, -⟩ := h.kept
    rw [hheap]
    rfl
  · intro p hm hborrowed
    have hspace : p.space = none := h.boot p.estate (List.mem_map_of_mem hm) hborrowed
    simp [Process.blocks, KernelStack.blocks, hborrowed, hspace]

/-! ## Reaping -/

/-- What becomes of `sys` when the processes that satisfy `leaves` leave the table and give back
all that they hold. -/
structure Released (sys : System) (leaves : Process → Bool) (t : Scheduler)
    (memory : KernelMemory) : Prop where
  table : t.pids = (sys.scheduler.processes.filter fun p => !leaves p).map (·.pid)
  freed : sys.memory.live.Perm
    (memory.live ++ (sys.scheduler.processes.filter leaves).flatMap (·.blocks))

def ended (sys : System) (p : Process) : Bool :=
  p.state = .terminated ∧ sys.scheduler.current ≠ some p.pid

theorem reapable_eq (sys : System) : sys.scheduler.reapable = sys.ended := by
  funext p
  rw [Bool.eq_iff_iff, Scheduler.reapable_eq_true, ended, decide_eq_true_eq]

theorem Exact.freed (h : Exact kernel sys) {t : Scheduler} {memory : KernelMemory}
    (after : Exact kernel { sys with scheduler := t, memory }) {leaving : List Block}
    (split : (sys.scheduler.processes.flatMap (·.blocks)).Perm
      (leaving ++ t.processes.flatMap (·.blocks))) :
    sys.memory.live.Perm (memory.live ++ leaving) := by
  have hbefore := h.perm_live
  have hafter := after.perm_live
  -- The callers' blocks are the same on both sides, so counting each block settles it.
  rw [List.perm_iff_count] at hbefore hafter split ⊢
  intro block
  have hold := hbefore block
  have hnew := hafter block
  have hsplit := split block
  simp only [holdings, List.count_append] at hold hnew hsplit ⊢
  omega

theorem Exact.switch_released (h : Exact kernel sys) (running : sys.scheduler.current.isSome)
    {frame : Nat} {cpu : Processor} {switched : Scheduler.Switched}
    (hswitch : (sys.scheduler.switch frame sys.memory cpu).result = .ok switched) :
    sys.Released sys.ended switched.scheduler switched.memory := by
  have hafter := h.switch (KernelMemory.Balances.account kernel) hswitch
  rcases Scheduler.switch_eq_ok hswitch with ⟨hnone, -⟩ |
    ⟨previous, reaped, suspended, next, hcurrent, hreap, hsuspend, hdispatch, -⟩
  · simp [hnone] at running
  obtain rfl := Scheduler.reap_eq_ok hreap
  have hhanded := h.sound.handed hcurrent hsuspend hdispatch
  rw [← reapable_eq]
  refine ⟨hhanded.pids, h.freed hafter ?_⟩
  have hsame := Scheduler.blocks_of_estates hhanded.estates
  rw [hsame]
  exact sys.scheduler.perm_withoutEnded _

def condemned (p q : Process) : Process :=
  if q.pid = p.pid then { q with state := .terminated } else q

theorem condemned_pid (p q : Process) : (condemned p q).pid = q.pid := by
  unfold condemned
  split <;> rfl

theorem condemned_blocks (p q : Process) : (condemned p q).blocks = q.blocks := by
  unfold condemned
  split <;> rfl

/-- A kill reaps the process that is killed and those that had ended. -/
theorem reapable_condemn (off : sys.scheduler.current ≠ some p.pid) (q : Process) :
    (sys.scheduler.condemn p).reapable (condemned p q) =
      decide (q.pid = p.pid ∨ sys.ended q = true) := by
  rw [Bool.eq_iff_iff, Scheduler.reapable_eq_true, Scheduler.current_condemn, decide_eq_true_eq,
    condemned_pid, ended, decide_eq_true_eq]
  unfold condemned
  split
  · next hsame => simp [hsame, off]
  · next hother => simp [hother]

theorem Exact.kill_released (h : Exact kernel sys) {t : Scheduler} {memory : KernelMemory}
    (hkill : (sys.scheduler.kill pid sys.memory).result = .ok (none, t, memory)) :
    sys.Released (fun q => q.pid = pid ∨ sys.ended q = true) t memory := by
  have hafter := h.kill (KernelMemory.Balances.account kernel) hkill
  obtain ⟨p, hidle, hoff, hp, hreap⟩ := Scheduler.kill_eq_ok hkill
  obtain ⟨-, rfl⟩ := Scheduler.process?_mem hp
  obtain rfl := Scheduler.reap_eq_ok hreap
  have htable : (sys.scheduler.condemn p).processes =
      sys.scheduler.processes.map (condemned p) := Scheduler.processes_condemn _ _
  constructor
  · show (((sys.scheduler.condemn p).processes.filter _).map _) = _
    rw [htable, List.filter_map, List.map_map]
    rw [show (Process.pid ∘ condemned p) = Process.pid from funext (condemned_pid p)]
    congr 2
    funext q
    simp only [Function.comp_apply, reapable_condemn hoff]
  · refine h.freed hafter ?_
    have hsplit := (sys.scheduler.condemn p).perm_withoutEnded (·.blocks)
    rw [htable, List.filter_map, List.flatMap_map, List.flatMap_map] at hsplit
    simp only [condemned_blocks] at hsplit
    rw [show (sys.scheduler.condemn p).reapable ∘ condemned p =
      fun q => decide (q.pid = p.pid ∨ sys.ended q = true) from
        funext (reapable_condemn hoff)] at hsplit
    exact hsplit

theorem Exact.exists_kill (h : Exact kernel sys) (pid : Pid) :
    ∃ answer t memory, (sys.scheduler.kill pid sys.memory).result = .ok (answer, t, memory) := by
  rcases sys.scheduler.kill_cases pid sys.memory with ⟨-, hkill⟩ | ⟨-, -, hkill⟩ |
    ⟨-, -, -, hkill⟩ | ⟨p, hidle, -, hp, hkill⟩
  · exact ⟨_, _, _, hkill⟩
  · exact ⟨_, _, _, hkill⟩
  · exact ⟨_, _, _, hkill⟩
  · obtain ⟨-, rfl⟩ := Scheduler.process?_mem hp
    have hcondemned := h.of_estates (h.sound.condemned hp hidle)
      (Scheduler.condemn_inPlace hp).estates
    obtain ⟨memory, hreap⟩ := hcondemned.kept.exists_reap
    refine ⟨none, (sys.scheduler.condemn p).withoutEnded, memory, ?_⟩
    rw [hkill, hreap]
    rfl

/-- What the operations that reap do in a given state. None of them frees what is not allocated, and
all that has ended and left the processor is given back. -/
structure Reaps (sys : System) : Prop where
  reaps : ∃ t memory, (sys.scheduler.reap sys.memory).result = .ok (t, memory)
  kills : ∀ pid, ∃ answer t memory,
    (sys.scheduler.kill pid sys.memory).result = .ok (answer, t, memory)
  switched : ∀ {frame cpu switched}, sys.scheduler.current.isSome →
    (sys.scheduler.switch frame sys.memory cpu).result = .ok switched →
      sys.Released sys.ended switched.scheduler switched.memory
  killed : ∀ {pid t memory},
    (sys.scheduler.kill pid sys.memory).result = .ok (none, t, memory) →
      sys.Released (fun q => q.pid = pid ∨ sys.ended q = true) t memory

theorem Exact.reaps (h : Exact kernel sys) : sys.Reaps := by
  obtain ⟨memory, hreap⟩ := h.kept.exists_reap
  exact ⟨⟨_, memory, hreap⟩, h.exists_kill,
    fun hrunning hswitch => h.switch_released hrunning hswitch, h.kill_released⟩

/-! ## Staying and leaving -/

theorem Released.not_mem_pids {leaves : Process → Bool} {t : Scheduler} {memory : KernelMemory}
    (h : sys.Released leaves t memory) (hm : p ∈ sys.scheduler.processes)
    (gone : p.pid ∉ t.pids) : leaves p = true := by
  by_contra hstays
  apply gone
  rw [h.table]
  exact List.mem_map_of_mem (List.mem_filter.mpr ⟨hm, by simpa using hstays⟩)

/-- Whoever leaves the table has ended, or is killed. -/
theorem Exact.step_leaves (h : Exact kernel sys) (hs : Step sys sys')
    (hm : p ∈ sys.scheduler.processes) (gone : p.pid ∉ sys'.scheduler.pids) :
    sys.ended p = true ∨ ∃ memory,
      (sys.scheduler.kill p.pid sys.memory).result = .ok (none, sys'.scheduler, memory) := by
  have hpid : p.pid ∈ sys.scheduler.pids := List.mem_map_of_mem hm
  cases hs.passage h.sound with
  | stays hplace => exact absurd (hplace.pids ▸ hpid) gone
  | enters hspawned => exact absurd (hspawned.pids_subset hpid) gone
  | hands hcurrent hswitch hsame =>
      rw [hsame] at gone
      have hreleased := h.switch_released (by rw [hcurrent]; rfl) hswitch
      exact .inl (hreleased.not_mem_pids hm gone)
  | kills hkill =>
      have hleft := (h.kill_released hkill).not_mem_pids hm gone
      rcases of_decide_eq_true hleft with rfl | hended
      · exact .inr ⟨_, hkill⟩
      · exact .inl hended

theorem Exact.current_stays (h : Exact kernel sys) (hs : Step sys sys')
    (current : sys.scheduler.current = some pid) : pid ∈ sys'.scheduler.pids := by
  obtain ⟨p, hp, -⟩ := h.sound.current pid current
  obtain ⟨hm, rfl⟩ := Scheduler.process?_mem hp
  by_contra hgone
  rcases h.step_leaves hs hm hgone with hended | ⟨memory, hkill⟩
  · rw [ended, decide_eq_true_eq] at hended
    exact hended.2 current
  · obtain ⟨-, -, hoff, -⟩ := Scheduler.kill_eq_ok hkill
    exact hoff current

/-- Whoever stays in the table keeps flags, stack and address space; once ended, it stays so and does
not get the processor. -/
theorem Step.keeps (hs : Step sys sys') (h : sys.scheduler.Sound)
    (hp : sys.scheduler.process? pid = some p) (hq : sys'.scheduler.process? pid = some q) :
    q.flags = p.flags ∧ q.stack = p.stack ∧ q.space = p.space ∧
      (p.state = .terminated → q.state = .terminated ∧
        (sys'.scheduler.current = some pid → sys.scheduler.current = some pid)) := by
  rcases (hs.passage h).continues h with ⟨hcontinues, hcurrent⟩ |
    ⟨frame, cpu, switched, previous, next, -, -, hsame, hhanded⟩
  · have hkeeps := hcontinues pid p q hp hq
    refine ⟨hkeeps.flags, hkeeps.stack, hkeeps.space, fun hended =>
      ⟨hkeeps.ended hended, fun hnow => ?_⟩⟩
    rwa [hcurrent] at hnow
  · rw [hsame] at hq
    have hkeeps := hhanded.keeps pid p q hp hq
    have hnever : p.state = .terminated → sys'.scheduler.current = some pid →
        sys.scheduler.current = some pid := by
      intro hended hnow
      rw [hsame, hhanded.current] at hnow
      obtain rfl := Option.some.inj hnow
      exact absurd hended (hhanded.live p hp)
    split at hkeeps
    · exact ⟨hkeeps.flags, hkeeps.stack, hkeeps.space, fun hended =>
        ⟨hkeeps.ended hended, hnever hended⟩⟩
    · exact ⟨hkeeps.flags, hkeeps.stack, hkeeps.space, fun hended =>
        ⟨hkeeps.ended hended, hnever hended⟩⟩

inductive Staying (pid : Pid) (sys : System) : System → Prop
  | refl : Staying pid sys sys
  | step {sys' sys'' : System} :
      Staying pid sys sys' → Step sys' sys'' → pid ∈ sys''.scheduler.pids → Staying pid sys sys''

/-- A process that has ended is what it was for as long as it stays in the table, and never gets the
processor again. -/
theorem Exact.staying (h : Exact kernel sys) (hp : sys.scheduler.process? pid = some p)
    (finished : p.state = .terminated) (hstay : Staying pid sys sys') :
    Exact kernel sys' ∧ ∃ q, sys'.scheduler.process? pid = some q ∧ q.state = .terminated ∧
      q.stack = p.stack ∧ q.space = p.space ∧
      (sys'.scheduler.current = some pid → sys.scheduler.current = some pid) := by
  induction hstay with
  | refl => exact ⟨h, p, hp, finished, rfl, rfl, id⟩
  | step _ hs hm ih =>
      obtain ⟨hgood, q, hq, hover, hstack, hspace, hcurrent⟩ := ih
      obtain ⟨r, hr⟩ := Scheduler.exists_process? hm
      obtain ⟨-, hstack', hspace', hended⟩ := hs.keeps hgood.sound hq hr
      obtain ⟨hover', hcurrent'⟩ := hended hover
      exact ⟨hgood.step (KernelMemory.Balances.account kernel) hs, r, hr, hover',
        hstack'.trans hstack, hspace'.trans hspace, fun hnow => hcurrent (hcurrent' hnow)⟩

/-- How processes end, from a given state on. -/
structure Retires (sys : System) : Prop where
  /-- The process on the processor is never reaped. -/
  current : ∀ {sys' pid}, Step sys sys' → sys.scheduler.current = some pid →
    pid ∈ sys'.scheduler.pids
  /-- Nobody is reaped but by having ended or by being killed. -/
  leaves : ∀ {sys' p}, Step sys sys' → p ∈ sys.scheduler.processes →
    p.pid ∉ sys'.scheduler.pids → sys.ended p = true ∨ ∃ memory,
      (sys.scheduler.kill p.pid sys.memory).result = .ok (none, sys'.scheduler, memory)
  /-- Until it is reaped, a process that has ended keeps what it holds. -/
  ended : ∀ {pid p sys'}, sys.scheduler.process? pid = some p → p.state = .terminated →
    Staying pid sys sys' → ∃ q, sys'.scheduler.process? pid = some q ∧ q.state = .terminated ∧
      q.stack = p.stack ∧ q.space = p.space ∧
      (sys'.scheduler.current = some pid → sys.scheduler.current = some pid)
  /-- A switch takes the processor from a process that has ended. -/
  switched : ∀ {frame cpu switched p}, sys.scheduler.current.isSome →
    (sys.scheduler.switch frame sys.memory cpu).result = .ok switched →
      p ∈ sys.scheduler.processes → p.state = .terminated →
        switched.scheduler.current ≠ some p.pid

theorem Exact.retires (h : Exact kernel sys) : sys.Retires where
  current := h.current_stays
  leaves := h.step_leaves
  ended := fun hp hover hstay => (h.staying hp hover hstay).2
  switched := by
    intro frame cpu switched p hrunning hswitch hm hover hnow
    obtain ⟨previous, hcurrent⟩ := Option.isSome_iff_exists.mp hrunning
    obtain ⟨next, hhanded, -⟩ := h.sound.switch_handed hcurrent hswitch
    rw [hhanded.current] at hnow
    have hp := Scheduler.process?_of_mem h.sound.distinct hm
    rw [← Option.some.inj hnow] at hp
    exact hhanded.live p hp hover

/-- The live blocks of the kernel heap are exactly those that callers and processes hold, apart from
each other. Reaping comes back and gives back exactly what the processes hold that have ended and
left the processor; until then they keep it, and they never get the processor again.

`apart` is the safety contract of `KernelMemory.boot`: the heap's window keeps out of static
memory. -/
theorem Reached.resources_owned (h : Reached info base maxSize started sys)
    (apart : base + maxSize ≤ info.kernelEnd ∨ info.placementLimit ≤ base)
    (narrow : maxSize ≤ addressSpan) : sys.Accounted ∧ sys.Reaps ∧ sys.Retires := by
  obtain ⟨kernel, hexact⟩ := h.exact_of_narrow apart narrow
  exact ⟨hexact.accounted, hexact.reaps, hexact.retires⟩

/-- A process that exits leaves its stack, its directory and its private table to the switch after
the one that takes the processor from it. The stack of the idle process stays. -/
theorem resources_owned_after_exit :
    ∃ (sys : System) (switched : Scheduler.Switched),
      (sys.scheduler.switch 0x83000 sys.memory .reset).result = .ok switched ∧
        sys.Accounted ∧ sys.memory.live.length = 4 ∧
        sys.Released sys.ended switched.scheduler switched.memory ∧
        switched.memory.live.length = 1 := by
  have hcounts : (do
      let last ← sampleRun
      let gone ← (last.1.switch last.2.2 last.2.1 .reset).result
      let reaped ← (gone.scheduler.switch 0x83000 gone.memory .reset).result
      return (gone.memory.live.length, reaped.memory.live.length) : Except Fault (Nat × Nat)) =
        .ok (4, 1) := by decide +kernel
  obtain ⟨⟨s, memory, frame⟩, hsample, hrest⟩ := bind_eq_ok hcounts
  obtain ⟨gone, hgone, hrest⟩ := bind_eq_ok hrest
  obtain ⟨reaped, hreaped, hrest⟩ := bind_eq_ok hrest
  simp only [pure_eq_ok, Except.ok.injEq, Prod.mk.injEq] at hrest
  obtain ⟨trail, hreached⟩ := reached_sampleRun hsample
  have hleft := hreached.step (.scheduler (.switched hgone))
  obtain ⟨haccounted, hreaps, -⟩ := hleft.resources_owned (.inr (by decide)) (by decide)
  have hrunning : gone.scheduler.current.isSome := by
    rw [hleft.scheduler_reached.sound.2.1]
  exact ⟨_, reaped, hreaped, haccounted, hrest.1, hreaps.switched hrunning hreaped, hrest.2⟩

end System

end KernelCore
