import Mathlib
import KernelCore.Proofs.Scheduler.Runs
import KernelCore.Proofs.System.Holdings
import KernelCore.Proofs.System.Operations

/-!
# A process is made, or nothing is

A spawn can fail for want of a place in the table, for a stack that cannot hold the first register
frame, and for want of memory for the stack. The queue never lacks room. Whatever the scheduler and
the memory have been through, a failed spawn destroys the address space that it was given, and
leaves the rest as it was.
-/

namespace KernelCore

open Heap

/-! ## Allocations that are refused -/

namespace KernelMemory

variable {info : BootInfo} {heaps : List Heap} {memory memory' : KernelMemory} {size : Nat}
  {pageAligned : Bool}

theorem Orderly.tryAlloc_refused (h : Orderly info heaps memory) {cause : HeapError}
    (halloc : (memory.tryAlloc size pageAligned).result = .ok (.error cause, memory')) :
    memory' = memory := by
  unfold tryAlloc at halloc
  cases hheap : memory.heap with
  | none =>
      simp only [hheap, Traced.result_pure, Except.ok.injEq, Prod.mk.injEq] at halloc
      exact halloc.2.symm
  | some heap =>
      simp only [hheap, Traced.result_bind] at halloc
      obtain ⟨⟨answer, heap', space'⟩, hasked, hrest⟩ := bind_eq_ok halloc
      obtain ⟨rfl, rfl⟩ := Prod.mk.injEq .. ▸ Except.ok.inj hrest
      have hends := (h.inUse heap hheap).1.alloc_ends KernelSpace.mapper size pageAligned
        memory.space
      have hsame : heap' = heap ∧ space' = memory.space := by
        rw [hasked] at hends
        cases hends with
        | refused => exact ⟨rfl, rfl⟩
        | unmapped hmap => exact ⟨rfl, (KernelSpace.map_refused h.tidy.sound hmap).1⟩
      obtain ⟨rfl, rfl⟩ := hsame
      show KernelMemory.mk memory.arena memory.space (some heap') = memory
      rw [← hheap]

theorem Orderly.granted_lt (h : Orderly info heaps memory) {base : Nat}
    (halloc : (memory.tryAlloc size pageAligned).result = .ok (.ok base, memory')) :
    ∃ heap, memory.heap = some heap ∧ base ≤ heap.limit := by
  cases hheap : memory.heap with
  | none => simp [tryAlloc, hheap] at halloc
  | some heap =>
      obtain ⟨heap', -, hgranted⟩ := tryAlloc_eq_ok hheap halloc
      have hends := (h.inUse heap hheap).1.alloc_ends KernelSpace.mapper size pageAligned
        memory.space
      rw [hgranted] at hends
      cases hends with
      | granted hg =>
          have hm := hg.used.mem_iff.mpr List.mem_cons_self
          obtain ⟨-, -, hstop⟩ := hg.valid.books.laid.tiles.bounds (List.mem_of_mem_filter hm)
          have hlimit := hg.valid.window.stop_le
          rw [hg.same.limit] at hlimit
          change base + rounded size ≤ heap'.stop at hstop
          exact ⟨heap, rfl, by omega⟩

theorem Operated.giveSpace (h : Operated info heaps memory) {space : Option AddressSpace}
    (hgive : (memory.giveSpace space).result = .ok memory') : Operated info heaps memory' := by
  cases space with
  | none =>
      obtain rfl := Except.ok.inj hgive
      exact h
  | some made => exact h.operation (.spaceDestroyed hgive)

end KernelMemory

namespace Scheduler

variable {info : BootInfo} {heaps : List Heap} {started : Bool} {s t : Scheduler}
  {request : SpawnRequest} {space : Option AddressSpace} {memory memory' : KernelMemory}
  {answer : Except SpawnError Pid}

/-! ## How a spawn ends -/

inductive SpawnEnds (s : Scheduler) (request : SpawnRequest) (space : Option AddressSpace)
    (memory : KernelMemory) : Except SpawnError Pid → Scheduler → KernelMemory → Prop
  | full {memory' : KernelMemory} :
      s.processes.length = processCapacity → (memory.giveSpace space).result = .ok memory' →
      SpawnEnds s request space memory (.error .tooManyProcesses) s memory'
  | small {memory' : KernelMemory} :
      s.processes.length < processCapacity → request.stackSize < minStackSize →
      (memory.giveSpace space).result = .ok memory' →
      SpawnEnds s request space memory (.error .stackTooSmall) s memory'
  | stackless {why : HeapError} {refused memory' : KernelMemory} :
      s.processes.length < processCapacity → minStackSize ≤ request.stackSize →
      (memory.tryAlloc request.stackSize false).result = .ok (.error why, refused) →
      (refused.giveSpace space).result = .ok memory' →
      SpawnEnds s request space memory (.error (.outOfMemory why)) s memory'
  | spawned {pid : Pid} {base frame : Nat} {t : Scheduler} {granted : KernelMemory} :
      s.processes.length < processCapacity → minStackSize ≤ request.stackSize →
      (memory.tryAlloc request.stackSize false).result = .ok (.ok base, granted) →
      Spawned request s (made request space pid base frame) t →
      SpawnEnds s request space memory (.ok pid) t (granted.saveFrame frame
        (Registers.initial request.entry request.arg request.flags))

theorem giveSpace_of_refuseSpawn {entry : Nat} {cause : SpawnError}
    (h : (refuseSpawn entry space cause memory).result = .ok memory') :
    (memory.giveSpace space).result = .ok memory' := by
  rw [refuseSpawn_eq, Traced.result_bind] at h
  obtain ⟨given, hgiven, hnote⟩ := bind_eq_ok h
  obtain rfl := Except.ok.inj hnote
  exact hgiven

/-- The queue of the priority has room, so the way out through a full queue is never taken. -/
theorem Filed.spawn_ends (h : s.Filed)
    (hspawn : (s.spawn request space memory).result = .ok (answer, t, memory')) :
    SpawnEnds s request space memory answer t memory' := by
  unfold spawn at hspawn
  split at hspawn
  next hfull =>
    have hlength : processCapacity ≤ s.processes.length := by simpa [tableFull] using hfull
    obtain ⟨rfl, rfl, hrefuse⟩ := refuseSpawn_eq_ok hspawn
    exact .full (Nat.le_antisymm h.bounded hlength) (giveSpace_of_refuseSpawn hrefuse)
  next hroom =>
  have hfree : s.processes.length < processCapacity := by simpa [tableFull] using hroom
  split at hspawn
  next hsmall =>
    obtain ⟨rfl, rfl, hrefuse⟩ := refuseSpawn_eq_ok hspawn
    exact .small hfree hsmall (giveSpace_of_refuseSpawn hrefuse)
  next hlarge =>
  rw [Traced.result_bind] at hspawn
  obtain ⟨⟨answered, granted⟩, halloc, hspawn⟩ := bind_eq_ok hspawn
  cases answered with
  | error why =>
      obtain ⟨rfl, rfl, hrefuse⟩ := refuseSpawn_eq_ok hspawn
      exact .stackless hfree (Nat.le_of_not_lt hlarge) halloc (giveSpace_of_refuseSpawn hrefuse)
  | ok base =>
      have hpush : s.allocatePid.2.push? request.priority s.allocatePid.1 = _ :=
        push?_eq_some (Nat.lt_of_le_of_lt (h.queue_length_le request.priority) hfree)
      simp only [hpush, Traced.result_bind] at hspawn
      obtain ⟨⟨settled, memory₂⟩, hsettle, hspawn⟩ := bind_eq_ok hspawn
      obtain ⟨rfl, rfl, rfl⟩ := by simpa using hspawn
      obtain ⟨frame, hframe, henter, rfl⟩ := settle_eq_ok hsettle
      obtain ⟨-, hleft⟩ := enter_eq_ok henter
      exact .spawned hfree (Nat.le_of_not_lt hlarge) halloc
        ⟨process?_allocatePid h.next h.bounded, s.freshFrom_lt _ h.next, hfree, rfl, rfl, hleft⟩

/-! ## All or nothing -/

/-- What a spawn leaves that fails for `cause`. -/
structure SpawnFailed (s : Scheduler) (request : SpawnRequest) (space : Option AddressSpace)
    (memory : KernelMemory) (cause : SpawnError) (t : Scheduler) (memory' : KernelMemory) :
    Prop where
  full : cause = .tooManyProcesses ↔ s.processes.length = 64
  small : cause = .stackTooSmall ↔ s.processes.length < 64 ∧ request.stackSize < minStackSize
  stackless : ∀ why, cause = .outOfMemory why ↔
    s.processes.length < 64 ∧ minStackSize ≤ request.stackSize ∧
      ∃ refused, (memory.tryAlloc request.stackSize false).result = .ok (.error why, refused)
  queues : cause ≠ .queueFull
  scheduler : t = s
  /-- All that has happened is that the address space, if there is one, was destroyed. -/
  memory : (memory.giveSpace space).result = .ok memory'

/-- What a spawn leaves that makes a process of number `pid`. -/
structure SpawnMade (s : Scheduler) (request : SpawnRequest) (space : Option AddressSpace)
    (memory : KernelMemory) (pid : Pid) (t : Scheduler) : Prop where
  room : s.processes.length < 64
  size : minStackSize ≤ request.stackSize
  fresh : pid ∉ s.pids
  /-- One process is entered, on the stack that was allocated, and it owns the address space. -/
  entered : ∃ base frame granted,
    (memory.tryAlloc request.stackSize false).result = .ok (.ok base, granted) ∧
      t.processes = s.processes ++ [made request space pid base frame]
  /-- It waits behind those of its priority. -/
  waits : ∀ priority, t.queue priority =
    s.queue priority ++ if priority = request.priority then [pid] else []
  rest : t.current = s.current ∧ t.idle = s.idle ∧ t.ticks = s.ticks ∧ t.timers = s.timers

theorem SpawnEnds.operated (h : SpawnEnds s request space memory answer t memory')
    (operated : KernelMemory.Operated info heaps memory) :
    KernelMemory.Operated info heaps memory' := by
  cases h with
  | full _ hgive => exact operated.giveSpace hgive
  | small _ _ hgive => exact operated.giveSpace hgive
  | stackless _ _ halloc hgive =>
      exact (operated.operation (.allocated halloc)).giveSpace hgive
  | spawned _ _ halloc _ =>
      exact (operated.operation (.allocated halloc)).operation (.frameSaved _ _)

theorem Reached.start_operated (h : Reached false s)
    (operated : KernelMemory.Operated info heaps memory) {stack : KernelStack} {idleEntry : Nat}
    (hstart : (s.start stack idleEntry memory).result = .ok (t, memory')) :
    KernelMemory.Operated info heaps memory' := by
  obtain ⟨hbefore, hroom, idle, u, hspawn, -⟩ := start_eq_ok hstart
  have hboot := h.sound.1.withBoot hbefore hroom stack
  exact (hboot.toFiled.spawn_ends hspawn).operated operated

theorem SpawnEnds.failed {cause : SpawnError} (h : SpawnEnds s request space memory
      (.error cause) t memory') (operated : KernelMemory.Operated info heaps memory) :
    SpawnFailed s request space memory cause t memory' := by
  have hcapacity : processCapacity = 64 := rfl
  cases h with
  | full hfull hgive =>
      refine ⟨?_, ?_, fun why => ?_, by simp, rfl, hgive⟩
      · simpa using hfull
      · simp [hfull, hcapacity]
      · simp [hfull, hcapacity]
  | small hfree hsmall hgive =>
      refine ⟨?_, ?_, fun why => ?_, by simp, rfl, hgive⟩
      · simp [Nat.ne_of_lt (hcapacity ▸ hfree)]
      · simpa [hsmall] using hfree
      · simp [Nat.not_le.mpr hsmall]
  | @stackless why refused _ hfree hlarge halloc hgive =>
      obtain rfl := operated.orderly.tryAlloc_refused halloc
      refine ⟨?_, ?_, fun other => ?_, by simp, rfl, hgive⟩
      · simp [Nat.ne_of_lt (hcapacity ▸ hfree)]
      · simp [Nat.not_lt.mpr hlarge]
      · simp only [SpawnError.outOfMemory.injEq, halloc, Except.ok.injEq, Prod.mk.injEq,
          Except.error.injEq, exists_eq_right']
        exact ⟨fun hsame => ⟨hfree, hlarge, hsame⟩, fun hasked => hasked.2.2⟩

theorem SpawnEnds.made {pid : Pid}
    (h : SpawnEnds s request space memory (.ok pid) t memory') :
    SpawnMade s request space memory pid t := by
  cases h with
  | @spawned _ base frame _ granted hfree hlarge halloc hs =>
      refine ⟨hfree, hlarge, process?_eq_none.mp hs.fresh,
        ⟨base, frame, granted, halloc, ?_⟩, ?_, ?_⟩
      · rw [hs.left]
      · intro priority
        rw [hs.left]
        change (s.setQueue request.priority _).queue priority = _
        rw [queue_setQueue]
        by_cases hsame : request.priority = priority
        · subst hsame
          rw [if_pos rfl, if_pos rfl]
          rfl
        · rw [if_neg hsame, if_neg (Ne.symm hsame), List.append_nil]
      · rw [hs.left]
        exact ⟨rfl, rfl, rfl, rfl⟩

/-- If kernel memory answers, so does the spawn: a stack below 2^63 in a window below 2^63 has its
first frame in a word. -/
theorem Filed.exists_spawn_of_answers (h : s.Filed)
    (operated : KernelMemory.Operated info heaps memory) (size : request.stackSize < 2 ^ 63)
    (window : ∀ heap, memory.heap = some heap → heap.limit < 2 ^ 63) {given : KernelMemory}
    (hgive : (memory.giveSpace space).result = .ok given)
    {asked : Except HeapError Nat × KernelMemory}
    (halloc : (memory.tryAlloc request.stackSize false).result = .ok asked) :
    ∃ outcome, (s.spawn request space memory).result = .ok outcome := by
  have hrefuse : ∀ cause, (refuseSpawn request.entry space cause memory).result = .ok given := by
    intro cause
    rw [refuseSpawn_eq, Traced.result_bind, hgive]
    rfl
  by_cases hfull : s.tableFull = true
  · simp [spawn, hfull, hrefuse]
  by_cases hsmall : request.stackSize < minStackSize
  · simp [spawn, hfull, hsmall, hrefuse]
  obtain ⟨answer, granted⟩ := asked
  cases answer with
  | error why =>
      obtain rfl := operated.orderly.tryAlloc_refused halloc
      simp [spawn, hfull, hsmall, halloc, hrefuse]
  | ok base =>
      obtain ⟨heap, hheap, hbase⟩ := operated.orderly.granted_lt halloc
      have hlimit := window heap hheap
      have hword : base + request.stackSize < wordLimit := by
        unfold wordLimit
        omega
      have hroom : s.processes.length < processCapacity := by simpa [tableFull] using hfull
      obtain ⟨pid, t, memory', hspawn⟩ :=
        h.exists_spawn hroom request (Nat.le_of_not_lt hsmall) space halloc hword
      exact ⟨_, hspawn⟩

/-- How a spawn ends for a scheduler and kernel memory, whatever they have been through. -/
structure SpawnAllOrNothing (info : BootInfo) (heaps : List Heap) (s : Scheduler)
    (request : SpawnRequest) (space : Option AddressSpace) (memory : KernelMemory) : Prop where
  /-- It comes back if kernel memory can say whether there is a stack, and can destroy the address
  space. -/
  returns : request.stackSize < 2 ^ 63 →
    (∀ heap, memory.heap = some heap → heap.limit < 2 ^ 63) →
    (∃ given, (memory.giveSpace space).result = .ok given) →
    (∃ asked, (memory.tryAlloc request.stackSize false).result = .ok asked) →
      ∃ outcome, (s.spawn request space memory).result = .ok outcome
  failed : ∀ {cause t memory'},
    (s.spawn request space memory).result = .ok (.error cause, t, memory') →
      SpawnFailed s request space memory cause t memory'
  made : ∀ {pid t memory'},
    (s.spawn request space memory).result = .ok (.ok pid, t, memory') →
      SpawnMade s request space memory pid t
  /-- What is left of kernel memory it can come to without the spawn. -/
  operated : ∀ {answer t memory'},
    (s.spawn request space memory).result = .ok (answer, t, memory') →
      KernelMemory.Operated info heaps memory'

/-- A spawn makes a process with a number and a stack of its own. Or it fails for the first of the
three reasons there are, and changes nothing but that the address space is destroyed. -/
theorem Reached.spawn_all_or_nothing (h : Reached started s)
    (operated : KernelMemory.Operated info heaps memory) (request : SpawnRequest)
    (space : Option AddressSpace) : SpawnAllOrNothing info heaps s request space memory where
  returns := by
    rintro size window ⟨given, hgive⟩ ⟨asked, halloc⟩
    exact h.sound.1.toFiled.exists_spawn_of_answers operated size window hgive halloc
  failed := fun hspawn => (h.sound.1.toFiled.spawn_ends hspawn).failed operated
  made := fun hspawn => (h.sound.1.toFiled.spawn_ends hspawn).made
  operated := fun hspawn => (h.sound.1.toFiled.spawn_ends hspawn).operated operated

/-- The main process, one that waits beside it, and the idle one, with an address space made for a
fourth. Answers the scheduler, the heaps of the machine, its memory and the address space. -/
def sampleCompany : Except Fault (Scheduler × List Heap × KernelMemory × AddressSpace) := do
  let realm ← Realm.sampleRealm
  let (s, memory) ← (empty.start ⟨0x80000, 0x4000, false⟩ 0x100000 realm.memory).result
  let request : SpawnRequest := ⟨0x102000, .normal, 0, 0x200, ⟨true, false⟩⟩
  let (answer, s, memory) ← (s.spawn request none memory).result
  let .ok _ := answer | throw .raised
  let (answer, memory) ← memory.createSpace.result
  let .ok made := answer | throw .raised
  return (s, realm.heaps, memory, made)

theorem reached_sampleCompany {made : AddressSpace}
    (h : sampleCompany = .ok (s, heaps, memory, made)) :
    Reached true s ∧ KernelMemory.Operated KernelMemory.sampleInfo heaps memory ∧
      ∃ before : KernelMemory, before.createSpace.result = .ok (.ok made, memory) := by
  unfold sampleCompany at h
  obtain ⟨realm, hsample, h⟩ := bind_eq_ok h
  obtain ⟨⟨started, memory₁⟩, hstart, h⟩ := bind_eq_ok h
  obtain ⟨⟨answer, spawned, memory₂⟩, hspawn, h⟩ := bind_eq_ok h
  rcases answer with cause | pid
  · simp at h
  obtain ⟨⟨answer, memory₃⟩, hcreate, h⟩ := bind_eq_ok h
  rcases answer with cause | space
  · simp at h
  obtain ⟨rfl, rfl, rfl, rfl⟩ := by
    simpa only [pure_eq_ok, Except.ok.injEq, Prod.mk.injEq] using h
  have hstarted := Reached.empty.start hstart
  have hrunning := Reached.empty.start_operated (Realm.reached_sampleRealm hsample).operated hstart
  have hspawned := (hstarted.sound.1.toFiled.spawn_ends hspawn).operated hrunning
  exact ⟨hstarted.step (.spawned hspawn), hspawned.operation (.spaceCreated hcreate), _, hcreate⟩

/-- Among three processes, a stack larger than the window of the heap: the address space that was
made for the fourth is destroyed, and nothing else has happened. -/
theorem spawn_refused_for_a_large_stack :
    ∃ (s : Scheduler) (heaps : List Heap) (before memory after : KernelMemory)
      (made : AddressSpace),
      Reached true s ∧ s.processes.length = 3 ∧
      before.createSpace.result = .ok (.ok made, memory) ∧
      KernelMemory.Operated KernelMemory.sampleInfo heaps memory ∧
      (s.spawn ⟨0x1000, .normal, 7, 0x20000, ⟨true, false⟩⟩ (some made) memory).result =
        .ok (.error (.outOfMemory .exhausted), s, after) ∧
      (memory.destroySpace made).result = .ok after := by
  have hfacts : (do
      let company ← sampleCompany
      let spawned ← (company.1.spawn ⟨0x1000, .normal, 7, 0x20000, ⟨true, false⟩⟩
        (some company.2.2.2) company.2.2.1).result
      return (company.1.processes.length, spawned.1) : Except Fault _) =
        .ok (3, .error (.outOfMemory .exhausted)) := by
    decide +kernel
  obtain ⟨⟨s, heaps, memory, made⟩, hsample, hfacts⟩ := bind_eq_ok hfacts
  obtain ⟨⟨answer, t, after⟩, hspawn, hfacts⟩ := bind_eq_ok hfacts
  obtain ⟨hcount, rfl⟩ := Prod.mk.injEq .. ▸ Except.ok.inj hfacts
  obtain ⟨hreached, hoperated, before, hcreate⟩ := reached_sampleCompany hsample
  have hfailed := (Reached.spawn_all_or_nothing hreached hoperated _ _).failed hspawn
  obtain rfl := hfailed.scheduler
  exact ⟨t, heaps, before, memory, after, made, hreached, hcount, hcreate, hoperated, hspawn,
    hfailed.memory⟩

end Scheduler

end KernelCore
