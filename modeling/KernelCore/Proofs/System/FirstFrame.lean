import Mathlib
import KernelCore.Proofs.System.Machine

/-!
# The first frame of a process

A spawn builds the registers that a process starts with on the stack of that process. Until the
switch that first gives it the processor, nothing else is written there: frames of other processes,
directories and tables go to blocks of the heap beside the stack or to static memory, and whoever
runs writes elsewhere. So the process starts with the registers that were built for it.
-/

namespace KernelCore

open Heap

/-! ## What the scheduler leaves saved -/

section Saved

variable {memory memory' : KernelMemory} {s t : Scheduler}

theorem KernelMemory.giveSpace_saved {space : Option AddressSpace}
    (h : (memory.giveSpace space).result = .ok memory') :
    memory'.space.ram.saved = memory.space.ram.saved := by
  cases space with
  | none => rw [Except.ok.inj h]
  | some made => exact destroySpace_saved h

theorem KernelMemory.giveStack_saved {stack : KernelStack}
    (h : (memory.giveStack stack).result = .ok memory') :
    memory'.space.ram.saved = memory.space.ram.saved := by
  unfold giveStack at h
  split at h
  · exact free_saved h
  · rw [Except.ok.inj h]

theorem Scheduler.releaseProcess_saved {p : Process}
    (h : (releaseProcess p memory).result = .ok memory') :
    memory'.space.ram.saved = memory.space.ram.saved := by
  rw [releaseProcess_eq, Traced.result_bind] at h
  obtain ⟨freed, hfree, h⟩ := bind_eq_ok h
  rw [Traced.result_bind] at h
  obtain ⟨given, hgive, h⟩ := bind_eq_ok h
  obtain rfl := Except.ok.inj h
  exact (KernelMemory.giveSpace_saved hgive).trans (KernelMemory.giveStack_saved hfree)

theorem Scheduler.releaseAll_saved {ended : List Process}
    (h : (ended.foldlM (fun memory process => releaseProcess process memory) memory).result =
      .ok memory') : memory'.space.ram.saved = memory.space.ram.saved := by
  induction ended generalizing memory with
  | nil => rw [Except.ok.inj h]
  | cons p rest ih =>
      rw [List.foldlM_cons, Traced.result_bind] at h
      obtain ⟨given, hrelease, hrest⟩ := bind_eq_ok h
      exact (ih hrest).trans (releaseProcess_saved hrelease)

theorem Scheduler.reap_saved (h : (s.reap memory).result = .ok (t, memory')) :
    memory'.space.ram.saved = memory.space.ram.saved := by
  unfold reap at h
  rw [Traced.result_bind] at h
  obtain ⟨released, hfold, h⟩ := bind_eq_ok h
  obtain ⟨-, rfl⟩ := Prod.mk.injEq .. ▸ Except.ok.inj h
  exact releaseAll_saved hfold

theorem Scheduler.switch_saved {frame : Nat} {cpu : Processor} {switched : Switched}
    (h : (s.switch frame memory cpu).result = .ok switched) :
    switched.memory.space.ram.saved = memory.space.ram.saved := by
  rcases switch_eq_ok h with ⟨-, rfl⟩ | ⟨-, reaped, -, -, -, hreap, -⟩
  · rfl
  · exact reap_saved hreap

theorem Scheduler.kill_saved {pid : Pid} {answer : Option SchedError}
    (h : (s.kill pid memory).result = .ok (answer, t, memory')) :
    memory'.space.ram.saved = memory.space.ram.saved := by
  cases answer with
  | some cause => rw [(kill_refused h).2]
  | none =>
      obtain ⟨p, -, -, -, hreap⟩ := kill_eq_ok h
      exact reap_saved hreap

variable {block : Block} {frame : Nat} {registers : Option Registers}

theorem Sheltered.spawn (h : memory.InUse (Sheltered block frame registers))
    (low : block.addr ≤ frame) (high : frame + Registers.userFrameBytes ≤ block.stop)
    (filed : s.Filed) {request : SpawnRequest} {space : Option AddressSpace}
    {answer : Except SpawnError Pid}
    (hspawn : (s.spawn request space memory).result = .ok (answer, t, memory')) :
    memory'.space.ram.frameAt? frame = registers := by
  rcases filed.spawn_eq_ok hspawn with ⟨cause, refused, -, -, -, hrefused, hgive⟩ |
    ⟨pid, base, first, granted, -, -, hplaced, halloc, rfl⟩
  · have hsaved : refused.space.ram.saved = memory.space.ram.saved := by
      rcases hrefused with rfl | ⟨why, halloc⟩
      · rfl
      · exact KernelMemory.tryAlloc_saved halloc
    rw [Scheduler.refuseSpawn_eq, Traced.result_bind] at hgive
    obtain ⟨given, hgiven, hnote⟩ := bind_eq_ok hgive
    obtain rfl := Except.ok.inj hnote
    exact Sheltered.stays h ((KernelMemory.giveSpace_saved hgiven).trans hsaved)
  · have hfirst := KernelStack.placed_of_ok hplaced
    exact Sheltered.saveFrame low high h halloc hfirst.above hfirst.below _

theorem System.MemoryCall.saved {sys sys' : System} (hcall : MemoryCall sys sys')
    (h : sys.memory.InUse (Sheltered block frame registers)) (low : block.addr ≤ frame)
    (high : frame + Registers.userFrameBytes ≤ block.stop) :
    sys'.memory.space.ram.frameAt? frame = registers := by
  cases hcall with
  | granted halloc => exact Sheltered.stays h (KernelMemory.tryAlloc_saved halloc)
  | refused halloc => exact Sheltered.stays h (KernelMemory.tryAlloc_saved halloc)
  | freed _ hfree => exact Sheltered.stays h (KernelMemory.free_saved hfree)
  | faultHandled hresolve => exact Sheltered.stays h (KernelMemory.resolveFault_saved hresolve)
  | spaceCreated hcreate => exact Sheltered.createSpace low high h hcreate
  | spaceRefused hcreate => exact Sheltered.createSpace low high h hcreate
  | rangeMapped _ hmap => exact Sheltered.mapRange low high h hmap
  | rangeUnmapped _ _ hunmap => exact Sheltered.stays h (KernelMemory.unmapRange_saved hunmap)
  | spaceDestroyed _ hdestroy => exact Sheltered.stays h (KernelMemory.destroySpace_saved hdestroy)

theorem System.SchedulerCall.saved {sys sys' : System} (hcall : SchedulerCall sys sys')
    (filed : sys.scheduler.Filed) (h : sys.memory.InUse (Sheltered block frame registers))
    (low : block.addr ≤ frame) (high : frame + Registers.userFrameBytes ≤ block.stop) :
    sys'.memory.space.ram.frameAt? frame = registers := by
  cases hcall with
  | spawned _ hspawn => exact Sheltered.spawn h low high filed hspawn
  | spawnRefused _ hspawn => exact Sheltered.spawn h low high filed hspawn
  | switched hswitch => exact Sheltered.stays h (Scheduler.switch_saved hswitch)
  | killed hkill => exact Sheltered.stays h (Scheduler.kill_saved hkill)
  | exited => exact Sheltered.stays h rfl
  | prioritised => exact Sheltered.stays h rfl
  | ticked => exact Sheltered.stays h rfl
  | armed => exact Sheltered.stays h rfl
  | disarmed => exact Sheltered.stays h rfl

end Saved

namespace Machine

variable {info : BootInfo} {base maxSize : Nat} {m m' : Machine} {pid : Pid} {p q : Process}
  {request : SpawnRequest}

/-! ## What an operation leaves saved -/

/-- While a process does not have the processor, what is saved on its stack stays. -/
theorem Sane.saved (h : m.Sane info base maxSize)
    (apart : base + maxSize ≤ info.staticStart ∨ info.placementLimit ≤ base)
    (hmove : Move base maxSize m m') (hp : m.system.scheduler.process? pid = some p)
    (owned : p.stack.owned = true) (off : m.system.scheduler.current ≠ some pid) {frame : Nat}
    (above : p.stack.base ≤ frame)
    (below : frame + Registers.userFrameBytes ≤ p.stack.base + p.stack.size) :
    m'.system.memory.space.ram.frameAt? frame = m.system.memory.space.ram.frameAt? frame := by
  obtain ⟨hm, rfl⟩ := Scheduler.process?_mem hp
  have hheld := stack_mem_holdings hm owned
  obtain ⟨heap, hserves⟩ := h.serves hheld
  obtain ⟨hstart, hlimit⟩ := hserves.stack_within hm owned
  have hin : m.system.memory.InUse (Sheltered p.stack.block frame
      (m.system.memory.space.ram.frameAt? frame)) :=
    ⟨heap, hserves.used, hserves.allocated.valid, hserves.mem_used hheld, rfl⟩
  have hlow : p.stack.block.addr ≤ frame := above
  have hhigh : frame + Registers.userFrameBytes ≤ p.stack.block.stop :=
    Nat.le_trans below (Nat.add_le_add_left (le_rounded _) _)
  have hframe : frame + Registers.userFrameBytes ≤ info.staticStart ∨
      info.placementLimit ≤ frame := by omega
  cases hmove with
  | stepped hs =>
      cases hs with
      | memory hcall => exact hcall.saved hin hlow hhigh
      | scheduler hcall => exact hcall.saved h.sound.toFiled hin hlow hhigh
  | @started stack idleEntry t memory _ _ hstart =>
      obtain ⟨hbefore, hroom, idle, u, hspawn, -⟩ := Scheduler.start_eq_ok hstart
      exact Sheltered.spawn hin hlow hhigh (h.sound.withBoot hbefore hroom stack).toFiled hspawn
  | identityMapped hmap =>
      exact (KernelMemory.identityMap_prepares h.stocked hmap).saved frame hframe
  | heapCreated hcreate =>
      exact (KernelMemory.createHeap_prepares h.stocked hcreate).saved frame hframe
  | heapRefused hcreate =>
      exact (KernelMemory.createHeap_prepares h.stocked hcreate).saved frame hframe
  | heapEnabled _ _ _ henable => rw [KernelMemory.enableHeap_eq_ok henable]
  | rangeUnmapped _ hunmap => exact Sheltered.stays hin (KernelMemory.unmapRange_saved hunmap)
  | @written addr size hwritable =>
      have hclear := h.writable_clear hm owned off hwritable
      unfold KernelStack.Clear at hclear
      exact Ram.frameAt?_overwrite (by omega)

/-! ## Until the process runs -/

/-- A process that has not run yet, with the registers that were built for it where it starts. -/
structure Poised (m : Machine) (request : SpawnRequest) (p : Process) : Prop where
  found : m.system.scheduler.process? p.pid = some p
  off : m.system.scheduler.current ≠ some p.pid
  owned : p.stack.owned = true
  size : p.stack.size = request.stackSize
  room : minStackSize ≤ request.stackSize
  flags : p.flags = request.flags
  placed : p.stack.Placed p.flags p.frame
  saved : m.system.memory.space.ram.frameAt? p.frame =
    some (Registers.initial request.entry request.arg request.flags)

/-- The states that a machine goes through until the process of a given number leaves the table or
gets the processor. -/
inductive Waiting (base maxSize : Nat) (pid : Pid) (m : Machine) : Machine → Prop
  | refl : Waiting base maxSize pid m m
  | moved {m' m'' : Machine} :
      Waiting base maxSize pid m m' → Move base maxSize m' m'' →
      pid ∈ m''.system.scheduler.pids → m''.system.scheduler.current ≠ some pid →
      Waiting base maxSize pid m m''

/-- Whoever does not have the processor keeps flags, stack and frame. -/
theorem Move.keeps (hmove : Move base maxSize m m') (sound : m.system.scheduler.Sound)
    (hp : m.system.scheduler.process? pid = some p)
    (hq : m'.system.scheduler.process? pid = some q)
    (off : m.system.scheduler.current ≠ some pid) :
    q.flags = p.flags ∧ q.stack = p.stack ∧ q.frame = p.frame := by
  have hsame : m'.system.scheduler.process? pid = some p →
      q.flags = p.flags ∧ q.stack = p.stack ∧ q.frame = p.frame := by
    intro hold
    obtain rfl := Option.some.inj (hold.symm.trans hq)
    exact ⟨rfl, rfl, rfl⟩
  cases hmove with
  | stepped hs =>
      obtain ⟨hflags, hstack, -⟩ := hs.keeps sound hp hq
      rcases hs.keeps_frame sound hp hq with hframe | ⟨-, -, -, hcurrent, -⟩
      · exact ⟨hflags, hstack, hframe⟩
      · exact absurd hcurrent off
  | started _ _ hstart => exact hsame (System.start_keeps sound hstart hp)
  | identityMapped => exact hsame hp
  | heapCreated => exact hsame hp
  | heapRefused => exact hsame hp
  | heapEnabled => exact hsame hp
  | rangeUnmapped => exact hsame hp
  | written => exact hsame hp

theorem Poised.moved (h : m.Poised request p) (sane : m.Sane info base maxSize)
    (apart : base + maxSize ≤ info.staticStart ∨ info.placementLimit ≤ base)
    (hmove : Move base maxSize m m') (stays : p.pid ∈ m'.system.scheduler.pids)
    (off : m'.system.scheduler.current ≠ some p.pid) :
    ∃ q, q.pid = p.pid ∧ m'.Poised request q := by
  obtain ⟨q, hq⟩ := Scheduler.exists_process? stays
  obtain ⟨-, hpid⟩ := Scheduler.process?_mem hq
  obtain ⟨hflags, hstack, hframe⟩ := hmove.keeps sane.sound h.found hq h.off
  have hsaved := sane.saved apart hmove h.found h.owned h.off h.placed.above h.placed.below
  refine ⟨q, hpid, hpid ▸ hq, hpid ▸ off, ?_, ?_, h.room, hflags.trans h.flags, ?_, ?_⟩
  · rw [hstack, h.owned]
  · rw [hstack, h.size]
  · rw [hstack, hflags, hframe]
    exact h.placed
  · rw [hframe, hsaved, h.saved]

/-- The switch that gives it the processor resumes a process from its frame. -/
theorem Poised.resumes (h : m.Poised request p) (sound : m.system.scheduler.Sound) {frame : Nat}
    {cpu : Processor} {switched : Scheduler.Switched}
    (hswitch : (m.system.scheduler.switch frame m.system.memory cpu).result = .ok switched)
    (now : switched.scheduler.current = some p.pid) :
    switched.resume = p.frame ∧ switched.memory.space.ram.frameAt? switched.resume =
      some (Registers.initial request.entry request.arg request.flags) := by
  have hresume : switched.resume = p.frame := by
    cases hcurrent : m.system.scheduler.current with
    | none =>
        rcases Scheduler.switch_eq_ok hswitch with ⟨-, rfl⟩ | ⟨_, _, _, _, hsome, -⟩
        · exact absurd now h.off
        · simp [hcurrent] at hsome
    | some previous =>
        obtain ⟨next, hhanded, hresume, -⟩ := sound.switch_handed hcurrent hswitch
        have hnext : next.pid = p.pid := Option.some.inj (hhanded.current.symm.trans now)
        rcases hhanded.waiting with hsame | ⟨hwaiting, -⟩
        · exact absurd (hcurrent.trans (congrArg some (hsame.symm.trans hnext))) h.off
        · rw [hnext, h.found] at hwaiting
          rw [hresume, Option.some.inj hwaiting]
  refine ⟨hresume, ?_⟩
  rw [hresume, ← h.saved]
  exact Ram.frameAt?_congr (Scheduler.switch_saved hswitch) _

end Machine

theorem Scheduler.stackSize_of_spawn {s t : Scheduler} {request : SpawnRequest}
    {space : Option AddressSpace} {memory memory' : KernelMemory} {pid : Pid}
    (h : (s.spawn request space memory).result = .ok (.ok pid, t, memory')) :
    minStackSize ≤ request.stackSize := by
  by_contra hsmall
  unfold spawn at h
  split at h
  · obtain ⟨hanswer, -⟩ := refuseSpawn_eq_ok h
    contradiction
  · rw [if_pos (Nat.lt_of_not_le hsmall)] at h
    obtain ⟨hanswer, -⟩ := refuseSpawn_eq_ok h
    contradiction

namespace Machine

variable {info : BootInfo} {base maxSize : Nat} {m m' : Machine} {pid : Pid} {p : Process}
  {request : SpawnRequest}

theorem poised_of_spawn {s t : Scheduler} (sound : s.Sound) {space : Option AddressSpace}
    {memory : KernelMemory}
    (hspawn : (s.spawn request space memory).result = .ok (.ok pid, t, m.system.memory))
    (table : m.system.scheduler.processes = t.processes)
    (current : m.system.scheduler.current = t.current) : ∃ p, p.pid = pid ∧ m.Poised request p := by
  have hroom := Scheduler.stackSize_of_spawn hspawn
  rcases sound.toFiled.spawn_eq_ok hspawn with ⟨cause, -, hanswer, -⟩ |
    ⟨made, base, frame, granted, hanswer, hspawned, hplaced, -, hmemory⟩
  · contradiction
  obtain rfl := Except.ok.inj hanswer
  refine ⟨Scheduler.made request space pid base frame, rfl, ?_, ?_, rfl, rfl, hroom, rfl,
    KernelStack.placed_of_ok hplaced, ?_⟩
  · rw [Scheduler.process?, table]
    exact (hspawned.lookup _).trans (if_pos rfl)
  · rw [current, hspawned.current_eq]
    intro hcurrent
    obtain ⟨q, hq, -⟩ := sound.current _ hcurrent
    rw [hspawned.fresh] at hq
    contradiction
  · rw [hmemory]
    exact Ram.frameAt?_saveFrame_self _ _ _

/-! ## The first registers -/

structure Fresh (info : BootInfo) (m : Machine) (request : SpawnRequest) (p : Process) : Prop
    extends m.Poised request p where
  beside : m.Beside info p
  resumes : ∀ {frame cpu switched},
    (m.system.scheduler.switch frame m.system.memory cpu).result = .ok switched →
      switched.scheduler.current = some p.pid →
        switched.resume = p.frame ∧ switched.memory.space.ram.frameAt? switched.resume =
          some (Registers.initial request.entry request.arg request.flags)

theorem Poised.fresh (h : m.Poised request p) (sane : m.Sane info base maxSize)
    (apart : base + maxSize ≤ info.staticStart ∨ info.placementLimit ≤ base) :
    m.Fresh info request p where
  toPoised := h
  beside := sane.beside apart (Scheduler.process?_mem h.found).1 h.owned
  resumes := h.resumes sane.sound

theorem Waiting.fresh (h : Waiting base maxSize pid m m') (sane : m.Sane info base maxSize)
    (apart : base + maxSize ≤ info.staticStart ∨ info.placementLimit ≤ base)
    (poised : ∃ p, p.pid = pid ∧ m.Poised request p) :
    ∃ p, p.pid = pid ∧ m'.Fresh info request p := by
  have hkept : m'.Sane info base maxSize ∧ ∃ p, p.pid = pid ∧ m'.Poised request p := by
    induction h with
    | refl => exact ⟨sane, poised⟩
    | moved _ hmove hstays hoff ih =>
        obtain ⟨hsane, p, rfl, hpoised⟩ := ih
        exact ⟨hsane.move hmove, hpoised.moved hsane apart hmove hstays hoff⟩
  obtain ⟨hsane, p, hp, hpoised⟩ := hkept
  exact ⟨p, hp, hpoised.fresh hsane apart⟩

/-- How processes are made in a given state, and how they start. -/
structure StartsAsBuilt (info : BootInfo) (base maxSize : Nat) (m : Machine) : Prop where
  /-- With room in the table and a stack that is large enough, a process is made. -/
  makes : ∀ {request : SpawnRequest} {addr : Nat} {granted : KernelMemory},
    m.system.scheduler.processes.length < processCapacity → minStackSize ≤ request.stackSize →
    (m.system.memory.tryAlloc request.stackSize false).result = .ok (.ok addr, granted) →
      ∀ space, ∃ pid t memory,
        (m.system.scheduler.spawn request space m.system.memory).result = .ok (.ok pid, t, memory)
  /-- Until it gets the processor, its registers are those that were built. -/
  spawned : ∀ {request space pid t memory m'}, (∀ made ∈ space, made ∈ m.system.spaces) →
    (m.system.scheduler.spawn request space m.system.memory).result = .ok (.ok pid, t, memory) →
    Waiting base maxSize pid ⟨⟨t, memory, m.system.without space, m.system.blocks,
      .built pid (t.builtFrame pid) :: m.system.trail⟩, m.heaps⟩ m' →
        ∃ p, p.pid = pid ∧ m'.Fresh info request p
  /-- So are those of the idle process. -/
  started : ∀ {stack idleEntry t memory idle m'}, stack.owned = false →
    stack.Clear base maxSize →
    (m.system.scheduler.start stack idleEntry m.system.memory).result = .ok (t, memory) →
    t.idle = some idle →
    Waiting base maxSize idle ⟨⟨t, memory, m.system.spaces, m.system.blocks,
      (t.idle.map fun pid => .built pid (t.builtFrame pid)).toList ++ m.system.trail⟩, m.heaps⟩ m' →
        ∃ p, p.pid = idle ∧ m'.Fresh info (Scheduler.idleRequest idleEntry) p

/-- A process starts with the registers that its spawn built, on a stack that nothing else of the
kernel's overlaps, if the heap's window lies outside static memory and the boot code's stack. -/
theorem Reached.starts_as_built (h : Reached info base maxSize m)
    (apart : base + maxSize ≤ info.staticStart ∨ info.placementLimit ≤ base) :
    m.StartsAsBuilt info base maxSize := by
  have hsane := h.sane
  refine ⟨fun hroom hsize halloc space => ?_, fun inside hspawn hwaiting => ?_,
    fun borrowed clear hstart hidle hwaiting => ?_⟩
  · obtain ⟨-, hhigh, hword⟩ := hsane.granted halloc
    exact hsane.sound.toFiled.exists_spawn hroom _ hsize space halloc
      (Nat.lt_of_le_of_lt hhigh hword)
  · have hspawned := hsane.move (.stepped (.scheduler (.spawned inside hspawn)))
    exact hwaiting.fresh hspawned apart (poised_of_spawn hsane.sound hspawn rfl rfl)
  · have hstarted := hsane.move (.started borrowed clear hstart)
    obtain ⟨hbefore, hroom, made, u, hspawn, rfl⟩ := Scheduler.start_eq_ok hstart
    obtain rfl := Option.some.inj hidle
    exact hwaiting.fresh hstarted apart
      (poised_of_spawn (hsane.sound.withBoot hbefore hroom _) hspawn rfl rfl)

def sampleStart : Except Fault (Scheduler × KernelMemory × Heap) := do
  let booted ← (KernelMemory.boot KernelMemory.sampleInfo).result
  let (answer, created) ← (booted.createHeap 0x400000 0x401000 0x10000 .supervisor).result
  let .ok heap := answer | throw .raised
  let enabled ← (created.enableHeap heap).result
  let (s, memory) ← (Scheduler.empty.start ⟨0x80000, 0x4000, false⟩ 0x100000 enabled).result
  return (s, memory, heap)

theorem reached_sampleStart {s : Scheduler} {memory : KernelMemory} {heap : Heap}
    (h : sampleStart = .ok (s, memory, heap)) :
    ∃ trail, Reached KernelMemory.sampleInfo 0x400000 0x10000
      ⟨⟨s, memory, [], [], trail⟩, [heap]⟩ := by
  unfold sampleStart at h
  obtain ⟨booted, hboot, h⟩ := bind_eq_ok h
  obtain ⟨⟨answer, created⟩, hcreate, h⟩ := bind_eq_ok h
  rcases answer with cause | heap
  · simp at h
  obtain ⟨enabled, henable, h⟩ := bind_eq_ok h
  obtain ⟨⟨s, memory⟩, hstart, h⟩ := bind_eq_ok h
  obtain ⟨rfl, rfl, rfl⟩ := by
    simpa only [pure_eq_ok, Except.ok.injEq, Prod.mk.injEq] using h
  obtain ⟨hlow, hhigh, -⟩ := (KernelMemory.createHeap_tabled hcreate).2 heap rfl
  have hcreated : Reached KernelMemory.sampleInfo 0x400000 0x10000 _ :=
    (Reached.booted hboot).moved (.heapCreated hcreate)
  have henabled := hcreated.moved (.heapEnabled List.mem_cons_self hlow hhigh henable)
  exact ⟨_, henabled.moved (.started rfl (by decide) hstart)⟩

/-- A process in ring 3, on a stack that ends off the alignment. -/
def sampleRequest : SpawnRequest := ⟨0x102000, .normal, 7, 0x205, ⟨false, true⟩⟩

/-- An address space is made, a block is granted and written to, and another process is spawned
before the first one gets the processor. Answers for both spawns whether the first process is in the
table then and whether it has the processor, for the switch whether it has, and where it resumes. -/
def sampleWait : Except Fault ((Bool × Bool) × (Bool × Bool) × Bool × Nat) := do
  let (s, started, _) ← sampleStart
  let (answer, t, spawned) ← (s.spawn sampleRequest none started).result
  let .ok pid := answer | throw .raised
  let (answer, spaced) ← spawned.createSpace.result
  let .ok _ := answer | throw .raised
  let (answer, granted) ← (spaced.tryAlloc 0x40 false).result
  let .ok addr := answer | throw .raised
  let other : SpawnRequest := ⟨0x102000, .normal, 0, 0x100, ⟨true, false⟩⟩
  let (answer, u, memory) ← (t.spawn other none (granted.overwrite addr 0x40)).result
  let .ok _ := answer | throw .raised
  let switched ← (u.switch 0x83000 memory .reset).result
  return ((decide (pid ∈ t.pids), decide (t.current = some pid)),
    (decide (pid ∈ u.pids), decide (u.current = some pid)),
    decide (switched.scheduler.current = some pid), switched.resume)

/-- The process resumes below the aligned top of its stack, with its first registers. -/
theorem starts_as_built_beside_others :
    ∃ (m m' : Machine) (p : Process) (t : Scheduler) (memory : KernelMemory)
      (switched : Scheduler.Switched),
      Reached KernelMemory.sampleInfo 0x400000 0x10000 m ∧
        m.StartsAsBuilt KernelMemory.sampleInfo 0x400000 0x10000 ∧
        (m.system.scheduler.spawn sampleRequest none m.system.memory).result =
          .ok (.ok p.pid, t, memory) ∧
        m'.Fresh KernelMemory.sampleInfo sampleRequest p ∧
        m'.system.spaces ≠ [] ∧ m'.system.blocks ≠ [] ∧
        (m'.system.scheduler.switch 0x83000 m'.system.memory .reset).result = .ok switched ∧
        switched.scheduler.current = some p.pid ∧ switched.resume = 0x401190 ∧
        switched.memory.space.ram.frameAt? 0x401190 =
          some (Registers.initial 0x102000 7 ⟨false, true⟩) := by
  have hrun : sampleWait = .ok ((true, false), (true, false), true, 0x401190) := by
    decide +kernel
  unfold sampleWait at hrun
  obtain ⟨⟨s, started, heap⟩, hsample, hrun⟩ := bind_eq_ok hrun
  obtain ⟨⟨answer, t, spawned⟩, hspawn, hrun⟩ := bind_eq_ok hrun
  rcases answer with cause | pid
  · simp at hrun
  obtain ⟨⟨answer, spaced⟩, hspace, hrun⟩ := bind_eq_ok hrun
  rcases answer with cause | made
  · simp at hrun
  obtain ⟨⟨answer, granted⟩, halloc, hrun⟩ := bind_eq_ok hrun
  rcases answer with cause | addr
  · simp at hrun
  obtain ⟨⟨answer, u, memory⟩, hother, hrun⟩ := bind_eq_ok hrun
  rcases answer with cause | other
  · simp at hrun
  obtain ⟨switched, hswitch, hrun⟩ := bind_eq_ok hrun
  simp only [pure_eq_ok, Except.ok.injEq, Prod.mk.injEq, decide_eq_true_eq, decide_eq_false_iff_not]
    at hrun
  obtain ⟨⟨hstays, hoff⟩, ⟨hstays', hoff'⟩, hnow, hresume⟩ := hrun
  obtain ⟨trail, hreached⟩ := reached_sampleStart hsample
  have hbuilt := hreached.starts_as_built (.inr (by decide))
  have hspaced : Waiting 0x400000 0x10000 pid
      ⟨⟨t, spawned, [], [], .built pid (t.builtFrame pid) :: trail⟩, [heap]⟩ _ :=
    Waiting.refl.moved (.stepped (.memory (.spaceCreated hspace))) hstays hoff
  have hgranted := hspaced.moved (.stepped (.memory (.granted halloc))) hstays hoff
  have hblock : (⟨addr, rounded 0x40, true⟩ : Block) ∈ [(⟨addr, rounded 0x40, true⟩ : Block)] :=
    List.mem_singleton_self _
  have hinside : addr + 0x40 ≤ (⟨addr, rounded 0x40, true⟩ : Block).stop :=
    Nat.add_le_add_left (le_rounded _) _
  have hwritten :=
    hgranted.moved (.written (.block hblock (Nat.le_refl addr) hinside)) hstays hoff
  have hlast := hwritten.moved (.stepped (.scheduler (.spawned (by simp) hother))) hstays' hoff'
  obtain ⟨p, rfl, hfresh⟩ := hbuilt.spawned (by simp) hspawn hlast
  obtain ⟨-, hsaved⟩ := hfresh.resumes hswitch hnow
  refine ⟨_, _, p, t, spawned, switched, hreached, hbuilt, hspawn, hfresh, ?_, ?_, hswitch, hnow,
    hresume, ?_⟩
  · exact List.cons_ne_nil _ _
  · exact List.cons_ne_nil _ _
  · exact hresume ▸ hsaved

end Machine

end KernelCore
