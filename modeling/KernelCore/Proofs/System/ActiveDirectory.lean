import Mathlib
import KernelCore.Boot
import KernelCore.Proofs.System.Anchoring
import KernelCore.Proofs.System.Ownership

/-!
# The directory that is active

A switch compares the next process's directory with the one that the process before it should have
had, and never looks at the processor. Once the kernel directory has been loaded, the processor
nevertheless has the directory of the process that runs, and the kernel stack of that process if it
runs in ring 3.
-/

namespace KernelCore

/-! ## The processor -/

theorem KernelMemory.loadDirectory_eq (phys : Nat) (cpu : Processor) :
    loadDirectory phys cpu = cpu.loadDirectory phys := by
  obtain ⟨interrupts, paging, directory, loads, halts, kernelStack⟩ := cpu
  cases interrupts <;> rfl

theorem KernelMemory.activate_directory {memory : KernelMemory} {cpu cpu' : Processor}
    (h : (memory.activate cpu).result = .ok cpu') :
    cpu'.directory = some memory.directoryPhys := by
  unfold activate at h
  simp only [Traced.result_bind, Traced.result_note, ok_bind] at h
  obtain rfl := Except.ok.inj h
  obtain ⟨interrupts, paging, directory, loads, halts, kernelStack⟩ := cpu
  cases interrupts <;> rfl

namespace Scheduler

variable {s : Scheduler} {pid : Pid} {p next : Process} {kernel active : Nat} {cpu cpu' : Processor}

theorem install_eq_ok (h : install next kernel active cpu = .ok cpu')
    (loaded : cpu.directory = some active) :
    cpu'.directory = some (next.directoryPhys kernel) ∧
      cpu'.loads = cpu.loads + (if next.directoryPhys kernel = active then 0 else 1) ∧
      (next.flags.user = true →
        ∃ top, next.stack.top = .ok top ∧ cpu'.kernelStack = some top) := by
  obtain ⟨stacked, rfl, hdirectory, hloads, hstack⟩ : ∃ stacked : Processor,
      cpu' = (if next.directoryPhys kernel = active then stacked
        else KernelMemory.loadDirectory (next.directoryPhys kernel) stacked) ∧
      stacked.directory = cpu.directory ∧ stacked.loads = cpu.loads ∧
      (next.flags.user = true →
        ∃ top, next.stack.top = .ok top ∧ stacked.kernelStack = some top) := by
    unfold install at h
    split at h
    · obtain ⟨top, htop, h⟩ := bind_eq_ok h
      exact ⟨cpu.setKernelStack top, (Except.ok.inj h).symm, rfl, rfl, fun _ => ⟨top, htop, rfl⟩⟩
    · next hkernel =>
        exact ⟨cpu, (Except.ok.inj h).symm, rfl, rfl, fun huser => absurd huser hkernel⟩
  split
  · next hsame => exact ⟨by rw [hdirectory, loaded, hsame], hloads, hstack⟩
  · rw [KernelMemory.loadDirectory_eq]
    exact ⟨rfl, congrArg (· + 1) hloads, hstack⟩

theorem Sound.directoryOf_withoutEnded (h : s.Sound) (current : s.current = some pid)
    (hp : s.process? pid = some p) (kernel : Nat) :
    s.withoutEnded.directoryOf pid kernel = p.directoryPhys kernel := by
  have hfound := process?_withoutEnded_of_live h.distinct hp (.inr (.inr current))
  rw [directoryOf, hfound]
  rfl

end Scheduler

/-! ## Runs with a processor -/

/-- Kernel memory before its heap is in use, beside a processor; `loaded` tells whether the kernel
directory was loaded. -/
inductive KernelMemory.Raised (info : BootInfo) : Bool → KernelMemory → Processor → Prop
  | boot {memory : KernelMemory} {cpu : Processor} :
      (boot info).result = .ok memory → Raised info false memory cpu
  | activated {loaded : Bool} {memory : KernelMemory} {cpu cpu' : Processor} :
      Raised info loaded memory cpu → (memory.activate cpu).result = .ok cpu' →
      Raised info true memory cpu'
  | identityMapped {loaded : Bool} {memory memory' : KernelMemory} {cpu : Processor}
      {start stop : Nat} :
      Raised info loaded memory cpu → (memory.identityMap start stop).result = .ok memory' →
      Raised info loaded memory' cpu
  | heapCreated {loaded : Bool} {memory memory' : KernelMemory} {cpu : Processor}
      {start stop maxSize : Nat} {flags : HeapFlags} {answer : Except HeapError Heap} :
      Raised info loaded memory cpu →
      (memory.createHeap start stop maxSize flags).result = .ok (answer, memory') →
      Raised info loaded memory' cpu

theorem KernelMemory.Raised.directory {info : BootInfo} {loaded : Bool} {memory : KernelMemory}
    {cpu : Processor} (h : Raised info loaded memory cpu) (activated : loaded = true) :
    cpu.directory = some memory.directoryPhys := by
  induction h with
  | boot => simp at activated
  | activated _ hactivate => exact activate_directory hactivate
  | identityMapped _ hmap ih => rw [ih activated, (identityMap_stays hmap).root]
  | heapCreated _ hcreate ih => rw [ih activated, (createHeap_stays hcreate).1.root]

namespace System

/-- The calls that change mappings whatever they are for: an address space may unmap pages of tables
that it borrows, and the kernel may map more of static memory or make a heap beside its own. -/
inductive Remapping (sys : System) : KernelMemory → Prop
  | unmapped {made : AddressSpace} {start stop : Nat} {memory : KernelMemory} :
      made ∈ sys.spaces → (sys.memory.unmapRange made start stop).result = .ok memory →
      Remapping sys memory
  | identityMapped {start stop : Nat} {memory : KernelMemory} :
      (sys.memory.identityMap start stop).result = .ok memory → Remapping sys memory
  | heapCreated {start stop maxSize : Nat} {flags : HeapFlags} {answer : Except HeapError Heap}
      {memory : KernelMemory} :
      (sys.memory.createHeap start stop maxSize flags).result = .ok (answer, memory) →
      Remapping sys memory

/-- One step of a system on its processor. Only a switch loads directories and sets the kernel
stack; all else that is done to the processor leaves both alone. -/
inductive Turn (sys : System) (cpu : Processor) : System → Processor → Prop
  | switched {frame : Nat} {switched : Scheduler.Switched} :
      (sys.scheduler.switch frame sys.memory cpu).result = .ok switched →
      Turn sys cpu ⟨switched.scheduler, switched.memory, sys.spaces, sys.blocks,
        sys.departure frame ++ sys.trail⟩ switched.cpu
  | called {sys' : System} :
      Step sys sys' → sys'.scheduler.current = sys.scheduler.current → Turn sys cpu sys' cpu
  | remapped {memory : KernelMemory} :
      Remapping sys memory → Turn sys cpu { sys with memory } cpu
  | aside {cpu' : Processor} :
      cpu'.directory = cpu.directory → cpu'.loads = cpu.loads →
      cpu'.kernelStack = cpu.kernelStack → Turn sys cpu sys cpu'

/-- The states that a run comes to from when the heap is put to use. The kernel directory is loaded
by an activation before the scheduler starts. -/
inductive Driven (info : BootInfo) : Bool → Bool → System → Processor → Prop
  | enabled {loaded : Bool} {memory created memory' : KernelMemory} {cpu : Processor}
      {start stop maxSize : Nat} {flags : HeapFlags} {heap : Heap} :
      KernelMemory.Raised info loaded memory cpu →
      (memory.createHeap start stop maxSize flags).result = .ok (.ok heap, created) →
      (created.enableHeap heap).result = .ok memory' →
      Driven info loaded false ⟨.empty, memory', [], [], []⟩ cpu
  | activated {loaded : Bool} {sys : System} {cpu cpu' : Processor} :
      Driven info loaded false sys cpu → (sys.memory.activate cpu).result = .ok cpu' →
      Driven info true false sys cpu'
  | turn {loaded started : Bool} {sys sys' : System} {cpu cpu' : Processor} :
      Driven info loaded started sys cpu → Turn sys cpu sys' cpu' →
      Driven info loaded started sys' cpu'
  | started {loaded : Bool} {sys : System} {cpu : Processor} {stack : KernelStack}
      {idleEntry : Nat} {t : Scheduler} {memory : KernelMemory} :
      Driven info loaded false sys cpu → stack.owned = false →
      (sys.scheduler.start stack idleEntry sys.memory).result = .ok (t, memory) →
      Driven info loaded true ⟨t, memory, sys.spaces, sys.blocks,
        (t.idle.map fun pid => .built pid (t.builtFrame pid)).toList ++ sys.trail⟩ cpu

variable {info : BootInfo} {loaded started : Bool} {sys sys' : System} {cpu cpu' : Processor}
  {p q : Process}

/-- Every step that is no switch is a turn on any processor. -/
theorem Step.turn (hs : Step sys sys') (h : sys.scheduler.Sound) (cpu : Processor) :
    Turn sys cpu sys' cpu ∨ ∃ frame other switched,
      (sys.scheduler.switch frame sys.memory other).result = .ok switched ∧
        sys'.scheduler = switched.scheduler := by
  rcases (hs.passage h).continues h with ⟨-, hcurrent⟩ |
    ⟨frame, other, switched, -, -, -, hswitch, hsame, -⟩
  · exact .inl (.called hs hcurrent)
  · exact .inr ⟨frame, other, switched, hswitch, hsame⟩

theorem driven_of_start {layout : HeapLayout} {memory : KernelMemory}
    (h : (KernelMemory.start info layout cpu).result = .ok (memory, cpu')) :
    Driven info true false ⟨.empty, memory, [], [], []⟩ cpu' := by
  unfold KernelMemory.start at h
  simp only [Traced.result_bind, Traced.result_lift] at h
  obtain ⟨booted, hboot, h⟩ := bind_eq_ok h
  obtain ⟨activated, hactivate, h⟩ := bind_eq_ok h
  obtain ⟨stop, -, h⟩ := bind_eq_ok h
  obtain ⟨⟨answer, created⟩, hcreate, h⟩ := bind_eq_ok h
  cases answer with
  | error cause => simp at h
  | ok heap =>
      simp only [Traced.result_bind] at h
      obtain ⟨enabled, henable, h⟩ := bind_eq_ok h
      obtain ⟨rfl, rfl⟩ := Prod.mk.inj (Except.ok.inj h)
      exact .enabled (.activated (.boot hboot) hactivate) hcreate henable

/-! ## What a turn preserves -/

theorem Remapping.stays {memory : KernelMemory} (h : Remapping sys memory) :
    sys.memory.Stays memory := by
  cases h with
  | unmapped _ hunmap => exact KernelMemory.unmapRange_stays hunmap
  | identityMapped hmap => exact KernelMemory.identityMap_stays hmap
  | heapCreated hcreate => exact (KernelMemory.createHeap_stays hcreate).1

theorem Turn.covered (hturn : Turn sys cpu sys' cpu') (h : Covered sys) : Covered sys' := by
  cases hturn with
  | switched hswitch => exact h.step KernelMemory.Reserves.account (.scheduler (.switched hswitch))
  | called hs _ => exact h.step KernelMemory.Reserves.account hs
  | remapped hremap =>
      obtain ⟨heap, hheap, hallocated⟩ := h.kept
      exact ⟨h.sound, ⟨heap, hremap.stays.heap.trans hheap, hallocated⟩, h.lends, h.boot⟩
  | aside => exact h

theorem Turn.root (hturn : Turn sys cpu sys' cpu') (h : Covered sys) :
    sys'.memory.directoryPhys = sys.memory.directoryPhys := by
  cases hturn with
  | switched hswitch => exact h.step_root (.scheduler (.switched hswitch))
  | called hs _ => exact h.step_root hs
  | remapped hremap => exact hremap.stays.root
  | aside => rfl

theorem Turn.running (hturn : Turn sys cpu sys' cpu') (h : sys.scheduler.Sound) :
    sys'.scheduler.current.isSome = sys.scheduler.current.isSome := by
  cases hturn with
  | switched hswitch => exact (h.switched hswitch).2.1
  | called _ hsame => rw [hsame]
  | remapped => rfl
  | aside => rfl

theorem Driven.covered (h : Driven info loaded started sys cpu) :
    Covered sys ∧ sys.scheduler.current.isSome = started := by
  induction h with
  | enabled _ hcreate henable =>
      obtain ⟨hvalid, hused⟩ := (KernelMemory.createHeap_stays hcreate).2 _ rfl
      obtain rfl := KernelMemory.enableHeap_eq_ok henable
      refine ⟨⟨Scheduler.sound_empty, ⟨_, rfl, hvalid, List.nil_subperm⟩, by simp, ?_⟩, rfl⟩
      simp [Scheduler.estates, Scheduler.empty]
  | activated _ _ ih => exact ih
  | turn _ hturn ih => exact ⟨hturn.covered ih.1, (hturn.running ih.1.sound).trans ih.2⟩
  | started _ borrowed hstart ih =>
      have hcovered := ih.1.start KernelMemory.Reserves.account borrowed hstart
      exact ⟨⟨hcovered.sound, hcovered.kept, hcovered.lends, hcovered.boot⟩,
        (ih.1.sound.started hstart).2.1⟩

/-! ## What the processor is set to -/

def Runs (sys : System) (p : Process) : Prop :=
  sys.scheduler.current = some p.pid ∧ sys.scheduler.process? p.pid = some p

def directoryOf (sys : System) (p : Process) : Nat := p.directoryPhys sys.memory.directoryPhys

theorem directoryOf_eq (root : sys'.memory.directoryPhys = sys.memory.directoryPhys)
    (space : q.space = p.space) : sys'.directoryOf q = sys.directoryOf p := by
  rw [directoryOf, Process.directoryPhys, space, root]
  rfl

/-- The processor is set up for the process on it. -/
structure Serves (sys : System) (cpu : Processor) (p : Process) : Prop where
  runs : sys.Runs p
  directory : cpu.directory = some (sys.directoryOf p)
  stack : p.flags.user = true → ∃ top, p.stack.top = .ok top ∧ cpu.kernelStack = some top

/-- Whoever runs with what `p` had is served without another directory being loaded. -/
theorem Serves.stays (h : sys.Serves cpu p) (runs : sys'.Runs q) (flags : q.flags = p.flags)
    (stack : q.stack = p.stack) (same : sys'.directoryOf q = sys.directoryOf p) :
    sys'.Serves cpu q ∧
      cpu.loads = cpu.loads + if sys'.directoryOf q = sys.directoryOf p then 0 else 1 := by
  refine ⟨⟨runs, ?_, ?_⟩, by rw [if_pos same]; rfl⟩
  · rw [same]
    exact h.directory
  · rw [flags, stack]
    exact h.stack

/-- How a processor that serves `p` changes in a turn: it serves whoever runs then, and has loaded a
directory if that one's is another. -/
theorem Serves.turn (h : sys.Serves cpu p) (covered : Covered sys) (hturn : Turn sys cpu sys' cpu') :
    ∃ q, sys'.Serves cpu' q ∧
      cpu'.loads = cpu.loads + if sys'.directoryOf q = sys.directoryOf p then 0 else 1 := by
  obtain ⟨hcurrent, hp⟩ := h.runs
  have hsound := covered.sound
  have hkernel := hturn.root covered
  cases hturn with
  | @switched frame switched hswitch =>
      simp only at hkernel
      obtain ⟨next, hhanded, -, hinstall⟩ := hsound.switch_handed hcurrent hswitch
      rw [hkernel, hsound.directoryOf_withoutEnded hcurrent hp] at hinstall
      obtain ⟨hloaded, hloads, htop⟩ := Scheduler.install_eq_ok hinstall h.directory
      refine ⟨{ next with state := .running }, ⟨⟨hhanded.current, hhanded.found⟩, ?_, htop⟩, ?_⟩
      · rw [directoryOf, hkernel]
        exact hloaded
      · rw [directoryOf, hkernel]
        exact hloads
  | called hs hsame =>
      have hcurrent' := hsame.trans hcurrent
      have hsound' := (covered.step KernelMemory.Reserves.account hs).sound
      obtain ⟨q, hq, -⟩ := hsound'.current _ hcurrent'
      have hpid : q.pid = p.pid := (Scheduler.process?_mem hq).2
      obtain ⟨hflags, hstays, hspace, -⟩ := hs.keeps hsound hp hq
      have hruns : sys'.Runs q := ⟨hpid ▸ hcurrent', hpid ▸ hq⟩
      exact ⟨q, h.stays hruns hflags hstays (directoryOf_eq hkernel hspace)⟩
  | remapped hremap => exact ⟨p, h.stays ⟨hcurrent, hp⟩ rfl rfl (directoryOf_eq hkernel rfl)⟩
  | aside hdirectory hloads hstack =>
      refine ⟨p, ⟨⟨hcurrent, hp⟩, hdirectory.trans h.directory, ?_⟩, ?_⟩
      · rw [hstack]
        exact h.stack
      · rw [if_pos rfl]
        exact hloads

/-- Before the scheduler starts, nobody runs, so no switch changes anything. -/
theorem Turn.keeps_kernel (hturn : Turn sys cpu sys' cpu') (covered : Covered sys)
    (before : sys.scheduler.current = none)
    (directory : cpu.directory = some sys.memory.directoryPhys) :
    cpu'.directory = some sys'.memory.directoryPhys := by
  rw [hturn.root covered]
  cases hturn with
  | switched hswitch =>
      rcases Scheduler.switch_eq_ok hswitch with ⟨-, rfl⟩ | ⟨previous, _, _, _, hsome, -⟩
      · exact directory
      · simp [before] at hsome
  | called => exact directory
  | remapped => exact directory
  | aside hsame => exact hsame.trans directory

/-- The boot code goes on with the kernel directory, in ring 0. -/
theorem Covered.start_serves (h : Covered sys) {stack : KernelStack}
    (borrowed : stack.owned = false) {idleEntry : Nat} {t : Scheduler} {memory : KernelMemory}
    (hstart : (sys.scheduler.start stack idleEntry sys.memory).result = .ok (t, memory))
    (directory : cpu.directory = some sys.memory.directoryPhys) (trail : List Saving) :
    ∃ p, Serves ⟨t, memory, sys.spaces, sys.blocks, trail⟩ cpu p := by
  have hkernel := h.start_root borrowed hstart
  obtain ⟨hbefore, hroom, idle, u, hspawn, rfl⟩ := Scheduler.start_eq_ok hstart
  have hboot := h.sound.withBoot hbefore hroom stack
  rcases hboot.toFiled.spawn_cases hspawn with ⟨cause, hanswer, -⟩ | ⟨q, -, hspawned⟩
  · simp at hanswer
  have hfound := hspawned.keeps_old
    ((h.sound.process?_withBoot stack sys.scheduler.allocatePid.1).trans (if_pos rfl))
  refine ⟨Scheduler.bootProcess sys.scheduler.allocatePid.1 stack,
    ⟨hspawned.current_eq, hfound⟩, ?_, by simp [Scheduler.bootProcess]⟩
  rw [directory, ← hkernel]
  simp [directoryOf, Process.directoryPhys, Scheduler.bootProcess]

theorem Driven.directory (h : Driven info loaded started sys cpu) (activated : loaded = true)
    (before : started = false) : cpu.directory = some sys.memory.directoryPhys := by
  induction h with
  | enabled hraised hcreate henable =>
      rw [hraised.directory activated, ← (KernelMemory.createHeap_stays hcreate).1.root,
        KernelMemory.enableHeap_eq_ok henable]
      rfl
  | activated _ hactivate => exact KernelMemory.activate_directory hactivate
  | turn hdriven hturn ih =>
      obtain ⟨hcovered, hcurrent⟩ := hdriven.covered
      exact hturn.keeps_kernel hcovered (by simpa [before] using hcurrent) (ih activated before)
  | started => simp at before

theorem Driven.serves (h : Driven info loaded started sys cpu) (activated : loaded = true)
    (running : started = true) : ∃ p, sys.Serves cpu p := by
  induction h with
  | enabled => simp at running
  | activated => simp at running
  | turn hdriven hturn ih =>
      obtain ⟨p, hserves⟩ := ih activated running
      obtain ⟨q, hserves', -⟩ := hserves.turn hdriven.covered.1 hturn
      exact ⟨q, hserves'⟩
  | started hdriven borrowed hstart =>
      exact hdriven.covered.1.start_serves borrowed hstart (hdriven.directory activated rfl) _

theorem Covered.holdings_live (h : Covered sys) : sys.holdings.Subperm sys.memory.live := by
  obtain ⟨heap, hheap, hallocated⟩ := h.kept
  rw [KernelMemory.live, hheap]
  exact sys.perm_holdings.subperm.trans hallocated.inside

structure Follows (sys : System) (cpu : Processor) (p : Process) : Prop
    extends Serves sys cpu p where
  /-- The address space that is active has not been given back. -/
  live : ∀ made ∈ p.space, ∀ block ∈ made.blocks, block ∈ sys.memory.live
  /-- No block is held twice, so nobody else can give it back. -/
  held : sys.holdings.Subperm sys.memory.live
  /-- A directory is loaded exactly when another one is to be active. -/
  loads : ∀ {sys' cpu'}, Turn sys cpu sys' cpu' → ∃ q, sys'.Runs q ∧
    cpu'.loads = cpu.loads + if sys'.directoryOf q = sys.directoryOf p then 0 else 1

/-- Once the scheduler has started, the processor has the directory of the process on it, which is
the kernel's or that of an address space that is still held, and in ring 3 the top of that process's
kernel stack. It loads a directory when a switch comes to a process with another one, and at no other
time. -/
theorem Driven.directory_follows (h : Driven info true true sys cpu) :
    ∃ p, sys.Follows cpu p := by
  obtain ⟨p, hserves⟩ := h.serves rfl rfl
  have hcovered := h.covered.1
  refine ⟨p, hserves, ?_, hcovered.holdings_live, ?_⟩
  · intro made hmade block hblock
    apply hcovered.holdings_live.subset
    have hm := (Scheduler.process?_mem hserves.runs.2).1
    refine List.mem_append_right _ (List.mem_flatMap.mpr ⟨p, hm, List.mem_append_right _ ?_⟩)
    exact List.mem_flatMap.mpr ⟨made, by simpa using hmade, hblock⟩
  · intro sys' cpu' hturn
    obtain ⟨q, hserves', hloads⟩ := hserves.turn hcovered hturn
    exact ⟨q, hserves'.runs, hloads⟩

/-! ## A short run -/

/-- Memory is brought up with the kernel directory loaded, and a process that runs in ring 3 in an
address space of its own gets the processor from the boot code. -/
def sampleDrive : Except Fault Scheduler.Switched := do
  let layout : HeapLayout := ⟨0x400000, 0x1000, 0x10000⟩
  let (memory, cpu) ← (KernelMemory.start KernelMemory.sampleInfo layout .reset).result
  let (answer, memory) ← memory.createSpace.result
  let .ok space := answer | throw .raised
  let (s, memory) ← (Scheduler.empty.start ⟨0x80000, 0x4000, false⟩ 0x100000 memory).result
  let request : SpawnRequest := ⟨0x102000, .normal, 0, 0x200, ⟨false, true⟩⟩
  let (answer, s, memory) ← (s.spawn request (some space) memory).result
  let .ok _ := answer | throw .raised
  (s.switch 0x83000 memory cpu).result

theorem driven_sampleDrive {switched : Scheduler.Switched} (h : sampleDrive = .ok switched) :
    ∃ trail, Driven KernelMemory.sampleInfo true true
      ⟨switched.scheduler, switched.memory, [], [], trail⟩ switched.cpu := by
  unfold sampleDrive at h
  obtain ⟨⟨memory, cpu⟩, hup, h⟩ := bind_eq_ok h
  obtain ⟨⟨answer, spaced⟩, hspace, h⟩ := bind_eq_ok h
  rcases answer with cause | space
  · simp at h
  obtain ⟨⟨t, started⟩, hstart, h⟩ := bind_eq_ok h
  obtain ⟨⟨answer, u, spawned⟩, hspawn, hswitch⟩ := bind_eq_ok h
  rcases answer with cause | pid
  · simp at hswitch
  have hspaced := (driven_of_start hup).turn (.called (.memory (.spaceCreated hspace)) rfl)
  have hstarted := hspaced.started rfl hstart
  have hinside : ∀ made ∈ some space, made ∈ [space] := by simp
  have hkeeps : u.current = t.current := by
    have hfiled := hstarted.covered.1.sound.toFiled
    rcases hfiled.spawn_cases hspawn with ⟨cause, hanswer, -⟩ | ⟨p, -, hentered⟩
    · simp at hanswer
    · exact hentered.current_eq
  have hspawned := hstarted.turn (.called (.scheduler (.spawned hinside hspawn)) hkeeps)
  have hswitched := hspawned.turn (.switched hswitch)
  exact ⟨_, by simpa [without] using hswitched⟩

/-- The second directory that is loaded is that of the process, and its stack ends at `0x406200`. -/
theorem directory_follows_user_process :
    ∃ (sys : System) (cpu : Processor) (p : Process), sys.Follows cpu p ∧ p.flags.user = true ∧
      cpu.loads = 2 ∧ sys.directoryOf p ≠ sys.memory.directoryPhys ∧
      cpu.kernelStack = some 0x406200 := by
  have hstate : (do
      let switched ← sampleDrive
      return ((switched.scheduler.current.bind switched.scheduler.process?).map fun p =>
          (p.flags.user, decide (p.directoryPhys switched.memory.directoryPhys ≠
            switched.memory.directoryPhys)),
        switched.cpu.loads, switched.cpu.kernelStack) :
        Except Fault (Option (Bool × Bool) × Nat × Option Nat)) =
      .ok (some (true, true), 2, some 0x406200) := by decide +kernel
  obtain ⟨switched, hsample, hstate⟩ := bind_eq_ok hstate
  simp only [pure_eq_ok, Except.ok.injEq, Prod.mk.injEq] at hstate
  obtain ⟨hprocess, hloads, hstack⟩ := hstate
  obtain ⟨trail, hdriven⟩ := driven_sampleDrive hsample
  obtain ⟨p, hfollows⟩ := hdriven.directory_follows
  obtain ⟨hcurrent, hp⟩ := hfollows.runs
  simp only at hcurrent hp
  rw [hcurrent, Option.bind_some, hp] at hprocess
  simp only [Option.map_some, Option.some.injEq, Prod.mk.injEq, decide_eq_true_eq] at hprocess
  exact ⟨_, _, p, hfollows, hprocess.1, hloads, hprocess.2, hstack⟩

end System

end KernelCore
