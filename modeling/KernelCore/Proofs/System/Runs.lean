import Mathlib
import KernelCore.Proofs.Memory.Runs
import KernelCore.Proofs.Scheduler.Runs
import KernelCore.Proofs.System.Holdings

/-!
# Runs of the scheduler and the memory together

A run starts with a booted memory whose heap is in use and an empty scheduler. Callers allocate,
free, make, map and destroy address spaces, and hand spaces to the processes they spawn; the
scheduler spawns, switches, ends and reaps. Beside both it keeps what the callers hold and where
the registers of processes were put. Throughout, the used blocks of the heap are those that callers
and processes hold.
-/

namespace KernelCore

open Heap

def Scheduler.builtFrame (s : Scheduler) (pid : Pid) : Nat :=
  ((s.process? pid).bind fun p => (p.stack.placeInitialFrame p.flags).toOption).getD 0

/-- Registers put on a stack: built there for a new process, or left there by an interrupt. -/
inductive Saving where
  | built (pid : Pid) (frame : Nat)
  | left (pid : Pid) (frame : Nat)
deriving DecidableEq, Repr

/-- The scheduler, the memory, and what the callers hold of it. -/
structure System where
  scheduler : Scheduler
  memory : KernelMemory
  /-- The callers' address spaces. -/
  spaces : List AddressSpace
  /-- The callers' heap blocks. -/
  blocks : List Block
  /-- Where registers were put so far, the latest first. -/
  trail : List Saving

namespace System

def holdings (sys : System) : List Block :=
  sys.blocks ++ sys.spaces.flatMap (·.blocks) ++ sys.scheduler.processes.flatMap (·.blocks)

def without (sys : System) : Option AddressSpace → List AddressSpace
  | some made => sys.spaces.erase made
  | none => sys.spaces

/-- What a switch adds to the trail: the process that is interrupted, if there is one. -/
def departure (sys : System) (frame : Nat) : List Saving :=
  (sys.scheduler.current.map (Saving.left · frame)).toList

/-! ## Steps -/

/-- One call of the callers' own that comes back. They free and pass on only what they hold, and
unmap only pages of private tables. -/
inductive MemoryCall (sys : System) : System → Prop
  | granted {size addr : Nat} {pageAligned : Bool} {memory : KernelMemory} :
      (sys.memory.tryAlloc size pageAligned).result = .ok (.ok addr, memory) →
      MemoryCall sys { sys with memory, blocks := ⟨addr, rounded size, true⟩ :: sys.blocks }
  | refused {size : Nat} {pageAligned : Bool} {cause : HeapError} {memory : KernelMemory} :
      (sys.memory.tryAlloc size pageAligned).result = .ok (.error cause, memory) →
      MemoryCall sys { sys with memory }
  | freed {block : Block} {memory : KernelMemory} :
      block ∈ sys.blocks → (sys.memory.free block.addr).result = .ok memory →
      MemoryCall sys { sys with memory, blocks := sys.blocks.erase block }
  | faultHandled {addr error : Nat} {answer : Option PageFaultError} {memory : KernelMemory} :
      (sys.memory.resolveFault addr error).result = .ok (answer, memory) →
      MemoryCall sys { sys with memory }
  | spaceCreated {made : AddressSpace} {memory : KernelMemory} :
      sys.memory.createSpace.result = .ok (.ok made, memory) →
      MemoryCall sys { sys with memory, spaces := made :: sys.spaces }
  | spaceRefused {cause : HeapError} {memory : KernelMemory} :
      sys.memory.createSpace.result = .ok (.error cause, memory) →
      MemoryCall sys { sys with memory }
  | rangeMapped {made made' : AddressSpace} {start stop : Nat} {flags : HeapFlags}
      {answer : Option PagingError} {memory : KernelMemory} :
      made ∈ sys.spaces →
      (sys.memory.mapRange made start stop flags).result = .ok (answer, made', memory) →
      MemoryCall sys { sys with memory, spaces := made' :: sys.spaces.erase made }
  | rangeUnmapped {made : AddressSpace} {start stop : Nat} {memory : KernelMemory} :
      made ∈ sys.spaces → made.directory.Private start stop →
      (sys.memory.unmapRange made start stop).result = .ok memory →
      MemoryCall sys { sys with memory }
  | spaceDestroyed {made : AddressSpace} {memory : KernelMemory} :
      made ∈ sys.spaces → (sys.memory.destroySpace made).result = .ok memory →
      MemoryCall sys { sys with memory, spaces := sys.spaces.erase made }

/-- One operation of the scheduler that comes back. A space given to a spawn is the callers' no
more, whether the spawn succeeds or not. -/
inductive SchedulerCall (sys : System) : System → Prop
  | spawned {request : SpawnRequest} {space : Option AddressSpace} {pid : Pid} {t : Scheduler}
      {memory : KernelMemory} :
      (∀ made ∈ space, made ∈ sys.spaces) →
      (sys.scheduler.spawn request space sys.memory).result = .ok (.ok pid, t, memory) →
      SchedulerCall sys ⟨t, memory, sys.without space, sys.blocks,
        .built pid (t.builtFrame pid) :: sys.trail⟩
  | spawnRefused {request : SpawnRequest} {space : Option AddressSpace} {cause : SpawnError}
      {t : Scheduler} {memory : KernelMemory} :
      (∀ made ∈ space, made ∈ sys.spaces) →
      (sys.scheduler.spawn request space sys.memory).result = .ok (.error cause, t, memory) →
      SchedulerCall sys ⟨t, memory, sys.without space, sys.blocks, sys.trail⟩
  | switched {frame : Nat} {cpu : Processor} {switched : Scheduler.Switched} :
      (sys.scheduler.switch frame sys.memory cpu).result = .ok switched →
      SchedulerCall sys ⟨switched.scheduler, switched.memory, sys.spaces, sys.blocks,
        sys.departure frame ++ sys.trail⟩
  | exited {answer : Except SchedError Pid} {t : Scheduler} :
      sys.scheduler.exitCurrent.result = .ok (answer, t) →
      SchedulerCall sys { sys with scheduler := t }
  | killed {pid : Pid} {answer : Option SchedError} {t : Scheduler} {memory : KernelMemory} :
      (sys.scheduler.kill pid sys.memory).result = .ok (answer, t, memory) →
      SchedulerCall sys { sys with scheduler := t, memory }
  | prioritised (pid : Pid) (priority : Priority) :
      SchedulerCall sys { sys with scheduler := (sys.scheduler.setPriority pid priority).2 }
  | ticked (elapsed : Nat) :
      SchedulerCall sys { sys with scheduler := (sys.scheduler.onTick elapsed).2 }
  | armed (delay : Nat) (callback : Callback) (repeating : Bool) :
      SchedulerCall sys
        { sys with scheduler := (sys.scheduler.addTimer delay callback repeating).2 }
  | disarmed (id : TimerId) :
      SchedulerCall sys { sys with scheduler := (sys.scheduler.cancelTimer id).2 }

inductive Step (sys : System) : System → Prop
  | memory {sys' : System} : MemoryCall sys sys' → Step sys sys'
  | scheduler {sys' : System} : SchedulerCall sys sys' → Step sys sys'

/-- Booted memory right after its heap is put to use. The heap may take `maxSize` bytes from `base`
on. -/
inductive Enabled (info : BootInfo) (base maxSize : Nat) : KernelMemory → Prop
  | enabled {memory created memory' : KernelMemory} {stop : Nat} {flags : HeapFlags} {heap : Heap} :
      KernelMemory.Booting info memory →
      (memory.createHeap base stop maxSize flags).result = .ok (.ok heap, created) →
      (created.enableHeap heap).result = .ok memory' → Enabled info base maxSize memory'

/-- The states that a run comes to, before and after the scheduler starts. -/
inductive Reached (info : BootInfo) (base maxSize : Nat) : Bool → System → Prop
  | booted {memory : KernelMemory} :
      Enabled info base maxSize memory →
      Reached info base maxSize false ⟨.empty, memory, [], [], []⟩
  | step {started : Bool} {sys sys' : System} :
      Reached info base maxSize started sys → Step sys sys' →
      Reached info base maxSize started sys'
  | started {sys : System} {stack : KernelStack} {idleEntry : Nat} {t : Scheduler}
      {memory : KernelMemory} :
      Reached info base maxSize false sys → stack.owned = false →
      (sys.scheduler.start stack idleEntry sys.memory).result = .ok (t, memory) →
      Reached info base maxSize true ⟨t, memory, sys.spaces, sys.blocks,
        (t.idle.map fun pid => .built pid (t.builtFrame pid)).toList ++ sys.trail⟩

variable {info : BootInfo} {base maxSize : Nat} {started : Bool} {sys sys' : System}
  {lent : PageDirectory → Prop} {holds : List Nat → List Block → KernelMemory → Prop}
  {kernel : PageDirectory}

theorem Step.scheduler_reached (hs : Step sys sys') (h : Scheduler.Reached started sys.scheduler) :
    Scheduler.Reached started sys'.scheduler := by
  cases hs with
  | memory hcall => cases hcall <;> exact h
  | scheduler hcall =>
      cases hcall with
      | spawned _ hspawn => exact h.step (.spawned hspawn)
      | spawnRefused _ hspawn => exact h.step (.spawned hspawn)
      | switched hswitch => exact h.step (.switched hswitch)
      | exited hexit => exact h.step (.exited hexit)
      | killed hkill => exact h.step (.killed hkill)
      | prioritised pid priority => exact h.step (.prioritised pid priority)
      | ticked elapsed => exact h.step (.ticked elapsed)
      | armed delay callback repeating => exact h.step (.armed delay callback repeating)
      | disarmed id => exact h.step (.disarmed id)

theorem Reached.scheduler_reached (h : Reached info base maxSize started sys) :
    Scheduler.Reached started sys.scheduler := by
  induction h with
  | booted => exact .empty
  | started _ _ hstart ih => exact .start ih hstart
  | step _ hs ih => exact hs.scheduler_reached ih

/-! ## What a run preserves -/

def tables (sys : System) : List Nat :=
  sys.scheduler.tables ++ sys.spaces.flatMap (·.directory.ownAddrs)

def held (sys : System) : List Block :=
  sys.scheduler.held ++ (sys.spaces.map (·.block) ++ sys.blocks)

/-- What an account says of the blocks that callers and processes hold. The boot code, on its
borrowed stack, has no address space. -/
structure Good (lent : PageDirectory → Prop) (holds : List Nat → List Block → KernelMemory → Prop)
    (sys : System) : Prop where
  sound : sys.scheduler.Sound
  kept : holds sys.tables sys.held sys.memory
  lends : ∀ made ∈ sys.spaces, lent made.directory
  boot : ∀ estate ∈ sys.scheduler.estates, estate.1.owned = false → estate.2 = none

abbrev Exact (kernel : PageDirectory) : System → Prop :=
  Good (Borrows kernel) (KernelMemory.Balances kernel)

abbrev Covered : System → Prop := Good (fun _ => True) KernelMemory.Reserves

section Front

variable (given rest : List AddressSpace)

theorem perm_tables (sys : System) (split : sys.spaces.Perm (given ++ rest)) :
    sys.tables.Perm (given.flatMap (·.directory.ownAddrs) ++
      (sys.scheduler.tables ++ rest.flatMap (·.directory.ownAddrs))) := by
  have htables := split.flatMap_right (·.directory.ownAddrs)
  rw [List.flatMap_append] at htables
  exact (htables.append_left _).trans (List.perm_append_comm_assoc _ _ _)

theorem perm_held (sys : System) (split : sys.spaces.Perm (given ++ rest)) :
    sys.held.Perm (given.map (·.block) ++
      (sys.scheduler.held ++ (rest.map (·.block) ++ sys.blocks))) := by
  have hblocks := (split.map (·.block)).append_right sys.blocks
  rw [List.map_append, List.append_assoc] at hblocks
  exact (hblocks.append_left _).trans (List.perm_append_comm_assoc _ _ _)

theorem Good.front (h : Good lent holds sys) (account : Account lent holds)
    (split : sys.spaces.Perm (given ++ rest)) :
    holds (given.flatMap (·.directory.ownAddrs) ++
        (sys.scheduler.tables ++ rest.flatMap (·.directory.ownAddrs)))
      (given.map (·.block) ++ (sys.scheduler.held ++ (rest.map (·.block) ++ sys.blocks)))
      sys.memory :=
  account.perm h.kept (sys.perm_tables given rest split) (sys.perm_held given rest split)

end Front

theorem perm_without {space : Option AddressSpace} (inside : ∀ made ∈ space, made ∈ sys.spaces) :
    sys.spaces.Perm (space.toList ++ sys.without space) := by
  cases space with
  | none => exact .refl _
  | some made => exact List.perm_cons_erase (inside made rfl)

theorem without_subset (sys : System) (space : Option AddressSpace) :
    sys.without space ⊆ sys.spaces := by
  cases space with
  | none => exact List.Subset.refl _
  | some made => exact List.erase_subset

theorem Good.memoryCall (h : Good lent holds sys) (account : Account lent holds)
    (hcall : MemoryCall sys sys') : Good lent holds sys' := by
  cases hcall with
  | granted halloc =>
      rcases account.tryAlloc h.kept halloc with ⟨cause, hanswer, -⟩ | ⟨addr, hanswer, hheld⟩
      · contradiction
      obtain rfl := Except.ok.inj hanswer
      refine ⟨h.sound, account.perm hheld (.refl _) ?_, h.lends, h.boot⟩
      rw [held, held, ← List.append_assoc, ← List.append_assoc]
      exact List.perm_middle.symm
  | refused halloc =>
      rcases account.tryAlloc h.kept halloc with ⟨-, -, hheld⟩ | ⟨addr, hanswer, -⟩
      · exact ⟨h.sound, hheld, h.lends, h.boot⟩
      · contradiction
  | @freed block memory hm hfree =>
      have hperm : sys.held.Perm (block :: (sys.scheduler.held ++
          (sys.spaces.map (·.block) ++ sys.blocks.erase block))) := by
        rw [held, ← List.append_assoc, ← List.append_assoc]
        exact ((List.perm_cons_erase hm).append_left _).trans List.perm_middle
      exact ⟨h.sound, account.free (account.perm h.kept (.refl _) hperm) hfree, h.lends, h.boot⟩
  | faultHandled hresolve =>
      exact ⟨h.sound, account.resolveFault h.kept hresolve, h.lends, h.boot⟩
  | @spaceCreated made memory hcreate =>
      rcases account.createSpace h.kept hcreate with
        ⟨cause, hanswer, -⟩ | ⟨made, hanswer, hown, hlent, hheld⟩
      · contradiction
      obtain rfl := Except.ok.inj hanswer
      refine ⟨h.sound, account.perm hheld ?_ List.perm_middle.symm, ?_, h.boot⟩
      · simp [tables, hown]
      · exact List.forall_mem_cons.mpr ⟨hlent, h.lends⟩
  | spaceRefused hcreate =>
      rcases account.createSpace h.kept hcreate with ⟨-, -, hheld⟩ | ⟨made, hanswer, -⟩
      · exact ⟨h.sound, hheld, h.lends, h.boot⟩
      · contradiction
  | @rangeMapped made made' start stop flags answer memory hm hmap =>
      have hfront := h.front [made] _ account (List.perm_cons_erase hm)
      rw [List.flatMap_singleton] at hfront
      obtain ⟨hlent, haddr, hheld⟩ := account.mapRange (h.lends made hm) hfront hmap
      have hblock : made'.block = made.block := by
        rw [AddressSpace.block, AddressSpace.block, haddr]
      -- The space is taken to the front, mapped there and put back with more tables.
      let after : System := { sys with memory, spaces := made' :: sys.spaces.erase made }
      have htables := after.perm_tables [made'] (sys.spaces.erase made) (.refl _)
      have hblocks := after.perm_held [made'] (sys.spaces.erase made) (.refl _)
      rw [List.flatMap_singleton] at htables
      rw [List.map_singleton, hblock] at hblocks
      refine ⟨h.sound, account.perm hheld htables.symm hblocks.symm, ?_, h.boot⟩
      exact List.forall_mem_cons.mpr ⟨hlent, fun other hother =>
        h.lends other (List.mem_of_mem_erase hother)⟩
  | @rangeUnmapped made start stop memory hm hprivate hunmap =>
      have hfront := h.front [made] _ account (List.perm_cons_erase hm)
      rw [List.flatMap_singleton] at hfront
      have hheld := account.unmapRange (h.lends made hm) hfront hprivate hunmap
      have htables := sys.perm_tables [made] _ (List.perm_cons_erase hm)
      rw [List.flatMap_singleton] at htables
      have hblocks := sys.perm_held [made] _ (List.perm_cons_erase hm)
      exact ⟨h.sound, account.perm hheld htables.symm hblocks.symm, h.lends, h.boot⟩
  | @spaceDestroyed made memory hm hdestroy =>
      have hfront := h.front [made] _ account (List.perm_cons_erase hm)
      rw [List.flatMap_singleton] at hfront
      exact ⟨h.sound, account.destroySpace hfront hdestroy, fun other hother =>
        h.lends other (List.mem_of_mem_erase hother), h.boot⟩

theorem Good.of_estates (h : Good lent holds sys) {t : Scheduler} (sound : t.Sound)
    (same : t.estates = sys.scheduler.estates) : Good lent holds { sys with scheduler := t } where
  sound := sound
  kept := by
    have htables := Scheduler.tables_of_estates same
    have hheld := Scheduler.held_of_estates same
    simpa only [tables, held, htables, hheld] using h.kept
  lends := h.lends
  boot := same ▸ h.boot

theorem Good.reap (h : Good lent holds sys) (account : Account lent holds) {t : Scheduler}
    {memory : KernelMemory} (hreap : (sys.scheduler.reap sys.memory).result = .ok (t, memory)) :
    Good lent holds { sys with scheduler := t, memory } := by
  have hheld := account.reap h.kept hreap
  obtain rfl := Scheduler.reap_eq_ok hreap
  refine ⟨h.sound.reaped, hheld, h.lends, fun estate hm => h.boot estate ?_⟩
  exact (List.filter_sublist.map _).mem hm

theorem Good.spawn (h : Good lent holds sys) (account : Account lent holds)
    {request : SpawnRequest} {space : Option AddressSpace}
    (inside : ∀ made ∈ space, made ∈ sys.spaces) {answer : Except SpawnError Pid} {t : Scheduler}
    {memory : KernelMemory}
    (hspawn : (sys.scheduler.spawn request space sys.memory).result = .ok (answer, t, memory)) :
    Good lent holds ⟨t, memory, sys.without space, sys.blocks, sys.trail⟩ where
  sound := (h.sound.step (.spawned hspawn)).1
  kept := account.spawn (h.front _ _ account (perm_without inside)) h.sound.toFiled hspawn
  lends := fun made hm => h.lends made (sys.without_subset space hm)
  boot := by
    rcases h.sound.toFiled.spawn_eq_ok hspawn with ⟨cause, refused, -, -, rfl, -⟩ |
      ⟨pid, base, frame, granted, -, hs, -⟩
    · exact h.boot
    · rw [hs.estates_eq, List.forall_mem_append]
      refine ⟨h.boot, ?_⟩
      simp [Process.estate, Scheduler.made]

theorem Good.switch (h : Good lent holds sys) (account : Account lent holds) {frame : Nat}
    {cpu : Processor} {switched : Scheduler.Switched}
    (hswitch : (sys.scheduler.switch frame sys.memory cpu).result = .ok switched) :
    Good lent holds { sys with scheduler := switched.scheduler, memory := switched.memory } := by
  have hsound := (h.sound.step (.switched hswitch)).1
  rcases Scheduler.switch_eq_ok hswitch with ⟨-, rfl⟩ |
    ⟨previous, reaped, suspended, next, hcurrent, hreap, hsuspend, hdispatch, -⟩
  · exact h
  · have hgood := h.reap account hreap
    obtain rfl := Scheduler.reap_eq_ok hreap
    exact hgood.of_estates hsound (h.sound.handed hcurrent hsuspend hdispatch).estates

theorem Good.kill (h : Good lent holds sys) (account : Account lent holds) {pid : Pid}
    {answer : Option SchedError} {t : Scheduler} {memory : KernelMemory}
    (hkill : (sys.scheduler.kill pid sys.memory).result = .ok (answer, t, memory)) :
    Good lent holds { sys with scheduler := t, memory } := by
  cases answer with
  | some cause =>
      obtain ⟨rfl, rfl⟩ := Scheduler.kill_refused hkill
      exact h
  | none =>
      obtain ⟨p, hidle, -, hp, hreap⟩ := Scheduler.kill_eq_ok hkill
      obtain ⟨-, rfl⟩ := Scheduler.process?_mem hp
      have hcondemned := h.of_estates (h.sound.condemned hp hidle)
        (Scheduler.condemn_inPlace hp).estates
      exact hcondemned.reap account hreap

theorem Good.schedulerCall (h : Good lent holds sys) (account : Account lent holds)
    (hcall : SchedulerCall sys sys') : Good lent holds sys' := by
  cases hcall with
  | spawned inside hspawn =>
      have hgood := h.spawn account inside hspawn
      exact ⟨hgood.sound, hgood.kept, hgood.lends, hgood.boot⟩
  | spawnRefused inside hspawn => exact h.spawn account inside hspawn
  | switched hswitch =>
      have hgood := h.switch account hswitch
      exact ⟨hgood.sound, hgood.kept, hgood.lends, hgood.boot⟩
  | exited hexit =>
      exact h.of_estates (h.sound.step (.exited hexit)).1
        (Scheduler.exitCurrent_inPlace h.sound hexit).estates
  | killed hkill => exact h.kill account hkill
  | prioritised pid priority =>
      exact h.of_estates (h.sound.step (.prioritised pid priority)).1
        (h.sound.setPriority_inPlace pid priority).estates
  | ticked elapsed =>
      exact h.of_estates (h.sound.step (.ticked elapsed)).1
        (h.sound.onTick_inPlace elapsed).estates
  | armed delay callback repeating =>
      exact h.of_estates (h.sound.step (.armed delay callback repeating)).1 rfl
  | disarmed id => exact h.of_estates (h.sound.step (.disarmed id)).1 rfl

theorem Good.step (h : Good lent holds sys) (account : Account lent holds) (hs : Step sys sys') :
    Good lent holds sys' := by
  cases hs with
  | memory hcall => exact h.memoryCall account hcall
  | scheduler hcall => exact h.schedulerCall account hcall

theorem Good.start (h : Good lent holds sys) (account : Account lent holds) {stack : KernelStack}
    (borrowed : stack.owned = false) {idleEntry : Nat} {t : Scheduler} {memory : KernelMemory}
    (hstart : (sys.scheduler.start stack idleEntry sys.memory).result = .ok (t, memory)) :
    Good lent holds { sys with scheduler := t, memory } := by
  have hsound := (h.sound.started hstart).1
  obtain ⟨hbefore, hroom, idle, u, hspawn, rfl⟩ := Scheduler.start_eq_ok hstart
  have hboot : Good lent holds { sys with scheduler := sys.scheduler.withBoot stack } := by
    refine ⟨h.sound.withBoot hbefore hroom stack, ?_, h.lends, ?_⟩
    · have htables : (sys.scheduler.withBoot stack).tables = sys.scheduler.tables := by
        simp [Scheduler.tables, Scheduler.withBoot, Scheduler.bootProcess, Process.tables]
      have hheld : (sys.scheduler.withBoot stack).held = sys.scheduler.held := by
        simp [Scheduler.held, Scheduler.withBoot, Scheduler.bootProcess, Process.held,
          KernelStack.blocks, borrowed]
      simpa only [tables, held, htables, hheld] using h.kept
    · rw [Scheduler.estates, Scheduler.withBoot, List.map_append, List.forall_mem_append]
      exact ⟨h.boot, by simp [Process.estate, Scheduler.bootProcess]⟩
  have hnone : ∀ made ∈ (none : Option AddressSpace), made ∈ sys.spaces := by simp
  have hgood := hboot.spawn account hnone hspawn
  exact hgood.of_estates hsound rfl

/-- Before the scheduler runs and anything is allocated, nobody holds anything. -/
theorem Good.blank {memory : KernelMemory} (h : holds [] [] memory) :
    Good lent holds ⟨.empty, memory, [], [], []⟩ :=
  ⟨Scheduler.sound_empty, h, by simp, by simp [Scheduler.estates, Scheduler.empty]⟩

theorem Good.arena (h : Good lent holds sys) :
    Good (fun _ => True) (fun _ _ memory => memory.arena = sys.memory.arena) sys :=
  ⟨h.sound, rfl, fun _ _ => trivial, h.boot⟩

/-- Whatever account holds of a heap without blocks goes through the whole run. -/
theorem Reached.good (h : Reached info base maxSize started sys) :
    ∃ memory, Enabled info base maxSize memory ∧ ∀ {lent holds}, Account lent holds →
      holds [] [] memory → Good lent holds sys := by
  induction h with
  | @booted memory henabled => exact ⟨memory, henabled, fun _ hholds => .blank hholds⟩
  | step _ hs ih =>
      obtain ⟨memory, henabled, hgood⟩ := ih
      exact ⟨memory, henabled, fun account hholds => (hgood account hholds).step account hs⟩
  | started _ borrowed hstart ih =>
      obtain ⟨memory, henabled, hgood⟩ := ih
      refine ⟨memory, henabled, fun account hholds => ?_⟩
      have hstarted := (hgood account hholds).start account borrowed hstart
      exact ⟨hstarted.sound, hstarted.kept, hstarted.lends, hstarted.boot⟩

/-- The window up to the placement limit is for static memory alone. A narrow heap outside it can be
accounted for to the last block. -/
theorem Reached.exact_of_narrow (h : Reached info base maxSize started sys)
    (apart : base + maxSize ≤ info.kernelEnd ∨ info.placementLimit ≤ base)
    (narrow : maxSize ≤ addressSpan) : ∃ kernel, Exact kernel sys := by
  obtain ⟨memory, ⟨hbooting, hcreate, henable⟩, hgood⟩ := h.good
  have hbalances := hbooting.booted.balances apart narrow hcreate henable
  exact ⟨_, hgood (KernelMemory.Balances.account _) hbalances⟩

theorem Reached.reserves (h : Reached info base maxSize started sys) : Covered sys := by
  obtain ⟨memory, ⟨hbooting, hcreate, henable⟩, hgood⟩ := h.good
  exact hgood KernelMemory.Reserves.account (hbooting.booted.reserves hcreate henable)

/-! ## What a step does to the processes -/

/-- What a step does to the processes and to the trail: it changes processes where they are, enters
one, hands the processor on, or kills. -/
inductive Passage (sys sys' : System) : Prop
  | stays :
      sys.scheduler.InPlace sys'.scheduler → sys'.trail = sys.trail → Passage sys sys'
  | enters {request : SpawnRequest} {p : Process} :
      Scheduler.Spawned request sys.scheduler p sys'.scheduler → p.stack.owned = true →
      p.stack.placeInitialFrame p.flags = .ok p.frame →
      sys'.trail = .built p.pid p.frame :: sys.trail → Passage sys sys'
  | hands {frame : Nat} {cpu : Processor} {switched : Scheduler.Switched} {previous : Pid}
      {next : Process} :
      sys.scheduler.current = some previous →
      (sys.scheduler.switch frame sys.memory cpu).result = .ok switched →
      sys'.scheduler = switched.scheduler →
      sys.scheduler.Handed previous frame next switched.scheduler →
      sys'.trail = .left previous frame :: sys.trail → Passage sys sys'
  | kills {pid : Pid} :
      (sys.scheduler.kill pid sys.memory).result = .ok (none, sys'.scheduler, sys'.memory) →
      sys'.trail = sys.trail → Passage sys sys'

theorem Passage.of_same (same : sys'.scheduler = sys.scheduler) (trail : sys'.trail = sys.trail) :
    Passage sys sys' :=
  .stays (same ▸ .refl _) trail

theorem builtFrame_eq {s : Scheduler} {p : Process} (hp : s.process? p.pid = some p)
    (placed : p.stack.placeInitialFrame p.flags = .ok p.frame) : s.builtFrame p.pid = p.frame := by
  rw [Scheduler.builtFrame, hp, Option.bind_some, placed]
  rfl

theorem Step.passage (hs : Step sys sys') (h : sys.scheduler.Sound) : Passage sys sys' := by
  cases hs with
  | memory hcall => cases hcall <;> exact .of_same rfl rfl
  | scheduler hcall =>
      cases hcall with
      | spawned _ hspawn =>
          rcases h.toFiled.spawn_eq_ok hspawn with ⟨cause, -, hanswer, -⟩ |
            ⟨pid, base, frame, -, hanswer, hspawned, hplaced, -⟩
          · contradiction
          · obtain rfl := Except.ok.inj hanswer
            refine .enters hspawned rfl hplaced ?_
            have hfound := (hspawned.lookup _).trans (if_pos rfl)
            rw [← builtFrame_eq hfound hplaced]
            rfl
      | spawnRefused _ hspawn =>
          rcases h.toFiled.spawn_cases hspawn with ⟨-, -, -, hsame⟩ | ⟨p, hanswer, -⟩
          · exact .of_same hsame rfl
          · contradiction
      | @switched frame cpu switched hswitch =>
          cases hcurrent : sys.scheduler.current with
          | none =>
              rcases Scheduler.switch_eq_ok hswitch with ⟨-, rfl⟩ | ⟨previous, _, _, _, hsome, -⟩
              · exact .of_same rfl (by simp [departure, hcurrent])
              · rw [hcurrent] at hsome
                contradiction
          | some previous =>
              obtain ⟨next, hhanded, -⟩ := h.switch_handed hcurrent hswitch
              exact .hands hcurrent hswitch rfl hhanded (by simp [departure, hcurrent])
      | exited hexit => exact .stays (Scheduler.exitCurrent_inPlace h hexit) rfl
      | @killed pid answer t memory hkill =>
          cases answer with
          | some cause => exact .of_same (Scheduler.kill_refused hkill).1 rfl
          | none => exact .kills hkill rfl
      | prioritised pid priority => exact .stays (h.setPriority_inPlace pid priority) rfl
      | ticked elapsed => exact .stays (h.onTick_inPlace elapsed) rfl
      | armed => exact .stays (.of_table rfl rfl) rfl
      | disarmed => exact .stays (.of_table rfl rfl) rfl

theorem Passage.continues (h : Passage sys sys') (sound : sys.scheduler.Sound) :
    (sys.scheduler.Continues sys'.scheduler ∧ sys'.scheduler.current = sys.scheduler.current) ∨
      ∃ frame cpu switched previous next, sys.scheduler.current = some previous ∧
        (sys.scheduler.switch frame sys.memory cpu).result = .ok switched ∧
        sys'.scheduler = switched.scheduler ∧
        sys.scheduler.Handed previous frame next switched.scheduler := by
  cases h with
  | stays hplace => exact .inl ⟨hplace.continues, hplace.current⟩
  | enters hspawned => exact .inl ⟨hspawned.continues, hspawned.current_eq⟩
  | hands hcurrent hswitch hsame hhanded =>
      exact .inr ⟨_, _, _, _, _, hcurrent, hswitch, hsame, hhanded⟩
  | kills hkill => exact .inl ⟨sound.kill_continues hkill, (sound.killed hkill).2.1⟩

/-! ## A short run -/

/-- A process is spawned with an address space, gets the processor and exits. Answers the scheduler,
the memory and where the process started. -/
def sampleRun : Except Fault (Scheduler × KernelMemory × Nat) := do
  let memory ← (KernelMemory.boot KernelMemory.sampleInfo).result
  let (answer, memory) ← (memory.createHeap 0x400000 0x401000 0x10000 .supervisor).result
  let .ok heap := answer | throw .raised
  let memory ← (memory.enableHeap heap).result
  let (answer, memory) ← memory.createSpace.result
  let .ok space := answer | throw .raised
  let (_, space, memory) ← (memory.mapRange space 0x800000 0x801000 .supervisor).result
  let (s, memory) ← (Scheduler.empty.start ⟨0x80000, 0x4000, false⟩ 0x100000 memory).result
  let request : SpawnRequest := ⟨0x102000, .normal, 0, 0x200, ⟨true, false⟩⟩
  let (answer, s, memory) ← (s.spawn request (some space) memory).result
  let .ok _ := answer | throw .raised
  let first ← (s.switch 0x83000 memory .reset).result
  let (_, s) ← first.scheduler.exitCurrent.result
  return (s, first.memory, first.resume)

theorem reached_sampleRun {s : Scheduler} {memory : KernelMemory} {frame : Nat}
    (h : sampleRun = .ok (s, memory, frame)) :
    ∃ trail, Reached KernelMemory.sampleInfo 0x400000 0x10000 true ⟨s, memory, [], [], trail⟩ := by
  unfold sampleRun at h
  obtain ⟨booted, hboot, h⟩ := bind_eq_ok h
  obtain ⟨⟨answer, created⟩, hcreate, h⟩ := bind_eq_ok h
  rcases answer with cause | heap
  · simp at h
  obtain ⟨enabled, henable, h⟩ := bind_eq_ok h
  obtain ⟨⟨answer, spaced⟩, hspace, h⟩ := bind_eq_ok h
  rcases answer with cause | space
  · simp at h
  obtain ⟨⟨refusal, space', mapped⟩, hmap, h⟩ := bind_eq_ok h
  obtain ⟨⟨t, started⟩, hstart, h⟩ := bind_eq_ok h
  obtain ⟨⟨answer, u, spawned⟩, hspawn, h⟩ := bind_eq_ok h
  rcases answer with cause | pid
  · simp at h
  obtain ⟨first, hswitch, h⟩ := bind_eq_ok h
  obtain ⟨⟨exited, v⟩, hexit, h⟩ := bind_eq_ok h
  obtain ⟨rfl, rfl, rfl⟩ := by
    simpa only [pure_eq_ok, Except.ok.injEq, Prod.mk.injEq] using h
  have hbooted := Reached.booted (.enabled (.boot hboot) hcreate henable)
  have hspaced := hbooted.step (.memory (.spaceCreated hspace))
  have hmapped := hspaced.step (.memory (.rangeMapped List.mem_cons_self hmap))
  have hstarted := hmapped.started rfl hstart
  have hinside : ∀ made ∈ some space', made ∈ space' :: [space].erase space := by simp
  have hspawned := hstarted.step (.scheduler (.spawned hinside hspawn))
  have hswitched := hspawned.step (.scheduler (.switched hswitch))
  have hexited := hswitched.step (.scheduler (.exited hexit))
  exact ⟨_, by simpa [without] using hexited⟩

end System

end KernelCore
