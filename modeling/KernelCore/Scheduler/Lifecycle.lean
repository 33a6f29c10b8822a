import KernelCore.Scheduler.Basic

/-!
# The life of a process

Spawning gives a process a stack from the kernel heap with its first register frame on it, and
puts it in the queue of its priority. A process that has exited or was killed is reaped: its
stack and address space go back to the kernel memory, but never while it is current.
-/

namespace KernelCore

structure SpawnRequest where
  entry : Nat
  priority : Priority
  arg : Nat
  stackSize : Nat
  flags : ProcessFlags
deriving DecidableEq

namespace Scheduler

/-! ## Spawning -/

def refuseSpawn (entry : Nat) (space : Option AddressSpace) (cause : SpawnError)
    (memory : KernelMemory) : Traced KernelMemory := do
  let memory ← match space with
    | some space => memory.destroySpace space
    | none => pure memory
  Traced.note (.spawnFailed entry cause)
  return memory

/-- Makes a ready process on a stack that was just allocated at `base`. -/
def settle (scheduler : Scheduler) (request : SpawnRequest) (space : Option AddressSpace)
    (pid : Pid) (base : Nat) (memory : KernelMemory) : Traced (Scheduler × KernelMemory) := do
  let stack : KernelStack := ⟨base, request.stackSize, true⟩
  let frame ← stack.placeInitialFrame request.flags
  let registers := Registers.initial request.entry request.arg request.flags
  let ram := memory.space.ram.saveFrame frame registers
  let scheduler ← scheduler.enter
    { pid, entry := request.entry, priority := request.priority, state := .ready
      flags := request.flags, stack, frame, space, ticks := 0 }
  Traced.note (.spawned pid.number request.entry request.priority.level base request.stackSize)
  return (scheduler, { memory with space := { memory.space with ram } })

/-- Makes a ready process with a kernel stack of its own. `space` becomes its address space;
if the process cannot be made, `space` is destroyed. -/
def spawn (scheduler : Scheduler) (request : SpawnRequest) (space : Option AddressSpace)
    (memory : KernelMemory) : Traced (Except SpawnError Pid × Scheduler × KernelMemory) := do
  let refuse (cause : SpawnError) (scheduler : Scheduler) (memory : KernelMemory) := do
    let memory ← refuseSpawn request.entry space cause memory
    return (.error cause, scheduler, memory)
  if scheduler.tableFull then
    refuse .tooManyProcesses scheduler memory
  else if request.stackSize < minStackSize then
    refuse .stackTooSmall scheduler memory
  else
    match ← memory.tryAlloc request.stackSize false with
    | (.error cause, memory) => refuse (.outOfMemory cause) scheduler memory
    | (.ok base, memory) =>
        let (pid, scheduler) := scheduler.allocatePid
        match scheduler.push? request.priority pid with
        | none =>
            let memory ← memory.free base
            refuse .queueFull scheduler memory
        | some scheduler =>
            let (scheduler, memory) ← scheduler.settle request space pid base memory
            return (.ok pid, scheduler, memory)

/-- Adopts the boot code as the main process, running on `stack`, and spawns the idle process
at `idleEntry`. -/
def start (scheduler : Scheduler) (stack : KernelStack) (idleEntry : Nat)
    (memory : KernelMemory) : Traced (Scheduler × KernelMemory) := do
  if scheduler.current.isSome then Traced.fault .schedulerRunning
  let (main, scheduler) := scheduler.allocatePid
  let scheduler ← scheduler.enter
    { pid := main, entry := 0, priority := .normal, state := .running
      flags := ⟨true, false⟩, stack, frame := 0, space := none, ticks := 0 }
  let scheduler := { scheduler with current := some main }
  let request : SpawnRequest :=
    { entry := idleEntry, priority := .min, arg := 0, stackSize := idleStackSize
      flags := ⟨true, false⟩ }
  match ← scheduler.spawn request none memory with
  | (.error cause, _) => Traced.fault (.idleNotSpawned cause)
  | (.ok idle, scheduler, memory) =>
      Traced.note (.schedulerStarted main.number idle.number)
      return ({ scheduler with idle := some idle }, memory)

/-! ## Reaping -/

def reapable (scheduler : Scheduler) (process : Process) : Bool :=
  process.state == .terminated && some process.pid != scheduler.current

def releaseProcess (process : Process) (memory : KernelMemory) : Traced KernelMemory := do
  let memory ← if process.stack.owned then memory.free process.stack.base else pure memory
  let memory ← match process.space with
    | some space => memory.destroySpace space
    | none => pure memory
  Traced.note (.reaped process.pid.number)
  return memory

/-- Removes every process that has ended, except the one on the processor, and gives back what
they held. -/
def reap (scheduler : Scheduler) (memory : KernelMemory) : Traced (Scheduler × KernelMemory) := do
  let ended := scheduler.processes.filter scheduler.reapable
  let memory ← ended.foldlM (fun memory process => releaseProcess process memory) memory
  let remaining := scheduler.processes.filter fun process => !scheduler.reapable process
  return ({ scheduler with processes := remaining }, memory)

/-! ## Ending and changing processes -/

/-- Marks the running process ended. It is reaped once another one has the processor. -/
def exitCurrent (scheduler : Scheduler) : Traced (Except SchedError Pid × Scheduler) := do
  match scheduler.current with
  | none => return (.error .noSuchProcess, scheduler)
  | some pid =>
      if some pid = scheduler.idle then return (.error .isIdle, scheduler)
      let scheduler := scheduler.update pid fun process => { process with state := .terminated }
      Traced.note (.exited pid.number)
      return (.ok pid, scheduler)

/-- Ends a process that is not running and gives back what it held. -/
def kill (scheduler : Scheduler) (pid : Pid) (memory : KernelMemory) :
    Traced (Option SchedError × Scheduler × KernelMemory) := do
  if some pid = scheduler.idle then return (some .isIdle, scheduler, memory)
  if some pid = scheduler.current then return (some .isCurrent, scheduler, memory)
  match scheduler.process? pid with
  | none => return (some .noSuchProcess, scheduler, memory)
  | some process =>
      let scheduler := scheduler.update pid fun process => { process with state := .terminated }
      let scheduler :=
        if process.state = .ready then scheduler.unqueue process.priority pid else scheduler
      let (scheduler, memory) ← scheduler.reap memory
      Traced.note (.killed pid.number)
      return (none, scheduler, memory)

/-- Changes a process's priority. A ready process moves to the end of its new queue, the
running one when it is next preempted. -/
def setPriority (scheduler : Scheduler) (pid : Pid) (priority : Priority) :
    Option SchedError × Scheduler :=
  if some pid = scheduler.idle then (some .isIdle, scheduler)
  else
    match scheduler.process? pid with
    | none => (some .noSuchProcess, scheduler)
    | some process =>
        let scheduler := scheduler.update pid fun process => { process with priority }
        if process.state = .ready ∧ process.priority ≠ priority then
          (none, (scheduler.unqueue process.priority pid).push priority pid)
        else (none, scheduler)

end Scheduler

end KernelCore
