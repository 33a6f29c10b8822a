import KernelCore.Scheduler.Lifecycle

/-!
# Switching

The timer interrupt accounts a tick and then switches: the interrupted process keeps its
register frame and rejoins the end of its queue, and the first process of the highest queue
resumes from the frame it left.
-/

namespace KernelCore

namespace Scheduler

structure Switched where
  /-- Stack pointer of the frame to resume from. -/
  resume : Nat
  scheduler : Scheduler
  memory : KernelMemory
  cpu : Processor
deriving DecidableEq

/-- Takes the processor from `pid`, whose registers lie at `frame`. -/
def suspend (scheduler : Scheduler) (pid : Pid) (frame : Nat) : Except Fault Scheduler := do
  match scheduler.process? pid with
  | none => return scheduler
  | some process =>
      if !(← process.stack.contains frame Registers.kernelFrameBytes) then
        throw (.frameOutsideStack frame pid.number)
      if process.state = .running then
        let scheduler := scheduler.update pid fun process =>
          { process with frame, state := .ready }
        return scheduler.push process.priority pid
      return scheduler.update pid fun process => { process with frame }

/-- Gives the processor to the first process of the highest queue. -/
def dispatch (scheduler : Scheduler) : Except Fault (Process × Scheduler) := do
  match scheduler.pop? with
  | none => throw .noRunnableProcess
  | some (pid, scheduler) =>
      match scheduler.process? pid with
      | none => throw .queuedProcessMissing
      | some process =>
          let scheduler := scheduler.update pid fun process => { process with state := .running }
          return (process, { scheduler with current := some pid })

/-- Installs a process's kernel stack if it runs in ring 3, and its directory if another one
was active. -/
def install (process : Process) (kernelDirectory active : Nat) (cpu : Processor) :
    Except Fault Processor := do
  let cpu ← if process.flags.user then pure (cpu.setKernelStack (← process.stack.top))
    else pure cpu
  let directory := process.directoryPhys kernelDirectory
  return if directory = active then cpu else KernelMemory.loadDirectory directory cpu

def directoryOf (scheduler : Scheduler) (pid : Pid) (kernelDirectory : Nat) : Nat :=
  ((scheduler.process? pid).map (·.directoryPhys kernelDirectory)).getD kernelDirectory

/-- Preempts the current process, whose registers lie at `frame`, and answers where the next
one's lie. Before the scheduler runs, nothing changes and `frame` comes back. -/
def switch (scheduler : Scheduler) (frame : Nat) (memory : KernelMemory) (cpu : Processor) :
    Traced Switched := do
  match scheduler.current with
  | none => return ⟨frame, scheduler, memory, cpu⟩
  | some previous =>
      let (scheduler, memory) ← scheduler.reap memory
      let kernelDirectory := memory.directoryPhys
      let active := scheduler.directoryOf previous kernelDirectory
      let scheduler ← scheduler.suspend previous frame
      let (next, scheduler) ← scheduler.dispatch
      let cpu ← install next kernelDirectory active cpu
      if next.pid ≠ previous then
        Traced.note (.switched previous.number next.pid.number next.frame)
      return ⟨next.frame, scheduler, memory, cpu⟩

/-! ## Time -/

/-- Accounts one timer tick of `elapsed` milliseconds and answers the timer calls that come
due. Ticks are counted without a bound; a counter of 64 bits is at fault with tick `2 ^ 64`. -/
def onTick (scheduler : Scheduler) (elapsed : Nat) : List Callback × Scheduler :=
  let scheduler := match scheduler.current with
    | some pid => scheduler.update pid fun process => { process with ticks := process.ticks + 1 }
    | none => scheduler
  let (calls, timers) := scheduler.timers.advance elapsed
  (calls, { scheduler with ticks := scheduler.ticks + 1, timers })

def addTimer (scheduler : Scheduler) (delay : Nat) (callback : Callback) (repeating : Bool) :
    Except TimerError TimerId × Scheduler :=
  let (answer, timers) := scheduler.timers.add delay callback repeating
  (answer, { scheduler with timers })

def cancelTimer (scheduler : Scheduler) (id : TimerId) : Bool × Scheduler :=
  let (pending, timers) := scheduler.timers.cancel id
  (pending, { scheduler with timers })

end Scheduler

end KernelCore
