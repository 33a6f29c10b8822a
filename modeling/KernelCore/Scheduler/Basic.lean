import KernelCore.Process.Basic
import KernelCore.TimerQueue

/-!
# The process table and the ready queues

Processes that are ready wait in one queue per priority, first come first served. The running
process is in no queue. The table and the queues are bounded by `processCapacity`.
-/

namespace KernelCore

structure Scheduler where
  /-- Every process there is, in the order they were made. -/
  processes : List Process
  /-- Waiting processes by priority level, the next one to run first. -/
  ready : Vector (List Pid) priorityLevels
  current : Option Pid
  /-- The process that always has something to run. -/
  idle : Option Pid
  nextPid : Pid
  ticks : Nat
  timers : TimerQueue
deriving DecidableEq

namespace Scheduler

def empty : Scheduler :=
  { processes := []
    ready := Vector.replicate priorityLevels []
    current := none
    idle := none
    nextPid := ⟨0⟩
    ticks := 0
    timers := .empty }

/-! ## The process table -/

def process? (scheduler : Scheduler) (pid : Pid) : Option Process :=
  scheduler.processes.find? (·.pid == pid)

def update (scheduler : Scheduler) (pid : Pid) (change : Process → Process) : Scheduler :=
  { scheduler with processes := scheduler.processes.map fun process =>
      if process.pid = pid then change process else process }

def tableFull (scheduler : Scheduler) : Bool := processCapacity ≤ scheduler.processes.length

def enter (scheduler : Scheduler) (process : Process) : Except Fault Scheduler :=
  if scheduler.tableFull then .error .capacityExceeded
  else .ok { scheduler with processes := scheduler.processes ++ [process] }

/-- The first number from `pid` on that no process has, trying at most `tries` more. As many
tries as there are processes suffice. -/
def freshFrom (scheduler : Scheduler) : Nat → Pid → Pid
  | 0, pid => pid
  | tries + 1, pid =>
      if (scheduler.process? pid).isSome then freshFrom scheduler tries pid.next else pid

/-- Hands out a number that no process in the table has. -/
def allocatePid (scheduler : Scheduler) : Pid × Scheduler :=
  let pid := scheduler.freshFrom scheduler.processes.length scheduler.nextPid
  (pid, { scheduler with nextPid := pid.next })

/-! ## The ready queues -/

def queue (scheduler : Scheduler) (priority : Priority) : List Pid :=
  scheduler.ready[priority.level]

def setQueue (scheduler : Scheduler) (priority : Priority) (queue : List Pid) : Scheduler :=
  { scheduler with ready := scheduler.ready.set priority.level queue }

/-- Appends a process to the queue of a priority, unless that is full. -/
def push? (scheduler : Scheduler) (priority : Priority) (pid : Pid) : Option Scheduler :=
  let queue := scheduler.queue priority
  if processCapacity ≤ queue.length then none
  else some (scheduler.setQueue priority (queue ++ [pid]))

/-- Appends a process to the queue of a priority; every live process fits in any one queue. -/
def push (scheduler : Scheduler) (priority : Priority) (pid : Pid) : Scheduler :=
  (scheduler.push? priority pid).getD scheduler

/-- Sends the first process of a queue to its end, `count` times over, and drops `pid` when it
comes up. -/
def cycle (pid : Pid) : Nat → List Pid → List Pid
  | 0, queue => queue
  | _ + 1, [] => []
  | count + 1, first :: rest =>
      if first = pid then cycle pid count rest else cycle pid count (rest ++ [first])

/-- Takes a process out of the queue of a priority. One whole turn brings the others back into
their order: `queue_unqueue`. -/
def unqueue (scheduler : Scheduler) (priority : Priority) (pid : Pid) : Scheduler :=
  let queue := scheduler.queue priority
  scheduler.setQueue priority (cycle pid queue.length queue)

def topPriority? (scheduler : Scheduler) : Option Priority :=
  Priority.descending.find? fun priority => !(scheduler.queue priority).isEmpty

def pop? (scheduler : Scheduler) : Option (Pid × Scheduler) :=
  match scheduler.topPriority? with
  | none => none
  | some priority =>
      match scheduler.queue priority with
      | [] => none
      | pid :: rest => some (pid, scheduler.setQueue priority rest)

/-! ## What is found after a change -/

@[simp] theorem queue_setQueue (scheduler : Scheduler) (priority other : Priority)
    (queue : List Pid) :
    (scheduler.setQueue priority queue).queue other =
      if priority = other then queue else scheduler.queue other := by
  obtain ⟨level⟩ := priority
  obtain ⟨level'⟩ := other
  simp [Scheduler.queue, setQueue, Vector.getElem_set, Fin.ext_iff]

@[simp] theorem processes_setQueue (scheduler : Scheduler) (priority : Priority)
    (queue : List Pid) : (scheduler.setQueue priority queue).processes = scheduler.processes :=
  rfl

theorem cycle_append (pid : Pid) (front back : List Pid) :
    cycle pid front.length (front ++ back) = back ++ front.filter (· != pid) := by
  induction front generalizing back with
  | nil => simp [cycle]
  | cons first rest ih =>
      by_cases h : first = pid
      · simp [cycle, h, ih]
      · simp [cycle, h, ih]

/-- A whole turn of a queue drops `pid` and keeps the order of the others. -/
theorem cycle_length (pid : Pid) (queue : List Pid) :
    cycle pid queue.length queue = queue.filter (· != pid) := by
  simpa using cycle_append pid queue []

theorem queue_unqueue (s : Scheduler) (priority : Priority) (pid : Pid) (other : Priority) :
    (s.unqueue priority pid).queue other =
      if priority = other then (s.queue other).filter (· != pid) else s.queue other := by
  rw [unqueue, queue_setQueue]
  split
  · next hsame => rw [hsame, cycle_length]
  · rfl

end Scheduler

end KernelCore
