import Mathlib
import KernelCore.Scheduler.Switch

/-!
# The plan behind a scheduler

A plan is a scheduler without its machinery: a list of waiting processes for each priority, the
process that has the processor, whether that one has exited, and everyone's priority. `Plan.Does`
says what each operation does to a plan and what it answers. No operation disturbs the processes
that it is not about: `Plan.Does.others`.
-/

namespace KernelCore

/-- An operation on a scheduler together with its answer. -/
inductive Act where
  | spawn (level : Priority) (answer : Except SpawnError Pid)
  | start (main idle : Pid)
  | switch
  | exit (answer : Except SchedError Pid)
  | kill (pid : Pid) (answer : Option SchedError)
  | setPriority (pid : Pid) (level : Priority) (answer : Option SchedError)
  /-- Time passes, or a timer is set or cancelled. -/
  | wait

@[ext] structure Plan where
  /-- Who waits at each priority, the next one to run first. -/
  waiting : Priority → List Pid
  current : Option Pid
  /-- Whether the current process has exited. -/
  exited : Bool
  idle : Option Pid
  priority : Pid → Option Priority

namespace Plan

def empty : Plan := ⟨fun _ => [], none, false, none, fun _ => none⟩

/-! ## Operations -/

def join (plan : Plan) (pid : Pid) (level : Priority) : Plan :=
  { plan with waiting := Function.update plan.waiting level (plan.waiting level ++ [pid]) }

def leave (plan : Plan) (pid : Pid) : Plan :=
  { plan with waiting := fun level => (plan.waiting level).erase pid }

def setLevel (plan : Plan) (pid : Pid) (level : Priority) : Plan :=
  { plan with priority := Function.update plan.priority pid (some level) }

/-- Forgets the processes that neither wait nor have the processor. -/
def tidy (plan : Plan) : Plan :=
  { plan with priority := fun pid =>
      (plan.priority pid).filter fun level =>
        plan.current = some pid ∨ pid ∈ plan.waiting level }

def spawn (plan : Plan) (pid : Pid) (level : Priority) : Plan :=
  (plan.join pid level).setLevel pid level

/-- The main process has the processor from the start, the idle one waits at the lowest level. -/
def start (plan : Plan) (main idle : Pid) : Plan :=
  { ({ plan.setLevel main .normal with current := some main }).spawn idle .min with
    idle := some idle }

/-- The process that gives up the processor waits again, unless it has exited. -/
def requeue (plan : Plan) (pid : Pid) : Plan :=
  match plan.exited, plan.priority pid with
  | false, some level => plan.join pid level
  | _, _ => plan

/-- The first of a list leaves it, `rest` stays, and has the processor. -/
def resume (plan : Plan) (next : Pid) (level : Priority) (rest : List Pid) : Plan :=
  { plan with
    waiting := Function.update plan.waiting level rest
    current := some next
    exited := false }

def exit (plan : Plan) : Except SchedError Pid × Plan :=
  match plan.current with
  | none => (.error .noSuchProcess, plan)
  | some pid =>
      if plan.idle = some pid then (.error .isIdle, plan)
      else (.ok pid, { plan with exited := true })

def kill (plan : Plan) (pid : Pid) : Option SchedError × Plan :=
  if plan.idle = some pid then (some .isIdle, plan)
  else if plan.current = some pid then (some .isCurrent, plan)
  else
    match plan.priority pid with
    | none => (some .noSuchProcess, plan)
    | some _ => (none, (plan.leave pid).tidy)

def setPriority (plan : Plan) (pid : Pid) (level : Priority) : Option SchedError × Plan :=
  if plan.idle = some pid then (some .isIdle, plan)
  else
    match plan.priority pid with
    | none => (some .noSuchProcess, plan)
    | some old =>
        let changed := plan.setLevel pid level
        if pid ∈ plan.waiting old ∧ old ≠ level then (none, (changed.leave pid).join pid level)
        else (none, changed)

theorem requeue_live {plan : Plan} {pid : Pid} {level : Priority} (live : plan.exited = false)
    (present : plan.priority pid = some level) : plan.requeue pid = plan.join pid level := by
  simp only [requeue, live, present]

theorem requeue_exited {plan : Plan} (exited : plan.exited = true) (pid : Pid) :
    plan.requeue pid = plan := by
  simp only [requeue, exited]

theorem exit_none {plan : Plan} (h : plan.current = none) :
    plan.exit = (.error .noSuchProcess, plan) := by
  simp only [exit, h]

theorem exit_some {plan : Plan} {pid : Pid} (h : plan.current = some pid) :
    plan.exit = if plan.idle = some pid then (.error .isIdle, plan)
      else (.ok pid, { plan with exited := true }) := by
  unfold exit
  split
  · next hnone => rw [hnone] at h; contradiction
  · next other hother => rw [Option.some.inj (hother.symm.trans h)]

/-! ## Steps and runs -/

inductive Does (plan : Plan) : Act → Plan → Prop
  | spawned {pid : Pid} {level : Priority} :
      plan.priority pid = none → Does plan (.spawn level (.ok pid)) (plan.spawn pid level)
  | notSpawned {level : Priority} {cause : SpawnError} : Does plan (.spawn level (.error cause)) plan
  | started {main idle : Pid} :
      plan.current = none → plan.priority main = none → plan.priority idle = none → main ≠ idle →
      Does plan (.start main idle) (plan.start main idle)
  | notSwitched : plan.current = none → Does plan .switch plan
  /-- The next process is the first one at the highest level where one waits. -/
  | switched {previous next : Pid} {level : Priority} {rest : List Pid} :
      plan.current = some previous →
      (plan.tidy.requeue previous).waiting level = next :: rest →
      (∀ higher : Priority, level.level < higher.level →
        (plan.tidy.requeue previous).waiting higher = []) →
      Does plan .switch ((plan.tidy.requeue previous).resume next level rest)
  | exited : Does plan (.exit plan.exit.1) plan.exit.2
  | killed (pid : Pid) : Does plan (.kill pid (plan.kill pid).1) (plan.kill pid).2
  | prioritised (pid : Pid) (level : Priority) :
      Does plan (.setPriority pid level (plan.setPriority pid level).1)
        (plan.setPriority pid level).2
  | waited : Does plan .wait plan

inductive Ran : List Act → Plan → Prop
  | empty : Ran [] .empty
  | step {acts : List Act} {plan after : Plan} {act : Act} :
      Ran acts plan → plan.Does act after → Ran (act :: acts) after

/-! ## Who is left alone -/

def about (plan : Plan) : Act → Plan → List Pid
  | .spawn _ (.ok pid), _ => [pid]
  | .start main idle, _ => [main, idle]
  | .switch, after => plan.current.toList ++ after.current.toList
  | .kill pid _, _ => [pid]
  | .setPriority pid _ _, _ => [pid]
  | _, _ => []

def apart (plan : Plan) (pids : List Pid) (level : Priority) : List Pid :=
  (plan.waiting level).filter (· ∉ pids)

variable {plan after : Plan} {pid : Pid} {pids : List Pid}

theorem apart_join (among : pid ∈ pids) (joined level : Priority) :
    (plan.join pid joined).apart pids level = plan.apart pids level := by
  by_cases h : level = joined
  · subst h
    simp [apart, join, among]
  · simp [apart, join, h]

theorem apart_leave (among : pid ∈ pids) (level : Priority) :
    (plan.leave pid).apart pids level = plan.apart pids level := by
  show ((plan.waiting level).erase pid).filter _ = (plan.waiting level).filter _
  rw [← List.erase_filter, List.erase_of_not_mem]
  simp [among]

theorem apart_requeue (among : pid ∈ pids) (level : Priority) :
    (plan.requeue pid).apart pids level = plan.apart pids level := by
  unfold requeue
  split
  · exact apart_join among _ _
  · rfl

theorem apart_resume {next : Pid} {top : Priority} {rest : List Pid}
    (first : plan.waiting top = next :: rest) (among : next ∈ pids) (level : Priority) :
    (plan.resume next top rest).apart pids level = plan.apart pids level := by
  by_cases h : level = top
  · subst h
    simp [apart, resume, first, among]
  · simp [apart, resume, h]

/-- Everyone else stays at the same level, behind and before the same others. -/
theorem Does.others {act : Act} (h : plan.Does act after) (level : Priority) :
    after.apart (plan.about act after) level = plan.apart (plan.about act after) level := by
  cases h with
  | spawned _ => exact apart_join (List.mem_singleton.mpr rfl) _ _
  | notSpawned => rfl
  | @started main idle => exact apart_join (by simp [about]) .min level
  | notSwitched _ => rfl
  | @switched previous next top rest hcurrent hfirst hhighest =>
      have hprevious : previous ∈ plan.about .switch
          ((plan.tidy.requeue previous).resume next top rest) := by simp [about, hcurrent]
      have hnext : next ∈ plan.about .switch
          ((plan.tidy.requeue previous).resume next top rest) := by simp [about, resume]
      calc _ = (plan.tidy.requeue previous).apart _ level := apart_resume hfirst hnext level
        _ = plan.tidy.apart _ level := apart_requeue hprevious level
  | exited =>
      unfold exit
      split
      · rfl
      · split <;> rfl
  | killed pid =>
      unfold kill
      split
      · rfl
      split
      · rfl
      split
      · rfl
      · exact apart_leave (List.mem_singleton.mpr rfl) level
  | prioritised pid new =>
      unfold setPriority
      split
      · rfl
      split
      · rfl
      split
      · have hmem := List.mem_singleton.mpr (rfl : pid = pid)
        calc _ = ((plan.setLevel pid new).leave pid).apart [pid] level := apart_join hmem new level
          _ = plan.apart [pid] level := apart_leave hmem level
      · rfl
  | waited => rfl

end Plan

end KernelCore
