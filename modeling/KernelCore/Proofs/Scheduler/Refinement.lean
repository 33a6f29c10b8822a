import Mathlib
import KernelCore.Proofs.Scheduler.Plan
import KernelCore.Proofs.Scheduler.Runs

/-!
# The scheduler follows its plan

`Scheduler.plan` reads the plan off a scheduler. Each operation does to the plan what the plan's
own operation does, and answers the same; over a run this is `Ran.follows_plan`.
-/

namespace KernelCore

namespace Scheduler

def hasExited (s : Scheduler) : Bool :=
  s.current.any fun pid => (s.process? pid).any (·.state == .terminated)

def plan (s : Scheduler) : Plan where
  waiting := s.queue
  current := s.current
  exited := s.hasExited
  idle := s.idle
  priority := fun pid => (s.process? pid).map (·.priority)

/-- One operation that comes back, with its answer. -/
inductive Does (s : Scheduler) : Act → Scheduler → Prop
  | spawn {request : SpawnRequest} {space : Option AddressSpace} {memory memory' : KernelMemory}
      {answer : Except SpawnError Pid} {t : Scheduler} :
      (s.spawn request space memory).result = .ok (answer, t, memory') →
      Does s (.spawn request.priority answer) t
  | start {stack : KernelStack} {idleEntry : Nat} {memory memory' : KernelMemory} {main idle : Pid}
      {t : Scheduler} :
      (s.start stack idleEntry memory).result = .ok (t, memory') →
      t.current = some main → t.idle = some idle → Does s (.start main idle) t
  | switch {frame : Nat} {memory : KernelMemory} {cpu : Processor} {switched : Switched} :
      (s.switch frame memory cpu).result = .ok switched → Does s .switch switched.scheduler
  | exit {answer : Except SchedError Pid} {t : Scheduler} :
      s.exitCurrent.result = .ok (answer, t) → Does s (.exit answer) t
  | kill {pid : Pid} {memory memory' : KernelMemory} {answer : Option SchedError}
      {t : Scheduler} :
      (s.kill pid memory).result = .ok (answer, t, memory') → Does s (.kill pid answer) t
  | setPriority (pid : Pid) (priority : Priority) :
      Does s (.setPriority pid priority (s.setPriority pid priority).1)
        (s.setPriority pid priority).2
  | tick (elapsed : Nat) : Does s .wait (s.onTick elapsed).2
  | addTimer (delay : Nat) (callback : Callback) (repeating : Bool) :
      Does s .wait (s.addTimer delay callback repeating).2
  | cancelTimer (id : TimerId) : Does s .wait (s.cancelTimer id).2

inductive Ran : List Act → Scheduler → Prop
  | empty : Ran [] .empty
  | step {acts : List Act} {s t : Scheduler} {act : Act} :
      Ran acts s → s.Does act t → Ran (act :: acts) t

variable {acts : List Act} {act : Act} {s t : Scheduler} {pid : Pid} {p : Process}

theorem Does.reached (hs : s.Does act t) {started : Bool} (h : Reached started s) :
    ∃ later, Reached later t := by
  cases hs with
  | spawn hspawn => exact ⟨_, h.step (.spawned hspawn)⟩
  | start hstart _ _ =>
      have hbefore : s.current.isSome = false := by rw [(start_eq_ok hstart).1]; rfl
      obtain rfl := h.sound.2.1.symm.trans hbefore
      exact ⟨_, h.start hstart⟩
  | switch hswitch => exact ⟨_, h.step (.switched hswitch)⟩
  | exit hexit => exact ⟨_, h.step (.exited hexit)⟩
  | kill hkill => exact ⟨_, h.step (.killed hkill)⟩
  | setPriority pid priority => exact ⟨_, h.step (.prioritised pid priority)⟩
  | tick elapsed => exact ⟨_, h.step (.ticked elapsed)⟩
  | addTimer delay callback repeating => exact ⟨_, h.step (.armed delay callback repeating)⟩
  | cancelTimer id => exact ⟨_, h.step (.disarmed id)⟩

theorem Ran.reached (h : Ran acts s) : ∃ started, Reached started s := by
  induction h with
  | empty => exact ⟨false, .empty⟩
  | step _ hs ih =>
      obtain ⟨started, hreached⟩ := ih
      exact hs.reached hreached

/-! ## Reading the plan -/

theorem queue_setQueue_eq (s : Scheduler) (priority : Priority) (queue : List Pid) :
    (s.setQueue priority queue).queue = Function.update s.queue priority queue := by
  funext other
  simp [Function.update_apply, eq_comm]

/-- A process that has exited stays on the processor until the next switch. -/
theorem Sound.hasExited_iff (h : s.Sound) (current : s.current = some pid)
    (hp : s.process? pid = some p) : s.hasExited = true ↔ p.state ≠ .running := by
  obtain ⟨q, hq, hstate⟩ := h.current pid current
  obtain rfl := Option.some.inj (hp.symm.trans hq)
  rcases hstate with hstate | hstate <;> simp [hasExited, current, hp, hstate]

theorem hasExited_congr (current : t.current = s.current)
    (same : ∀ pid, s.current = some pid →
      (t.process? pid).map (·.state) = (s.process? pid).map (·.state)) :
    t.hasExited = s.hasExited := by
  unfold hasExited
  rw [current]
  cases hcurrent : s.current with
  | none => rfl
  | some pid =>
      have hstate := same pid hcurrent
      cases ht : t.process? pid <;> cases hs : s.process? pid <;> simp_all

@[simp] theorem waiting_plan (s : Scheduler) : s.plan.waiting = s.queue := rfl

@[simp] theorem current_plan (s : Scheduler) : s.plan.current = s.current := rfl

@[simp] theorem idle_plan (s : Scheduler) : s.plan.idle = s.idle := rfl

theorem plan_priority (hp : s.process? pid = some p) : s.plan.priority pid = some p.priority := by
  show (s.process? pid).map (·.priority) = _
  rw [hp]
  rfl

theorem setLevel_plan (hp : s.process? pid = some p) : s.plan.setLevel pid p.priority = s.plan := by
  apply Plan.ext
  · rfl
  · rfl
  · rfl
  · rfl
  · exact Function.update_eq_self_iff.mpr (plan_priority hp).symm

theorem hasExited_of_update {f : Process → Process} (keeps : ∀ p, (f p).pid = p.pid)
    (hp : s.process? pid = some p) (table : t.processes = (s.update pid f).processes)
    (current : t.current = some pid) : t.hasExited = ((f p).state == .terminated) := by
  simp [hasExited, current, process?_of_update keeps hp table]

theorem plan_empty : Scheduler.empty.plan = .empty := by
  apply Plan.ext
  · funext level
    simp [queue, Scheduler.empty, Plan.empty]
  · rfl
  · rfl
  · rfl
  · rfl

theorem plan_of_update {f : Process → Process} (keeps : ∀ p, (f p).pid = p.pid)
    (hp : s.process? pid = some p) (table : t.processes = (s.update pid f).processes)
    (current : t.current = s.current) (idle : t.idle = s.idle) {waiting : Priority → List Pid}
    {exited : Bool} (queue : t.queue = waiting) (ended : t.hasExited = exited) :
    t.plan = { s.plan.setLevel pid (f p).priority with waiting, exited } := by
  have hlookup := process?_of_update keeps hp table
  apply Plan.ext
  · exact queue
  · exact current
  · exact ended
  · exact idle
  · funext other
    show (t.process? other).map (·.priority) =
      Function.update s.plan.priority pid (some (f p).priority) other
    rw [hlookup, Function.update_apply]
    split
    · rfl
    · rfl

theorem plan_of_mark {f : Process → Process} (keeps : ∀ p, (f p).pid = p.pid)
    (hp : s.process? pid = some p) (level : (f p).priority = p.priority)
    (table : t.processes = (s.update pid f).processes)
    (current : t.current = s.current) (idle : t.idle = s.idle) {waiting : Priority → List Pid}
    {exited : Bool} (queue : t.queue = waiting) (ended : t.hasExited = exited) :
    t.plan = { s.plan with waiting, exited } := by
  have hplan := plan_of_update keeps hp table current idle queue ended
  rwa [level, setLevel_plan hp] at hplan

/-! ## One operation -/

theorem Sound.plan_spawned (h : s.Sound) {request : SpawnRequest} (hs : Spawned request s p t) :
    s.plan.priority p.pid = none ∧ t.plan = s.plan.spawn p.pid request.priority := by
  have hcurrent : t.current = s.current := hs.left ▸ rfl
  have hnew : s.plan.priority p.pid = none := by
    show (s.process? p.pid).map _ = none
    rw [hs.fresh]
    rfl
  refine ⟨hnew, ?_⟩
  apply Plan.ext
  · rw [hs.left]
    exact queue_setQueue_eq s _ _
  · exact hcurrent
  · apply hasExited_congr hcurrent
    intro pid hpid
    obtain ⟨q, hq, -⟩ := h.current pid hpid
    rw [hs.lookup, if_neg]
    rintro rfl
    rw [hs.fresh] at hq
    contradiction
  · rw [hs.left]
    rfl
  · funext other
    show (t.process? other).map (·.priority) =
      Function.update s.plan.priority p.pid (some request.priority) other
    rw [hs.lookup, Function.update_apply]
    split
    · exact congrArg some hs.priority
    · rfl

theorem Sound.plan_withBoot (h : s.Sound) (before : s.current = none) (stack : KernelStack) :
    s.plan.priority s.allocatePid.1 = none ∧
      (s.withBoot stack).plan =
        { s.plan.setLevel s.allocatePid.1 .normal with current := some s.allocatePid.1 } := by
  have hfresh := process?_allocatePid h.next h.bounded
  have hlookup := h.process?_withBoot stack
  have hnew : s.plan.priority s.allocatePid.1 = none := by
    show (s.process? s.allocatePid.1).map _ = none
    rw [hfresh]
    rfl
  have hexited : (s.withBoot stack).hasExited = s.hasExited := by
    have hcurrent : (s.withBoot stack).current = some s.allocatePid.1 := rfl
    simp [hasExited, hcurrent, before, hlookup, bootProcess]
  refine ⟨hnew, Plan.ext rfl rfl hexited rfl (funext fun other => ?_)⟩
  show ((s.withBoot stack).process? other).map (·.priority) =
    Function.update s.plan.priority s.allocatePid.1 (some .normal) other
  rw [hlookup, Function.update_apply]
  split
  · rfl
  · rfl

theorem Sound.plan_started (h : s.Sound) {stack : KernelStack} {idleEntry : Nat}
    {memory memory' : KernelMemory} {main idle : Pid}
    (hstart : (s.start stack idleEntry memory).result = .ok (t, memory'))
    (hmain : t.current = some main) (hidle : t.idle = some idle) :
    s.plan.Does (.start main idle) t.plan := by
  obtain ⟨hbefore, hroom, spawned, u, hspawn, rfl⟩ := start_eq_ok hstart
  have hboot := h.withBoot hbefore hroom stack
  obtain ⟨hnewMain, hplan⟩ := h.plan_withBoot hbefore stack
  rcases hboot.toFiled.spawn_cases hspawn with ⟨cause, hanswer, -⟩ | ⟨p, hanswer, hspawned⟩
  · contradiction
  · obtain rfl := Except.ok.inj hanswer
    obtain rfl := Option.some.inj hidle
    obtain ⟨hnew, hafter⟩ := hboot.plan_spawned hspawned
    have hcurrent : u.current = some s.allocatePid.1 := hspawned.left ▸ rfl
    obtain rfl := Option.some.inj (hcurrent.symm.trans hmain)
    rw [hplan] at hnew hafter
    have hstarted : ({ u with idle := some p.pid } : Scheduler).plan =
        s.plan.start s.allocatePid.1 p.pid := by
      show { u.plan with idle := some p.pid } = _
      rw [hafter]
      rfl
    rw [hstarted]
    have hother : s.allocatePid.1 ≠ p.pid := by
      intro hsame
      rw [← hsame] at hnew
      simp [Plan.setLevel] at hnew
    refine .started hbefore hnewMain ?_ hother
    simpa [Plan.setLevel, hother.symm] using hnew

/-- Reaping forgets the processes that have left the processor for good. -/
theorem Sound.plan_withoutEnded (h : s.Sound) : s.withoutEnded.plan = s.plan.tidy := by
  have hexited : s.withoutEnded.hasExited = s.hasExited := by
    apply hasExited_congr s.current_withoutEnded
    intro pid hcurrent
    obtain ⟨p, hp, -⟩ := h.current pid hcurrent
    rw [hp, process?_withoutEnded_of_live h.distinct hp (.inr (.inr hcurrent))]
  have hpriority : ∀ pid, (s.withoutEnded.process? pid).map (·.priority) =
      ((s.process? pid).map (·.priority)).filter fun level =>
        s.current = some pid ∨ pid ∈ s.queue level := by
    intro pid
    rw [process?_withoutEnded h.distinct]
    cases hp : s.process? pid with
    | none => rfl
    | some p =>
        obtain ⟨-, rfl⟩ := process?_mem hp
        have hkept :
            (!s.reapable p) = decide (s.current = some p.pid ∨ p.pid ∈ s.queue p.priority) := by
          rw [Bool.eq_iff_iff, decide_eq_true_iff, h.mem_queue_iff hp, Bool.not_eq_true',
            ← Bool.not_eq_true, reapable_eq_true]
          cases hstate : p.state with
          | ready => simp
          | running => simp [h.running _ p hp hstate]
          | terminated => simp
        simp only [Option.filter, Option.map_some, hkept]
        split <;> rfl
  exact Plan.ext rfl rfl hexited rfl (funext hpriority)

theorem Sound.plan_suspended (h : s.Sound) (current : s.current = some pid) {frame : Nat}
    (hsuspend : s.suspend pid frame = .ok t) : t.plan = s.plan.requeue pid := by
  obtain ⟨p, hp, hstate⟩ := h.current pid current
  obtain ⟨-, hleft⟩ := suspend_eq_ok hp hsuspend
  by_cases hrun : p.state = .running
  · have hroom : (s.queue p.priority).length < processCapacity :=
      (h.toFiled.join hp (f := fun q => { q with frame, state := .ready }) (fun _ => rfl)
        (by simp [hrun]) rfl rfl).1
    rw [if_pos hrun, push_eq (by rwa [queue_update])] at hleft
    have hlive : s.hasExited = false := by
      apply Bool.eq_false_iff.mpr
      exact fun hexited => (h.hasExited_iff current hp).mp hexited hrun
    have hexited : t.hasExited = s.hasExited := by
      rw [hlive]
      exact hasExited_of_update (f := fun q => { q with frame, state := .ready }) (fun _ => rfl) hp
        (hleft ▸ rfl) (hleft ▸ current)
    have hqueue : t.queue = Function.update s.queue p.priority (s.queue p.priority ++ [pid]) := by
      rw [hleft]
      exact queue_setQueue_eq _ _ _
    rw [Plan.requeue_live hlive (plan_priority hp)]
    exact plan_of_mark (f := fun q => { q with frame, state := .ready }) (fun _ => rfl) hp rfl
      (hleft ▸ rfl) (hleft ▸ rfl) (hleft ▸ rfl) hqueue hexited
  · rw [if_neg hrun] at hleft
    have hended : s.hasExited = true := (h.hasExited_iff current hp).mpr hrun
    have hexited : t.hasExited = s.hasExited := by
      rw [hended, hasExited_of_update (f := fun q => { q with frame }) (fun _ => rfl) hp
        (hleft ▸ rfl) (hleft ▸ current)]
      exact beq_iff_eq.mpr (hstate.resolve_left hrun)
    rw [Plan.requeue_exited hended]
    exact plan_of_mark (f := fun q => { q with frame }) (fun _ => rfl) hp rfl (hleft ▸ rfl)
      (hleft ▸ rfl) (hleft ▸ rfl) (hleft ▸ rfl) hexited

theorem plan_dispatched (hdispatch : s.dispatch = .ok (p, t)) :
    ∃ level rest, s.plan.waiting level = p.pid :: rest ∧
      (∀ higher : Priority, level.level < higher.level → s.plan.waiting higher = []) ∧
      t.plan = s.plan.resume p.pid level rest := by
  have hlookup := process?_dispatch hdispatch
  obtain ⟨level, rest, hqueue, hhighest, hp, hleft⟩ := dispatch_eq_ok hdispatch
  refine ⟨level, rest, hqueue, hhighest, ?_⟩
  have hcurrent : t.current = some p.pid := hleft ▸ rfl
  apply Plan.ext
  · rw [hleft]
    exact queue_setQueue_eq s level rest
  · exact hcurrent
  · show t.hasExited = false
    simp [hasExited, hcurrent, hlookup]
  · rw [hleft]
    rfl
  · funext other
    show (t.process? other).map (·.priority) = (s.process? other).map (·.priority)
    rw [hlookup]
    split
    · next hsame => rw [hsame, hp]; rfl
    · rfl

theorem Sound.plan_switched (h : s.Sound) {frame : Nat} {memory : KernelMemory} {cpu : Processor}
    {switched : Switched} (hswitch : (s.switch frame memory cpu).result = .ok switched) :
    s.plan.Does .switch switched.scheduler.plan := by
  rcases switch_eq_ok hswitch with ⟨hcurrent, rfl⟩ |
    ⟨previous, reaped, suspended, next, hcurrent, hreap, hsuspend, hdispatch, -⟩
  · exact .notSwitched hcurrent
  · obtain rfl := reap_eq_ok hreap
    obtain ⟨level, rest, hfirst, hhighest, hplan⟩ := plan_dispatched hdispatch
    rw [h.reaped.plan_suspended hcurrent hsuspend, h.plan_withoutEnded] at hfirst hhighest hplan
    rw [hplan]
    exact .switched hcurrent hfirst hhighest

theorem Sound.plan_exited (h : s.Sound) {answer : Except SchedError Pid}
    (hexit : s.exitCurrent.result = .ok (answer, t)) : s.plan.exit = (answer, t.plan) := by
  rcases exitCurrent_eq_ok hexit with ⟨hnone, rfl, rfl⟩ |
    ⟨pid, hcurrent, ⟨hidle, rfl, rfl⟩ | ⟨hidle, rfl, hleft⟩⟩
  · exact Plan.exit_none hnone
  · rw [Plan.exit_some hcurrent]
    exact if_pos hidle
  · obtain ⟨p, hp, -⟩ := h.current pid hcurrent
    have hexited : t.hasExited = true :=
      hasExited_of_update (f := fun q => { q with state := .terminated }) (fun _ => rfl) hp
        (hleft ▸ rfl) (hleft ▸ hcurrent)
    have hplan : t.plan = { s.plan with exited := true } :=
      plan_of_mark (f := fun q => { q with state := .terminated }) (fun _ => rfl) hp rfl
        (hleft ▸ rfl) (hleft ▸ rfl) (hleft ▸ rfl) (hleft ▸ rfl) hexited
    rw [Plan.exit_some hcurrent, hplan]
    exact if_neg hidle

theorem Filed.queue_unqueue_update (h : s.Filed) (hp : s.process? p.pid = some p)
    (f : Process → Process) :
    ((s.update p.pid f).unqueue p.priority p.pid).queue =
      fun level => (s.queue level).erase p.pid := by
  funext level
  rw [queue_unqueue, queue_update]
  split
  · exact ((h.once level).erase_eq_filter p.pid).symm
  · next hother =>
      rw [List.erase_of_not_mem]
      exact fun hm => hother ((h.mem_queue_iff hp level).mp hm).2

/-- A process that is killed drops out of the list it waited in. -/
theorem Sound.plan_condemned (h : s.Sound) (hp : s.process? p.pid = some p)
    (off : s.current ≠ some p.pid) : (s.condemn p).plan = s.plan.leave p.pid := by
  have hqueue : (s.condemn p).queue = fun level => (s.queue level).erase p.pid := by
    unfold condemn
    split
    · exact h.toFiled.queue_unqueue_update hp _
    · next hnot =>
        funext level
        rw [List.erase_of_not_mem]
        · rfl
        · exact fun hm => hnot ((h.mem_queue_iff hp level).mp hm).1
  have hexited : (s.condemn p).hasExited = s.hasExited := by
    apply hasExited_congr (s.current_condemn p)
    intro pid hcurrent
    rw [process?_of_update (f := fun q => { q with state := .terminated }) (fun _ => rfl) hp
      (s.processes_condemn p), if_neg]
    rintro rfl
    exact off hcurrent
  exact plan_of_mark (f := fun q => { q with state := .terminated }) (fun _ => rfl) hp rfl
    (s.processes_condemn p) (s.current_condemn p) (s.idle_condemn p) hqueue hexited

theorem plan_priority_none (hnone : s.process? pid = none) : s.plan.priority pid = none := by
  show (s.process? pid).map (·.priority) = none
  rw [hnone]
  rfl

theorem Sound.plan_killed (h : s.Sound) {memory memory' : KernelMemory}
    {answer : Option SchedError}
    (hkill : (s.kill pid memory).result = .ok (answer, t, memory')) :
    s.plan.kill pid = (answer, t.plan) := by
  rw [Plan.kill, idle_plan, current_plan]
  rcases s.kill_cases pid memory with ⟨hidle, hrefused⟩ | ⟨hidle, hcurrent, hrefused⟩ |
    ⟨hidle, hcurrent, hnone, hrefused⟩ | ⟨p, hidle, hcurrent, hp, hreaps⟩
  · obtain ⟨rfl, rfl, -⟩ := by simpa using hrefused.symm.trans hkill
    rw [if_pos hidle]
  · obtain ⟨rfl, rfl, -⟩ := by simpa using hrefused.symm.trans hkill
    rw [if_neg hidle, if_pos hcurrent]
  · obtain ⟨rfl, rfl, -⟩ := by simpa using hrefused.symm.trans hkill
    rw [if_neg hidle, if_neg hcurrent, plan_priority_none hnone]
  · obtain ⟨-, rfl⟩ := process?_mem hp
    rw [if_neg hidle, if_neg hcurrent, plan_priority hp]
    cases hreap : ((s.condemn p).reap memory).result with
    | error cause => simp [hreaps, hreap, Except.map] at hkill
    | ok reaped =>
        obtain ⟨u, memory₁⟩ := reaped
        rw [hreaps, hreap] at hkill
        obtain ⟨rfl, rfl, -⟩ := by simpa [Except.map] using hkill
        obtain rfl := reap_eq_ok hreap
        rw [(h.condemned hp hidle).plan_withoutEnded, h.plan_condemned hp hcurrent]

/-- A process that is given a priority moves if it waits elsewhere. -/
theorem Sound.plan_promoted (h : s.Sound) (hp : s.process? p.pid = some p) (priority : Priority) :
    (s.promote p priority).plan =
      if p.pid ∈ s.plan.waiting p.priority ∧ p.priority ≠ priority then
        ((s.plan.setLevel p.pid priority).leave p.pid).join p.pid priority
      else s.plan.setLevel p.pid priority := by
  obtain ⟨htable, hcurrent, hidle⟩ := h.toFiled.promote_keeps hp priority
  have hexited : (s.promote p priority).hasExited = s.hasExited := by
    apply hasExited_congr hcurrent
    intro pid _
    rw [process?_of_update (f := fun q => { q with priority }) (fun _ => rfl) hp htable]
    split
    · next hsame => rw [hsame, hp]; rfl
    · rfl
  have hwaits : p.pid ∈ s.plan.waiting p.priority ↔ p.state = .ready :=
    (h.mem_queue_iff hp p.priority).trans (and_iff_left rfl)
  have hplan : ∀ {waiting}, (s.promote p priority).queue = waiting →
      (s.promote p priority).plan = { s.plan.setLevel p.pid priority with waiting } := by
    intro waiting hqueue
    exact plan_of_update (f := fun q => { q with priority }) (fun _ => rfl) hp htable hcurrent hidle
      hqueue hexited
  split
  · next hmoves =>
      apply hplan
      rw [h.toFiled.promote_eq hp, if_pos ⟨hwaits.mp hmoves.1, hmoves.2⟩, queue_setQueue_eq]
      have habsent : p.pid ∉ s.queue priority := fun hm =>
        hmoves.2 ((h.mem_queue_iff hp priority).mp hm).2
      have hrest : s.queue priority = (s.queue priority).erase p.pid :=
        (List.erase_of_not_mem habsent).symm
      rw [h.toFiled.queue_unqueue_update hp]
      exact congrArg (fun rest : List Pid => Function.update
        (fun level => (s.queue level).erase p.pid) priority (rest ++ [p.pid])) hrest
  · next hstays =>
      apply hplan
      rw [h.toFiled.promote_eq hp, if_neg fun hmoves => hstays ⟨hwaits.mpr hmoves.1, hmoves.2⟩]
      rfl

theorem Sound.plan_prioritised (h : s.Sound) (pid : Pid) (priority : Priority) :
    s.plan.setPriority pid priority =
      ((s.setPriority pid priority).1, (s.setPriority pid priority).2.plan) := by
  rw [Plan.setPriority, idle_plan]
  rcases s.setPriority_cases pid priority with ⟨hidle, hset⟩ | ⟨hidle, hnone, hset⟩ |
    ⟨p, hidle, hp, hset⟩
  · rw [hset, if_pos hidle]
  · rw [hset, if_neg hidle, plan_priority_none hnone]
  · obtain ⟨-, rfl⟩ := process?_mem hp
    rw [hset, if_neg hidle, plan_priority hp, h.plan_promoted hp]
    simp only
    split
    · rfl
    · rfl

theorem plan_congr (table : t.processes = s.processes) (ready : t.ready = s.ready)
    (current : t.current = s.current) (idle : t.idle = s.idle) : t.plan = s.plan := by
  cases s
  cases t
  cases table
  cases ready
  cases current
  cases idle
  rfl

theorem Sound.plan_ticked (h : s.Sound) (elapsed : Nat) : (s.onTick elapsed).2.plan = s.plan := by
  have htable := s.processes_onTick elapsed
  cases hcurrent : s.current with
  | none =>
      rw [hcurrent] at htable
      exact plan_congr htable (s.ready_onTick elapsed) (s.current_onTick elapsed)
        (s.idle_onTick elapsed)
  | some pid =>
      rw [hcurrent] at htable
      obtain ⟨p, hp, -⟩ := h.current pid hcurrent
      have hqueue : (s.onTick elapsed).2.queue = s.queue := by
        funext level
        rw [queue, ready_onTick, queue]
      have hexited : (s.onTick elapsed).2.hasExited = s.hasExited := by
        apply hasExited_congr (s.current_onTick elapsed)
        intro other _
        rw [process?_of_update (f := fun q => { q with ticks := q.ticks + 1 }) (fun _ => rfl) hp
          htable]
        split
        · next hsame => rw [hsame, hp]; rfl
        · rfl
      exact plan_of_mark (f := fun q => { q with ticks := q.ticks + 1 }) (fun _ => rfl) hp rfl
        htable (s.current_onTick elapsed) (s.idle_onTick elapsed) hqueue hexited

theorem Sound.plan_does (h : s.Sound) (hs : s.Does act t) : s.plan.Does act t.plan := by
  cases hs with
  | spawn hspawn =>
      rcases h.toFiled.spawn_cases hspawn with ⟨cause, rfl, -, rfl⟩ | ⟨p, rfl, hspawned⟩
      · exact .notSpawned
      · obtain ⟨hnew, hplan⟩ := h.plan_spawned hspawned
        exact hplan ▸ .spawned hnew
  | start hstart hmain hidle => exact h.plan_started hstart hmain hidle
  | switch hswitch => exact h.plan_switched hswitch
  | exit hexit =>
      have hplan := h.plan_exited hexit
      have hdoes := @Plan.Does.exited s.plan
      rwa [hplan] at hdoes
  | @kill pid _ _ _ _ hkill =>
      have hplan := h.plan_killed hkill
      have hdoes := @Plan.Does.killed s.plan pid
      rwa [hplan] at hdoes
  | setPriority pid priority =>
      have hplan := h.plan_prioritised pid priority
      have hdoes := @Plan.Does.prioritised s.plan pid priority
      rwa [hplan] at hdoes
  | tick elapsed =>
      rw [h.plan_ticked]
      exact .waited
  | addTimer delay callback repeating => exact .waited
  | cancelTimer id => exact .waited

/-! ## Refusals -/

def killRefusal (s : Scheduler) (pid : Pid) : Option SchedError :=
  if s.idle = some pid then some .isIdle
  else if s.current = some pid then some .isCurrent
  else if pid ∈ s.pids then none
  else some .noSuchProcess

def priorityRefusal (s : Scheduler) (pid : Pid) : Option SchedError :=
  if s.idle = some pid then some .isIdle
  else if pid ∈ s.pids then none
  else some .noSuchProcess

theorem kill_refused_iff {memory memory' : KernelMemory} {cause : SchedError} :
    (s.kill pid memory).result = .ok (some cause, t, memory') ↔
      s.killRefusal pid = some cause ∧ t = s ∧ memory' = memory := by
  unfold killRefusal
  rcases s.kill_cases pid memory with ⟨hidle, hkill⟩ | ⟨hidle, hcurrent, hkill⟩ |
    ⟨hidle, hcurrent, hnone, hkill⟩ | ⟨p, hidle, hcurrent, hp, hkill⟩
  · rw [hkill, if_pos hidle]
    simp [eq_comm]
  · rw [hkill, if_neg hidle, if_pos hcurrent]
    simp [eq_comm]
  · rw [hkill, if_neg hidle, if_neg hcurrent, if_neg (process?_eq_none.mp hnone)]
    simp [eq_comm]
  · rw [hkill, if_neg hidle, if_neg hcurrent, if_pos (process?_mem_pids hp)]
    cases ((s.condemn p).reap memory).result <;> simp [Except.map]

/-- A kill that is not refused succeeds as far as what has ended can be reaped. -/
theorem kill_of_not_refused (hkill : s.killRefusal pid = none) (memory : KernelMemory) :
    ∃ p, s.process? pid = some p ∧ (s.kill pid memory).result =
      ((s.condemn p).reap memory).result.map fun reaped => (none, reaped.1, reaped.2) := by
  unfold killRefusal at hkill
  rcases s.kill_cases pid memory with ⟨hidle, -⟩ | ⟨hidle, hcurrent, -⟩ |
    ⟨hidle, hcurrent, hnone, -⟩ | ⟨p, -, -, hp, hreaps⟩
  · simp [hidle] at hkill
  · simp [if_neg hidle, hcurrent] at hkill
  · simp [if_neg hidle, if_neg hcurrent, process?_eq_none.mp hnone] at hkill
  · exact ⟨p, hp, hreaps⟩

theorem setPriority_answer (s : Scheduler) (pid : Pid) (priority : Priority) :
    (s.setPriority pid priority).1 = s.priorityRefusal pid ∧
      ((s.priorityRefusal pid).isSome → (s.setPriority pid priority).2 = s) := by
  unfold priorityRefusal
  rcases s.setPriority_cases pid priority with ⟨hidle, hset⟩ | ⟨hidle, hnone, hset⟩ |
    ⟨p, hidle, hp, hset⟩
  · rw [hset, if_pos hidle]
    exact ⟨rfl, fun _ => rfl⟩
  · rw [hset, if_neg hidle, if_neg (process?_eq_none.mp hnone)]
    exact ⟨rfl, fun _ => rfl⟩
  · rw [hset, if_neg hidle, if_pos (process?_mem_pids hp)]
    exact ⟨rfl, fun hsome => nomatch hsome⟩

/-! ## Runs -/

structure FollowsPlan (s : Scheduler) : Prop where
  /-- An operation does to the plan what it should, and answers the same. -/
  does : ∀ {act t}, s.Does act t → s.plan.Does act t.plan
  /-- Processes that an operation is not about keep their level and their order. -/
  others : ∀ {act t}, s.Does act t → ∀ level,
    t.plan.apart (s.plan.about act t.plan) level = s.plan.apart (s.plan.about act t.plan) level
  /-- A kill is refused for these reasons only, and then nothing changes. -/
  kills : ∀ {pid memory cause t memory'},
    (s.kill pid memory).result = .ok (some cause, t, memory') ↔
      s.killRefusal pid = some cause ∧ t = s ∧ memory' = memory
  killed : ∀ {pid}, s.killRefusal pid = none → ∀ memory, ∃ p, s.process? pid = some p ∧
    (s.kill pid memory).result =
      ((s.condemn p).reap memory).result.map fun reaped => (none, reaped.1, reaped.2)
  prioritises : ∀ pid priority, (s.setPriority pid priority).1 = s.priorityRefusal pid ∧
    ((s.priorityRefusal pid).isSome → (s.setPriority pid priority).2 = s)

theorem Ran.sound (h : Ran acts s) : s.Sound := by
  obtain ⟨started, hreached⟩ := h.reached
  exact hreached.sound.1

/-- A run of the scheduler is a run of its plan, whatever operation comes next. -/
theorem Ran.follows_plan (h : Ran acts s) : Plan.Ran acts s.plan ∧ s.FollowsPlan := by
  have hplan : Plan.Ran acts s.plan := by
    induction h with
    | empty => exact plan_empty ▸ .empty
    | step hran hs ih => exact ih.step (hran.sound.plan_does hs)
  refine ⟨hplan, ?_, ?_, kill_refused_iff, kill_of_not_refused, s.setPriority_answer⟩
  · exact fun hs => h.sound.plan_does hs
  · exact fun hs level => (h.sound.plan_does hs).others level

/-- A process that is spawned before the start and promoted after it has passed the main process
by. -/
theorem follows_plan_after_promotion :
    ∃ s, Ran [.setPriority ⟨0⟩ .high none, .start ⟨1⟩ ⟨2⟩, .spawn .normal (.ok ⟨0⟩)] s ∧
      s.plan.waiting .high = [⟨0⟩] ∧ s.plan.waiting .normal = [] ∧ s.plan.current = some ⟨1⟩ ∧
      Plan.Ran [.setPriority ⟨0⟩ .high none, .start ⟨1⟩ ⟨2⟩, .spawn .normal (.ok ⟨0⟩)] s.plan ∧
      s.FollowsPlan := by
  have hspawned := Ran.empty.step (@Does.spawn _ ⟨0x1000, .normal, 7, 0x1000, ⟨true, false⟩⟩
    none sampleMemory _ (.ok ⟨0⟩) _ rfl)
  have hstarted := hspawned.step (.start (@Eq.refl _ (start _ ⟨0x40000, 0x1000, false⟩ 0x2000
    sampleMemory).result) rfl rfl)
  have hpromoted := hstarted.step (.setPriority ⟨0⟩ .high)
  exact ⟨_, hpromoted, rfl, rfl, rfl, hpromoted.follows_plan⟩

end Scheduler

end KernelCore
