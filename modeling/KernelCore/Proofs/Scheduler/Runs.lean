import Mathlib
import KernelCore.Proofs.Scheduler.Progress

/-!
# Runs of the scheduler

A run begins with an empty scheduler and applies operations in any order, each on whatever memory
and processor there are at the time. `Reached.well_queued` says that the queues hold exactly the
ready processes throughout, and that nothing that relies on it fails: pushes find room, and a
switch finds a process.
-/

namespace KernelCore

namespace Scheduler

inductive Step (s : Scheduler) : Scheduler → Prop
  | spawned {request : SpawnRequest} {space : Option AddressSpace} {memory memory' : KernelMemory}
      {answer : Except SpawnError Pid} {t : Scheduler} :
      (s.spawn request space memory).result = .ok (answer, t, memory') → Step s t
  | switched {frame : Nat} {memory : KernelMemory} {cpu : Processor} {switched : Switched} :
      (s.switch frame memory cpu).result = .ok switched → Step s switched.scheduler
  | ticked (elapsed : Nat) : Step s (s.onTick elapsed).2
  | exited {answer : Except SchedError Pid} {t : Scheduler} :
      s.exitCurrent.result = .ok (answer, t) → Step s t
  | killed {pid : Pid} {memory memory' : KernelMemory} {answer : Option SchedError}
      {t : Scheduler} :
      (s.kill pid memory).result = .ok (answer, t, memory') → Step s t
  | prioritised (pid : Pid) (priority : Priority) : Step s (s.setPriority pid priority).2
  | armed (delay : Nat) (callback : Callback) (repeating : Bool) :
      Step s (s.addTimer delay callback repeating).2
  | disarmed (id : TimerId) : Step s (s.cancelTimer id).2

/-- The schedulers that a run comes to, before and after the start. -/
inductive Reached : Bool → Scheduler → Prop
  | empty : Reached false .empty
  | step {started : Bool} {s t : Scheduler} : Reached started s → Step s t → Reached started t
  | start {s t : Scheduler} {stack : KernelStack} {idleEntry : Nat}
      {memory memory' : KernelMemory} :
      Reached false s → (s.start stack idleEntry memory).result = .ok (t, memory') →
      Reached true t

variable {started : Bool} {s t : Scheduler}

/-! ## What a run preserves -/

theorem Sound.step (h : s.Sound) (hs : Step s t) :
    t.Sound ∧ t.current.isSome = s.current.isSome ∧ t.idle = s.idle := by
  cases hs with
  | spawned hspawn =>
      rcases h.toFiled.spawn_cases hspawn with ⟨-, -, -, rfl⟩ | ⟨p, -, hp⟩
      · exact ⟨h, rfl, rfl⟩
      · exact ⟨h.spawned hp, by rw [hp.left]; rfl, by rw [hp.left]; rfl⟩
  | switched hswitch => exact h.switched hswitch
  | ticked elapsed =>
      exact ⟨h.ticked elapsed, by rw [current_onTick], s.idle_onTick elapsed⟩
  | exited hexit =>
      obtain ⟨hsound, hcurrent, hidle⟩ := h.exited hexit
      exact ⟨hsound, by rw [hcurrent], hidle⟩
  | killed hkill =>
      obtain ⟨hsound, hcurrent, hidle⟩ := h.killed hkill
      exact ⟨hsound, by rw [hcurrent], hidle⟩
  | prioritised pid priority =>
      obtain ⟨hsound, hcurrent, hidle⟩ := h.prioritised pid priority
      exact ⟨hsound, by rw [hcurrent], hidle⟩
  | armed delay callback repeating => exact ⟨h.congr rfl rfl rfl rfl rfl, rfl, rfl⟩
  | disarmed id => exact ⟨h.congr rfl rfl rfl rfl rfl, rfl, rfl⟩

/-- Every scheduler of a run is sound; it has a current and an idle process once it was started. -/
theorem Reached.sound (h : Reached started s) :
    s.Sound ∧ s.current.isSome = started ∧ s.idle.isSome = started := by
  induction h with
  | empty => exact ⟨sound_empty, rfl, rfl⟩
  | step _ hs ih =>
      obtain ⟨hsound, hcurrent, hidle⟩ := ih
      obtain ⟨hsound', hcurrent', hidle'⟩ := hsound.step hs
      exact ⟨hsound', hcurrent'.trans hcurrent, by rw [hidle', hidle]⟩
  | start _ hstart ih =>
      obtain ⟨hsound, hcurrent, hidle⟩ := ih.1.started hstart
      exact ⟨hsound, hcurrent, hidle⟩

/-! ## Queues over a run -/

structure WellQueued (started : Bool) (s : Scheduler) : Prop where
  distinct : (s.processes.map (·.pid)).Nodup
  /-- A ready process is in the queue of its priority, once, and in no other. -/
  waiting : ∀ p ∈ s.processes, p.state = .ready → ∀ priority,
    (s.queue priority).count p.pid = if p.priority = priority then 1 else 0
  /-- The queues hold nothing but ready processes. -/
  ready : ∀ priority, ∀ pid ∈ s.queue priority, ∃ p ∈ s.processes, p.pid = pid ∧ p.state = .ready
  running : ∀ p ∈ s.processes, p.state = .running → s.current = some p.pid
  current : started = true → ∃ p ∈ s.processes, s.current = some p.pid ∧
    (p.state = .running ∨ p.state = .terminated)
  idle : started = true → ∃ p ∈ s.processes, s.idle = some p.pid ∧ p.priority = .min ∧
    (p.state = .ready ∨ p.state = .running)

theorem Sound.wellQueued (h : s.Sound) (current : s.current.isSome = started)
    (idle : s.idle.isSome = started) : s.WellQueued started where
  distinct := h.distinct
  waiting := by
    intro p hm hready priority
    have hp := process?_of_mem h.distinct hm
    rw [List.Nodup.count (h.once priority)]
    simp only [h.mem_queue_iff hp, hready, true_and]
  ready := by
    intro priority pid hm
    obtain ⟨p, hp, hready, -⟩ := (h.queued priority pid).mp hm
    obtain ⟨hmem, hpid⟩ := process?_mem hp
    exact ⟨p, hmem, hpid, hready⟩
  running := fun p hm => h.running p.pid p (process?_of_mem h.distinct hm)
  current := by
    intro hstarted
    obtain ⟨pid, hpid⟩ := Option.isSome_iff_exists.mp (current.trans hstarted)
    obtain ⟨p, hp, hstate⟩ := h.current pid hpid
    obtain ⟨hm, rfl⟩ := process?_mem hp
    exact ⟨p, hm, hpid, hstate⟩
  idle := by
    intro hstarted
    obtain ⟨pid, hpid⟩ := Option.isSome_iff_exists.mp (idle.trans hstarted)
    obtain ⟨p, hp, hlevel, hstate⟩ := h.idle pid hpid
    obtain ⟨hm, rfl⟩ := process?_mem hp
    exact ⟨p, hm, hpid, hlevel, hstate⟩

/-- Nothing that relies on the queues fails: pushes find room, a switch finds a process, and what
has the room it needs comes back. -/
structure NeverStuck (s : Scheduler) : Prop where
  /-- A queue is never too full for a new process. -/
  queues : ∀ {request space memory answer t memory'},
    (s.spawn request space memory).result = .ok (answer, t, memory') → answer ≠ .error .queueFull
  /-- A ready process moves to the queue of another priority. -/
  moves : ∀ {pid p priority}, s.process? pid = some p → p.state = .ready →
    p.priority ≠ priority →
      (((s.update pid fun q => { q with priority }).unqueue p.priority pid).push? priority
        pid).isSome
  /-- The running process rejoins the queue of its priority. -/
  rejoins : ∀ {pid p memory reaped memory'} (frame : Nat),
    (s.reap memory).result = .ok (reaped, memory') → reaped.process? pid = some p →
      p.state = .running →
        ((reaped.update pid fun q => { q with frame, state := .ready }).push? p.priority pid).isSome
  /-- A switch always has a process to dispatch, which is in the table. -/
  dispatches : ∀ {pid frame memory reaped memory' suspended}, s.current = some pid →
    (s.reap memory).result = .ok (reaped, memory') → reaped.suspend pid frame = .ok suspended →
      ∃ next t, suspended.dispatch = .ok (next, t)
  spawns : ∀ {request : SpawnRequest} {memory base memory'} (space : Option AddressSpace),
    s.processes.length < processCapacity → minStackSize ≤ request.stackSize →
      (memory.tryAlloc request.stackSize false).result = .ok (.ok base, memory') →
        base + request.stackSize < wordLimit →
          ∃ pid t memory'', (s.spawn request space memory).result = .ok (.ok pid, t, memory'')
  starts : ∀ {memory base memory'} (stack : KernelStack) (idleEntry : Nat), s.current = none →
    s.processes.length + 2 ≤ processCapacity →
      (memory.tryAlloc idleStackSize false).result = .ok (.ok base, memory') →
        base + idleStackSize < wordLimit →
          ∃ t memory'', (s.start stack idleEntry memory).result = .ok (t, memory'')
  switches : ∀ {pid p frame memory reaped memory'} (cpu : Processor), s.current = some pid →
    s.process? pid = some p → p.stack.base ≤ frame →
      frame + Registers.kernelFrameBytes ≤ p.stack.base + p.stack.size →
        (∀ q ∈ s.processes, q.stack.base + q.stack.size < wordLimit) →
          (s.reap memory).result = .ok (reaped, memory') →
            ∃ switched, (s.switch frame memory cpu).result = .ok switched

theorem Sound.neverStuck (h : s.Sound) (idle : s.current.isSome = s.idle.isSome) :
    s.NeverStuck where
  queues := by
    rintro request space memory answer t memory' hspawn rfl
    rcases h.toFiled.spawn_cases hspawn with ⟨cause, hanswer, hcause, -⟩ | ⟨p, hanswer, -⟩
    · exact hcause (Except.error.inj hanswer).symm
    · contradiction
  moves := by
    intro pid p priority hp hready hdiffers
    have hroom := (h.toFiled.move hp (f := fun q => { q with priority }) (fun _ => rfl) hready
      rfl rfl hdiffers).1
    rw [push?_eq_some hroom, Option.isSome_some]
  rejoins := by
    intro pid p memory reaped memory' frame hreap hp hrun
    obtain rfl := reap_eq_ok hreap
    exact h.reaped.rejoin_room hp hrun frame
  dispatches := by
    intro pid frame memory reaped memory' suspended hcurrent hreap hsuspend
    obtain rfl := reap_eq_ok hreap
    obtain ⟨hparked, hsame⟩ := h.reaped.suspended hcurrent hsuspend
    exact hparked.exists_dispatch (by
      rw [hsame, idle_withoutEnded, ← idle, hcurrent, Option.isSome_some])
  spawns := fun space room size granted fits =>
    h.toFiled.exists_spawn room _ size space granted fits
  starts := fun stack idleEntry before room granted fits =>
    h.exists_start before room stack idleEntry granted fits
  switches := by
    intro pid p frame memory reaped memory' cpu hcurrent hp above below fits hreap
    have hidle : s.idle.isSome := by rw [← idle, hcurrent, Option.isSome_some]
    have hinside := KernelStack.contains_eq (fits p (process?_mem hp).1) above below
    exact h.exists_switch hidle hcurrent hp hinside (fun q hq _ => fits q hq) hreap cpu

/-- The queues of a run hold exactly the ready processes, so no operation of the run gets stuck
on them. -/
theorem Reached.well_queued (h : Reached started s) : s.WellQueued started ∧ s.NeverStuck := by
  obtain ⟨hsound, hcurrent, hidle⟩ := h.sound
  exact ⟨hsound.wellQueued hcurrent hidle, hsound.neverStuck (hcurrent.trans hidle.symm)⟩

def sampleMemory : KernelMemory :=
  ⟨⟨0, 0, 0⟩, ⟨.empty 0, .empty, ⟨0, 0, 0, #[]⟩⟩,
    some ⟨0x10000, 0x20000, 0x20000, 0x20000, .supervisor, [⟨0x10000, 0x10000, false⟩],
      [⟨0x10000, 0x10000⟩]⟩⟩

/-- A process spawned before the start waits beside the idle one, behind the main process. -/
theorem well_queued_after_start :
    ∃ s, Reached true s ∧ s.pids = [⟨0⟩, ⟨1⟩, ⟨2⟩] ∧ s.current = some ⟨1⟩ ∧ s.idle = some ⟨2⟩ ∧
      s.WellQueued true := by
  have hspawned := Reached.empty.step (@Step.spawned _ ⟨0x1000, .normal, 7, 0x1000, ⟨true, false⟩⟩
    none sampleMemory _ (.ok ⟨0⟩) _ rfl)
  have hstarted := hspawned.start (@Eq.refl _ (start _ ⟨0x40000, 0x1000, false⟩ 0x2000
    sampleMemory).result)
  exact ⟨_, hstarted, rfl, rfl, rfl, hstarted.well_queued.1⟩

end Scheduler

end KernelCore
