import Mathlib
import KernelCore.Proofs.Results
import KernelCore.Proofs.Scheduler.Queues

/-!
# What the operations preserve

A scheduler is sound when it is filed, nobody but the current process runs, and the current and
the idle process are where they have to be. Every operation keeps it sound. A switch goes through
a state in which nobody runs; there the idle process waits, so there is always one to dispatch.
-/

namespace KernelCore

def KernelMemory.saveFrame (memory : KernelMemory) (addr : Nat) (registers : Registers) :
    KernelMemory :=
  { memory with
    space := { memory.space with ram := memory.space.ram.saveFrame addr registers } }

namespace Scheduler

structure Sound (s : Scheduler) : Prop extends Filed s where
  /-- Only the current process runs. -/
  running : ∀ pid p, s.process? pid = some p → p.state = .running → s.current = some pid
  /-- The current process runs, unless it has exited. -/
  current : ∀ pid, s.current = some pid →
    ∃ p, s.process? pid = some p ∧ (p.state = .running ∨ p.state = .terminated)
  /-- The idle process waits or runs at the lowest priority. -/
  idle : ∀ pid, s.idle = some pid →
    ∃ p, s.process? pid = some p ∧ p.priority = .min ∧ (p.state = .ready ∨ p.state = .running)

variable {s t : Scheduler} {pid : Pid} {p : Process}

theorem sound_empty : Sound .empty where
  distinct := .nil
  numbered := by simp [empty]
  next := by decide
  bounded := by decide
  once := by simp [queue, empty]
  queued := by simp [queue, empty, process?]
  running := by simp [empty, process?]
  current := by simp [empty]
  idle := by simp [empty]

/-- Soundness after a change of one process that leaves the current and the idle process what they
are. -/
theorem Sound.change (h : s.Sound) (filed : t.Filed) (hp : s.process? pid = some p)
    {f : Process → Process} (keeps : ∀ p, (f p).pid = p.pid)
    (table : t.processes = (s.update pid f).processes) (current : t.current = s.current)
    (idle : t.idle = s.idle) (running : (f p).state = .running → s.current = some pid)
    (present : s.current = some pid →
      (f p).state = .running ∨ (f p).state = .terminated)
    (lowest : s.idle = some pid → (f p).priority = .min ∧
      ((f p).state = .ready ∨ (f p).state = .running)) : t.Sound := by
  have hlookup := process?_of_update keeps hp table
  refine ⟨filed, ?_, ?_, ?_⟩
  · intro other q hq hrun
    rw [hlookup] at hq
    rw [current]
    split at hq
    · next hsame =>
        obtain rfl := Option.some.inj hq
        exact hsame ▸ running hrun
    · exact h.running other q hq hrun
  · intro other hcurrent
    rw [current] at hcurrent
    rw [hlookup]
    split
    · next hsame => exact ⟨_, rfl, present (hsame ▸ hcurrent)⟩
    · exact h.current other hcurrent
  · intro other hidle
    rw [idle] at hidle
    rw [hlookup]
    split
    · next hsame =>
        obtain ⟨hlevel, hstate⟩ := lowest (hsame ▸ hidle)
        exact ⟨_, rfl, hlevel, hstate⟩
    · exact h.idle other hidle

/-! ## Spawning -/

structure Spawned (request : SpawnRequest) (s : Scheduler) (p : Process) (t : Scheduler) :
    Prop where
  fresh : s.process? p.pid = none
  number : p.pid.number < Pid.limit
  room : s.processes.length < processCapacity
  state : p.state = .ready
  priority : p.priority = request.priority
  left : t = { s.setQueue request.priority (s.queue request.priority ++ [p.pid]) with
    processes := s.processes ++ [p], nextPid := p.pid.next }

def made (request : SpawnRequest) (space : Option AddressSpace) (pid : Pid) (base frame : Nat) :
    Process :=
  { pid, entry := request.entry, priority := request.priority, state := .ready
    flags := request.flags, stack := ⟨base, request.stackSize, true⟩, frame, space, ticks := 0 }

theorem refuseSpawn_eq_ok {entry : Nat} {space : Option AddressSpace} {cause : SpawnError}
    {memory : KernelMemory} {t : Scheduler} {answer : Except SpawnError Pid × Scheduler ×
      KernelMemory}
    (h : (do
      let memory ← refuseSpawn entry space cause memory
      return (.error cause, t, memory) :
        Traced (Except SpawnError Pid × Scheduler × KernelMemory)).result = .ok answer) :
    answer.1 = .error cause ∧ answer.2.1 = t ∧
      (refuseSpawn entry space cause memory).result = .ok answer.2.2 := by
  rw [Traced.result_bind] at h
  obtain ⟨memory', hrefuse, hrest⟩ := bind_eq_ok h
  obtain rfl := Except.ok.inj hrest
  exact ⟨rfl, rfl, hrefuse⟩

theorem settle_eq_ok {request : SpawnRequest} {space : Option AddressSpace} {pid : Pid}
    {base : Nat} {memory memory' : KernelMemory}
    (h : (s.settle request space pid base memory).result = .ok (t, memory')) :
    ∃ frame, (⟨base, request.stackSize, true⟩ : KernelStack).placeInitialFrame request.flags =
        .ok frame ∧
      s.enter (made request space pid base frame) = .ok t ∧
      memory' = memory.saveFrame frame
        (Registers.initial request.entry request.arg request.flags) := by
  unfold settle at h
  simp only [Traced.result_bind, Traced.result_lift] at h
  obtain ⟨frame, hframe, h⟩ := bind_eq_ok h
  obtain ⟨entered, henter, h⟩ := bind_eq_ok h
  simp only [Traced.result_note, ok_bind, Traced.result_pure, Except.ok.injEq,
    Prod.mk.injEq] at h
  obtain ⟨rfl, rfl⟩ := h
  exact ⟨frame, hframe, henter, rfl⟩

/-- All that a spawn which comes back has done. The queue of the priority is never full, so
either nothing was entered and the address space is gone, or the process is on a new stack. -/
theorem Filed.spawn_eq_ok (h : s.Filed) {request : SpawnRequest} {space : Option AddressSpace}
    {memory memory' : KernelMemory} {answer : Except SpawnError Pid}
    (hspawn : (s.spawn request space memory).result = .ok (answer, t, memory')) :
    (∃ cause refused, answer = .error cause ∧ cause ≠ .queueFull ∧ t = s ∧
      (refused = memory ∨ ∃ why,
        (memory.tryAlloc request.stackSize false).result = .ok (.error why, refused)) ∧
      (refuseSpawn request.entry space cause refused).result = .ok memory') ∨
    ∃ pid base frame granted, answer = .ok pid ∧
      Spawned request s (made request space pid base frame) t ∧
      (⟨base, request.stackSize, true⟩ : KernelStack).placeInitialFrame request.flags =
        .ok frame ∧
      (memory.tryAlloc request.stackSize false).result = .ok (.ok base, granted) ∧
      memory' = granted.saveFrame frame
        (Registers.initial request.entry request.arg request.flags) := by
  unfold spawn at hspawn
  split at hspawn
  · obtain ⟨hanswer, hsame, hrefuse⟩ := refuseSpawn_eq_ok hspawn
    exact .inl ⟨_, memory, hanswer, by simp, hsame, .inl rfl, hrefuse⟩
  next hroom =>
  split at hspawn
  · obtain ⟨hanswer, hsame, hrefuse⟩ := refuseSpawn_eq_ok hspawn
    exact .inl ⟨_, memory, hanswer, by simp, hsame, .inl rfl, hrefuse⟩
  rw [Traced.result_bind] at hspawn
  obtain ⟨⟨answered, granted⟩, halloc, hspawn⟩ := bind_eq_ok hspawn
  cases answered with
  | error why =>
      obtain ⟨hanswer, hsame, hrefuse⟩ := refuseSpawn_eq_ok hspawn
      exact .inl ⟨_, granted, hanswer, by simp, hsame, .inr ⟨why, halloc⟩, hrefuse⟩
  | ok base =>
      have hfree : s.processes.length < processCapacity := by simpa [tableFull] using hroom
      have hlength := h.queue_length_le request.priority
      have hpush : s.allocatePid.2.push? request.priority s.allocatePid.1 = _ :=
        push?_eq_some (Nat.lt_of_le_of_lt hlength hfree)
      simp only [hpush, Traced.result_bind] at hspawn
      obtain ⟨⟨settled, memory₂⟩, hsettle, hspawn⟩ := bind_eq_ok hspawn
      simp only [Traced.result_pure, Except.ok.injEq, Prod.mk.injEq] at hspawn
      obtain ⟨hanswer, rfl, rfl⟩ := hspawn
      obtain ⟨frame, hframe, henter, hmemory⟩ := settle_eq_ok hsettle
      obtain ⟨-, hleft⟩ := enter_eq_ok henter
      refine .inr ⟨s.allocatePid.1, base, frame, granted, hanswer.symm, ?_, hframe, halloc,
        hmemory⟩
      exact ⟨process?_allocatePid h.next h.bounded, s.freshFrom_lt _ h.next, hfree, rfl, rfl, hleft⟩

theorem Filed.spawn_cases (h : s.Filed) {request : SpawnRequest} {space : Option AddressSpace}
    {memory memory' : KernelMemory} {answer : Except SpawnError Pid}
    (hspawn : (s.spawn request space memory).result = .ok (answer, t, memory')) :
    (∃ cause, answer = .error cause ∧ cause ≠ .queueFull ∧ t = s) ∨
      ∃ p, answer = .ok p.pid ∧ Spawned request s p t := by
  rcases h.spawn_eq_ok hspawn with ⟨cause, -, hanswer, hcause, hsame, -⟩ |
    ⟨pid, base, frame, -, hanswer, hspawned, -⟩
  · exact .inl ⟨cause, hanswer, hcause, hsame⟩
  · exact .inr ⟨_, hanswer, hspawned⟩

theorem Spawned.filed {request : SpawnRequest} (hs : Spawned request s p t) (h : s.Filed) :
    t.Filed := by
  have habsent : ∀ priority, p.pid ∉ s.queue priority := fun priority hm =>
    process?_eq_none.mp hs.fresh (h.queue_subset priority hm)
  obtain rfl := hs.left
  refine h.enter hs.fresh hs.number hs.room rfl (Nat.mod_lt _ (by decide)) ?_ ?_ ?_
  · intro priority
    change ((s.setQueue request.priority _).queue priority).Nodup
    rw [queue_setQueue]
    split
    · rw [List.nodup_append_comm, List.singleton_append, List.nodup_cons]
      exact ⟨habsent _, h.once _⟩
    · exact h.once priority
  · intro priority other hne
    change other ∈ (s.setQueue request.priority _).queue priority ↔ _
    rw [queue_setQueue]
    split
    · next hsame => simp [← hsame, hne]
    · rfl
  · intro priority
    change p.pid ∈ (s.setQueue request.priority _).queue priority ↔ _
    rw [queue_setQueue, hs.state, hs.priority]
    split
    · next hsame => simp [hsame]
    · next hdiffers => simp [habsent priority, hdiffers]

theorem Spawned.lookup {request : SpawnRequest} (hs : Spawned request s p t) (other : Pid) :
    t.process? other = if other = p.pid then some p else s.process? other := by
  rw [← process?_append hs.fresh, hs.left]
  rfl

theorem Sound.spawned (h : s.Sound) {request : SpawnRequest} (hs : Spawned request s p t) :
    t.Sound := by
  have hcurrent : t.current = s.current := hs.left ▸ rfl
  have hidle : t.idle = s.idle := hs.left ▸ rfl
  have hold : ∀ other q, s.process? other = some q → t.process? other = some q := by
    intro other q hq
    rw [hs.lookup, if_neg]
    · exact hq
    · rintro rfl
      rw [hs.fresh] at hq
      contradiction
  refine ⟨hs.filed h.toFiled, ?_, ?_, ?_⟩
  · intro other q hq hrun
    rw [hs.lookup] at hq
    split at hq
    · obtain rfl := Option.some.inj hq
      rw [hs.state] at hrun
      contradiction
    · rw [hcurrent]
      exact h.running other q hq hrun
  · intro other hpresent
    obtain ⟨q, hq, hstate⟩ := h.current other (hcurrent ▸ hpresent)
    exact ⟨q, hold other q hq, hstate⟩
  · intro other hlowest
    obtain ⟨q, hq, hstate⟩ := h.idle other (hidle ▸ hlowest)
    exact ⟨q, hold other q hq, hstate⟩

/-! ## Starting -/

theorem Sound.adopted (h : s.Sound) (before : s.current = none) (fresh : s.process? p.pid = none)
    (number : p.pid.number < Pid.limit) (room : s.processes.length < processCapacity)
    (running : p.state = .running) :
    Sound { s with
      processes := s.processes ++ [p], nextPid := p.pid.next, current := some p.pid } := by
  have hlookup := process?_append fresh
  have habsent : ∀ priority, p.pid ∉ s.queue priority := fun priority hm =>
    process?_eq_none.mp fresh (h.queue_subset priority hm)
  refine ⟨h.toFiled.enter fresh number room rfl (Nat.mod_lt _ (by decide)) h.once
    (fun _ _ _ => Iff.rfl) ?_, ?_, ?_, ?_⟩
  · intro priority
    change p.pid ∈ s.queue priority ↔ _
    simp [habsent priority, running]
  · intro other q hq hrun
    replace hq := (hlookup other).symm.trans hq
    split at hq
    · next hsame => rw [hsame]
    · have hnone := h.running other q hq hrun
      rw [before] at hnone
      contradiction
  · intro other hcurrent
    obtain rfl := Option.some.inj hcurrent
    exact ⟨p, (hlookup p.pid).trans (if_pos rfl), .inl running⟩
  · intro other hidle
    obtain ⟨q, hq, hstate⟩ := h.idle other hidle
    refine ⟨q, (hlookup other).trans ((if_neg ?_).trans hq), hstate⟩
    rintro rfl
    rw [fresh] at hq
    contradiction

def bootProcess (pid : Pid) (stack : KernelStack) : Process :=
  ⟨pid, 0, .normal, .running, ⟨true, false⟩, stack, 0, none, 0⟩

def withBoot (s : Scheduler) (stack : KernelStack) : Scheduler :=
  { s with
    processes := s.processes ++ [bootProcess s.allocatePid.1 stack]
    nextPid := s.allocatePid.1.next
    current := some s.allocatePid.1 }

theorem Filed.process?_withBoot (h : s.Filed) (stack : KernelStack) (other : Pid) :
    (s.withBoot stack).process? other =
      if other = s.allocatePid.1 then some (bootProcess s.allocatePid.1 stack)
      else s.process? other :=
  process?_append (p := bootProcess s.allocatePid.1 stack)
    (process?_allocatePid h.next h.bounded) other

def idleRequest (entry : Nat) : SpawnRequest := ⟨entry, .min, 0, idleStackSize, ⟨true, false⟩⟩

theorem start_eq_ok {stack : KernelStack} {idleEntry : Nat} {memory memory' : KernelMemory}
    (h : (s.start stack idleEntry memory).result = .ok (t, memory')) :
    s.current = none ∧ s.processes.length < processCapacity ∧ ∃ idle u,
      ((s.withBoot stack).spawn (idleRequest idleEntry) none memory).result =
        .ok (.ok idle, u, memory') ∧ t = { u with idle := some idle } := by
  unfold start at h
  cases hcurrent : s.current with
  | some other => simp [hcurrent] at h
  | none =>
      simp only [hcurrent, Option.isSome_none, Bool.false_eq_true, if_false, Traced.result_bind,
        Traced.result_lift] at h
      obtain ⟨entered, henter, h⟩ := bind_eq_ok h
      obtain ⟨⟨answer, spawned, memory₁⟩, hspawn, h⟩ := bind_eq_ok h
      obtain ⟨hroom, rfl⟩ := enter_eq_ok henter
      cases answer with
      | error cause => simp at h
      | ok idle =>
          simp only [Traced.result_bind, Traced.result_note, ok_bind, Traced.result_pure,
            Except.ok.injEq, Prod.mk.injEq] at h
          obtain ⟨rfl, rfl⟩ := h
          exact ⟨rfl, hroom, idle, spawned, hspawn, rfl⟩

theorem Sound.withBoot (h : s.Sound) (before : s.current = none)
    (room : s.processes.length < processCapacity) (stack : KernelStack) :
    (s.withBoot stack).Sound :=
  h.adopted before (process?_allocatePid h.next h.bounded) (s.freshFrom_lt _ h.next) room rfl

theorem Sound.idled (h : s.Sound) {request : SpawnRequest} (hs : Spawned request s p t)
    (lowest : request.priority = .min) : Sound { t with idle := some p.pid } := by
  have hsound := h.spawned hs
  refine ⟨hsound.toFiled.congr rfl rfl rfl, hsound.running, hsound.current, ?_⟩
  intro other hother
  obtain rfl := Option.some.inj hother
  exact ⟨p, (hs.lookup _).trans (if_pos rfl), hs.priority.trans lowest, .inl hs.state⟩

theorem Sound.started (h : s.Sound) {stack : KernelStack} {idleEntry : Nat}
    {memory memory' : KernelMemory}
    (hstart : (s.start stack idleEntry memory).result = .ok (t, memory')) :
    t.Sound ∧ t.current.isSome ∧ t.idle.isSome := by
  obtain ⟨hbefore, hroom, idle, u, hspawn, rfl⟩ := start_eq_ok hstart
  have hboot := h.withBoot hbefore hroom stack
  rcases hboot.toFiled.spawn_cases hspawn with ⟨cause, hanswer, -⟩ | ⟨p, hanswer, hspawned⟩
  · contradiction
  · obtain rfl := Except.ok.inj hanswer
    refine ⟨hboot.idled hspawned rfl, ?_, rfl⟩
    rw [hspawned.left]
    rfl

/-! ## Reaping, ending and changing processes -/

def withoutEnded (s : Scheduler) : Scheduler :=
  { s with processes := s.processes.filter fun p => !s.reapable p }

@[simp] theorem current_withoutEnded (s : Scheduler) : s.withoutEnded.current = s.current := rfl

@[simp] theorem idle_withoutEnded (s : Scheduler) : s.withoutEnded.idle = s.idle := rfl

theorem process?_withoutEnded (distinct : s.pids.Nodup) (pid : Pid) :
    s.withoutEnded.process? pid = (s.process? pid).filter fun p => !s.reapable p :=
  process?_filter distinct _ pid

theorem reapable_eq_true :
    s.reapable p = true ↔ p.state = .terminated ∧ s.current ≠ some p.pid := by
  simp only [reapable, Bool.and_eq_true, beq_iff_eq, bne_iff_ne]
  exact and_congr_right fun _ => ne_comm

theorem reap_eq_ok {memory memory' : KernelMemory}
    (h : (s.reap memory).result = .ok (t, memory')) : t = s.withoutEnded := by
  unfold reap at h
  rw [Traced.result_bind] at h
  obtain ⟨memory₁, -, hrest⟩ := bind_eq_ok h
  simp only [Traced.result_pure, Except.ok.injEq, Prod.mk.injEq] at hrest
  exact hrest.1.symm

/-- Only processes that have ended and are not current are reaped. -/
theorem process?_withoutEnded_of_live (distinct : s.pids.Nodup) (hp : s.process? pid = some p)
    (live : p.state = .ready ∨ p.state = .running ∨ s.current = some pid) :
    s.withoutEnded.process? pid = some p := by
  obtain ⟨-, rfl⟩ := process?_mem hp
  rw [process?_withoutEnded distinct, hp]
  apply Option.filter_some_pos
  rw [Bool.not_eq_true', ← Bool.not_eq_true, reapable_eq_true]
  rintro ⟨hended, hoff⟩
  rcases live with hready | hrun | hcurrent
  · simp [hready] at hended
  · simp [hrun] at hended
  · exact hoff hcurrent

theorem Sound.reaped (h : s.Sound) : s.withoutEnded.Sound := by
  have hwaiting : ∀ p ∈ s.processes, p.state = .ready → (!s.reapable p) = true := by
    intro p _ hready
    simp [reapable, hready]
  refine ⟨h.toFiled.remove hwaiting, ?_, ?_, ?_⟩
  · intro pid p hp hrun
    rw [process?_withoutEnded h.distinct] at hp
    exact h.running pid p (Option.filter_eq_some_iff.mp hp).1 hrun
  · intro pid hcurrent
    obtain ⟨p, hp, hstate⟩ := h.current pid hcurrent
    exact ⟨p, process?_withoutEnded_of_live h.distinct hp (.inr (.inr hcurrent)), hstate⟩
  · intro pid hidle
    obtain ⟨p, hp, hlevel, hstate⟩ := h.idle pid hidle
    exact ⟨p, process?_withoutEnded_of_live h.distinct hp (hstate.imp_right .inl), hlevel, hstate⟩

theorem exitCurrent_eq_ok {answer : Except SchedError Pid}
    (h : s.exitCurrent.result = .ok (answer, t)) :
    (s.current = none ∧ answer = .error .noSuchProcess ∧ t = s) ∨
      ∃ pid, s.current = some pid ∧
        ((s.idle = some pid ∧ answer = .error .isIdle ∧ t = s) ∨
          (s.idle ≠ some pid ∧ answer = .ok pid ∧
            t = s.update pid fun q => { q with state := .terminated })) := by
  unfold exitCurrent at h
  cases hcurrent : s.current with
  | none =>
      simp only [hcurrent, Traced.result_pure, Except.ok.injEq, Prod.mk.injEq] at h
      exact .inl ⟨rfl, h.1.symm, h.2.symm⟩
  | some pid =>
      refine .inr ⟨pid, rfl, ?_⟩
      simp only [hcurrent] at h
      split at h
      · next hidle =>
          simp only [Traced.result_pure, Except.ok.injEq, Prod.mk.injEq] at h
          exact .inl ⟨hidle.symm, h.1.symm, h.2.symm⟩
      · next hidle =>
          simp only [Traced.result_bind, Traced.result_note, ok_bind, Traced.result_pure,
            Except.ok.injEq, Prod.mk.injEq] at h
          exact .inr ⟨Ne.symm hidle, h.1.symm, h.2.symm⟩

theorem Sound.exited (h : s.Sound) {answer : Except SchedError Pid}
    (hexit : s.exitCurrent.result = .ok (answer, t)) :
    t.Sound ∧ t.current = s.current ∧ t.idle = s.idle := by
  rcases exitCurrent_eq_ok hexit with ⟨-, -, rfl⟩ |
    ⟨pid, hcurrent, ⟨-, -, rfl⟩ | ⟨hidle, -, rfl⟩⟩
  · exact ⟨h, rfl, rfl⟩
  · exact ⟨h, rfl, rfl⟩
  · obtain ⟨p, hp, hstate⟩ := h.current pid hcurrent
    have hnot : p.state ≠ .ready := by
      rcases hstate with hstate | hstate <;> simp [hstate]
    have hfiled := h.toFiled.touch_off hp (f := fun q => { q with state := .terminated })
      (fun _ => rfl) hnot (by simp)
    refine ⟨?_, rfl, rfl⟩
    apply h.change (f := fun q => { q with state := .terminated }) hfiled hp (fun _ => rfl) rfl rfl
      rfl (by simp) (by simp)
    exact fun hlowest => absurd hlowest hidle

/-- A scheduler in which a process has been killed but not reaped yet. -/
def condemn (s : Scheduler) (p : Process) : Scheduler :=
  let marked := s.update p.pid fun process => { process with state := .terminated }
  if p.state = .ready then marked.unqueue p.priority p.pid else marked

@[simp] theorem processes_condemn (s : Scheduler) (p : Process) :
    (s.condemn p).processes =
      (s.update p.pid fun process => { process with state := .terminated }).processes := by
  unfold condemn
  split <;> rfl

@[simp] theorem current_condemn (s : Scheduler) (p : Process) :
    (s.condemn p).current = s.current := by
  unfold condemn
  split <;> rfl

@[simp] theorem idle_condemn (s : Scheduler) (p : Process) : (s.condemn p).idle = s.idle := by
  unfold condemn
  split <;> rfl

theorem kill_cases (s : Scheduler) (pid : Pid) (memory : KernelMemory) :
    (s.idle = some pid ∧ (s.kill pid memory).result = .ok (some .isIdle, s, memory)) ∨
      (s.idle ≠ some pid ∧ s.current = some pid ∧
        (s.kill pid memory).result = .ok (some .isCurrent, s, memory)) ∨
      (s.idle ≠ some pid ∧ s.current ≠ some pid ∧ s.process? pid = none ∧
        (s.kill pid memory).result = .ok (some .noSuchProcess, s, memory)) ∨
      ∃ p, s.idle ≠ some pid ∧ s.current ≠ some pid ∧ s.process? pid = some p ∧
        (s.kill pid memory).result =
          ((s.condemn p).reap memory).result.map fun reaped => (none, reaped.1, reaped.2) := by
  unfold kill
  by_cases hidle : some pid = s.idle
  · exact .inl ⟨hidle.symm, by rw [if_pos hidle, Traced.result_pure]⟩
  by_cases hcurrent : some pid = s.current
  · refine .inr (.inl ⟨Ne.symm hidle, hcurrent.symm, ?_⟩)
    rw [if_neg hidle, if_pos hcurrent, Traced.result_pure]
  rw [if_neg hidle, if_neg hcurrent]
  cases hp : s.process? pid with
  | none => exact .inr (.inr (.inl ⟨Ne.symm hidle, Ne.symm hcurrent, rfl, rfl⟩))
  | some p =>
      obtain ⟨-, rfl⟩ := process?_mem hp
      refine .inr (.inr (.inr ⟨p, Ne.symm hidle, Ne.symm hcurrent, rfl, ?_⟩))
      show ((s.condemn p).reap memory >>= _).result = _
      rw [Traced.result_bind]
      cases ((s.condemn p).reap memory).result <;> rfl

theorem kill_eq_ok {memory memory' : KernelMemory}
    (h : (s.kill pid memory).result = .ok (none, t, memory')) :
    ∃ p, s.idle ≠ some pid ∧ s.current ≠ some pid ∧ s.process? pid = some p ∧
      ((s.condemn p).reap memory).result = .ok (t, memory') := by
  rcases s.kill_cases pid memory with ⟨-, hkill⟩ | ⟨-, -, hkill⟩ | ⟨-, -, -, hkill⟩ |
    ⟨p, hidle, hcurrent, hp, hkill⟩
  · simp [hkill] at h
  · simp [hkill] at h
  · simp [hkill] at h
  · refine ⟨p, hidle, hcurrent, hp, ?_⟩
    rw [hkill] at h
    cases hreap : ((s.condemn p).reap memory).result with
    | error cause => simp [hreap, Except.map] at h
    | ok reaped =>
        rw [hreap] at h
        obtain ⟨-, hrest⟩ := Prod.mk.injEq .. ▸ Except.ok.inj h
        exact congrArg Except.ok hrest

theorem kill_refused {memory memory' : KernelMemory} {cause : SchedError}
    (h : (s.kill pid memory).result = .ok (some cause, t, memory')) : t = s ∧ memory' = memory := by
  rcases s.kill_cases pid memory with ⟨-, hkill⟩ | ⟨-, -, hkill⟩ | ⟨-, -, -, hkill⟩ |
    ⟨p, -, -, -, hkill⟩
  · simp only [hkill, Except.ok.injEq, Prod.mk.injEq] at h
    exact ⟨h.2.1.symm, h.2.2.symm⟩
  · simp only [hkill, Except.ok.injEq, Prod.mk.injEq] at h
    exact ⟨h.2.1.symm, h.2.2.symm⟩
  · simp only [hkill, Except.ok.injEq, Prod.mk.injEq] at h
    exact ⟨h.2.1.symm, h.2.2.symm⟩
  · rw [hkill] at h
    cases hreap : ((s.condemn p).reap memory).result <;> simp [hreap, Except.map] at h

theorem Sound.condemned (h : s.Sound) (hp : s.process? p.pid = some p)
    (idle : s.idle ≠ some p.pid) : (s.condemn p).Sound := by
  have hfiled : (s.condemn p).Filed := by
    unfold condemn
    split
    · exact h.toFiled.leave hp (f := fun q => { q with state := .terminated }) (fun _ => rfl)
        (by simp)
    · next hnot =>
        exact h.toFiled.touch_off hp (f := fun q => { q with state := .terminated })
          (fun _ => rfl) hnot (by simp)
  apply h.change (f := fun q => { q with state := .terminated }) hfiled hp (fun _ => rfl)
    (s.processes_condemn p) (s.current_condemn p) (s.idle_condemn p) (by simp) (by simp)
  exact fun hlowest => absurd hlowest idle

theorem Sound.killed (h : s.Sound) {memory memory' : KernelMemory} {answer : Option SchedError}
    (hkill : (s.kill pid memory).result = .ok (answer, t, memory')) :
    t.Sound ∧ t.current = s.current ∧ t.idle = s.idle := by
  cases answer with
  | some cause =>
      obtain ⟨rfl, -⟩ := kill_refused hkill
      exact ⟨h, rfl, rfl⟩
  | none =>
      obtain ⟨p, hidle, -, hp, hreap⟩ := kill_eq_ok hkill
      obtain ⟨-, rfl⟩ := process?_mem hp
      obtain rfl := reap_eq_ok hreap
      exact ⟨(h.condemned hp hidle).reaped, s.current_condemn p, s.idle_condemn p⟩

def promote (s : Scheduler) (p : Process) (priority : Priority) : Scheduler :=
  let changed := s.update p.pid fun process => { process with priority }
  if p.state = .ready ∧ p.priority ≠ priority then
    (changed.unqueue p.priority p.pid).push priority p.pid
  else changed

theorem setPriority_cases (s : Scheduler) (pid : Pid) (priority : Priority) :
    (s.idle = some pid ∧ s.setPriority pid priority = (some .isIdle, s)) ∨
      (s.idle ≠ some pid ∧ s.process? pid = none ∧
        s.setPriority pid priority = (some .noSuchProcess, s)) ∨
      ∃ p, s.idle ≠ some pid ∧ s.process? pid = some p ∧
        s.setPriority pid priority = (none, s.promote p priority) := by
  unfold setPriority
  by_cases hidle : some pid = s.idle
  · exact .inl ⟨hidle.symm, if_pos hidle⟩
  · rw [if_neg hidle]
    cases hp : s.process? pid with
    | none => exact .inr (.inl ⟨Ne.symm hidle, rfl, rfl⟩)
    | some p =>
        obtain ⟨-, rfl⟩ := process?_mem hp
        refine .inr (.inr ⟨p, Ne.symm hidle, rfl, ?_⟩)
        unfold promote
        by_cases hmoves : p.state = .ready ∧ p.priority ≠ priority
        · simp only [if_pos hmoves]
        · simp only [if_neg hmoves]

theorem Filed.promote_eq (h : s.Filed) (hp : s.process? p.pid = some p) (priority : Priority) :
    s.promote p priority =
      if p.state = .ready ∧ p.priority ≠ priority then
        ((s.update p.pid fun q => { q with priority }).unqueue p.priority p.pid).setQueue priority
          (s.queue priority ++ [p.pid])
      else s.update p.pid fun q => { q with priority } := by
  unfold promote
  split
  · next hmoves =>
      rw [push_eq (h.move hp (f := fun q => { q with priority }) (fun _ => rfl) hmoves.1 rfl rfl
        hmoves.2).1, queue_unqueue, if_neg hmoves.2, queue_update]
  · rfl

theorem Filed.promote_keeps (h : s.Filed) (hp : s.process? p.pid = some p) (priority : Priority) :
    (s.promote p priority).processes =
        (s.update p.pid fun q => { q with priority }).processes ∧
      (s.promote p priority).current = s.current ∧ (s.promote p priority).idle = s.idle := by
  rw [h.promote_eq hp]
  split
  · exact ⟨rfl, rfl, rfl⟩
  · exact ⟨rfl, rfl, rfl⟩

theorem Filed.promoted (h : s.Filed) (hp : s.process? p.pid = some p) (priority : Priority) :
    (s.promote p priority).Filed := by
  unfold promote
  split
  · next hmoves =>
      exact (h.move hp (f := fun q => { q with priority }) (fun _ => rfl) hmoves.1 rfl rfl
        hmoves.2).2
  · next hstays =>
      refine h.change hp (f := fun q => { q with priority }) (fun _ => rfl) rfl rfl h.once
        (fun _ _ _ => Iff.rfl) fun level => ?_
      rw [queue_update, h.mem_queue_iff hp]
      refine and_congr_right fun hready => ?_
      rw [not_not.mp fun hdiffers => hstays ⟨hready, hdiffers⟩]

theorem Sound.prioritised (h : s.Sound) (pid : Pid) (priority : Priority) :
    (s.setPriority pid priority).2.Sound ∧ (s.setPriority pid priority).2.current = s.current ∧
      (s.setPriority pid priority).2.idle = s.idle := by
  rcases s.setPriority_cases pid priority with ⟨-, hset⟩ | ⟨-, -, hset⟩ | ⟨p, hidle, hp, hset⟩
  · exact hset ▸ ⟨h, rfl, rfl⟩
  · exact hset ▸ ⟨h, rfl, rfl⟩
  · obtain ⟨-, rfl⟩ := process?_mem hp
    obtain ⟨htable, hcurrent, hlowest⟩ := h.toFiled.promote_keeps hp priority
    rw [hset]
    refine ⟨?_, hcurrent, hlowest⟩
    refine h.change (f := fun q => { q with priority }) (h.toFiled.promoted hp priority) hp
      (fun _ => rfl) htable hcurrent hlowest (h.running p.pid p hp) ?_ ?_
    · intro hpresent
      obtain ⟨q, hq, hstate⟩ := h.current p.pid hpresent
      obtain rfl := Option.some.inj (hp.symm.trans hq)
      exact hstate
    · exact fun hlow => absurd hlow hidle

end Scheduler

end KernelCore
