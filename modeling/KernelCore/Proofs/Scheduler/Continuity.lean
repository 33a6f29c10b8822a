import Mathlib
import KernelCore.Proofs.Scheduler.Switching

/-!
# What a process keeps

A process that stays in the table keeps its stack and its address space, and once it has ended it
stays so. Its frame changes only when a switch takes the processor from it, and a switch never hands
the processor to a process that has ended.
-/

namespace KernelCore

/-- One process before and after an operation that does not take the processor from it. -/
structure Process.Keeps (p q : Process) : Prop where
  flags : q.flags = p.flags
  stack : q.stack = p.stack
  space : q.space = p.space
  frame : q.frame = p.frame
  ended : p.state = .terminated → q.state = .terminated

theorem Process.Keeps.refl (p : Process) : p.Keeps p := ⟨rfl, rfl, rfl, rfl, id⟩

theorem Process.Keeps.trans {p q r : Process} (h : p.Keeps q) (h' : q.Keeps r) : p.Keeps r :=
  ⟨h'.flags.trans h.flags, h'.stack.trans h.stack, h'.space.trans h.space, h'.frame.trans h.frame,
    fun hended => h'.ended (h.ended hended)⟩

theorem Process.Keeps.dispatched {p q : Process} (h : p.Keeps q) (ready : q.state = .ready) :
    p.Keeps { q with state := .running } := by
  refine ⟨h.flags, h.stack, h.space, h.frame, fun hended => ?_⟩
  have hstate := h.ended hended
  rw [ready] at hstate
  contradiction

def Process.estate (p : Process) : KernelStack × Option AddressSpace := (p.stack, p.space)

namespace Scheduler

variable {s t : Scheduler} {pid : Pid} {p q : Process}

def estates (s : Scheduler) : List (KernelStack × Option AddressSpace) :=
  s.processes.map Process.estate

def Continues (s t : Scheduler) : Prop :=
  ∀ pid p q, s.process? pid = some p → t.process? pid = some q → p.Keeps q

theorem Continues.exists_old (h : s.Continues t) (pids : t.pids ⊆ s.pids)
    (hq : t.process? pid = some q) :
    ∃ p, s.process? pid = some p ∧ q.pid = p.pid ∧ p.Keeps q := by
  obtain ⟨p, hp⟩ := exists_process? (pids (process?_mem_pids hq))
  exact ⟨p, hp, (process?_mem hq).2.trans (process?_mem hp).2.symm, h pid p q hp hq⟩

/-- A process that waits, and did not have the processor, waited before. -/
theorem Sound.was_ready (h : s.Sound) (hp : s.process? pid = some p)
    (off : s.current ≠ some pid) (keeps : p.Keeps q) (ready : q.state = .ready) :
    p.state = .ready := by
  cases hstate : p.state with
  | ready => rfl
  | running => exact absurd (h.running pid p hp hstate) off
  | terminated =>
      have hended := keeps.ended hstate
      rw [ready] at hended
      contradiction

theorem Sound.off_of_ready (h : s.Sound) (hp : s.process? pid = some p)
    (ready : p.state = .ready) : s.current ≠ some pid := by
  intro hcurrent
  obtain ⟨q, hq, hstate⟩ := h.current pid hcurrent
  obtain rfl := Option.some.inj (hp.symm.trans hq)
  simp [ready] at hstate

theorem estates_update {f : Process → Process} (keeps : ∀ p, (f p).estate = p.estate) :
    (s.update pid f).estates = s.estates := by
  rw [estates, update, List.map_map, estates]
  refine List.map_congr_left fun p _ => ?_
  simp only [Function.comp_apply]
  split
  · exact keeps p
  · rfl

theorem continues_update (hp : s.process? pid = some p) {f : Process → Process}
    (same : ∀ p, (f p).pid = p.pid) (table : t.processes = (s.update pid f).processes)
    (keeps : p.Keeps (f p)) : s.Continues t := by
  intro other r q hr hq
  rw [process?_of_update same hp table] at hq
  split at hq
  · next heq =>
      subst heq
      obtain rfl := Option.some.inj (hp.symm.trans hr)
      obtain rfl := Option.some.inj hq
      exact keeps
  · obtain rfl := Option.some.inj (hr.symm.trans hq)
    exact .refl _

theorem mem_pids_update {f : Process → Process} (same : ∀ p, (f p).pid = p.pid)
    (table : t.processes = (s.update pid f).processes) : t.pids = s.pids := by
  rw [pids, table]
  exact pids_update same

/-! ## Entering -/

theorem Spawned.estates_eq {request : SpawnRequest} (hs : Spawned request s p t) :
    t.estates = s.estates ++ [p.estate] := by
  rw [estates, hs.left]
  simp [estates]

theorem Spawned.keeps_old {request : SpawnRequest} (h : Spawned request s p t)
    (hq : s.process? pid = some q) : t.process? pid = some q := by
  rw [h.lookup, if_neg, hq]
  rintro rfl
  rw [h.fresh] at hq
  contradiction

theorem Spawned.continues {request : SpawnRequest} (hs : Spawned request s p t) :
    s.Continues t := by
  intro pid r q hr hq
  obtain rfl := Option.some.inj ((hs.keeps_old hr).symm.trans hq)
  exact .refl _

theorem Spawned.eq_or_old {request : SpawnRequest} (h : Spawned request s p t)
    (hq : t.process? pid = some q) : q = p ∨ s.process? pid = some q ∧ p.pid ≠ q.pid := by
  have hpid := (process?_mem hq).2
  rw [h.lookup] at hq
  split at hq
  · exact .inl (Option.some.inj hq).symm
  · next hother => exact .inr ⟨hq, fun hsame => hother (hpid.symm.trans hsame.symm)⟩

theorem Spawned.current_eq {request : SpawnRequest} (hs : Spawned request s p t) :
    t.current = s.current := by
  rw [hs.left]
  rfl

theorem Spawned.pids_subset {request : SpawnRequest} (hs : Spawned request s p t) :
    s.pids ⊆ t.pids := by
  rw [pids, hs.left]
  simp [pids]

/-! ## Changes in place -/

/-- What changes a process in place leaves behind: the same table but for that process. -/
structure InPlace (s t : Scheduler) : Prop where
  estates : t.estates = s.estates
  pids : t.pids = s.pids
  current : t.current = s.current
  continues : s.Continues t

theorem InPlace.of_table (table : t.processes = s.processes) (current : t.current = s.current) :
    s.InPlace t where
  estates := by rw [Scheduler.estates, table, Scheduler.estates]
  pids := by rw [Scheduler.pids, table, Scheduler.pids]
  current := current
  continues := by
    intro pid p q hp hq
    rw [process?, table] at hq
    obtain rfl := Option.some.inj (hp.symm.trans hq)
    exact .refl _

theorem InPlace.refl (s : Scheduler) : s.InPlace s := .of_table rfl rfl

theorem InPlace.of_update (hp : s.process? pid = some p) {f : Process → Process}
    (same : ∀ p, (f p).pid = p.pid) (keeps : ∀ p : Process, p.Keeps (f p))
    (table : t.processes = (s.update pid f).processes) (current : t.current = s.current) :
    s.InPlace t where
  estates := by
    rw [Scheduler.estates, table]
    exact estates_update fun p => Prod.ext (keeps p).stack (keeps p).space
  pids := mem_pids_update same table
  current := current
  continues := continues_update hp same table (keeps p)

theorem exitCurrent_inPlace {answer : Except SchedError Pid} (h : s.Sound)
    (hexit : s.exitCurrent.result = .ok (answer, t)) : s.InPlace t := by
  rcases exitCurrent_eq_ok hexit with ⟨-, -, rfl⟩ | ⟨pid, hcurrent, ⟨-, -, rfl⟩ | ⟨-, -, rfl⟩⟩
  · exact .refl _
  · exact .refl _
  · obtain ⟨p, hp, -⟩ := h.current pid hcurrent
    exact .of_update hp (f := fun q => { q with state := .terminated }) (fun _ => rfl)
      (fun _ => ⟨rfl, rfl, rfl, rfl, fun _ => rfl⟩) rfl rfl

theorem Sound.setPriority_inPlace (h : s.Sound) (pid : Pid) (priority : Priority) :
    s.InPlace (s.setPriority pid priority).2 := by
  rcases s.setPriority_cases pid priority with ⟨-, hset⟩ | ⟨-, -, hset⟩ | ⟨p, -, hp, hset⟩
  · exact hset ▸ .refl s
  · exact hset ▸ .refl s
  · obtain ⟨-, rfl⟩ := process?_mem hp
    obtain ⟨htable, hcurrent, -⟩ := h.toFiled.promote_keeps hp priority
    rw [hset]
    exact .of_update hp (f := fun q => { q with priority }) (fun _ => rfl)
      (fun _ => ⟨rfl, rfl, rfl, rfl, id⟩) htable hcurrent

theorem Sound.onTick_inPlace (h : s.Sound) (elapsed : Nat) : s.InPlace (s.onTick elapsed).2 := by
  have htable := s.processes_onTick elapsed
  cases hcurrent : s.current with
  | none =>
      rw [hcurrent] at htable
      exact .of_table htable (s.current_onTick elapsed)
  | some pid =>
      rw [hcurrent] at htable
      obtain ⟨p, hp, -⟩ := h.current pid hcurrent
      exact .of_update hp (f := fun q => { q with ticks := q.ticks + 1 }) (fun _ => rfl)
        (fun _ => ⟨rfl, rfl, rfl, rfl, id⟩) htable (s.current_onTick elapsed)

theorem condemn_inPlace (hp : s.process? p.pid = some p) :
    s.InPlace (s.condemn p) :=
  .of_update hp (f := fun q => { q with state := .terminated }) (fun _ => rfl)
    (fun _ => ⟨rfl, rfl, rfl, rfl, fun _ => rfl⟩) (s.processes_condemn p) (s.current_condemn p)

/-! ## Leaving -/

theorem continues_withoutEnded (h : s.Sound) : s.Continues s.withoutEnded := by
  intro pid p q hp hq
  rw [process?_withoutEnded h.distinct, hp] at hq
  obtain rfl := Option.some.inj (Option.filter_eq_some_iff.mp hq).1
  exact .refl _

theorem pids_withoutEnded_subset (s : Scheduler) : s.withoutEnded.pids ⊆ s.pids :=
  (List.filter_sublist.map _).subset

theorem Sound.kill_continues (h : s.Sound) {memory memory' : KernelMemory}
    {answer : Option SchedError}
    (hkill : (s.kill pid memory).result = .ok (answer, t, memory')) : s.Continues t := by
  cases answer with
  | some cause =>
      obtain ⟨rfl, -⟩ := kill_refused hkill
      exact (InPlace.refl _).continues
  | none =>
      obtain ⟨p, hidle, -, hp, hreap⟩ := kill_eq_ok hkill
      obtain ⟨-, rfl⟩ := process?_mem hp
      obtain rfl := reap_eq_ok hreap
      have hcondemned := h.condemned hp hidle
      intro other r q hr hq
      have hfound := hq
      rw [process?_withoutEnded hcondemned.distinct] at hfound
      have hmiddle := (Option.filter_eq_some_iff.mp hfound).1
      have hmarked := (condemn_inPlace hp).continues other r q hr hmiddle
      exact hmarked.trans (continues_withoutEnded hcondemned other q q hmiddle hq)

theorem Sound.kill_pids (h : s.Sound) {memory memory' : KernelMemory}
    {answer : Option SchedError}
    (hkill : (s.kill pid memory).result = .ok (answer, t, memory')) : t.pids ⊆ s.pids := by
  cases answer with
  | some cause =>
      obtain ⟨rfl, -⟩ := kill_refused hkill
      exact List.Subset.refl _
  | none =>
      obtain ⟨p, hidle, -, hp, hreap⟩ := kill_eq_ok hkill
      obtain ⟨-, rfl⟩ := process?_mem hp
      obtain rfl := reap_eq_ok hreap
      rw [← (condemn_inPlace hp).pids]
      exact pids_withoutEnded_subset _

/-! ## Switching -/

structure Suspended (s : Scheduler) (previous : Pid) (frame : Nat) (t : Scheduler) : Prop where
  estates : t.estates = s.estates
  pids : t.pids = s.pids
  inside : ∃ p, s.process? previous = some p ∧
    p.stack.contains frame Registers.kernelFrameBytes = .ok true
  /-- Only the process that is suspended gets another frame. -/
  keeps : ∀ pid p q, s.process? pid = some p → t.process? pid = some q →
    (if pid = previous then { p with frame } else p).Keeps q
  others : ∀ pid, pid ≠ previous → t.process? pid = s.process? pid

theorem suspended_of_update {frame : Nat} (hp : s.process? pid = some p)
    (inside : p.stack.contains frame Registers.kernelFrameBytes = .ok true) {f : Process → Process}
    (same : ∀ q, (f q).pid = q.pid) (estate : ∀ q, (f q).estate = q.estate)
    (keeps : ({ p with frame } : Process).Keeps (f p))
    (table : t.processes = (s.update pid f).processes) : s.Suspended pid frame t := by
  have hlookup := process?_of_update same hp table
  refine ⟨?_, mem_pids_update same table, ⟨p, hp, inside⟩, ?_, fun other hne => ?_⟩
  · rw [Scheduler.estates, table]
    exact estates_update estate
  · intro other r q hr hq
    rw [hlookup] at hq
    split at hq
    · next heq =>
        subst heq
        obtain rfl := Option.some.inj (hp.symm.trans hr)
        obtain rfl := Option.some.inj hq
        rw [if_pos rfl]
        exact keeps
    · next hne =>
        obtain rfl := Option.some.inj (hr.symm.trans hq)
        rw [if_neg hne]
        exact .refl _
  · rw [hlookup, if_neg hne]

theorem Sound.suspended_table (h : s.Sound) (current : s.current = some pid) {frame : Nat}
    (hsuspend : s.suspend pid frame = .ok t) : s.Suspended pid frame t := by
  obtain ⟨p, hp, -⟩ := h.current pid current
  obtain ⟨hinside, rfl⟩ := suspend_eq_ok hp hsuspend
  split
  · next hrun =>
      have hroom := (h.toFiled.join hp (f := fun q => { q with frame, state := .ready })
        (fun _ => rfl) (by simp [hrun]) rfl rfl).1
      rw [push_eq (by rwa [queue_update])]
      refine suspended_of_update hp hinside (f := fun q => { q with frame, state := .ready })
        (fun _ => rfl) (fun _ => rfl) ⟨rfl, rfl, rfl, rfl, fun hended => ?_⟩ rfl
      rw [hrun] at hended
      contradiction
  · exact suspended_of_update hp hinside (f := fun q => { q with frame }) (fun _ => rfl)
      (fun _ => rfl) ⟨rfl, rfl, rfl, rfl, id⟩ rfl

theorem Parked.dispatch_table (h : s.Parked) (hdispatch : s.dispatch = .ok (p, t)) :
    t.estates = s.estates ∧ t.pids = s.pids ∧ s.Continues t ∧ s.process? p.pid = some p ∧
      p.state = .ready := by
  have hlookup := process?_dispatch hdispatch
  obtain ⟨priority, rest, hqueue, -, hp, rfl⟩ := dispatch_eq_ok hdispatch
  obtain ⟨waiting, hwaiting, hready, -⟩ :=
    (h.queued priority p.pid).mp (hqueue ▸ List.mem_cons_self)
  obtain rfl := Option.some.inj (hp.symm.trans hwaiting)
  refine ⟨?_, ?_, ?_, hp, hready⟩
  · exact @estates_update (s.setQueue priority rest) p.pid (fun q => { q with state := .running })
      fun _ => rfl
  · exact @pids_update (s.setQueue priority rest) p.pid (fun q => { q with state := .running })
      fun _ => rfl
  · intro pid r q hr hq
    rw [hlookup] at hq
    split at hq
    · next heq =>
        subst heq
        obtain rfl := Option.some.inj (hp.symm.trans hr)
        obtain rfl := Option.some.inj hq
        exact (Process.Keeps.refl _).dispatched hready
    · obtain rfl := Option.some.inj (hr.symm.trans hq)
      exact .refl _

/-- What a switch away from `previous`, interrupted at `frame`, does to the table. -/
structure Handed (s : Scheduler) (previous : Pid) (frame : Nat) (next : Process) (t : Scheduler) :
    Prop where
  estates : t.estates = s.withoutEnded.estates
  pids : t.pids = s.withoutEnded.pids
  current : t.current = some next.pid
  found : t.process? next.pid = some { next with state := .running }
  inside : ∃ p, s.process? previous = some p ∧
    p.stack.contains frame Registers.kernelFrameBytes = .ok true
  keeps : ∀ pid p q, s.process? pid = some p → t.process? pid = some q →
    (if pid = previous then { p with frame } else p).Keeps q
  /-- The next process is the one that just left, or one that was waiting. -/
  waiting : next.pid = previous ∨ s.process? next.pid = some next ∧ next.state = .ready
  /-- A process that has ended is not given the processor. -/
  live : ∀ p, s.process? next.pid = some p → p.state ≠ .terminated

theorem Handed.exists_old {previous : Pid} {frame : Nat} {next : Process}
    (h : s.Handed previous frame next t) (hq : t.process? pid = some q) :
    ∃ p, s.process? pid = some p ∧ q.pid = p.pid ∧ q.stack = p.stack ∧
      (if pid = previous then { p with frame } else p).Keeps q := by
  have hm : pid ∈ s.pids := s.pids_withoutEnded_subset (h.pids ▸ process?_mem_pids hq)
  obtain ⟨p, hp⟩ := exists_process? hm
  have hkeeps := h.keeps pid p q hp hq
  refine ⟨p, hp, (process?_mem hq).2.trans (process?_mem hp).2.symm, ?_, hkeeps⟩
  rw [hkeeps.stack]
  split <;> rfl

theorem Sound.handed (h : s.Sound) {previous : Pid} (current : s.current = some previous)
    {frame : Nat} {suspended : Scheduler} {next : Process}
    (hsuspend : s.withoutEnded.suspend previous frame = .ok suspended)
    (hdispatch : suspended.dispatch = .ok (next, t)) : s.Handed previous frame next t := by
  obtain ⟨hparked, -⟩ := h.reaped.suspended current hsuspend
  have hleft := h.reaped.suspended_table current hsuspend
  obtain ⟨hestates, hpids, hcontinues, hnext, hready⟩ := hparked.dispatch_table hdispatch
  obtain ⟨-, hcurrent, -⟩ := hparked.dispatched hdispatch
  have hold : ∀ pid p q, s.process? pid = some p → s.withoutEnded.process? pid = some q →
      q = p := by
    intro pid p q hp hq
    rw [process?_withoutEnded h.distinct, hp] at hq
    exact (Option.some.inj (Option.filter_eq_some_iff.mp hq).1).symm
  -- Whoever is found while nobody runs was found before.
  have hmiddle : ∀ pid p q, s.process? pid = some p → suspended.process? pid = some q →
      (if pid = previous then { p with frame } else p).Keeps q := by
    intro pid p q hp hq
    obtain ⟨r, hr⟩ := exists_process? (hleft.pids ▸ process?_mem_pids hq)
    obtain rfl := hold pid p r hp hr
    exact hleft.keeps pid r q hr hq
  refine ⟨hestates.trans hleft.estates, hpids.trans hleft.pids, hcurrent,
    (process?_dispatch hdispatch next.pid).trans (if_pos rfl), ?_, ?_, ?_, ?_⟩
  · obtain ⟨p, hp, hinside⟩ := hleft.inside
    rw [process?_withoutEnded h.distinct] at hp
    exact ⟨p, (Option.filter_eq_some_iff.mp hp).1, hinside⟩
  · intro pid p q hp hq
    obtain ⟨r, hr⟩ := exists_process? (hpids ▸ process?_mem_pids hq)
    exact (hmiddle pid p r hp hr).trans (hcontinues pid r q hr hq)
  · by_cases hsame : next.pid = previous
    · exact .inl hsame
    · have hfound := hnext
      rw [hleft.others _ hsame, process?_withoutEnded h.distinct] at hfound
      exact .inr ⟨(Option.filter_eq_some_iff.mp hfound).1, hready⟩
  · intro p hp hended
    have hkept := hmiddle next.pid p next hp hnext
    have hstill : next.state = .terminated := by
      split at hkept
      · exact hkept.ended hended
      · exact hkept.ended hended
    rw [hready] at hstill
    contradiction

theorem Sound.switch_handed (h : s.Sound) {previous : Pid} (current : s.current = some previous)
    {frame : Nat} {memory : KernelMemory} {cpu : Processor} {switched : Switched}
    (hswitch : (s.switch frame memory cpu).result = .ok switched) :
    ∃ next, s.Handed previous frame next switched.scheduler ∧ switched.resume = next.frame ∧
      install next switched.memory.directoryPhys
        (s.withoutEnded.directoryOf previous switched.memory.directoryPhys) cpu =
          .ok switched.cpu := by
  rcases switch_eq_ok hswitch with ⟨hnone, -⟩ |
    ⟨other, reaped, suspended, next, hcurrent, hreap, hsuspend, hdispatch, hresume, hinstall⟩
  · rw [current] at hnone
    contradiction
  · obtain rfl := Option.some.inj (current.symm.trans hcurrent)
    obtain rfl := reap_eq_ok hreap
    exact ⟨next, h.handed current hsuspend hdispatch, hresume, hinstall⟩

end Scheduler

end KernelCore
