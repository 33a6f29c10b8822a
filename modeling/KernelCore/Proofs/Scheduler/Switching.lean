import Mathlib
import KernelCore.Proofs.Scheduler.Steps

/-!
# Switching processes

Between giving up the processor and handing it on, nobody runs and the idle process waits. From
there a switch cannot fail for want of a process: some queue holds one, and the table knows it.
-/

namespace KernelCore

namespace Scheduler

/-- Nobody runs, and the idle process waits at the lowest priority. -/
structure Parked (s : Scheduler) : Prop extends Filed s where
  stopped : ∀ pid p, s.process? pid = some p → p.state ≠ .running
  idle : ∀ pid, s.idle = some pid →
    ∃ p, s.process? pid = some p ∧ p.priority = .min ∧ p.state = .ready

variable {s t : Scheduler} {pid : Pid} {p : Process}

/-! ## Giving up the processor -/

theorem Sound.rejoin_room (h : s.Sound) (hp : s.process? pid = some p)
    (running : p.state = .running) (frame : Nat) :
    ((s.update pid fun q => { q with frame, state := .ready }).push? p.priority pid).isSome := by
  have hroom := (h.toFiled.join hp (f := fun q => { q with frame, state := .ready })
    (fun _ => rfl) (by simp [running]) rfl rfl).1
  rw [push?_eq_some (by rwa [queue_update]), Option.isSome_some]

theorem Parked.of_update (h : s.Sound) (current : s.current = some pid) (filed : t.Filed)
    (hp : s.process? pid = some p) {f : Process → Process} (keeps : ∀ p, (f p).pid = p.pid)
    (table : t.processes = (s.update pid f).processes) (idle : t.idle = s.idle)
    (stopped : (f p).state ≠ .running)
    (lowest : s.idle = some pid → (f p).priority = .min ∧ (f p).state = .ready) : t.Parked := by
  have hlookup := process?_of_update keeps hp table
  refine ⟨filed, ?_, ?_⟩
  · intro other q hq hrun
    rw [hlookup] at hq
    split at hq
    · obtain rfl := Option.some.inj hq
      exact stopped hrun
    · next hother =>
        have honly := h.running other q hq hrun
        rw [current] at honly
        exact hother (Option.some.inj honly).symm
  · intro other hidle
    rw [idle] at hidle
    rw [hlookup]
    split
    · next hsame =>
        obtain ⟨hlevel, hready⟩ := lowest (hsame ▸ hidle)
        exact ⟨_, rfl, hlevel, hready⟩
    · next hother =>
        obtain ⟨q, hq, hlevel, hstate⟩ := h.idle other hidle
        refine ⟨q, hq, hlevel, hstate.resolve_right fun hrun => ?_⟩
        have honly := h.running other q hq hrun
        rw [current] at honly
        exact hother (Option.some.inj honly).symm

/-- A suspension that comes back was asked with a frame on the process's stack. The process keeps
the frame, and rejoins its queue unless it has exited. -/
theorem suspend_eq_ok {frame : Nat} (hp : s.process? pid = some p)
    (h : s.suspend pid frame = .ok t) :
    p.stack.contains frame Registers.kernelFrameBytes = .ok true ∧
      t = if p.state = .running then
          (s.update pid fun q => { q with frame, state := .ready }).push p.priority pid
        else s.update pid fun q => { q with frame } := by
  unfold suspend at h
  simp only [hp] at h
  obtain ⟨inside, hcontains, h⟩ := bind_eq_ok h
  cases inside with
  | false => simp at h
  | true =>
      refine ⟨hcontains, ?_⟩
      simp only [Bool.not_true, Bool.false_eq_true, if_false, pure_eq_ok] at h
      split at h
      · next hrun => rw [if_pos hrun, Except.ok.inj h]
      · next hnot => rw [if_neg hnot, Except.ok.inj h]

theorem Sound.suspended (h : s.Sound) (current : s.current = some pid) {frame : Nat}
    (hsuspend : s.suspend pid frame = .ok t) : t.Parked ∧ t.idle = s.idle := by
  obtain ⟨p, hp, hstate⟩ := h.current pid current
  obtain ⟨-, rfl⟩ := suspend_eq_ok hp hsuspend
  split
  · next hrun =>
      obtain ⟨hroom, hfiled⟩ := h.toFiled.join hp
        (f := fun q => { q with frame, state := .ready }) (fun _ => rfl) (by simp [hrun]) rfl rfl
      rw [push_eq (by rwa [queue_update])] at hfiled ⊢
      refine ⟨.of_update h current hfiled hp (f := fun q => { q with frame, state := .ready })
        (fun _ => rfl) rfl rfl (by simp) ?_, rfl⟩
      intro hidle
      obtain ⟨q, hq, hlevel, -⟩ := h.idle pid hidle
      obtain rfl := Option.some.inj (hp.symm.trans hq)
      exact ⟨hlevel, rfl⟩
  · next hnot =>
      have hended := hstate.resolve_left hnot
      refine ⟨.of_update h current (h.toFiled.touch hp (fun _ => rfl) rfl rfl) hp
        (f := fun q => { q with frame }) (fun _ => rfl) rfl rfl hnot ?_, rfl⟩
      intro hidle
      obtain ⟨q, hq, -, hlive⟩ := h.idle pid hidle
      obtain rfl := Option.some.inj (hp.symm.trans hq)
      rw [hended] at hlive
      simp at hlive

/-! ## Handing it on -/

/-- As long as there is an idle process, a queue holds a process, and the table knows it. -/
theorem Parked.exists_dispatch (h : s.Parked) (idle : s.idle.isSome) :
    ∃ next t, s.dispatch = .ok (next, t) := by
  obtain ⟨pid, hidle⟩ := Option.isSome_iff_exists.mp idle
  obtain ⟨p, hp, hlevel, hready⟩ := h.idle pid hidle
  have hwaits : pid ∈ s.queue .min := (h.mem_queue_iff hp .min).mpr ⟨hready, hlevel⟩
  obtain ⟨first, u, hpop⟩ := exists_pop? hwaits
  obtain ⟨priority, rest, hqueue, rfl, -⟩ := pop?_eq_some hpop
  have hfirst : first ∈ s.queue priority := hqueue ▸ List.mem_cons_self
  obtain ⟨q, hq, -⟩ := (h.queued priority first).mp hfirst
  have hfound : (s.setQueue priority rest).process? first = some q := hq
  refine ⟨q, { (s.setQueue priority rest).update first fun process =>
    { process with state := .running } with current := some first }, ?_⟩
  simp only [dispatch, hpop, hfound, pure_eq_ok]

theorem dispatch_eq_ok (h : s.dispatch = .ok (p, t)) :
    ∃ priority rest, s.queue priority = p.pid :: rest ∧
      (∀ higher : Priority, priority.level < higher.level → s.queue higher = []) ∧
      s.process? p.pid = some p ∧
      t = { (s.setQueue priority rest).update p.pid fun q => { q with state := .running } with
        current := some p.pid } := by
  unfold dispatch at h
  split at h
  · contradiction
  next first u hpop =>
  obtain ⟨priority, rest, hqueue, rfl, hhighest⟩ := pop?_eq_some hpop
  split at h
  · contradiction
  next q hq =>
  obtain ⟨rfl, rfl⟩ := Prod.mk.injEq .. ▸ Except.ok.inj h
  obtain ⟨-, rfl⟩ := process?_mem hq
  exact ⟨priority, rest, hqueue, hhighest, hq, rfl⟩

theorem process?_dispatch (h : s.dispatch = .ok (p, t)) (other : Pid) :
    t.process? other =
      if other = p.pid then some { p with state := .running } else s.process? other := by
  obtain ⟨priority, rest, -, -, hp, rfl⟩ := dispatch_eq_ok h
  have hupdate := @process?_update (s.setQueue priority rest) p.pid
    (fun q => { q with state := .running }) (fun _ => rfl) other
  have hold : (s.setQueue priority rest).process? p.pid = some p := hp
  rw [hold] at hupdate
  exact hupdate

theorem Parked.dispatched (h : s.Parked) (hdispatch : s.dispatch = .ok (p, t)) :
    t.Sound ∧ t.current = some p.pid ∧ t.idle = s.idle := by
  have hlookup := process?_dispatch hdispatch
  obtain ⟨priority, rest, hqueue, -, hp, rfl⟩ := dispatch_eq_ok hdispatch
  have hfiled := h.toFiled.leave_first hqueue hp (f := fun q => { q with state := .running })
    (fun _ => rfl) (by simp)
  refine ⟨⟨hfiled.congr rfl rfl rfl, ?_, ?_, ?_⟩, rfl, rfl⟩
  · intro other r hr hrun
    rw [hlookup] at hr
    split at hr
    · next hsame => rw [hsame]
    · exact absurd hrun (h.stopped other r hr)
  · intro other hcurrent
    obtain rfl := Option.some.inj hcurrent
    exact ⟨_, (hlookup p.pid).trans (if_pos rfl), .inl rfl⟩
  · intro other hidle
    obtain ⟨r, hr, hlevel, hready⟩ := h.idle other hidle
    rw [hlookup]
    split
    · next hsame =>
        subst hsame
        obtain rfl := Option.some.inj (hp.symm.trans hr)
        exact ⟨_, rfl, hlevel, .inr rfl⟩
    · exact ⟨r, hr, hlevel, .inl hready⟩

theorem switch_eq_ok {frame : Nat} {memory : KernelMemory} {cpu : Processor} {switched : Switched}
    (h : (s.switch frame memory cpu).result = .ok switched) :
    (s.current = none ∧ switched = ⟨frame, s, memory, cpu⟩) ∨
      ∃ previous reaped suspended next, s.current = some previous ∧
        (s.reap memory).result = .ok (reaped, switched.memory) ∧
        reaped.suspend previous frame = .ok suspended ∧
        suspended.dispatch = .ok (next, switched.scheduler) ∧ switched.resume = next.frame ∧
        install next switched.memory.directoryPhys
          (reaped.directoryOf previous switched.memory.directoryPhys) cpu = .ok switched.cpu := by
  unfold switch at h
  cases hcurrent : s.current with
  | none =>
      simp only [hcurrent, Traced.result_pure, Except.ok.injEq] at h
      exact .inl ⟨rfl, h.symm⟩
  | some previous =>
      simp only [hcurrent, Traced.result_bind, Traced.result_lift] at h
      obtain ⟨⟨reaped, memory'⟩, hreap, h⟩ := bind_eq_ok h
      obtain ⟨suspended, hsuspend, h⟩ := bind_eq_ok h
      obtain ⟨⟨next, dispatched⟩, hdispatch, h⟩ := bind_eq_ok h
      obtain ⟨cpu', hinstall, h⟩ := bind_eq_ok h
      have hleft : switched = ⟨next.frame, dispatched, memory', cpu'⟩ := by
        split at h
        · simp only [Traced.result_bind, Traced.result_note, ok_bind, Traced.result_pure,
            Except.ok.injEq] at h
          exact h.symm
        · simp only [Traced.result_pure, Except.ok.injEq] at h
          exact h.symm
      subst hleft
      exact .inr ⟨previous, reaped, suspended, next, rfl, hreap, hsuspend, hdispatch, rfl,
        hinstall⟩

theorem Sound.switched (h : s.Sound) {frame : Nat} {memory : KernelMemory} {cpu : Processor}
    {switched : Switched} (hswitch : (s.switch frame memory cpu).result = .ok switched) :
    switched.scheduler.Sound ∧ switched.scheduler.current.isSome = s.current.isSome ∧
      switched.scheduler.idle = s.idle := by
  rcases switch_eq_ok hswitch with ⟨-, rfl⟩ |
    ⟨previous, reaped, suspended, next, hcurrent, hreap, hsuspend, hdispatch, -⟩
  · exact ⟨h, rfl, rfl⟩
  · obtain rfl := reap_eq_ok hreap
    obtain ⟨hparked, hidle⟩ := h.reaped.suspended hcurrent hsuspend
    obtain ⟨hsound, hpresent, hsame⟩ := hparked.dispatched hdispatch
    exact ⟨hsound, by rw [hpresent, hcurrent]; rfl, hsame.trans hidle⟩

/-! ## Time -/

theorem Sound.congr (h : s.Sound) (table : t.processes = s.processes) (ready : t.ready = s.ready)
    (next : t.nextPid = s.nextPid) (current : t.current = s.current) (idle : t.idle = s.idle) :
    t.Sound := by
  have hlookup : ∀ pid, t.process? pid = s.process? pid := by
    intro pid
    rw [process?, table, process?]
  refine ⟨h.toFiled.congr table ready next, ?_, ?_, ?_⟩
  · intro pid p hp hrun
    rw [current]
    exact h.running pid p (hlookup pid ▸ hp) hrun
  · intro pid hcurrent
    rw [hlookup]
    exact h.current pid (current ▸ hcurrent)
  · intro pid hidle
    rw [hlookup]
    exact h.idle pid (idle ▸ hidle)

@[simp] theorem current_onTick (s : Scheduler) (elapsed : Nat) :
    (s.onTick elapsed).2.current = s.current := by
  unfold onTick
  cases h : s.current with
  | none => exact h
  | some pid => exact h

@[simp] theorem idle_onTick (s : Scheduler) (elapsed : Nat) :
    (s.onTick elapsed).2.idle = s.idle := by
  unfold onTick
  split <;> rfl

@[simp] theorem ready_onTick (s : Scheduler) (elapsed : Nat) :
    (s.onTick elapsed).2.ready = s.ready := by
  unfold onTick
  split <;> rfl

@[simp] theorem nextPid_onTick (s : Scheduler) (elapsed : Nat) :
    (s.onTick elapsed).2.nextPid = s.nextPid := by
  unfold onTick
  split <;> rfl

theorem processes_onTick (s : Scheduler) (elapsed : Nat) :
    (s.onTick elapsed).2.processes =
      match s.current with
      | some pid => (s.update pid fun q => { q with ticks := q.ticks + 1 }).processes
      | none => s.processes := by
  unfold onTick
  cases s.current <;> rfl

theorem Sound.ticked (h : s.Sound) (elapsed : Nat) : (s.onTick elapsed).2.Sound := by
  have htable := s.processes_onTick elapsed
  cases hcurrent : s.current with
  | none =>
      rw [hcurrent] at htable
      exact h.congr htable (s.ready_onTick elapsed) (s.nextPid_onTick elapsed)
        (s.current_onTick elapsed) (s.idle_onTick elapsed)
  | some pid =>
      rw [hcurrent] at htable
      obtain ⟨p, hp, hstate⟩ := h.current pid hcurrent
      have hfiled := h.toFiled.touch hp (f := fun q => { q with ticks := q.ticks + 1 })
        (fun _ => rfl) rfl rfl
      refine h.change (f := fun q => { q with ticks := q.ticks + 1 })
        (hfiled.congr htable (s.ready_onTick elapsed) (s.nextPid_onTick elapsed)) hp (fun _ => rfl)
        htable (s.current_onTick elapsed) (s.idle_onTick elapsed) (h.running pid p hp)
        (fun _ => hstate) fun hidle => ?_
      obtain ⟨q, hq, hlevel, hlive⟩ := h.idle pid hidle
      obtain rfl := Option.some.inj (hp.symm.trans hq)
      exact ⟨hlevel, hlive⟩

end Scheduler

end KernelCore
