import Mathlib
import KernelCore.Proofs.Scheduler.Rotation
import KernelCore.Proofs.System.HandOver
import KernelCore.Proofs.System.Ownership

/-!
# Round robin

From any scheduler that has started, the contenders of the highest level have the processor in turn,
for as long as nothing but switches and ticks happens; in a kernel that owns its memory no switch on
the way fails.
-/

namespace KernelCore

namespace Scheduler

variable {s : Scheduler}

/-- Switches that follow each other give the processor to the contenders of the highest level, in
the order in which they wait, over and over: each once in as many switches as there are contenders,
and no process of another level. Each switch comes back that is given a frame on the stack of the
current process, in a system with a narrow heap outside of static memory. -/
theorem Reached.round_robin (h : Reached true s) :
    (∃ level, s.plan.Leading level ∧ s.TakesTurns level) ∧
      ∀ {info base maxSize sys turns}, System.Reached info base maxSize true sys →
        base + maxSize ≤ info.kernelEnd ∨ info.placementLimit ≤ base → maxSize ≤ addressSpan →
        Turns s turns sys.scheduler → ∀ {pid p frame}, sys.scheduler.current = some pid →
        sys.scheduler.process? pid = some p →
        p.stack.contains frame Registers.kernelFrameBytes = .ok true → ∀ cpu,
        ∃ switched, (sys.scheduler.switch frame sys.memory cpu).result = .ok switched := by
  obtain ⟨hsound, hcurrent, hidle⟩ := h.sound
  obtain ⟨level, hleading⟩ := hsound.exists_leading hidle
  refine ⟨⟨level, hleading, hsound.takesTurns hcurrent hleading⟩, ?_⟩
  intro info base maxSize sys turns hsys apart narrow _ pid p frame hrunning hp hinside cpu
  obtain ⟨kernel, hexact⟩ := hsys.exact_of_narrow apart narrow
  obtain ⟨reaped, memory, hreap⟩ := hexact.reaps.reaps
  exact hsys.exists_switch hrunning hp hinside hreap cpu

/-- The main process, one that was spawned beside it, and the idle one. Answers the scheduler, and
what two ticks and three switches make of it. -/
def sampleTurns : Except Fault (Scheduler × Scheduler) := do
  let request : SpawnRequest := ⟨0x1000, .normal, 7, 0x1000, ⟨true, false⟩⟩
  let (answer, s, memory) ← (empty.spawn request none sampleMemory).result
  let .ok _ := answer | throw .raised
  let (s, memory) ← (s.start ⟨0x40000, 0x1000, false⟩ 0x2000 memory).result
  let first ← ((s.onTick 1).2.switch 0x40800 memory .reset).result
  let second ← (first.scheduler.switch first.resume first.memory .reset).result
  let third ← ((second.scheduler.onTick 1).2.switch second.resume second.memory .reset).result
  return (s, third.scheduler)

theorem reached_sampleTurns {s t : Scheduler} (h : sampleTurns = .ok (s, t)) :
    Reached true s ∧ ∃ turns, turns.length = 3 ∧ Turns s turns t := by
  unfold sampleTurns at h
  obtain ⟨⟨answer, u, memory⟩, hspawn, h⟩ := bind_eq_ok h
  rcases answer with cause | pid
  · simp at h
  obtain ⟨⟨v, memory'⟩, hstart, h⟩ := bind_eq_ok h
  obtain ⟨first, hfirst, h⟩ := bind_eq_ok h
  obtain ⟨second, hsecond, h⟩ := bind_eq_ok h
  obtain ⟨third, hthird, h⟩ := bind_eq_ok h
  obtain ⟨rfl, rfl⟩ := by simpa only [pure_eq_ok, Except.ok.injEq, Prod.mk.injEq] using h
  have hturns := ((((Turns.here.ticked 1).switched hfirst).switched hsecond).ticked 1).switched
    hthird
  exact ⟨(Reached.empty.step (.spawned hspawn)).start hstart, _, rfl, hturns⟩

/-- The process that waits gets the processor first, then the main process, then it again. -/
theorem round_robin_of_two :
    ∃ s t turns, Reached true s ∧ Turns s turns t ∧ turns.length = 3 ∧
      s.plan.contenders .normal = [⟨0⟩, ⟨1⟩] ∧ s.plan.contenders .min = [⟨2⟩] ∧
      s.TakesTurns .normal ∧ t.current = some ⟨0⟩ := by
  have hstate : (do
      let (s, _) ← sampleTurns
      return (s.plan.contenders .normal, s.plan.contenders .min,
        (List.finRange priorityLevels).all fun l => l ≤ 8 || (s.plan.contenders ⟨l⟩).isEmpty) :
        Except Fault (List Pid × List Pid × Bool)) =
      .ok ([⟨0⟩, ⟨1⟩], [⟨2⟩], true) := by decide +kernel
  obtain ⟨⟨s, t⟩, hsample, hstate⟩ := bind_eq_ok hstate
  simp only [pure_eq_ok, Except.ok.injEq, Prod.mk.injEq] at hstate
  obtain ⟨hnormal, hmin, habove⟩ := hstate
  obtain ⟨hreached, turns, hlength, hturns⟩ := reached_sampleTurns hsample
  have hleading : s.plan.Leading .normal := by
    refine ⟨by simp [hnormal], fun higher hlt => ?_⟩
    have hempty := List.all_eq_true.mp habove higher.level (List.mem_finRange _)
    have hnot : ¬higher.level ≤ 8 := Fin.not_le.mpr hlt
    simpa [hnot] using hempty
  obtain ⟨⟨level, htop, htakes⟩, -⟩ := hreached.round_robin
  obtain rfl := htop.unique hleading
  have hcurrent := htakes.current hturns (by omega)
  rw [hnormal, hlength] at hcurrent
  exact ⟨s, t, turns, hreached, hturns, hlength, hnormal, hmin, htakes, hcurrent⟩

end Scheduler

end KernelCore
