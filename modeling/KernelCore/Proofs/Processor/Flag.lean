import Mathlib
import KernelCore.Processor.Program

/-!
# The interrupt flag across sections

What a program of nested sections leaves of the interrupt flag. Nothing turns off interrupts that
were on before it. It leaves them on that were off just if a fault leaves a body that runs with
interrupts enabled, and no such section around it ends normally: a guard restores the flag on every
way out, the other kind of section only behind a body that ends normally.
-/

namespace KernelCore

variable {s : Session} {kind : SectionKind} {step : Instruction}

/-! ## Instructions -/

namespace TraceEntry

def step? : TraceEntry → Option (Instruction × Bool)
  | instruction step on => some (step, on)
  | _ => none

end TraceEntry

namespace Session

def steps (s : Session) : List (Instruction × Bool) := s.trace.filterMap TraceEntry.step?

end Session

namespace Instruction

def Neutral : Instruction → Prop
  | enable | disable | guard | drop _ => False
  | _ => True

/-- Other than a fault, a neutral instruction completes and leaves the flag alone. -/
theorem Neutral.exec_eq (h : step.Neutral) (ordinary : step ≠ .fault) (s : Session) :
    ∃ t, step.exec s = (.ok (), t) ∧ t.cpu.interrupts = s.cpu.interrupts ∧
      t.steps = s.steps := by
  cases step with
  | enable | disable | guard | drop => exact h.elim
  | fault => exact absurd rfl ordinary
  | halt | load | paging | kernelStack | observe => exact ⟨_, rfl, rfl, rfl⟩

end Instruction

/-! ## Sections -/

namespace SectionKind

/-- Whether interrupts are on inside a section that begins with them so. -/
def inside : SectionKind → Bool → Bool
  | without, _ | guarded, _ => false
  | within, _ => true
  | catching, on => on

def enter : SectionKind → Session → Session
  | without, s | guarded, s => (Guard.acquire s).2
  | within, s => if s.cpu.interrupts then s else InterruptFlag.setEnabled true s
  | catching, s => s

/-- Whether the code behind a section runs, its body having ended normally or not. -/
def passes (kind : SectionKind) (ended : Bool) : Bool := kind == .catching || ended

/-- The flag behind a section: what it was before, whether the body ended normally, and what the
body left. -/
def leave : SectionKind → Bool → Bool → Bool → Bool
  | without, before, _, left | guarded, before, _, left => before || left
  | within, before, ended, left => if ended then before && left else left
  | catching, _, _, left => left

theorem enter_interrupts (kind : SectionKind) (s : Session) :
    (kind.enter s).cpu.interrupts = kind.inside s.cpu.interrupts := by
  cases hon : s.cpu.interrupts <;> cases kind <;>
    simp [enter, inside, Guard.acquire, InterruptFlag.enabled, InterruptFlag.setEnabled,
      Processor.setInterrupts, hon]

theorem enter_trace (kind : SectionKind) (s : Session) : (kind.enter s).trace = s.trace := by
  cases hon : s.cpu.interrupts <;> cases kind <;>
    simp [enter, Guard.acquire, InterruptFlag.enabled, InterruptFlag.setEnabled, hon]

/-- What a section makes of its body. -/
structure Encloses (kind : SectionKind) (body : Code Session Unit) (s : Session) : Prop where
  result : (kind.around body s).1.isOk = kind.passes (body (kind.enter s)).1.isOk
  interrupts : (kind.around body s).2.cpu.interrupts =
    kind.leave s.cpu.interrupts (body (kind.enter s)).1.isOk (body (kind.enter s)).2.cpu.interrupts
  trace : (kind.around body s).2.trace = (body (kind.enter s)).2.trace

theorem encloses_scope (body : Code Session Unit) (s : Session) :
    (Guard.scope body s).1 = (body (Guard.acquire s).2).1 ∧
      (Guard.scope body s).2.cpu.interrupts =
        (s.cpu.interrupts || (body (Guard.acquire s).2).2.cpu.interrupts) ∧
      (Guard.scope body s).2.trace = (body (Guard.acquire s).2).2.trace := by
  show _ ∧ ((Guard.acquire s).1.drop (body (Guard.acquire s).2).2).cpu.interrupts = _ ∧
    ((Guard.acquire s).1.drop (body (Guard.acquire s).2).2).trace = _
  generalize (body (Guard.acquire s).2).2 = t
  cases hon : s.cpu.interrupts <;>
    simp [Guard.scope, Guard.acquire, Guard.drop, InterruptFlag.enabled, InterruptFlag.setEnabled,
      Processor.setInterrupts, hon]

theorem encloses_window (body : Code Session Unit) (s : Session) :
    (withInterrupts body s).1 = (body (within.enter s)).1 ∧
      (withInterrupts body s).2.cpu.interrupts =
        within.leave s.cpu.interrupts (body (within.enter s)).1.isOk
          (body (within.enter s)).2.cpu.interrupts ∧
      (withInterrupts body s).2.trace = (body (within.enter s)).2.trace := by
  have hbegin : (if InterruptFlag.enabled s then s else InterruptFlag.setEnabled true s) =
      within.enter s := rfl
  simp only [withInterrupts, hbegin]
  obtain ⟨result, t⟩ := body (within.enter s)
  cases result with
  | error fault => exact ⟨rfl, rfl, rfl⟩
  | ok a =>
      cases hon : s.cpu.interrupts <;>
        simp [leave, InterruptFlag.enabled, InterruptFlag.setEnabled, Processor.setInterrupts,
          Except.isOk, Except.toBool, hon]

theorem encloses (kind : SectionKind) (body : Code Session Unit) (s : Session) :
    kind.Encloses body s := by
  cases kind with
  | without | guarded =>
      obtain ⟨hresult, hflag, htrace⟩ := encloses_scope body s
      exact ⟨congrArg Except.isOk hresult, hflag, htrace⟩
  | within =>
      obtain ⟨hresult, hflag, htrace⟩ := encloses_window body s
      exact ⟨congrArg Except.isOk hresult, hflag, htrace⟩
  | catching => exact ⟨rfl, rfl, rfl⟩

end SectionKind

/-! ## Programs -/

namespace Program

variable {program body next : Program}

/-- Programs that leave the interrupt flag and the list of guards to their sections. -/
def Plain : Program → Prop
  | done => True
  | instruction step next => step.Neutral ∧ next.Plain
  | block _ body next => body.Plain ∧ next.Plain

def completes : Program → Bool
  | done => true
  | instruction step next => step != .fault && next.completes
  | block kind body next => kind.passes body.completes && next.completes

/-- Whether a plain program that begins with interrupts off leaves them on. -/
def leaks : Program → Bool
  | done => false
  | instruction step next => step != .fault && next.leaks
  | block kind body next =>
      kind.leave false body.completes (kind == .within || body.leaks) ||
        (kind.passes body.completes && next.leaks)

theorem run_instruction {t : Session} (next : Program) (h : step.exec s = (.ok (), t)) :
    (instruction step next).run s = next.run (Session.record (.instruction step) t).2 := by
  rw [run, h]

theorem run_block_ok {t : Session} (next : Program) (h : kind.around body.run s = (.ok (), t)) :
    (block kind body next).run s = next.run (Session.record (.block kind) t).2 := by
  rw [run, h]

theorem run_block_error {t : Session} {fault : Fault} (next : Program)
    (h : kind.around body.run s = (.error fault, t)) :
    (block kind body next).run s = (.error fault, t) := by
  rw [run, h]

theorem leave_inside (kind : SectionKind) (before ended leaks : Bool) :
    kind.leave before ended (kind.inside before || leaks) =
      (before || kind.leave false ended (kind == .within || leaks)) := by
  cases kind <;> cases before <;> cases ended <;> cases leaks <;> rfl

theorem leave_within (ended leaks : Bool) :
    SectionKind.within.leave false ended (SectionKind.within == .within || leaks) = !ended := by
  cases ended <;> rfl

/-- Whether a plain program ends normally, and with interrupts on, does not depend on what else
the session holds. -/
theorem Plain.run_ends (plain : program.Plain) (s : Session) :
    (program.run s).1.isOk = program.completes ∧
      (program.run s).2.cpu.interrupts = (s.cpu.interrupts || program.leaks) := by
  induction program generalizing s with
  | done => exact ⟨rfl, (Bool.or_false _).symm⟩
  | instruction step next ih =>
      by_cases hfault : step = .fault
      · subst hfault
        exact ⟨rfl, (Bool.or_false _).symm⟩
      · obtain ⟨t, hexec, hflag, -⟩ := plain.1.exec_eq hfault s
        obtain ⟨hends, hleft⟩ := ih plain.2 (Session.record (.instruction step) t).2
        have hordinary : (step != .fault) = true := bne_iff_ne.mpr hfault
        rw [run_instruction next hexec, hends, hleft, completes, leaks, hordinary, Bool.true_and,
          Bool.true_and]
        exact ⟨rfl, congrArg (· || next.leaks) hflag⟩
  | block kind body next inner ih =>
      -- The body does not know the flag before the section, only what the section makes of it.
      obtain ⟨hends, hleft⟩ := inner plain.1 (kind.enter s)
      obtain ⟨hresult, hflag, -⟩ := kind.encloses body.run s
      rw [hends] at hresult hflag
      rw [hleft, kind.enter_interrupts, leave_inside] at hflag
      rw [completes, leaks, ← hresult]
      match haround : kind.around body.run s with
      | (.error fault, t) =>
          rw [haround] at hflag
          rw [run_block_error next haround, hflag]
          exact ⟨rfl, by simp [Except.isOk, Except.toBool]⟩
      | (.ok (), t) =>
          obtain ⟨hrest, hlast⟩ := ih plain.2 (Session.record (.block kind) t).2
          rw [haround] at hflag
          change t.cpu.interrupts = _ at hflag
          change _ = (t.cpu.interrupts || next.leaks) at hlast
          rw [run_block_ok next haround, hrest, hlast, hflag, Bool.or_assoc]
          exact ⟨rfl, rfl⟩

/-! ## Leaving a body with interrupts enabled -/

/-- How a body that runs with interrupts enabled leaves the flag: as it was if the body ends
normally, and on if a fault leaves it, also behind the section that stops the fault. -/
structure LeavesWindow (body : Program) (s : Session) : Prop where
  ends : (withInterrupts body.run s).1.isOk = body.completes
  closed : body.completes = true →
    (withInterrupts body.run s).2.cpu.interrupts = s.cpu.interrupts
  opened : body.completes = false → (withInterrupts body.run s).2.cpu.interrupts = true
  restored : (withInterrupts body.run s).2.cpu.interrupts = s.cpu.interrupts ↔
    body.completes = true ∨ s.cpu.interrupts = true
  resumed : (SectionKind.catching.around (block .within body .done).run s).2.cpu.interrupts =
    (s.cpu.interrupts || !body.completes)

theorem Plain.leavesWindow (plain : body.Plain) (s : Session) : LeavesWindow body s := by
  obtain ⟨hends, hleft⟩ := plain.run_ends (SectionKind.within.enter s)
  obtain ⟨hresult, hflag, -⟩ := SectionKind.within.encloses body.run s
  have hwindow : (block .within body .done).Plain := ⟨plain, trivial⟩
  rw [hends, hleft, SectionKind.enter_interrupts, leave_inside, leave_within] at hflag
  change (withInterrupts body.run s).2.cpu.interrupts = _ at hflag
  refine ⟨hresult.trans hends, fun h => ?_, fun h => ?_, ?_, ?_⟩
  · rw [hflag, h, Bool.not_true, Bool.or_false]
  · rw [hflag, h, Bool.not_false, Bool.or_true]
  · rw [hflag]
    cases s.cpu.interrupts <;> cases body.completes <;> decide
  · refine (hwindow.run_ends s).2.trans ?_
    rw [leaks, leaks, leave_within, Bool.and_false, Bool.or_false]

/-- A section that runs its body with interrupts enabled restores the flag behind a body that ends
normally. Behind one that a fault leaves interrupts are on, whatever they were before, and stay so
for the code behind the section that stops the fault. So a plain program leaves interrupts on just
if they were on before it, or a fault left such a section and no section of that kind around it
ended normally. -/
theorem Plain.window_left (plain : body.Plain) (s : Session) :
    LeavesWindow body s ∧ ∀ program : Program, program.Plain →
      (program.run s).2.cpu.interrupts = (s.cpu.interrupts || program.leaks) :=
  ⟨plain.leavesWindow s, fun _ hplain => (hplain.run_ends s).2⟩

/-- A fault inside a critical section inside the window: interrupts were off before, and stay on. -/
theorem window_left_from_critical_section :
    (withInterrupts (block .without (.instruction .halt (.instruction .fault .done)) .done).run
      .start).2.cpu.interrupts = true := by
  have plain : (block .without (.instruction .halt (.instruction .fault .done)) .done).Plain :=
    ⟨⟨trivial, trivial, trivial⟩, trivial⟩
  exact (plain.window_left .start).1.opened rfl

/-- Interrupts are off when the window is opened and on after the fault that leaves it, so that the
critical section around it goes on with interrupts enabled. -/
theorem critical_section_resumed_enabled :
    Session.start.cpu.interrupts = false ∧
      (withInterrupts (instruction .fault .done).run .start).1 = .error .raised ∧
      (withInterrupts (instruction .fault .done).run .start).2.cpu.interrupts = true ∧
      ((block .without (.block .catching (.block .within (.instruction .fault .done) .done)
        (.instruction .halt .done)) .done).run .start).2.trace =
        [.block .without true, .instruction .halt true, .block .catching true] := by
  decide

end Program

end KernelCore
