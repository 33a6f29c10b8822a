import Mathlib
import KernelCore.Proofs.Processor.Flag

/-!
# Nested sections unwind

As long as every body that runs with interrupts enabled ends normally, nested sections leave the
interrupt flag as it was, whether the program around them ends normally or by a fault, and every
step runs with the flag that the innermost section around it demands.
-/

namespace KernelCore

/-- Something that begins in the course of a run: an instruction or a section, with interrupts on
or off, inside a section or outside all of them. -/
structure Visit where
  inner : Option SectionKind
  entry : TraceEntry
deriving DecidableEq

def TraceEntry.interrupts : TraceEntry → Bool
  | instruction _ on | block _ on => on
  | processor cpu => cpu.interrupts

namespace SectionKind

/-- The innermost section around a body. Stopping faults does not count: it leaves the flag to the
sections around it. -/
def innermost : SectionKind → Option SectionKind → Option SectionKind
  | catching, inner => inner
  | kind, _ => some kind

def demanded (outside : Bool) : Option SectionKind → Bool
  | none => outside
  | some kind => kind.inside outside

theorem demanded_innermost (kind : SectionKind) (outside : Bool) (inner : Option SectionKind) :
    demanded outside (kind.innermost inner) = kind.inside (demanded outside inner) := by
  cases kind <;> rfl

end SectionKind

namespace Program

variable {program body next : Program} {s : Session} {kind : SectionKind} {step : Instruction}
  {inner : Option SectionKind}

/-! ## What a run visits -/

/-- What begins in a run of the program from a session on, in order. The program stands directly
inside the section `inner`. -/
def visits : Option SectionKind → Program → Session → List Visit
  | _, done, _ => []
  | inner, instruction step next, s =>
      ⟨inner, .instruction step s.cpu.interrupts⟩ ::
        match step.exec s with
        | (.ok (), s) => next.visits inner (Session.record (.instruction step) s).2
        | (.error _, _) => []
  | inner, block kind body next, s =>
      ⟨inner, .block kind s.cpu.interrupts⟩ ::
        (body.visits (kind.innermost inner) (kind.enter s) ++
          match kind.around body.run s with
          | (.ok (), s) => next.visits inner (Session.record (.block kind) s).2
          | (.error _, _) => [])

theorem visits_fault (inner : Option SectionKind) (next : Program) (s : Session) :
    (instruction .fault next).visits inner s =
      [⟨inner, .instruction .fault s.cpu.interrupts⟩] := rfl

theorem visits_instruction {t : Session} (next : Program) (h : step.exec s = (.ok (), t)) :
    (instruction step next).visits inner s = ⟨inner, .instruction step s.cpu.interrupts⟩ ::
      next.visits inner (Session.record (.instruction step) t).2 := by
  rw [visits, h]

theorem visits_block_ok {t : Session} (next : Program)
    (h : kind.around body.run s = (.ok (), t)) :
    (block kind body next).visits inner s = ⟨inner, .block kind s.cpu.interrupts⟩ ::
      (body.visits (kind.innermost inner) (kind.enter s) ++
        next.visits inner (Session.record (.block kind) t).2) := by
  rw [visits, h]

theorem visits_block_error {t : Session} {fault : Fault} (next : Program)
    (h : kind.around body.run s = (.error fault, t)) :
    (block kind body next).visits inner s = ⟨inner, .block kind s.cpu.interrupts⟩ ::
      body.visits (kind.innermost inner) (kind.enter s) := by
  rw [visits, h]
  exact congrArg _ (List.append_nil _)

def completed (visit : Visit) : Option (Instruction × Bool) :=
  visit.entry.step?.filter (·.1 != .fault)

theorem Plain.run_steps (plain : program.Plain) (inner : Option SectionKind) (s : Session) :
    (program.run s).2.steps =
      ((program.visits inner s).filterMap completed).reverse ++ s.steps := by
  induction program generalizing s inner with
  | done => rfl
  | instruction step next ih =>
      by_cases hfault : step = .fault
      · subst hfault
        rfl
      · obtain ⟨t, hexec, hflag, hsteps⟩ := plain.1.exec_eq hfault s
        have hvisit : completed ⟨inner, .instruction step s.cpu.interrupts⟩ =
            some (step, t.cpu.interrupts) := by
          simp [completed, TraceEntry.step?, hfault, hflag]
        rw [run_instruction next hexec, visits_instruction next hexec, ih plain.2 inner,
          List.filterMap_cons_some hvisit, List.reverse_cons, List.append_assoc, ← hsteps]
        rfl
  | block kind body next ihb ih =>
      have htrace : (kind.around body.run s).2.steps =
          ((body.visits (kind.innermost inner) (kind.enter s)).filterMap completed).reverse ++
            s.steps := by
        have hbody := ihb plain.1 (kind.innermost inner) (kind.enter s)
        rwa [Session.steps, ← (kind.encloses body.run s).trace, Session.steps, kind.enter_trace]
          at hbody
      match haround : kind.around body.run s with
      | (.error fault, t) =>
          rw [haround] at htrace
          rw [run_block_error next haround, visits_block_error next haround, htrace]
          rfl
      | (.ok (), t) =>
          rw [haround] at htrace
          rw [run_block_ok next haround, visits_block_ok next haround, ih plain.2 inner,
            List.filterMap_cons_none rfl, List.filterMap_append, List.reverse_append,
            List.append_assoc, ← htrace]
          rfl

/-! ## Bodies that end normally -/

/-- Every body that comes to run with interrupts enabled ends normally. -/
def Settled : Program → Prop
  | done => True
  | instruction step next => step = .fault ∨ next.Settled
  | block kind body next =>
      body.Settled ∧ (kind = .within → body.completes = true) ∧
        (kind.passes body.completes = true → next.Settled)

theorem Settled.leave_eq (completes : kind = .within → body.completes = true)
    (kept : body.leaks = false) :
    kind.leave false body.completes (kind == .within || body.leaks) = false := by
  cases kind with
  | without | guarded | catching => exact kept
  | within => rw [leave_within, completes rfl, Bool.not_true]

theorem Settled.leaks_eq (settled : program.Settled) : program.leaks = false := by
  induction program with
  | done => rfl
  | instruction step next ih =>
      rw [leaks, Bool.and_eq_false_iff]
      exact settled.imp (fun hfault => by rw [hfault]; rfl) ih
  | block kind body next ihb ih =>
      obtain ⟨hbody, hcompletes, hnext⟩ := settled
      rw [leaks, leave_eq hcompletes (ihb hbody), Bool.false_or, Bool.and_eq_false_iff]
      cases hpasses : kind.passes body.completes with
      | false => exact .inl rfl
      | true => exact .inr (ih (hnext hpasses))

theorem Settled.around_interrupts (plain : body.Plain) (settled : body.Settled)
    (completes : kind = .within → body.completes = true) (s : Session) :
    (kind.around body.run s).2.cpu.interrupts = s.cpu.interrupts := by
  obtain ⟨hends, hleft⟩ := plain.run_ends (kind.enter s)
  rw [(kind.encloses body.run s).interrupts, hends, hleft, kind.enter_interrupts, leave_inside,
    leave_eq completes settled.leaks_eq, Bool.or_false]

/-- Whatever begins finds the flag that the section around it demands. -/
theorem Settled.visits_demanded (plain : program.Plain) (settled : program.Settled)
    {outside : Bool} (begins : s.cpu.interrupts = SectionKind.demanded outside inner) :
    ∀ visit ∈ program.visits inner s,
      visit.entry.interrupts = SectionKind.demanded outside visit.inner := by
  induction program generalizing s inner with
  | done => exact nofun
  | instruction step next ih =>
      by_cases hfault : step = .fault
      · subst hfault
        rw [visits_fault]
        exact List.forall_mem_singleton.mpr begins
      · obtain ⟨t, hexec, hflag, -⟩ := plain.1.exec_eq hfault s
        rw [visits_instruction next hexec]
        exact List.forall_mem_cons.mpr
          ⟨begins, ih plain.2 (settled.resolve_left hfault) (hflag.trans begins)⟩
  | block kind body next ihb ih =>
      obtain ⟨hbody, hcompletes, hnext⟩ := settled
      -- The body begins with the flag it is to have, and behind the section the flag is as before.
      have hinside : ∀ visit ∈ body.visits (kind.innermost inner) (kind.enter s),
          visit.entry.interrupts = SectionKind.demanded outside visit.inner := by
        refine ihb plain.1 hbody ?_
        rw [kind.enter_interrupts, begins, kind.demanded_innermost]
      have hbehind := hbody.around_interrupts plain.1 hcompletes s
      have hresult := (kind.encloses body.run s).result
      rw [(plain.1.run_ends (kind.enter s)).1] at hresult
      match haround : kind.around body.run s with
      | (.error fault, t) =>
          rw [visits_block_error next haround]
          exact List.forall_mem_cons.mpr ⟨begins, hinside⟩
      | (.ok (), t) =>
          rw [haround] at hbehind hresult
          rw [visits_block_ok next haround]
          refine List.forall_mem_cons.mpr ⟨begins, List.forall_mem_append.mpr ⟨hinside, ?_⟩⟩
          exact ih plain.2 (hnext hresult.symm) (hbehind.trans begins)

/-! ## Unwinding -/

structure Unwinds (program : Program) (s : Session) : Prop where
  /-- Whether a program ends normally, which is asked of bodies with interrupts enabled, shows in
  its text. -/
  ends : (program.run s).1.isOk = program.completes
  /-- The flag is in the end what it was, with or without a fault. -/
  restored : (program.run s).2.cpu.interrupts = s.cpu.interrupts
  disabled : ∀ visit ∈ program.visits none s,
    visit.inner = some .without ∨ visit.inner = some .guarded → visit.entry.interrupts = false
  enabled : ∀ visit ∈ program.visits none s,
    visit.inner = some .within → visit.entry.interrupts = true
  outside : ∀ visit ∈ program.visits none s,
    visit.inner = none → visit.entry.interrupts = s.cpu.interrupts
  /-- The run records what it visits. -/
  recorded : (program.run s).2.steps =
    ((program.visits none s).filterMap completed).reverse ++ s.steps

/-- Critical sections nest and unwind. A program that leaves the flag to its sections, and whose
bodies with interrupts enabled end normally, leaves the flag as it was, also by a fault. What begins
directly inside a critical section or a scope that holds a guard finds interrupts off, and directly
inside a section with interrupts enabled it finds them on. -/
theorem Settled.unwinds (settled : program.Settled) (plain : program.Plain) (s : Session) :
    Unwinds program s := by
  have hdemanded : ∀ visit ∈ program.visits none s,
      visit.entry.interrupts = SectionKind.demanded s.cpu.interrupts visit.inner :=
    settled.visits_demanded plain rfl
  refine ⟨(plain.run_ends s).1, ?_, fun visit hvisit hinner => ?_, fun visit hvisit hinner => ?_,
    fun visit hvisit hinner => ?_, plain.run_steps none s⟩
  · rw [(plain.run_ends s).2, settled.leaks_eq, Bool.or_false]
  · rw [hdemanded visit hvisit]
    rcases hinner with hinner | hinner <;> rw [hinner] <;> rfl
  · rw [hdemanded visit hvisit, hinner]
    rfl
  · rw [hdemanded visit hvisit, hinner]
    rfl

/-- A window inside a critical section, and behind it a fault that leaves the scope of a guard and
is stopped there. -/
def guardedFault : Program :=
  block .without
    (block .within (instruction .halt done)
      (block .catching
        (block .guarded (instruction (.load 4096) (instruction .fault done)) done)
        (instruction .halt done)))
    done

theorem unwinds_through_guarded_fault :
    guardedFault.Settled ∧ guardedFault.Plain ∧
      Unwinds guardedFault ⟨Processor.reset.setInterrupts true, [], []⟩ := by
  have hscope :
      (block .guarded (instruction (.load 4096) (instruction .fault done)) done).Settled :=
    ⟨.inr (.inl rfl), nofun, fun _ => trivial⟩
  have settled : guardedFault.Settled :=
    ⟨⟨.inr trivial, fun _ => rfl, fun _ => ⟨hscope, nofun, fun _ => .inr trivial⟩⟩, nofun,
      fun _ => trivial⟩
  have plain : guardedFault.Plain := by simp [guardedFault, Plain, Instruction.Neutral]
  exact ⟨settled, plain, settled.unwinds plain _⟩

end Program

end KernelCore
