import KernelCore.Processor.Section

/-!
# Programs over the processor

Sequences of processor instructions with nested sections, as they might run inside the kernel:
guards kept on a list and dropped in any order, guards held for a scope, bodies with interrupts
disabled or enabled, and bodies whose faults are caught. Running a program leaves a trace: after
each step that completes, what was done and whether interrupts were on.
-/

namespace KernelCore

inductive Instruction where
  | enable
  | disable
  | halt
  | load (phys : Nat)
  | paging
  | kernelStack (top : Nat)
  /-- Acquires a guard and appends it to the list of guards held. -/
  | guard
  /-- Removes a guard from the list and drops it. -/
  | drop (index : Nat)
  /-- Records the whole processor in the trace. -/
  | observe
  | fault
deriving DecidableEq, Repr

def Instruction.mnemonic : Instruction → String
  | enable => "enable"
  | disable => "disable"
  | halt => "halt"
  | load _ => "load"
  | paging => "paging"
  | kernelStack _ => "kstack"
  | guard => "guard"
  | drop _ => "drop"
  | observe => "state"
  | fault => "panic"

inductive SectionKind where
  /-- With interrupts disabled. -/
  | without
  /-- In a scope that holds a guard. -/
  | guarded
  /-- With interrupts enabled. -/
  | within
  /-- Stopping a fault of the body. -/
  | catching
deriving DecidableEq, Repr

def SectionKind.mnemonic : SectionKind → String
  | without => "without"
  | guarded => "guarded"
  | within => "with"
  | catching => "catch"

/-- A program: instructions and sections, one after another. -/
inductive Program where
  | done
  | instruction (step : Instruction) (next : Program)
  | block (kind : SectionKind) (body next : Program)
deriving Repr, Inhabited

inductive TraceEntry where
  | instruction (step : Instruction) (interrupts : Bool)
  | block (kind : SectionKind) (interrupts : Bool)
  | processor (cpu : Processor)
deriving DecidableEq, Repr

/-- The processor, the guards held and the trace so far, the latest entry first. -/
structure Session where
  cpu : Processor
  guards : List Guard
  trace : List TraceEntry
deriving DecidableEq, Repr

namespace Session

def start : Session := ⟨.reset, [], []⟩

instance : InterruptFlag Session where
  enabled session := session.cpu.interrupts
  setEnabled enabled session := { session with cpu := session.cpu.setInterrupts enabled }

def record (entry : Bool → TraceEntry) : Code Session Unit := fun session =>
  (.ok (), { session with trace := entry session.cpu.interrupts :: session.trace })

end Session

namespace Instruction

/-- What an instruction does, apart from leaving its mark in the trace. -/
def exec : Instruction → Code Session Unit
  | enable, s => (.ok (), { s with cpu := s.cpu.setInterrupts true })
  | disable, s => (.ok (), { s with cpu := s.cpu.setInterrupts false })
  | halt, s => (.ok (), { s with cpu := s.cpu.halt })
  | load phys, s => (.ok (), { s with cpu := s.cpu.loadDirectory phys })
  | paging, s => (.ok (), { s with cpu := s.cpu.enablePaging })
  | kernelStack top, s => (.ok (), { s with cpu := s.cpu.setKernelStack top })
  | guard, s =>
      let (held, s) := Guard.acquire s
      (.ok (), { s with guards := s.guards ++ [held] })
  | drop index, s =>
      match s.guards[index]? with
      | some held => (.ok (), held.drop { s with guards := s.guards.eraseIdx index })
      | none => (.error (.noSuchGuard index s.guards.length), s)
  | observe, s => (.ok (), { s with trace := .processor s.cpu :: s.trace })
  | fault, s => (.error .raised, s)

end Instruction

namespace SectionKind

/-- Runs a body as its section demands. -/
def around : SectionKind → Code Session Unit → Code Session Unit
  | without, body => withoutInterrupts body
  | guarded, body => Guard.scope body
  | within, body => withInterrupts body
  | catching, body => fun s => (.ok (), (body s).2)

end SectionKind

namespace Program

/-- Runs a program up to its end or to a fault that nothing catches. -/
def run : Program → Code Session Unit
  | done, s => (.ok (), s)
  | instruction step next, s =>
      match step.exec s with
      | (.ok (), s) => run next (Session.record (.instruction step) s).2
      | (.error fault, s) => (.error fault, s)
  | block kind body next, s =>
      match kind.around (run body) s with
      | (.ok (), s) => run next (Session.record (.block kind) s).2
      | (.error fault, s) => (.error fault, s)

end Program

end KernelCore
