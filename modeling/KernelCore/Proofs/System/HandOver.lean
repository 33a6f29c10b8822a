import Mathlib
import KernelCore.Proofs.Scheduler.Progress
import KernelCore.Proofs.System.Runs

/-!
# Where processes resume

The trail of a run tells where the registers of each process were put last: on its stack by the
spawn that made it, or by the switch that took the processor from it. A process that waits resumes
there, and no other operation moves it. Stacks from the heap share no byte, so nobody resumes on the
stack of somebody else.
-/

namespace KernelCore

open Heap

/-! ## The trail -/

namespace Saving

variable {saving : Saving} {trail : List Saving}

def pid : Saving → Pid
  | built pid _ => pid
  | left pid _ => pid

def frame : Saving → Nat
  | built _ frame => frame
  | left _ frame => frame

def last? (trail : List Saving) (pid : Pid) : Option Saving := trail.find? (·.pid = pid)

theorem last?_cons_self (saving : Saving) (trail : List Saving) :
    last? (saving :: trail) saving.pid = some saving := by simp [last?]

theorem last?_cons_other {pid : Pid} (other : saving.pid ≠ pid) :
    last? (saving :: trail) pid = last? trail pid := by simp [last?, other]

theorem last?_eq_some {pid : Pid} (h : last? trail pid = some saving) :
    saving = .left pid saving.frame ∨ saving = .built pid saving.frame := by
  have hpid : saving.pid = pid := by simpa using List.find?_some h
  cases saving with
  | built => exact .inr (congrArg (Saving.built · _) hpid)
  | left => exact .inl (congrArg (Saving.left · _) hpid)

end Saving

/-- The registers of a process lie where the trail says that they were put last, on its stack. -/
structure Process.Rests (p : Process) (trail : List Saving) : Prop where
  last : ∃ saving, Saving.last? trail p.pid = some saving ∧ saving.frame = p.frame
  inside : p.stack.contains p.frame Registers.kernelFrameBytes = .ok true

namespace Process

variable {p q : Process} {trail : List Saving}

theorem Rests.keeps (h : p.Rests trail) (same : q.pid = p.pid) (keeps : p.Keeps q) :
    q.Rests trail := by
  constructor
  · rw [same, keeps.frame]
    exact h.last
  · rw [keeps.stack, keeps.frame]
    exact h.inside

theorem Rests.cons (h : p.Rests trail) {saving : Saving} (other : saving.pid ≠ p.pid) :
    p.Rests (saving :: trail) := by
  refine ⟨?_, h.inside⟩
  rw [Saving.last?_cons_other other]
  exact h.last

theorem rests_built (placed : p.stack.placeInitialFrame p.flags = .ok p.frame) :
    p.Rests (.built p.pid p.frame :: trail) where
  last := ⟨.built p.pid p.frame, Saving.last?_cons_self _ _, rfl⟩
  inside := KernelStack.contains_of_placed placed

theorem rests_left {frame : Nat} (same : q.pid = p.pid)
    (keeps : ({ p with frame } : Process).Keeps q)
    (inside : p.stack.contains frame Registers.kernelFrameBytes = .ok true) :
    q.Rests (.left p.pid frame :: trail) := by
  have hstack : q.stack = p.stack := keeps.stack
  have hframe : q.frame = frame := keeps.frame
  constructor
  · rw [same, hframe]
    exact ⟨.left p.pid frame, Saving.last?_cons_self _ _, rfl⟩
  · rw [hstack, hframe]
    exact inside

end Process

/-! ## What a run preserves -/

/-- Every process that waits rests. No two processes are on borrowed stacks, and none is before the
boot code was adopted. -/
structure Resumable (s : Scheduler) (trail : List Saving) : Prop where
  waiting : ∀ {pid p}, s.process? pid = some p → p.state = .ready → p.Rests trail
  borrowed : ∀ {pid p pid' p'}, s.process? pid = some p → s.process? pid' = some p' →
    p.stack.owned = false → p'.stack.owned = false → pid = pid'
  before : s.current = none → ∀ {pid p}, s.process? pid = some p → p.stack.owned = true

section Steps

variable {s t : Scheduler} {trail : List Saving} {pid : Pid} {p q : Process}

/-- Nobody begins to wait but by being spawned or interrupted. -/
theorem Resumable.stays (h : Resumable s trail) (sound : s.Sound) (after : t.Sound)
    (continues : s.Continues t) (current : t.current = s.current) (pids : t.pids ⊆ s.pids) :
    Resumable t trail where
  waiting := by
    intro pid q hq hready
    obtain ⟨p, hp, hsame, hkeeps⟩ := continues.exists_old pids hq
    have hoff : s.current ≠ some pid := current ▸ after.off_of_ready hq hready
    exact (h.waiting hp (sound.was_ready hp hoff hkeeps hready)).keeps hsame hkeeps
  borrowed := by
    intro pid q pid' q' hq hq' hborrowed hborrowed'
    obtain ⟨p, hp, -, hkeeps⟩ := continues.exists_old pids hq
    obtain ⟨p', hp', -, hkeeps'⟩ := continues.exists_old pids hq'
    exact h.borrowed hp hp' (hkeeps.stack ▸ hborrowed) (hkeeps'.stack ▸ hborrowed')
  before := by
    intro hnone pid q hq
    obtain ⟨p, hp, -, hkeeps⟩ := continues.exists_old pids hq
    rw [hkeeps.stack]
    exact h.before (current ▸ hnone) hp

theorem Resumable.enters (h : Resumable s trail) {request : SpawnRequest}
    (spawned : Scheduler.Spawned request s p t) (owned : p.stack.owned = true)
    (placed : p.stack.placeInitialFrame p.flags = .ok p.frame) :
    Resumable t (.built p.pid p.frame :: trail) where
  waiting := by
    intro pid q hq hready
    rcases spawned.eq_or_old hq with rfl | ⟨hs, hother⟩
    · exact Process.rests_built placed
    · exact (h.waiting hs hready).cons hother
  borrowed := by
    intro pid q pid' q' hq hq' hborrowed hborrowed'
    rcases spawned.eq_or_old hq with rfl | ⟨hs, -⟩
    · simp [owned] at hborrowed
    rcases spawned.eq_or_old hq' with rfl | ⟨hs', -⟩
    · simp [owned] at hborrowed'
    exact h.borrowed hs hs' hborrowed hborrowed'
  before := by
    intro hnone pid q hq
    rcases spawned.eq_or_old hq with rfl | ⟨hs, -⟩
    · exact owned
    · exact h.before (spawned.current_eq ▸ hnone) hs

/-- The boot code does not wait, and nobody else is on a borrowed stack. -/
theorem Resumable.adopts (h : Resumable s trail) (filed : s.Filed) (before : s.current = none)
    (stack : KernelStack) : Resumable (s.withBoot stack) trail where
  waiting := by
    intro pid q hq hready
    rw [filed.process?_withBoot] at hq
    split at hq
    · obtain rfl := Option.some.inj hq
      contradiction
    · exact h.waiting hq hready
  borrowed := by
    intro pid q pid' q' hq hq' hborrowed hborrowed'
    rw [filed.process?_withBoot] at hq hq'
    split at hq
    · next hboot =>
        split at hq'
        · next hboot' => exact hboot.trans hboot'.symm
        · simp [h.before before hq'] at hborrowed'
    · simp [h.before before hq] at hborrowed
  before := by
    intro hnone
    contradiction

variable {previous : Pid} {frame : Nat} {next : Process}

/-- Whoever was interrupted rests where it was, and the others still rest. -/
theorem Resumable.hands (h : Resumable s trail) (sound : s.Sound)
    (current : s.current = some previous) (hands : s.Handed previous frame next t) :
    Resumable t (.left previous frame :: trail) where
  waiting := by
    intro pid q hq hready
    obtain ⟨p, hp, hsame, -, hkeeps⟩ := hands.exists_old hq
    obtain ⟨-, rfl⟩ := Scheduler.process?_mem hp
    by_cases hprevious : p.pid = previous
    -- The interrupted process waits at `frame`; the switch found that inside its stack.
    · rw [if_pos hprevious] at hkeeps
      obtain ⟨r, hr, hinside⟩ := hands.inside
      obtain rfl := Option.some.inj (hr.symm.trans (hprevious ▸ hp))
      exact hprevious ▸ Process.rests_left hsame hkeeps hinside
    · rw [if_neg hprevious] at hkeeps
      have hoff : s.current ≠ some p.pid := by
        rw [current]
        exact fun heq => hprevious (Option.some.inj heq).symm
      have hrests := h.waiting hp (sound.was_ready hp hoff hkeeps hready)
      exact (hrests.keeps hsame hkeeps).cons fun heq => hprevious (hsame.symm.trans heq.symm)
  borrowed := by
    intro pid q pid' q' hq hq' hborrowed hborrowed'
    obtain ⟨p, hp, -, hstack, -⟩ := hands.exists_old hq
    obtain ⟨p', hp', -, hstack', -⟩ := hands.exists_old hq'
    exact h.borrowed hp hp' (hstack ▸ hborrowed) (hstack' ▸ hborrowed')
  before := by
    intro hnone
    rw [hands.current] at hnone
    contradiction

theorem Resumable.next_rests (h : Resumable s trail) (hands : s.Handed previous frame next t) :
    next.Rests (.left previous frame :: trail) := by
  by_cases hsame : next.pid = previous
  · obtain ⟨p, hp, hinside⟩ := hands.inside
    have hfound : t.process? previous = some { next with state := .running } := by
      rw [← hsame]
      exact hands.found
    have hkeeps := hands.keeps previous p _ hp hfound
    rw [if_pos rfl] at hkeeps
    obtain ⟨-, rfl⟩ := Scheduler.process?_mem hp
    have hrests : ({ next with state := .running } : Process).Rests (.left p.pid frame :: trail) :=
      Process.rests_left hsame hkeeps hinside
    exact ⟨hrests.last, hrests.inside⟩
  · obtain ⟨hp, hready⟩ := hands.waiting.resolve_left hsame
    exact (h.waiting hp hready).cons fun heq => hsame heq.symm

end Steps

/-! ## Stacks lie apart -/

def KernelStack.Outside (stack : KernelStack) (memory : KernelMemory) : Prop :=
  ∀ heap ∈ memory.heap, stack.base + stack.size ≤ heap.start ∨ heap.stop ≤ stack.base

def KernelStack.Apart (a b : KernelStack) : Prop :=
  a.base + a.size ≤ b.base ∨ b.base + b.size ≤ a.base

namespace System

variable {info : BootInfo} {base maxSize : Nat} {started : Bool} {sys sys' : System}
  {lent : PageDirectory → Prop} {pid : Pid} {p q : Process}

theorem stacks_subperm (sys : System) :
    (sys.scheduler.processes.flatMap (·.stack.blocks)).Subperm sys.held := by
  have hheld : (sys.scheduler.processes.flatMap (·.stack.blocks)).Subperm sys.scheduler.held := by
    rw [Scheduler.held]
    have hsplit := List.flatMap_append_perm sys.scheduler.processes (·.stack.blocks)
      fun p => p.space.toList.map (·.block)
    exact (List.sublist_append_left _ _).subperm.trans hsplit.subperm
  exact hheld.trans (List.sublist_append_left _ _).subperm

theorem Good.stacks_apart (h : Good lent KernelMemory.Reserves sys)
    (hp : p ∈ sys.scheduler.processes) (hq : q ∈ sys.scheduler.processes) (distinct : p.pid ≠ q.pid)
    (owned : p.stack.owned = true) (owned' : q.stack.owned = true) : p.stack.Apart q.stack := by
  obtain ⟨heap, -, hallocated⟩ := h.kept
  have hinside := (sys.stacks_subperm.trans (List.sublist_append_right _ _).subperm).trans
    hallocated.inside
  -- The blocks of the stacks are some of the used ones, in another order.
  obtain ⟨allocated, hperm, hsub⟩ := hinside
  have hall := hperm.pairwise (hallocated.valid.used_apart.sublist hsub) Or.symm
  have htable := (List.pairwise_flatMap.mp hall).2
  have hsymm : Std.Symm fun a b : Process => ∀ x ∈ a.stack.blocks, ∀ y ∈ b.stack.blocks,
      x.stop ≤ y.addr ∨ y.stop ≤ x.addr := ⟨fun _ _ hapart x hx y hy => (hapart y hy x hx).symm⟩
  have hblocks := htable.forall hp hq fun hsame => distinct (congrArg Process.pid hsame)
  have hapart := hblocks ⟨p.stack.base, rounded p.stack.size, true⟩
    (by simp [KernelStack.blocks, owned]) ⟨q.stack.base, rounded q.stack.size, true⟩
    (by simp [KernelStack.blocks, owned'])
  have hround := le_rounded p.stack.size
  have hround' := le_rounded q.stack.size
  unfold KernelStack.Apart
  unfold Block.stop at hapart
  simp only at hapart
  omega

theorem Good.stack_inside (h : Good lent KernelMemory.Reserves sys)
    (hp : p ∈ sys.scheduler.processes) (owned : p.stack.owned = true) :
    ∃ heap ∈ sys.memory.heap,
      heap.start ≤ p.stack.base ∧ p.stack.base + p.stack.size ≤ heap.stop := by
  obtain ⟨heap, hheap, hallocated⟩ := h.kept
  have hm : (⟨p.stack.base, rounded p.stack.size, true⟩ : Block) ∈ usedBlocks heap.blocks := by
    apply hallocated.inside.subset
    apply List.mem_append_right
    apply sys.stacks_subperm.subset
    exact List.mem_flatMap.mpr ⟨p, hp, by simp [KernelStack.blocks, owned]⟩
  obtain ⟨hlow, -, hhigh⟩ := hallocated.valid.books.laid.tiles.bounds (List.mem_of_mem_filter hm)
  refine ⟨heap, hheap, hlow, ?_⟩
  have hround := le_rounded p.stack.size
  unfold Block.stop at hhigh
  simp only at hhigh
  omega

/-- As long as the borrowed stack lies outside the heap, all stacks lie apart. -/
theorem Good.all_stacks_apart (h : Good lent KernelMemory.Reserves sys)
    (resumable : Resumable sys.scheduler sys.trail)
    (outside : ∀ p ∈ sys.scheduler.processes, p.stack.owned = false → p.stack.Outside sys.memory)
    (hp : p ∈ sys.scheduler.processes) (hq : q ∈ sys.scheduler.processes)
    (distinct : p.pid ≠ q.pid) : p.stack.Apart q.stack := by
  have hmixed : ∀ {a b : Process}, a ∈ sys.scheduler.processes → b ∈ sys.scheduler.processes →
      a.stack.owned = true → b.stack.owned = false → a.stack.Apart b.stack := by
    intro a b ha hb howned hborrowed
    obtain ⟨heap, hheap, hlow, hhigh⟩ := h.stack_inside ha howned
    have hout := outside b hb hborrowed heap hheap
    unfold KernelStack.Apart
    omega
  cases howned : p.stack.owned with
  | true =>
      cases howned' : q.stack.owned with
      | true => exact h.stacks_apart hp hq distinct howned howned'
      | false => exact hmixed hp hq howned howned'
  | false =>
      cases howned' : q.stack.owned with
      | true => exact (hmixed hq hp howned' howned).symm
      | false =>
          have hfound := Scheduler.process?_of_mem h.sound.distinct hp
          have hfound' := Scheduler.process?_of_mem h.sound.distinct hq
          exact absurd (resumable.borrowed hfound hfound' howned howned') distinct

/-! ## Handing over -/

theorem Reached.resumable (h : Reached info base maxSize started sys) :
    Resumable sys.scheduler sys.trail := by
  induction h with
  | booted =>
      have hempty : ∀ pid, Scheduler.empty.process? pid = none := by
        simp [Scheduler.process?, Scheduler.empty]
      constructor <;> simp [hempty]
  | step hreached hs ih =>
      have hsound := hreached.scheduler_reached.sound.1
      have hafter := (hreached.step hs).scheduler_reached.sound.1
      cases hs.passage hsound with
      | stays hplace htrail =>
          rw [htrail]
          exact ih.stays hsound hafter hplace.continues hplace.current
            (hplace.pids ▸ List.Subset.refl _)
      | enters hspawned howned hplaced htrail => exact htrail ▸ ih.enters hspawned howned hplaced
      | hands hcurrent hswitch hsame hhanded htrail =>
          rw [hsame, htrail]
          exact ih.hands hsound hcurrent hhanded
      | kills hkill htrail =>
          rw [htrail]
          exact ih.stays hsound hafter (hsound.kill_continues hkill) (hsound.killed hkill).2.1
            (hsound.kill_pids hkill)
  | @started sys stack idleEntry t memory hreached borrowed hstart ih =>
      have hsound := hreached.scheduler_reached.sound.1
      obtain ⟨hbefore, hroom, idle, u, hspawn, rfl⟩ := Scheduler.start_eq_ok hstart
      have hboot := hsound.withBoot hbefore hroom stack
      rcases hboot.toFiled.spawn_eq_ok hspawn with ⟨cause, -, hanswer, -⟩ |
        ⟨pid, base, frame, -, hanswer, hspawned, hplaced, -⟩
      · cases hanswer
      obtain rfl := Except.ok.inj hanswer
      have hfound := (hspawned.lookup _).trans (if_pos rfl)
      have hresumable := (ih.adopts hsound.toFiled hbefore stack).enters hspawned rfl hplaced
      rw [← builtFrame_eq hfound hplaced] at hresumable
      exact ⟨hresumable.waiting, hresumable.borrowed, hresumable.before⟩

/-- What a switch away from the current process, interrupted at `frame`, hands over to `next`. -/
structure Resumes (sys : System) (frame : Nat) (switched : Scheduler.Switched) (next : Process) :
    Prop where
  current : switched.scheduler.current = some next.pid
  found : switched.scheduler.process? next.pid = some next
  /-- The registers lie where the last switch away from the process left them, or where its spawn
  built them if there was none. -/
  last : Saving.last? (sys.departure frame ++ sys.trail) next.pid =
      some (.left next.pid switched.resume) ∨
    Saving.last? (sys.departure frame ++ sys.trail) next.pid =
      some (.built next.pid switched.resume)
  above : next.stack.base ≤ switched.resume
  below : switched.resume + Registers.kernelFrameBytes ≤ next.stack.base + next.stack.size
  others : (∀ p ∈ switched.scheduler.processes, p.stack.owned = false →
      p.stack.Outside switched.memory) →
    ∀ other ∈ switched.scheduler.processes, other.pid ≠ next.pid →
      switched.resume + Registers.kernelFrameBytes ≤ other.stack.base ∨
        other.stack.base + other.stack.size ≤ switched.resume

theorem Reached.resumes (h : Reached info base maxSize started sys)
    (running : sys.scheduler.current.isSome) {frame : Nat} {cpu : Processor}
    {switched : Scheduler.Switched}
    (hswitch : (sys.scheduler.switch frame sys.memory cpu).result = .ok switched) :
    ∃ next, sys.Resumes frame switched next := by
  obtain ⟨previous, hcurrent⟩ := Option.isSome_iff_exists.mp running
  have hafter := h.step (.scheduler (.switched hswitch))
  have hsound := h.scheduler_reached.sound.1
  obtain ⟨next, hhanded, hresume, -⟩ := hsound.switch_handed hcurrent hswitch
  have hrests := h.resumable.next_rests hhanded
  have htrail : sys.departure frame ++ sys.trail = .left previous frame :: sys.trail := by
    simp [departure, hcurrent]
  rw [← htrail] at hrests
  obtain ⟨habove, hbelow, -⟩ := KernelStack.contains_eq_true hrests.inside
  obtain ⟨saving, hlast, hframe⟩ := hrests.last
  refine ⟨{ next with state := .running }, hhanded.current, hhanded.found, ?_, ?_, ?_, ?_⟩
  · rw [hresume, hlast, ← hframe]
    rcases Saving.last?_eq_some hlast with hleft | hbuilt
    · exact .inl (congrArg some hleft)
    · exact .inr (congrArg some hbuilt)
  · rw [hresume]
    exact habove
  · rw [hresume]
    exact hbelow
  · intro outside other hother hdiffers
    have hnext := (Scheduler.process?_mem hhanded.found).1
    have hapart := hafter.reserves.all_stacks_apart hafter.resumable outside hnext hother
      (Ne.symm hdiffers)
    unfold KernelStack.Apart at hapart
    simp only at hapart
    rw [hresume]
    omega

/-- A switch that is given a frame on the stack of the current process comes back if reaping
does. -/
theorem Reached.exists_switch (h : Reached info base maxSize started sys)
    (current : sys.scheduler.current = some pid) (hp : sys.scheduler.process? pid = some p)
    {frame : Nat} (inside : p.stack.contains frame Registers.kernelFrameBytes = .ok true)
    {reaped : Scheduler} {memory : KernelMemory}
    (hreap : (sys.scheduler.reap sys.memory).result = .ok (reaped, memory)) (cpu : Processor) :
    ∃ switched, (sys.scheduler.switch frame sys.memory cpu).result = .ok switched := by
  obtain ⟨hsound, hrunning, hidle⟩ := h.scheduler_reached.sound
  have hlowest : sys.scheduler.idle.isSome := by
    rw [hidle, ← hrunning, current, Option.isSome_some]
  refine hsound.exists_switch hlowest current hp inside (fun q hq hready => ?_) hreap cpu
  have hrests := h.resumable.waiting (Scheduler.process?_of_mem hsound.distinct hq) hready
  exact (KernelStack.contains_eq_true hrests.inside).2.2

theorem Step.keeps_frame (hs : Step sys sys') (h : sys.scheduler.Sound)
    (hp : sys.scheduler.process? pid = some p) (hq : sys'.scheduler.process? pid = some q) :
    q.frame = p.frame ∨ ∃ frame cpu switched, sys.scheduler.current = some pid ∧
      (sys.scheduler.switch frame sys.memory cpu).result = .ok switched ∧
      sys'.scheduler = switched.scheduler ∧ q.frame = frame := by
  rcases (hs.passage h).continues h with ⟨hcontinues, -⟩ |
    ⟨frame, cpu, switched, previous, next, hcurrent, hswitch, hsame, hhanded⟩
  · exact .inl (hcontinues pid p q hp hq).frame
  · have hkeeps := hhanded.keeps pid p q hp (hsame ▸ hq)
    by_cases hprevious : pid = previous
    · rw [if_pos hprevious] at hkeeps
      exact .inr ⟨frame, cpu, switched, hprevious ▸ hcurrent, hswitch, hsame, hkeeps.frame⟩
    · rw [if_neg hprevious] at hkeeps
      exact .inl hkeeps.frame

theorem start_keeps {s t : Scheduler} (h : s.Sound) {stack : KernelStack} {idleEntry : Nat}
    {memory memory' : KernelMemory}
    (hstart : (s.start stack idleEntry memory).result = .ok (t, memory'))
    (hp : s.process? pid = some p) : t.process? pid = some p := by
  obtain ⟨hbefore, hroom, idle, u, hspawn, rfl⟩ := Scheduler.start_eq_ok hstart
  have hfresh := Scheduler.process?_allocatePid h.next h.bounded
  have hboot : (s.withBoot stack).process? pid = some p := by
    rw [h.process?_withBoot, if_neg, hp]
    rintro rfl
    exact absurd (hp.symm.trans hfresh) (by simp)
  rcases (h.withBoot hbefore hroom stack).toFiled.spawn_cases hspawn with ⟨cause, hanswer, -⟩ |
    ⟨q, -, hspawned⟩
  · contradiction
  · exact hspawned.keeps_old hboot

/-- Where the trail has a new process begin, its first registers lie. -/
theorem spawn_builds {s t : Scheduler} (h : s.Filed) {request : SpawnRequest}
    {space : Option AddressSpace} {memory memory' : KernelMemory}
    (hspawn : (s.spawn request space memory).result = .ok (.ok pid, t, memory')) :
    memory'.space.ram.frameAt? (t.builtFrame pid) =
      some (Registers.initial request.entry request.arg request.flags) := by
  rcases h.spawn_eq_ok hspawn with ⟨cause, -, hanswer, -⟩ |
    ⟨made, base, frame, granted, hanswer, hspawned, hplaced, -, rfl⟩
  · contradiction
  obtain rfl := Except.ok.inj hanswer
  have hfound := (hspawned.lookup _).trans (if_pos rfl)
  have hbuilt : t.builtFrame pid = frame := builtFrame_eq hfound hplaced
  rw [hbuilt]
  exact Ram.frameAt?_saveFrame_self _ _ _

/-- How the processor is handed from one process to another in a state of a run. -/
structure HandsOver (started : Bool) (sys : System) : Prop where
  resumes : ∀ {frame cpu switched}, started = true →
    (sys.scheduler.switch frame sys.memory cpu).result = .ok switched →
      ∃ next, sys.Resumes frame switched next
  answers : ∀ {pid p frame reaped memory} (cpu : Processor), sys.scheduler.current = some pid →
    sys.scheduler.process? pid = some p →
      p.stack.contains frame Registers.kernelFrameBytes = .ok true →
        (sys.scheduler.reap sys.memory).result = .ok (reaped, memory) →
          ∃ switched, (sys.scheduler.switch frame sys.memory cpu).result = .ok switched
  /-- Only a switch away from a process changes where its registers are. -/
  keeps : ∀ {sys' pid p q}, Step sys sys' → sys.scheduler.process? pid = some p →
    sys'.scheduler.process? pid = some q →
      q.frame = p.frame ∨ ∃ frame cpu switched, sys.scheduler.current = some pid ∧
        (sys.scheduler.switch frame sys.memory cpu).result = .ok switched ∧
        sys'.scheduler = switched.scheduler ∧ q.frame = frame
  starts : ∀ {stack idleEntry t memory pid p},
    (sys.scheduler.start stack idleEntry sys.memory).result = .ok (t, memory) →
      sys.scheduler.process? pid = some p → t.process? pid = some p
  builds : ∀ {request space pid t memory},
    (sys.scheduler.spawn request space sys.memory).result = .ok (.ok pid, t, memory) →
      memory.space.ram.frameAt? (t.builtFrame pid) =
        some (Registers.initial request.entry request.arg request.flags)
  before : started = false → ∀ frame cpu,
    sys.scheduler.switch frame sys.memory cpu = pure ⟨frame, sys.scheduler, sys.memory, cpu⟩

/-- A switch resumes the next process where its registers were put last: where the last switch away
from it left them, or where its spawn built them. They lie on its own stack and on nobody else's,
and nothing but a switch away from a process moves them. -/
theorem Reached.frames_handed_over (h : Reached info base maxSize started sys) :
    sys.HandsOver started := by
  obtain ⟨hsound, hcurrent, -⟩ := h.scheduler_reached.sound
  refine ⟨?_, ?_, fun hs hp hq => hs.keeps_frame hsound hp hq, start_keeps hsound,
    spawn_builds hsound.toFiled, ?_⟩
  · intro frame cpu switched hstarted hswitch
    exact h.resumes (hcurrent.trans hstarted) hswitch
  · intro pid p frame reaped memory cpu hrunning hp hinside hreap
    exact h.exists_switch hrunning hp hinside hreap cpu
  · intro hstarted frame cpu
    have hnone : sys.scheduler.current = none := by simpa [hstarted] using hcurrent
    unfold Scheduler.switch
    rw [hnone]

/-- The boot code was interrupted at `0x83000`, and resumes there once the process that was spawned
has exited. -/
theorem frames_handed_over_after_exit :
    ∃ (sys : System) (frame : Nat) (switched : Scheduler.Switched) (next : Process),
      (sys.scheduler.switch frame sys.memory .reset).result = .ok switched ∧
        sys.Resumes frame switched next ∧ switched.resume = 0x83000 := by
  have hresume : (do
      let last ← sampleRun
      let switched ← (last.1.switch last.2.2 last.2.1 .reset).result
      return switched.resume : Except Fault Nat) = .ok 0x83000 := by decide +kernel
  obtain ⟨⟨s, memory, frame⟩, hsample, hrest⟩ := bind_eq_ok hresume
  obtain ⟨switched, hswitch, hrest⟩ := bind_eq_ok hrest
  simp only [pure_eq_ok, Except.ok.injEq] at hrest
  obtain ⟨trail, hreached⟩ := reached_sampleRun hsample
  obtain ⟨next, hresumes⟩ := hreached.frames_handed_over.resumes rfl hswitch
  exact ⟨_, frame, switched, next, hswitch, hresumes, hrest⟩

end System

end KernelCore
