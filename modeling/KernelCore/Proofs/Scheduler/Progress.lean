import Mathlib
import KernelCore.Proofs.Scheduler.Continuity

/-!
# Operations that come back

What stands between an operation and its answer is room: on the stack for a frame, in the table
for a process, and in the heap for a stack. With that room, spawning, starting and switching
come back from every sound scheduler.
-/

namespace KernelCore

/-! ## Frames on a stack -/

theorem Word.sub_eq_ok {a b c : Nat} (h : Word.sub a b = .ok c) : c + b = a := by
  unfold Word.sub at h
  split at h
  · obtain rfl := Except.ok.inj h
    omega
  · contradiction

namespace KernelStack

variable {stack : KernelStack}

theorem top_eq (fits : stack.base + stack.size < wordLimit) :
    stack.top = .ok ((stack.base + stack.size) / alignment * alignment) := by
  have hdown := Word.alignDown_shift (stack.base + stack.size) 4
  simp only [Nat.shiftLeft_eq, Nat.shiftRight_eq_div_pow, Nat.reducePow, Nat.one_mul] at hdown
  simp only [top, Word.add, if_pos fits, ok_bind]
  exact hdown

theorem contains_eq (fits : stack.base + stack.size < wordLimit) {addr length : Nat}
    (above : stack.base ≤ addr) (below : addr + length ≤ stack.base + stack.size) :
    stack.contains addr length = .ok true := by
  have hword : addr + length < wordLimit := Nat.lt_of_le_of_lt below fits
  simp only [contains, Word.add?, Word.add, if_pos above, if_pos hword, if_pos fits, ok_bind,
    pure_eq_ok, below, decide_true]

theorem contains_eq_true {addr length : Nat} (h : stack.contains addr length = .ok true) :
    stack.base ≤ addr ∧ addr + length ≤ stack.base + stack.size ∧
      stack.base + stack.size < wordLimit := by
  unfold contains at h
  split at h
  · next above =>
      unfold Word.add? at h
      split at h
      · next stop hstop =>
          obtain ⟨top, htop, hbelow⟩ := bind_eq_ok h
          rw [Option.ite_none_right_eq_some] at hstop
          unfold Word.add at htop
          split at htop
          · next fits =>
              obtain rfl := Except.ok.inj htop
              have hinside : stop ≤ stack.base + stack.size :=
                of_decide_eq_true (Except.ok.inj hbelow)
              have hlast := Option.some.inj hstop.2
              exact ⟨above, hlast ▸ hinside, fits⟩
          · contradiction
      · simp at h
  · simp at h

structure Placed (stack : KernelStack) (flags : ProcessFlags) (frame : Nat) : Prop where
  above : stack.base ≤ frame
  below : frame + Registers.userFrameBytes ≤ stack.base + stack.size
  fits : stack.base + stack.size < wordLimit
  /-- A ring 3 frame ends at the aligned top. -/
  user : flags.user = true →
    frame + Registers.userFrameBytes = (stack.base + stack.size) / alignment * alignment
  /-- A ring 0 entry point finds the alignment of a function that was just called. -/
  kernel : flags.user = false → alignment ∣ frame + Registers.kernelFrameBytes + wordBytes

theorem placed_of_ok {flags : ProcessFlags} {frame : Nat}
    (h : stack.placeInitialFrame flags = .ok frame) : stack.Placed flags frame := by
  unfold placeInitialFrame at h
  obtain ⟨first, hfirst, h⟩ := bind_eq_ok h
  obtain ⟨inside, hinside, h⟩ := bind_eq_ok h
  cases inside with
  | false => simp at h
  | true =>
      obtain rfl := Except.ok.inj h
      obtain ⟨habove, hbelow, hfits⟩ := contains_eq_true hinside
      simp only [initialFrame, top_eq hfits, ok_bind] at hfirst
      refine ⟨habove, hbelow, hfits, fun huser => ?_, fun hkernel => ?_⟩
      · rw [huser, if_pos rfl] at hfirst
        exact Word.sub_eq_ok hfirst
      · rw [hkernel, if_neg Bool.false_ne_true] at hfirst
        obtain ⟨aligned, haligned, hfirst⟩ := bind_eq_ok hfirst
        obtain ⟨entry, hentry, hfirst⟩ := bind_eq_ok hfirst
        have hdvd : alignment ∣ (stack.base + stack.size) / alignment * alignment :=
          Nat.dvd_mul_left _ _
        rw [Word.sub_eq_ok hfirst, Word.sub_eq_ok hentry]
        rw [← Word.sub_eq_ok haligned] at hdvd
        exact (Nat.dvd_add_iff_left (Nat.dvd_refl _)).mpr hdvd

/-- The first frame of a process has room for a frame that an interrupt leaves in ring 0. -/
theorem contains_of_placed {flags : ProcessFlags} {frame : Nat}
    (h : stack.placeInitialFrame flags = .ok frame) :
    stack.contains frame Registers.kernelFrameBytes = .ok true := by
  have hplaced := placed_of_ok h
  have hbelow := hplaced.below
  have hsmaller : Registers.kernelFrameBytes ≤ Registers.userFrameBytes := by decide
  exact contains_eq hplaced.fits hplaced.above (by omega)

theorem exists_initialFrame (fits : stack.base + stack.size < wordLimit)
    (room : minStackSize ≤ stack.size) (flags : ProcessFlags) :
    ∃ frame, stack.initialFrame flags = .ok frame ∧ stack.base ≤ frame ∧
      frame + Registers.userFrameBytes ≤ stack.base + stack.size := by
  have hbelow := Nat.div_mul_le_self (stack.base + stack.size) alignment
  have habove := Nat.lt_div_mul_add (a := stack.base + stack.size) (b := alignment) (by decide)
  simp only [initialFrame, top_eq fits, ok_bind]
  generalize (stack.base + stack.size) / alignment * alignment = top at hbelow habove ⊢
  unfold minStackSize at room
  unfold Registers.userFrameBytes Registers.kernelFrameBytes wordBytes
  unfold alignment at habove ⊢
  cases flags.user with
  | true =>
      refine ⟨top - 14 * 8, ?_, by omega, by omega⟩
      rw [if_pos rfl, Word.sub, if_pos (by omega)]
  | false =>
      refine ⟨top - 16 - 8 - 12 * 8, ?_, by omega, by omega⟩
      simp only [Bool.false_eq_true, if_false, Word.sub, ok_bind, if_pos (show 16 ≤ top by omega),
        if_pos (show 8 ≤ top - 16 by omega), if_pos (show 12 * 8 ≤ top - 16 - 8 by omega)]

theorem exists_placeInitialFrame (fits : stack.base + stack.size < wordLimit)
    (room : minStackSize ≤ stack.size) (flags : ProcessFlags) :
    ∃ frame, stack.placeInitialFrame flags = .ok frame := by
  obtain ⟨frame, hframe, hlow, hhigh⟩ := exists_initialFrame fits room flags
  refine ⟨frame, ?_⟩
  simp only [placeInitialFrame, hframe, ok_bind, contains_eq fits hlow hhigh, if_true, pure_eq_ok]

end KernelStack

namespace Scheduler

variable {s : Scheduler}

/-! ## Spawning and starting -/

theorem exists_settle (room : s.processes.length < processCapacity) {request : SpawnRequest}
    {base : Nat} (fits : base + request.stackSize < wordLimit)
    (size : minStackSize ≤ request.stackSize) (space : Option AddressSpace) (pid : Pid)
    (memory : KernelMemory) :
    ∃ t memory', (s.settle request space pid base memory).result = .ok (t, memory') := by
  obtain ⟨frame, hframe⟩ : ∃ frame, (⟨base, request.stackSize, true⟩ :
      KernelStack).placeInitialFrame request.flags = .ok frame :=
    KernelStack.exists_placeInitialFrame fits size request.flags
  have hfree : s.tableFull = false := by simpa [tableFull] using room
  simp only [settle, Traced.result_bind, Traced.result_lift, hframe, ok_bind, enter, hfree,
    Bool.false_eq_true, if_false, Traced.result_note, Traced.result_pure]
  exact ⟨_, _, rfl⟩

theorem Filed.exists_spawn (h : s.Filed) (room : s.processes.length < processCapacity)
    (request : SpawnRequest) (size : minStackSize ≤ request.stackSize)
    (space : Option AddressSpace) {memory memory' : KernelMemory} {base : Nat}
    (granted : (memory.tryAlloc request.stackSize false).result = .ok (.ok base, memory'))
    (fits : base + request.stackSize < wordLimit) :
    ∃ pid t memory'', (s.spawn request space memory).result = .ok (.ok pid, t, memory'') := by
  have hfree : s.tableFull = false := by simpa [tableFull] using room
  have hpush : s.allocatePid.2.push? request.priority s.allocatePid.1 =
      some (s.allocatePid.2.setQueue request.priority
        (s.queue request.priority ++ [s.allocatePid.1])) :=
    push?_eq_some (Nat.lt_of_le_of_lt (h.queue_length_le request.priority) room)
  obtain ⟨t, memory'', hsettle⟩ := exists_settle (s := s.allocatePid.2.setQueue request.priority
    (s.queue request.priority ++ [s.allocatePid.1])) room fits size space s.allocatePid.1 memory'
  refine ⟨s.allocatePid.1, t, memory'', ?_⟩
  simp only [spawn, hfree, Bool.false_eq_true, if_false, if_neg (Nat.not_lt.mpr size),
    Traced.result_bind, granted, ok_bind, hpush, hsettle, Traced.result_pure]

theorem Sound.exists_start (h : s.Sound) (before : s.current = none)
    (room : s.processes.length + 2 ≤ processCapacity) (stack : KernelStack) (idleEntry : Nat)
    {memory memory' : KernelMemory} {base : Nat}
    (granted : (memory.tryAlloc idleStackSize false).result = .ok (.ok base, memory'))
    (fits : base + idleStackSize < wordLimit) :
    ∃ t memory'', (s.start stack idleEntry memory).result = .ok (t, memory'') := by
  have hfree : s.allocatePid.2.tableFull = false := by
    have hlength : s.allocatePid.2.processes.length + 2 ≤ processCapacity := room
    simp only [tableFull, decide_eq_false_iff_not]
    omega
  have hadopted := h.adopted (p := ⟨s.allocatePid.1, 0, .normal, .running, ⟨true, false⟩, stack,
    0, none, 0⟩) before (process?_allocatePid h.next h.bounded) (s.freshFrom_lt _ h.next)
    (by omega) rfl
  obtain ⟨idle, t, memory'', hspawn⟩ := hadopted.toFiled.exists_spawn
    (by rw [List.length_append, List.length_singleton]; omega)
    ⟨idleEntry, .min, 0, idleStackSize, ⟨true, false⟩⟩
    (show minStackSize ≤ idleStackSize by decide) none granted fits
  refine ⟨{ t with idle := some idle }, memory'', ?_⟩
  simp only [start, before, Option.isSome_none, Bool.false_eq_true, if_false, Traced.result_bind,
    Traced.result_lift, enter, hfree, ok_bind]
  exact (congrArg (· >>= _) hspawn).trans rfl

/-! ## Switching -/

section Switch

variable {t : Scheduler} {pid : Pid} {p : Process} {frame : Nat}

theorem exists_suspend (hp : s.process? pid = some p)
    (inside : p.stack.contains frame Registers.kernelFrameBytes = .ok true) :
    ∃ t, s.suspend pid frame = .ok t := by
  simp only [suspend, hp, inside, ok_bind, Bool.not_true, Bool.false_eq_true, if_false, pure_eq_ok]
  split
  · exact ⟨_, rfl⟩
  · exact ⟨_, rfl⟩

theorem exists_install (fits : p.stack.base + p.stack.size < wordLimit)
    (kernelDirectory active : Nat) (cpu : Processor) :
    ∃ cpu', install p kernelDirectory active cpu = .ok cpu' := by
  unfold install
  cases p.flags.user with
  | true =>
      simp only [KernelStack.top_eq fits, if_true, ok_bind, pure_eq_ok]
      exact ⟨_, rfl⟩
  | false => exact ⟨_, rfl⟩

/-- A switch away from a process whose frame lies on its stack comes back, once what has ended
is reaped. -/
theorem Sound.exists_switch (h : s.Sound) (idle : s.idle.isSome) (current : s.current = some pid)
    (hp : s.process? pid = some p)
    (inside : p.stack.contains frame Registers.kernelFrameBytes = .ok true)
    (fits : ∀ q ∈ s.processes, q.state = .ready → q.stack.base + q.stack.size < wordLimit)
    {reaped : Scheduler} {memory memory' : KernelMemory}
    (hreap : (s.reap memory).result = .ok (reaped, memory')) (cpu : Processor) :
    ∃ switched, (s.switch frame memory cpu).result = .ok switched := by
  obtain rfl := reap_eq_ok hreap
  have hfound : s.withoutEnded.process? pid = some p :=
    process?_withoutEnded_of_live h.distinct hp (.inr (.inr current))
  obtain ⟨suspended, hsuspend⟩ := exists_suspend hfound inside
  obtain ⟨hparked, hidle⟩ := h.reaped.suspended current hsuspend
  obtain ⟨next, t, hdispatch⟩ := hparked.exists_dispatch (by rw [hidle, idle_withoutEnded, idle])
  have hhanded := h.handed current hsuspend hdispatch
  have hstack : next.stack.base + next.stack.size < wordLimit := by
    rcases hhanded.waiting with hsame | ⟨hnext, hready⟩
    · have hkeeps := hhanded.keeps pid p _ hp (hsame ▸ hhanded.found)
      rw [if_pos rfl] at hkeeps
      have hstack : next.stack = p.stack := hkeeps.stack
      exact hstack ▸ (KernelStack.contains_eq_true inside).2.2
    · exact fits next (process?_mem hnext).1 hready
  obtain ⟨cpu', hinstall⟩ := exists_install hstack memory'.directoryPhys
    (s.withoutEnded.directoryOf pid memory'.directoryPhys) cpu
  simp only [switch, current, Traced.result_bind, Traced.result_lift, hreap, hsuspend, hdispatch,
    hinstall, ok_bind]
  split
  · exact ⟨_, rfl⟩
  · exact ⟨_, rfl⟩

end Switch

end Scheduler

end KernelCore
