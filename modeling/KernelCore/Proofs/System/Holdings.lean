import Mathlib
import KernelCore.Proofs.Scheduler.Continuity
import KernelCore.Proofs.System.Accounts

/-!
# What processes hold

A process holds its stack, unless that is borrowed, and its address space with the directory and the
private tables. Spawning takes them over, reaping gives them back, and neither fails on the way for
want of an allocation.
-/

namespace KernelCore

open Heap

/-! ## What is held -/

/-- The heap block of a stack; a borrowed stack has none. -/
def KernelStack.blocks (stack : KernelStack) : List Block :=
  if stack.owned then [⟨stack.base, rounded stack.size, true⟩] else []

def AddressSpace.blocks (space : AddressSpace) : List Block :=
  space.block :: space.directory.ownAddrs.map tableBlock

namespace Process

def blocks (process : Process) : List Block :=
  process.stack.blocks ++ process.space.toList.flatMap (·.blocks)

def tables (process : Process) : List Nat :=
  process.space.toList.flatMap (·.directory.ownAddrs)

def held (process : Process) : List Block :=
  process.stack.blocks ++ process.space.toList.map (·.block)

theorem perm_blocks (process : Process) :
    process.blocks.Perm (process.tables.map tableBlock ++ process.held) := by
  rw [blocks, tables, held]
  cases process.space with
  | none => simp
  | some space =>
      simp only [Option.toList_some, List.flatMap_cons, List.flatMap_nil, List.append_nil,
        List.map_cons, List.map_nil, AddressSpace.blocks]
      rw [List.perm_iff_count]
      intro block
      simp only [List.count_append, List.count_cons, List.count_nil]
      omega

end Process

namespace Scheduler

variable {s t : Scheduler}

def tables (s : Scheduler) : List Nat := s.processes.flatMap Process.tables

def held (s : Scheduler) : List Block := s.processes.flatMap Process.held

theorem tables_of_estates (same : t.estates = s.estates) : t.tables = s.tables := by
  have htables : ∀ u : Scheduler, u.tables =
      u.estates.flatMap fun estate => estate.2.toList.flatMap (·.directory.ownAddrs) := by
    intro u
    rw [estates, List.flatMap_map]
    rfl
  rw [htables, htables, same]

theorem held_of_estates (same : t.estates = s.estates) : t.held = s.held := by
  have hheld : ∀ u : Scheduler, u.held =
      u.estates.flatMap fun estate => estate.1.blocks ++ estate.2.toList.map (·.block) := by
    intro u
    rw [estates, List.flatMap_map]
    rfl
  rw [hheld, hheld, same]

theorem blocks_of_estates (same : t.estates = s.estates) :
    t.processes.flatMap (·.blocks) = s.processes.flatMap (·.blocks) := by
  have hblocks : ∀ u : Scheduler, u.processes.flatMap (·.blocks) =
      u.estates.flatMap fun estate => estate.1.blocks ++ estate.2.toList.flatMap (·.blocks) := by
    intro u
    rw [estates, List.flatMap_map]
    rfl
  rw [hblocks, hblocks, same]

end Scheduler

/-! ## Giving back -/

def KernelMemory.giveStack (stack : KernelStack) (memory : KernelMemory) : Traced KernelMemory :=
  if stack.owned then memory.free stack.base else pure memory

def KernelMemory.giveSpace (space : Option AddressSpace) (memory : KernelMemory) :
    Traced KernelMemory :=
  match space with
  | some made => memory.destroySpace made
  | none => pure memory

theorem Scheduler.releaseProcess_eq (process : Process) (memory : KernelMemory) :
    releaseProcess process memory =
      memory.giveStack process.stack >>= fun freed => freed.giveSpace process.space >>=
        fun given => Traced.note (.reaped process.pid.number) >>= fun _ => pure given := by
  unfold releaseProcess KernelMemory.giveStack
  cases process.stack.owned <;> cases process.space <;> rfl

theorem Scheduler.refuseSpawn_eq (entry : Nat) (space : Option AddressSpace) (cause : SpawnError)
    (memory : KernelMemory) :
    refuseSpawn entry space cause memory = memory.giveSpace space >>=
      fun given => Traced.note (.spawnFailed entry cause) >>= fun _ => pure given := by
  unfold refuseSpawn
  cases space <;> rfl

section Giving

variable {lent : PageDirectory → Prop} {holds : List Nat → List Block → KernelMemory → Prop}
  {kernel : PageDirectory} {tables : List Nat} {held : List Block} {memory memory' : KernelMemory}
  {space : Option AddressSpace} {process : Process} {ended : List Process}

theorem Account.giveSpace (account : Account lent holds)
    (h : holds (space.toList.flatMap (·.directory.ownAddrs) ++ tables)
      (space.toList.map (·.block) ++ held) memory)
    (hgive : (memory.giveSpace space).result = .ok memory') : holds tables held memory' := by
  cases space with
  | none =>
      obtain rfl := Except.ok.inj hgive
      exact h
  | some made =>
      refine account.destroySpace ?_ hgive
      simpa using h

theorem Account.giveStack (account : Account lent holds) {stack : KernelStack}
    (h : holds tables (stack.blocks ++ held) memory)
    (hgive : (memory.giveStack stack).result = .ok memory') : holds tables held memory' := by
  unfold KernelStack.blocks at h
  unfold KernelMemory.giveStack at hgive
  by_cases howned : stack.owned = true
  · rw [if_pos howned] at h hgive
    exact account.free h hgive
  · rw [if_neg howned] at h hgive
    obtain rfl := Except.ok.inj hgive
    exact h

theorem Account.releaseProcess (account : Account lent holds)
    (h : holds (process.tables ++ tables) (process.held ++ held) memory)
    (hrelease : (Scheduler.releaseProcess process memory).result = .ok memory') :
    holds tables held memory' := by
  rw [Scheduler.releaseProcess_eq, Traced.result_bind] at hrelease
  obtain ⟨freed, hfree, hrest⟩ := bind_eq_ok hrelease
  rw [Traced.result_bind] at hrest
  obtain ⟨given, hgive, hnote⟩ := bind_eq_ok hrest
  obtain rfl := Except.ok.inj hnote
  rw [Process.held, List.append_assoc] at h
  exact account.giveSpace (account.giveStack h hfree) hgive

theorem Account.releaseAll (account : Account lent holds)
    (h : holds (ended.flatMap Process.tables ++ tables) (ended.flatMap Process.held ++ held) memory)
    (hfold : (ended.foldlM (fun memory process => Scheduler.releaseProcess process memory)
      memory).result = .ok memory') : holds tables held memory' := by
  induction ended generalizing memory with
  | nil =>
      obtain rfl := Except.ok.inj hfold
      exact h
  | cons process rest ih =>
      rw [List.foldlM_cons, Traced.result_bind] at hfold
      obtain ⟨released, hrelease, hrest⟩ := bind_eq_ok hfold
      simp only [List.flatMap_cons, List.append_assoc] at h
      exact ih (account.releaseProcess h hrelease) hrest

namespace KernelMemory

theorem Balances.exists_giveSpace
    (h : memory.Balances kernel (space.toList.flatMap (·.directory.ownAddrs) ++ tables)
      (space.toList.map (·.block) ++ held)) :
    ∃ memory', (memory.giveSpace space).result = .ok memory' := by
  cases space with
  | none => exact ⟨memory, rfl⟩
  | some made =>
      have hmade : memory.Balances kernel (made.directory.ownAddrs ++ tables)
          (made.block :: held) := by simpa using h
      obtain ⟨memory', hdestroy, -⟩ := hmade.destroySpace
      exact ⟨memory', hdestroy⟩

theorem Balances.exists_giveStack {stack : KernelStack}
    (h : memory.Balances kernel tables (stack.blocks ++ held)) :
    ∃ memory', (memory.giveStack stack).result = .ok memory' := by
  unfold KernelStack.blocks at h
  unfold giveStack
  by_cases howned : stack.owned = true
  · rw [if_pos howned] at h
    obtain ⟨memory', hfree, -⟩ := h.free
    exact ⟨memory', by rw [if_pos howned]; exact hfree⟩
  · exact ⟨memory, by rw [if_neg howned]; rfl⟩

/-- What a process holds can be given back: its stack if it is owned, and its address space. -/
theorem Balances.exists_releaseProcess
    (h : memory.Balances kernel (process.tables ++ tables) (process.held ++ held)) :
    ∃ memory', (Scheduler.releaseProcess process memory).result = .ok memory' := by
  rw [Process.held, List.append_assoc] at h
  obtain ⟨freed, hfree⟩ := h.exists_giveStack
  have hfreed := (Balances.account kernel).giveStack h hfree
  obtain ⟨memory', hgive⟩ := hfreed.exists_giveSpace
  refine ⟨memory', ?_⟩
  rw [Scheduler.releaseProcess_eq, Traced.result_bind, hfree, ok_bind, Traced.result_bind, hgive]
  rfl

theorem Balances.exists_releaseAll
    (h : memory.Balances kernel (ended.flatMap Process.tables ++ tables)
      (ended.flatMap Process.held ++ held)) :
    ∃ memory', (ended.foldlM (fun memory process => Scheduler.releaseProcess process memory)
      memory).result = .ok memory' := by
  induction ended generalizing memory with
  | nil => exact ⟨memory, rfl⟩
  | cons process rest ih =>
      simp only [List.flatMap_cons, List.append_assoc] at h
      obtain ⟨released, hrelease⟩ := h.exists_releaseProcess
      obtain ⟨memory', hfold⟩ := ih ((Balances.account kernel).releaseProcess h hrelease)
      refine ⟨memory', ?_⟩
      rw [List.foldlM_cons, Traced.result_bind, hrelease]
      exact hfold

end KernelMemory

end Giving

/-- What the processes hold is held by those who stay and those who have ended. -/
theorem Scheduler.perm_withoutEnded {β : Type} (s : Scheduler) (f : Process → List β) :
    (s.processes.flatMap f).Perm ((s.processes.filter s.reapable).flatMap f ++
      s.withoutEnded.processes.flatMap f) := by
  rw [← List.flatMap_append]
  exact (List.filter_append_perm s.reapable s.processes).symm.flatMap_right f

section Reaping

variable {lent : PageDirectory → Prop} {holds : List Nat → List Block → KernelMemory → Prop}
  {kernel : PageDirectory} {tables : List Nat} {held : List Block} {memory memory' : KernelMemory}
  {s t : Scheduler}

theorem Account.reap (account : Account lent holds)
    (h : holds (s.tables ++ tables) (s.held ++ held) memory)
    (hreap : (s.reap memory).result = .ok (t, memory')) :
    holds (t.tables ++ tables) (t.held ++ held) memory' := by
  obtain rfl := Scheduler.reap_eq_ok hreap
  have hsplit := account.perm h ((s.perm_withoutEnded Process.tables).append_right tables)
    ((s.perm_withoutEnded Process.held).append_right held)
  rw [List.append_assoc, List.append_assoc] at hsplit
  unfold Scheduler.reap at hreap
  rw [Traced.result_bind] at hreap
  obtain ⟨released, hfold, hrest⟩ := bind_eq_ok hreap
  obtain ⟨-, rfl⟩ := Prod.mk.inj (Except.ok.inj hrest)
  exact account.releaseAll hsplit hfold

/-- Reaping comes back when all that is held is allocated, and the kernel reaches it. -/
theorem KernelMemory.Balances.exists_reap
    (h : memory.Balances kernel (s.tables ++ tables) (s.held ++ held)) :
    ∃ memory', (s.reap memory).result = .ok (s.withoutEnded, memory') := by
  have hsplit := h.perm ((s.perm_withoutEnded Process.tables).append_right tables)
    ((s.perm_withoutEnded Process.held).append_right held)
  rw [List.append_assoc, List.append_assoc] at hsplit
  obtain ⟨memory', hfold⟩ := hsplit.exists_releaseAll
  refine ⟨memory', ?_⟩
  unfold Scheduler.reap
  rw [Traced.result_bind, hfold]
  rfl

end Reaping

/-! ## Spawning -/

section Spawn

variable {lent : PageDirectory → Prop} {holds : List Nat → List Block → KernelMemory → Prop}
  {tables : List Nat} {held : List Block} {memory memory' : KernelMemory} {s t : Scheduler}

theorem Scheduler.Spawned.tables_eq {request : SpawnRequest} {p : Process}
    (hs : Scheduler.Spawned request s p t) : t.tables = s.tables ++ p.tables := by
  rw [Scheduler.tables, hs.left]
  simp [Scheduler.tables]

theorem Scheduler.Spawned.held_eq {request : SpawnRequest} {p : Process}
    (hs : Scheduler.Spawned request s p t) : t.held = s.held ++ p.held := by
  rw [Scheduler.held, hs.left]
  simp [Scheduler.held]

/-- A spawn that comes back has passed the address space on to the new process, together with a
stack, or has given it back. -/
theorem Account.spawn (account : Account lent holds) {request : SpawnRequest}
    {space : Option AddressSpace}
    (h : holds (space.toList.flatMap (·.directory.ownAddrs) ++ (s.tables ++ tables))
      (space.toList.map (·.block) ++ (s.held ++ held)) memory)
    (filed : s.Filed) {answer : Except SpawnError Pid}
    (hspawn : (s.spawn request space memory).result = .ok (answer, t, memory')) :
    holds (t.tables ++ tables) (t.held ++ held) memory' := by
  rcases filed.spawn_eq_ok hspawn with ⟨cause, refused, -, -, rfl, hrefused, hgive⟩ |
    ⟨pid, base, frame, granted, -, hs, -, halloc, rfl⟩
  · have hbefore : holds (space.toList.flatMap (·.directory.ownAddrs) ++ (t.tables ++ tables))
        (space.toList.map (·.block) ++ (t.held ++ held)) refused := by
      rcases hrefused with rfl | ⟨why, halloc⟩
      · exact h
      · rcases account.tryAlloc h halloc with ⟨-, -, hholds⟩ | ⟨addr, hanswer, -⟩
        · exact hholds
        · contradiction
    rw [Scheduler.refuseSpawn_eq, Traced.result_bind] at hgive
    obtain ⟨given, hgiven, hnote⟩ := bind_eq_ok hgive
    obtain rfl := Except.ok.inj hnote
    exact account.giveSpace hbefore hgiven
  · rcases account.tryAlloc h halloc with ⟨cause, hanswer, -⟩ | ⟨addr, hanswer, hholds⟩
    · contradiction
    obtain rfl := Except.ok.inj hanswer
    refine account.perm (account.saveFrame hholds _ _) ?_ ?_
    · rw [hs.tables_eq, List.append_assoc]
      exact List.perm_append_comm_assoc _ _ _
    · rw [hs.held_eq, List.append_assoc]
      refine List.Perm.trans ?_ (List.perm_append_comm_assoc _ _ _)
      rfl

end Spawn

end KernelCore
