import Mathlib
import KernelCore.Proofs.Memory.Privacy
import KernelCore.Proofs.System.Ownership

/-!
# Memory that nobody shares

Over the runs of scheduler and memory, from a boot that may have asked for other heaps in vain, the
bytes of live heap blocks and the bytes under private tables of live address spaces are in use. All
bytes of live blocks are mapped, and no two bytes in use have one physical address. Neither a
directory nor a table is ever refused for want of a kernel mapping.
-/

namespace KernelCore

open Heap

/-! ## Bytes in use -/

/-- A byte that has an owner: one of a heap block, or one of an address space. -/
inductive Cell where
  | heap (block : Block) (virt : Nat)
  | own (made : AddressSpace) (virt : Nat)

namespace Cell

def phys (memory : KernelMemory) : Cell → Option Nat
  | heap _ virt => memory.translate virt
  | own made virt => memory.translateIn made virt

inductive InUse (memory : KernelMemory) (spaces : List AddressSpace) : Cell → Prop
  | heap {block : Block} {virt : Nat} :
      block ∈ memory.live → block.addr ≤ virt → virt < block.stop →
      InUse memory spaces (.heap block virt)
  | own {made : AddressSpace} {virt : Nat} :
      made ∈ spaces → virt < addressSpan → made.directory.Owns virt →
      InUse memory spaces (.own made virt)

end Cell

namespace KernelMemory

/-- All that is in use by the heap and by the address spaces `spaces` is there for one user. -/
structure Secluded (memory : KernelMemory) (spaces : List AddressSpace) : Prop where
  /-- Every byte of a live block has a physical address. -/
  backed : ∀ block ∈ memory.live, ∀ virt, block.addr ≤ virt → virt < block.stop →
    ∃ phys, memory.translate virt = some phys
  /-- Bytes in use at one physical address are one byte. -/
  alone : ∀ {a b : Cell} {phys : Nat}, a.InUse memory spaces → b.InUse memory spaces →
    a.phys memory = some phys → b.phys memory = some phys → a = b
  /-- The address spaces are told apart by where their directories are. -/
  distinct : (spaces.map (·.addr)).Nodup
  /-- No address space is refused because its directory is not mapped. -/
  created : ∀ memory', memory.createSpace.result ≠ .ok (.error (.mapping .notMapped), memory')
  /-- No table is refused because it is not mapped, neither now nor while pages are mapped. -/
  granted : ∀ heap, memory.heap = some heap → ∀ rest,
    (Heap.tables.grant (heap, memory.space)).result ≠ .ok (.error .notMapped, rest)
  mapped : ∀ made ∈ spaces, ∀ start stop flags, ∀ event ∈
    (memory.mapRange made start stop flags).events, ¬event.Unmapped

variable {kernel : PageDirectory} {spaces : List AddressSpace} {rest : List Block}
  {memory : KernelMemory}

theorem eq_of_apart {blocks : List Block}
    (apart : blocks.Pairwise fun a b => a.stop ≤ b.addr ∨ b.stop ≤ a.addr) {a b : Block}
    (ha : a ∈ blocks) (hb : b ∈ blocks) {virt : Nat} (low_a : a.addr ≤ virt) (high_a : virt < a.stop)
    (low_b : b.addr ≤ virt) (high_b : virt < b.stop) : a = b := by
  have : Std.Symm fun a b : Block => a.stop ≤ b.addr ∨ b.stop ≤ a.addr := ⟨fun _ _ => Or.symm⟩
  by_contra hdiffers
  rcases apart.forall ha hb hdiffers with h | h <;> omega

theorem Balances.alone
    (h : memory.Balances kernel (spaces.flatMap (·.directory.ownAddrs))
      (spaces.map (·.block) ++ rest))
    {a b : Cell} {phys : Nat} (ha : a.InUse memory spaces) (hb : b.InUse memory spaces)
    (phys_a : a.phys memory = some phys) (phys_b : b.phys memory = some phys) : a = b := by
  obtain ⟨-, hapart⟩ := h.live_apart
  obtain ⟨heap, hheap, hledger⟩ := h
  have hlive : memory.live = usedBlocks heap.blocks := by
    rw [live, hheap]
    rfl
  cases ha with
  | heap hm low high =>
      obtain ⟨hstart, hstop⟩ := hledger.bounds (hlive ▸ hm) low high
      cases hb with
      | heap hm' low' high' =>
          obtain ⟨hstart', hstop'⟩ := hledger.bounds (hlive ▸ hm') low' high'
          obtain rfl := hledger.heap_byte_unique hstart hstop hstart' hstop' phys_a phys_b
          obtain rfl := eq_of_apart hapart hm hm' low high low' high'
          rfl
      | own hm' _ hown => exact absurd phys_a (hledger.own_apart hm' hown phys_b _)
  | own hm below hown =>
      cases hb with
      | heap => exact absurd phys_b (hledger.own_apart hm hown phys_a _)
      | own hm' below' hown' =>
          obtain ⟨rfl, rfl⟩ :=
            hledger.own_byte_unique hm hm' below below' hown hown' phys_a phys_b
          rfl

theorem Balances.front
    (h : memory.Balances kernel (spaces.flatMap (·.directory.ownAddrs)) rest) {made : AddressSpace}
    (hm : made ∈ spaces) :
    memory.Balances kernel
      (made.directory.ownAddrs ++ (spaces.erase made).flatMap (·.directory.ownAddrs)) rest := by
  refine h.perm ?_ (.refl _)
  simpa using (List.perm_cons_erase hm).flatMap_right (·.directory.ownAddrs)

theorem Balances.secluded
    (h : memory.Balances kernel (spaces.flatMap (·.directory.ownAddrs))
      (spaces.map (·.block) ++ rest)) : memory.Secluded spaces where
  backed := by
    obtain ⟨heap, hheap, hledger⟩ := h
    intro block hm virt low high
    rw [live, hheap] at hm
    obtain ⟨hstart, hstop⟩ := hledger.bounds hm low high
    exact hledger.translate_byte hstart hstop
  alone := h.alone
  distinct := by
    obtain ⟨heap, -, hledger⟩ := h
    exact hledger.nodup_addrs
  created := by
    intro memory' hcreate
    rcases h.createSpace_refused hcreate with hcause | hcause <;> simp at hcause
  granted := by
    rintro heap hheap ⟨heap', space'⟩ hgrant
    obtain ⟨same, hsame, hledger⟩ := h
    obtain rfl := Option.some.inj (hheap.symm.trans hsame)
    rcases (Ledger.custody kernel).grantTable hledger hgrant with ⟨hanswer, -⟩ | ⟨_, hanswer, -⟩
    · simp at hanswer
    · simp at hanswer
  mapped := fun _ hm start stop flags => (h.front hm).mapRange_notes start stop flags

theorem secluded_of_heapless (heapless : memory.heap = none) : memory.Secluded [] where
  backed := by simp [live, heapless]
  alone := by
    intro a b phys ha
    cases ha with
    | heap hm => simp [live, heapless] at hm
    | own hm => simp at hm
  distinct := List.nodup_nil
  created := by
    intro memory' hcreate
    rcases createSpace_eq_ok hcreate with ⟨cause, halloc, hanswer⟩ | ⟨addr, granted, halloc, -⟩
    · simp only [tryAlloc, heapless, Traced.result_pure, Except.ok.injEq, Prod.mk.injEq,
        Except.error.injEq] at halloc hanswer
      rw [← halloc.1] at hanswer
      simp at hanswer
    · simp [tryAlloc, heapless] at halloc
  granted := by simp [heapless]
  mapped := by simp

/-- Kernel memory whose heap is not in use yet: there are identity mappings, and heaps that were
asked for in vain. -/
inductive Preparing (info : BootInfo) : KernelMemory → Prop
  | boot {memory : KernelMemory} : (boot info).result = .ok memory → Preparing info memory
  | identityMapped {memory memory' : KernelMemory} {start stop : Nat} :
      Preparing info memory → (memory.identityMap start stop).result = .ok memory' →
      Preparing info memory'
  | heapRefused {memory memory' : KernelMemory} {start stop maxSize : Nat} {flags : HeapFlags}
      {cause : HeapError} :
      Preparing info memory →
      (memory.createHeap start stop maxSize flags).result = .ok (.error cause, memory') →
      Preparing info memory'

theorem Preparing.booted {info : BootInfo} (h : Preparing info memory) : Booted info memory := by
  induction h with
  | boot hboot => exact booted_boot hboot
  | identityMapped _ hmap ih => exact ih.identityMap hmap
  | heapRefused _ hcreate ih => exact ih.createHeap_refused hcreate

theorem Booting.preparing {info : BootInfo} (h : Booting info memory) : Preparing info memory := by
  induction h with
  | boot hboot => exact .boot hboot
  | identityMap _ hmap ih => exact .identityMapped ih hmap

end KernelMemory

namespace System

/-- All address spaces in use: the processes' and the callers'. -/
def liveSpaces (sys : System) : List AddressSpace :=
  sys.scheduler.processes.flatMap (·.space.toList) ++ sys.spaces

/-- The states of a machine from its boot on. The heap is put to use once, over `maxSize` bytes from
`base` on, and calls begin with that. -/
inductive Attained (info : BootInfo) (base maxSize : Nat) : Bool → System → Prop
  | prepared {memory : KernelMemory} :
      KernelMemory.Preparing info memory →
      Attained info base maxSize false ⟨.empty, memory, [], [], []⟩
  | enabled {memory created memory' : KernelMemory} {stop : Nat} {flags : HeapFlags} {heap : Heap} :
      KernelMemory.Preparing info memory →
      (memory.createHeap base stop maxSize flags).result = .ok (.ok heap, created) →
      (created.enableHeap heap).result = .ok memory' →
      Attained info base maxSize false ⟨.empty, memory', [], [], []⟩
  | step {started : Bool} {sys sys' : System} :
      Attained info base maxSize started sys → sys.memory.heap.isSome → Step sys sys' →
      Attained info base maxSize started sys'
  | started {sys : System} {stack : KernelStack} {idleEntry : Nat} {t : Scheduler}
      {memory : KernelMemory} :
      Attained info base maxSize false sys → sys.memory.heap.isSome → stack.owned = false →
      (sys.scheduler.start stack idleEntry sys.memory).result = .ok (t, memory) →
      Attained info base maxSize true ⟨t, memory, sys.spaces, sys.blocks,
        (t.idle.map fun pid => .built pid (t.builtFrame pid)).toList ++ sys.trail⟩

variable {info : BootInfo} {base maxSize : Nat} {started : Bool} {sys : System}
  {kernel : PageDirectory}

/-- Until its heap is in use a machine has nothing to hold, and from then on it accounts for all. -/
theorem Attained.exact (h : Attained info base maxSize started sys)
    (apart : base + maxSize ≤ info.kernelEnd ∨ info.placementLimit ≤ base)
    (narrow : maxSize ≤ addressSpan) :
    (sys.memory.heap = none ∧ sys.liveSpaces = []) ∨ ∃ kernel, Exact kernel sys := by
  induction h with
  | prepared hprepared => exact .inl ⟨hprepared.booted.heapless, rfl⟩
  | enabled hprepared hcreate henable =>
      exact .inr ⟨_, .blank (hprepared.booted.balances apart narrow hcreate henable)⟩
  | step _ henabled hs ih =>
      rcases ih with ⟨hnone, -⟩ | ⟨kernel, hexact⟩
      · simp [hnone] at henabled
      · exact .inr ⟨kernel, hexact.step (KernelMemory.Balances.account kernel) hs⟩
  | started _ henabled borrowed hstart ih =>
      rcases ih with ⟨hnone, -⟩ | ⟨kernel, hexact⟩
      · simp [hnone] at henabled
      · have hstarted := hexact.start (KernelMemory.Balances.account kernel) borrowed hstart
        exact .inr ⟨kernel, hstarted.sound, hstarted.kept, hstarted.lends, hstarted.boot⟩

theorem Reached.heap_isSome (h : Reached info base maxSize started sys) :
    sys.memory.heap.isSome := by
  obtain ⟨heap, hheap, -⟩ := h.reserves.kept
  rw [hheap]
  rfl

/-- Runs that ask for no heap in vain are runs of the machine. -/
theorem Reached.attained (h : Reached info base maxSize started sys) :
    Attained info base maxSize started sys := by
  induction h with
  | booted henabled =>
      obtain ⟨hbooting, hcreate, henable⟩ := henabled
      exact .enabled hbooting.preparing hcreate henable
  | step hreached hs ih => exact .step ih hreached.heap_isSome hs
  | started hreached borrowed hstart ih => exact .started ih hreached.heap_isSome borrowed hstart

theorem Exact.balances (h : Exact kernel sys) :
    sys.memory.Balances kernel (sys.liveSpaces.flatMap (·.directory.ownAddrs))
      (sys.liveSpaces.map (·.block) ++
        (sys.scheduler.processes.flatMap (·.stack.blocks) ++ sys.blocks)) := by
  refine h.kept.perm (List.Perm.of_eq ?_) ?_
  · rw [tables, liveSpaces, Scheduler.tables, List.flatMap_append, List.flatMap_assoc]
    rfl
  · have hsplit : (sys.scheduler.processes.flatMap (·.stack.blocks) ++
        sys.scheduler.processes.flatMap fun p => p.space.toList.map (·.block)).Perm
        (sys.scheduler.processes.flatMap Process.held) := List.flatMap_append_perm _ _ _
    rw [held, liveSpaces, Scheduler.held, List.map_append, List.map_flatMap]
    rw [List.perm_iff_count] at hsplit ⊢
    intro block
    have hcount := hsplit block
    simp only [List.count_append] at hcount ⊢
    omega

/-- Every byte of a live heap block is mapped in the kernel directory. Bytes of live heap blocks and
bytes under private tables of live address spaces, below 4 GiB, have physical addresses of their own.
No directory and no table is refused for want of a kernel mapping. The heap's window is at most 4 GiB.

`apart` is the safety contract of `KernelMemory.boot`: static memory is the arena's alone, for the
kernel's own tables, and the heap's window keeps out of it. -/
theorem Attained.memory_secluded (h : Attained info base maxSize started sys)
    (apart : base + maxSize ≤ info.kernelEnd ∨ info.placementLimit ≤ base)
    (narrow : maxSize ≤ addressSpan) : sys.memory.Secluded sys.liveSpaces := by
  rcases h.exact apart narrow with ⟨hnone, hspaces⟩ | ⟨kernel, hexact⟩
  · rw [hspaces]
    exact KernelMemory.secluded_of_heapless hnone
  · exact hexact.balances.secluded

/-- A process with a page of its own, beside the heap blocks of its stack and its directory. -/
theorem memory_secluded_of_process :
    ∃ (sys : System) (made : AddressSpace) (block : Block),
      sys.memory.Secluded sys.liveSpaces ∧
        (Cell.own made 0x800000).InUse sys.memory sys.liveSpaces ∧
        ((Cell.own made 0x800000).phys sys.memory).isSome ∧
        (Cell.heap block block.addr).InUse sys.memory sys.liveSpaces := by
  have hfacts : (sampleRun.map fun last => (
      (last.1.processes.flatMap (·.space.toList)).any fun made =>
        (made.directory.slots.get (tableIndex 0x800000)).any (!·.linked) &&
          (last.2.1.translateIn made 0x800000).isSome,
      last.2.1.live.any fun block => block.addr < block.stop)) = .ok (true, true) := by
    decide +kernel
  cases hsample : sampleRun with
  | error cause => simp [hsample, Except.map] at hfacts
  | ok last =>
      obtain ⟨s, memory, frame⟩ := last
      simp only [hsample, Except.map, Except.ok.injEq, Prod.mk.injEq, List.any_eq_true,
        Bool.and_eq_true, Option.any_eq_true, decide_eq_true_eq, Bool.not_eq_true'] at hfacts
      obtain ⟨⟨made, hmade, ⟨slot, hslot, hown⟩, hphys⟩, block, hblock, hnonempty⟩ := hfacts
      obtain ⟨trail, hreached⟩ := reached_sampleRun hsample
      refine ⟨_, made, block, hreached.attained.memory_secluded (.inr (by decide)) (by decide), ?_,
        hphys, .heap hblock (Nat.le_refl _) hnonempty⟩
      exact .own (List.mem_append_left _ hmade) (by decide) ⟨slot, hslot, hown⟩

end System

end KernelCore
