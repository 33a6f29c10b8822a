import Mathlib
import KernelCore.Proofs.Memory.Boot

/-!
# Runs of the kernel memory

A run starts with a boot and identity mappings, puts a heap to use and goes on with allocations,
page faults and address spaces. Beside the memory it keeps the address spaces in use and the
addresses that callers hold. Through all of it a frame is in use if and only if exactly one present
entry maps it.
-/

namespace KernelCore

namespace KernelMemory

/-- Kernel memory, the address spaces in use, and the addresses allocated and not freed since. -/
structure Run where
  memory : KernelMemory
  spaces : List AddressSpace
  blocks : List Nat

def Run.tables (run : Run) : List Nat :=
  run.memory.space.directory.tableAddrs ++ run.spaces.flatMap (·.directory.ownAddrs)

inductive Booting (info : BootInfo) : KernelMemory → Prop
  | boot {memory : KernelMemory} : (boot info).result = .ok memory → Booting info memory
  | identityMap {memory memory' : KernelMemory} {start stop : Nat} :
      Booting info memory → (memory.identityMap start stop).result = .ok memory' →
      Booting info memory'

/-- One call that comes back, with an answer or an error. -/
inductive Step (run : Run) : Run → Prop
  | granted {size addr : Nat} {pageAligned : Bool} {memory : KernelMemory} :
      (run.memory.tryAlloc size pageAligned).result = .ok (.ok addr, memory) →
      Step run ⟨memory, run.spaces, addr :: run.blocks⟩
  | refused {size : Nat} {pageAligned : Bool} {cause : HeapError} {memory : KernelMemory} :
      (run.memory.tryAlloc size pageAligned).result = .ok (.error cause, memory) →
      Step run ⟨memory, run.spaces, run.blocks⟩
  | freed {addr : Nat} {memory : KernelMemory} :
      addr ∈ run.blocks → (run.memory.free addr).result = .ok memory →
      Step run ⟨memory, run.spaces, run.blocks.erase addr⟩
  | faultHandled {addr error : Nat} {answer : Option PageFaultError} {memory : KernelMemory} :
      (run.memory.resolveFault addr error).result = .ok (answer, memory) →
      Step run ⟨memory, run.spaces, run.blocks⟩
  | spaceCreated {space : AddressSpace} {memory : KernelMemory} :
      run.memory.createSpace.result = .ok (.ok space, memory) →
      Step run ⟨memory, space :: run.spaces, run.blocks⟩
  | spaceRefused {cause : HeapError} {memory : KernelMemory} :
      run.memory.createSpace.result = .ok (.error cause, memory) →
      Step run ⟨memory, run.spaces, run.blocks⟩
  | rangeMapped {space space' : AddressSpace} {start stop : Nat} {flags : HeapFlags}
      {answer : Option PagingError} {memory : KernelMemory} :
      space ∈ run.spaces →
      (run.memory.mapRange space start stop flags).result = .ok (answer, space', memory) →
      Step run ⟨memory, space' :: run.spaces.erase space, run.blocks⟩
  | rangeUnmapped {space : AddressSpace} {start stop : Nat} {memory : KernelMemory} :
      space ∈ run.spaces → (run.memory.unmapRange space start stop).result = .ok memory →
      Step run ⟨memory, run.spaces, run.blocks⟩
  | spaceDestroyed {space : AddressSpace} {memory : KernelMemory} :
      space ∈ run.spaces → (run.memory.destroySpace space).result = .ok memory →
      Step run ⟨memory, run.spaces.erase space, run.blocks⟩

/-- The states that a booted kernel comes to with its heap in use. The heap's window keeps out of
static memory, which is the safety contract of `KernelMemory.boot`. -/
inductive Reached (info : BootInfo) : Run → Prop
  | enabled {memory created memory' : KernelMemory} {start stop maxSize : Nat} {flags : HeapFlags}
      {heap : Heap} :
      Booting info memory →
      start + maxSize ≤ info.kernelEnd ∨ info.placementLimit ≤ start →
      (memory.createHeap start stop maxSize flags).result = .ok (.ok heap, created) →
      (created.enableHeap heap).result = .ok memory' →
      Reached info ⟨memory', [], []⟩
  | step {run run' : Run} : Reached info run → Step run run' → Reached info run'

variable {info : BootInfo} {memory : KernelMemory} {run run' : Run} {kernel : PageDirectory}

theorem Booting.booted (h : Booting info memory) : Booted info memory := by
  induction h with
  | boot hboot => exact booted_boot hboot
  | identityMap _ hmap ih => exact ih.identityMap hmap

/-! ## What a run preserves -/

/-- Address spaces hold their directories and their own tables, callers hold the other blocks. -/
structure Good (kernel : PageDirectory) (run : Run) : Prop where
  keeps : run.memory.Keeps kernel (run.spaces.flatMap (·.directory.ownAddrs))
    (run.spaces.map (·.addr) ++ run.blocks)
  borrows : ∀ space ∈ run.spaces, Borrows kernel space.directory

/-- What one address space holds, apart from the rest. -/
theorem Good.front (h : Good kernel run) {space : AddressSpace} (hm : space ∈ run.spaces) :
    run.memory.Keeps kernel
      (space.directory.ownAddrs ++ (run.spaces.erase space).flatMap (·.directory.ownAddrs))
      (space.addr :: ((run.spaces.erase space).map (·.addr) ++ run.blocks)) := by
  have hperm := List.perm_cons_erase hm
  refine h.keeps.perm ?_ ?_
  · simpa using hperm.flatMap_right (·.directory.ownAddrs)
  · simpa using (hperm.map (·.addr)).append_right run.blocks

theorem Good.step (h : Good kernel run) (hs : Step run run') : Good kernel run' := by
  cases hs with
  | granted halloc =>
      rcases h.keeps.tryAlloc halloc with ⟨cause, hanswer, -⟩ | ⟨addr, hanswer, hkeeps⟩
      · contradiction
      · obtain rfl := Except.ok.inj hanswer
        exact ⟨hkeeps.perm (.refl _) List.perm_middle.symm, h.borrows⟩
  | refused halloc =>
      rcases h.keeps.tryAlloc halloc with ⟨cause, -, hkeeps⟩ | ⟨addr, hanswer, -⟩
      · exact ⟨hkeeps, h.borrows⟩
      · contradiction
  | freed hm hfree =>
      have hperm := ((List.perm_cons_erase hm).append_left (run.spaces.map (·.addr))).trans
        List.perm_middle
      exact ⟨(h.keeps.perm (.refl _) hperm).free hfree, h.borrows⟩
  | faultHandled hresolve => exact ⟨h.keeps.resolveFault hresolve, h.borrows⟩
  | spaceCreated hcreate =>
      rcases h.keeps.createSpace hcreate with
        ⟨cause, hanswer, -⟩ | ⟨made, hanswer, hown, hb, hkeeps⟩
      · contradiction
      · obtain rfl := Except.ok.inj hanswer
        refine ⟨by simpa [hown] using hkeeps, ?_⟩
        exact List.forall_mem_cons.mpr ⟨hb, h.borrows⟩
  | spaceRefused hcreate =>
      rcases h.keeps.createSpace hcreate with ⟨cause, -, hkeeps⟩ | ⟨made, hanswer, -⟩
      · exact ⟨hkeeps, h.borrows⟩
      · contradiction
  | @rangeMapped space space' _ _ _ _ _ hm hmap =>
      obtain ⟨hb, haddr, hkeeps⟩ := Keeps.mapRange (h.borrows space hm) (h.front hm) hmap
      refine ⟨by simpa [haddr] using hkeeps, List.forall_mem_cons.mpr ⟨hb, ?_⟩⟩
      exact fun other hother => h.borrows other (List.mem_of_mem_erase hother)
  | rangeUnmapped hm hunmap =>
      have hperm := (List.perm_cons_erase hm).symm
      refine ⟨((h.front hm).unmapRange (h.borrows _ hm) hunmap).perm ?_ ?_, h.borrows⟩
      · simpa using hperm.flatMap_right (·.directory.ownAddrs)
      · simpa using (hperm.map (·.addr)).append_right run.blocks
  | spaceDestroyed hm hdestroy =>
      exact ⟨(h.front hm).destroySpace hdestroy,
        fun other hother => h.borrows other (List.mem_of_mem_erase hother)⟩

theorem Reached.good (h : Reached info run) : ∃ kernel, Good kernel run := by
  induction h with
  | enabled hbooting apart hcreate henable =>
      exact ⟨_, hbooting.booted.enableHeap apart hcreate henable, by simp⟩
  | step _ hs ih =>
      obtain ⟨kernel, hgood⟩ := ih
      exact ⟨kernel, hgood.step hs⟩

/-! ## Frame ownership -/

theorem Good.owned (h : Good kernel run) :
    Owned run.tables run.memory.space.ram run.memory.space.frames := by
  obtain ⟨heap, -, hkept⟩ := h.keeps
  rw [Run.tables, hkept.holds.same]
  exact hkept.holds.owned

theorem Good.nodup_tables (h : Good kernel run) : run.tables.Nodup := by
  obtain ⟨heap, -, hkept⟩ := h.keeps
  rw [Run.tables, hkept.holds.same]
  exact hkept.nodup_tables

/-- The tables of all directories are distinct. A frame is in use if and only if exactly one present
entry of theirs maps it, no two of them map the same frame, and the frames not in use are those that
no present entry counts. All runs are meant whose heap's window keeps out of static memory, as the
safety contract of `KernelMemory.boot` demands. -/
theorem Reached.frames_owned (h : Reached info run) :
    run.tables.Nodup ∧
      (∀ number, run.memory.space.frames.bit number = true ↔
        ∃! ref : EntryRef, ref.table ∈ run.tables ∧ (run.memory.space.ram.entry ref).owns number) ∧
      (∀ ref ref' : EntryRef, ref.table ∈ run.tables → ref'.table ∈ run.tables →
        (run.memory.space.ram.entry ref).present = true →
        (run.memory.space.ram.entry ref').present = true →
        (run.memory.space.ram.entry ref).frame / frameSize =
          (run.memory.space.ram.entry ref').frame / frameSize → ref = ref') ∧
      run.memory.space.frames.free +
        (entriesOf run.tables run.memory.space.ram).countP (·.present) =
          run.memory.space.frames.total := by
  obtain ⟨kernel, hgood⟩ := h.good
  have howned := hgood.owned
  have hnodup := hgood.nodup_tables
  refine ⟨hnodup, ?_, ?_, ?_⟩
  · intro number
    rw [howned.used]
    constructor
    · rintro ⟨ref, hm, howns⟩
      exact ⟨ref, ⟨hm, howns⟩, fun other ⟨hm', howns'⟩ =>
        howned.unique other ref hm' hm number howns' howns⟩
    · rintro ⟨ref, hexact, -⟩
      exact ⟨ref, hexact⟩
  · intro ref ref' hm hm' hpresent hpresent' hsame
    exact howned.unique ref ref' hm hm' _ ⟨hpresent, hsame⟩ ⟨hpresent', rfl⟩
  · exact howned.free_add_present hnodup

def sampleInfo : BootInfo := ⟨0x1000, 0, 0x20000, 0x40000, 0, 0⟩

/-- Beside a heap of one page, an address space with one page in a table of its own. -/
def sampleRun : Except Fault (Option Run) := do
  let memory ← (boot sampleInfo).result
  let memory ← (memory.identityMap 0 0x1000).result
  match ← (memory.createHeap 0x400000 0x401000 0x10000 .supervisor).result with
  | (.error _, _) => return none
  | (.ok heap, memory) =>
      let memory ← (memory.enableHeap heap).result
      match ← memory.createSpace.result with
      | (.error _, _) => return none
      | (.ok space, memory) =>
          let (_, space, memory) ← (memory.mapRange space 0x800000 0x801000 .supervisor).result
          return some ⟨memory, [space], []⟩

theorem reached_sampleRun (h : sampleRun = .ok (some run)) : Reached sampleInfo run := by
  unfold sampleRun at h
  obtain ⟨booted, hboot, h⟩ := bind_eq_ok h
  obtain ⟨mapped, hidentity, h⟩ := bind_eq_ok h
  obtain ⟨⟨answer, created⟩, hcreate, h⟩ := bind_eq_ok h
  rcases answer with cause | heap
  · simp at h
  obtain ⟨enabled, henable, h⟩ := bind_eq_ok h
  obtain ⟨⟨answer, spaced⟩, hspace, h⟩ := bind_eq_ok h
  rcases answer with cause | space
  · simp at h
  obtain ⟨⟨refusal, space', memory⟩, hmap, h⟩ := bind_eq_ok h
  obtain rfl := Option.some.inj (Except.ok.inj h)
  have hbooting := (Booting.boot hboot).identityMap hidentity
  have hreached := Reached.enabled hbooting (.inr (by decide)) hcreate henable
  have hspaced := hreached.step (.spaceCreated hspace)
  simpa using hspaced.step (.rangeMapped List.mem_cons_self hmap)

/-- One page is identity mapped, seven back the heap's blocks, and one is private. -/
theorem frames_owned_after_mapping :
    ∃ run, sampleRun = .ok (some run) ∧ run.tables.Nodup ∧
      (entriesOf run.tables run.memory.space.ram).countP (·.present) = 9 := by
  have hcounts : (sampleRun.map fun found => found.map fun run =>
      (run.memory.space.frames.total, run.memory.space.frames.free)) = .ok (some (64, 55)) := by
    decide +kernel
  cases hsample : sampleRun with
  | error cause => simp [hsample, Except.map] at hcounts
  | ok found =>
      cases found with
      | none => simp [hsample, Except.map] at hcounts
      | some run =>
          simp only [hsample, Except.map, Option.map_some, Except.ok.injEq, Option.some.injEq,
            Prod.mk.injEq] at hcounts
          have howned := (reached_sampleRun hsample).frames_owned
          have hfree := howned.2.2.2
          exact ⟨run, rfl, howned.1, by omega⟩

end KernelMemory

end KernelCore
