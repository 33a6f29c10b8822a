import Mathlib
import KernelCore.Proofs.Heap.Requests
import KernelCore.Proofs.Memory.Footprint
import KernelCore.Proofs.System.Runs

/-!
# The kernel directory stays in place

Identity mappings and new heaps add tables to the kernel directory, and nothing else changes it. The
directory itself is never moved, whatever is mapped, unmapped, allocated or freed.
-/

namespace KernelCore

/-! ## Calls that leave the heap alone -/

theorem PageDirectory.ensure_phys {σ : Type} {source : TableSource σ} {virt : Nat} {s t : σ}
    {directory directory' : PageDirectory} {found : Option EntryRef}
    (h : (directory.ensure source virt s).result = .ok (found, directory', t)) :
    directory'.phys = directory.phys := by
  rcases ensure_eq_ok h with ⟨_, -, -, rfl, -⟩ | ⟨-, ⟨_, -, -, rfl⟩ | ⟨_, -, -, rfl⟩⟩ <;> rfl

namespace KernelMemory

variable {memory memory' memory'' : KernelMemory} {root start stop : Nat}

structure Stays (memory memory' : KernelMemory) : Prop where
  root : memory'.directoryPhys = memory.directoryPhys
  heap : memory'.heap = memory.heap

theorem Stays.refl (memory : KernelMemory) : memory.Stays memory := ⟨rfl, rfl⟩

theorem Stays.trans (h : memory.Stays memory') (h' : memory'.Stays memory'') :
    memory.Stays memory'' :=
  ⟨h'.root.trans h.root, h'.heap.trans h.heap⟩

theorem ensureEntry_stays {virt : Nat} {found : Option EntryRef}
    (hensure : (memory.ensureEntry virt).result = .ok (found, memory')) :
    memory.Stays memory' := by
  unfold ensureEntry at hensure
  rw [Traced.result_bind] at hensure
  obtain ⟨⟨ref, directory, arena, ram⟩, hgranted, hensure⟩ := bind_eq_ok hensure
  obtain ⟨-, rfl⟩ := Prod.mk.injEq .. ▸ Except.ok.inj hensure
  exact ⟨PageDirectory.ensure_phys hgranted, rfl⟩

theorem identityMap_stays (hmap : (memory.identityMap start stop).result = .ok memory') :
    memory.Stays memory' := by
  refine identityMap_preserves (P := memory.Stays) ?_ (.refl memory) hmap
  intro page s prepared ref space hs hensure hspace
  have hprepared := hs.trans (ensureEntry_stays hensure)
  unfold KernelSpace.mapEntry at hspace
  obtain ⟨⟨entry, frames⟩, -, hspace⟩ := bind_eq_ok hspace
  obtain rfl := Except.ok.inj hspace
  exact ⟨hprepared.root, hprepared.heap⟩

theorem createHeap_stays {maxSize : Nat} {flags : HeapFlags} {answer : Except HeapError Heap}
    (hcreate : (memory.createHeap start stop maxSize flags).result = .ok (answer, memory')) :
    memory.Stays memory' ∧ ∀ heap, answer = .ok heap →
      heap.Valid ∧ Heap.usedBlocks heap.blocks = [] := by
  have hensures : ∀ {virt s found t}, memory.Stays s →
      (s.ensureEntry virt).result = .ok (found, t) → memory.Stays t :=
    fun hs hensure => hs.trans (ensureEntry_stays hensure)
  rcases createHeap_eq_ok hensures (.refl memory) hcreate with ⟨⟨cause, rfl⟩, hstays⟩ |
    ⟨prepared, hprepared, hsame, hcreated⟩
  · exact ⟨hstays, by simp⟩
  obtain ⟨refusal, hasked, -⟩ := Heap.create_asks hcreated
  have hkept : prepared.Stays memory' :=
    ⟨congrArg PageDirectory.phys hasked.same, by rw [hsame]⟩
  refine ⟨hprepared.trans hkept, ?_⟩
  rintro heap rfl
  have hmade := Heap.create_eq_ok hcreated
  exact ⟨hmade.valid, hmade.used⟩

theorem unmapRange_stays {made : AddressSpace}
    (hunmap : (memory.unmapRange made start stop).result = .ok memory') :
    memory.Stays memory' := by
  obtain ⟨hsame, hsweep⟩ := unmapRange_eq_ok hunmap
  have hdirectory := KernelSpace.unmapPages_same hsweep
  exact ⟨congrArg PageDirectory.phys hdirectory, by rw [hsame]⟩

/-! ## While the heap is in use -/

abbrev Anchored (root : Nat) : KernelMemory → Prop :=
  InUse fun _ space => space.directory.phys = root

theorem anchored_tenure (root : Nat) : Tenure fun _ _ _ kernel => kernel.phys = root where
  perm := fun h _ _ => h
  alloc := by
    intro tables held heap size pageAligned answer heap' space space' h _
    cases answer with
    | error cause => exact .inl ⟨cause, rfl, h⟩
    | ok addr => exact .inr ⟨addr, rfl, h⟩
  free := fun h _ => h
  middle := .rfl
  forget := fun h => h

/-- Nobody holds the kernel directory, and no call moves it. -/
theorem Anchored.account (root : Nat) :
    Account (fun _ => True) fun _ _ memory => memory.Anchored root :=
  (anchored_tenure root).account

end KernelMemory

/-! ## Over the run -/

namespace System

variable {lent : PageDirectory → Prop} {sys sys' : System}

theorem Good.anchored (h : Good lent KernelMemory.Reserves sys) :
    Good (fun _ => True) (fun _ _ memory => memory.Anchored sys.memory.directoryPhys) sys := by
  obtain ⟨heap, hheap, -⟩ := h.kept
  exact ⟨h.sound, ⟨heap, hheap, rfl⟩, fun _ _ => trivial, h.boot⟩

theorem Good.step_root (h : Good lent KernelMemory.Reserves sys) (hs : Step sys sys') :
    sys'.memory.directoryPhys = sys.memory.directoryPhys :=
  have ⟨_, _, hroot⟩ := (h.anchored.step (KernelMemory.Anchored.account _) hs).kept
  hroot

theorem Good.start_root (h : Good lent KernelMemory.Reserves sys) {stack : KernelStack}
    (borrowed : stack.owned = false) {idleEntry : Nat} {t : Scheduler} {memory : KernelMemory}
    (hstart : (sys.scheduler.start stack idleEntry sys.memory).result = .ok (t, memory)) :
    memory.directoryPhys = sys.memory.directoryPhys :=
  have ⟨_, _, hroot⟩ := (h.anchored.start (KernelMemory.Anchored.account _) borrowed hstart).kept
  hroot

end System

end KernelCore
