import Mathlib
import KernelCore.Proofs.Memory.Isolation
import KernelCore.Proofs.System.Privacy

/-!
# Address spaces do not disturb each other

Private tables of all address spaces are blocks of one heap, and their pages are frames of one pool.
Still no call on one address space, and no allocation or free of a caller's, changes a translation
under a private table of another one. For the kernel, only pages between the old and the new end of
the heap may change. Directories look at an address modulo 4 GiB, so its aliases change along.
-/

namespace KernelCore

open Heap

/-- What a call that leads from `memory` to `memory'` leaves alone, for the address space `other` and
for the kernel. -/
structure KernelMemory.Unaffected (memory : KernelMemory) (other : AddressSpace)
    (memory' : KernelMemory) : Prop where
  /-- What lies under no borrowed table of the address space. -/
  own : ∀ virt, (∀ slot, other.directory.slots.get (tableIndex virt) = some slot →
    slot.linked = false) → memory'.translateIn other virt = memory.translateIn other virt
  /-- Kernel addresses that are aliases of no address of the heap's window. -/
  outside : ∀ heap, memory.heap = some heap → ∀ virt,
    (∀ addr, heap.start ≤ addr → addr < heap.limit → addr % addressSpan ≠ virt % addressSpan) →
      memory'.translate virt = memory.translate virt
  /-- Kernel addresses of the window that lie below the end of the heap, before and after. -/
  below : ∀ heap heap', memory.heap = some heap → memory'.heap = some heap' → ∀ virt,
    heap.start ≤ virt → virt < heap.stop → virt < heap'.stop →
      memory'.translate virt = memory.translate virt

theorem KernelMemory.Balances.unaffected {kernel : PageDirectory} {spaces : List AddressSpace}
    {rest blocks : List Block} {memory memory' : KernelMemory} {made other : AddressSpace}
    (h : memory.Balances kernel (spaces.flatMap (·.directory.ownAddrs))
      (spaces.map (·.block) ++ rest)) (hm : made ∈ spaces) (hother : other ∈ spaces)
    (differs : made ≠ other) (mine : blocks ⊆ rest) (hcall : memory.Dealing made blocks memory') :
    memory.Unaffected other memory' := by
  have hperm := List.perm_cons_erase hm
  have htables : (spaces.flatMap (·.directory.ownAddrs)).Perm
      (made.directory.ownAddrs ++ (spaces.erase made).flatMap (·.directory.ownAddrs)) := by
    simpa using hperm.flatMap_right (·.directory.ownAddrs)
  have hheld : (spaces.map (·.block) ++ rest).Perm
      (made.block :: ((spaces.erase made).map (·.block) ++ rest)) := by
    simpa using (hperm.map (·.block)).append_right rest
  have hfront := h.perm htables hheld
  obtain ⟨heap, heap', hheap, hheap', hparted⟩ :=
    hfront.parted (fun block hblock => List.mem_append_right _ (mine hblock)) hcall
  obtain ⟨same, hsame, hledger⟩ := hfront
  obtain rfl := Option.some.inj (hheap.symm.trans hsame)
  have htheirs : other.directory.ownAddrs ⊆
      (spaces.erase made).flatMap (·.directory.ownAddrs) := by
    intro table htable
    have hleft : other ∈ spaces.erase made := (List.mem_erase_of_ne differs.symm).mpr hother
    exact List.mem_flatMap.mpr ⟨other, hleft, htable⟩
  refine ⟨fun virt hunlinked => hparted.translateIn hledger htheirs hunlinked, ?_, ?_⟩
  · intro found hfound virt houtside
    obtain rfl := Option.some.inj (hheap.symm.trans hfound)
    exact hparted.translate_outside hledger houtside
  · intro found found' hfound hfound' virt hlow hbefore hafter
    obtain rfl := Option.some.inj (hheap.symm.trans hfound)
    obtain rfl := Option.some.inj (hheap'.symm.trans hfound')
    exact hparted.translate_below hledger hlow hbefore hafter

namespace System

variable {info : BootInfo} {base maxSize : Nat} {started : Bool} {sys : System}

/-- With a window of at most 4 GiB outside static memory, no allocation, free of a caller's block or
call on one live address space, whatever its answer, changes what another one translates under no
borrowed table. The kernel translates as before what is no alias of an address of the window, and
what lies in the window below both ends of the heap.

`apart` is the safety contract of `KernelMemory.boot`: nothing but the arena uses the memory between
the end of the image and the placement limit, so neither does the heap. -/
theorem Attained.spaces_isolated (h : Attained info base maxSize started sys)
    (apart : base + maxSize ≤ info.kernelEnd ∨ info.placementLimit ≤ base)
    (narrow : maxSize ≤ addressSpan) {made other : AddressSpace} (hm : made ∈ sys.liveSpaces)
    (hother : other ∈ sys.liveSpaces) (differs : made ≠ other) {memory' : KernelMemory}
    (hcall : sys.memory.Dealing made sys.blocks memory') :
    sys.memory.Unaffected other memory' := by
  rcases h.exact apart narrow with ⟨-, hnone⟩ | ⟨kernel, hexact⟩
  · simp [hnone] at hm
  · exact hexact.balances.unaffected hm hother differs (List.subset_append_right _ _) hcall

def sampleNeighbours : Except Fault (AddressSpace × AddressSpace × KernelMemory) := do
  let memory ← (KernelMemory.boot KernelMemory.sampleInfo).result
  let (answer, memory) ← (memory.createHeap 0x400000 0x401000 0x10000 .supervisor).result
  let .ok heap := answer | throw .raised
  let memory ← (memory.enableHeap heap).result
  let (answer, memory) ← memory.createSpace.result
  let .ok made := answer | throw .raised
  let (answer, memory) ← memory.createSpace.result
  let .ok other := answer | throw .raised
  let (_, other, memory) ← (memory.mapRange other 0x800000 0x801000 .supervisor).result
  return (made, other, memory)

theorem attained_sampleNeighbours {made other : AddressSpace} {memory : KernelMemory}
    (h : sampleNeighbours = .ok (made, other, memory)) :
    Attained KernelMemory.sampleInfo 0x400000 0x10000 false
      ⟨.empty, memory, [other, made], [], []⟩ := by
  unfold sampleNeighbours at h
  obtain ⟨booted, hboot, h⟩ := bind_eq_ok h
  obtain ⟨⟨answer, created⟩, hcreate, h⟩ := bind_eq_ok h
  rcases answer with cause | heap
  · simp at h
  obtain ⟨enabled, henable, h⟩ := bind_eq_ok h
  obtain ⟨⟨answer, spaced⟩, hspace, h⟩ := bind_eq_ok h
  rcases answer with cause | first
  · simp at h
  obtain ⟨⟨answer, shared⟩, hspace', h⟩ := bind_eq_ok h
  rcases answer with cause | second
  · simp at h
  obtain ⟨⟨refusal, second', mapped⟩, hmap, h⟩ := bind_eq_ok h
  obtain ⟨rfl, rfl, rfl⟩ := by
    simpa only [pure_eq_ok, Except.ok.injEq, Prod.mk.injEq] using h
  have hbooted := Reached.booted (.enabled (.boot hboot) hcreate henable)
  have hspaced := hbooted.step (.memory (.spaceCreated hspace))
  have hshared := hspaced.step (.memory (.spaceCreated hspace'))
  have hmapped := hshared.step (.memory (.rangeMapped List.mem_cons_self hmap))
  simpa using hmapped.attained

/-- The first address space is destroyed, and the second has its page where it was. -/
theorem spaces_isolated_from_destruction :
    ∃ (sys : System) (made other : AddressSpace) (memory' : KernelMemory),
      made ∈ sys.liveSpaces ∧ other ∈ sys.liveSpaces ∧ made ≠ other ∧
      (sys.memory.destroySpace made).result = .ok memory' ∧
      memory'.translateIn other 0x800000 = sys.memory.translateIn other 0x800000 ∧
      (sys.memory.translateIn other 0x800000).isSome := by
  have hfacts : (do
      let (made, other, memory) ← sampleNeighbours
      let after ← (memory.destroySpace made).result
      return (decide (made ≠ other), (other.directory.slots.get 2).map (·.linked),
        (memory.translateIn other 0x800000).isSome, after.heap.isSome) :
        Except Fault (Bool × Option Bool × Bool × Bool)) =
      .ok (true, some false, true, true) := by decide +kernel
  obtain ⟨⟨made, other, memory⟩, hsample, hfacts⟩ := bind_eq_ok hfacts
  obtain ⟨after, hdestroy, hfacts⟩ := bind_eq_ok hfacts
  simp only [pure_eq_ok, Except.ok.injEq, Prod.mk.injEq, decide_eq_true_eq] at hfacts
  obtain ⟨hdiffers, hunlinked, hmapped, -⟩ := hfacts
  have hattained := attained_sampleNeighbours hsample
  have hspared := hattained.spaces_isolated (.inr (by decide)) (by decide)
    (by simp [liveSpaces] : made ∈ _) (by simp [liveSpaces] : other ∈ _) hdiffers
    (.destroyed hdestroy)
  refine ⟨_, made, other, after, by simp [liveSpaces], by simp [liveSpaces], hdiffers, hdestroy,
    hspared.own 0x800000 fun slot hslot => ?_, hmapped⟩
  replace hslot : other.directory.slots.get 2 = some slot := hslot
  simpa [hslot] using hunlinked

/-- An allocation has the heap grow by a page. The kernel sees that page 4 GiB further up, too, far
outside the window. -/
theorem alias_mapped_by_growth :
    ∃ (sys : System) (made other : AddressSpace) (memory' : KernelMemory) (heap : Heap) (virt : Nat),
      Attained KernelMemory.sampleInfo 0x400000 0x10000 false sys ∧
      made ∈ sys.liveSpaces ∧ other ∈ sys.liveSpaces ∧ made ≠ other ∧
      sys.memory.Dealing made sys.blocks memory' ∧ sys.memory.heap = some heap ∧
      ¬(heap.start ≤ virt ∧ virt < heap.limit) ∧
      memory'.translate virt ≠ sys.memory.translate virt := by
  have hfacts : (do
      let (made, other, memory) ← sampleNeighbours
      let answer ← (memory.tryAlloc 0x1000 true).result
      return (decide (made ≠ other), memory.heap.map fun heap => heap.limit,
        memory.translate 0x10040c000, answer.2.translate 0x10040c000) :
        Except Fault (Bool × Option Nat × Option Nat × Option Nat)) =
      .ok (true, some 0x410000, none, some 0xd000) := by decide +kernel
  obtain ⟨⟨made, other, memory⟩, hsample, hfacts⟩ := bind_eq_ok hfacts
  obtain ⟨⟨answer, after⟩, halloc, hfacts⟩ := bind_eq_ok hfacts
  simp only [pure_eq_ok, Except.ok.injEq, Prod.mk.injEq, decide_eq_true_eq,
    Option.map_eq_some_iff] at hfacts
  obtain ⟨hdiffers, ⟨heap, hheap, hlimit⟩, hbefore, hafter⟩ := hfacts
  refine ⟨_, made, other, after, heap, 0x10040c000, attained_sampleNeighbours hsample,
    by simp [liveSpaces], by simp [liveSpaces], hdiffers, .allocated halloc, hheap, ?_, ?_⟩
  · omega
  · simp [hbefore, hafter]

end System

end KernelCore
