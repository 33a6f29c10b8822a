import Mathlib
import KernelCore.Proofs.Heap.Requests
import KernelCore.Proofs.Memory.Footprint
import KernelCore.Proofs.Memory.Ledger

/-!
# Why memory is refused

The heap hands on why its mapper refuses, and the kernel's mapper does so for want of tables or of
frames. A page-aligned block that is granted has a kernel mapping. So neither a directory nor a page
table is ever refused because its block is not mapped.
-/

namespace KernelCore

/-! ## The kernel's mapper -/

namespace KernelSpace

variable {space : KernelSpace} {Q : Event → Prop}

theorem backEntry_notes (kept : ∀ frame, Q (.frameKept frame)) (ref : EntryRef)
    (flags : HeapFlags) : (space.backEntry ref flags).Notes Q := by
  unfold backEntry FramePool.back
  refine Traced.Notes.bind ?_ fun _ _ => Traced.notes_pure _
  split
  · exact (Traced.notes_note.mpr (kept _)).bind fun _ _ => Traced.notes_pure _
  · refine (Traced.notes_lift _).bind ?_
    rintro ⟨found, pool⟩ -
    cases found with
    | none => exact Traced.notes_pure _
    | some frame => exact (Traced.notes_lift _).bind fun _ _ => Traced.notes_pure _

theorem map_notes (kept : ∀ frame, Q (.frameKept frame)) (start stop : Nat) (flags : HeapFlags)
    (space : KernelSpace) : (mapper.map start stop flags space).Notes Q := by
  change (space.mapRegion start stop flags).Notes Q
  unfold mapRegion
  simp only
  split
  · exact Traced.notes_pure _
  split
  · exact Traced.notes_pure _
  refine Traced.Notes.sweep (I := fun _ => True) ?_ (fun _ _ _ _ _ _ => trivial) trivial _ _
  intro page s _
  unfold backPage
  split
  · exact backEntry_notes kept _ _
  · exact Traced.notes_pure _

end KernelSpace

/-! ## A heap -/

theorem KernelMemory.createHeap_refused {P : KernelMemory → Prop}
    (ensures : ∀ {virt s found t}, P s → (s.ensureEntry virt).result = .ok (found, t) → P t)
    (sound : ∀ {s}, P s → s.space.frames.Sound) {memory memory' : KernelMemory} (holds : P memory)
    {start stop maxSize : Nat} {flags : HeapFlags} {refusal : HeapError}
    (hcreate : (memory.createHeap start stop maxSize flags).result =
      .ok (.error refusal, memory')) : P memory' := by
  rcases KernelMemory.createHeap_eq_ok ensures holds hcreate with
    ⟨-, hholds⟩ | ⟨prepared, hprepared, hsame, hcreated⟩
  · exact hholds
  obtain ⟨refusal, hasked, hunasked⟩ := Heap.create_asks hcreated
  have hspace : memory'.space = prepared.space := by
    cases refusal with
    | none => exact hunasked _ rfl rfl
    | some cause =>
        cases hasked with
        | once hmap => exact (KernelSpace.map_refused (sound hprepared) hmap).1
  rw [hsame, hspace]
  exact hprepared

/-- A heap that is refused leaves the identity mappings as they were, and tables for more. -/
theorem Booted.createHeap_refused {info : BootInfo} {memory memory' : KernelMemory}
    (h : Booted info memory) {start stop maxSize : Nat} {flags : HeapFlags} {refusal : HeapError}
    (hcreate : (memory.createHeap start stop maxSize flags).result =
      .ok (.error refusal, memory')) : Booted info memory' :=
  KernelMemory.createHeap_refused (fun hs hensure => (hs.ensureEntry hensure).1)
    (fun hs => hs.owned.sound) h hcreate

/-! ## Directories and tables -/

section Granting

variable {kernel directory : PageDirectory} {tables : List Nat} {held : List Block}
  {heap heap' : Heap} {space space' : KernelSpace} {memory memory' : KernelMemory}
  {cause : PagingError}

/-- The kernel's heap refuses a mapping for want of tables or of frames. -/
theorem Ledger.alloc_refused (h : Ledger kernel tables held heap space) {size : Nat}
    {pageAligned : Bool}
    (halloc : (heap.alloc KernelSpace.mapper size pageAligned space).result =
      .ok (.error (.mapping cause), heap', space')) :
    cause = .outOfTableMemory ∨ cause = .outOfFrames := by
  obtain ⟨refusal, hasked, hreason⟩ := Heap.alloc_asks halloc
  obtain rfl := hreason cause rfl
  cases hasked with
  | once hmap => exact (KernelSpace.map_refused h.kept.holds.owned.sound hmap).2

theorem KernelMemory.Balances.createSpace_refused (h : memory.Balances kernel tables held)
    (hcreate : memory.createSpace.result = .ok (.error (.mapping cause), memory')) :
    cause = .outOfTableMemory ∨ cause = .outOfFrames := by
  rcases h.createSpace hcreate with ⟨refusal, hanswer, halloc, -⟩ | ⟨made, hanswer, -⟩
  · obtain rfl := Except.error.inj hanswer
    obtain ⟨heap, hheap, hledger⟩ := h
    obtain ⟨heap', -, hgranted⟩ := tryAlloc_eq_ok hheap halloc
    exact hledger.alloc_refused hgranted
  · contradiction

/-- A table that is not made, because the block for it had no kernel mapping. -/
def Event.Unmapped (event : Event) : Prop := ∃ virt, event = .tableNotCreated virt .notMapped

/-- A table that cannot be made is reported as a want of memory. -/
theorem Ledger.ensure_notes (h : Ledger kernel tables held heap space) (page : Nat) :
    (directory.ensure Heap.tables page (heap, space)).Notes fun event => ¬event.Unmapped := by
  unfold PageDirectory.ensure
  cases directory.find? page with
  | some ref => exact Traced.notes_pure _
  | none =>
      refine Traced.Notes.bind ?_ ?_
      · change (Heap.grantTable (heap, space)).Notes _
        unfold Heap.grantTable
        refine Traced.Notes.bind ?_ ?_
        · apply Heap.alloc_notes
          · exact KernelSpace.map_notes (by simp [Event.Unmapped])
          · simp [Event.Unmapped]
        · rintro ⟨answer, heap₁, space₁⟩ -
          cases answer with
          | error refusal => exact Traced.notes_pure _
          | ok addr =>
              simp only
              split <;> exact Traced.notes_pure _
      · rintro ⟨answer, heap₁, space₁⟩ hgrant
        rcases (Ledger.custody kernel).grantTable h hgrant with ⟨rfl, -⟩ | ⟨slot, rfl, -⟩
        · refine Traced.Notes.bind ?_ fun _ _ => Traced.notes_pure _
          simp [Event.Unmapped]
        · exact Traced.notes_pure _

/-- No table is lost while pages are mapped. -/
theorem KernelMemory.Balances.mapRange_notes {made : AddressSpace}
    (h : memory.Balances kernel (made.directory.ownAddrs ++ tables) held) (start stop : Nat)
    (flags : HeapFlags) :
    (memory.mapRange made start stop flags).Notes fun event => ¬event.Unmapped := by
  obtain ⟨heap, hheap, hledger⟩ := h
  have hgrants : Grants fun own => Ledger kernel (own ++ tables) held :=
    (Ledger.custody kernel).grants tables
  have hmapping : Mapping made.directory (fun own => Ledger kernel (own ++ tables) held)
      (made.directory, heap, memory.space) := ⟨.refl made.directory, hledger⟩
  unfold KernelMemory.mapRange
  simp only [hheap]
  refine Traced.Notes.bind ?_ fun _ _ => Traced.notes_pure _
  refine Traced.Notes.sweep ?_ (fun _ _ _ _ hs hvisit => hs.mapPage hgrants hvisit) hmapping _ _
  rintro page ⟨directory, heap₁, space₁⟩ hs
  unfold KernelMemory.mapPage
  simp only
  split
  · exact Traced.notes_fault _
  refine (hs.holds.ensure_notes page).bind ?_
  rintro ⟨found, directory₂, heap₂, space₂⟩ -
  cases found with
  | none => exact Traced.notes_pure _
  | some ref =>
      refine (KernelSpace.backEntry_notes (by simp [Event.Unmapped]) _ _).bind fun _ _ => ?_
      exact Traced.notes_pure _

end Granting

end KernelCore
