import KernelCore.Ram
import KernelCore.Traced

/-!
# Page directories

A directory holds 1024 slots, each empty or naming the page table that covers its 4 MiB. The
tables themselves lie in memory, so directories that name the same table see each other's
entries. A linked slot borrows its table from the kernel directory.
-/

namespace KernelCore

/-- A directory slot that names a table. -/
structure TableRef where
  /-- Address of the table. -/
  table : Nat
  /-- Where the hardware sees the table. -/
  phys : Nat
  /-- Whether the table is borrowed. -/
  linked : Bool
deriving DecidableEq, Repr

/-- Where new page tables come from: it grants zeroed memory for one, or refuses. -/
structure TableSource (σ : Type) where
  grant : σ → Traced (Except PagingError TableRef × σ)

def TableSource.refusing {σ : Type} (cause : PagingError) : TableSource σ :=
  ⟨fun s => pure (.error cause, s)⟩

/-- What the hardware reads of a slot and the table that the kernel goes to are kept in one vector, not
in two side by side. They are set and emptied together, so a slot that is marked as borrowed has a
table by construction. -/
structure PageDirectory where
  /-- Where the hardware sees the directory. -/
  phys : Nat
  slots : Vector (Option TableRef) entriesPerTable
deriving DecidableEq

namespace PageDirectory

variable {σ : Type}

def empty (phys : Nat) : PageDirectory := ⟨phys, Vector.replicate entriesPerTable none⟩

/-- Builds an empty directory in the memory at `addr`. -/
def place (addr phys : Nat) (ram : Ram) : Except Fault (PageDirectory × Ram) :=
  if addr % pageSize = 0 then .ok (empty phys, ram.overwrite addr directoryBytes)
  else .error (.unalignedDirectory (addr % pageSize))

/-! ## Reading -/

/-- The entry that covers `virt`, if there is a table for it. -/
def find? (directory : PageDirectory) (virt : Nat) : Option EntryRef :=
  (directory.slots.get (tableIndex virt)).map fun slot => ⟨slot.table, pageIndex virt⟩

def translate (directory : PageDirectory) (ram : Ram) (virt : Nat) : Option Nat :=
  match directory.find? virt with
  | none => none
  | some ref =>
      let entry := ram.entry ref
      if entry.present then some (entry.frame + virt % pageSize) else none

def slot (directory : PageDirectory) (index : Nat) : Except Fault (Option TableRef) :=
  if inside : index < entriesPerTable then .ok (directory.slots.get ⟨index, inside⟩)
  else .error (.indexOutOfBounds entriesPerTable index)

def hasTable (directory : PageDirectory) (index : Nat) : Except Fault Bool :=
  return (← directory.slot index).isSome

def isLinked (directory : PageDirectory) (index : Nat) : Except Fault Bool :=
  return (← directory.slot index).any (·.linked)

def tables (directory : PageDirectory) : List (Nat × TableRef) :=
  (List.finRange entriesPerTable).filterMap fun index =>
    (directory.slots.get index).map fun slot => (index.val, slot)

/-- The tables that the directory does not borrow, in order. -/
def ownTables (directory : PageDirectory) : List TableRef :=
  directory.slots.toList.filterMap (Option.filter (!·.linked))

/-! ## Changing -/

def setSlot (directory : PageDirectory) (index : Fin entriesPerTable) (slot : Option TableRef) :
    PageDirectory :=
  { directory with slots := directory.slots.set index slot index.isLt }

/-- The entry that covers `virt`; a missing table is taken from `source`, which may refuse. -/
def ensure (source : TableSource σ) (virt : Nat) (directory : PageDirectory) (s : σ) :
    Traced (Option EntryRef × PageDirectory × σ) := do
  match directory.find? virt with
  | some ref => return (some ref, directory, s)
  | none =>
      match ← source.grant s with
      | (.ok slot, s) =>
          return (some ⟨slot.table, pageIndex virt⟩,
            directory.setSlot (tableIndex virt) (some slot), s)
      | (.error cause, s) =>
          Traced.note (.tableNotCreated virt cause)
          return (none, directory, s)

/-- A slot after borrowing: the lent table, if there is one. -/
def borrow (own lent : Option TableRef) : Option TableRef :=
  match lent with
  | some slot => some { slot with linked := true }
  | none => own

def link (directory kernel : PageDirectory) : PageDirectory :=
  let slots := List.zipWith borrow directory.slots.toList kernel.slots.toList
  { directory with slots := ⟨slots.toArray, by simp [slots]⟩ }

/-- Empties a slot and hands out its table, unless the table was only borrowed. -/
def takeTable (directory : PageDirectory) (index : Nat) :
    Except Fault (Option TableRef × PageDirectory) :=
  if inside : index < entriesPerTable then
    let slot := directory.slots.get ⟨index, inside⟩
    .ok (slot.filter (!·.linked), directory.setSlot ⟨index, inside⟩ none)
  else .error (.indexOutOfBounds entriesPerTable index)

/-! ## What is found after a change -/

@[simp] theorem slots_empty (phys : Nat) (index : Fin entriesPerTable) :
    (empty phys).slots.get index = none := by
  simp [empty, Vector.get]

@[simp] theorem slots_setSlot (directory : PageDirectory) (index other : Fin entriesPerTable)
    (slot : Option TableRef) :
    (directory.setSlot index slot).slots.get other =
      if index = other then slot else directory.slots.get other := by
  change (directory.slots.set index slot index.isLt)[other.val] = _
  rw [Vector.getElem_set]
  simp only [Fin.ext_iff]
  rfl

@[simp] theorem slots_link (directory kernel : PageDirectory) (index : Fin entriesPerTable) :
    (directory.link kernel).slots.get index =
      borrow (directory.slots.get index) (kernel.slots.get index) := by
  change (directory.link kernel).slots[index.val] =
    borrow directory.slots[index.val] kernel.slots[index.val]
  simp [link]

end PageDirectory

end KernelCore
