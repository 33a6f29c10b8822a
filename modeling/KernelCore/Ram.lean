import KernelCore.Paging.Entry
import KernelCore.Registers

/-!
# Memory contents

Of the kernel's memory only two kinds of content are ever read back: page tables, by the
address they start at, and register frames saved on stacks. Taking a range of memory over, for
another frame, a table or a directory, destroys the register frames that the range touches;
what is written later stays inside that range. `entry_setEntry` and
`frameAt?_saveFrame_self` say what is read after a write.

Contents go by the address they were written at, whatever frame backs the page there. So only
writes change them: a change of page entries does not.
-/

namespace KernelCore

abbrev PageTable := Vector PageEntry entriesPerTable

namespace PageTable

def empty : PageTable := Vector.replicate entriesPerTable .empty

/-- The table without its present entries. -/
def cleared (table : PageTable) : PageTable :=
  let entries := table.toList.map fun entry => if entry.present then .empty else entry
  ⟨entries.toArray, by simp [entries]⟩

@[simp] theorem getElem_empty (index : Fin entriesPerTable) : empty[index] = .empty := by
  simp [empty]

@[simp] theorem getElem_cleared (table : PageTable) (index : Fin entriesPerTable) :
    table.cleared[index] = if table[index].present then .empty else table[index] := by
  simp [cleared]

end PageTable

/-- Which entry of which table: the table's address and the place in it. -/
structure EntryRef where
  table : Nat
  index : Fin entriesPerTable
deriving DecidableEq, Repr

structure SavedFrame where
  addr : Nat
  registers : Registers
deriving DecidableEq, Repr

namespace SavedFrame

/-- Whether the frame shares a byte with the `size` bytes at `addr`. -/
def touches (frame : SavedFrame) (addr size : Nat) : Bool :=
  frame.addr < addr + size && addr < frame.addr + Registers.userFrameBytes

end SavedFrame

/-- Contents of memory by address. Which frame backs a page stands in the tables, and has no part in
what is read there. -/
structure Ram where
  /-- The page tables written so far, with their addresses. -/
  tables : List (Nat × PageTable)
  saved : List SavedFrame
deriving DecidableEq

namespace Ram

def empty : Ram := ⟨[], []⟩

/-! ## Page tables -/

/-- The table at an address; memory that was never written holds an empty one. -/
def tableAt (addr : Nat) : List (Nat × PageTable) → PageTable
  | [] => .empty
  | (key, table) :: rest => if key = addr then table else tableAt addr rest

def changeAt (addr : Nat) (change : PageTable → PageTable) :
    List (Nat × PageTable) → List (Nat × PageTable)
  | [] => [(addr, change .empty)]
  | (key, table) :: rest =>
      if key = addr then (key, change table) :: rest else (key, table) :: changeAt addr change rest

def table (ram : Ram) (addr : Nat) : PageTable := tableAt addr ram.tables

def entry (ram : Ram) (ref : EntryRef) : PageEntry := (ram.table ref.table)[ref.index]

def setTable (ram : Ram) (addr : Nat) (table : PageTable) : Ram :=
  { ram with tables := changeAt addr (fun _ => table) ram.tables }

def setEntry (ram : Ram) (ref : EntryRef) (entry : PageEntry) : Ram :=
  { ram with tables := changeAt ref.table (·.set ref.index entry) ram.tables }

/-! ## Register frames -/

/-- Forgets the register frames that share a byte with the `size` bytes at `addr`. -/
def overwrite (ram : Ram) (addr size : Nat) : Ram :=
  { ram with saved := ram.saved.filter fun frame => !frame.touches addr size }

/-- Writes a register frame. -/
def saveFrame (ram : Ram) (addr : Nat) (registers : Registers) : Ram :=
  let ram := ram.overwrite addr Registers.userFrameBytes
  { ram with saved := ⟨addr, registers⟩ :: ram.saved }

/-- The register frame at an address, if it is as it was saved. -/
def frameAt? (ram : Ram) (addr : Nat) : Option Registers :=
  (ram.saved.find? (·.addr == addr)).map (·.registers)

def clearTable (ram : Ram) (addr : Nat) : Ram :=
  (ram.overwrite addr tableBytes).setTable addr .empty

/-! ## What is read after a write -/

theorem tableAt_changeAt (addr other : Nat) (change : PageTable → PageTable)
    (tables : List (Nat × PageTable)) :
    tableAt other (changeAt addr change tables) =
      if addr = other then change (tableAt other tables) else tableAt other tables := by
  induction tables with
  | nil => simp [changeAt, tableAt]
  | cons first rest ih =>
      obtain ⟨key, table⟩ := first
      by_cases here : key = addr
      · by_cases same : addr = other <;> simp [changeAt, tableAt, here, same]
      · by_cases there : key = other
        · subst there
          simp [changeAt, tableAt, here, Ne.symm here]
        · simp [changeAt, tableAt, here, there, ih]

theorem entry_setEntry (ram : Ram) (written read : EntryRef) (entry : PageEntry) :
    (ram.setEntry written entry).entry read =
      if written = read then entry else ram.entry read := by
  obtain ⟨addr, index⟩ := written
  obtain ⟨addr', index'⟩ := read
  by_cases same : addr = addr'
  · subst same
    simp [Ram.entry, setEntry, Ram.table, tableAt_changeAt, Vector.getElem_set, Fin.ext_iff]
  · simp [Ram.entry, setEntry, Ram.table, tableAt_changeAt, same]

theorem entry_setTable (ram : Ram) (addr : Nat) (table : PageTable) (ref : EntryRef) :
    (ram.setTable addr table).entry ref =
      if addr = ref.table then table[ref.index] else ram.entry ref := by
  by_cases same : addr = ref.table
  · simp [Ram.entry, setTable, Ram.table, tableAt_changeAt, same]
  · simp [Ram.entry, setTable, Ram.table, tableAt_changeAt, same]

@[simp] theorem saved_setEntry (ram : Ram) (ref : EntryRef) (entry : PageEntry) :
    (ram.setEntry ref entry).saved = ram.saved := rfl

@[simp] theorem frameAt?_saveFrame_self (ram : Ram) (addr : Nat) (registers : Registers) :
    (ram.saveFrame addr registers).frameAt? addr = some registers := by
  simp [saveFrame, frameAt?]

end Ram

end KernelCore
