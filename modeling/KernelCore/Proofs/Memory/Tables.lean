import Mathlib
import KernelCore.Memory.Basic
import KernelCore.Proofs.Frames.Ownership

/-!
# The tables of a directory

Where the tables of a directory lie, all of them and those it does not borrow, and how both lists
change when a table is put into an empty slot.
-/

namespace KernelCore

theorem filterMap_set_perm {α β : Type} {f : Option α → Option β} {x : α} {y : β}
    (none_eq : f none = none) (some_eq : f (some x) = some y) {xs : List (Option α)} {i : Nat}
    (empty : xs[i]? = some none) :
    ((xs.set i (some x)).filterMap f).Perm (y :: xs.filterMap f) := by
  induction xs generalizing i with
  | nil => simp at empty
  | cons first rest ih =>
      cases i with
      | zero =>
          obtain rfl : first = none := by simpa using empty
          rw [List.set_cons_zero, List.filterMap_cons_some some_eq,
            List.filterMap_cons_none none_eq]
      | succ i =>
          have hrest := ih (i := i) (by simpa using empty)
          rw [List.set_cons_succ]
          cases hfirst : f first with
          | none =>
              rw [List.filterMap_cons_none hfirst, List.filterMap_cons_none hfirst]
              exact hrest
          | some z =>
              rw [List.filterMap_cons_some hfirst, List.filterMap_cons_some hfirst]
              exact (hrest.cons z).trans (.swap y z _)

/-- Places of a list that give one result are the same place, if the results are distinct. -/
theorem eq_of_nodup_filterMap {n : Nat} {β : Type} {f : Fin n → Option β}
    (distinct : ((List.finRange n).filterMap f).Nodup) {i j : Fin n} {x : β} (hi : f i = some x)
    (hj : f j = some x) : i = j := by
  let apart (i j : Fin n) : Prop := ∀ y, f i = some y → ∀ z, f j = some z → y ≠ z
  have hapart : (List.finRange n).Pairwise apart := List.pairwise_filterMap.mp distinct
  have : Std.Symm apart := ⟨fun _ _ h y hy z hz => (h z hz y hy).symm⟩
  by_contra hdiffers
  exact hapart.forall (List.mem_finRange i) (List.mem_finRange j) hdiffers x hi x hj rfl

namespace PageDirectory

def tableAddrs (directory : PageDirectory) : List Nat := directory.tables.map (·.2.table)

def ownAddrs (directory : PageDirectory) : List Nat := directory.ownTables.map (·.table)

variable {directory : PageDirectory} {index : Fin entriesPerTable} {slot : TableRef}

theorem toList_slots (directory : PageDirectory) :
    directory.slots.toList = (List.finRange entriesPerTable).map fun index =>
      directory.slots.get index := by
  refine List.ext_getElem (by simp) fun i hi hi' => ?_
  simp only [Vector.getElem_toList, List.getElem_map, List.getElem_finRange]
  rfl

theorem tableAddrs_eq (directory : PageDirectory) :
    directory.tableAddrs = directory.slots.toList.filterMap (Option.map (·.table)) := by
  rw [tableAddrs, tables, List.map_filterMap, toList_slots, List.filterMap_map]
  refine List.filterMap_congr fun index _ => ?_
  simp [Function.comp_def]

theorem ownAddrs_eq (directory : PageDirectory) :
    directory.ownAddrs =
      directory.slots.toList.filterMap fun slot => (slot.filter (!·.linked)).map (·.table) := by
  rw [ownAddrs, ownTables, List.map_filterMap]

theorem mem_tableAddrs {table : Nat} :
    table ∈ directory.tableAddrs ↔
      ∃ (index : Fin entriesPerTable) (slot : TableRef),
        directory.slots.get index = some slot ∧ slot.table = table := by
  rw [tableAddrs_eq, toList_slots, List.mem_filterMap]
  simp

theorem mem_ownAddrs {table : Nat} :
    table ∈ directory.ownAddrs ↔
      ∃ (index : Fin entriesPerTable) (slot : TableRef),
        directory.slots.get index = some slot ∧ slot.linked = false ∧ slot.table = table := by
  rw [ownAddrs_eq, toList_slots, List.mem_filterMap]
  simp [Option.map_eq_some_iff, Option.filter_eq_some_iff, and_assoc]

@[simp] theorem tableAddrs_empty (phys : Nat) : (empty phys).tableAddrs = [] := by
  rw [List.eq_nil_iff_forall_not_mem]
  intro table hm
  obtain ⟨index, slot, hslot, -⟩ := mem_tableAddrs.mp hm
  simp at hslot

theorem find?_eq_some {virt : Nat} {ref : EntryRef} (h : directory.find? virt = some ref) :
    ∃ slot, directory.slots.get (tableIndex virt) = some slot ∧
      ref = ⟨slot.table, pageIndex virt⟩ := by
  obtain ⟨slot, hslot, rfl⟩ := Option.map_eq_some_iff.mp h
  exact ⟨slot, hslot, rfl⟩

theorem find?_mem {virt : Nat} {ref : EntryRef} (h : directory.find? virt = some ref) :
    ref.table ∈ directory.tableAddrs := by
  obtain ⟨slot, hslot, rfl⟩ := find?_eq_some h
  exact mem_tableAddrs.mpr ⟨_, slot, hslot, rfl⟩

theorem find?_eq_none {virt : Nat} (h : directory.find? virt = none) :
    directory.slots.get (tableIndex virt) = none :=
  Option.map_eq_none_iff.mp h

theorem nodup_tableAddrs
    (distinct : ∀ (i j : Fin entriesPerTable) (a b : TableRef), directory.slots.get i = some a →
      directory.slots.get j = some b → a.table = b.table → i = j) : directory.tableAddrs.Nodup := by
  rw [tableAddrs_eq, toList_slots, List.filterMap_map]
  refine (List.nodup_finRange _).filterMap fun i j table hi hj => ?_
  obtain ⟨a, ha, rfl⟩ := Option.map_eq_some_iff.mp hi
  obtain ⟨b, hb, hsame⟩ := Option.map_eq_some_iff.mp hj
  exact distinct i j a b ha hb hsame.symm

theorem index_unique (distinct : directory.tableAddrs.Nodup) {i j : Fin entriesPerTable}
    {a b : TableRef} (ha : directory.slots.get i = some a) (hb : directory.slots.get j = some b)
    (same : a.table = b.table) : i = j := by
  rw [tableAddrs_eq, toList_slots, List.filterMap_map] at distinct
  apply eq_of_nodup_filterMap distinct (x := a.table)
  · rw [Function.comp_apply, ha, Option.map_some]
  · rw [Function.comp_apply, hb, Option.map_some, same]

theorem own_index_unique (distinct : directory.ownAddrs.Nodup) {i j : Fin entriesPerTable}
    {a b : TableRef} (ha : directory.slots.get i = some a) (hb : directory.slots.get j = some b)
    (own_a : a.linked = false) (own_b : b.linked = false) (same : a.table = b.table) : i = j := by
  rw [ownAddrs_eq, toList_slots, List.filterMap_map] at distinct
  apply eq_of_nodup_filterMap distinct (x := a.table)
  · simp [ha, own_a]
  · simp [hb, own_b, same]

/-- Addresses with one entry have the same indices. -/
theorem find?_unique (distinct : directory.tableAddrs.Nodup) {a b : Nat} {ref : EntryRef}
    (ha : directory.find? a = some ref) (hb : directory.find? b = some ref) :
    tableIndex a = tableIndex b ∧ pageIndex a = pageIndex b := by
  obtain ⟨x, hx, rfl⟩ := find?_eq_some ha
  obtain ⟨y, hy, hsame⟩ := find?_eq_some hb
  obtain ⟨htable, hindex⟩ := EntryRef.mk.inj hsame
  exact ⟨index_unique distinct hx hy htable, hindex⟩

/-! ## Filling a slot -/

theorem toList_setSlot (directory : PageDirectory) (index : Fin entriesPerTable)
    (slot : Option TableRef) :
    (directory.setSlot index slot).slots.toList = directory.slots.toList.set index slot := by
  simp [setSlot, Vector.toList_set]

theorem getElem?_toList_slots (directory : PageDirectory) (index : Fin entriesPerTable) :
    directory.slots.toList[index.val]? = some (directory.slots.get index) := by
  simp [toList_slots]

theorem slots_setSlot_eq_some {other : Fin entriesPerTable} {found : TableRef}
    (h : (directory.setSlot index (some slot)).slots.get other = some found) :
    other = index ∧ found = slot ∨ directory.slots.get other = some found := by
  rw [slots_setSlot] at h
  split at h
  · next heq => exact .inl ⟨heq.symm, (Option.some.inj h).symm⟩
  · exact .inr h

theorem tableAddrs_setSlot (slot : TableRef) (empty : directory.slots.get index = none) :
    (directory.setSlot index (some slot)).tableAddrs.Perm (slot.table :: directory.tableAddrs) := by
  rw [tableAddrs_eq, tableAddrs_eq, toList_setSlot]
  exact filterMap_set_perm (f := Option.map TableRef.table) rfl rfl
    (by rw [getElem?_toList_slots, empty])

theorem ownAddrs_setSlot (empty : directory.slots.get index = none) (own : slot.linked = false) :
    (directory.setSlot index (some slot)).ownAddrs.Perm (slot.table :: directory.ownAddrs) := by
  have hkept : (some slot).filter (!·.linked) = some slot := by simp [own]
  rw [ownAddrs_eq, ownAddrs_eq, toList_setSlot]
  exact filterMap_set_perm (f := fun slot => (slot.filter (!·.linked)).map TableRef.table) rfl
    (by rw [hkept]; rfl) (by rw [getElem?_toList_slots, empty])

/-! ## Borrowing -/

theorem slots_link_empty {phys : Nat} {kernel : PageDirectory}
    (h : ((empty phys).link kernel).slots.get index = some slot) :
    slot.linked = true ∧ slot.table ∈ kernel.tableAddrs := by
  rw [slots_link] at h
  unfold borrow at h
  split at h
  · next lent hlent =>
      obtain rfl := Option.some.inj h
      exact ⟨rfl, mem_tableAddrs.mpr ⟨index, lent, hlent, rfl⟩⟩
  · simp at h

theorem ownAddrs_link_empty (phys : Nat) (kernel : PageDirectory) :
    ((empty phys).link kernel).ownAddrs = [] := by
  rw [List.eq_nil_iff_forall_not_mem]
  intro table hm
  obtain ⟨index, slot, hslot, hown, -⟩ := mem_ownAddrs.mp hm
  rw [(slots_link_empty hslot).1] at hown
  contradiction

end PageDirectory

end KernelCore
