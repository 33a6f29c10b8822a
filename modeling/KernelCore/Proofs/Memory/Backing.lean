import Mathlib
import KernelCore.Proofs.Memory.Tables
import KernelCore.Proofs.Results

/-!
# Mapping and unmapping keep frames owned

Backing a page, unmapping one and clearing a table are exchanges on entries, whichever directory
the page was looked up in. So the kernel's mapper keeps frames owned over any set of tables that
contains the kernel's, whether it maps a whole range, part of it or nothing.
-/

namespace KernelCore

namespace KernelSpace

/-- The kernel's directory is the given one, and frames are owned over the given tables. -/
structure Holds (directory : PageDirectory) (tables : List Nat) (space : KernelSpace) : Prop where
  same : space.directory = directory
  owned : Owned tables space.ram space.frames

variable {directory : PageDirectory} {tables : List Nat} {space space' : KernelSpace}

/-! ## Single pages -/

theorem Holds.backEntry (h : space.Holds directory tables) {ref : EntryRef}
    (hm : ref.table ∈ tables) {flags : HeapFlags} {refused : Option PagingError}
    (hback : (space.backEntry ref flags).result = .ok (refused, space')) :
    space'.Holds directory tables := by
  unfold KernelSpace.backEntry at hback
  rw [Traced.result_bind] at hback
  obtain ⟨⟨refused', entry, frames⟩, hexchange, hback⟩ := bind_eq_ok hback
  obtain ⟨-, rfl⟩ := Prod.mk.injEq .. ▸ Except.ok.inj hback
  obtain ⟨hsound, hx⟩ := h.owned.sound.back hexchange
  exact ⟨h.same, h.owned.exchange hm hsound hx⟩

theorem Holds.unbackEntry (h : space.Holds directory tables) {ref : EntryRef}
    (hm : ref.table ∈ tables) (hunback : space.unbackEntry ref = .ok space') :
    space'.Holds directory tables := by
  unfold KernelSpace.unbackEntry at hunback
  obtain ⟨⟨entry, frames⟩, hexchange, hunback⟩ := bind_eq_ok hunback
  obtain rfl := Except.ok.inj hunback
  obtain ⟨hsound, hx, -⟩ := h.owned.sound.unback hexchange
  exact ⟨h.same, h.owned.exchange hm hsound hx⟩

theorem Holds.unbackPage (h : space.Holds directory tables) {lookup : PageDirectory}
    (inside : lookup.tableAddrs ⊆ tables) {page : Nat}
    (hunback : space.unbackPage lookup page = .ok space') : space'.Holds directory tables := by
  unfold KernelSpace.unbackPage at hunback
  split at hunback
  · next ref hfind => exact h.unbackEntry (inside (PageDirectory.find?_mem hfind)) hunback
  · obtain rfl := Except.ok.inj hunback
    exact h

theorem Holds.exists_unbackPage (h : space.Holds directory tables) {lookup : PageDirectory}
    (inside : lookup.tableAddrs ⊆ tables) (page : Nat) :
    ∃ space', space.unbackPage lookup page = .ok space' := by
  unfold KernelSpace.unbackPage
  cases hfind : lookup.find? page with
  | none => exact ⟨space, rfl⟩
  | some ref =>
      have hm : ref.table ∈ tables := inside (PageDirectory.find?_mem hfind)
      obtain ⟨entry, frames, hunback, -⟩ :=
        FramePool.exists_unback fun _ howns => h.owned.known hm howns
      refine ⟨{ space with ram := space.ram.setEntry ref entry, frames }, ?_⟩
      simp only [KernelSpace.unbackEntry, hunback, ok_bind, pure_eq_ok]

/-! ## Ranges -/

theorem Holds.unmapPages (h : space.Holds directory tables) {lookup : PageDirectory}
    (inside : lookup.tableAddrs ⊆ tables) {count start : Nat}
    (hunmap : (Traced.sweepAll pageSize (fun page space => space.unbackPage lookup page) count start
      space).result = .ok space') : space'.Holds directory tables :=
  Traced.sweepAll_preserves (P := fun space => space.Holds directory tables)
    (fun _ _ _ hs hvisit => hs.unbackPage inside hvisit) h hunmap

theorem Holds.backPage (h : space.Holds directory tables) (inside : directory.tableAddrs ⊆ tables)
    {flags : HeapFlags} {page : Nat} {refused : Option PagingError}
    (hback : (KernelSpace.backPage flags page space).result = .ok (refused, space')) :
    space'.Holds directory tables := by
  unfold KernelSpace.backPage at hback
  split at hback
  · next ref hfind =>
      rw [h.same] at hfind
      exact h.backEntry (inside (PageDirectory.find?_mem hfind)) hback
  · obtain ⟨-, rfl⟩ := Prod.mk.injEq .. ▸ Except.ok.inj hback
    exact h

theorem Holds.map (h : space.Holds directory tables) (inside : directory.tableAddrs ⊆ tables)
    {start stop : Nat} {flags : HeapFlags} {refused : Option PagingError}
    (hmap : (mapper.map start stop flags space).result = .ok (refused, space')) :
    space'.Holds directory tables := by
  change (space.mapRegion start stop flags).result = _ at hmap
  unfold mapRegion at hmap
  cases hmissing : space.countMissing (pageCount start stop) start 0 with
  | error cause =>
      simp only [hmissing] at hmap
      obtain ⟨-, rfl⟩ := Prod.mk.injEq .. ▸ Except.ok.inj hmap
      exact h
  | ok missing =>
      simp only [hmissing] at hmap
      split at hmap
      · obtain ⟨-, rfl⟩ := Prod.mk.injEq .. ▸ Except.ok.inj hmap
        exact h
      · exact Traced.sweep_preserves (P := fun space => space.Holds directory tables)
          (fun _ _ _ _ hs hvisit => hs.backPage inside hvisit) h hmap

theorem Holds.unmap (h : space.Holds directory tables) (inside : directory.tableAddrs ⊆ tables)
    {start stop : Nat} (hunmap : (mapper.unmap start stop space).result = .ok space') :
    space'.Holds directory tables := by
  exact Traced.sweepAll_preserves (P := fun space => space.Holds directory tables)
    (fun _ _ _ hs hvisit => hs.unbackPage (hs.same.symm ▸ inside) hvisit) h hunmap

theorem Holds.exists_unmap (h : space.Holds directory tables)
    (inside : directory.tableAddrs ⊆ tables) (start stop : Nat) :
    ∃ space', (mapper.unmap start stop space).result = .ok space' := by
  apply Traced.exists_sweepAll (P := fun space => space.Holds directory tables) _ h
  intro page s hs
  have hlookup : s.directory.tableAddrs ⊆ tables := hs.same.symm ▸ inside
  obtain ⟨t, hunback⟩ := hs.exists_unbackPage hlookup page
  exact ⟨t, hunback, hs.unbackPage hlookup hunback⟩

/-! ## Tables -/

theorem Holds.exists_unbackTable (h : space.Holds directory tables) {table : Nat}
    (hm : table ∈ tables) : ∃ space', space.unbackTable table = .ok space' := by
  obtain ⟨frames, hfold⟩ := h.owned.exists_clear hm
  refine ⟨{ space with ram := space.ram.setTable table (space.ram.table table).cleared, frames }, ?_⟩
  simp only [KernelSpace.unbackTable, hfold]
  rfl

theorem Holds.unbackTable (h : space.Holds directory tables) {table : Nat} (hm : table ∈ tables)
    (hunback : space.unbackTable table = .ok space') :
    space'.Holds directory tables ∧
      ∀ index, (space'.ram.entry ⟨table, index⟩).present = false := by
  unfold KernelSpace.unbackTable at hunback
  obtain ⟨frames, hfold, hunback⟩ := bind_eq_ok hunback
  obtain rfl := Except.ok.inj hunback
  obtain ⟨howned, habsent⟩ := h.owned.clear hm hfold
  exact ⟨⟨h.same, howned⟩, habsent⟩

end KernelSpace

end KernelCore
