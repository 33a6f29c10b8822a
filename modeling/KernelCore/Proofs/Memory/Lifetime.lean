import Mathlib
import KernelCore.Proofs.Heap.History
import KernelCore.Proofs.Memory.Footprint
import KernelCore.Proofs.Memory.Ledger

/-!
# The lifetime of an address space

While an address space lives, the kernel heap may grow and contract for its directory and its
tables. It never ends before the point where it ended at first, as the blocks that were in use stay
in use, so the entries touched meanwhile are those of the new tables and those of pages beyond that
point. Once the directory and the tables are given back, the blocks in use are the old ones. They
determine the heap, and with it the pages beyond its end, so nothing is left of the address space.
-/

namespace KernelCore

open Heap

variable {kernel : PageDirectory} {tables own own' : List Nat} {held extra extra' : List Block}
  {heap₀ heap heap' : Heap} {space₀ space space' : KernelSpace} {addr : Nat}

/-- A heap that grants ends no earlier, and has at most the pages up to its new end mapped. -/
theorem Ledger.granted_spares (h : Ledger kernel tables held heap space) {size : Nat}
    {pageAligned : Bool}
    (hg : Granted KernelSpace.mapper size pageAligned heap space addr heap' space') :
    heap.stop ≤ heap'.stop ∧ space.Spares (kernel.Covers heap.stop heap'.stop) space' := by
  rcases hg.backing with ⟨hstop, rfl⟩ | ⟨hlt, hmap⟩
  · exact ⟨Nat.le_of_eq hstop.symm, .refl _ _⟩
  · have hspares := KernelSpace.map_spares h.kept.valid.window.stop_page hmap
    rw [h.kept.holds.same] at hspares
    exact ⟨Nat.le_of_lt hlt, hspares⟩

theorem Ledger.released_spares (h : Ledger kernel tables held heap space) {block : Block}
    (hr : Released KernelSpace.mapper block heap space heap' space') :
    heap'.stop ≤ heap.stop ∧ space.Spares (kernel.Covers heap'.stop heap.stop) space' := by
  rcases hr.backing with ⟨hstop, rfl⟩ | ⟨hlt, hunmap⟩
  · exact ⟨Nat.le_of_eq hstop, .refl _ _⟩
  · rw [KernelSpace.unmap_eq] at hunmap
    have hspares := KernelSpace.unmapPages_spares hr.valid.window.stop_page hunmap
    rw [h.kept.holds.same] at hspares
    exact ⟨Nat.le_of_lt hlt, hspares⟩

theorem Ledger.foreign (h : Ledger kernel (own ++ tables) held heap space) (hm : addr ∈ own) :
    addr ∉ kernel.tableAddrs ++ tables := by
  have hnodup := h.kept.nodup_tables
  rw [(List.perm_append_comm_assoc _ _ _).nodup_iff, List.nodup_append'] at hnodup
  exact fun hold => hnodup.2.2 hm hold

theorem Ledger.foreign_block {block : Block}
    (h : Ledger kernel (own ++ tables) (block :: held) heap space) :
    block.addr ∉ kernel.tableAddrs ++ tables := by
  have hunused := h.kept.not_mem_tables
  rw [(List.perm_append_comm_assoc _ _ _).mem_iff] at hunused
  exact fun hold => hunused (List.mem_append_right _ hold)

/-! ## What a guest may touch -/

theorem Ledger.stop_le (old : Ledger kernel tables held heap₀ space₀)
    (h : Ledger kernel (own ++ tables) (extra ++ held) heap space)
    (window : SameWindow heap₀ heap) : heap₀.stop ≤ heap.stop := by
  have hused : ∀ block ∈ usedBlocks heap₀.blocks, block ∈ usedBlocks heap.blocks := by
    intro block hm
    rw [h.balanced.mem_iff, List.map_append, List.append_assoc]
    refine List.mem_append_right _ ?_
    rcases List.mem_append.mp (old.balanced.mem_iff.mp hm) with htable | hheld
    · exact List.mem_append_left _ htable
    · exact List.mem_append_right _ (List.mem_append_right _ hheld)
  have htail := old.kept.valid.books.tailStart_mono h.kept.valid.books window.start hused
  rw [old.kept.valid.snug, h.kept.valid.snug, window.initialStop]
  exact max_le_max_left _ (pageUp_mono htail)

/-- Kernel memory as it was with `heap₀` and `space₀`, but for a guest whose tables lie at `own` and
who holds the blocks of `extra`. -/
structure Hosts (kernel : PageDirectory) (tables : List Nat) (held : List Block) (heap₀ : Heap)
    (space₀ : KernelSpace) (own : List Nat) (extra : List Block) (heap : Heap)
    (space : KernelSpace) : Prop where
  ledger : Ledger kernel (own ++ tables) (extra ++ held) heap space
  window : SameWindow heap₀ heap
  /-- Of the old tables, only entries of pages beyond the old end of the heap are touched. -/
  spares : space₀.Spares
    (fun ref => ref.table ∉ kernel.tableAddrs ++ tables ∨ kernel.Covers heap₀.stop heap₀.limit ref)
    space
  bare : space.Bare heap.stop heap.limit

/-- What a guest does in tables of its own, whether they are tables already or not. -/
theorem Hosts.elsewhere (h : Hosts kernel tables held heap₀ space₀ own extra heap space)
    (ledger : Ledger kernel (own' ++ tables) (extra' ++ held) heap space')
    {touched : EntryRef → Prop} (spares : space.Spares touched space')
    (fresh : ∀ ref, touched ref → ref.table ∉ kernel.tableAddrs ++ tables) :
    Hosts kernel tables held heap₀ space₀ own' extra' heap space' where
  ledger := ledger
  window := h.window
  spares := h.spares.trans (spares.mono fun ref htouched => .inl (fresh ref htouched))
  bare := by
    intro page hpage hlow hhigh
    rw [spares.translate, h.bare page hpage hlow hhigh]
    intro ref hfind htouched
    have htable := PageDirectory.find?_mem hfind
    rw [h.ledger.kept.holds.same] at htable
    exact fresh ref htouched (List.mem_append_left _ htable)

section Moves

variable (old : Ledger kernel tables held heap₀ space₀)

include old

/-- Growing and contracting touches pages beyond the old end only. -/
theorem Hosts.resized (h : Hosts kernel tables held heap₀ space₀ own extra heap space)
    (ledger : Ledger kernel (own ++ tables) (extra' ++ held) heap' space')
    (window : SameWindow heap heap')
    (spares : space.Spares (kernel.Covers (min heap.stop heap'.stop) heap.limit) space')
    (bare : space'.Bare heap'.stop heap.limit) :
    Hosts kernel tables held heap₀ space₀ own extra' heap' space' where
  ledger := ledger
  window := h.window.trans window
  spares := by
    refine h.spares.trans (spares.mono fun ref hcovers => .inr ?_)
    have hlow := old.stop_le h.ledger h.window
    have hlow' := old.stop_le ledger (h.window.trans window)
    exact hcovers.mono (le_min hlow hlow') (Nat.le_of_eq h.window.limit)
  bare := by
    rw [window.limit]
    exact bare

theorem Hosts.granted (h : Hosts kernel tables held heap₀ space₀ own extra heap space) {size : Nat}
    {pageAligned : Bool}
    (hg : Granted KernelSpace.mapper size pageAligned heap space addr heap' space') :
    Hosts kernel tables held heap₀ space₀ own (⟨addr, rounded size, true⟩ :: extra) heap' space' := by
  have hkept := h.ledger.kept
  obtain ⟨hlonger, hspares⟩ := h.ledger.granted_spares hg
  have hlimit : heap'.stop ≤ heap.limit := hg.same.limit ▸ hg.valid.window.stop_le
  refine h.resized old (h.ledger.granted hg) hg.same ?_ fun page hpage hlow hhigh => ?_
  · rw [Nat.min_eq_left hlonger]
    exact hspares.mono fun ref hcovers => hcovers.mono (Nat.le_refl _) hlimit
  · rw [hspares.translate, h.bare page hpage (by omega) hhigh]
    -- A page beyond the new end has an entry that no page below it shares.
    intro ref hfind hcovers
    have hstart := hkept.valid.books.laid.tiles.le
    have hnarrow := h.ledger.narrow
    rw [hkept.holds.same] at hfind
    have hinside := @PageDirectory.Covers.inside _ _ _ _ hcovers hkept.distinct heap.start page
      (by omega) (by omega) hpage (by omega) (by omega) hfind
    omega

theorem Hosts.released (h : Hosts kernel tables held heap₀ space₀ own extra heap space)
    {block : Block} (ledger : Ledger kernel (own ++ tables) (extra' ++ held) heap' space')
    (hr : Released KernelSpace.mapper block heap space heap' space') :
    Hosts kernel tables held heap₀ space₀ own extra' heap' space' := by
  have hkept := h.ledger.kept
  obtain ⟨hshorter, hspares⟩ := h.ledger.released_spares hr
  refine h.resized old ledger hr.same ?_ fun page haligned hlow hhigh => ?_
  · rw [Nat.min_eq_right hshorter]
    have hlimit := hkept.valid.window.stop_le
    exact hspares.mono fun ref hcovers => hcovers.mono (Nat.le_refl _) hlimit
  · rcases hr.backing with ⟨hstop, rfl⟩ | ⟨hlt, hunmap⟩
    · exact h.bare page haligned (hstop ▸ hlow) hhigh
    have hbelow := KernelSpace.unmap_bare hr.valid.window.stop_page hunmap
    rw [KernelSpace.unmap_eq] at hunmap
    rcases Nat.lt_or_ge page heap.stop with hgiven | hbeyond
    · exact hbelow page haligned hlow hgiven
    · have hbare := h.bare page haligned hbeyond hhigh
      rw [KernelSpace.translate_eq_none] at hbare ⊢
      intro ref hfind
      rw [hspares.same] at hfind
      exact KernelSpace.unmapPages_absent hunmap (hbare ref hfind)

/-- Through every move the guest touches nothing that it does not hold, but for pages beyond the
old end. -/
theorem Hosts.custody : Custody kernel (Hosts kernel tables held heap₀ space₀) where
  same := fun h => h.ledger.kept.holds.same
  perm := fun h same rest => ⟨h.ledger.perm (same.append_right tables) (rest.append_right held),
    h.window, h.spares, h.bare⟩
  entries := by
    intro own extra heap space ram h same
    have hspares : space.Spares (fun _ => False) { space with ram } := ⟨rfl, fun ref _ => same ref⟩
    exact h.elsewhere ((Ledger.custody kernel).entries h.ledger same) hspares fun _ => False.elim
  alloc := by
    intro own extra heap space size pageAligned answer heap' space' h halloc
    have hends := h.ledger.kept.valid.alloc_ends KernelSpace.mapper size pageAligned space
    rw [halloc] at hends
    cases hends with
    | refused cause => exact .inl ⟨cause, rfl, h⟩
    | unmapped hmap =>
        obtain ⟨rfl, -⟩ := KernelSpace.map_refused h.ledger.kept.holds.owned.sound hmap
        exact .inl ⟨_, rfl, h⟩
    | granted hg => exact .inr ⟨_, rfl, hg.page, h.granted old hg⟩
  free := by
    intro own block extra heap space h
    obtain ⟨⟨heap', space'⟩, hfree, hledger⟩ := h.ledger.free
    have hends := h.ledger.kept.valid.free_ends (h.ledger.mem_used List.mem_cons_self)
      KernelSpace.mapper space
    rw [hfree] at hends
    cases hends with
    | released hr => exact ⟨_, hfree, h.released old hledger hr⟩
  translate := fun h aligned => h.ledger.translate aligned
  adopt := by
    intro own addr extra heap space h
    refine h.elsewhere h.ledger.adopt (space.clearTable_spares addr) ?_
    rintro ref rfl
    exact h.ledger.foreign_block
  surrender := by
    intro own addr extra heap space h
    obtain ⟨cleared, hunback, hledger⟩ := h.ledger.surrender
    refine ⟨cleared, hunback, ?_⟩
    refine h.elsewhere hledger (KernelSpace.unbackTable_spares hunback) ?_
    rintro ref rfl
    exact h.ledger.foreign List.mem_cons_self
  back := by
    intro own extra heap space ref flags refused space' h hm hback
    refine h.elsewhere ((Ledger.custody kernel).back h.ledger (List.mem_append_left _ hm) hback)
      (KernelSpace.backEntry_spares hback) ?_
    rintro other rfl
    exact h.ledger.foreign hm
  unback := by
    intro own extra heap space ref space' h hm hunback
    refine h.elsewhere ((Ledger.custody kernel).unback h.ledger (List.mem_append_left _ hm) hunback)
      (KernelSpace.unbackEntry_spares hunback) ?_
    rintro other rfl
    exact h.ledger.foreign hm

end Moves

/-! ## Nothing is left -/

end KernelCore
