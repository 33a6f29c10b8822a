import Mathlib
import KernelCore.Proofs.Memory.Boot
import KernelCore.Proofs.Paging.Traces

/-!
# Directories that share tables

Any number of directories, to begin with empty, in one memory, with calls on them in any order and
with new tables from any source. Each directory answers as its calls have it, `translation`, if the
tables that the source grants are zeroed and not in use.
-/

namespace KernelCore

/-- Directories named by `ι`, the memory with their tables, and what new tables are taken from. -/
structure Directories (ι τ : Type) where
  directory : ι → PageDirectory
  pool : τ
  ram : Ram

namespace Directories

variable {ι τ : Type}

/-! ## Where tables come from -/

def Names (s : Directories ι τ) (table : Nat) : Prop :=
  ∃ d, table ∈ (s.directory d).tableAddrs

/-- A source that is asked once grants a zeroed table that no directory names, or refuses, and it
leaves the tables alone that are named. -/
structure Supplies (source : TableSource (τ × Ram)) (s : Directories ι τ) : Prop where
  granted : ∀ slot pool ram, (source.grant (s.pool, s.ram)).result = .ok (.ok slot, pool, ram) →
    slot.linked = false ∧ ¬s.Names slot.table ∧ ∀ index, ram.entry ⟨slot.table, index⟩ = .empty
  kept : ∀ answer pool ram, (source.grant (s.pool, s.ram)).result = .ok (answer, pool, ram) →
    ∀ ref, s.Names ref.table → ram.entry ref = s.ram.entry ref

/-- Static memory is such a source, as long as all tables are from behind its cursor. -/
theorem supplies_arena {s : Directories ι Arena}
    (behind : ∀ table, s.Names table → table < s.pool.cursor) : Supplies Arena.tables s := by
  have hnext : ∀ {answer pool ram}, (Arena.tables.grant (s.pool, s.ram)).result =
      .ok (answer, pool, ram) → ∃ addr, ¬s.Names addr ∧ ram = s.ram.clearTable addr ∧
        ∀ slot, answer = .ok slot → slot.table = addr ∧ slot.linked = false := by
    intro answer pool ram hgrant
    obtain ⟨place, hreserve, hram, hanswer⟩ := Arena.grantTable_reserves hgrant
    have hfirst := (Arena.reserve_eq_ok hreserve).1
    refine ⟨place.addr, fun hnames => ?_, hram, fun slot hslot => ?_⟩
    · exact Nat.not_lt.mpr hfirst (behind _ hnames)
    · obtain ⟨-, rfl⟩ | rfl := hanswer
      · cases hslot
      · obtain rfl := Except.ok.inj hslot
        exact ⟨rfl, rfl⟩
  constructor
  · intro slot pool ram hgrant
    obtain ⟨addr, hfresh, rfl, hslot⟩ := hnext hgrant
    obtain ⟨rfl, hown⟩ := hslot slot rfl
    exact ⟨hown, hfresh, fun index => by rw [entry_clearTable, if_pos rfl]⟩
  · intro answer pool ram hgrant ref hnames
    obtain ⟨addr, hfresh, rfl, -⟩ := hnext hgrant
    rw [entry_clearTable, if_neg]
    rintro rfl
    exact hfresh hnames

/-! ## Calls -/

variable [DecidableEq ι]

/-- The states that directories come to, with the calls made so far. A look at a page without leave
to create a table is no call, as it changes nothing. -/
inductive Ran : List (DirectoryCall ι) → Directories ι τ → Prop
  | start (phys : ι → Nat) (pool : τ) (ram : Ram) : Ran [] ⟨fun d => .empty (phys d), pool, ram⟩
  | got {trace : List (DirectoryCall ι)} {s : Directories ι τ} {source : TableSource (τ × Ram)}
      {d : ι} {virt : Nat} {found : Option EntryRef} {directory : PageDirectory} {pool : τ}
      {ram : Ram} :
      Ran trace s → Supplies source s →
      ((s.directory d).ensure source virt (s.pool, s.ram)).result =
        .ok (found, directory, pool, ram) →
      Ran (.got d virt found.isSome :: trace) ⟨Function.update s.directory d directory, pool, ram⟩
  | wrote {trace : List (DirectoryCall ι)} {s : Directories ι τ} {d : ι} {virt : Nat}
      {ref : EntryRef} (entry : PageEntry) :
      Ran trace s → (s.directory d).find? virt = some ref →
      Ran (.wrote d virt entry :: trace) { s with ram := s.ram.setEntry ref entry }
  | linked {trace : List (DirectoryCall ι)} {s : Directories ι τ} (d lender : ι) :
      Ran trace s →
      Ran (.linked d lender :: trace) { s with
        directory := Function.update s.directory d ((s.directory d).link (s.directory lender)) }
  | took {trace : List (DirectoryCall ι)} {s : Directories ι τ} {d : ι}
      {index : Fin entriesPerTable} {found : Option TableRef} {directory : PageDirectory} :
      Ran trace s → (s.directory d).takeTable index.val = .ok (found, directory) →
      Ran (.took d index :: trace) { s with directory := Function.update s.directory d directory }

open DirectoryCall

variable {s : Directories ι τ} {trace : List (DirectoryCall ι)} {place : Nat → Nat}

/-! ## What the slots and the memory hold -/

/-- The directories are as their calls have it, with the table of each serial at `place`. -/
structure Mirrors (place : Nat → Nat) (trace : List (DirectoryCall ι)) (s : Directories ι τ) :
    Prop where
  slots : ∀ d index, ((s.directory d).slots.get index).map (fun slot => (slot.table, slot.linked)) =
    (holding trace d index).map fun held => (place held.serial, held.borrowed)
  /-- Tables that are held lie apart. -/
  apart : ∀ {d index held d' index' held'}, holding trace d index = some held →
    holding trace d' index' = some held' → place held.serial = place held'.serial →
      held.serial = held'.serial
  entries : ∀ {d virt held}, holding trace d (tableIndex virt) = some held →
    s.ram.entry ⟨place held.serial, pageIndex virt⟩ = written trace held.serial (pageNumber virt)

theorem Mirrors.find? (h : Mirrors place trace s) (d : ι) (virt : Nat) :
    (s.directory d).find? virt = (holding trace d (tableIndex virt)).map fun held =>
      ⟨place held.serial, pageIndex virt⟩ := by
  have hslot := congrArg (Option.map fun found => (⟨found.1, pageIndex virt⟩ : EntryRef))
    (h.slots d (tableIndex virt))
  simpa [PageDirectory.find?, Function.comp_def] using hslot

theorem Mirrors.find?_of_holds (h : Mirrors place trace s) {d : ι} {virt serial : Nat}
    (holds : Holds trace d (tableIndex virt) serial) :
    (s.directory d).find? virt = some ⟨place serial, pageIndex virt⟩ := by
  obtain ⟨held, hheld, rfl⟩ := Option.map_eq_some_iff.mp holds
  rw [h.find?, hheld]
  rfl

theorem Mirrors.translates (h : Mirrors place trace s) (d : ι) (virt : Nat) :
    (s.directory d).translate s.ram virt = translation trace d virt := by
  unfold PageDirectory.translate translation
  rw [h.find?]
  cases hheld : holding trace d (tableIndex virt) with
  | none => rfl
  | some held => simp only [Option.map_some, h.entries hheld]

theorem Mirrors.names (h : Mirrors place trace s) {d : ι} {index : Fin entriesPerTable}
    {held : Holding} (holds : holding trace d index = some held) : s.Names (place held.serial) := by
  have hslot := h.slots d index
  rw [holds, Option.map_some, Option.map_eq_some_iff] at hslot
  obtain ⟨slot, hslot, hsame⟩ := hslot
  exact ⟨d, PageDirectory.mem_tableAddrs.mpr ⟨index, slot, hslot, congrArg Prod.fst hsame⟩⟩

theorem mirrors_start (phys : ι → Nat) (pool : τ) (ram : Ram) :
    Mirrors id [] (⟨fun d => .empty (phys d), pool, ram⟩ : Directories ι τ) where
  slots := by simp
  apart := by simp
  entries := by simp

theorem Mirrors.unchanged (h : Mirrors place trace s) {call : DirectoryCall ι}
    (same : ∀ d index, holding (call :: trace) d index = holding trace d index)
    (unwritten : ∀ serial page, written (call :: trace) serial page = written trace serial page)
    {pool : τ} {ram : Ram} (kept : ∀ ref, s.Names ref.table → ram.entry ref = s.ram.entry ref) :
    Mirrors place (call :: trace) { s with pool, ram } where
  slots := by simpa only [same] using h.slots
  apart := by
    intro d index held d' index' held' hheld hheld'
    rw [same] at hheld hheld'
    exact h.apart hheld hheld'
  entries := by
    intro d virt held hheld
    rw [same] at hheld
    rw [unwritten, kept _ (h.names hheld), h.entries hheld]

theorem Mirrors.empty_iff (h : Mirrors place trace s) (d : ι) (index : Fin entriesPerTable) :
    (s.directory d).slots.get index = none ↔ holding trace d index = none := by
  rw [← Option.map_eq_none_iff, h.slots, Option.map_eq_none_iff]

theorem Mirrors.created (h : Mirrors place trace s) {d : ι} {virt : Nat} {slot : TableRef}
    (empty : (s.directory d).slots.get (tableIndex virt) = none) (own : slot.linked = false)
    (fresh : ¬s.Names slot.table) {pool : τ} {ram : Ram}
    (zeroed : ∀ index, ram.entry ⟨slot.table, index⟩ = .empty)
    (kept : ∀ ref, s.Names ref.table → ram.entry ref = s.ram.entry ref) :
    Mirrors (Function.update place trace.length slot.table) (.got d virt true :: trace)
      ⟨Function.update s.directory d
        ((s.directory d).setSlot (tableIndex virt) (some slot)), pool, ram⟩ := by
  have hempty := (h.empty_iff d (tableIndex virt)).mp empty
  have hold : ∀ {d' index held}, holding trace d' index = some held →
      Function.update place trace.length slot.table held.serial = place held.serial :=
    fun hheld => Function.update_of_ne (Nat.ne_of_lt (serial_lt hheld)) _ _
  have hapart : ∀ {d' index held}, holding trace d' index = some held →
      place held.serial ≠ slot.table := fun hheld hsame => fresh (hsame ▸ h.names hheld)
  refine ⟨fun d' index => ?_, ?_, ?_⟩
  · by_cases hnew : d' = d ∧ index = tableIndex virt
    · obtain ⟨rfl, rfl⟩ := hnew
      rw [holding_got_self hempty]
      simp [own]
    · have hslot : (Function.update s.directory d ((s.directory d).setSlot (tableIndex virt)
          (some slot)) d').slots.get index = (s.directory d').slots.get index := by
        rw [Function.update_apply]
        split
        · next hhere =>
            rw [hhere, PageDirectory.slots_setSlot, if_neg fun hindex => hnew ⟨hhere, hindex.symm⟩]
        · rfl
      rw [hslot, holding_got_of_not fun hcreated => hnew ⟨hcreated.1, hcreated.2.1⟩, h.slots]
      refine Option.map_congr fun held hheld => ?_
      rw [hold hheld]
  · intro d₁ index₁ held₁ d₂ index₂ held₂ hheld₁ hheld₂ hsame
    rcases holding_got_eq_some hheld₁ with hold₁ | ⟨-, -, -, -, rfl⟩ <;>
      rcases holding_got_eq_some hheld₂ with hold₂ | ⟨-, -, -, -, rfl⟩
    · rw [hold hold₁, hold hold₂] at hsame
      exact h.apart hold₁ hold₂ hsame
    · rw [hold hold₁, Function.update_self] at hsame
      exact absurd hsame (hapart hold₁)
    · rw [hold hold₂, Function.update_self] at hsame
      exact absurd hsame.symm (hapart hold₂)
    · rfl
  · intro d' addr held hheld
    rcases holding_got_eq_some hheld with hheld | ⟨-, -, -, -, rfl⟩
    · rw [hold hheld, kept _ (h.names hheld), h.entries hheld]
      rfl
    · rw [Function.update_self, zeroed]
      exact (written_of_length_le (Nat.le_refl _) _).symm

theorem Mirrors.wrote (h : Mirrors place trace s) {d : ι} {virt : Nat} {ref : EntryRef}
    (found : (s.directory d).find? virt = some ref) (entry : PageEntry) :
    Mirrors place (.wrote d virt entry :: trace) { s with ram := s.ram.setEntry ref entry } where
  slots := h.slots
  apart := h.apart
  entries := by
    intro d' addr held hheld
    replace hheld : holding trace d' (tableIndex addr) = some held := hheld
    rw [h.find?, Option.map_eq_some_iff] at found
    obtain ⟨own, hown, rfl⟩ := found
    have hsame : (⟨place own.serial, pageIndex virt⟩ : EntryRef) =
        ⟨place held.serial, pageIndex addr⟩ ↔
          pageNumber virt = pageNumber addr ∧ Holds trace d (tableIndex virt) held.serial := by
      rw [EntryRef.mk.injEq, pageNumber_eq_iff, Holds, hown, Option.map_some, Option.some.injEq]
      constructor
      · rintro ⟨htable, hpage⟩
        have hserial := h.apart hown hheld htable
        exact ⟨⟨index_eq_of_serial hown hheld hserial, hpage⟩, hserial⟩
      · rintro ⟨⟨-, hpage⟩, hserial⟩
        exact ⟨congrArg place hserial, hpage⟩
    simp only [Ram.entry_setEntry, written_wrote, hsame, h.entries hheld]

theorem Mirrors.linked (h : Mirrors place trace s) (d lender : ι) :
    Mirrors place (.linked d lender :: trace) { s with
      directory := Function.update s.directory d ((s.directory d).link (s.directory lender)) } := by
  have hold : ∀ {d' index held}, holding (.linked d lender :: trace) d' index = some held →
      ∃ e before, holding trace e index = some before ∧ before.serial = held.serial := by
    intro d' index held hheld
    rcases holding_linked_eq_some hheld with ⟨hheld, -⟩ | ⟨-, lent, hlent, rfl⟩
    · exact ⟨d', held, hheld, rfl⟩
    · exact ⟨lender, lent, hlent, rfl⟩
  refine ⟨fun d' index => ?_, ?_, ?_⟩
  · have hlender := h.slots lender index
    simp only [Function.update_apply]
    by_cases hhere : d' = d
    · subst hhere
      rw [if_pos rfl, PageDirectory.slots_link]
      cases hlent : holding trace lender index with
      | none =>
          rw [holding_linked_of_none fun _ => hlent, (h.empty_iff lender index).mpr hlent,
            ← h.slots]
          rfl
      | some lent =>
          rw [holding_linked_of_lent hlent]
          rw [hlent, Option.map_some, Option.map_eq_some_iff] at hlender
          obtain ⟨slot, hslot, hsame⟩ := hlender
          rw [hslot]
          simp [PageDirectory.borrow, (Prod.mk.inj hsame).1]
    · rw [if_neg hhere, holding_linked_of_none fun hsame => absurd hsame hhere]
      exact h.slots d' index
  · intro d₁ index₁ held₁ d₂ index₂ held₂ hheld₁ hheld₂ hsame
    obtain ⟨e₁, before₁, hbefore₁, hserial₁⟩ := hold hheld₁
    obtain ⟨e₂, before₂, hbefore₂, hserial₂⟩ := hold hheld₂
    rw [← hserial₁, ← hserial₂] at hsame ⊢
    exact h.apart hbefore₁ hbefore₂ hsame
  · intro d' virt held hheld
    obtain ⟨e, before, hbefore, hserial⟩ := hold hheld
    rw [← hserial]
    exact h.entries hbefore

theorem Mirrors.took (h : Mirrors place trace s) (d : ι) (index : Fin entriesPerTable) :
    Mirrors place (.took d index :: trace) { s with
      directory := Function.update s.directory d ((s.directory d).setSlot index none) } where
  slots := by
    intro d' other
    simp only [holding_took, Function.update_apply]
    by_cases hhere : d' = d
    · subst hhere
      by_cases hindex : other = index
      · simp [hindex]
      · simpa [hindex, Ne.symm hindex] using h.slots d' other
    · simpa [hhere] using h.slots d' other
  apart := fun hheld hheld' =>
    h.apart (holding_took_eq_some hheld).1 (holding_took_eq_some hheld').1
  entries := fun hheld => h.entries (holding_took_eq_some hheld).1

theorem takeTable_eq (directory : PageDirectory) (index : Fin entriesPerTable) :
    directory.takeTable index.val =
      .ok ((directory.slots.get index).filter (!·.linked), directory.setSlot index none) := by
  simp only [PageDirectory.takeTable, index.isLt, dif_pos]

theorem Ran.mirrors (h : Ran trace s) : ∃ place, Mirrors place trace s := by
  induction h with
  | start phys pool ram => exact ⟨id, mirrors_start phys pool ram⟩
  | @got trace s source d virt found directory pool ram _ hsupplies hensure ih =>
      obtain ⟨place, hmirrors⟩ := ih
      rcases PageDirectory.ensure_eq_ok hensure with ⟨ref, hfind, rfl, rfl, hsame⟩ |
        ⟨hempty, ⟨cause, hgrant, rfl, rfl⟩ | ⟨slot, hgrant, rfl, rfl⟩⟩
      · obtain ⟨rfl, rfl⟩ := Prod.mk.inj hsame
        rw [Function.update_eq_self]
        refine ⟨place, hmirrors.unchanged (fun d' index => ?_) (fun _ _ => rfl) fun _ _ => rfl⟩
        rw [hmirrors.find?, Option.map_eq_some_iff] at hfind
        obtain ⟨held, hheld, -⟩ := hfind
        cases hbefore : holding trace d' index with
        | some before => exact holding_got_of_some hbefore
        | none =>
            rw [holding_got_of_not, hbefore]
            rintro ⟨rfl, rfl, -⟩
            simp [hheld] at hbefore
      · rw [Function.update_eq_self]
        refine ⟨place, hmirrors.unchanged (fun d' index => ?_) (fun _ _ => rfl)
          (hsupplies.kept _ _ _ hgrant)⟩
        exact holding_got_of_not fun hfound => by simp at hfound
      · obtain ⟨hown, hfresh, hzeroed⟩ := hsupplies.granted _ _ _ hgrant
        exact ⟨_, hmirrors.created hempty hown hfresh hzeroed (hsupplies.kept _ _ _ hgrant)⟩
  | wrote entry _ hfind ih =>
      obtain ⟨place, hmirrors⟩ := ih
      exact ⟨place, hmirrors.wrote hfind entry⟩
  | linked d lender _ ih =>
      obtain ⟨place, hmirrors⟩ := ih
      exact ⟨place, hmirrors.linked d lender⟩
  | @took trace s d index found directory _ htake ih =>
      obtain ⟨place, hmirrors⟩ := ih
      rw [takeTable_eq] at htake
      obtain ⟨-, rfl⟩ := Prod.mk.injEq .. ▸ Except.ok.inj htake
      exact ⟨place, hmirrors.took d index⟩

theorem Mirrors.own_iff (h : Mirrors place trace s) (d : ι) (index : Fin entriesPerTable) :
    (((s.directory d).slots.get index).filter (!·.linked)).isSome ↔ CreatedHere d index trace := by
  have hslot := h.slots d index
  constructor
  · intro hown
    obtain ⟨slot, hfilter⟩ := Option.isSome_iff_exists.mp hown
    obtain ⟨hslots, hlinked⟩ := Option.filter_eq_some_iff.mp hfilter
    rw [hslots, Option.map_some, eq_comm, Option.map_eq_some_iff] at hslot
    obtain ⟨held, hheld, hsame⟩ := hslot
    refine createdHere_of_own hheld ?_
    rw [(Prod.mk.inj hsame).2]
    simpa using hlinked
  · intro hcreated
    obtain ⟨held, hheld, hown⟩ := hcreated.own
    rw [hheld, Option.map_some, Option.map_eq_some_iff] at hslot
    obtain ⟨slot, hslots, hsame⟩ := hslot
    have hlinked : slot.linked = false := (Prod.mk.inj hsame).2.trans hown
    simp [hslots, hlinked]

theorem Mirrors.takeTable_borrowed (h : Mirrors place trace s) {d : ι}
    {index : Fin entriesPerTable} {held : Holding} (holds : holding trace d index = some held)
    (borrowed : held.borrowed = true) :
    (s.directory d).takeTable index.val = .ok (none, (s.directory d).setSlot index none) := by
  have hnone : ((s.directory d).slots.get index).filter (!·.linked) = none := by
    rw [← Option.not_isSome_iff_eq_none, h.own_iff]
    intro hcreated
    obtain ⟨other, hother, hown⟩ := hcreated.own
    obtain rfl := Option.some.inj (holds.symm.trans hother)
    rw [borrowed] at hown
    contradiction
  rw [takeTable_eq, hnone]

/-! ## Flat maps -/

/-- What directories answer after the calls of a trace, and what the next call does to that. -/
structure FlatMaps (trace : List (DirectoryCall ι)) (s : Directories ι τ) : Prop where
  /-- There is an entry where a table is held. -/
  covered : ∀ d virt,
    ((s.directory d).find? virt).isSome = (holding trace d (tableIndex virt)).isSome
  /-- Addresses translate by the entry last written for their page through any directory that held
  the table then. -/
  translates : ∀ d virt, (s.directory d).translate s.ram virt = translation trace d virt
  /-- Asking for a page changes no translation, whether a table is created for it or refused. -/
  got : ∀ {source : TableSource (τ × Ram)} {d virt found directory pool ram}, Supplies source s →
    ((s.directory d).ensure source virt (s.pool, s.ram)).result =
      .ok (found, directory, pool, ram) →
    ∀ other addr, (Function.update s.directory d directory other).translate ram addr =
      (s.directory other).translate s.ram addr
  /-- What is answered is the entry there is afterwards. With none the directory is as it was. -/
  answered : ∀ {source : TableSource (τ × Ram)} {d virt found directory t},
    ((s.directory d).ensure source virt (s.pool, s.ram)).result = .ok (found, directory, t) →
      found = directory.find? virt ∧ (found = none → directory = s.directory d)
  /-- A write changes the translation of its page only. -/
  wrote : ∀ {d virt ref}, (s.directory d).find? virt = some ref →
    ∀ entry other addr, pageNumber addr ≠ pageNumber virt →
      (s.directory other).translate (s.ram.setEntry ref entry) addr =
        (s.directory other).translate s.ram addr
  /-- Every table of the lender is borrowed, and marked so. -/
  linked : ∀ d lender index slot, (s.directory lender).slots.get index = some slot →
    ((s.directory d).link (s.directory lender)).slots.get index =
        some { slot with linked := true } ∧
      ((s.directory d).link (s.directory lender)).isLinked index.val = .ok true
  /-- A table that was lent is seen by both through the same entries, until it is taken from one of
  them or another one is linked over it. So what is written through one is seen by the other. -/
  lent : ∀ {d lender index earlier held}, holding earlier lender index = some held →
    Undisturbed (· = held.serial) d index (.linked d lender :: earlier) trace →
    Undisturbed (· = held.serial) lender index (.linked d lender :: earlier) trace →
    ∀ virt, tableIndex virt = index → (∃ ref, (s.directory d).find? virt = some ref ∧
      (s.directory lender).find? virt = some ref) ∧
        ∀ ram, (s.directory d).translate ram virt = (s.directory lender).translate ram virt
  marked : ∀ d index, (s.directory d).isLinked index = .ok true →
    (s.directory d).hasTable index = .ok true
  /-- A table is handed out if it was created through the directory and neither taken nor linked
  over since. -/
  taken : ∀ d (index : Fin entriesPerTable), ∃ found,
    (s.directory d).takeTable index.val = .ok (found, (s.directory d).setSlot index none) ∧
      (found.isSome ↔ CreatedHere d index trace) ∧
        ∀ slot, found = some slot → (s.directory d).slots.get index = some slot

/-- After any calls, directories are flat maps that share tables. -/
theorem Ran.flat_maps (h : Ran trace s) : FlatMaps trace s := by
  obtain ⟨place, hmirrors⟩ := h.mirrors
  exact {
    covered := fun d virt => by rw [hmirrors.find?, Option.isSome_map]
    translates := hmirrors.translates
    got := by
      intro source d virt found directory pool ram hsupplies hensure other addr
      obtain ⟨place', hmirrors'⟩ := (h.got hsupplies hensure).mirrors
      rw [hmirrors'.translates, translation_got, hmirrors.translates]
    answered := by
      intro source d virt found directory t hensure
      rcases PageDirectory.ensure_eq_ok hensure with ⟨ref, hfind, rfl, rfl, -⟩ |
        ⟨hempty, ⟨-, -, rfl, rfl⟩ | ⟨slot, -, rfl, rfl⟩⟩
      · exact ⟨hfind.symm, by simp⟩
      · exact ⟨by simp [PageDirectory.find?, hempty], fun _ => rfl⟩
      · exact ⟨by simp [PageDirectory.find?], by simp⟩
    wrote := by
      intro d virt ref hfind entry other addr hdiffers
      have hwrote := hmirrors.wrote hfind entry
      rw [hwrote.translates, translation_wrote entry hdiffers, hmirrors.translates]
    linked := by
      intro d lender index slot hslot
      have hlent : ((s.directory d).link (s.directory lender)).slots.get index =
          some { slot with linked := true } := by
        rw [PageDirectory.slots_link, hslot]
        rfl
      exact ⟨hlent, by simp [PageDirectory.isLinked, PageDirectory.slot, hlent]⟩
    lent := by
      intro d lender index earlier held hheld hsince hsince' virt hindex
      obtain ⟨hborrowed, hkept⟩ := holds_of_lent hheld hsince hsince'
      subst hindex
      have hfind := hmirrors.find?_of_holds hborrowed
      have hfind' := hmirrors.find?_of_holds hkept
      refine ⟨⟨_, hfind, hfind'⟩, fun ram => ?_⟩
      simp only [PageDirectory.translate, hfind, hfind']
    marked := by
      intro d index hlinked
      unfold PageDirectory.isLinked at hlinked
      unfold PageDirectory.hasTable
      cases hslot : (s.directory d).slot index with
      | error cause => simp [hslot] at hlinked
      | ok found => cases found <;> simp_all
    taken := by
      intro d index
      refine ⟨_, takeTable_eq _ index, hmirrors.own_iff d index, fun slot hslot => ?_⟩
      exact (Option.filter_eq_some_iff.mp hslot).1 }

def sampleDirectories : Directories Bool Arena :=
  ⟨fun d => .empty (if d then 0x2000 else 0x1000), ⟨0x10000, 0x10000, 0x20000⟩, .empty⟩

theorem exists_sample_table : ∃ s : Directories Bool Arena, Ran [.got true 0xC0000000 true] s := by
  have hfound : (((sampleDirectories.directory true).ensure Arena.tables 0xC0000000
      (sampleDirectories.pool, sampleDirectories.ram)).result.map (·.1.isSome)) = .ok true := by
    decide +kernel
  cases hensure : ((sampleDirectories.directory true).ensure Arena.tables 0xC0000000
      (sampleDirectories.pool, sampleDirectories.ram)).result with
  | error cause => simp [hensure, Except.map] at hfound
  | ok outcome =>
      obtain ⟨found, directory, pool, ram⟩ := outcome
      replace hfound : found.isSome = true := by simpa [hensure, Except.map] using hfound
      have hstart : Ran [] sampleDirectories := .start _ _ _
      have hgot := hstart.got (supplies_arena fun table hnames => ?_) hensure
      · rw [hfound] at hgot
        exact ⟨_, hgot⟩
      · obtain ⟨d, hm⟩ := hnames
        simp [sampleDirectories] at hm

/-- One directory has a table created, the other one borrows it and sees a page of it. -/
theorem page_seen_by_borrower :
    ∃ (s : Directories Bool Arena) (slot : TableRef) (left : PageDirectory),
      Ran [.linked false true, .wrote true 0xC0000000 ⟨0x9001⟩, .got true 0xC0000000 true] s ∧
      (s.directory false).translate s.ram 0xC0000ABC = some 0x9ABC ∧
      (s.directory true).takeTable 768 = .ok (some slot, left) := by
  obtain ⟨s, hran⟩ := exists_sample_table
  have hcovered := hran.flat_maps.covered true 0xC0000000
  obtain ⟨ref, hfind⟩ := Option.isSome_iff_exists.mp (hcovered.trans (by decide))
  have hlinked := (hran.wrote ⟨0x9001⟩ hfind).linked false true
  have hflat := Ran.flat_maps hlinked
  obtain ⟨found, htake, hown, -⟩ := hflat.taken true 768
  obtain ⟨slot, rfl⟩ := Option.isSome_iff_exists.mp
    (hown.mpr (createdHere_of_own (by decide : holding _ true 768 = some ⟨0, false⟩) rfl))
  exact ⟨_, slot, _, hlinked, (hflat.translates _ _).trans (by decide), htake⟩

/-- Where two directories have borrowed from each other, neither hands out the table, though one of
them had it created by the first call and it is still there. -/
theorem table_lost_between_borrowers :
    ∃ (s : Directories Bool Arena) (left left' : PageDirectory),
      Ran [.linked true false, .linked false true, .got true 0xC0000000 true] s ∧
      tableIndex 0xC0000000 = 768 ∧
      Holds [.linked true false, .linked false true, .got true 0xC0000000 true] true 768 0 ∧
      (s.directory true).takeTable 768 = .ok (none, left) ∧
      (s.directory false).takeTable 768 = .ok (none, left') := by
  obtain ⟨s, hran⟩ := exists_sample_table
  have hlinked := (hran.linked false true).linked true false
  obtain ⟨place, hmirrors⟩ := hlinked.mirrors
  have hborrowed : ∀ d, holding [.linked true false, .linked false true,
      .got true 0xC0000000 true] d 768 = some ⟨0, true⟩ := by decide
  exact ⟨_, _, _, hlinked, by decide, by decide,
    hmirrors.takeTable_borrowed (hborrowed true) rfl,
    hmirrors.takeTable_borrowed (hborrowed false) rfl⟩

end Directories

end KernelCore
