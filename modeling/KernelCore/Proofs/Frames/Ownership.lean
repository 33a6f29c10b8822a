import Mathlib
import KernelCore.Ram
import KernelCore.Proofs.Frames.Entries

/-!
# Who owns a frame

Over a set of page tables, the frames in use are owned if each is mapped by exactly one present
entry, and every present entry maps a frame in use. An exchange on one entry keeps this, and so do
adding an empty table and removing one. The free frames are then those no present entry counts.
-/

namespace KernelCore

/-- Each frame in use is mapped by exactly one present entry of the tables, and no other frame by
any. -/
structure Owned (tables : List Nat) (ram : Ram) (pool : FramePool) : Prop where
  sound : pool.Sound
  used : ∀ number, pool.bit number = true ↔
    ∃ ref : EntryRef, ref.table ∈ tables ∧ (ram.entry ref).owns number
  unique : ∀ ref ref' : EntryRef, ref.table ∈ tables → ref'.table ∈ tables →
    ∀ number, (ram.entry ref).owns number → (ram.entry ref').owns number → ref = ref'

variable {tables tables' : List Nat} {ram ram' : Ram} {pool pool' : FramePool}

theorem Owned.congr (h : Owned tables ram pool)
    (same : ∀ (ref : EntryRef) (number : Nat), ref.table ∈ tables' ∧ (ram'.entry ref).owns number ↔
      ref.table ∈ tables ∧ (ram.entry ref).owns number) : Owned tables' ram' pool := by
  refine ⟨h.sound, fun number => (h.used number).trans ?_, ?_⟩
  · exact exists_congr fun ref => (same ref number).symm
  · intro ref ref' hm hm' number howns howns'
    obtain ⟨hm, howns⟩ := (same ref number).mp ⟨hm, howns⟩
    obtain ⟨hm', howns'⟩ := (same ref' number).mp ⟨hm', howns'⟩
    exact h.unique ref ref' hm hm' number howns howns'

theorem Owned.perm (h : Owned tables ram pool) (same : tables.Perm tables')
    (entries : ∀ ref, ref.table ∈ tables → ram'.entry ref = ram.entry ref) :
    Owned tables' ram' pool := by
  refine h.congr fun ref number => ?_
  rw [same.mem_iff]
  refine and_congr_right fun hm => ?_
  rw [entries ref (same.mem_iff.mpr hm)]

theorem Owned.known (h : Owned tables ram pool) {ref : EntryRef} (hm : ref.table ∈ tables)
    {number : Nat} (howns : (ram.entry ref).owns number) : number < pool.total :=
  h.sound.lt_total ((h.used number).mpr ⟨ref, hm, howns⟩)

/-! ## One entry -/

section Entry

variable {ref other : EntryRef} {entry : PageEntry} {number n : Nat}

theorem owns_setEntry_taken (absent : (ram.entry ref).present = false) (howns : entry.owns number) :
    ((ram.setEntry ref entry).entry other).owns n ↔
      ref = other ∧ number = n ∨ (ram.entry other).owns n := by
  rw [Ram.entry_setEntry]
  split
  · next heq =>
      subst heq
      constructor
      · exact fun hnew => .inl ⟨rfl, howns.unique hnew⟩
      · rintro (⟨-, rfl⟩ | hold)
        · exact howns
        · exact absurd hold (PageEntry.not_owns absent n)
  · next hne => simp [hne]

theorem owns_setEntry_given (absent : entry.present = false) :
    ((ram.setEntry ref entry).entry other).owns n ↔ ref ≠ other ∧ (ram.entry other).owns n := by
  rw [Ram.entry_setEntry]
  split
  · next heq => simp [heq, PageEntry.not_owns absent n]
  · next hne => simp [hne]

/-- An absent entry that takes a free frame is its only owner. -/
theorem Owned.taken (h : Owned tables ram pool) (hm : ref.table ∈ tables) (sound : pool'.Sound)
    (absent : (ram.entry ref).present = false) (howns : entry.owns number)
    (free : pool.bit number = false)
    (hbit : ∀ other, pool'.bit other = (number == other || pool.bit other)) :
    Owned tables (ram.setEntry ref entry) pool' := by
  have hfresh : ∀ other, other.table ∈ tables → ¬(ram.entry other).owns number := by
    intro other hmem hold
    rw [(h.used number).mpr ⟨other, hmem, hold⟩] at free
    contradiction
  refine ⟨sound, fun n => ?_, ?_⟩
  · rw [hbit, Bool.or_eq_true, beq_iff_eq, h.used]
    constructor
    · rintro (rfl | ⟨other, hmem, hold⟩)
      · exact ⟨ref, hm, (owns_setEntry_taken absent howns).mpr (.inl ⟨rfl, rfl⟩)⟩
      · exact ⟨other, hmem, (owns_setEntry_taken absent howns).mpr (.inr hold)⟩
    · rintro ⟨other, hmem, hnew⟩
      rcases (owns_setEntry_taken absent howns).mp hnew with ⟨-, hsame⟩ | hold
      · exact .inl hsame
      · exact .inr ⟨other, hmem, hold⟩
  · intro a b ha hb n howna hownb
    rcases (owns_setEntry_taken absent howns).mp howna with ⟨rfl, rfl⟩ | holda
    · rcases (owns_setEntry_taken absent howns).mp hownb with ⟨rfl, -⟩ | holdb
      · rfl
      · exact absurd holdb (hfresh b hb)
    · rcases (owns_setEntry_taken absent howns).mp hownb with ⟨rfl, rfl⟩ | holdb
      · exact absurd holda (hfresh a ha)
      · exact h.unique a b ha hb n holda holdb

/-- A frame that its entry gives up is owned by nobody. -/
theorem Owned.given (h : Owned tables ram pool) (hm : ref.table ∈ tables) (sound : pool'.Sound)
    (howns : (ram.entry ref).owns number) (absent : entry.present = false)
    (hbit : ∀ other, pool'.bit other = (number != other && pool.bit other)) :
    Owned tables (ram.setEntry ref entry) pool' := by
  refine ⟨sound, fun n => ?_, ?_⟩
  · rw [hbit, Bool.and_eq_true, bne_iff_ne, h.used]
    constructor
    · rintro ⟨hne, other, hmem, hold⟩
      refine ⟨other, hmem, (owns_setEntry_given absent).mpr ⟨?_, hold⟩⟩
      rintro rfl
      exact hne (howns.unique hold)
    · rintro ⟨other, hmem, hnew⟩
      obtain ⟨hdiffers, hold⟩ := (owns_setEntry_given absent).mp hnew
      refine ⟨?_, other, hmem, hold⟩
      rintro rfl
      exact hdiffers (h.unique ref other hm hmem number howns hold)
  · intro a b ha hb n howna hownb
    exact h.unique a b ha hb n ((owns_setEntry_given absent).mp howna).2
      ((owns_setEntry_given absent).mp hownb).2

theorem Owned.exchange (h : Owned tables ram pool) (hm : ref.table ∈ tables) (sound : pool'.Sound)
    (hx : Exchange (ram.entry ref) pool entry pool') :
    Owned tables (ram.setEntry ref entry) pool' := by
  cases hx with
  | kept hbit =>
      have hkept : Owned tables (ram.setEntry ref (ram.entry ref)) pool := by
        refine h.congr fun other number => ?_
        rw [Ram.entry_setEntry]
        split
        · next heq => rw [heq]
        · rfl
      exact ⟨sound, fun number => hbit number ▸ hkept.used number, hkept.unique⟩
  | taken number habsent howns hfree hbit => exact h.taken hm sound habsent howns hfree hbit
  | given number howns habsent hbit => exact h.given hm sound howns habsent hbit

end Entry

/-! ## Whole tables -/

/-- A table without present entries makes no difference. -/
theorem owned_cons_iff {addr : Nat} (blank : ∀ index, (ram.entry ⟨addr, index⟩).present = false) :
    Owned (addr :: tables) ram pool ↔ Owned tables ram pool := by
  have hsame : ∀ (ref : EntryRef) (number : Nat),
      ref.table ∈ addr :: tables ∧ (ram.entry ref).owns number ↔
        ref.table ∈ tables ∧ (ram.entry ref).owns number := by
    rintro ⟨table, index⟩ number
    refine and_congr_left fun howns => ?_
    rw [List.mem_cons, or_iff_right]
    rintro rfl
    exact PageEntry.not_owns (blank index) number howns
  exact ⟨fun h => h.congr fun ref number => (hsame ref number).symm, fun h => h.congr hsame⟩

theorem entry_clearTable (ram : Ram) (addr : Nat) (ref : EntryRef) :
    (ram.clearTable addr).entry ref = if addr = ref.table then .empty else ram.entry ref := by
  have hclear : (ram.clearTable addr).entry ref =
      (ram.setTable addr .empty).entry ref := rfl
  rw [hclear, Ram.entry_setTable, PageTable.getElem_empty]

theorem Owned.clearTable (h : Owned tables ram pool) {addr : Nat} (fresh : addr ∉ tables) :
    Owned tables (ram.clearTable addr) pool := by
  refine h.perm (.refl _) fun ref hm => ?_
  rw [entry_clearTable, if_neg]
  rintro rfl
  exact fresh hm

theorem present_clearTable (ram : Ram) (addr : Nat) (index : Fin entriesPerTable) :
    ((ram.clearTable addr).entry ⟨addr, index⟩).present = false := by
  rw [entry_clearTable, if_pos rfl, PageEntry.present_empty]

theorem Owned.adopt (h : Owned tables ram pool) {addr : Nat} (fresh : addr ∉ tables) :
    Owned (addr :: tables) (ram.clearTable addr) pool :=
  (owned_cons_iff (present_clearTable ram addr)).mpr (h.clearTable fresh)

/-- Giving back the frames of a list of entries clears exactly their bits. -/
theorem FramePool.Sound.unback_all {entries : List PageEntry} (h : pool.Sound)
    (hfold : entries.foldlM (fun frames entry => return (← frames.unback entry).2) pool =
      .ok pool') :
    pool'.Sound ∧ ∀ number, pool'.bit number = true ↔
      pool.bit number = true ∧ ∀ entry ∈ entries, ¬entry.owns number := by
  induction entries generalizing pool with
  | nil =>
      obtain rfl := Except.ok.inj hfold
      exact ⟨h, fun number => by simp⟩
  | cons entry rest ih =>
      rw [List.foldlM_cons] at hfold
      obtain ⟨next, hnext, hfold⟩ := bind_eq_ok hfold
      obtain ⟨⟨cleared, released⟩, hunback, hnext⟩ := bind_eq_ok hnext
      obtain rfl := Except.ok.inj hnext
      obtain ⟨hsound, hx, habsent⟩ := h.unback hunback
      obtain ⟨hsound', hbits⟩ := ih hsound hfold
      refine ⟨hsound', fun number => (hbits number).trans ?_⟩
      rw [List.forall_mem_cons, ← and_assoc]
      refine and_congr_left fun _ => ?_
      cases hx with
      | kept hbit =>
          rw [hbit]
          exact ⟨fun hold => ⟨hold, PageEntry.not_owns habsent number⟩, And.left⟩
      | taken n hold hnew _ _ => exact absurd hnew (PageEntry.not_owns habsent n)
      | given n howns _ hbit =>
          rw [hbit, Bool.and_eq_true, bne_iff_ne, and_comm]
          refine and_congr_right fun _ => ⟨fun hne hown => hne (howns.unique hown), ?_⟩
          rintro hnot rfl
          exact hnot howns

theorem FramePool.exists_unback_all {entries : List PageEntry}
    (known : ∀ entry ∈ entries, ∀ number, entry.owns number → number < pool.total) :
    ∃ pool', entries.foldlM (fun frames entry => return (← frames.unback entry).2) pool =
      .ok pool' := by
  induction entries generalizing pool with
  | nil => exact ⟨pool, rfl⟩
  | cons entry rest ih =>
      rw [List.forall_mem_cons] at known
      obtain ⟨cleared, released, hunback, htotal⟩ := exists_unback known.1
      obtain ⟨pool', hrest⟩ := ih (by rw [htotal]; exact known.2)
      refine ⟨pool', ?_⟩
      rw [List.foldlM_cons, hunback]
      exact hrest

theorem mem_toList_table {ram : Ram} {addr : Nat} {entry : PageEntry} :
    entry ∈ (ram.table addr).toList ↔ ∃ index, ram.entry ⟨addr, index⟩ = entry := by
  constructor
  · intro hentry
    obtain ⟨i, hi, rfl⟩ := List.mem_iff_getElem.mp hentry
    rw [Vector.length_toList] at hi
    exact ⟨⟨i, hi⟩, rfl⟩
  · rintro ⟨index, rfl⟩
    simp [Ram.entry]

theorem present_setTable_cleared (ram : Ram) (addr : Nat) (table : PageTable)
    (index : Fin entriesPerTable) :
    ((ram.setTable addr table.cleared).entry ⟨addr, index⟩).present = false := by
  rw [Ram.entry_setTable, if_pos rfl, PageTable.getElem_cleared]
  split
  · rfl
  · next habsent => simpa using habsent

theorem owns_setTable_cleared {addr : Nat} {table : PageTable} {ref : EntryRef} {number : Nat} :
    ((ram.setTable addr table.cleared).entry ref).owns number ↔
      addr ≠ ref.table ∧ (ram.entry ref).owns number := by
  by_cases heq : addr = ref.table
  · subst heq
    have habsent := present_setTable_cleared ram ref.table table ref.index
    exact iff_of_false (PageEntry.not_owns habsent number) fun hown => hown.1 rfl
  · rw [Ram.entry_setTable, if_neg heq]
    simp [heq]

theorem Owned.clear (h : Owned tables ram pool) {addr : Nat} (hm : addr ∈ tables)
    (hfold : (ram.table addr).toList.foldlM
      (fun frames entry => return (← frames.unback entry).2) pool = .ok pool') :
    Owned tables (ram.setTable addr (ram.table addr).cleared) pool' ∧
      ∀ index, ((ram.setTable addr (ram.table addr).cleared).entry ⟨addr, index⟩).present =
        false := by
  obtain ⟨hsound, hbits⟩ := h.sound.unback_all hfold
  have hlisted : ∀ number, (∀ entry ∈ (ram.table addr).toList, ¬entry.owns number) ↔
      ∀ index, ¬(ram.entry ⟨addr, index⟩).owns number := by
    intro number
    simp only [mem_toList_table, forall_exists_index, forall_apply_eq_imp_iff]
  refine ⟨⟨hsound, ?_, ?_⟩, ?_⟩
  · intro number
    rw [hbits, h.used, hlisted]
    constructor
    · rintro ⟨⟨ref, hmem, howns⟩, hnone⟩
      refine ⟨ref, hmem, owns_setTable_cleared.mpr ⟨?_, howns⟩⟩
      rintro rfl
      exact hnone ref.index howns
    · rintro ⟨ref, hmem, hnew⟩
      obtain ⟨hne, howns⟩ := owns_setTable_cleared.mp hnew
      refine ⟨⟨ref, hmem, howns⟩, fun index hown => hne ?_⟩
      rw [h.unique ref ⟨addr, index⟩ hmem hm number howns hown]
  · intro ref ref' hmem hmem' number howns howns'
    exact h.unique ref ref' hmem hmem' number (owns_setTable_cleared.mp howns).2
      (owns_setTable_cleared.mp howns').2
  · exact present_setTable_cleared ram addr _

theorem Owned.exists_clear (h : Owned tables ram pool) {addr : Nat} (hm : addr ∈ tables) :
    ∃ pool', (ram.table addr).toList.foldlM
      (fun frames entry => return (← frames.unback entry).2) pool = .ok pool' := by
  apply FramePool.exists_unback_all
  intro entry hentry number howns
  obtain ⟨index, rfl⟩ := mem_toList_table.mp hentry
  exact Owned.known h hm howns

/-! ## Counting -/

def entriesOf (tables : List Nat) (ram : Ram) : List PageEntry :=
  tables.flatMap fun table => (ram.table table).toList

def refsOf (tables : List Nat) : List EntryRef :=
  tables.flatMap fun table => (List.finRange entriesPerTable).map (EntryRef.mk table)

theorem mem_refsOf {ref : EntryRef} : ref ∈ refsOf tables ↔ ref.table ∈ tables := by
  obtain ⟨table, index⟩ := ref
  simp [refsOf]

theorem nodup_refsOf (distinct : tables.Nodup) : (refsOf tables).Nodup := by
  rw [refsOf, List.nodup_flatMap]
  refine ⟨?_, ?_⟩
  · intro table _
    exact (List.nodup_finRange _).map fun i j hij => (EntryRef.mk.inj hij).2
  · refine distinct.imp fun {a b} hne => ?_
    intro ref ha hb
    obtain ⟨i, -, rfl⟩ := List.mem_map.mp ha
    obtain ⟨j, -, heq⟩ := List.mem_map.mp hb
    exact hne (EntryRef.mk.inj heq).1.symm

theorem entriesOf_eq (tables : List Nat) (ram : Ram) :
    entriesOf tables ram = (refsOf tables).map ram.entry := by
  rw [entriesOf, refsOf, List.map_flatMap]
  refine List.flatMap_congr fun table _ => ?_
  rw [List.map_map]
  refine List.ext_getElem (by simp) fun i hi hi' => ?_
  simp [Ram.entry]

/-- The frames that are not free are as many as there are present entries. -/
theorem Owned.free_add_present (h : Owned tables ram pool) (distinct : tables.Nodup) :
    pool.free + (entriesOf tables ram).countP (·.present) = pool.total := by
  have hnumbers : pool.usedNumbers = (((refsOf tables).filter fun ref =>
      (ram.entry ref).present).map fun ref => (ram.entry ref).frame / frameSize).toFinset := by
    ext number
    rw [List.mem_toFinset, List.mem_map, FramePool.usedNumbers, Finset.mem_filter]
    constructor
    · rintro ⟨-, hused⟩
      obtain ⟨ref, hm, hpresent, hnumber⟩ := (h.used number).mp hused
      exact ⟨ref, List.mem_filter.mpr ⟨mem_refsOf.mpr hm, hpresent⟩, hnumber⟩
    · rintro ⟨ref, hm, hnumber⟩
      obtain ⟨hm, hpresent⟩ := List.mem_filter.mp hm
      have hused := (h.used number).mpr ⟨ref, mem_refsOf.mp hm, hpresent, hnumber⟩
      exact ⟨Finset.mem_range.mpr (h.sound.lt_total hused), hused⟩
  have hnodup : (((refsOf tables).filter fun ref => (ram.entry ref).present).map
      fun ref => (ram.entry ref).frame / frameSize).Nodup := by
    refine List.Nodup.map_on ?_ ((nodup_refsOf distinct).filter _)
    intro ref hm ref' hm' hsame
    obtain ⟨hm, hpresent⟩ := List.mem_filter.mp hm
    obtain ⟨hm', hpresent'⟩ := List.mem_filter.mp hm'
    exact h.unique ref ref' (mem_refsOf.mp hm) (mem_refsOf.mp hm') _ ⟨hpresent, rfl⟩
      ⟨hpresent', hsame.symm⟩
  have hcard : pool.usedNumbers.card = (entriesOf tables ram).countP (·.present) := by
    rw [hnumbers, List.toFinset_card_of_nodup hnodup, List.length_map, entriesOf_eq,
      List.countP_map, List.countP_eq_length_filter]
    rfl
  rw [← hcard]
  exact h.sound.counted

end KernelCore
