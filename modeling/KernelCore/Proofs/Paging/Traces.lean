import Mathlib
import KernelCore.Paging.Directory

/-!
# Directories as flat maps with shared tables

What a set of page directories has to answer is told here by the calls that were made on them, the
latest first, without a word on slots or memory. A directory holds tables, each of its own making or
borrowed. An entry is what was last written for its page through any directory that held the table
then. Pages are numbered modulo 2^20, as a directory looks at no more of an address.
-/

namespace KernelCore

/-- The number of a page, as far as directories tell pages apart. -/
def pageNumber (virt : Nat) : Nat := virt / pageSize % 2 ^ 20

theorem pageNumber_eq_iff {a b : Nat} :
    pageNumber a = pageNumber b ↔ tableIndex a = tableIndex b ∧ pageIndex a = pageIndex b := by
  simp only [tableIndex, pageIndex, Fin.mk.injEq]
  unfold pageNumber tableSpan entriesPerTable pageSize
  omega

inductive DirectoryCall (ι : Type) where
  /-- The page of an address was asked for, with leave to create a table, and found or not. -/
  | got (directory : ι) (virt : Nat) (found : Bool)
  /-- An entry was written for the page of an address. -/
  | wrote (directory : ι) (virt : Nat) (entry : PageEntry)
  | linked (directory lender : ι)
  | took (directory : ι) (index : Fin entriesPerTable)

/-- A table in a slot of a directory. Tables are told apart by how many calls there were before the
one that created them. -/
structure Holding where
  serial : Nat
  borrowed : Bool
deriving DecidableEq

namespace DirectoryCall

variable {ι : Type} [DecidableEq ι]

def holding : List (DirectoryCall ι) → ι → Fin entriesPerTable → Option Holding
  | [], _, _ => none
  | .got directory virt found :: earlier, other, index =>
      match holding earlier other index with
      | some held => some held
      | none =>
          if other = directory ∧ index = tableIndex virt ∧ found = true then
            some ⟨earlier.length, false⟩
          else none
  | .wrote _ _ _ :: earlier, other, index => holding earlier other index
  | .linked directory lender :: earlier, other, index =>
      if other = directory then
        match holding earlier lender index with
        | some held => some { held with borrowed := true }
        | none => holding earlier other index
      else holding earlier other index
  | .took directory taken :: earlier, other, index =>
      if other = directory ∧ index = taken then none else holding earlier other index

def Holds (trace : List (DirectoryCall ι)) (directory : ι) (index : Fin entriesPerTable)
    (serial : Nat) : Prop :=
  (holding trace directory index).map (·.serial) = some serial

instance (trace : List (DirectoryCall ι)) (directory : ι) (index : Fin entriesPerTable)
    (serial : Nat) : Decidable (Holds trace directory index serial) :=
  inferInstanceAs (Decidable (_ = _))

/-- The entry last written for a page through a directory that held the table then. -/
def written : List (DirectoryCall ι) → Nat → Nat → PageEntry
  | [], _, _ => .empty
  | .wrote directory virt entry :: earlier, serial, page =>
      if pageNumber virt = page ∧ Holds earlier directory (tableIndex virt) serial then entry
      else written earlier serial page
  | .got _ _ _ :: earlier, serial, page => written earlier serial page
  | .linked _ _ :: earlier, serial, page => written earlier serial page
  | .took _ _ :: earlier, serial, page => written earlier serial page

def translation (trace : List (DirectoryCall ι)) (directory : ι) (virt : Nat) : Option Nat :=
  match holding trace directory (tableIndex virt) with
  | none => none
  | some held =>
      let entry := written trace held.serial (pageNumber virt)
      if entry.present then some (entry.frame + virt % pageSize) else none

/-- Since the calls `earlier`, none took the table at an index of a directory, and none linked
another table over it than those that may come back. -/
inductive Undisturbed (returns : Nat → Prop) (directory : ι) (index : Fin entriesPerTable)
    (earlier : List (DirectoryCall ι)) : List (DirectoryCall ι) → Prop
  | now : Undisturbed returns directory index earlier earlier
  | since {call : DirectoryCall ι} {trace : List (DirectoryCall ι)} :
      Undisturbed returns directory index earlier trace → call ≠ .took directory index →
      (∀ lender held, call = .linked directory lender → holding trace lender index = some held →
        returns held.serial) →
      Undisturbed returns directory index earlier (call :: trace)

/-- The table at an index was created through the directory itself, and since then neither taken nor
linked over. Where it was linked over itself, the slot is marked as borrowed all the same. -/
def CreatedHere (directory : ι) (index : Fin entriesPerTable) (trace : List (DirectoryCall ι)) :
    Prop :=
  ∃ virt earlier, tableIndex virt = index ∧ holding earlier directory index = none ∧
    Undisturbed (fun _ => False) directory index (.got directory virt true :: earlier) trace

variable {trace : List (DirectoryCall ι)} {directory other : ι} {index index' : Fin entriesPerTable}
  {held held' : Holding}

/-! ## Tables -/

@[simp] theorem holding_nil (directory : ι) (index : Fin entriesPerTable) :
    holding [] directory index = none := rfl

theorem holding_got (directory : ι) (virt : Nat) (found : Bool) :
    holding (.got directory virt found :: trace) other index =
      match holding trace other index with
      | some held => some held
      | none =>
          if other = directory ∧ index = tableIndex virt ∧ found = true then
            some ⟨trace.length, false⟩
          else none := rfl

@[simp] theorem holding_wrote (directory : ι) (virt : Nat) (entry : PageEntry) :
    holding (.wrote directory virt entry :: trace) other index = holding trace other index := rfl

theorem holding_linked (directory lender : ι) :
    holding (.linked directory lender :: trace) other index =
      if other = directory then
        match holding trace lender index with
        | some held => some { held with borrowed := true }
        | none => holding trace other index
      else holding trace other index := rfl

theorem holding_took (directory : ι) (taken : Fin entriesPerTable) :
    holding (.took directory taken :: trace) other index =
      if other = directory ∧ index = taken then none else holding trace other index := rfl

theorem holding_got_of_some {virt : Nat} {found : Bool}
    (holds : holding trace other index = some held) :
    holding (.got directory virt found :: trace) other index = some held := by
  simp only [holding_got, holds]

theorem holding_got_self {virt : Nat} (empty : holding trace directory (tableIndex virt) = none) :
    holding (.got directory virt true :: trace) directory (tableIndex virt) =
      some ⟨trace.length, false⟩ := by
  simp only [holding_got, empty, and_self, if_true]

theorem holding_got_of_not {virt : Nat} {found : Bool}
    (elsewhere : ¬(other = directory ∧ index = tableIndex virt ∧ found = true)) :
    holding (.got directory virt found :: trace) other index = holding trace other index := by
  simp only [holding_got, if_neg elsewhere]
  split
  · next held hheld => rw [hheld]
  · next hnone => rw [hnone]

theorem holding_got_eq_some {virt : Nat} {found : Bool}
    (h : holding (.got directory virt found :: trace) other index = some held) :
    holding trace other index = some held ∨ holding trace other index = none ∧
      other = directory ∧ index = tableIndex virt ∧ found = true ∧ held = ⟨trace.length, false⟩ := by
  rw [holding_got] at h
  cases hold : holding trace other index with
  | some found => exact .inl (by simpa [hold] using h)
  | none =>
      rw [hold] at h
      simp only at h
      split at h
      · next hcreated =>
          exact .inr ⟨rfl, hcreated.1, hcreated.2.1, hcreated.2.2, (Option.some.inj h).symm⟩
      · contradiction

theorem holding_linked_eq_some {lender : ι}
    (h : holding (.linked directory lender :: trace) other index = some held) :
    (holding trace other index = some held ∧
        (other = directory → holding trace lender index = none)) ∨
      other = directory ∧
        ∃ lent, holding trace lender index = some lent ∧ held = ⟨lent.serial, true⟩ := by
  rw [holding_linked] at h
  split at h
  · next hhere =>
      cases hlent : holding trace lender index with
      | none => exact .inl ⟨by simpa [hlent] using h, fun _ => rfl⟩
      | some lent => exact .inr ⟨hhere, lent, rfl, by simpa [hlent, eq_comm] using h⟩
  · next hother => exact .inl ⟨h, fun hhere => absurd hhere hother⟩

theorem holding_linked_of_lent {lender : ι} (lent : holding trace lender index = some held) :
    holding (.linked directory lender :: trace) directory index = some ⟨held.serial, true⟩ := by
  simp only [holding_linked, if_true, lent]

theorem holding_linked_of_none {lender : ι}
    (unlent : other = directory → holding trace lender index = none) :
    holding (.linked directory lender :: trace) other index = holding trace other index := by
  rw [holding_linked]
  split
  · next hhere => simp only [unlent hhere]
  · rfl

theorem holding_took_eq_some {taken : Fin entriesPerTable}
    (h : holding (.took directory taken :: trace) other index = some held) :
    holding trace other index = some held ∧ ¬(other = directory ∧ index = taken) := by
  rw [holding_took] at h
  split at h
  · contradiction
  · next hkept => exact ⟨h, hkept⟩

theorem serial_lt (h : holding trace directory index = some held) :
    held.serial < trace.length := by
  induction trace generalizing directory index held with
  | nil => simp at h
  | cons call earlier ih =>
      rw [List.length_cons]
      cases call with
      | got d virt found =>
          rcases holding_got_eq_some h with hold | ⟨-, -, -, -, rfl⟩
          · exact Nat.lt_succ_of_lt (ih hold)
          · exact Nat.lt_succ_self _
      | wrote d virt entry => exact Nat.lt_succ_of_lt (ih h)
      | linked d lender =>
          rcases holding_linked_eq_some h with ⟨hold, -⟩ | ⟨-, lent, hlent, rfl⟩
          · exact Nat.lt_succ_of_lt (ih hold)
          · have hlt : lent.serial < earlier.length := ih hlent
            exact Nat.lt_succ_of_lt hlt
      | took d taken => exact Nat.lt_succ_of_lt (ih (holding_took_eq_some h).1)

/-- One table is held at one index only, whoever holds it. -/
theorem index_eq_of_serial (h : holding trace directory index = some held)
    (h' : holding trace other index' = some held') (same : held.serial = held'.serial) :
    index = index' := by
  induction trace generalizing directory other index index' held held' with
  | nil => simp at h
  | cons call earlier ih =>
      cases call with
      | got d virt found =>
          rcases holding_got_eq_some h with hold | ⟨-, -, hindex, -, rfl⟩ <;>
            rcases holding_got_eq_some h' with hold' | ⟨-, -, hindex', -, rfl⟩
          · exact ih hold hold' same
          · exact absurd same (Nat.ne_of_lt (serial_lt hold))
          · exact absurd same (Nat.ne_of_gt (serial_lt hold'))
          · exact hindex.trans hindex'.symm
      | wrote d virt entry => exact ih h h' same
      | linked d lender =>
          rcases holding_linked_eq_some h with ⟨hold, -⟩ | ⟨-, lent, hold, rfl⟩ <;>
            rcases holding_linked_eq_some h' with ⟨hold', -⟩ | ⟨-, lent', hold', rfl⟩ <;>
            exact ih hold hold' same
      | took d taken => exact ih (holding_took_eq_some h).1 (holding_took_eq_some h').1 same

/-- What is so of the table before, and of the tables that may come back, stays so. -/
theorem Undisturbed.holding {returns : Nat → Prop} {P : Holding → Prop}
    {earlier : List (DirectoryCall ι)} (h : Undisturbed returns directory index earlier trace)
    (before : ∃ held, DirectoryCall.holding earlier directory index = some held ∧ P held)
    (back : ∀ serial, returns serial → P ⟨serial, true⟩) :
    ∃ held, DirectoryCall.holding trace directory index = some held ∧ P held := by
  induction h with
  | now => exact before
  | @since call trace _ hkept hback ih =>
      obtain ⟨held, hheld, hso⟩ := ih
      cases call with
      | got d virt found => exact ⟨held, holding_got_of_some hheld, hso⟩
      | wrote d virt entry => exact ⟨held, hheld, hso⟩
      | linked d lender =>
          by_cases hhere : directory = d
          · subst hhere
            cases hlent : DirectoryCall.holding trace lender index with
            | none => exact ⟨held, (holding_linked_of_none fun _ => hlent).trans hheld, hso⟩
            | some lent =>
                exact ⟨_, holding_linked_of_lent hlent, back _ (hback lender lent rfl hlent)⟩
          · exact ⟨held, (holding_linked_of_none fun h => absurd h hhere).trans hheld, hso⟩
      | took d taken =>
          have hother : ¬(directory = d ∧ index = taken) := by
            rintro ⟨rfl, rfl⟩
            exact hkept rfl
          exact ⟨held, by rw [holding_took, if_neg hother, hheld], hso⟩

theorem Undisturbed.holds {serial : Nat} {earlier : List (DirectoryCall ι)}
    (h : Undisturbed (· = serial) directory index earlier trace)
    (before : Holds earlier directory index serial) : Holds trace directory index serial :=
  Option.map_eq_some_iff.mpr (h.holding (Option.map_eq_some_iff.mp before) fun _ same => same)

/-- A table that is lent is held by both, until it is taken from one of them or another one is
linked over it. -/
theorem holds_of_lent {lender : ι} {earlier : List (DirectoryCall ι)}
    (lent : holding earlier lender index = some held)
    (borrower : Undisturbed (· = held.serial) directory index (.linked directory lender :: earlier)
      trace)
    (owner : Undisturbed (· = held.serial) lender index (.linked directory lender :: earlier)
      trace) :
    Holds trace directory index held.serial ∧ Holds trace lender index held.serial := by
  have hborrowed : Holds (.linked directory lender :: earlier) directory index held.serial := by
    rw [Holds, holding_linked_of_lent lent]
    rfl
  refine ⟨borrower.holds hborrowed, owner.holds ?_⟩
  by_cases hsame : lender = directory
  · exact hsame ▸ hborrowed
  · rw [Holds, holding_linked_of_none fun h => absurd h hsame, lent]
    rfl

theorem CreatedHere.since {call : DirectoryCall ι} (h : CreatedHere directory index trace)
    (kept : call ≠ .took directory index)
    (unlent : ∀ lender, call = .linked directory lender → holding trace lender index = none) :
    CreatedHere directory index (call :: trace) := by
  obtain ⟨virt, earlier, hindex, hnone, hsince⟩ := h
  refine ⟨virt, earlier, hindex, hnone, .since hsince kept fun lender held hcall hheld => ?_⟩
  simp [unlent lender hcall] at hheld

theorem CreatedHere.own (h : CreatedHere directory index trace) :
    ∃ held, holding trace directory index = some held ∧ held.borrowed = false := by
  obtain ⟨virt, earlier, rfl, hnone, hsince⟩ := h
  exact hsince.holding ⟨_, holding_got_self hnone, rfl⟩ fun _ => False.elim

/-- A table that is not borrowed was created here. -/
theorem createdHere_of_own (holds : holding trace directory index = some held)
    (own : held.borrowed = false) : CreatedHere directory index trace := by
  induction trace generalizing held with
  | nil => simp at holds
  | cons call trace ih =>
      cases call with
      | got d virt found =>
          rcases holding_got_eq_some holds with hold | ⟨hnone, rfl, rfl, rfl, -⟩
          · exact (ih hold own).since nofun nofun
          · exact ⟨virt, trace, rfl, hnone, .now⟩
      | wrote d virt entry => exact (ih holds own).since nofun nofun
      | linked d lender =>
          rcases holding_linked_eq_some holds with ⟨hold, hunlent⟩ | ⟨-, lent, -, rfl⟩
          · refine (ih hold own).since nofun ?_
            rintro other ⟨⟩
            exact hunlent rfl
          · contradiction
      | took d taken =>
          obtain ⟨hold, hkept⟩ := holding_took_eq_some holds
          refine (ih hold own).since ?_ nofun
          rintro ⟨⟩
          exact hkept ⟨rfl, rfl⟩

/-! ## Entries -/

theorem written_wrote (directory : ι) (virt : Nat) (entry : PageEntry) (serial page : Nat) :
    written (.wrote directory virt entry :: trace) serial page =
      if pageNumber virt = page ∧ Holds trace directory (tableIndex virt) serial then entry
      else written trace serial page := rfl

/-- Nothing was written into a table before it was created. -/
theorem written_of_length_le {serial : Nat} (h : trace.length ≤ serial) (page : Nat) :
    written trace serial page = .empty := by
  induction trace with
  | nil => rfl
  | cons call earlier ih =>
      have hearlier : earlier.length ≤ serial := Nat.le_of_succ_le h
      cases call with
      | wrote d virt entry =>
          rw [written_wrote, if_neg, ih hearlier]
          rintro ⟨-, hheld⟩
          obtain ⟨held, hholding, rfl⟩ := Option.map_eq_some_iff.mp hheld
          exact absurd (serial_lt hholding) (Nat.not_lt.mpr hearlier)
      | got | linked | took => exact ih hearlier

theorem translation_got (virt : Nat) (found : Bool) (addr : Nat) :
    translation (.got directory virt found :: trace) other addr = translation trace other addr := by
  unfold translation
  cases hold : holding trace other (tableIndex addr) with
  | some held => rw [holding_got_of_some hold]; rfl
  | none =>
      cases hnew : holding (.got directory virt found :: trace) other (tableIndex addr) with
      | none => rfl
      | some held =>
          rcases holding_got_eq_some hnew with hsame | ⟨-, -, -, -, rfl⟩
          · simp [hold] at hsame
          · have hempty : written (.got directory virt found :: trace) trace.length
                (pageNumber addr) = .empty := written_of_length_le (Nat.le_refl _) _
            simp [hempty]

theorem translation_wrote {virt addr : Nat} (entry : PageEntry)
    (differs : pageNumber addr ≠ pageNumber virt) :
    translation (.wrote directory virt entry :: trace) other addr =
      translation trace other addr := by
  unfold translation
  simp only [holding_wrote, written_wrote, Ne.symm differs, false_and, if_false]

end DirectoryCall

end KernelCore
