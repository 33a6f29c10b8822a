import Mathlib
import KernelCore.Proofs.Memory.Reservations

/-!
# How static memory is carved

Each block starts at the first multiple of its alignment behind the block before it, and static
memory ends for good where a block would not fit any more. What follows for all blocks together is
collected in `Arena.Disciplined`.
-/

namespace KernelCore

/-! ## Alignments -/

theorem Word.nextPowerOfTwo_eq (n : Nat) : Word.nextPowerOfTwo n = 2 ^ Nat.clog 2 n := by
  unfold nextPowerOfTwo
  split
  · next hsmall => rw [Nat.clog_of_right_le_one hsmall, Nat.pow_zero]
  · next hlarge =>
      have hlow := Nat.log2_self_le (n := n - 1) (by omega)
      have hhigh := Nat.lt_log2_self (n := n - 1)
      have hexponent : Nat.clog 2 n = (n - 1).log2 + 1 := by
        apply Nat.le_antisymm
        · exact (Nat.clog_le_iff_le_pow (by decide)).mpr (by omega)
        · exact (Nat.lt_clog_iff_pow_lt (by decide)).mpr (by omega)
      rw [hexponent, Nat.one_shiftLeft]

/-- A block of `size` bytes starts at a multiple of this: of the least power of two that is not
below the size, or of 16 if that is less, or of the page size. -/
def Alignment.unit (size : Nat) : Alignment → Nat
  | natural => min (2 ^ Nat.clog 2 size) maxNaturalAlign
  | page => pageSize

theorem Alignment.exists_unit_eq (alignment : Alignment) (size : Nat) :
    ∃ k, alignment.unit size = 1 <<< k := by
  simp only [Nat.one_shiftLeft]
  cases alignment with
  | natural =>
      have hmono : Monotone fun k => 2 ^ k := fun _ _ h => Nat.pow_le_pow_right (by decide) h
      exact ⟨min (Nat.clog 2 size) 4, (hmono.map_min (a := Nat.clog 2 size) (b := 4)).symm⟩
  | page => exact ⟨12, rfl⟩

theorem Alignment.unit_pos (alignment : Alignment) (size : Nat) : 0 < alignment.unit size := by
  obtain ⟨k, hunit⟩ := alignment.exists_unit_eq size
  rw [hunit, Nat.one_shiftLeft]
  exact Nat.two_pow_pos k

def roundUp (unit addr : Nat) : Nat := (addr + (unit - 1)) / unit * unit

theorem dvd_roundUp (unit addr : Nat) : unit ∣ roundUp unit addr := Nat.dvd_mul_left _ _

theorem roundUp_bounds {unit : Nat} (pos : 0 < unit) (addr : Nat) :
    addr ≤ roundUp unit addr ∧ roundUp unit addr < addr + unit := by
  have hsplit := Nat.div_add_mod' (addr + (unit - 1)) unit
  have hrest := Nat.mod_lt (addr + (unit - 1)) pos
  unfold roundUp
  omega

theorem Word.alignUp_unit (alignment : Alignment) (size addr : Nat) :
    Word.alignUp addr (alignment.unit size) =
      if addr + alignment.unit size < wordLimit then .ok (roundUp (alignment.unit size) addr)
      else .error .addOverflow := by
  obtain ⟨k, hunit⟩ := alignment.exists_unit_eq size
  rw [hunit, Word.alignUp_shift, Nat.one_shiftLeft, Nat.shiftRight_eq_div_pow, Nat.shiftLeft_eq,
    roundUp]

/-! ## Reservations -/

theorem Word.filter_add? (addr size limit : Nat) :
    (Word.add? addr size).filter (· ≤ limit) =
      if wordLimit ≤ addr + size ∨ limit < addr + size then none else some (addr + size) := by
  unfold add?
  split
  · next hrange =>
      by_cases hroom : addr + size ≤ limit
      · rw [if_neg (by omega)]
        simp [hroom]
      · rw [if_pos (by omega), Option.filter_some, if_neg (by simpa using hroom)]
  · next hrange => rw [if_pos (by omega), Option.filter_none]

namespace Arena

def start (arena : Arena) (size : Nat) (alignment : Alignment) : Nat :=
  roundUp (alignment.unit size) arena.cursor

theorem alignmentOf_eq (size : Nat) (alignment : Alignment) :
    alignmentOf size alignment =
      if alignment = .natural ∧ 0x8000000000000000 < size then .error .addOverflow
      else .ok (alignment.unit size) := by
  cases alignment with
  | natural =>
      by_cases hfits : size ≤ 0x8000000000000000
      · rw [alignmentOf, Word.naturalAlign, if_pos hfits, Word.nextPowerOfTwo_eq,
          if_neg (by omega)]
        rfl
      · rw [alignmentOf, Word.naturalAlign, if_neg hfits, if_pos ⟨rfl, by omega⟩]
  | page =>
      rw [if_neg (by simp)]
      rfl

/-- A block is granted whole where it fits, and nothing but the cursor changes. Where it does not,
or where its alignment, start or end does not fit a word, the request is a fault. -/
theorem reserve_eq (arena : Arena) {size : Nat} (pos : 0 < size) (alignment : Alignment) :
    arena.reserve size alignment =
      if alignment = .natural ∧ 0x8000000000000000 < size then .error .addOverflow
      else if wordLimit ≤ arena.cursor + alignment.unit size then .error .addOverflow
      else if wordLimit ≤ arena.start size alignment + size ∨
          arena.limit < arena.start size alignment + size then
        .error (.arenaExhausted size (arena.start size alignment) arena.limit)
      else .ok (⟨arena.start size alignment, arena.start size alignment⟩,
        { arena with cursor := arena.start size alignment + size }) := by
  rw [reserve, if_neg (by omega), alignmentOf_eq]
  -- The checks for the alignment, the start and the end, in the order in which they are made.
  split
  · rfl
  simp only [ok_bind, Word.alignUp_unit, ← Nat.not_le (a := wordLimit)]
  by_cases hstart : wordLimit ≤ arena.cursor + alignment.unit size
  · rw [if_neg (not_not_intro hstart), if_pos hstart]
    rfl
  · rw [if_pos hstart, if_neg hstart, ok_bind, ← start, Word.filter_add?]
    by_cases hstop : wordLimit ≤ arena.start size alignment + size ∨
        arena.limit < arena.start size alignment + size
    · rw [if_pos hstop, if_pos hstop]
      rfl
    · rw [if_neg hstop, if_neg hstop]
      rfl

/-! ## Requests -/

inductive Request where
  | block (size : Nat) (alignment : Alignment)
  /-- Bytes at the alignment of their number; the answer is where they begin. -/
  | bytes (size : Nat)
  | pages (size : Nat)
  /-- A page table, which is cleared in the given memory. -/
  | table (ram : Ram)

namespace Request

def size : Request → Nat
  | block size _ | bytes size | pages size => size
  | table _ => tableBytes

def alignment : Request → Alignment
  | block _ alignment => alignment
  | bytes _ => .natural
  | pages _ | table _ => .page

def unit (request : Request) : Nat := request.alignment.unit request.size

def start (arena : Arena) (request : Request) : Nat := arena.start request.size request.alignment

/-- The block would pass the limit, or finding its alignment, its start or its end leaves the range
of words. -/
def Exceeds (arena : Arena) (request : Request) : Prop :=
  arena.limit < request.start arena + request.size ∨
    wordLimit ≤ request.start arena + request.size ∨ wordLimit ≤ arena.cursor + request.unit ∨
    request.alignment = .natural ∧ 0x8000000000000000 < request.size

/-- The block of a page table. A table at address 0 is refused, although its block is taken. -/
def tablePlace : Except PagingError TableRef → Placement
  | .ok slot => ⟨slot.table, slot.phys⟩
  | .error _ => ⟨0, 0⟩

def serve (arena : Arena) : Request → Except Fault (Placement × Arena)
  | block size alignment => arena.reserve size alignment
  | bytes size => do
      let (addr, arena) ← arena.allocate size
      return (⟨addr, addr⟩, arena)
  | pages size => arena.reservePages size
  | table ram => do
      let (answer, arena, _) ← (tables.grant (arena, ram)).result
      return (tablePlace answer, arena)

theorem serve_table (arena : Arena) (ram : Ram) :
    (table ram).serve arena = arena.reserve tableBytes .page := by
  simp only [serve]
  change (grantTable (arena, ram)).result >>= _ = _
  cases hreserve : arena.reserve tableBytes .page with
  | error fault =>
      simp only [grantTable, Traced.result_bind, Traced.result_lift, hreserve, error_bind]
  | ok answer =>
      obtain ⟨⟨addr, phys⟩, arena'⟩ := answer
      obtain rfl : phys = addr := reserve_phys hreserve
      simp only [grantTable, Traced.result_bind, Traced.result_lift, hreserve, ok_bind]
      split
      · next hzero =>
          obtain rfl : phys = 0 := hzero
          rfl
      · rfl

theorem serve_eq_reserve (arena : Arena) (request : Request) :
    request.serve arena = arena.reserve request.size request.alignment := by
  cases request with
  | block size alignment => rfl
  | pages size => rfl
  | table ram => exact serve_table arena ram
  | bytes size =>
      simp only [serve, allocate, Request.size, Request.alignment]
      cases hreserve : arena.reserve size .natural with
      | error fault => rfl
      | ok answer =>
          obtain ⟨⟨addr, phys⟩, arena'⟩ := answer
          obtain rfl : phys = addr := reserve_phys hreserve
          rfl

variable {arena arena' : Arena} {request : Request} {place : Placement}

theorem serve_of_exceeds (pos : 0 < request.size) (exceeds : request.Exceeds arena) :
    ∃ fault, request.serve arena = .error fault := by
  rw [serve_eq_reserve, reserve_eq arena pos]
  split
  · exact ⟨_, rfl⟩
  split
  · exact ⟨_, rfl⟩
  split
  · exact ⟨_, rfl⟩
  · next hsize hstart hstop =>
      -- No check has failed, so the block fits after all.
      unfold Exceeds unit start at exceeds
      tauto

theorem serve_of_not_exceeds (pos : 0 < request.size) (fits : ¬request.Exceeds arena) :
    request.serve arena = .ok (⟨request.start arena, request.start arena⟩,
      { arena with cursor := request.start arena + request.size }) := by
  unfold Exceeds unit at fits
  simp only [not_or] at fits
  obtain ⟨hlimit, hstop, hstart, hsize⟩ := fits
  rw [serve_eq_reserve, reserve_eq arena pos, if_neg hsize, if_neg hstart]
  exact if_neg (not_or_intro hstop hlimit)

theorem serve_eq_ok (h : request.serve arena = .ok (place, arena')) :
    place = ⟨request.start arena, request.start arena⟩ ∧
      arena' = { arena with cursor := request.start arena + request.size } := by
  have hpos := (reserve_eq_ok (request.serve_eq_reserve arena ▸ h)).2.1
  by_cases hexceeds : request.Exceeds arena
  · obtain ⟨fault, hfault⟩ := serve_of_exceeds hpos hexceeds
    rw [hfault] at h
    cases h
  · rw [serve_of_not_exceeds hpos hexceeds] at h
    obtain ⟨rfl, rfl⟩ := Prod.mk.injEq .. ▸ Except.ok.inj h
    exact ⟨rfl, rfl⟩

end Request

/-! ## Runs -/

structure Grant where
  request : Request
  place : Placement

def Grant.block (grant : Grant) : Reservation := ⟨grant.place.addr, grant.request.size⟩

/-- The blocks that the requests since `first` were granted, the latest first. Requests that were
refused have left nothing behind. -/
inductive Carved (first : Arena) : List Grant → Arena → Prop
  | nothing : Carved first [] first
  | served {log : List Grant} {arena arena' : Arena} {request : Request} {place : Placement} :
      Carved first log arena → request.serve arena = .ok (place, arena') →
      Carved first (⟨request, place⟩ :: log) arena'

def reached (base : Nat) : List Grant → Nat
  | [] => base
  | grant :: _ => grant.block.stop

/-- What holds for all blocks of static memory together. -/
structure Disciplined (kernelEnd modulesEnd limit : Nat) (log : List Grant) (arena : Arena) :
    Prop where
  base_page : pageSize ∣ arena.base
  base_past : kernelEnd ≤ arena.base ∧ modulesEnd ≤ arena.base
  limit_eq : arena.limit = limit
  inside : ∀ grant ∈ log,
    arena.base ≤ grant.block.addr ∧ 0 < grant.block.size ∧ grant.block.stop ≤ limit
  rising : log.Pairwise fun later earlier => earlier.block.addr < later.block.addr
  apart : log.Pairwise fun later earlier => Disjoint
    (Set.Ico earlier.block.addr earlier.block.stop) (Set.Ico later.block.addr later.block.stop)
  aligned : ∀ grant ∈ log, grant.request.unit ∣ grant.block.addr
  /-- In front of a block is less room than one unit of its alignment. -/
  snug : ∀ later grant earlier, log = later ++ grant :: earlier →
    reached arena.base earlier ≤ grant.block.addr ∧
      grant.block.addr < reached arena.base earlier + grant.request.unit
  identity : ∀ grant ∈ log, grant.place.phys = grant.block.addr
  cursor_eq : arena.cursor = reached arena.base log
  /-- Whatever is granted from here on, the cursor does not fall back. -/
  forward : ∀ more later, arena.Carved more later → arena.cursor ≤ later.cursor
  /-- The next request is a fault where it does not fit, -/
  refused : ∀ request : Request, 0 < request.size → request.Exceeds arena →
    ∃ fault, request.serve arena = .error fault
  /-- and is granted whole where it does. -/
  granted : ∀ request : Request, 0 < request.size → ¬request.Exceeds arena →
    request.serve arena = .ok (⟨request.start arena, request.start arena⟩,
      { arena with cursor := request.start arena + request.size })

namespace Carved

variable {first arena : Arena} {log : List Grant}

/-- The blocks of a run are handed out one behind the other. -/
theorem issued (h : first.Carved log arena) : first.Issued (log.map Grant.block) arena := by
  induction h with
  | nothing => exact .nothing
  | served _ hserve ih => exact ih.reserved (Request.serve_eq_reserve _ _ ▸ hserve)

theorem arena_eq (h : first.Carved log arena) :
    arena = { first with cursor := reached first.cursor log } := by
  induction h with
  | nothing => rfl
  | served _ hserve ih =>
      obtain ⟨rfl, rfl⟩ := Request.serve_eq_ok hserve
      rw [ih]
      rfl

/-- A block of a run was granted when only the blocks before it were. -/
theorem place_eq (h : first.Carved log arena) {later earlier : List Grant} {grant : Grant}
    (hlog : log = later ++ grant :: earlier) :
    grant.place = ⟨grant.request.start { first with cursor := reached first.cursor earlier },
      grant.request.start { first with cursor := reached first.cursor earlier }⟩ := by
  -- By induction on the run: the block is the latest one, or was granted before that.
  induction h generalizing later with
  | nothing => simp at hlog
  | served hbefore hserve ih =>
      cases later with
      | nil =>
          obtain ⟨rfl, rfl⟩ := List.cons.inj hlog
          rw [← hbefore.arena_eq]
          exact (Request.serve_eq_ok hserve).1
      | cons latest later => exact ih (List.cons.inj hlog).2

theorem within (h : first.Carved log arena) (fits : first.cursor ≤ first.limit) {grant : Grant}
    (hm : grant ∈ log) :
    first.cursor ≤ grant.block.addr ∧ 0 < grant.block.size ∧ grant.block.stop ≤ arena.cursor :=
  h.issued.between fits (List.mem_map_of_mem hm)

theorem ordered (h : first.Carved log arena) (fits : first.cursor ≤ first.limit) :
    log.Pairwise fun later earlier => earlier.block.stop ≤ later.block.addr :=
  List.pairwise_map.mp (h.issued.ordered fits)

/-- Static memory obeys its discipline, whatever it is asked for. -/
theorem disciplined {kernelEnd modulesEnd limit : Nat}
    (accepted : pastImage kernelEnd modulesEnd limit = .ok first)
    (carved : first.Carved log arena) :
    Disciplined kernelEnd modulesEnd limit log arena := by
  obtain ⟨-, hfits, hlimit⟩ := pastImage_eq_ok accepted
  have hbase : arena.base = first.cursor := by
    rw [carved.arena_eq, pastImage_fresh accepted]
  have hstart := pastImage_cursor accepted
  have hpast := le_pageUp (max kernelEnd modulesEnd)
  obtain ⟨-, hwithin, hsame⟩ := carved.issued.bounds hfits
  have hordered := carved.ordered hfits
  exact {
    base_page := hbase ▸ hstart ▸ dvd_pageUp _
    base_past := by omega
    limit_eq := hsame.trans hlimit
    inside := by
      intro grant hm
      obtain ⟨hlow, hpos, hhigh⟩ := carved.within hfits hm
      omega
    rising := by
      refine hordered.imp_of_mem fun {later earlier} _ hm hstop => ?_
      have hpos := (carved.within hfits hm).2.1
      unfold Reservation.stop at hstop
      omega
    apart := by
      refine hordered.imp fun {later earlier} hstop => ?_
      exact Set.Ico_disjoint_Ico_same.mono_right (Set.Ico_subset_Ico_left hstop)
    aligned := by
      intro grant hm
      obtain ⟨later, earlier, hlog⟩ := List.append_of_mem hm
      rw [Grant.block, carved.place_eq hlog]
      exact dvd_roundUp _ _
    snug := by
      intro later grant earlier hlog
      rw [Grant.block, carved.place_eq hlog, hbase]
      exact roundUp_bounds (Alignment.unit_pos _ _) _
    identity := by
      intro grant hm
      obtain ⟨later, earlier, hlog⟩ := List.append_of_mem hm
      rw [Grant.block, carved.place_eq hlog]
    cursor_eq := by rw [hbase, carved.arena_eq]
    forward := fun _ _ h => (h.issued.bounds hwithin).1
    refused := fun _ => Request.serve_of_exceeds
    granted := fun _ => Request.serve_of_not_exceeds }

end Carved

/-- Blocks behind an image that ends at 0x102345 and modules that end at 0x108001. -/
def mixedGrants : List Grant :=
  [⟨.block 24 .natural, ⟨0x10E010, 0x10E010⟩⟩, ⟨.pages 0x2001, ⟨0x10C000, 0x10C000⟩⟩,
    ⟨.table .empty, ⟨0x10A000, 0x10A000⟩⟩, ⟨.bytes 3, ⟨0x109000, 0x109000⟩⟩]

theorem disciplined_mixedGrants :
    pastImage 0x102345 0x108001 0x400000 = .ok ⟨0x109000, 0x109000, 0x400000⟩ ∧
      Carved ⟨0x109000, 0x109000, 0x400000⟩ mixedGrants ⟨0x109000, 0x10E028, 0x400000⟩ ∧
      Disciplined 0x102345 0x108001 0x400000 mixedGrants ⟨0x109000, 0x10E028, 0x400000⟩ := by
  have accepted : pastImage 0x102345 0x108001 0x400000 = .ok ⟨0x109000, 0x109000, 0x400000⟩ := by
    rfl
  have bytes : (Request.bytes 3).serve ⟨0x109000, 0x109000, 0x400000⟩ =
      .ok (⟨0x109000, 0x109000⟩, ⟨0x109000, 0x109003, 0x400000⟩) := by rfl
  have table : (Request.table .empty).serve ⟨0x109000, 0x109003, 0x400000⟩ =
      .ok (⟨0x10A000, 0x10A000⟩, ⟨0x109000, 0x10C000, 0x400000⟩) :=
    (Request.serve_table _ _).trans (by rfl)
  have pages : (Request.pages 0x2001).serve ⟨0x109000, 0x10C000, 0x400000⟩ =
      .ok (⟨0x10C000, 0x10C000⟩, ⟨0x109000, 0x10E001, 0x400000⟩) := by rfl
  have block : (Request.block 24 .natural).serve ⟨0x109000, 0x10E001, 0x400000⟩ =
      .ok (⟨0x10E010, 0x10E010⟩, ⟨0x109000, 0x10E028, 0x400000⟩) := by rfl
  have carved := (((Carved.nothing.served bytes).served table).served pages).served block
  exact ⟨accepted, carved, Carved.disciplined accepted carved⟩

end Arena

end KernelCore
