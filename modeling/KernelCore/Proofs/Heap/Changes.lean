import Mathlib
import KernelCore.Proofs.Heap.Books
import KernelCore.Proofs.Results

/-!
# Changes to the books

The four changes a heap makes to its books: cutting a hole up, lengthening the tail, marking a
block free and shortening the tail. Each succeeds on consistent books, leaves consistent books and
has a known effect on the used blocks; nothing but the block list, the index and the end changes.
-/

namespace KernelCore

namespace Heap

variable {heap : Heap}

/-! ## Cutting a hole up -/

theorem pieces_eq (hole : Hole) (pad size : Nat) :
    pieces hole pad size =
      freeSpan hole.addr (hole.addr + pad) ++ ⟨hole.addr + pad, size, true⟩ ::
        freeSpan (hole.addr + pad + size) (hole.addr + pad + size + (hole.size - pad - size)) := by
  simp [pieces, freeSpan]

theorem laid_pieces {hole : Hole} {pad size : Nat} (fits : pad + size ≤ hole.size)
    (pos : 0 < size) (addr : heapGranule ∣ hole.addr) (whole : heapGranule ∣ hole.size)
    (front : heapGranule ∣ pad) (middle : heapGranule ∣ size) :
    Laid hole.addr (pieces hole pad size) (hole.addr + hole.size) := by
  have hmid := Nat.dvd_add addr front
  have hlast := Nat.dvd_add addr whole
  have hfront := laid_freeSpan (Nat.le_add_right hole.addr pad) addr hmid
  have hused : Laid (hole.addr + pad) [⟨hole.addr + pad, size, true⟩] (hole.addr + pad + size) :=
    Laid.singleton (x := ⟨hole.addr + pad, size, true⟩) pos hmid middle
  have hrest : Laid (hole.addr + pad + size)
      (freeSpan (hole.addr + pad + size) (hole.addr + hole.size)) (hole.addr + hole.size) :=
    laid_freeSpan (by omega) (Nat.dvd_add hmid middle) hlast
  have hend : hole.addr + pad + size + (hole.size - pad - size) = hole.addr + hole.size := by omega
  rw [pieces_eq, hend]
  exact hfront.append (hused.append hrest (by simp)) (by simp)

theorem usedBlocks_pieces (hole : Hole) (pad size : Nat) :
    usedBlocks (pieces hole pad size) = [⟨hole.addr + pad, size, true⟩] := by
  simp [pieces_eq, usedBlocks_cons]

theorem length_pieces_pos (hole : Hole) (pad size : Nat) :
    0 < (pieces hole pad size).length := by
  simp only [pieces, List.length_append, List.length_cons]
  omega

/-- A hole is not cut up when its pieces would not fit the block list. -/
theorem take_full {hole : Hole} {pad size : Nat}
    (full : blockCapacity < heap.blocks.length + ((pieces hole pad size).length - 1)) :
    heap.take hole pad size = .ok (.error .indexFull, heap) := by
  simp only [take, full, if_true]
  rfl

theorem Books.take_eq (h : heap.Books) {hole : Hole} {pad size : Nat} (hm : hole ∈ heap.holes)
    (fits : pad + size ≤ hole.size) (pos : 0 < size) (front : heapGranule ∣ pad)
    (middle : heapGranule ∣ size)
    (room : heap.blocks.length + ((pieces hole pad size).length - 1) ≤ blockCapacity) :
    ∃ blocks holes, heap.take hole pad size =
        .ok (.ok (hole.addr + pad), { heap with blocks, holes }) ∧
      Books { heap with blocks, holes } ∧
      (usedBlocks blocks).Perm (⟨hole.addr + pad, size, true⟩ :: usedBlocks heap.blocks) := by
  obtain ⟨pre, post, hblocks⟩ := h.hole_split hm
  obtain ⟨-, -, -, haddr, hwhole⟩ := h.hole_bounds hm
  have hlaid := hblocks ▸ h.laid
  have hpos := length_pieces_pos hole pad size
  have hused := usedBlocks_pieces hole pad size
  have hparts := laid_pieces fits pos haddr hwhole front middle
  unfold take
  generalize pieces hole pad size = parts at *
  have hnew : Laid heap.start (pre ++ parts ++ post) heap.stop :=
    hlaid.front.between hparts hlaid.back (hlaid.coalesced.last_used rfl)
      (hlaid.coalesced.head_used rfl)
  have hplace : replaceAt hole.addr parts heap.blocks = some (pre ++ parts ++ post) := by
    rw [hblocks]
    exact replaceAt_append fun y hy => hlaid.tiles.addr_ne_of_mem_front hy
  have hlen : (pre ++ parts ++ post).length ≤ blockCapacity := by
    rw [hblocks] at room
    simp only [List.length_append, List.length_cons] at room ⊢
    omega
  have hrest : (heap.holes.erase hole).Perm (freeHoles pre ++ freeHoles post) := by
    have hcons : heap.holes.Perm (hole :: (freeHoles pre ++ freeHoles post)) := by
      have hlisted := h.listed
      rw [hblocks, freeHoles_append, freeHoles_cons] at hlisted
      exact hlisted.trans List.perm_middle
    simpa using hcons.erase hole
  have hall : (freeHoles parts ++ heap.holes.erase hole).Perm
      (freeHoles (pre ++ parts ++ post)) := by
    rw [freeHoles_append, freeHoles_append, List.append_assoc]
    exact (hrest.append_left _).trans
      (List.perm_append_comm_assoc _ _ _)
  obtain ⟨holes, hadd, hperm, hsorted⟩ := @addFree_eq parts
    { heap with blocks := pre ++ parts ++ post, holes := heap.holes.erase hole } (by
      have hle := length_freeHoles_le (pre ++ parts ++ post)
      have hlen' := hall.length_eq
      rw [List.length_append] at hlen'
      simp only
      omega)
  refine ⟨pre ++ parts ++ post, holes, ?_, ?_, ?_⟩
  · simp only [if_neg (Nat.not_lt.mpr room), hplace, dropHole_eq hm, bind, Except.bind, pure,
      Except.pure]
    rw [setBlocks_eq hlen]
    simp only [hadd]
  · exact ⟨hnew, hperm.trans hall, hsorted (h.sorted.erase hole), hlen⟩
  · rw [hblocks]
    simp [usedBlocks_cons, hused]

/-! ## Lengthening the tail -/

/-- A tail that was used before takes one more place in the list. -/
theorem length_front_append_freeSpan {stop : Nat} (lt : heap.tailStart < stop) :
    (heap.front ++ freeSpan heap.tailStart stop).length =
      heap.blocks.length + heap.freeTail?.isNone.toNat := by
  rw [freeSpan_of_lt lt, List.length_append, List.length_singleton]
  cases htail : heap.freeTail? with
  | none => simp [← (freeTail?_eq_none htail).1]
  | some tail => simp [(freeTail?_eq_some htail).2]

/-- The new tail is entered by one insertion into the index of the front. -/
theorem Books.enter_tail (h : heap.Books) {stop : Nat} (lt : heap.tailStart < stop)
    (first : heapGranule ∣ heap.start) (last : heapGranule ∣ stop)
    (room : (heap.front ++ freeSpan heap.tailStart stop).length ≤ blockCapacity)
    {holes : List Hole} (sorted : Hole.Sorted holes) (listed : holes.Perm (freeHoles heap.front)) :
    (Hole.insert ⟨stop - heap.tailStart, heap.tailStart⟩ holes).Perm
        (⟨stop - heap.tailStart, heap.tailStart⟩ :: freeHoles heap.front) ∧
      holes.length < blockCapacity ∧
      Books { heap with
        blocks := heap.front ++ freeSpan heap.tailStart stop
        holes := Hole.insert ⟨stop - heap.tailStart, heap.tailStart⟩ holes
        stop } := by
  have hfree : freeHoles (heap.front ++ freeSpan heap.tailStart stop) =
      freeHoles heap.front ++ [⟨stop - heap.tailStart, heap.tailStart⟩] := by
    simp [freeSpan_of_lt lt, freeHoles_cons]
  have hinsert := (Hole.insert_perm ⟨stop - heap.tailStart, heap.tailStart⟩ holes).trans
    (listed.cons _)
  refine ⟨hinsert, ?_, h.retail lt.le last ?_ (sorted.insert _) room first⟩
  · have hle := length_freeHoles_le heap.front
    have heq := listed.length_eq
    rw [freeSpan_of_lt lt, List.length_append, List.length_singleton] at room
    omega
  · rw [hfree]
    exact hinsert.trans (List.perm_append_singleton _ _).symm

/-- A longer backed part has a free tail from where the tail started before. -/
theorem Books.extend_eq (h : heap.Books) {stop : Nat} (longer : heap.stop < stop)
    (first : heapGranule ∣ heap.start) (last : heapGranule ∣ stop)
    (room : heap.blocks.length + heap.freeTail?.isNone.toNat ≤ blockCapacity) :
    ∃ holes, heap.extend stop =
        .ok { heap with blocks := heap.front ++ freeSpan heap.tailStart stop, holes, stop } ∧
      holes.Perm (⟨stop - heap.tailStart, heap.tailStart⟩ :: freeHoles heap.front) ∧
      Books { heap with blocks := heap.front ++ freeSpan heap.tailStart stop, holes, stop } := by
  have hlt : heap.tailStart < stop := Nat.lt_of_le_of_lt h.tailStart_le longer
  have hspan := freeSpan_of_lt hlt
  have hlen : (heap.front ++ freeSpan heap.tailStart stop).length ≤ blockCapacity := by
    rw [length_front_append_freeSpan hlt]
    exact room
  cases htail : heap.freeTail? with
  | none =>
      obtain ⟨hblocks, -⟩ := freeTail?_eq_none htail
      have hstart := tailStart_of_none htail
      obtain ⟨hperm, hroom, hbooks⟩ :=
        h.enter_tail hlt first last hlen h.sorted (hblocks ▸ h.listed)
      refine ⟨_, ?_, hperm, hbooks⟩
      rw [hspan, ← hblocks, hstart] at hlen
      simp only [extend, htail, bind, Except.bind, pure, Except.pure]
      rw [setBlocks_eq hlen]
      simp only
      rw [addHole_eq (by exact hroom), hspan, hstart, hblocks]
  | some tail =>
      obtain ⟨htaileq, hlttail⟩ := h.freeTail_eq htail
      obtain ⟨hdrop, hrest⟩ := h.dropTail_eq htail
      have hsize : tail.size + (stop - heap.stop) = stop - heap.tailStart := by
        rw [htaileq]
        simp only
        omega
      have hlonger : ({ tail with size := stop - heap.tailStart } : Block) =
          ⟨heap.tailStart, stop - heap.tailStart, false⟩ := by rw [htaileq]
      have hinit : heap.blocks.dropLast = heap.front := by simp [front, htail]
      obtain ⟨hperm, hroom, hbooks⟩ :=
        h.enter_tail hlt first last hlen (h.sorted.erase _) hrest
      refine ⟨_, ?_, hperm, hbooks⟩
      rw [hspan] at hlen
      simp only [extend, htail, hdrop, hinit, hsize, hlonger, bind, Except.bind, pure, Except.pure]
      rw [setBlocks_eq hlen]
      simp only
      rw [addHole_eq (by exact hroom), hspan, ← tailStart_of_some htail]

/-! ## Marking a block free -/

/-- Merging with what follows leaves a block that reaches up to a used one or to the end. -/
theorem mergeNext_eq {block : Block} {after : List Block} {listed : List Hole} {stop : Nat}
    (hlisted : heap.holes.Perm (listed ++ freeHoles after)) (hlaid : Laid block.stop after stop)
    (granular : heapGranule ∣ block.size) :
    ∃ size rest holes,
      heap.mergeNext block after = .ok ({ block with size }, rest, { heap with holes }) ∧
      block.size ≤ size ∧ heapGranule ∣ size ∧ holes.Perm (listed ++ freeHoles rest) ∧
      (Hole.Sorted heap.holes → Hole.Sorted holes) ∧ Laid (block.addr + size) rest stop ∧
      (∀ y ∈ rest.head?, y.used = true) ∧ usedBlocks rest = usedBlocks after ∧
      rest.length ≤ after.length := by
  cases after with
  | nil =>
      exact ⟨block.size, [], heap.holes, rfl, Nat.le_refl _, granular, hlisted, id, hlaid,
        by simp, rfl, Nat.le_refl _⟩
  | cons next rest =>
      cases hnext : next.used with
      | true =>
          refine ⟨block.size, next :: rest, heap.holes, ?_, Nat.le_refl _, granular, hlisted, id,
            hlaid, by simp [hnext], rfl, Nat.le_refl _⟩
          simp [mergeNext, hnext]
      | false =>
          have hperm : heap.holes.Perm (⟨next.size, next.addr⟩ :: (listed ++ freeHoles rest)) := by
            rw [freeHoles_cons, hnext] at hlisted
            exact hlisted.trans List.perm_middle
          have hfront : Laid block.stop ([] ++ next :: rest) stop := hlaid
          have haddr : next.addr = block.stop := hlaid.tiles.1
          have hstop : next.stop = block.addr + (block.size + next.size) := by
            unfold Block.stop at haddr ⊢
            omega
          refine ⟨block.size + next.size, rest, heap.holes.erase ⟨next.size, next.addr⟩, ?_,
            Nat.le_add_right _ _, Nat.dvd_add granular (hlaid.granular next (by simp)).2,
            by simpa using hperm.erase (⟨next.size, next.addr⟩ : Hole), fun h => h.erase _,
            hstop ▸ hfront.back, hfront.coalesced.head_used hnext, ?_, by simp⟩
          · simp only [mergeNext, hnext, Bool.false_eq_true, if_false]
            rw [dropHole_eq (hperm.mem_iff.mpr (by simp))]
            rfl
          · simp [usedBlocks_cons, hnext]

/-- Merging with what stands in front leaves a block that starts behind a used one or with the
heap. -/
theorem mergePrevious_eq {block : Block} {passed : List Block} {listed : List Hole} {start : Nat}
    (hlisted : heap.holes.Perm (listed ++ freeHoles passed))
    (hlaid : Laid start passed.reverse block.addr) (addr : heapGranule ∣ block.addr)
    (granular : heapGranule ∣ block.size) (free : block.used = false) :
    ∃ merged rest holes,
      heap.mergePrevious passed block = .ok (rest, merged, { heap with holes }) ∧
      merged.used = false ∧ merged.stop = block.stop ∧ block.size ≤ merged.size ∧
      heapGranule ∣ merged.addr ∧ heapGranule ∣ merged.size ∧
      holes.Perm (listed ++ freeHoles rest) ∧ (Hole.Sorted heap.holes → Hole.Sorted holes) ∧
      Laid start rest.reverse merged.addr ∧ (∀ y ∈ rest.reverse.getLast?, y.used = true) ∧
      usedBlocks rest.reverse = usedBlocks passed.reverse ∧ rest.length ≤ passed.length := by
  cases passed with
  | nil =>
      exact ⟨block, [], heap.holes, rfl, free, rfl, Nat.le_refl _, addr, granular, hlisted, id,
        hlaid, by simp, rfl, Nat.le_refl _⟩
  | cons previous rest =>
      cases hprevious : previous.used with
      | true =>
          refine ⟨block, previous :: rest, heap.holes, ?_, free, rfl, Nat.le_refl _, addr,
            granular, hlisted, id, hlaid, by simp [hprevious], rfl, Nat.le_refl _⟩
          simp [mergePrevious, hprevious]
      | false =>
          rw [List.reverse_cons] at hlaid
          have hperm : heap.holes.Perm
              (⟨previous.size, previous.addr⟩ :: (listed ++ freeHoles rest)) := by
            rw [freeHoles_cons, hprevious] at hlisted
            exact hlisted.trans List.perm_middle
          have hgran := hlaid.granular previous (by simp)
          have hstop : previous.stop = block.addr := hlaid.tiles.split.2.2
          refine ⟨{ previous with size := previous.size + block.size }, rest,
            heap.holes.erase ⟨previous.size, previous.addr⟩, ?_, hprevious, ?_,
            Nat.le_add_left _ _, hgran.1, Nat.dvd_add hgran.2 granular,
            by simpa using hperm.erase (⟨previous.size, previous.addr⟩ : Hole), fun h => h.erase _,
            hlaid.front, hlaid.coalesced.last_used hprevious, ?_, by simp⟩
          · simp only [mergePrevious, hprevious, Bool.false_eq_true, if_false]
            rw [dropHole_eq (hperm.mem_iff.mpr (by simp))]
            rfl
          · unfold Block.stop at hstop ⊢
            simp only
            omega
          · simp [usedBlocks_cons, hprevious]

theorem Books.splitAt_eq (h : heap.Books) {pre post : List Block} {x : Block}
    (hblocks : heap.blocks = pre ++ x :: post) :
    splitAt x.addr [] heap.blocks = some (pre.reverse, x, post) := by
  have htiles := hblocks ▸ h.laid.tiles
  rw [hblocks, splitAt_append fun y hy => htiles.addr_ne_of_mem_front hy, List.append_nil]

/-- Marking a used block free takes it, and only it, out of the used blocks. -/
theorem Books.release_eq (h : heap.Books) {block : Block} (hm : block ∈ usedBlocks heap.blocks) :
    ∃ blocks holes, heap.release block.addr = .ok { heap with blocks, holes } ∧
      Books { heap with blocks, holes } ∧
      (usedBlocks heap.blocks).Perm (block :: usedBlocks blocks) := by
  obtain ⟨hmem, hused⟩ := List.mem_filter.mp hm
  obtain ⟨pre, post, hblocks⟩ := List.append_of_mem hmem
  have hlaid := hblocks ▸ h.laid
  have hpos := hlaid.tiles.split.2.1
  obtain ⟨haddr, hsize⟩ := h.laid.granular block hmem
  have hlisted : heap.holes.Perm (freeHoles pre ++ freeHoles post) := by
    have hl := h.listed
    rwa [hblocks, freeHoles_append, freeHoles_cons, if_pos hused] at hl
  have hsplit := h.splitAt_eq hblocks
  have hbound := h.bounded
  rw [hblocks, List.length_append, List.length_cons] at hbound
  -- First what follows, then what stands in front.
  obtain ⟨size, after, holes₁, hnext, hle₁, hgran₁, hperm₁, hsort₁, hlaid₁, hhead, hused₁, hlen₁⟩ :=
    @mergeNext_eq heap { block with used := false } _ _ _ hlisted hlaid.back hsize
  have hfront : holes₁.Perm (freeHoles after ++ freeHoles pre.reverse) := by
    refine hperm₁.trans (List.perm_append_comm.trans (List.Perm.append_left _ ?_))
    exact ((List.reverse_perm pre).symm.filter _).map _
  obtain ⟨merged, passed, holes₂, hprev, hfree, hstop, hle₂, haddr₂, hgran₂, hperm₂, hsort₂, hlaid₂,
      hlast, hused₂, hlen₂⟩ :=
    @mergePrevious_eq { heap with holes := holes₁ } { block with size, used := false } _ _
      heap.start hfront (by simpa using hlaid.front) haddr hgran₁ rfl
  simp only [List.reverse_reverse, List.length_reverse] at hused₂ hlen₂ hle₁ hle₂ hstop hlaid₁
  have hmid : Laid merged.addr [merged] merged.stop :=
    Laid.singleton (by omega) haddr₂ hgran₂
  have hnew : Laid heap.start (passed.reverse ++ [merged] ++ after) heap.stop :=
    hlaid₂.between hmid (hstop ▸ hlaid₁) hlast hhead
  rw [List.append_assoc, List.singleton_append] at hnew
  have hlen : (passed.reverse ++ merged :: after).length ≤ blockCapacity := by
    simp only [List.length_append, List.length_reverse, List.length_cons]
    omega
  have hholes : (Hole.insert ⟨merged.size, merged.addr⟩ holes₂).Perm
      (freeHoles (passed.reverse ++ merged :: after)) := by
    rw [freeHoles_append, freeHoles_cons, hfree]
    have hrev : (freeHoles passed.reverse).Perm (freeHoles passed) :=
      ((List.reverse_perm passed).filter _).map _
    have hswap : holes₂.Perm (freeHoles passed.reverse ++ freeHoles after) :=
      hperm₂.trans (List.perm_append_comm.trans (hrev.symm.append_right _))
    exact (Hole.insert_perm _ _).trans ((hswap.cons _).trans List.perm_middle.symm)
  have hroom : holes₂.length < blockCapacity := by
    have heq := hperm₂.length_eq
    have hle := length_freeHoles_le passed
    have hle' := length_freeHoles_le after
    rw [List.length_append] at heq
    omega
  refine ⟨passed.reverse ++ merged :: after, Hole.insert ⟨merged.size, merged.addr⟩ holes₂, ?_,
    ⟨hnew, hholes, (hsort₂ (hsort₁ h.sorted)).insert _, hlen⟩, ?_⟩
  · simp only [release, hsplit, hused, Bool.not_true, Bool.false_eq_true, if_false, hnext, hprev,
      bind, Except.bind, List.reverseAux_eq]
    rw [setBlocks_eq hlen]
    simp only
    rw [addHole_eq (by exact hroom)]
  · rw [hblocks]
    simp only [usedBlocks_append, usedBlocks_cons, hused, hfree, hused₁, hused₂]
    simp

/-- No other address can be freed. -/
theorem Books.release_absent (h : heap.Books) {addr : Nat}
    (absent : ∀ x ∈ usedBlocks heap.blocks, x.addr ≠ addr) :
    heap.release addr = .error (.freeOfUnallocated addr) := by
  by_cases hm : ∃ x ∈ heap.blocks, x.addr = addr
  · obtain ⟨x, hx, rfl⟩ := hm
    have hfree : x.used = false := by
      cases hu : x.used with
      | false => rfl
      | true => exact absurd rfl (absent x (List.mem_filter.mpr ⟨hx, hu⟩))
    obtain ⟨pre, post, hblocks⟩ := List.append_of_mem hx
    simp only [release, h.splitAt_eq hblocks, hfree, Bool.not_false, if_true]
    rfl
  · have hnone : splitAt addr [] heap.blocks = none :=
      splitAt_eq_none fun y hy hsame => hm ⟨y, hy, hsame⟩
    simp only [release, hnone]
    rfl

/-! ## Shortening the tail -/

/-- A shorter backed part keeps the front, and of the free tail what is still backed. -/
theorem Books.shorten_eq (h : heap.Books) {tail : Block} {stop : Nat}
    (htail : heap.freeTail? = some tail) (le : tail.addr ≤ stop)
    (first : heapGranule ∣ heap.start) (last : heapGranule ∣ stop) :
    ∃ holes, heap.shorten tail stop =
        .ok { heap with blocks := heap.front ++ freeSpan heap.tailStart stop, holes, stop } ∧
      Books { heap with blocks := heap.front ++ freeSpan heap.tailStart stop, holes, stop } := by
  obtain ⟨hunused, hblocks⟩ := freeTail?_eq_some htail
  obtain ⟨hdrop, hrest⟩ := h.dropTail_eq htail
  have hstart := (tailStart_of_some htail).symm
  have hinit : heap.blocks.dropLast = heap.front := by simp [front, htail]
  have hbounded := h.bounded
  rw [hstart] at le hdrop hrest
  unfold shorten
  simp only [hstart, hdrop, bind, Except.bind, pure, Except.pure]
  by_cases hempty : stop = heap.tailStart
  · have hspan : freeSpan heap.tailStart stop = [] := by
      rw [freeSpan, if_neg (by omega)]
    have hlen : (heap.front ++ freeSpan heap.tailStart stop).length ≤ blockCapacity := by
      rw [hblocks] at hbounded
      rw [hspan, List.append_nil]
      exact Nat.le_trans (List.sublist_append_left _ _).length_le hbounded
    refine ⟨heap.holes.erase ⟨tail.size, heap.tailStart⟩, ?_,
      h.retail le last (by simpa [hspan] using hrest) (h.sorted.erase _) hlen first⟩
    rw [if_pos hempty, hspan, List.append_nil, hinit]
  · have hlt : heap.tailStart < stop := by omega
    have hspan := freeSpan_of_lt hlt
    have hlen : (heap.front ++ freeSpan heap.tailStart stop).length ≤ blockCapacity := by
      rw [length_front_append_freeSpan hlt, htail]
      exact hbounded
    obtain ⟨-, hroom, hbooks⟩ := h.enter_tail hlt first last hlen (h.sorted.erase _) hrest
    refine ⟨_, ?_, hbooks⟩
    rw [hspan] at hlen
    rw [if_neg hempty, Word.sub, if_pos le]
    simp only
    rw [hinit, hunused, setBlocks_eq hlen]
    simp only
    rw [addHole_eq (by exact hroom), hspan]

end Heap

end KernelCore
