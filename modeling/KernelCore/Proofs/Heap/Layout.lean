import Mathlib
import KernelCore.Heap.Allocation

/-!
# How blocks cover a range

`Tiles start blocks stop` says that the blocks cover `[start, stop)` in address order. Tilings are
cut and joined at block boundaries (`tiles_append`), so replacing one block by others is a local
matter. A block list is coalesced when no two free blocks are neighbours.
-/

namespace KernelCore

namespace Heap

/-! ## Tilings -/

/-- The blocks cover `[start, stop)` in address order, without gaps, and none is empty. -/
def Tiles : Nat → List Block → Nat → Prop
  | start, [], stop => start = stop
  | start, block :: rest, stop => block.addr = start ∧ 0 < block.size ∧ Tiles block.stop rest stop

theorem tiles_append {xs ys : List Block} {a c : Nat} :
    Tiles a (xs ++ ys) c ↔ ∃ b, Tiles a xs b ∧ Tiles b ys c := by
  induction xs generalizing a with
  | nil => simp [Tiles]
  | cons x xs ih => simp [Tiles, ih, and_assoc]

theorem tiles_singleton {x : Block} {a b : Nat} :
    Tiles a [x] b ↔ x.addr = a ∧ 0 < x.size ∧ x.stop = b := by
  simp [Tiles]

theorem Tiles.split {pre post : List Block} {x : Block} {a b : Nat}
    (h : Tiles a (pre ++ x :: post) b) :
    Tiles a pre x.addr ∧ 0 < x.size ∧ Tiles x.stop post b := by
  obtain ⟨m, hpre, hx, hpos, hpost⟩ := tiles_append.mp h
  subst hx
  exact ⟨hpre, hpos, hpost⟩

theorem Tiles.le {xs : List Block} {a b : Nat} (h : Tiles a xs b) : a ≤ b := by
  induction xs generalizing a with
  | nil => exact Nat.le_of_eq h
  | cons x xs ih =>
      obtain ⟨rfl, hpos, hrest⟩ := h
      have hle := ih hrest
      unfold Block.stop at hle
      omega

theorem Tiles.bounds {xs : List Block} {x : Block} {a b : Nat} (h : Tiles a xs b)
    (hx : x ∈ xs) : a ≤ x.addr ∧ 0 < x.size ∧ x.stop ≤ b := by
  obtain ⟨pre, post, rfl⟩ := List.append_of_mem hx
  obtain ⟨hpre, hpos, hpost⟩ := h.split
  exact ⟨hpre.le, hpos, hpost.le⟩

theorem Tiles.ordered {xs : List Block} {a b : Nat} (h : Tiles a xs b) :
    xs.Pairwise fun x y => x.stop ≤ y.addr := by
  induction xs generalizing a with
  | nil => exact .nil
  | cons x xs ih =>
      obtain ⟨-, -, hrest⟩ := h
      exact .cons (fun y hy => (hrest.bounds hy).1) (ih hrest)

theorem Tiles.nodup {xs : List Block} {a b : Nat} (h : Tiles a xs b) :
    (xs.map (·.addr)).Nodup := by
  rw [List.Nodup, List.pairwise_map]
  refine h.ordered.imp_of_mem fun {x y} hx _ hxy => ?_
  have hpos := (h.bounds hx).2.1
  unfold Block.stop at hxy
  omega

theorem Tiles.apart {xs : List Block} {x y : Block} {a b : Nat} (h : Tiles a xs b)
    (hx : x ∈ xs) (hy : y ∈ xs) : x = y ∨ x.stop ≤ y.addr ∨ y.stop ≤ x.addr := by
  obtain ⟨pre, post, rfl⟩ := List.append_of_mem hx
  have hord := h.ordered
  rw [List.pairwise_append] at hord
  rcases List.mem_append.mp hy with hy | hy
  · exact .inr (.inr (hord.2.2 y hy x (by simp)))
  · rcases List.mem_cons.mp hy with rfl | hy
    · exact .inl rfl
    · exact .inr (.inl ((List.pairwise_cons.mp hord.2.1).1 y hy))

theorem Tiles.eq_of_addr_eq {xs : List Block} {x y : Block} {a b : Nat} (h : Tiles a xs b)
    (hx : x ∈ xs) (hy : y ∈ xs) (same : x.addr = y.addr) : x = y := by
  have hxpos := (h.bounds hx).2.1
  have hypos := (h.bounds hy).2.1
  have hap := h.apart hx hy
  unfold Block.stop at hap
  rcases hap with heq | hlt | hlt
  · exact heq
  · omega
  · omega

theorem Tiles.addr_ne_of_mem_front {pre post : List Block} {x y : Block} {a b : Nat}
    (h : Tiles a (pre ++ x :: post) b) (hy : y ∈ pre) : y.addr ≠ x.addr := by
  obtain ⟨hpre, -, -⟩ := h.split
  have hb := hpre.bounds hy
  unfold Block.stop at hb
  omega

theorem Tiles.sum_size {xs : List Block} {a b : Nat} (h : Tiles a xs b) :
    a + (xs.map (·.size)).sum = b := by
  induction xs generalizing a with
  | nil => simpa [Tiles] using h
  | cons x xs ih =>
      obtain ⟨rfl, -, hrest⟩ := h
      have hsum := ih hrest
      unfold Block.stop at hsum
      rw [List.map_cons, List.sum_cons]
      omega

/-! ## Neighbours -/

def Coalesced (blocks : List Block) : Prop :=
  blocks.IsChain fun x y => x.used = true ∨ y.used = true

theorem coalesced_singleton (x : Block) : Coalesced [x] := .singleton x

theorem Coalesced.front {xs ys : List Block} (h : Coalesced (xs ++ ys)) : Coalesced xs :=
  (List.isChain_append.mp h).1

theorem Coalesced.back {xs ys : List Block} (h : Coalesced (xs ++ ys)) : Coalesced ys :=
  (List.isChain_append.mp h).2.1

/-- In front of a free block stands a used one, or none. -/
theorem Coalesced.last_used {pre post : List Block} {x : Block}
    (h : Coalesced (pre ++ x :: post)) (free : x.used = false) :
    ∀ y ∈ pre.getLast?, y.used = true := by
  intro y hy
  have hor := (List.isChain_append.mp h).2.2 y hy x (by simp)
  simpa [free] using hor

theorem Coalesced.head_used {pre post : List Block} {x : Block}
    (h : Coalesced (pre ++ x :: post)) (free : x.used = false) :
    ∀ y ∈ post.head?, y.used = true := by
  intro y hy
  cases post with
  | nil => simp at hy
  | cons z post =>
      simp only [List.head?_cons, Option.mem_some_iff] at hy
      subst hy
      have hor := (List.isChain_cons_cons.mp h.back).1
      simpa [free] using hor

theorem Coalesced.append {xs ys : List Block} (hxs : Coalesced xs) (hys : Coalesced ys)
    (meet : ∀ x ∈ xs.getLast?, ∀ y ∈ ys.head?, x.used = true ∨ y.used = true) :
    Coalesced (xs ++ ys) :=
  List.isChain_append.mpr ⟨hxs, hys, meet⟩

/-- Between used blocks any coalesced list may stand. -/
theorem Coalesced.between {pre mid post : List Block} (hpre : Coalesced pre)
    (hmid : Coalesced mid) (hpost : Coalesced post)
    (last : ∀ y ∈ pre.getLast?, y.used = true) (head : ∀ y ∈ post.head?, y.used = true) :
    Coalesced (pre ++ mid ++ post) := by
  have hfront := hpre.append hmid fun x hx _ _ => .inl (last x hx)
  exact hfront.append hpost fun _ _ y hy => .inr (head y hy)

/-! ## Used and free blocks -/

def usedBlocks (blocks : List Block) : List Block := blocks.filter (·.used)

def freeHoles (blocks : List Block) : List Hole :=
  (blocks.filter (!·.used)).map fun block => ⟨block.size, block.addr⟩

@[simp] theorem usedBlocks_nil : usedBlocks [] = [] := rfl

@[simp] theorem usedBlocks_append (xs ys : List Block) :
    usedBlocks (xs ++ ys) = usedBlocks xs ++ usedBlocks ys := by
  simp [usedBlocks]

theorem usedBlocks_cons (x : Block) (xs : List Block) :
    usedBlocks (x :: xs) = if x.used then x :: usedBlocks xs else usedBlocks xs := by
  simp [usedBlocks, List.filter_cons]

@[simp] theorem freeHoles_nil : freeHoles [] = [] := rfl

@[simp] theorem freeHoles_append (xs ys : List Block) :
    freeHoles (xs ++ ys) = freeHoles xs ++ freeHoles ys := by
  simp [freeHoles]

theorem freeHoles_cons (x : Block) (xs : List Block) :
    freeHoles (x :: xs) = if x.used then freeHoles xs else ⟨x.size, x.addr⟩ :: freeHoles xs := by
  cases h : x.used <;> simp [freeHoles, h]

theorem mem_freeHoles {hole : Hole} {blocks : List Block} :
    hole ∈ freeHoles blocks ↔ (⟨hole.addr, hole.size, false⟩ : Block) ∈ blocks := by
  simp only [freeHoles, List.mem_map, List.mem_filter, Bool.not_eq_true']
  constructor
  · rintro ⟨⟨addr, size, used⟩, ⟨hmem, hfree⟩, rfl⟩
    simp only at hfree
    subst hfree
    exact hmem
  · intro hmem
    exact ⟨_, ⟨hmem, rfl⟩, rfl⟩

theorem length_freeHoles_add_length_usedBlocks (blocks : List Block) :
    (freeHoles blocks).length + (usedBlocks blocks).length = blocks.length := by
  induction blocks with
  | nil => rfl
  | cons x xs ih =>
      rw [freeHoles_cons, usedBlocks_cons]
      split
      · simp only [List.length_cons]
        omega
      · simp only [List.length_cons]
        omega

theorem length_freeHoles_le (blocks : List Block) : (freeHoles blocks).length ≤ blocks.length := by
  have hlen := length_freeHoles_add_length_usedBlocks blocks
  omega

theorem Tiles.nodup_freeHoles {xs : List Block} {a b : Nat} (h : Tiles a xs b) :
    (freeHoles xs).Nodup := by
  have hnodup : ((freeHoles xs).map (·.addr)).Nodup := by
    have hsub : ((xs.filter (!·.used)).map (·.addr)).Sublist (xs.map (·.addr)) :=
      List.filter_sublist.map _
    simpa [freeHoles, Function.comp_def] using h.nodup.sublist hsub
  exact .of_map _ hnodup

theorem sum_usedBlocks_add_sum_freeHoles (blocks : List Block) :
    ((usedBlocks blocks).map (·.size)).sum + ((freeHoles blocks).map (·.size)).sum =
      (blocks.map (·.size)).sum := by
  induction blocks with
  | nil => rfl
  | cons x xs ih =>
      rw [freeHoles_cons, usedBlocks_cons]
      split
      · simp only [List.map_cons, List.sum_cons]
        omega
      · simp only [List.map_cons, List.sum_cons]
        omega

/-! ## Looking blocks up -/

theorem replaceAt_append {pre post parts : List Block} {x : Block}
    (front : ∀ y ∈ pre, y.addr ≠ x.addr) :
    replaceAt x.addr parts (pre ++ x :: post) = some (pre ++ parts ++ post) := by
  induction pre with
  | nil => simp [replaceAt]
  | cons y pre ih =>
      have hy : y.addr ≠ x.addr := front y (by simp)
      have hrest := ih fun z hz => front z (by simp [hz])
      simp [replaceAt, hy, hrest]

theorem splitAt_append {passed pre post : List Block} {x : Block}
    (front : ∀ y ∈ pre, y.addr ≠ x.addr) :
    splitAt x.addr passed (pre ++ x :: post) = some (pre.reverse ++ passed, x, post) := by
  induction pre generalizing passed with
  | nil => simp [splitAt]
  | cons y pre ih =>
      have hy : y.addr ≠ x.addr := front y (by simp)
      have hrest := @ih (y :: passed) fun z hz => front z (by simp [hz])
      simp [splitAt, hy, hrest]

theorem splitAt_eq_none {passed blocks : List Block} {addr : Nat}
    (absent : ∀ y ∈ blocks, y.addr ≠ addr) : splitAt addr passed blocks = none := by
  induction blocks generalizing passed with
  | nil => rfl
  | cons y blocks ih =>
      have hy : y.addr ≠ addr := absent y (by simp)
      simp [splitAt, hy, ih fun z hz => absent z (by simp [hz])]

theorem Tiles.find?_eq {xs : List Block} {x : Block} {a b : Nat} (h : Tiles a xs b)
    (hx : x ∈ xs) : xs.find? (·.addr == x.addr) = some x := by
  cases hfind : xs.find? (·.addr == x.addr) with
  | none =>
      have hne := List.find?_eq_none.mp hfind x hx
      simp at hne
  | some y =>
      have hy := List.mem_of_find?_eq_some hfind
      have hsame : y.addr = x.addr := by simpa using List.find?_some hfind
      rw [h.eq_of_addr_eq hy hx hsame]

end Heap

end KernelCore
