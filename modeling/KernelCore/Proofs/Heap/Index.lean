import Mathlib
import KernelCore.Proofs.Heap.Layout

/-!
# The index of holes

Holes are listed by size and then address. Listing a hole keeps that order, striking one off does
too, and both succeed whenever the index has the room or the entry that they need.
-/

namespace KernelCore

/-! ## The order of holes -/

namespace Hole

theorem before_irrefl (a : Hole) : ¬ a.before a := by
  unfold before
  omega

theorem before_trans {a b c : Hole} (hab : a.before b) (hbc : b.before c) : a.before c := by
  unfold before at *
  omega

theorem before_asymm {a b : Hole} (hab : a.before b) : ¬ b.before a :=
  fun hba => before_irrefl a (before_trans hab hba)

theorem before_of_not_before {a b : Hole} (hba : ¬ b.before a) (hne : a ≠ b) : a.before b := by
  obtain ⟨asize, aaddr⟩ := a
  obtain ⟨bsize, baddr⟩ := b
  rw [Ne, Hole.mk.injEq] at hne
  unfold before at *
  simp only at *
  omega

/-- No hole comes after one that should follow it. -/
def Sorted (holes : List Hole) : Prop := holes.Pairwise fun a b => ¬ b.before a

theorem Sorted.insert {holes : List Hole} (h : Sorted holes) (hole : Hole) :
    Sorted (insert hole holes) := by
  induction holes with
  | nil => exact List.pairwise_singleton _ _
  | cons first rest ih =>
      obtain ⟨hfirst, hrest⟩ := List.pairwise_cons.mp h
      unfold Hole.insert
      split
      · next hbefore =>
          refine .cons (fun b hb => ?_) (ih hrest)
          rcases List.mem_cons.mp ((insert_perm hole rest).mem_iff.mp hb) with rfl | hb
          · exact before_asymm hbefore
          · exact hfirst b hb
      · next hbefore =>
          refine .cons (fun b hb => ?_) h
          rcases List.mem_cons.mp hb with rfl | hb
          · exact hbefore
          · intro hbhole
            by_cases heq : first = hole
            · exact hfirst b hb (heq ▸ hbhole)
            · have hlt := before_of_not_before hbefore (Ne.symm heq)
              exact hfirst b hb (before_trans hbhole hlt)

theorem Sorted.erase {holes : List Hole} (h : Sorted holes) (hole : Hole) :
    Sorted (holes.erase hole) :=
  h.sublist List.erase_sublist

theorem Sorted.strict {holes : List Hole} (h : Sorted holes) (hnodup : holes.Nodup) :
    holes.Pairwise before :=
  h.imp₂ (fun _ _ => before_of_not_before) hnodup

end Hole

namespace Heap

/-! ## Keeping the books -/

theorem setBlocks_eq {heap : Heap} {blocks : List Block} (room : blocks.length ≤ blockCapacity) :
    heap.setBlocks blocks = .ok { heap with blocks } := if_pos room

theorem addHole_eq {heap : Heap} {addr size : Nat} (room : heap.holes.length < blockCapacity) :
    heap.addHole addr size = .ok { heap with holes := Hole.insert ⟨size, addr⟩ heap.holes } :=
  if_pos room

theorem dropHole_eq {heap : Heap} {addr size : Nat} (listed : ⟨size, addr⟩ ∈ heap.holes) :
    heap.dropHole addr size = .ok { heap with holes := heap.holes.erase ⟨size, addr⟩ } :=
  if_pos listed

theorem addFree_eq {parts : List Block} {heap : Heap}
    (room : heap.holes.length + (freeHoles parts).length ≤ blockCapacity) :
    ∃ holes, addFree parts heap = .ok { heap with holes } ∧
      holes.Perm (freeHoles parts ++ heap.holes) ∧
      (Hole.Sorted heap.holes → Hole.Sorted holes) := by
  induction parts generalizing heap with
  | nil => exact ⟨heap.holes, rfl, .refl _, id⟩
  | cons x parts ih =>
      rw [freeHoles_cons] at room ⊢
      cases hused : x.used with
      | true =>
          simp only [hused, if_true] at room ⊢
          simpa [addFree, hused] using ih room
      | false =>
          simp only [hused, Bool.false_eq_true, if_false, List.length_cons] at room ⊢
          have hadd : heap.addHole x.addr x.size =
              .ok { heap with holes := Hole.insert ⟨x.size, x.addr⟩ heap.holes } :=
            addHole_eq (by omega)
          have hlen := (Hole.insert_perm ⟨x.size, x.addr⟩ heap.holes).length_eq
          obtain ⟨holes, heq, hperm, hsorted⟩ := @ih
            { heap with holes := Hole.insert ⟨x.size, x.addr⟩ heap.holes }
            (by simp only [hlen, List.length_cons]; omega)
          refine ⟨holes, ?_, ?_, fun h => hsorted (h.insert _)⟩
          · simp [addFree, hused, hadd, heq, bind, Except.bind]
          · have hinsert := Hole.insert_perm ⟨x.size, x.addr⟩ heap.holes
            exact hperm.trans ((hinsert.append_left _).trans List.perm_middle)

end Heap

end KernelCore
