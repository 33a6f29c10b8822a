import Mathlib
import KernelCore.Proofs.Heap.Choice
import KernelCore.Proofs.Results

/-!
# What the heap asks of its mapper

An operation of the heap asks its mapper for one range at most, and nothing else happens to what is
mapped. If the mapper refuses, the heap hands the reason on, and it has no such reason of its own.
-/

namespace KernelCore

namespace Heap

variable {σ : Type} {mapper : RegionMapper σ} {heap heap' : Heap} {s t : σ} {size : Nat}
  {pageAligned : Bool} {Q : Event → Prop}

/-- What becomes of the mapped state when the mapper is asked for one range at most, and why it
refused if it did. -/
inductive Asked (mapper : RegionMapper σ) (s : σ) : Option PagingError → σ → Prop
  | nothing : Asked mapper s none s
  | once {start stop : Nat} {flags : HeapFlags} {refusal : Option PagingError} {t : σ} :
      (mapper.map start stop flags s).result = .ok (refusal, t) → Asked mapper s refusal t

theorem create_asks {start stop maxSize : Nat} {flags : HeapFlags} {answer : Except HeapError Heap}
    (hcreate : (create mapper start stop maxSize flags s).result = .ok (answer, t)) :
    ∃ refusal, Asked mapper s refusal t ∧
      ∀ cause, answer = .error cause → refusal = none → t = s := by
  unfold create at hcreate
  by_cases hfirst : start % pageSize ≠ 0
  · simp [hfirst] at hcreate
  by_cases hlast : stop % pageSize ≠ 0
  · simp [hfirst, hlast] at hcreate
  simp only [hfirst, hlast, if_false] at hcreate
  split at hcreate
  · obtain ⟨-, rfl⟩ := by simpa using hcreate
    exact ⟨none, .nothing, fun _ _ _ => rfl⟩
  split at hcreate
  · obtain ⟨-, rfl⟩ := by simpa using hcreate
    exact ⟨none, .nothing, fun _ _ _ => rfl⟩
  simp only [Traced.result_bind] at hcreate
  obtain ⟨⟨refusal, u⟩, hmap, hcreate⟩ := bind_eq_ok hcreate
  cases refusal with
  | some cause =>
      obtain ⟨-, rfl⟩ := by simpa using hcreate
      exact ⟨some cause, .once hmap, by simp⟩
  | none =>
      obtain ⟨rfl, rfl⟩ := by simpa using hcreate
      exact ⟨none, .once hmap, by simp⟩

theorem take_refused {hole : Hole} {pad : Nat} {refused : HeapError}
    (htake : heap.take hole pad size = .ok (.error refused, heap')) :
    refused = .indexFull ∨ refused = .invalidFree := by
  unfold take at htake
  simp only at htake
  split at htake
  · simp only [pure_eq_ok, Except.ok.injEq, Prod.mk.injEq, Except.error.injEq] at htake
    exact .inl htake.1.symm
  split at htake
  · simp only [pure_eq_ok, Except.ok.injEq, Prod.mk.injEq, Except.error.injEq] at htake
    exact .inr htake.1.symm
  · obtain ⟨dropped, -, htake⟩ := bind_eq_ok htake
    obtain ⟨replaced, -, htake⟩ := bind_eq_ok htake
    obtain ⟨listed, -, htake⟩ := bind_eq_ok htake
    simp at htake

theorem takeBestFit_refused {answer : Except HeapError Nat}
    (htake : heap.takeBestFit size pageAligned = .ok (some (answer, heap'))) (cause : PagingError) :
    answer ≠ .error (.mapping cause) := by
  rintro rfl
  unfold takeBestFit at htake
  obtain ⟨found, -, htake⟩ := bind_eq_ok htake
  cases found with
  | none => simp at htake
  | some fit =>
      obtain ⟨taken, hfit, htake⟩ := bind_eq_ok htake
      obtain rfl := Option.some.inj (Except.ok.inj htake)
      rcases take_refused hfit with hcause | hcause <;> simp at hcause

theorem grow_asks {refused : Option HeapError}
    (hgrow : (heap.grow mapper size pageAligned s).result = .ok (refused, heap', t)) :
    ∃ refusal, Asked mapper s refusal t ∧
      ∀ cause, refused = some (.mapping cause) → refusal = some cause := by
  unfold grow at hgrow
  simp only [Traced.result_bind, Traced.result_lift] at hgrow
  obtain ⟨plan, -, hgrow⟩ := bind_eq_ok hgrow
  cases plan with
  | none =>
      obtain ⟨rfl, -, rfl⟩ := by simpa using hgrow
      exact ⟨none, .nothing, by simp⟩
  | some growth =>
      simp only at hgrow
      split at hgrow
      · obtain ⟨rfl, -, rfl⟩ := by simpa using hgrow
        exact ⟨none, .nothing, by simp⟩
      rw [Traced.result_bind] at hgrow
      obtain ⟨⟨refusal, u⟩, hmap, hgrow⟩ := bind_eq_ok hgrow
      cases refusal with
      | some cause =>
          obtain ⟨rfl, -, rfl⟩ := by simpa using hgrow
          exact ⟨some cause, .once hmap, by simp⟩
      | none =>
          simp only [Traced.result_bind, Traced.result_note, ok_bind, Traced.result_lift] at hgrow
          obtain ⟨extended, -, hgrow⟩ := bind_eq_ok hgrow
          obtain ⟨rfl, -, rfl⟩ := by simpa using hgrow
          exact ⟨none, .once hmap, by simp⟩

/-- An allocation is refused for the mapper's reasons only if the mapper refuses. -/
theorem alloc_asks {answer : Except HeapError Nat}
    (halloc : (heap.alloc mapper size pageAligned s).result = .ok (answer, heap', t)) :
    ∃ refusal, Asked mapper s refusal t ∧
      ∀ cause, answer = .error (.mapping cause) → refusal = some cause := by
  unfold alloc at halloc
  split at halloc
  · obtain ⟨rfl, -, rfl⟩ := by simpa using halloc
    exact ⟨none, .nothing, by simp⟩
  split at halloc
  · obtain ⟨rfl, -, rfl⟩ := by simpa using halloc
    exact ⟨none, .nothing, by simp⟩
  simp only [Traced.result_bind, Traced.result_lift] at halloc
  obtain ⟨found, hfound, halloc⟩ := bind_eq_ok halloc
  cases found with
  | some taken =>
      obtain ⟨rfl, -, rfl⟩ := by simpa using halloc
      exact ⟨none, .nothing, fun cause hanswer => absurd hanswer (takeBestFit_refused hfound cause)⟩
  | none =>
      simp only [Traced.result_bind] at halloc
      obtain ⟨⟨refused, grown, u⟩, hgrow, halloc⟩ := bind_eq_ok halloc
      obtain ⟨refusal, hasked, hreason⟩ := grow_asks hgrow
      cases refused with
      | some cause =>
          obtain ⟨rfl, -, rfl⟩ := by simpa using halloc
          exact ⟨refusal, hasked, fun cause hanswer => hreason cause (by simpa using hanswer)⟩
      | none =>
          simp only [Traced.result_bind, Traced.result_lift] at halloc
          obtain ⟨again, hagain, halloc⟩ := bind_eq_ok halloc
          cases again with
          | some taken =>
              obtain ⟨rfl, -, rfl⟩ := by simpa using halloc
              exact ⟨refusal, hasked,
                fun cause hanswer => absurd hanswer (takeBestFit_refused hagain cause)⟩
          | none =>
              obtain ⟨rfl, -, rfl⟩ := by simpa using halloc
              exact ⟨refusal, hasked, by simp⟩

/-! ## Where growth asks -/

theorem planGrowth_stop_le {growth : Growth}
    (hplan : heap.planGrowth size pageAligned = .ok (some growth)) :
    growth.stop ≤ heap.limit := by
  rcases heap.planGrowth_cases size pageAligned with hplanned | hplanned | ⟨hplanned, hlimit⟩
  · simp [hplanned] at hplan
  · simp [hplanned] at hplan
  · rw [hplanned] at hplan
    obtain rfl := Option.some.inj (Except.ok.inj hplan)
    exact hlimit

theorem grow_refused {cause : PagingError}
    (hgrow : (heap.grow mapper size pageAligned s).result =
      .ok (some (.mapping cause), heap', t)) :
    ∃ stop ≤ heap.limit, (mapper.map heap.stop stop heap.flags s).result = .ok (some cause, t) := by
  unfold grow at hgrow
  simp only [Traced.result_bind, Traced.result_lift] at hgrow
  obtain ⟨plan, hplan, hgrow⟩ := bind_eq_ok hgrow
  cases plan with
  | none => simp at hgrow
  | some growth =>
      simp only at hgrow
      split at hgrow
      · simp at hgrow
      rw [Traced.result_bind] at hgrow
      obtain ⟨⟨refusal, u⟩, hmap, hgrow⟩ := bind_eq_ok hgrow
      cases refusal with
      | some cause =>
          obtain ⟨rfl, -, rfl⟩ := by simpa using hgrow
          exact ⟨growth.stop, planGrowth_stop_le hplan, hmap⟩
      | none =>
          simp only [Traced.result_bind, Traced.result_note, ok_bind, Traced.result_lift] at hgrow
          obtain ⟨extended, -, hgrow⟩ := bind_eq_ok hgrow
          simp at hgrow

/-- The mapper refuses an allocation only over a range that lies in the heap's window. -/
theorem alloc_refused {cause : PagingError}
    (halloc : (heap.alloc mapper size pageAligned s).result =
      .ok (.error (.mapping cause), heap', t)) :
    ∃ stop ≤ heap.limit, (mapper.map heap.stop stop heap.flags s).result = .ok (some cause, t) := by
  unfold alloc at halloc
  split at halloc
  · simp at halloc
  split at halloc
  · simp at halloc
  simp only [Traced.result_bind, Traced.result_lift] at halloc
  obtain ⟨found, hfound, halloc⟩ := bind_eq_ok halloc
  cases found with
  | some taken =>
      obtain ⟨hanswer, -⟩ := by simpa using halloc
      exact absurd hanswer (takeBestFit_refused hfound cause)
  | none =>
      simp only [Traced.result_bind] at halloc
      obtain ⟨⟨refused, grown, u⟩, hgrow, halloc⟩ := bind_eq_ok halloc
      cases refused with
      | some refusal =>
          obtain ⟨rfl, rfl, rfl⟩ := by simpa using halloc
          exact grow_refused hgrow
      | none =>
          simp only [Traced.result_bind, Traced.result_lift] at halloc
          obtain ⟨again, hagain, halloc⟩ := bind_eq_ok halloc
          cases again with
          | some taken =>
              obtain ⟨hanswer, -⟩ := by simpa using halloc
              exact absurd hanswer (takeBestFit_refused hagain cause)
          | none => simp at halloc

/-! ## Events -/

theorem alloc_notes (maps : ∀ start stop flags s, (mapper.map start stop flags s).Notes Q)
    (grown : ∀ old new, Q (.heapGrown old new)) :
    (heap.alloc mapper size pageAligned s).Notes Q := by
  have hgrows : ∀ size, (heap.grow mapper size pageAligned s).Notes Q := by
    intro size
    unfold grow
    refine (Traced.notes_lift _).bind fun plan _ => ?_
    cases plan with
    | none => exact Traced.notes_pure _
    | some growth =>
        simp only
        split
        · exact Traced.notes_pure _
        refine (maps _ _ _ _).bind ?_
        rintro ⟨refusal, t⟩ -
        cases refusal with
        | some cause => exact Traced.notes_pure _
        | none =>
            refine (Traced.notes_note.mpr (grown _ _)).bind fun _ _ => ?_
            exact (Traced.notes_lift _).bind fun _ _ => Traced.notes_pure _
  unfold alloc
  split
  · exact Traced.notes_pure _
  split
  · exact Traced.notes_pure _
  refine (Traced.notes_lift _).bind fun found _ => ?_
  cases found with
  | some taken => exact Traced.notes_pure _
  | none =>
      refine (hgrows _).bind ?_
      rintro ⟨refused, larger, t⟩ -
      cases refused with
      | some cause => exact Traced.notes_pure _
      | none =>
          refine (Traced.notes_lift _).bind fun again _ => ?_
          cases again <;> exact Traced.notes_pure _

/-! ## Freeing -/

theorem free_asks {addr : Nat} (hfree : (heap.free mapper addr s).result = .ok (heap', t)) :
    t = s ∨ ∃ start stop, (mapper.unmap start stop s).result = .ok t := by
  unfold free contract at hfree
  simp only [Traced.result_bind, Traced.result_lift] at hfree
  obtain ⟨released, -, hfree⟩ := bind_eq_ok hfree
  obtain ⟨plan, -, hfree⟩ := bind_eq_ok hfree
  cases plan with
  | none =>
      obtain ⟨-, rfl⟩ := by simpa using hfree
      exact .inl rfl
  | some cut =>
      simp only [Traced.result_bind, Traced.result_note, ok_bind, Traced.result_lift] at hfree
      obtain ⟨u, hunmap, hfree⟩ := bind_eq_ok hfree
      obtain ⟨shorter, -, hfree⟩ := bind_eq_ok hfree
      obtain ⟨-, rfl⟩ := by simpa using hfree
      exact .inr ⟨_, _, hunmap⟩

end Heap

end KernelCore
