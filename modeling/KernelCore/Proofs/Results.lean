import Mathlib
import KernelCore.Traced

/-!
# Results of composed steps

Equations that run a composition on a known result, and their inversions: an answer of a
composition comes from an answer of its first step. The events of a composition are those of its
first step, and of the second on the first one's result.
-/

namespace KernelCore

variable {α β : Type}

@[simp] theorem ok_bind (a : α) (f : α → Except Fault β) : (Except.ok a >>= f) = f a := rfl

@[simp] theorem error_bind (cause : Fault) (f : α → Except Fault β) :
    (Except.error cause >>= f) = .error cause := rfl

@[simp] theorem pure_eq_ok (a : α) : (pure a : Except Fault α) = .ok a := rfl

@[simp] theorem throw_eq_error (cause : Fault) : (throw cause : Except Fault α) = .error cause :=
  rfl

@[simp] theorem result_map (f : α → β) (x : Traced α) : (f <$> x).result = f <$> x.result := by
  obtain ⟨events, result⟩ := x
  cases result <;> rfl

theorem bind_eq_ok {x : Except Fault α} {f : α → Except Fault β} {b : β}
    (h : x >>= f = .ok b) : ∃ a, x = .ok a ∧ f a = .ok b := by
  cases x with
  | error cause => cases h
  | ok a => exact ⟨a, rfl, h⟩

theorem Traced.bind_congr_of_ok {x : Traced α} {f g : α → Traced β}
    (same : ∀ a, x.result = .ok a → f a = g a) : x >>= f = x >>= g := by
  obtain ⟨events, result⟩ := x
  cases result with
  | error cause => rfl
  | ok a =>
      apply Traced.ext
      · simp only [events_bind, same a rfl]
      · simp only [result_bind, ok_bind, same a rfl]

/-! ## Sweeps -/

namespace Traced

variable {σ ε : Type} {P : σ → Prop} {stride : Nat}

/-- What the visits of a sweep preserve, the sweep preserves, wherever it stops. -/
theorem sweep_preserves_on {visit : Nat → σ → Traced (Option ε × σ)} {count addr : Nat}
    (step : ∀ i < count, ∀ s refusal t, P s →
      (visit (addr + i * stride) s).result = .ok (refusal, t) → P t)
    {s t : σ} {refusal : Option ε} (holds : P s)
    (hsweep : (sweep stride visit count addr s).result = .ok (refusal, t)) : P t := by
  induction count generalizing addr s with
  | zero =>
      obtain ⟨-, rfl⟩ := Prod.mk.injEq .. ▸ Except.ok.inj hsweep
      exact holds
  | succ count ih =>
      rw [sweep_succ, result_bind] at hsweep
      obtain ⟨⟨refused, u⟩, hvisit, hrest⟩ := bind_eq_ok hsweep
      have hu := step 0 (Nat.succ_pos count) s refused u holds (by simpa using hvisit)
      cases refused with
      | none =>
          refine ih (fun i hi v refusal w hv hvisited => ?_) hu hrest
          apply step (i + 1) (Nat.succ_lt_succ hi) v refusal w hv
          rwa [Nat.succ_mul, Nat.add_comm (i * stride), ← Nat.add_assoc]
      | some e =>
          obtain ⟨-, rfl⟩ := Prod.mk.injEq .. ▸ Except.ok.inj hrest
          exact hu

theorem sweep_preserves {visit : Nat → σ → Traced (Option ε × σ)}
    (step : ∀ addr s refusal t, P s → (visit addr s).result = .ok (refusal, t) → P t)
    {count addr : Nat} {s t : σ} {refusal : Option ε} (holds : P s)
    (hsweep : (sweep stride visit count addr s).result = .ok (refusal, t)) : P t :=
  sweep_preserves_on (fun i _ => step (addr + i * stride)) holds hsweep

/-- A sweep is refused for a reason that some visit gives. -/
theorem sweep_refused {R : ε → Prop} {visit : Nat → σ → Traced (Option ε × σ)}
    (visits : ∀ addr s cause t, (visit addr s).result = .ok (some cause, t) → R cause)
    {count addr : Nat} {s t : σ} {cause : ε}
    (hsweep : (sweep stride visit count addr s).result = .ok (some cause, t)) : R cause := by
  induction count generalizing addr s with
  | zero => simp at hsweep
  | succ count ih =>
      rw [sweep_succ, result_bind] at hsweep
      obtain ⟨⟨refused, u⟩, hvisit, hrest⟩ := bind_eq_ok hsweep
      cases refused with
      | none => exact ih hrest
      | some e =>
          obtain ⟨heq, -⟩ := Prod.mk.injEq .. ▸ Except.ok.inj hrest
          exact visits addr s cause u (heq ▸ hvisit)

/-- What an accepted visit brings about and no visit undoes holds after an accepted sweep. -/
theorem sweep_reaches {Q : σ → Prop} {visit : Nat → σ → Traced (Option ε × σ)} {count addr i : Nat}
    (inside : i < count)
    (reach : ∀ s t, (visit (addr + i * stride) s).result = .ok (none, t) → Q t)
    (stay : ∀ addr s refusal t, Q s → (visit addr s).result = .ok (refusal, t) → Q t) {s t : σ}
    (hsweep : (sweep stride visit count addr s).result = .ok (none, t)) : Q t := by
  induction count generalizing i addr s with
  | zero => exact absurd inside (Nat.not_lt_zero i)
  | succ count ih =>
      rw [sweep_succ, result_bind] at hsweep
      obtain ⟨⟨refused, u⟩, hvisit, hrest⟩ := bind_eq_ok hsweep
      cases refused with
      | some e => simp at hrest
      | none =>
          cases i with
          | zero => exact sweep_preserves stay (reach s u (by simpa using hvisit)) hrest
          | succ i =>
              refine ih (Nat.lt_of_succ_lt_succ inside) (fun v w hv => reach v w ?_) hrest
              rwa [Nat.succ_mul, Nat.add_comm (i * stride), ← Nat.add_assoc]

theorem sweepAll_preserves_on {visit : Nat → σ → Traced σ} {count addr : Nat}
    (step : ∀ i < count, ∀ s t, P s → (visit (addr + i * stride) s).result = .ok t → P t)
    {s t : σ} (holds : P s) (hsweep : (sweepAll stride visit count addr s).result = .ok t) :
    P t := by
  unfold sweepAll at hsweep
  rw [result_bind] at hsweep
  obtain ⟨⟨refusal, u⟩, hswept, hrest⟩ := bind_eq_ok hsweep
  obtain rfl := Except.ok.inj hrest
  refine sweep_preserves_on ?_ holds hswept
  intro i hi s refusal t hs hvisit
  rw [result_bind] at hvisit
  obtain ⟨v, hvisited, hrest⟩ := bind_eq_ok hvisit
  obtain ⟨-, rfl⟩ := Prod.mk.injEq .. ▸ Except.ok.inj hrest
  exact step i hi s v hs hvisited

theorem sweepAll_preserves {visit : Nat → σ → Traced σ}
    (step : ∀ addr s t, P s → (visit addr s).result = .ok t → P t)
    {count addr : Nat} {s t : σ} (holds : P s)
    (hsweep : (sweepAll stride visit count addr s).result = .ok t) : P t :=
  sweepAll_preserves_on (fun i _ => step (addr + i * stride)) holds hsweep

theorem exists_sweepAll {visit : Nat → σ → Traced σ}
    (step : ∀ addr s, P s → ∃ t, (visit addr s).result = .ok t ∧ P t) {s : σ} (holds : P s)
    (count addr : Nat) : ∃ t, (sweepAll stride visit count addr s).result = .ok t := by
  unfold sweepAll
  induction count generalizing addr s with
  | zero => exact ⟨s, rfl⟩
  | succ count ih =>
      obtain ⟨u, hvisit, hu⟩ := step addr s holds
      obtain ⟨t, hrest⟩ := ih hu (addr + stride)
      refine ⟨t, ?_⟩
      rw [result_bind] at hrest
      rw [result_bind, sweep_succ, result_bind, result_bind, hvisit, ok_bind, result_pure, ok_bind]
      exact hrest

/-- A sweep comes back and brings about what each of its visits, if that comes back, brings one step
further. -/
theorem exists_sweep_advances {P : Nat → σ → Prop} {visit : Nat → σ → Traced (Option ε × σ)}
    {count addr : Nat}
    (step : ∀ i < count, ∀ s, P i s →
      ∃ t, (visit (addr + i * stride) s).result = .ok (none, t) ∧ P (i + 1) t)
    {s : σ} (holds : P 0 s) :
    ∃ t, (sweep stride visit count addr s).result = .ok (none, t) ∧ P count t := by
  induction count generalizing P addr s with
  | zero => exact ⟨s, rfl, holds⟩
  | succ count ih =>
      obtain ⟨u, hvisit, hu⟩ := step 0 (Nat.succ_pos count) s holds
      rw [Nat.zero_mul, Nat.add_zero] at hvisit
      have hshift : ∀ i, addr + stride + i * stride = addr + (i + 1) * stride := by
        intro i
        rw [Nat.succ_mul, Nat.add_comm (i * stride), ← Nat.add_assoc]
      have hstep : ∀ i < count, ∀ v, P (i + 1) v → ∃ w,
          (visit (addr + stride + i * stride) v).result = .ok (none, w) ∧ P (i + 1 + 1) w := by
        intro i hi v hv
        rw [hshift]
        exact step (i + 1) (Nat.succ_lt_succ hi) v hv
      obtain ⟨t, hrest, ht⟩ := ih (P := fun i => P (i + 1)) hstep hu
      refine ⟨t, ?_, ht⟩
      rw [sweep_succ, result_bind, hvisit, ok_bind]
      exact hrest

theorem exists_sweepAll_advances {P : Nat → σ → Prop} {visit : Nat → σ → Traced σ}
    {count addr : Nat}
    (step : ∀ i < count, ∀ s, P i s →
      ∃ t, (visit (addr + i * stride) s).result = .ok t ∧ P (i + 1) t)
    {s : σ} (holds : P 0 s) :
    ∃ t, (sweepAll stride visit count addr s).result = .ok t ∧ P count t := by
  let accepted (addr : Nat) (s : σ) : Traced (Option Empty × σ) := do return (none, ← visit addr s)
  have hstep : ∀ i < count, ∀ v, P i v → ∃ w,
      (accepted (addr + i * stride) v).result = .ok (none, w) ∧ P (i + 1) w := by
    intro i hi v hv
    obtain ⟨w, hvisit, hw⟩ := step i hi v hv
    exact ⟨w, by rw [result_bind, hvisit, ok_bind, result_pure], hw⟩
  obtain ⟨t, hswept, ht⟩ := exists_sweep_advances hstep holds
  refine ⟨t, ?_, ht⟩
  change (sweep stride accepted count addr s >>= _).result = _
  rw [result_bind, hswept, ok_bind, result_pure]

theorem sweepAll_succ (visit : Nat → σ → Traced σ) (count addr : Nat) (s : σ) :
    sweepAll stride visit (count + 1) addr s =
      visit addr s >>= fun t => sweepAll stride visit count (addr + stride) t := by
  unfold sweepAll
  simp only [sweep_succ, bind_assoc, pure_bind]

/-- A sweep brings about what each of its visits brings one step further. -/
theorem sweepAll_advances {P : Nat → σ → Prop} {visit : Nat → σ → Traced σ} {count addr : Nat}
    (step : ∀ i < count, ∀ s t, P i s → (visit (addr + i * stride) s).result = .ok t → P (i + 1) t)
    {s t : σ} (holds : P 0 s) (hsweep : (sweepAll stride visit count addr s).result = .ok t) :
    P count t := by
  induction count generalizing P addr s with
  | zero =>
      obtain rfl := Except.ok.inj hsweep
      exact holds
  | succ count ih =>
      rw [sweepAll_succ, result_bind] at hsweep
      obtain ⟨u, hvisit, hrest⟩ := bind_eq_ok hsweep
      have hfirst := step 0 (Nat.succ_pos count) s u holds (by simpa using hvisit)
      refine ih (P := fun i => P (i + 1)) (fun i hi v w hv hvisited => ?_) hfirst hrest
      apply step (i + 1) (Nat.succ_lt_succ hi) v w hv
      rwa [Nat.succ_mul, Nat.add_comm (i * stride), ← Nat.add_assoc]

theorem sweepAll_congr {visit visit' : Nat → σ → Traced σ}
    (step : ∀ addr s t, P s → (visit addr s).result = .ok t → P t)
    (same : ∀ addr s, P s → visit addr s = visit' addr s) {s : σ} (holds : P s)
    (count addr : Nat) : sweepAll stride visit count addr s = sweepAll stride visit' count addr s := by
  induction count generalizing addr s with
  | zero => rfl
  | succ count ih =>
      rw [sweepAll_succ, sweepAll_succ, ← same addr s holds]
      exact bind_congr_of_ok fun t hvisit => ih (step addr s t holds hvisit) (addr + stride)

/-- What one visit brings about and no visit undoes holds after the sweep. -/
theorem sweepAll_reaches {Q : σ → Prop} {visit : Nat → σ → Traced σ} {count addr i : Nat}
    (inside : i < count) (step : ∀ addr s t, P s → (visit addr s).result = .ok t → P t)
    (reach : ∀ s t, P s → (visit (addr + i * stride) s).result = .ok t → Q t)
    (stay : ∀ addr s t, P s → Q s → (visit addr s).result = .ok t → Q t)
    {s t : σ} (holds : P s) (hsweep : (sweepAll stride visit count addr s).result = .ok t) :
    Q t := by
  induction count generalizing i addr s with
  | zero => exact absurd inside (Nat.not_lt_zero i)
  | succ count ih =>
      rw [sweepAll_succ, result_bind] at hsweep
      obtain ⟨u, hvisit, hrest⟩ := bind_eq_ok hsweep
      have hu := step addr s u holds hvisit
      cases i with
      | zero =>
          have hreached := reach s u holds (by simpa using hvisit)
          have hstays := sweepAll_preserves (P := fun v => P v ∧ Q v)
            (fun a v w hv hw => ⟨step a v w hv.1 hw, stay a v w hv.1 hv.2 hw⟩) ⟨hu, hreached⟩ hrest
          exact hstays.2
      | succ i =>
          refine ih (Nat.lt_of_succ_lt_succ inside) (fun v w hv hw => reach v w hv ?_) hu hrest
          rwa [Nat.succ_mul, Nat.add_comm (i * stride), ← Nat.add_assoc]

/-! ## Events -/

def Notes (Q : Event → Prop) (x : Traced α) : Prop := ∀ event ∈ x.events, Q event

variable {Q : Event → Prop}

@[simp] theorem notes_pure (a : α) : (pure a : Traced α).Notes Q := by simp [Notes]

@[simp] theorem notes_fault (cause : Fault) : (fault cause : Traced α).Notes Q := by
  simp [Notes, fault]

@[simp] theorem notes_lift (result : Except Fault α) : (liftM result : Traced α).Notes Q := by
  intro event hm
  exact absurd hm List.not_mem_nil

@[simp] theorem notes_note {event : Event} : (note event).Notes Q ↔ Q event := by
  simp [Notes, note]

theorem Notes.bind {x : Traced α} {f : α → Traced β} (first : x.Notes Q)
    (rest : ∀ a, x.result = .ok a → (f a).Notes Q) : (x >>= f).Notes Q := by
  intro event hm
  rw [events_bind] at hm
  rcases List.mem_append.mp hm with hm | hm
  · exact first event hm
  · cases hresult : x.result with
    | error cause => simp [hresult] at hm
    | ok a =>
        rw [hresult] at hm
        exact rest a hresult event hm

theorem Notes.sweep {I : σ → Prop} {visit : Nat → σ → Traced (Option ε × σ)}
    (visits : ∀ addr s, I s → (visit addr s).Notes Q)
    (step : ∀ addr s refusal t, I s → (visit addr s).result = .ok (refusal, t) → I t)
    {s : σ} (holds : I s) (count addr : Nat) : (sweep stride visit count addr s).Notes Q := by
  induction count generalizing addr s with
  | zero => simp
  | succ count ih =>
      rw [sweep_succ]
      refine (visits addr s holds).bind ?_
      rintro ⟨refusal, t⟩ hvisit
      cases refusal with
      | none => exact ih (step addr s none t holds hvisit) (addr + stride)
      | some cause => exact notes_pure _

end Traced

end KernelCore
