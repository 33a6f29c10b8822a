import KernelCore.Event
import KernelCore.Fault

/-!
# Traced results

`Traced α` is the answer of an operation that may note events and may end in a fault: the
events in the order they were noted, and the result or the fault. Events noted before a fault
are kept. `result_bind` says that results compose without looking at events, so a statement
about values never has to mention them.
-/

namespace KernelCore

/-- The events noted by an operation, and its result unless a fault stopped it. -/
structure Traced (α : Type) where
  events : List Event
  result : Except Fault α

namespace Traced

variable {α β σ ε : Type}

def ok (a : α) : Traced α := ⟨[], .ok a⟩

def fault (cause : Fault) : Traced α := ⟨[], .error cause⟩

def note (event : Event) : Traced Unit := ⟨[event], .ok ()⟩

/-- Takes over the result of a step that notes nothing. -/
def ofExcept (result : Except Fault α) : Traced α := ⟨[], result⟩

def andThen (first : Traced α) (next : α → Traced β) : Traced β :=
  match first.result with
  | .ok a => let second := next a; ⟨first.events ++ second.events, second.result⟩
  | .error cause => ⟨first.events, .error cause⟩

instance : Monad Traced where
  pure := ok
  bind := andThen

instance : MonadLift (Except Fault) Traced where
  monadLift := ofExcept

/-! ## Results and events of compositions -/

@[ext] theorem ext {x y : Traced α} (events : x.events = y.events)
    (result : x.result = y.result) : x = y := by
  cases x
  cases y
  simp_all

@[simp] theorem result_pure (a : α) : (pure a : Traced α).result = .ok a := rfl

@[simp] theorem events_pure (a : α) : (pure a : Traced α).events = [] := rfl

@[simp] theorem result_fault (cause : Fault) :
    (fault cause : Traced α).result = .error cause := rfl

@[simp] theorem result_note (event : Event) : (note event).result = .ok () := rfl

@[simp] theorem result_ofExcept (result : Except Fault α) :
    (ofExcept result).result = result := rfl

@[simp] theorem result_lift (result : Except Fault α) :
    (liftM result : Traced α).result = result := rfl

@[simp] theorem result_bind (x : Traced α) (f : α → Traced β) :
    (x >>= f).result = x.result >>= fun a => (f a).result := by
  obtain ⟨events, result⟩ := x
  cases result <;> rfl

theorem events_bind (x : Traced α) (f : α → Traced β) :
    (x >>= f).events =
      x.events ++ (match x.result with | .ok a => (f a).events | .error _ => []) := by
  obtain ⟨events, result⟩ := x
  cases result
  · exact (List.append_nil events).symm
  · rfl

@[simp] theorem pure_bind (a : α) (f : α → Traced β) : (pure a >>= f) = f a := by
  apply ext
  · simp [events_bind]
  · rw [result_bind]
    rfl

theorem id_map (x : Traced α) : id <$> x = x := by
  obtain ⟨events, result⟩ := x
  cases result <;> simp [Functor.map, andThen, ok]

theorem bind_assoc (x : Traced α) (f : α → Traced β) (g : β → Traced σ) :
    x >>= f >>= g = x >>= fun a => f a >>= g := by
  obtain ⟨events, result⟩ := x
  cases result with
  | error cause => rfl
  | ok a =>
      apply ext
      · simp only [events_bind, result_bind]
        cases h : (f a).result <;> simp [h, Bind.bind, Except.bind]
      · simp only [result_bind, LawfulMonad.bind_assoc]

instance : LawfulMonad Traced := LawfulMonad.mk' Traced id_map pure_bind bind_assoc

/-! ## Sweeps over a range of addresses -/

/--
Visits `count` addresses from `addr` on, `stride` apart, and stops at the first error. The
answer is that error, if any, and the state reached. `noted` holds the events so far, the
latest first.
-/
def sweepFrom (stride : Nat) (visit : Nat → σ → Traced (Option ε × σ)) :
    List Event → Nat → Nat → σ → Traced (Option ε × σ)
  | noted, 0, _, s => ⟨noted.reverse, .ok (none, s)⟩
  | noted, count + 1, addr, s =>
      match visit addr s with
      | ⟨events, .ok (none, t)⟩ =>
          sweepFrom stride visit (events.reverse ++ noted) count (addr + stride) t
      | ⟨events, .ok (some e, t)⟩ => ⟨noted.reverse ++ events, .ok (some e, t)⟩
      | ⟨events, .error cause⟩ => ⟨noted.reverse ++ events, .error cause⟩

def sweep (stride : Nat) (visit : Nat → σ → Traced (Option ε × σ)) (count addr : Nat) (s : σ) :
    Traced (Option ε × σ) :=
  sweepFrom stride visit [] count addr s

theorem sweepFrom_eq (stride : Nat) (visit : Nat → σ → Traced (Option ε × σ))
    (noted : List Event) (count addr : Nat) (s : σ) :
    sweepFrom stride visit noted count addr s =
      ⟨noted.reverse ++ (sweep stride visit count addr s).events,
        (sweep stride visit count addr s).result⟩ := by
  induction count generalizing noted addr s with
  | zero => simp [sweepFrom, sweep]
  | succ count ih =>
      unfold sweep sweepFrom
      split
      · rw [ih, ih (_ ++ [])]
        simp
      · simp
      · simp

@[simp] theorem sweep_zero (stride : Nat) (visit : Nat → σ → Traced (Option ε × σ))
    (addr : Nat) (s : σ) : sweep stride visit 0 addr s = pure (none, s) := rfl

/-- A sweep visits the first address and, unless that answers an error, sweeps the rest. -/
theorem sweep_succ (stride : Nat) (visit : Nat → σ → Traced (Option ε × σ))
    (count addr : Nat) (s : σ) :
    sweep stride visit (count + 1) addr s =
      visit addr s >>= fun (error, t) =>
        match error with
        | none => sweep stride visit count (addr + stride) t
        | some e => pure (some e, t) := by
  conv => lhs; unfold sweep sweepFrom
  generalize visit addr s = x
  obtain ⟨events, result⟩ := x
  match result with
  | .ok (none, t) =>
      simp only [List.append_nil]
      rw [sweepFrom_eq, List.reverse_reverse]
      rfl
  | .ok (some e, t) =>
      apply ext
      · simp [events_bind]
      · rw [result_bind]
        rfl
  | .error cause =>
      apply ext
      · simp [events_bind]
      · rw [result_bind]
        rfl

def sweepAll (stride : Nat) (visit : Nat → σ → Traced σ) (count addr : Nat) (s : σ) :
    Traced σ := do
  let accepted (addr : Nat) (s : σ) : Traced (Option Empty × σ) := do
    return (none, ← visit addr s)
  let (_, s) ← sweep stride accepted count addr s
  return s

end Traced

end KernelCore
