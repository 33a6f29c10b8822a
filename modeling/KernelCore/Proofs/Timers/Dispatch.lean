import KernelCore.Proofs.Timers.Queue

/-!
# Time moves forward step by step

Moving time forward drains the due timers, shortens the wait of the others, arms the repeating
ones again one after the other, and makes the calls only then. A routine that is called may look at
the queue and may stop everything; either way the queue has already become what it will be.
-/

namespace KernelCore

namespace TimerQueue

variable {m : Type → Type} [Monad m]

/-- Arms the repeating ones of the drained timers again, one after the other, and notes how often
each timer is to call. -/
def settle (elapsed : Nat) : List Timer → TimerQueue → List (Timer × Nat) × TimerQueue
  | [], queue => ([], queue)
  | timer :: rest, queue =>
      let overshoot := elapsed - timer.remaining
      let queue :=
        if timer.repeating then
          { queue with timers := insertTimer (timer.rearmed overshoot) queue.timers }
        else queue
      let (runs, queue) := settle elapsed rest queue
      ((timer, timer.callCount overshoot) :: runs, queue)

/-- Makes a call, which may look at the queue, and counts it. -/
def countedCall (handler : Callback → TimerQueue → m Unit) (queue : TimerQueue) (calls : Nat)
    (callback : Callback) : m Nat := do
  handler callback queue
  return calls + 1

/-- Moves time forward and makes the calls; answers how many were made. -/
def advanceWith (handler : Callback → TimerQueue → m Unit) (queue : TimerQueue) (elapsed : Nat) :
    m (Nat × TimerQueue) := do
  let drained := { queue with timers := (queue.later elapsed).map (Timer.nearer elapsed) }
  let (runs, queue) := settle elapsed (queue.due elapsed) drained
  let calls ← runs.foldlM (fun calls run =>
    (List.replicate run.2 run.1.callback).foldlM (countedCall handler queue) calls) 0
  return (calls, queue)

theorem settle_eq (elapsed : Nat) (expired : List Timer) (queue : TimerQueue) :
    settle elapsed expired queue =
      (expired.map fun timer => (timer, timer.callCount (elapsed - timer.remaining)),
        { queue with timers := rearm elapsed expired queue.timers }) := by
  induction expired generalizing queue with
  | nil => rfl
  | cons timer rest ih =>
      unfold settle rearm
      simp only [ih]
      split <;> rfl

theorem foldlM_flatMap [LawfulMonad m] {α β γ : Type} (step : γ → β → m γ) (f : α → List β)
    (list : List α) (start : γ) :
    (list.flatMap f).foldlM step start =
      list.foldlM (fun reached a => (f a).foldlM step reached) start := by
  induction list generalizing start with
  | nil => rfl
  | cons a rest ih => simp only [List.flatMap_cons, List.foldlM_append, List.foldlM_cons, ih]

/-- The queue has become what it will be before the first call is made. -/
theorem advanceWith_eq [LawfulMonad m] (handler : Callback → TimerQueue → m Unit)
    (queue : TimerQueue) (elapsed : Nat) :
    queue.advanceWith handler elapsed = do
      let calls ← (queue.advance elapsed).1.foldlM
        (countedCall handler (queue.advance elapsed).2) 0
      return (calls, (queue.advance elapsed).2) := by
  simp only [advanceWith, settle_eq, advance_calls, foldlM_flatMap, List.foldlM_map]
  rfl

end TimerQueue

end KernelCore
