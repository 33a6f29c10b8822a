import KernelCore.Proofs.Timers.Runs

/-!
# Timers keep their time

Whatever the sizes of the moves forward, a timer armed once calls in the move that first brings
its deadline, and a repeating timer has called once for each of its periods that has passed, and
waits for the rest of the current one: late moves never make it drift.
-/

namespace KernelCore

namespace Timer

open TimerQueue (Trace Overdue steps time)

variable {id : TimerId} {delay period : Nat} {callback : Callback} {since : Trace}

/-! ## What is left of a timer after several moves -/

theorem pendingAfter_once (id : TimerId) (delay : Nat) (callback : Callback) (since : Trace) :
    pendingAfter ⟨id, delay, delay, false, callback⟩ (steps since) =
      if Overdue delay since then none
      else some ⟨id, delay - time since, delay, false, callback⟩ := by
  unfold pendingAfter
  by_cases hnil : steps since = []
  · rw [if_pos hnil, if_neg fun h => h.1 hnil, time, hnil]
    rfl
  · rw [if_neg hnil]
    by_cases due : delay ≤ time since
    · rw [if_pos ⟨hnil, due⟩]
      exact passed_of_spent due rfl
    · rw [if_neg fun h => due h.2]
      exact passed_of_early due

theorem firingsAfter_once (id : TimerId) (delay : Nat) (callback : Callback) (since : Trace) :
    firingsAfter ⟨id, delay, delay, false, callback⟩ (steps since) =
      if Overdue delay since then [(id, callback)] else [] := by
  unfold firingsAfter
  by_cases hnil : steps since = []
  · rw [if_pos hnil, if_neg fun h => h.1 hnil]
  · rw [if_neg hnil]
    by_cases due : delay ≤ time since
    · rw [if_pos ⟨hnil, due⟩]
      exact firings_of_due due
    · rw [if_neg fun h => due h.2]
      exact firings_of_early due

theorem overshoot_of_period {elapsed : Nat} (due : period ≤ elapsed) (positive : 0 < period) :
    (elapsed - period) % period = elapsed % period ∧
      1 + (elapsed - period) / period = elapsed / period := by
  have hsum : elapsed - period + period = elapsed := Nat.sub_add_cancel due
  rw [← hsum, Nat.add_sub_cancel, Nat.add_mod_right, Nat.add_div_right _ positive, Nat.add_comm]
  exact ⟨rfl, rfl⟩

theorem rest_of_period (elapsed period : Nat) :
    (elapsed / period + 1) * period - elapsed = period - elapsed % period := by
  have hsplit := Nat.div_add_mod' elapsed period
  rw [Nat.add_mul, Nat.one_mul]
  omega

theorem pendingAfter_repeating (positive : 0 < period) :
    pendingAfter ⟨id, period, period, true, callback⟩ (steps since) =
      some ⟨id, (time since / period + 1) * period - time since, period, true, callback⟩ := by
  rw [rest_of_period]
  unfold pendingAfter
  by_cases hnil : steps since = []
  · simp [hnil, time]
  · rw [if_neg hnil, ← time]
    by_cases due : period ≤ time since
    · rw [passed_of_due due rfl, rearmed, (overshoot_of_period due positive).1]
    · rw [passed_of_early due, nearer, Nat.mod_eq_of_lt (Nat.lt_of_not_le due)]

theorem firingsAfter_repeating (positive : 0 < period) :
    firingsAfter ⟨id, period, period, true, callback⟩ (steps since) =
      List.replicate (time since / period) (id, callback) := by
  unfold firingsAfter
  by_cases hnil : steps since = []
  · simp [hnil, time]
  · rw [if_neg hnil, ← time]
    by_cases due : period ≤ time since
    · rw [firings_of_due due, ← (overshoot_of_period due positive).2]
      rfl
    · rw [firings_of_early due, Nat.div_eq_of_lt (Nat.lt_of_not_le due)]
      rfl

/-- A timer makes no more calls than milliseconds pass, or the one it was armed for. -/
theorem Timely.callCount_le {timer : Timer} {elapsed : Nat} (h : timer.Timely)
    (due : timer.remaining ≤ elapsed) :
    timer.callCount (elapsed - timer.remaining) ≤ max 1 elapsed := by
  unfold callCount
  split
  · rename_i repeating
    have hperiod := h repeating
    have hdiv := Nat.div_le_self (elapsed - timer.remaining) timer.period
    omega
  · omega

end Timer

namespace TimerQueue

variable {queue : TimerQueue} {trace later earlier : Trace} {id : TimerId} {delay period : Nat}
  {callback : Callback}

/-- The timer armed between `earlier` and `later` calls once: in the move forward that first
brings its deadline, and in no other. -/
structure CallsOnce (id : TimerId) (delay : Nat) (callback : Callback) (earlier later : Trace)
    (queue : TimerQueue) : Prop where
  calls : callsOf id (later ++ .armed id delay callback false :: earlier) =
    if Overdue delay later then [(id, callback)] else []
  pending : queue.pendingOf id =
    if Overdue delay later then [] else [⟨id, delay - time later, delay, false, callback⟩]
  met : ∀ recent elapsed made before, later = recent ++ .advanced elapsed made :: before →
    made.filter (·.1 == id) =
      if ¬Overdue delay before ∧ delay ≤ time before + elapsed then [(id, callback)] else []

/-- The timer armed between `earlier` and `later` has called once for each of its periods that has
passed since, and waits for the rest of the current one. -/
structure CallsEachPeriod (id : TimerId) (period : Nat) (callback : Callback)
    (earlier later : Trace) (queue : TimerQueue) : Prop where
  positive : 0 < period
  calls : callsOf id (later ++ .armed id period callback true :: earlier) =
    List.replicate (time later / period) (id, callback)
  pending : queue.pendingOf id =
    [⟨id, (time later / period + 1) * period - time later, period, true, callback⟩]

/-- A queue moves forward by `elapsed` milliseconds without a counter or the queue running over,
and as in any two moves that add up to it. -/
structure MovesForward (queue : TimerQueue) (elapsed : Nat) : Prop where
  /-- The calls made are the firings of the timers. -/
  made : (queue.firings elapsed).map (·.2) = (queue.advance elapsed).1
  /-- Their number is the sum of the due timers' counts. -/
  count : (queue.advance elapsed).1.length =
    ((queue.due elapsed).map fun timer => timer.callCount (elapsed - timer.remaining)).sum
  due : ∀ timer ∈ queue.due elapsed, timer.remaining ≤ elapsed ∧
    timer.callCount (elapsed - timer.remaining) ≤ max 1 elapsed ∧
    (timer.repeating = true → (elapsed - timer.remaining) % timer.period < timer.period)
  later : ∀ timer ∈ queue.later elapsed, elapsed < timer.remaining
  room : ∀ done timer rest, queue.due elapsed = done ++ timer :: rest →
    (rearm elapsed done ((queue.later elapsed).map (Timer.nearer elapsed))).length < timerCapacity
  halves : ∀ a b, a + b = elapsed →
    (queue.firings a ++ (queue.advance a).2.firings b).Perm (queue.firings elapsed) ∧
      ((queue.advance a).2.advance b).2.timers.Perm (queue.advance elapsed).2.timers

theorem Sound.movesForward (h : queue.Sound) (elapsed : Nat) : queue.MovesForward elapsed where
  made := firings_map_snd queue elapsed
  count := advance_length queue elapsed
  due timer htimer := by
    have hdue := due_of_mem_takeWhile htimer
    have htimely := h.timely timer ((List.takeWhile_sublist _).mem htimer)
    refine ⟨hdue, htimely.callCount_le hdue, fun repeating => Nat.mod_lt _ ?_⟩
    have hperiod := htimely repeating
    omega
  later timer htimer := h.ordered.early_of_mem_dropWhile htimer
  room done timer rest hdue := h.room_to_rearm hdue
  halves a b hsum := by
    subst hsum
    exact ⟨h.firings_advance a b, h.advance_advance a b⟩

/-- The calls that a move forward in the midst of a run makes for a timer. -/
theorem Ran.calls_of_move {repeating : Bool} {elapsed : Nat} {made : List (TimerId × Callback)}
    (ran : Ran (.advanced elapsed made :: later ++ .armed id delay callback repeating :: earlier)
      queue)
    (few : (issued (later ++ .armed id delay callback repeating :: earlier)).length ≤ idLimit)
    (kept : .cancelled id true ∉ later) :
    made.filter (·.1 == id) =
      (Timer.pendingAfter ⟨id, delay, delay, repeating, callback⟩ (steps later)).toList.flatMap
        (Timer.firings elapsed) := by
  obtain ⟨before, hbefore, does⟩ := ran.of_cons
  cases does with
  | advanced => rw [firings_of_id hbefore.sound, (hbefore.fate few kept).pending]

theorem Ran.callsOnce (ran : Ran (later ++ .armed id delay callback false :: earlier) queue)
    (few : (issued (later ++ .armed id delay callback false :: earlier)).length ≤ idLimit)
    (kept : .cancelled id true ∉ later) : CallsOnce id delay callback earlier later queue := by
  have hfate := ran.fate few kept
  refine ⟨hfate.calls.trans (Timer.firingsAfter_once ..), ?_, ?_⟩
  · rw [hfate.pending, Timer.pendingAfter_once]
    split <;> rfl
  · rintro recent elapsed made before rfl
    rw [List.append_assoc] at ran few
    obtain ⟨_, hmove⟩ := ran.of_append
    have hfewer := (issued_suffix (recent ++ [.advanced elapsed made])
      (before ++ .armed id delay callback false :: earlier)).length_le.trans
        (by simpa using few)
    have hkept := fun h => kept (List.mem_append_right recent (List.mem_cons_of_mem _ h))
    rw [hmove.calls_of_move hfewer hkept, Timer.pendingAfter_once]
    by_cases hover : Overdue delay before
    · rw [if_pos hover, if_neg fun h => h.1 hover]
      rfl
    · rw [if_neg hover, Option.toList_some, List.flatMap_singleton]
      by_cases met : delay ≤ time before + elapsed
      · rw [if_pos ⟨hover, met⟩]
        exact Timer.firings_of_due (show delay - time before ≤ elapsed by omega)
      · rw [if_neg fun h => met h.2]
        exact Timer.firings_of_early (show ¬delay - time before ≤ elapsed by omega)

theorem Ran.callsEachPeriod (ran : Ran (later ++ .armed id period callback true :: earlier) queue)
    (few : (issued (later ++ .armed id period callback true :: earlier)).length ≤ idLimit)
    (kept : .cancelled id true ∉ later) :
    CallsEachPeriod id period callback earlier later queue := by
  have hfate := ran.fate few kept
  obtain ⟨_, harmed⟩ := ran.of_append
  have positive : 0 < period := (harmed.timely_of_armed rfl).1
  refine ⟨positive, hfate.calls.trans (Timer.firingsAfter_repeating positive), ?_⟩
  rw [hfate.pending, Timer.pendingAfter_repeating positive]
  rfl

/-- Timers are exact over whole runs. As long as the handles have not come round, a timer armed
once and not cancelled calls in the first move forward that brings its deadline and in no other; a
repeating timer that is not cancelled has called once for each of its periods that has passed, and
waits for the rest of the current one. Every move forward answers just the calls it makes, takes no
more from a counter than it holds, has room to put back what it drained, and makes each timer's
calls of any two moves that add up to it. -/
theorem exact_on_every_run (ran : Ran trace queue) (few : (issued trace).length ≤ idLimit) :
    (∀ later earlier id delay callback,
      trace = later ++ .armed id delay callback false :: earlier →
      .cancelled id true ∉ later → CallsOnce id delay callback earlier later queue) ∧
    (∀ later earlier id period callback,
      trace = later ++ .armed id period callback true :: earlier →
      .cancelled id true ∉ later → CallsEachPeriod id period callback earlier later queue) ∧
    ∀ elapsed, queue.MovesForward elapsed := by
  refine ⟨?_, ?_, ran.sound.movesForward⟩
  · rintro later earlier id delay callback rfl kept
    exact ran.callsOnce few kept
  · rintro later earlier id period callback rfl kept
    exact ran.callsEachPeriod few kept

/-- A timer armed once for 5 ms and one for every 3 ms, after late moves by 7 and 4 ms: the first
has called once, the second three times, and it is due again after 1 ms. -/
theorem exact_after_late_moves :
    ∃ trace queue, Ran trace queue ∧ (issued trace).length ≤ idLimit ∧ time trace = 11 ∧
      callsOf ⟨0⟩ trace = [(⟨0⟩, ⟨1, 10⟩)] ∧
      callsOf ⟨1⟩ trace = List.replicate 3 (⟨1⟩, ⟨2, 20⟩) ∧
      queue.pendingOf ⟨1⟩ = [⟨⟨1⟩, 1, 3, true, ⟨2, 20⟩⟩] ∧ queue.MovesForward 6 := by
  have armed : Ran [.armed ⟨1⟩ 3 ⟨2, 20⟩ true, .armed ⟨0⟩ 5 ⟨1, 10⟩ false] _ :=
    .step (.step .created (.armed rfl)) (.armed rfl)
  have ran : Ran (.advanced 4 _ :: .advanced 7 _ :: _) _ :=
    .step (.step armed (.advanced rfl)) (.advanced rfl)
  have hexact := exact_on_every_run ran (by decide)
  have honce := hexact.1 [_, _, _] [] ⟨0⟩ 5 ⟨1, 10⟩ rfl (by decide)
  have heach := hexact.2.1 [_, _] [_] ⟨1⟩ 3 ⟨2, 20⟩ rfl (by decide)
  exact ⟨_, _, ran, by decide, by decide, honce.calls, heach.calls, heach.pending, hexact.2.2 6⟩

end TimerQueue

end KernelCore
