import Mathlib
import KernelCore.TimerQueue

/-!
# Timers one by one

What moving time forward does to one timer, whatever else is queued: what is left of it, and the
calls it makes. Both compose, so two moves forward do to a timer what one move by their sum does.
A queue in the order of its deadlines moves all of its timers so: the drained front holds just the
due ones, the subtraction for the others never falls below zero, and every re-insertion has room.
-/

namespace KernelCore

namespace Timer

variable {timer : Timer} {a b elapsed overshoot : Nat}

/-- A repeating timer waits for at least a millisecond and at most for its period. -/
def Timely (timer : Timer) : Prop :=
  timer.repeating = true → 0 < timer.remaining ∧ timer.remaining ≤ timer.period

def nearer (elapsed : Nat) (timer : Timer) : Timer :=
  { timer with remaining := timer.remaining - elapsed }

def passed (elapsed : Nat) (timer : Timer) : Option Timer :=
  if timer.remaining ≤ elapsed then
    if timer.repeating then some (timer.rearmed (elapsed - timer.remaining)) else none
  else some (timer.nearer elapsed)

def firings (elapsed : Nat) (timer : Timer) : List (TimerId × Callback) :=
  if timer.remaining ≤ elapsed then (timer.calls elapsed).map (timer.id, ·) else []

theorem firings_of_due (due : timer.remaining ≤ elapsed) :
    timer.firings elapsed =
      List.replicate (timer.callCount (elapsed - timer.remaining)) (timer.id, timer.callback) := by
  simp [firings, due, calls]

theorem id_of_mem_firings {call : TimerId × Callback} (h : call ∈ timer.firings elapsed) :
    call.1 = timer.id := by
  unfold firings at h
  split at h
  · obtain ⟨-, -, rfl⟩ := List.mem_map.mp h
    rfl
  · cases h

theorem id_of_passed {timer' : Timer} (h : timer.passed elapsed = some timer') :
    timer'.id = timer.id := by
  unfold passed at h
  split at h
  · split at h
    · exact Option.some.inj h ▸ rfl
    · cases h
  · exact Option.some.inj h ▸ rfl

/-! ## Re-arming -/

@[simp] theorem rearmed_rearmed (timer : Timer) (first second : Nat) :
    (timer.rearmed first).rearmed second = timer.rearmed second := rfl

theorem rearmed_eq_of_mod {first second : Nat}
    (same : first % timer.period = second % timer.period) :
    timer.rearmed first = timer.rearmed second := by
  unfold rearmed
  rw [same]

/-- A timer armed again waits for the rest of the period that its overshoot began. -/
theorem rearmed_remaining (positive : 0 < timer.period) (overshoot : Nat) :
    0 < (timer.rearmed overshoot).remaining ∧
      (timer.rearmed overshoot).remaining ≤ timer.period := by
  have hlt := Nat.mod_lt overshoot positive
  show 0 < timer.period - overshoot % timer.period ∧ _ ≤ timer.period
  exact ⟨by omega, Nat.sub_le ..⟩

/-- A re-armed timer that comes due again has begun a further period. -/
theorem overshoot_met (positive : 0 < timer.period)
    (met : (timer.rearmed overshoot).remaining ≤ elapsed) :
    overshoot + elapsed =
      (elapsed - (timer.rearmed overshoot).remaining) +
        timer.period * (overshoot / timer.period + 1) := by
  have hlt := Nat.mod_lt overshoot positive
  have hsplit := Nat.div_add_mod overshoot timer.period
  change timer.period - overshoot % timer.period ≤ elapsed at met
  show _ = elapsed - (timer.period - overshoot % timer.period) + _
  rw [Nat.mul_add]
  omega

theorem overshoot_unmet (unmet : ¬(timer.rearmed overshoot).remaining ≤ elapsed) :
    (overshoot + elapsed) % timer.period = overshoot % timer.period + elapsed ∧
      (overshoot + elapsed) / timer.period = overshoot / timer.period := by
  have hlt : overshoot % timer.period + elapsed < timer.period := by
    change ¬timer.period - overshoot % timer.period ≤ elapsed at unmet
    omega
  have hsplit : overshoot + elapsed =
      (overshoot % timer.period + elapsed) + timer.period * (overshoot / timer.period) := by
    have hdiv := Nat.div_add_mod overshoot timer.period
    omega
  rw [hsplit, Nat.add_mul_mod_self_left, Nat.mod_eq_of_lt hlt,
    Nat.add_mul_div_left _ _ (by omega), Nat.div_eq_of_lt hlt, Nat.zero_add]
  exact ⟨rfl, rfl⟩

theorem Timely.passed {timer' : Timer} (h : timer.Timely)
    (pending : timer.passed elapsed = some timer') : timer'.Timely := by
  unfold Timer.passed at pending
  split at pending
  · split at pending
    · cases pending
      intro repeating
      have hperiod := h repeating
      exact rearmed_remaining (by omega) _
    · cases pending
  · cases pending
    intro repeating
    have hperiod := h repeating
    show 0 < timer.remaining - elapsed ∧ timer.remaining - elapsed ≤ timer.period
    omega

/-! ## One move forward and two -/

theorem passed_of_due (due : timer.remaining ≤ elapsed) (repeating : timer.repeating = true) :
    timer.passed elapsed = some (timer.rearmed (elapsed - timer.remaining)) := by
  rw [passed, if_pos due, if_pos repeating]

theorem passed_of_spent (due : timer.remaining ≤ elapsed) (once : timer.repeating = false) :
    timer.passed elapsed = none := by
  simp [passed, due, once]

theorem passed_of_early (early : ¬timer.remaining ≤ elapsed) :
    timer.passed elapsed = some (timer.nearer elapsed) := by
  rw [passed, if_neg early]

theorem firings_of_early (early : ¬timer.remaining ≤ elapsed) : timer.firings elapsed = [] := by
  rw [firings, if_neg early]

theorem nearer_due_iff : (timer.nearer a).remaining ≤ b ↔ timer.remaining ≤ a + b := by
  show timer.remaining - a ≤ b ↔ _
  omega

theorem nearer_overshoot (early : ¬timer.remaining ≤ a) :
    b - (timer.nearer a).remaining = a + b - timer.remaining := by
  show b - (timer.remaining - a) = _
  omega

/-- Two moves forward leave of a timer what one move by their sum does. -/
theorem passed_passed (timely : timer.Timely) (a b : Nat) :
    (timer.passed a).bind (passed b) = timer.passed (a + b) := by
  by_cases due : timer.remaining ≤ a
  · have hdue : timer.remaining ≤ a + b := by omega
    cases hrep : timer.repeating with
    | false => rw [passed_of_spent due hrep, passed_of_spent hdue hrep, Option.bind_none]
    | true =>
        have positive : 0 < timer.period := by
          have hperiod := timely hrep
          omega
        rw [passed_of_due due hrep, passed_of_due hdue hrep, Option.bind_some,
          Nat.sub_add_comm due]
        by_cases met : (timer.rearmed (a - timer.remaining)).remaining ≤ b
        · rw [passed_of_due met hrep, rearmed_rearmed]
          refine congrArg some (rearmed_eq_of_mod ?_)
          rw [overshoot_met positive met, Nat.add_mul_mod_self_left]
        · rw [passed_of_early met, nearer, rearmed, rearmed, (overshoot_unmet met).1, Nat.sub_sub]
  · rw [passed_of_early due, Option.bind_some]
    by_cases met : timer.remaining ≤ a + b
    · have hlater := nearer_due_iff.mpr met
      cases hrep : timer.repeating with
      | false => rw [passed_of_spent met hrep, passed_of_spent hlater hrep]
      | true =>
          rw [passed_of_due met hrep, passed_of_due hlater hrep, nearer_overshoot due]
          rfl
    · rw [passed_of_early met, passed_of_early (mt nearer_due_iff.mp met), nearer, nearer, nearer,
        Nat.sub_sub]

/-- The calls of a re-armed timer that comes due again add up to those of one longer overshoot. -/
theorem callCount_met (repeating : timer.repeating = true) (positive : 0 < timer.period)
    (met : (timer.rearmed overshoot).remaining ≤ elapsed) :
    timer.callCount (overshoot + elapsed) =
      timer.callCount overshoot +
        (timer.rearmed overshoot).callCount (elapsed - (timer.rearmed overshoot).remaining) := by
  rw [callCount, callCount, callCount, if_pos repeating, if_pos repeating,
    if_pos (show (timer.rearmed _).repeating = true from repeating),
    overshoot_met positive met, Nat.add_mul_div_left _ _ positive]
  show _ = _ + (1 + _ / timer.period)
  omega

theorem callCount_unmet (unmet : ¬(timer.rearmed overshoot).remaining ≤ elapsed) :
    timer.callCount (overshoot + elapsed) = timer.callCount overshoot := by
  rw [callCount, callCount, (overshoot_unmet unmet).2]

theorem firings_firings (timely : timer.Timely) (a b : Nat) :
    timer.firings a ++ (timer.passed a).toList.flatMap (firings b) = timer.firings (a + b) := by
  by_cases due : timer.remaining ≤ a
  · have hdue : timer.remaining ≤ a + b := by omega
    rw [firings_of_due due, firings_of_due hdue, Nat.sub_add_comm due]
    cases hrep : timer.repeating with
    | false => simp [passed_of_spent due hrep, callCount, hrep]
    | true =>
        have positive : 0 < timer.period := by
          have hperiod := timely hrep
          omega
        rw [passed_of_due due hrep, Option.toList_some, List.flatMap_singleton]
        by_cases met : (timer.rearmed (a - timer.remaining)).remaining ≤ b
        · rw [firings_of_due met, callCount_met hrep positive met, List.replicate_add]
          rfl
        · rw [firings_of_early met, List.append_nil, callCount_unmet met]
  · rw [firings_of_early due, passed_of_early due, List.nil_append, Option.toList_some,
      List.flatMap_singleton]
    by_cases met : timer.remaining ≤ a + b
    · rw [firings_of_due met, firings_of_due (nearer_due_iff.mpr met), nearer_overshoot due]
      rfl
    · rw [firings_of_early met, firings_of_early (mt nearer_due_iff.mp met)]

end Timer

namespace TimerQueue

variable {queue : TimerQueue} {timers expired pending : List Timer} {timer : Timer} {elapsed : Nat}

/-! ## The order of the deadlines -/

def Ordered (timers : List Timer) : Prop := timers.Pairwise (·.remaining ≤ ·.remaining)

theorem Ordered.insertTimer (h : Ordered timers) (timer : Timer) :
    Ordered (insertTimer timer timers) := by
  induction timers with
  | nil => exact List.pairwise_singleton ..
  | cons first rest ih =>
      have hfirst := List.pairwise_cons.mp h
      unfold TimerQueue.insertTimer
      by_cases hle : first.remaining ≤ timer.remaining
      · rw [if_pos hle]
        refine List.pairwise_cons.mpr ⟨fun other hother => ?_, ih hfirst.2⟩
        cases List.mem_cons.mp ((insertTimer_perm timer rest).mem_iff.mp hother) with
        | inl heq => exact heq ▸ hle
        | inr hmem => exact hfirst.1 other hmem
      · rw [if_neg hle]
        refine List.pairwise_cons.mpr ⟨fun other hother => ?_, h⟩
        have hlt : timer.remaining < first.remaining := Nat.lt_of_not_le hle
        cases List.mem_cons.mp hother with
        | inl heq => exact heq ▸ hlt.le
        | inr hmem => exact hlt.le.trans (hfirst.1 other hmem)

/-- The drained front of an ordered queue holds its due timers and no others. -/
theorem Ordered.early_of_mem_dropWhile (h : Ordered timers)
    (later : timer ∈ timers.dropWhile (·.remaining ≤ elapsed)) : elapsed < timer.remaining := by
  induction timers with
  | nil => cases later
  | cons first rest ih =>
      have hfirst := List.pairwise_cons.mp h
      by_cases hdue : first.remaining ≤ elapsed
      · rw [List.dropWhile_cons_of_pos (by simpa using hdue)] at later
        exact ih hfirst.2 later
      · rw [List.dropWhile_cons_of_neg (by simpa using hdue)] at later
        have hlt : elapsed < first.remaining := Nat.lt_of_not_le hdue
        cases List.mem_cons.mp later with
        | inl heq => exact heq ▸ hlt
        | inr hmem => exact hlt.trans_le (hfirst.1 timer hmem)

theorem due_of_mem_takeWhile (h : timer ∈ timers.takeWhile (·.remaining ≤ elapsed)) :
    timer.remaining ≤ elapsed := by
  simpa using List.mem_takeWhile_imp h

/-! ## Re-insertion -/

theorem rearm_perm (early : ∀ timer ∈ expired, timer.remaining ≤ elapsed) :
    (rearm elapsed expired pending).Perm (expired.filterMap (Timer.passed elapsed) ++ pending) := by
  induction expired generalizing pending with
  | nil => exact .refl _
  | cons timer rest ih =>
      have hdue := early timer List.mem_cons_self
      have hrest := fun other h => early other (List.mem_cons_of_mem timer h)
      refine (ih hrest).trans ?_
      cases hrep : timer.repeating with
      | false => rw [List.filterMap_cons_none (Timer.passed_of_spent hdue hrep)]; rfl
      | true =>
          rw [List.filterMap_cons_some (Timer.passed_of_due hdue hrep), if_pos rfl]
          exact ((insertTimer_perm ..).append_left _).trans List.perm_middle

theorem Ordered.rearm (h : Ordered pending) : Ordered (rearm elapsed expired pending) := by
  induction expired generalizing pending with
  | nil => exact h
  | cons timer rest ih =>
      unfold TimerQueue.rearm
      split
      · exact ih (h.insertTimer _)
      · exact ih h

/-- Each re-insertion puts back at most the timer that was drained for it. -/
theorem rearm_length (elapsed : Nat) (expired pending : List Timer) :
    (rearm elapsed expired pending).length ≤ expired.length + pending.length := by
  induction expired generalizing pending with
  | nil => exact (Nat.zero_add _).ge
  | cons timer rest ih =>
      refine (ih _).trans ?_
      rw [List.length_cons]
      split
      · rw [(insertTimer_perm ..).length_eq, List.length_cons]
        omega
      · omega

/-! ## Sound queues -/

/-- What holds of a queue between two calls. -/
structure Sound (queue : TimerQueue) : Prop where
  ordered : Ordered queue.timers
  room : queue.timers.length ≤ timerCapacity
  timely : ∀ timer ∈ queue.timers, timer.Timely

def due (queue : TimerQueue) (elapsed : Nat) : List Timer :=
  queue.timers.takeWhile (·.remaining ≤ elapsed)

def later (queue : TimerQueue) (elapsed : Nat) : List Timer :=
  queue.timers.dropWhile (·.remaining ≤ elapsed)

def firings (queue : TimerQueue) (elapsed : Nat) : List (TimerId × Callback) :=
  (queue.due elapsed).flatMap (Timer.firings elapsed)

theorem due_append_later (queue : TimerQueue) (elapsed : Nat) :
    queue.due elapsed ++ queue.later elapsed = queue.timers := List.takeWhile_append_dropWhile ..

theorem advance_timers (queue : TimerQueue) (elapsed : Nat) :
    (queue.advance elapsed).2.timers =
      rearm elapsed (queue.due elapsed) ((queue.later elapsed).map (Timer.nearer elapsed)) := rfl

theorem advance_calls (queue : TimerQueue) (elapsed : Nat) :
    (queue.advance elapsed).1 = (queue.due elapsed).flatMap (·.calls elapsed) := rfl

theorem firings_map_snd (queue : TimerQueue) (elapsed : Nat) :
    (queue.firings elapsed).map (·.2) = (queue.advance elapsed).1 := by
  rw [firings, List.map_flatMap, advance_calls]
  refine List.flatMap_congr fun timer htimer => ?_
  rw [Timer.firings, if_pos (due_of_mem_takeWhile htimer), List.map_map]
  exact List.map_id _

theorem advance_length (queue : TimerQueue) (elapsed : Nat) :
    (queue.advance elapsed).1.length =
      ((queue.due elapsed).map fun timer => timer.callCount (elapsed - timer.remaining)).sum := by
  rw [advance_calls, List.length_flatMap]
  simp only [Timer.calls, List.length_replicate]

theorem sound_empty : empty.Sound :=
  ⟨.nil, Nat.zero_le _, nofun⟩

variable {queue' : TimerQueue} {id : TimerId} {delay : Nat} {callback : Callback}
  {repeating : Bool}

theorem add_eq_ok (h : queue.add delay callback repeating = (.ok id, queue')) :
    ¬(repeating && delay == 0) = true ∧ queue.timers.length < timerCapacity ∧
      id = ⟨queue.nextId⟩ ∧
      queue' = ⟨TimerQueue.insertTimer ⟨id, delay, delay, repeating, callback⟩ queue.timers,
        (queue.nextId + 1) % idLimit⟩ := by
  unfold TimerQueue.add at h
  split at h
  · cases h
  · rename_i valid
    split at h
    · cases h
    · rename_i room
      cases h
      exact ⟨valid, Nat.lt_of_not_le room, rfl, rfl⟩

theorem timely_of_add (h : queue.add delay callback repeating = (.ok id, queue')) :
    Timer.Timely ⟨id, delay, delay, repeating, callback⟩ := by
  intro hrep
  have valid := (add_eq_ok h).1
  have hdelay : delay ≠ 0 := by
    intro hzero
    simp [show repeating = true from hrep, hzero] at valid
  exact ⟨Nat.pos_of_ne_zero hdelay, Nat.le_refl _⟩

theorem add_eq_error {cause : TimerError}
    (h : queue.add delay callback repeating = (.error cause, queue')) : queue' = queue := by
  unfold TimerQueue.add at h
  split at h
  · exact (congrArg Prod.snd h).symm
  · split at h
    · exact (congrArg Prod.snd h).symm
    · cases h

theorem cancel_eq {pending : Bool} (h : queue.cancel id = (pending, queue')) :
    pending = queue.timers.any (·.id == id) ∧
      queue' = { queue with timers := queue.timers.eraseP (·.id == id) } := by
  cases h
  exact ⟨rfl, rfl⟩

theorem Sound.add (h : queue.Sound)
    (hadd : queue.add delay callback repeating = (.ok id, queue')) : queue'.Sound := by
  obtain ⟨-, room, -, rfl⟩ := add_eq_ok hadd
  have hperm := insertTimer_perm ⟨id, delay, delay, repeating, callback⟩ queue.timers
  refine ⟨h.ordered.insertTimer _, ?_, fun timer htimer => ?_⟩
  · rw [hperm.length_eq]
    exact room
  · cases List.mem_cons.mp (hperm.mem_iff.mp htimer) with
    | inr hmem => exact h.timely timer hmem
    | inl heq =>
        subst heq
        exact timely_of_add hadd

theorem Sound.cancel {pending : Bool} (h : queue.Sound)
    (hcancel : queue.cancel id = (pending, queue')) : queue'.Sound := by
  obtain ⟨-, rfl⟩ := cancel_eq hcancel
  have hsub : (queue.timers.eraseP (·.id == id)).Sublist queue.timers := List.eraseP_sublist
  exact ⟨h.ordered.sublist hsub, hsub.length_le.trans h.room,
    fun timer htimer => h.timely timer (hsub.mem htimer)⟩

/-- Time moves forward for every timer on its own; only the order of the queue is shared. -/
theorem Sound.advance_perm (h : queue.Sound) (elapsed : Nat) :
    (queue.advance elapsed).2.timers.Perm (queue.timers.filterMap (Timer.passed elapsed)) := by
  have hlater : (queue.later elapsed).map (Timer.nearer elapsed) =
      (queue.later elapsed).filterMap (Timer.passed elapsed) := by
    rw [← List.filterMap_eq_map]
    refine List.filterMap_congr fun timer htimer => ?_
    exact (Timer.passed_of_early (h.ordered.early_of_mem_dropWhile htimer).not_ge).symm
  rw [advance_timers, hlater, ← due_append_later queue elapsed, List.filterMap_append]
  exact rearm_perm fun timer htimer => due_of_mem_takeWhile htimer

/-- Every timer makes its own calls, in the order of the queue. -/
theorem Sound.firings_eq (h : queue.Sound) (elapsed : Nat) :
    queue.firings elapsed = queue.timers.flatMap (Timer.firings elapsed) := by
  have hlater : (queue.later elapsed).flatMap (Timer.firings elapsed) = [] := by
    refine List.flatMap_eq_nil_iff.mpr fun timer htimer => ?_
    exact Timer.firings_of_early (h.ordered.early_of_mem_dropWhile htimer).not_ge
  rw [← due_append_later queue elapsed, List.flatMap_append, hlater, List.append_nil,
    firings]

theorem Sound.advance (h : queue.Sound) (elapsed : Nat) : (queue.advance elapsed).2.Sound := by
  refine ⟨?_, ?_, fun timer htimer => ?_⟩
  · have hlater : Ordered (queue.later elapsed) :=
      h.ordered.sublist (List.dropWhile_sublist _)
    exact Ordered.rearm (hlater.map _ fun a b hle => Nat.sub_le_sub_right hle elapsed)
  · rw [(h.advance_perm elapsed).length_eq]
    exact (List.length_filterMap_le ..).trans h.room
  · have hmem := (h.advance_perm elapsed).mem_iff.mp htimer
    obtain ⟨before, hbefore, hpassed⟩ := List.mem_filterMap.mp hmem
    exact (h.timely before hbefore).passed hpassed

/-- Whenever a due timer is put back, the drain has left room for it. -/
theorem Sound.room_to_rearm (h : queue.Sound) {done rest : List Timer}
    (hdue : queue.due elapsed = done ++ timer :: rest) :
    (rearm elapsed done ((queue.later elapsed).map (Timer.nearer elapsed))).length <
      timerCapacity := by
  have hlength := congrArg List.length (due_append_later queue elapsed)
  have hroom := h.room
  have hback := rearm_length elapsed done ((queue.later elapsed).map (Timer.nearer elapsed))
  rw [hdue] at hlength
  simp only [List.length_append, List.length_cons, List.length_map] at hlength hback ⊢
  omega

/-! ## Two moves forward -/

theorem Sound.advance_advance (h : queue.Sound) (a b : Nat) :
    ((queue.advance a).2.advance b).2.timers.Perm (queue.advance (a + b)).2.timers := by
  refine ((h.advance a).advance_perm b).trans (.trans ?_ (h.advance_perm (a + b)).symm)
  refine ((h.advance_perm a).filterMap _).trans ?_
  rw [List.filterMap_filterMap]
  refine .of_eq (List.filterMap_congr fun timer htimer => ?_)
  exact Timer.passed_passed (h.timely timer htimer) a b

/-- Moving forward in two steps makes the calls of each timer that one step makes. -/
theorem Sound.firings_advance (h : queue.Sound) (a b : Nat) :
    (queue.firings a ++ (queue.advance a).2.firings b).Perm (queue.firings (a + b)) := by
  rw [h.firings_eq, h.firings_eq, (h.advance a).firings_eq]
  refine (((h.advance_perm a).flatMap_right _).append_left _).trans ?_
  rw [List.filterMap_eq_flatMap_toList, List.flatMap_assoc]
  refine (List.flatMap_append_perm ..).trans (.of_eq ?_)
  exact List.flatMap_congr fun timer htimer => Timer.firings_firings (h.timely timer htimer) a b

end TimerQueue

end KernelCore
