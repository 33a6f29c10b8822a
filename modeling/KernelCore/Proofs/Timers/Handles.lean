import KernelCore.Proofs.Timers.Runs

/-!
# Handles of timers

Handles are counted in 32 bits and given out in turn, whatever is pending under them. They tell
the pending timers apart as long as none comes round while the timer it was given to is pending;
then cancelling under a handle disarms just that timer. A repeating timer can be pending for a
whole round: then two timers share a handle, and cancelling under it disarms the one that is due
first.
-/

namespace KernelCore

namespace TimerQueue

variable {queue queue' : TimerQueue} {trace later earlier : Trace} {moment : Moment}
  {id other : TimerId} {delay elapsed : Nat} {callback : Callback} {repeating pending : Bool}
  {timer left : Timer}

/-! ## What stands under a handle -/

/-- What a trace leaves of a timer that was pending before it. -/
def leftOf (timer : Timer) : Trace → Option Timer
  | [] => some timer
  | .cancelled id true :: since => if id = timer.id then none else leftOf timer since
  | .advanced elapsed _ :: since => (leftOf timer since).bind (Timer.passed elapsed)
  | _ :: since => leftOf timer since

def standing (id : TimerId) : Trace → Option Timer
  | [] => none
  | .armed other delay callback repeating :: earlier =>
      if other = id then some ⟨other, delay, delay, repeating, callback⟩ else standing id earlier
  | .cancelled other true :: earlier => if other = id then none else standing id earlier
  | .advanced elapsed _ :: earlier => (standing id earlier).bind (Timer.passed elapsed)
  | _ :: earlier => standing id earlier

/-- No handle was given out while the last timer it was given to was pending. -/
def Unshared (trace : Trace) : Prop :=
  ∀ recent earlier id delay callback repeating,
    trace = recent ++ .armed id delay callback repeating :: earlier → standing id earlier = none

theorem Unshared.of_cons (h : Unshared (moment :: trace)) : Unshared trace :=
  fun recent earlier id delay callback repeating heq =>
    h (moment :: recent) earlier id delay callback repeating (congrArg (moment :: ·) heq)

theorem Unshared.of_append {recent : Trace} (h : Unshared (recent ++ trace)) :
    Unshared trace := by
  induction recent with
  | nil => exact h
  | cons moment recent ih => exact ih h.of_cons

theorem unshared_nil : Unshared [] := fun _ _ _ _ _ _ h => by simp at h

theorem Unshared.cons (h : Unshared trace)
    (kept : ∀ id delay callback repeating, moment ≠ .armed id delay callback repeating) :
    Unshared (moment :: trace) := by
  intro recent earlier id delay callback repeating heq
  cases recent with
  | nil => exact absurd (List.cons.inj heq).1 (kept id delay callback repeating)
  | cons _ recent => exact h recent earlier id delay callback repeating (List.cons.inj heq).2

theorem Unshared.armed (h : Unshared trace) (free : standing id trace = none) :
    Unshared (.armed id delay callback repeating :: trace) := by
  intro recent earlier other _ _ _ heq
  cases recent with
  | nil =>
      cases heq
      exact free
  | cons _ recent => exact h recent earlier other _ _ _ (List.cons.inj heq).2

/-- While handles are not shared, a timer that is left of its arming stands under its handle. -/
theorem Unshared.standing_of_left
    (h : Unshared (later ++ .armed id delay callback repeating :: earlier))
    (hleft : leftOf ⟨id, delay, delay, repeating, callback⟩ later = some left) :
    standing id (later ++ .armed id delay callback repeating :: earlier) = some left := by
  induction later generalizing left with
  | nil => exact (if_pos rfl).trans hleft
  | cons moment later ih =>
      have hbefore := h.of_cons
      cases moment with
      | armed other delay callback repeating =>
          have hstands := ih hbefore hleft
          have hother : other ≠ id := by
            rintro rfl
            cases hstands.symm.trans (h [] _ other delay callback repeating rfl)
          exact (if_neg hother).trans hstands
      | refused cause => exact ih hbefore hleft
      | cancelled other pending =>
          cases pending with
          | false => exact ih hbefore hleft
          | true =>
              rw [leftOf] at hleft
              split at hleft
              · cases hleft
              · rename_i hother
                exact (if_neg hother).trans (ih hbefore hleft)
      | advanced elapsed made =>
          obtain ⟨before, hkept, hpassed⟩ := Option.bind_eq_some_iff.mp hleft
          exact Option.bind_eq_some_iff.mpr ⟨before, ih hbefore hkept, hpassed⟩

/-! ## What is pending under a handle -/

theorem pendingOf_of_cancelled (h : queue.cancel id = (true, queue'))
    (alone : (queue.pendingOf id).length ≤ 1) : queue'.pendingOf id = [] := by
  obtain ⟨hpending, rfl⟩ := cancel_eq h
  obtain ⟨hit, hmem, hid⟩ := List.any_eq_true.mp hpending.symm
  obtain ⟨timer, front, back, -, htimer, hsplit, herase⟩ :=
    @List.exists_of_eraseP _ (·.id == id) _ _ hmem hid
  have hone : (front.filter (·.id == id)).length + (back.filter (·.id == id)).length = 0 := by
    rw [pendingOf, hsplit, List.filter_append,
      List.filter_cons_of_pos (by exact htimer), List.length_append, List.length_cons] at alone
    omega
  show (queue.timers.eraseP _).filter _ = []
  rw [herase]
  refine List.eq_nil_of_length_eq_zero ?_
  rw [List.filter_append, List.length_append, hone]

theorem Ran.mem_of_standing (ran : Ran trace queue) (h : standing id trace = some timer) :
    timer ∈ queue.pendingOf id := by
  induction ran generalizing timer with
  | created => cases h
  | @step trace queue queue' moment before does ih =>
      cases does with
      | refused hadd => exact add_eq_error hadd ▸ ih h
      | @armed _ other delay callback repeating hadd =>
          refine (pendingOf_of_add id hadd).mem_iff.mpr ?_
          rw [standing] at h
          split at h
          · rename_i same
            rw [if_pos same]
            exact Option.some.inj h ▸ same ▸ List.mem_cons_self
          · rename_i hother
            rw [if_neg hother]
            exact ih h
      | @cancelled _ other pending hcancel =>
          cases pending with
          | false => exact (pendingOf_of_cancel hcancel (.inr rfl)).symm ▸ ih h
          | true =>
              rw [standing] at h
              split at h
              · cases h
              · rename_i hother
                exact (pendingOf_of_cancel hcancel (.inl hother)).symm ▸ ih h
      | @advanced _ elapsed hadvance =>
          subst hadvance
          obtain ⟨kept, hkept, hpassed⟩ := Option.bind_eq_some_iff.mp h
          exact (pendingOf_of_advance before.sound id elapsed).mem_iff.mpr
            (List.mem_filterMap.mpr ⟨kept, ih hkept, hpassed⟩)

/-- While handles are not shared, nothing else is pending under a handle than what stands there. -/
theorem Ran.pendingOf_eq (ran : Ran trace queue) (unshared : Unshared trace) (id : TimerId) :
    queue.pendingOf id = (standing id trace).toList := by
  induction ran with
  | created => rfl
  | @step trace queue queue' moment before does ih =>
      have hbefore := ih unshared.of_cons
      cases does with
      | refused hadd => exact add_eq_error hadd ▸ hbefore
      | @armed _ other delay callback repeating hadd =>
          refine eq_toList_of_perm ((pendingOf_of_add id hadd).trans (.of_eq ?_))
          rw [standing]
          split
          · rename_i same
            have hnone := unshared [] trace other delay callback repeating rfl
            rw [hbefore, ← same, hnone]
            rfl
          · exact hbefore
      | @cancelled _ other pending hcancel =>
          cases pending with
          | false => exact (pendingOf_of_cancel hcancel (.inr rfl)).trans hbefore
          | true =>
              rw [standing]
              split
              · rename_i same
                subst same
                refine pendingOf_of_cancelled hcancel ?_
                rw [hbefore]
                exact Option.length_toList_le
              · rename_i hother
                exact (pendingOf_of_cancel hcancel (.inl hother)).trans hbefore
      | @advanced _ elapsed hadvance =>
          subst hadvance
          refine eq_toList_of_perm
            ((pendingOf_of_advance before.sound id elapsed).trans (.of_eq ?_))
          rw [hbefore, toList_filterMap]
          rfl

/-! ## Rounds of handles -/

theorem Ran.number_of_armed (ran : Ran (.armed id delay callback repeating :: earlier) queue) :
    id = ⟨(issued earlier).length % idLimit⟩ := by
  obtain ⟨before, ran, does⟩ := ran.of_cons
  cases does with
  | armed hadd => rw [(add_eq_ok hadd).2.2.1, ran.numbered.next]

/-- A handle is given out again with every 2^32nd timer. -/
theorem Ran.comes_round {delay' : Nat} {callback' : Callback} {repeating' : Bool}
    (ran : Ran (.armed other delay' callback' repeating' ::
      (later ++ .armed id delay callback repeating :: earlier)) queue) :
    other = id ↔ idLimit ∣ (issued later).length + 1 := by
  obtain ⟨_, hbefore, -⟩ := ran.of_cons
  obtain ⟨_, harmed⟩ := hbefore.of_append
  have hcount : (issued (later ++ .armed id delay callback repeating :: earlier)).length =
      (issued earlier).length + ((issued later).length + 1) := by
    rw [issued, List.filterMap_append, List.length_append]
    show (issued later).length + ((issued earlier).length + 1) = _
    omega
  rw [ran.number_of_armed, hcount, harmed.number_of_armed, TimerId.mk.injEq]
  have hmod := Nat.modEq_iff_dvd' (n := idLimit) (Nat.le_add_right (issued earlier).length
    ((issued later).length + 1))
  rw [Nat.add_sub_cancel_left] at hmod
  exact eq_comm.trans hmod

/-! ## Timers told apart -/

theorem nodup_ids_of_pendingOf (h : ∀ id, (queue.pendingOf id).length ≤ 1) :
    (queue.timers.map (·.id)).Nodup := by
  refine List.nodup_iff_count_le_one.mpr fun id => ?_
  rw [List.count, List.countP_map, List.countP_eq_length_filter]
  exact h id

theorem not_nodup_of_armed (h : queue.add delay callback repeating = (.ok id, queue'))
    (shared : timer ∈ queue.pendingOf id) : ¬(queue'.timers.map (·.id)).Nodup := by
  obtain ⟨-, -, -, rfl⟩ := add_eq_ok h
  obtain ⟨hmem, hid⟩ := List.mem_filter.mp shared
  intro hnodup
  have hcons := ((insertTimer_perm ..).map (·.id)).nodup_iff.mp hnodup
  refine (List.nodup_cons.mp hcons).1 (List.mem_map.mpr ⟨timer, hmem, ?_⟩)
  simpa using hid

/-- While handles are not shared, a timer that is left of its arming is disarmed by its handle,
and the others stay as they are. -/
theorem Ran.disarms (ran : Ran trace queue) (unshared : Unshared trace)
    (h : standing id trace = some timer) :
    ∃ front back, queue.timers = front ++ timer :: back ∧
      queue.cancel id = (true, { queue with timers := front ++ back }) := by
  have hpending := ran.pendingOf_eq unshared id
  rw [h] at hpending
  have hmem : timer ∈ queue.pendingOf id := hpending ▸ List.mem_singleton_self timer
  obtain ⟨hmem, hid⟩ := List.mem_filter.mp hmem
  obtain ⟨hit, front, back, -, hhit, hsplit, herase⟩ :=
    @List.exists_of_eraseP _ (·.id == id) _ _ hmem hid
  have heq : hit = timer := by
    have hhits : hit ∈ queue.pendingOf id :=
      List.mem_filter.mpr ⟨hsplit ▸ List.mem_append_right front List.mem_cons_self, hhit⟩
    rw [hpending] at hhits
    exact List.mem_singleton.mp hhits
  subst heq
  refine ⟨front, back, hsplit, Prod.ext (List.any_eq_true.mpr ⟨hit, hmem, hid⟩) ?_⟩
  show TimerQueue.mk (queue.timers.eraseP _) queue.nextId = _
  rw [herase]

/-! ## A whole round -/

def churn (first : Nat) : Nat → Trace
  | 0 => []
  | rounds + 1 =>
      .cancelled ⟨(first + rounds) % idLimit⟩ true ::
        .armed ⟨(first + rounds) % idLimit⟩ 1 ⟨0, 0⟩ false :: churn first rounds

theorem eraseP_insertTimer {timers : List Timer}
    (apart : ∀ other ∈ timers, other.id ≠ timer.id) :
    (insertTimer timer timers).eraseP (·.id == timer.id) = timers := by
  induction timers with
  | nil => simp [insertTimer]
  | cons first rest ih =>
      unfold insertTimer
      split
      · have hfirst := apart first List.mem_cons_self
        rw [List.eraseP_cons_of_neg (by simpa using hfirst),
          ih fun other hother => apart other (List.mem_cons_of_mem first hother)]
      · exact List.eraseP_cons_of_pos (by simp)

/-- A queue with room is left as it is by timers that are armed and cancelled at once, but for
the handles they take. -/
theorem Ran.churned (ran : Ran trace queue) (room : queue.timers.length < timerCapacity)
    (small : queue.nextId < idLimit) {rounds : Nat}
    (apart : ∀ round < rounds, ∀ timer ∈ queue.timers,
      timer.id ≠ ⟨(queue.nextId + round) % idLimit⟩) :
    Ran (churn queue.nextId rounds ++ trace)
      ⟨queue.timers, (queue.nextId + rounds) % idLimit⟩ := by
  induction rounds with
  | zero =>
      show Ran trace ⟨queue.timers, queue.nextId % idLimit⟩
      rw [Nat.mod_eq_of_lt small]
      exact ran
  | succ rounds ih =>
      have hbefore := ih fun round hround => apart round (Nat.lt_succ_of_lt hround)
      refine .step (.step hbefore (.armed (if_neg nofun |>.trans (if_neg room.not_ge)))) ?_
      refine .cancelled ?_
      have herase := @eraseP_insertTimer ⟨⟨(queue.nextId + rounds) % idLimit⟩, 1, 1, false, ⟨0, 0⟩⟩
        _ (apart rounds (Nat.lt_succ_self rounds))
      refine Prod.ext (List.any_eq_true.mpr ⟨_, (insertTimer_perm ..).mem_iff.mpr
        List.mem_cons_self, beq_self_eq_true _⟩) ?_
      show TimerQueue.mk (List.eraseP _ _) _ = _
      rw [herase, Nat.mod_add_mod, Nat.add_assoc]

theorem issued_armed (id : TimerId) (delay : Nat) (callback : Callback) (repeating : Bool)
    (trace : Trace) : issued (.armed id delay callback repeating :: trace) = id :: issued trace :=
  List.filterMap_cons_some rfl

theorem standing_churn (first rounds : Nat) (id : TimerId) :
    standing id (churn first rounds) = none := by
  induction rounds with
  | zero => rfl
  | succ rounds ih =>
      rw [churn, standing, standing, ih]
      split <;> rfl

theorem unshared_churn (first rounds : Nat) : Unshared (churn first rounds) := by
  induction rounds with
  | zero => exact unshared_nil
  | succ rounds ih => exact (ih.armed (standing_churn ..)).cons nofun

theorem length_issued_churn (first rounds : Nat) :
    (issued (churn first rounds)).length = rounds := by
  induction rounds with
  | zero => rfl
  | succ rounds ih => exact congrArg (· + 1) ih

/-- Handles tell timers apart until one comes round to a pending timer. A handle is given out
again with every 2^32nd timer and not before. The pending timers had different handles all along
just if no handle was given out while the last timer it was given to was pending. Then the handle
of every timer that is left of its arming disarms this timer, as time has left it, and no other:
the rest stay as they are, in their order. -/
theorem handles_tell_timers_apart (ran : Ran trace queue) :
    (∀ recent later earlier other delay' callback' repeating' id delay callback repeating,
      trace = recent ++ .armed other delay' callback' repeating' ::
        (later ++ .armed id delay callback repeating :: earlier) →
      (other = id ↔ idLimit ∣ (issued later).length + 1)) ∧
    (Unshared trace ↔ ∀ recent past queue', trace = recent ++ past → Ran past queue' →
      (queue'.timers.map (·.id)).Nodup) ∧
    (Unshared trace → ∀ later earlier id delay callback repeating left,
      trace = later ++ .armed id delay callback repeating :: earlier →
      leftOf ⟨id, delay, delay, repeating, callback⟩ later = some left →
      ∃ front back, queue.timers = front ++ left :: back ∧
        queue.cancel id = (true, { queue with timers := front ++ back })) := by
  refine ⟨?_, ⟨?_, ?_⟩, ?_⟩
  · rintro recent later earlier other delay' callback' repeating' id delay callback repeating rfl
    obtain ⟨_, harmed⟩ := ran.of_append
    exact harmed.comes_round
  · rintro unshared recent past queue' rfl hpast
    refine nodup_ids_of_pendingOf fun id => ?_
    rw [hpast.pendingOf_eq unshared.of_append id]
    exact Option.length_toList_le
  · rintro distinct recent earlier id delay callback repeating rfl
    obtain ⟨queue', harmed⟩ := ran.of_append
    obtain ⟨before, hbefore, does⟩ := harmed.of_cons
    -- A timer standing under the handle would be pending beside the new one.
    refine Option.eq_none_iff_forall_ne_some.mpr fun timer hstands => ?_
    cases does with
    | armed hadd =>
        exact not_nodup_of_armed hadd (hbefore.mem_of_standing hstands)
          (distinct recent _ queue' rfl harmed)
  · rintro unshared later earlier id delay callback repeating left rfl hleft
    exact ran.disarms unshared (unshared.standing_of_left hleft)

/-- After a whole round of handles the first one is given out again, its timer being gone, and
disarms the new timer beside another. -/
theorem told_apart_after_a_round :
    ∃ trace queue, Ran trace queue ∧ Unshared trace ∧ idLimit < (issued trace).length ∧
      queue.timers.map (·.id) = [⟨1⟩, ⟨0⟩] ∧
      ∃ front back, queue.timers = front ++ ⟨⟨0⟩, 7, 7, false, ⟨1, 10⟩⟩ :: back ∧
        queue.cancel ⟨0⟩ = (true, { queue with timers := front ++ back }) := by
  have hround : Ran (churn 0 idLimit ++ []) _ :=
    Ran.created.churned (by decide) (by decide) nofun
  rw [List.append_nil] at hround
  have ran : Ran (.armed ⟨1⟩ 3 ⟨2, 20⟩ true :: .armed ⟨0⟩ 7 ⟨1, 10⟩ false :: churn 0 idLimit) _ :=
    .step (.step hround (.armed rfl)) (.armed rfl)
  have unshared : Unshared
      (.armed ⟨1⟩ 3 ⟨2, 20⟩ true :: .armed ⟨0⟩ 7 ⟨1, 10⟩ false :: churn 0 idLimit) :=
    ((unshared_churn 0 idLimit).armed (standing_churn ..)).armed
      ((if_neg nofun).trans (standing_churn ..))
  refine ⟨_, _, ran, unshared, ?_, rfl, ?_⟩
  · rw [issued_armed, issued_armed, List.length_cons, List.length_cons, length_issued_churn]
    omega
  · exact (handles_tell_timers_apart ran).2.2 unshared [_] _ _ _ _ _ _ rfl rfl

/-- A repeating timer that is pending for a whole round of handles shares its handle with the timer
armed then: cancelling under the handle that this one was answered disarms the repeating timer, and
leaves the one just armed. -/
theorem handle_shared_after_a_round :
    ∃ queue, Ran (.armed ⟨0⟩ 2000 ⟨2, 20⟩ false ::
        (churn 1 (idLimit - 1) ++ [.armed ⟨0⟩ 1000 ⟨1, 10⟩ true])) queue ∧
      ¬(queue.timers.map (·.id)).Nodup ∧
      queue.timers =
        [⟨⟨0⟩, 1000, 1000, true, ⟨1, 10⟩⟩, ⟨⟨0⟩, 2000, 2000, false, ⟨2, 20⟩⟩] ∧
      queue.cancel ⟨0⟩ =
        (true, { queue with timers := [⟨⟨0⟩, 2000, 2000, false, ⟨2, 20⟩⟩] }) := by
  have hfirst : Ran [.armed ⟨0⟩ 1000 ⟨1, 10⟩ true]
      ⟨[⟨⟨0⟩, 1000, 1000, true, ⟨1, 10⟩⟩], 1⟩ := .step .created (.armed rfl)
  have hround : Ran (churn 1 (idLimit - 1) ++ [.armed ⟨0⟩ 1000 ⟨1, 10⟩ true])
      ⟨[⟨⟨0⟩, 1000, 1000, true, ⟨1, 10⟩⟩], (1 + (idLimit - 1)) % idLimit⟩ := by
    refine hfirst.churned (by decide) (by decide) fun round hround timer htimer hid => ?_
    have hnumber : 0 = (1 + round) % idLimit := by
      cases List.mem_singleton.mp htimer
      exact congrArg TimerId.number hid
    rw [Nat.mod_eq_of_lt (by omega)] at hnumber
    omega
  exact ⟨_, .step hround (.armed rfl), by decide, rfl, rfl⟩

end TimerQueue

end KernelCore
