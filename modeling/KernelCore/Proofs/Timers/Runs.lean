import KernelCore.Proofs.Timers.Queue

/-!
# Runs of a timer queue

A trace records what was done with a queue, the latest first: what it armed, refused and
cancelled, and how far time moved with the calls that were made. As long as the handles have not
come round, the one of a new timer is not that of any earlier timer, so what is pending under a
handle and the calls under it belong to one timer. They are what the moves forward since that
timer was armed do to it on its own, whatever else was queued meanwhile.
-/

namespace KernelCore

namespace Timer

variable {timer : Timer} {elapsed : Nat} {steps : List Nat}

/-- What is pending of a timer after several moves forward; none of them touches it before the
first. -/
def pendingAfter (timer : Timer) (steps : List Nat) : Option Timer :=
  if steps = [] then some timer else timer.passed steps.sum

def firingsAfter (timer : Timer) (steps : List Nat) : List (TimerId × Callback) :=
  if steps = [] then [] else timer.firings steps.sum

theorem pendingAfter_cons (timely : timer.Timely) :
    (timer.pendingAfter steps).bind (passed elapsed) = timer.pendingAfter (elapsed :: steps) := by
  unfold pendingAfter
  rw [if_neg (List.cons_ne_nil elapsed steps), List.sum_cons, Nat.add_comm]
  by_cases hnil : steps = []
  · simp [hnil]
  · rw [if_neg hnil, passed_passed timely]

theorem firingsAfter_cons (timely : timer.Timely) :
    timer.firingsAfter steps ++ (timer.pendingAfter steps).toList.flatMap (firings elapsed) =
      timer.firingsAfter (elapsed :: steps) := by
  unfold firingsAfter pendingAfter
  rw [if_neg (List.cons_ne_nil elapsed steps), List.sum_cons, Nat.add_comm]
  by_cases hnil : steps = []
  · simp [hnil]
  · rw [if_neg hnil, if_neg hnil, firings_firings timely]

end Timer

namespace TimerQueue

/-- One call on a queue, and what came of it. -/
inductive Moment where
  | armed (id : TimerId) (delay : Nat) (callback : Callback) (repeating : Bool)
  | refused (cause : TimerError)
  | cancelled (id : TimerId) (pending : Bool)
  | advanced (elapsed : Nat) (calls : List (TimerId × Callback))
deriving DecidableEq

abbrev Trace := List Moment

def issued (trace : Trace) : List TimerId :=
  trace.filterMap fun
    | .armed id .. => some id
    | _ => none

def steps (trace : Trace) : List Nat :=
  trace.filterMap fun
    | .advanced elapsed _ => some elapsed
    | _ => none

def time (trace : Trace) : Nat := (steps trace).sum

/-- Time has moved forward since, and by the delay at least. -/
def Overdue (delay : Nat) (since : Trace) : Prop := steps since ≠ [] ∧ delay ≤ time since

instance (delay : Nat) (since : Trace) : Decidable (Overdue delay since) :=
  inferInstanceAs (Decidable (_ ∧ _))

def calls : Trace → List (TimerId × Callback)
  | [] => []
  | .advanced _ made :: earlier => calls earlier ++ made
  | _ :: earlier => calls earlier

def callsOf (id : TimerId) (trace : Trace) : List (TimerId × Callback) :=
  (calls trace).filter (·.1 == id)

def pendingOf (queue : TimerQueue) (id : TimerId) : List Timer :=
  queue.timers.filter (·.id == id)

inductive Does : TimerQueue → Moment → TimerQueue → Prop
  | armed {queue queue' : TimerQueue} {id : TimerId} {delay : Nat} {callback : Callback}
      {repeating : Bool} (h : queue.add delay callback repeating = (.ok id, queue')) :
      Does queue (.armed id delay callback repeating) queue'
  | refused {queue queue' : TimerQueue} {cause : TimerError} {delay : Nat} {callback : Callback}
      {repeating : Bool} (h : queue.add delay callback repeating = (.error cause, queue')) :
      Does queue (.refused cause) queue'
  | cancelled {queue queue' : TimerQueue} {id : TimerId} {pending : Bool}
      (h : queue.cancel id = (pending, queue')) : Does queue (.cancelled id pending) queue'
  | advanced {queue queue' : TimerQueue} {elapsed : Nat} (h : (queue.advance elapsed).2 = queue') :
      Does queue (.advanced elapsed (queue.firings elapsed)) queue'

/-- The queues that a trace of calls leads to from the empty one. -/
inductive Ran : Trace → TimerQueue → Prop
  | created : Ran [] empty
  | step {trace : Trace} {queue queue' : TimerQueue} {moment : Moment} (before : Ran trace queue)
      (does : Does queue moment queue') : Ran (moment :: trace) queue'

variable {queue queue' : TimerQueue} {trace later earlier : Trace} {moment : Moment}
  {id other : TimerId} {delay elapsed : Nat} {callback : Callback} {repeating pending : Bool}

theorem Ran.of_cons (ran : Ran (moment :: trace) queue') :
    ∃ queue, Ran trace queue ∧ Does queue moment queue' := by
  cases ran with
  | step before does => exact ⟨_, before, does⟩

theorem Ran.of_append {recent : Trace} (ran : Ran (recent ++ trace) queue') :
    ∃ queue, Ran trace queue := by
  induction recent generalizing queue' with
  | nil => exact ⟨queue', ran⟩
  | cons moment recent ih =>
      obtain ⟨queue, before, -⟩ := ran.of_cons
      exact ih before

theorem Does.sound (does : Does queue moment queue') (h : queue.Sound) : queue'.Sound := by
  cases does with
  | armed hadd => exact h.add hadd
  | refused hadd => exact add_eq_error hadd ▸ h
  | cancelled hcancel => exact h.cancel hcancel
  | advanced hadvance => exact hadvance ▸ h.advance _

theorem Ran.sound (ran : Ran trace queue) : queue.Sound := by
  induction ran with
  | created => exact sound_empty
  | step _ does ih => exact does.sound ih

/-! ## Handles -/

theorem id_of_mem_firings {call : TimerId × Callback} (h : call ∈ queue.firings elapsed) :
    ∃ timer ∈ queue.timers, call.1 = timer.id := by
  obtain ⟨timer, hdue, hcall⟩ := List.mem_flatMap.mp h
  exact ⟨timer, (List.takeWhile_sublist _).mem hdue, Timer.id_of_mem_firings hcall⟩

/-- Handles are given out in turn, and those that are pending or have called were given out. -/
structure Numbered (trace : Trace) (queue : TimerQueue) : Prop where
  next : queue.nextId = (issued trace).length % idLimit
  below : (issued trace).length ≤ idLimit → ∀ id ∈ issued trace, id.number < (issued trace).length
  pending : ∀ timer ∈ queue.timers, timer.id ∈ issued trace
  called : ∀ call ∈ calls trace, call.1 ∈ issued trace

theorem Numbered.fresh (h : Numbered trace queue) (few : (issued trace).length < idLimit) :
    (⟨queue.nextId⟩ : TimerId) ∉ issued trace := by
  intro hmem
  have hlt := h.below few.le _ hmem
  rw [h.next, Nat.mod_eq_of_lt few] at hlt
  exact absurd hlt (Nat.lt_irrefl _)

theorem Numbered.step (h : Numbered trace queue) (sound : queue.Sound)
    (does : Does queue moment queue') : Numbered (moment :: trace) queue' := by
  cases does with
  | refused hadd => exact add_eq_error hadd ▸ ⟨h.next, h.below, h.pending, h.called⟩
  | armed hadd =>
      obtain ⟨-, -, rfl, rfl⟩ := add_eq_ok hadd
      refine ⟨?_, fun few id hid => ?_, fun timer htimer => ?_, fun call hcall => ?_⟩
      · show (queue.nextId + 1) % idLimit = ((issued trace).length + 1) % idLimit
        rw [h.next, Nat.mod_add_mod]
      · change (issued trace).length + 1 ≤ idLimit at few
        show id.number < (issued trace).length + 1
        cases List.mem_cons.mp hid with
        | inl heq =>
            rw [heq, h.next, Nat.mod_eq_of_lt few]
            exact Nat.lt_succ_self _
        | inr hmem => exact (h.below (by omega) id hmem).trans (Nat.lt_succ_self _)
      · cases List.mem_cons.mp ((insertTimer_perm ..).mem_iff.mp htimer) with
        | inl heq => exact heq ▸ List.mem_cons_self
        | inr hmem => exact List.mem_cons_of_mem _ (h.pending timer hmem)
      · exact List.mem_cons_of_mem _ (h.called call hcall)
  | cancelled hcancel =>
      obtain ⟨-, rfl⟩ := cancel_eq hcancel
      exact ⟨h.next, h.below, fun timer htimer => h.pending timer (List.mem_of_mem_eraseP htimer),
        h.called⟩
  | advanced hadvance =>
      refine ⟨congrArg nextId hadvance ▸ h.next, h.below, fun timer htimer => ?_,
        fun call hcall => ?_⟩
      · rw [← hadvance] at htimer
        obtain ⟨before, hbefore, hpassed⟩ :=
          List.mem_filterMap.mp ((sound.advance_perm _).mem_iff.mp htimer)
        exact Timer.id_of_passed hpassed ▸ h.pending before hbefore
      · cases List.mem_append.mp hcall with
        | inl hbefore => exact h.called call hbefore
        | inr hnow =>
            obtain ⟨timer, htimer, hid⟩ := id_of_mem_firings hnow
            exact hid ▸ h.pending timer htimer

theorem Ran.numbered (ran : Ran trace queue) : Numbered trace queue := by
  induction ran with
  | created => exact ⟨rfl, nofun, nofun, nofun⟩
  | step before does ih => exact ih.step before.sound does

/-! ## One handle among many -/

theorem pendingOf_eq_nil (absent : ∀ timer ∈ queue.timers, timer.id ≠ id) :
    queue.pendingOf id = [] := by
  refine List.filter_eq_nil_iff.mpr fun timer htimer => ?_
  simpa using absent timer htimer

theorem pendingOf_of_add (id : TimerId)
    (h : queue.add delay callback repeating = (.ok other, queue')) :
    (queue'.pendingOf id).Perm
      (if other = id then ⟨id, delay, delay, repeating, callback⟩ :: queue.pendingOf id
      else queue.pendingOf id) := by
  obtain ⟨-, -, -, rfl⟩ := add_eq_ok h
  refine ((insertTimer_perm ..).filter _).trans (.of_eq ?_)
  by_cases same : other = id
  · subst same
    simp [pendingOf]
  · simp [pendingOf, same]

theorem pendingOf_of_cancel (h : queue.cancel other = (pending, queue'))
    (apart : other ≠ id ∨ pending = false) : queue'.pendingOf id = queue.pendingOf id := by
  obtain ⟨hpending, rfl⟩ := cancel_eq h
  show (queue.timers.eraseP _).filter _ = _
  by_cases found : ∃ timer ∈ queue.timers, (timer.id == other) = true
  · obtain ⟨timer, htimer, hid⟩ := found
    obtain ⟨hit, front, back, -, hhit, hsplit, herase⟩ :=
      @List.exists_of_eraseP _ (·.id == other) _ _ htimer hid
    have hother : hit.id = other := by simpa using hhit
    have hne : other ≠ id := by
      refine apart.resolve_right fun hfalse => ?_
      rw [hpending] at hfalse
      simp [List.any_eq_false.mp hfalse timer htimer] at hid
    rw [pendingOf, herase, hsplit, List.filter_append, List.filter_append,
      List.filter_cons_of_neg (by simp [hother, hne])]
  · rw [List.eraseP_of_forall_not fun timer htimer hid => found ⟨timer, htimer, hid⟩]
    rfl

theorem pendingOf_of_advance (sound : queue.Sound) (id : TimerId) (elapsed : Nat) :
    ((queue.advance elapsed).2.pendingOf id).Perm
      ((queue.pendingOf id).filterMap (Timer.passed elapsed)) := by
  refine ((sound.advance_perm elapsed).filter _).trans (.of_eq ?_)
  rw [pendingOf, List.filter_filterMap, List.filterMap_filter]
  refine List.filterMap_congr fun timer htimer => ?_
  cases hpassed : timer.passed elapsed with
  | none => simp
  | some left => simp [Option.filter, Timer.id_of_passed hpassed]

theorem firings_of_id (sound : queue.Sound) :
    (queue.firings elapsed).filter (·.1 == id) =
      (queue.pendingOf id).flatMap (Timer.firings elapsed) := by
  rw [sound.firings_eq, pendingOf, List.filter_flatMap]
  induction queue.timers with
  | nil => rfl
  | cons timer rest ih =>
      rw [List.flatMap_cons, ih]
      by_cases same : timer.id = id
      · have hall : (timer.firings elapsed).filter (·.1 == id) = timer.firings elapsed :=
          List.filter_eq_self.mpr fun call hcall => by
            simpa [same] using Timer.id_of_mem_firings hcall
        rw [hall, List.filter_cons_of_pos (by simpa using same), List.flatMap_cons]
      · have hnone : (timer.firings elapsed).filter (·.1 == id) = [] :=
          List.filter_eq_nil_iff.mpr fun call hcall => by
            simpa [Timer.id_of_mem_firings hcall] using same
        rw [hnone, List.filter_cons_of_neg (by simpa using same), List.nil_append]

theorem eq_toList_of_perm {timers : List Timer} {one : Option Timer}
    (h : timers.Perm one.toList) : timers = one.toList := by
  cases one with
  | none => exact h.eq_nil
  | some timer => exact List.perm_singleton.mp h

theorem toList_filterMap (one : Option Timer) (f : Timer → Option Timer) :
    one.toList.filterMap f = (one.bind f).toList := by
  cases one with
  | none => rfl
  | some timer => cases h : f timer <;> simp [h]

/-! ## A timer from the moment it was armed -/

theorem issued_suffix (recent trace : Trace) :
    (issued trace).IsSuffix (issued (recent ++ trace)) :=
  ⟨issued recent, List.filterMap_append.symm⟩

theorem callsOf_cons (id : TimerId) (elapsed : Nat) (made : List (TimerId × Callback))
    (trace : Trace) :
    callsOf id (.advanced elapsed made :: trace) = callsOf id trace ++ made.filter (·.1 == id) :=
  List.filter_append ..

/-- What a run makes of a timer after arming it: it is left pending, and has made its calls, as
the moves forward since then command; nothing else was ever pending under its handle or called
under it. -/
structure Fate (timer : Timer) (since whole : Trace) (queue : TimerQueue) : Prop where
  pending : queue.pendingOf timer.id = (timer.pendingAfter (steps since)).toList
  calls : callsOf timer.id whole = timer.firingsAfter (steps since)

theorem Ran.fate_of_armed (ran : Ran (.armed id delay callback repeating :: earlier) queue)
    (few : (issued earlier).length < idLimit) :
    Fate ⟨id, delay, delay, repeating, callback⟩ []
      (.armed id delay callback repeating :: earlier) queue := by
  obtain ⟨before, ran, does⟩ := ran.of_cons
  cases does with
  | armed hadd =>
      obtain ⟨-, -, hid, -⟩ := add_eq_ok hadd
      have hfresh : id ∉ issued earlier := hid ▸ ran.numbered.fresh few
      have hnone : before.pendingOf id = [] :=
        pendingOf_eq_nil fun timer htimer heq => hfresh (heq ▸ ran.numbered.pending timer htimer)
      refine ⟨eq_toList_of_perm ?_, List.filter_eq_nil_iff.mpr fun call hcall hcalled => ?_⟩
      · have hperm := pendingOf_of_add id hadd
        rwa [if_pos rfl, hnone] at hperm
      · have heq : call.1 = id := by simpa using hcalled
        exact hfresh (heq ▸ ran.numbered.called call hcall)

theorem Fate.step {timer : Timer} {since whole : Trace} (h : Fate timer since whole queue)
    (timely : timer.Timely) (sound : queue.Sound) (does : Does queue moment queue')
    (kept : moment ≠ .cancelled timer.id true)
    (fresh : ∀ {delay callback repeating}, moment ≠ .armed timer.id delay callback repeating) :
    Fate timer (moment :: since) (moment :: whole) queue' := by
  cases does with
  | refused hadd => exact add_eq_error hadd ▸ ⟨h.pending, h.calls⟩
  | @armed _ other _ _ _ hadd =>
      have hother : other ≠ timer.id := fun heq => fresh (congrArg (Moment.armed · _ _ _) heq)
      refine ⟨eq_toList_of_perm ?_, h.calls⟩
      have hperm := pendingOf_of_add timer.id hadd
      rw [if_neg hother, h.pending] at hperm
      exact hperm
  | @cancelled _ other pending hcancel =>
      have hapart : other ≠ timer.id ∨ pending = false := by
        by_cases heq : other = timer.id
        · refine .inr (Bool.eq_false_iff.mpr fun hpending => kept ?_)
          rw [heq, hpending]
        · exact .inl heq
      exact ⟨(pendingOf_of_cancel hcancel hapart).trans h.pending, h.calls⟩
  | @advanced _ elapsed hadvance =>
      subst hadvance
      refine ⟨eq_toList_of_perm ?_, ?_⟩
      · have hperm := pendingOf_of_advance sound timer.id elapsed
        rw [h.pending, toList_filterMap, Timer.pendingAfter_cons timely] at hperm
        exact hperm
      · rw [callsOf_cons, h.calls, firings_of_id sound, h.pending]
        exact Timer.firingsAfter_cons timely

theorem Ran.timely_of_armed (ran : Ran (.armed id delay callback repeating :: earlier) queue) :
    Timer.Timely ⟨id, delay, delay, repeating, callback⟩ := by
  obtain ⟨before, -, does⟩ := ran.of_cons
  cases does with
  | armed hadd => exact timely_of_add hadd

/-- As long as the handles have not come round, a new timer gets a handle of its own. -/
theorem Ran.not_armed_again
    (ran : Ran (.armed other delay callback repeating :: trace) queue)
    (few : (issued trace).length < idLimit) (known : id ∈ issued trace) : other ≠ id := by
  obtain ⟨before, ran, does⟩ := ran.of_cons
  cases does with
  | armed hadd =>
      obtain ⟨-, -, hid, -⟩ := add_eq_ok hadd
      intro heq
      exact ran.numbered.fresh few (hid ▸ heq ▸ known)

/-- As long as the handles have not come round, a timer that is not cancelled fares as it would
alone. -/
theorem Ran.fate (ran : Ran (later ++ .armed id delay callback repeating :: earlier) queue)
    (few : (issued (later ++ .armed id delay callback repeating :: earlier)).length ≤ idLimit)
    (kept : .cancelled id true ∉ later) :
    Fate ⟨id, delay, delay, repeating, callback⟩ later
      (later ++ .armed id delay callback repeating :: earlier) queue := by
  induction later generalizing queue with
  | nil => exact ran.fate_of_armed few
  | cons moment later ih =>
      obtain ⟨before, hbefore, does⟩ := ran.of_cons
      obtain ⟨_, harmed⟩ := hbefore.of_append
      have hfewer := (issued_suffix [moment] _).length_le.trans few
      have hknown : id ∈ issued (later ++ .armed id delay callback repeating :: earlier) :=
        (issued_suffix later _).subset (List.mem_cons_self : id ∈ id :: issued earlier)
      refine (ih hbefore hfewer (fun h => kept (List.mem_cons_of_mem _ h))).step
        harmed.timely_of_armed hbefore.sound does (fun heq => kept (heq ▸ List.mem_cons_self)) ?_
      rintro delay callback repeating rfl
      exact ran.not_armed_again few hknown rfl

end TimerQueue

end KernelCore
