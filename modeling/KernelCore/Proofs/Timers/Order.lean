import KernelCore.Proofs.Timers.Bookings
import KernelCore.Proofs.Timers.Dispatch

/-!
# Timers fire in deadline order

The agenda of a run lists the timers that do not repeat: those that have called, in the order of
their calls, and behind them those that are pending, in the order of the queue. Arming inserts into
the agenda, cancelling takes out of it, and moving time forward leaves it as it is; so it is always
in the order of the deadlines.
-/

namespace KernelCore

namespace TimerQueue

/-- The order in which timers that do not repeat are to call: by deadline, and with the same
deadline by when they were armed. -/
def Arming.Before (first second : Arming) : Prop :=
  first.deadline < second.deadline ∨
    first.deadline = second.deadline ∧ first.place < second.place

theorem Arming.Before.of_le {first second : Arming} (due : first.deadline ≤ second.deadline)
    (armed : first.place < second.place) : first.Before second :=
  (Nat.lt_or_eq_of_le due).imp_right fun same => ⟨same, armed⟩

theorem pairwise_insert {α : Type} {R : α → α → Prop} {front back : List α} {a : α}
    (h : (front ++ back).Pairwise R) (before : ∀ x ∈ front, R x a) (behind : ∀ x ∈ back, R a x) :
    (front ++ a :: back).Pairwise R := by
  obtain ⟨hfront, hback, hacross⟩ := List.pairwise_append.mp h
  refine List.pairwise_append.mpr ⟨hfront, List.pairwise_cons.mpr ⟨behind, hback⟩, ?_⟩
  intro x hx y hy
  rcases List.mem_cons.mp hy with rfl | hy
  · exact before x hx
  · exact hacross x hx y hy

def singles (bookings : List Booking) : List Arming :=
  (bookings.map Booking.arming).filter Arming.once

/-- The timers of a run that do not repeat and were not cancelled. -/
def Journal.agenda (journal : Journal) : List Arming :=
  journal.made.filter Arming.once ++ singles journal.pending

/-! ## What leaves the agenda as it is -/

theorem singles_append (front back : List Booking) :
    singles (front ++ back) = singles front ++ singles back := by
  rw [singles, List.map_append, List.filter_append]
  rfl

theorem mem_singles {bookings : List Booking} {arming : Arming} :
    arming ∈ singles bookings ↔
      arming.once = true ∧ ∃ booking ∈ bookings, booking.arming = arming := by
  rw [singles, List.mem_filter, List.mem_map, and_comm]

theorem singles_book (booking : Booking) (bookings : List Booking) :
    singles (book booking bookings) =
      singles (bookings.takeWhile (·.due booking.timer.remaining)) ++ singles [booking] ++
        singles (bookings.dropWhile (·.due booking.timer.remaining)) := by
  rw [book, ← List.singleton_append, singles_append, singles_append, List.append_assoc]

theorem singles_split (bookings : List Booking) (elapsed : Nat) :
    singles (bookings.takeWhile (·.due elapsed)) ++ singles (bookings.dropWhile (·.due elapsed)) =
      singles bookings := by
  rw [← singles_append, List.takeWhile_append_dropWhile]

theorem singles_nearer (elapsed : Nat) (bookings : List Booking) :
    singles (bookings.map (Booking.nearer elapsed)) = singles bookings := by
  rw [singles, List.map_map]
  rfl

theorem singles_of_repeating {booking : Booking} (repeats : booking.arming.repeating = true) :
    singles [booking] = [] := by
  simp [singles, Arming.once, repeats]

theorem singles_book_of_repeating {booking : Booking}
    (repeats : booking.arming.repeating = true) (bookings : List Booking) :
    singles (book booking bookings) = singles bookings := by
  rw [singles_book, singles_of_repeating repeats, List.append_nil, singles_split]

variable {expired pending : List Booking} {now elapsed : Nat}

theorem singles_rebook (stand : ∀ booking ∈ expired, booking.Stands now) :
    singles (rebook elapsed expired pending) = singles pending := by
  induction expired generalizing pending with
  | nil => rfl
  | cons booking rest ih =>
      unfold rebook
      rw [ih fun other hm => stand other (List.mem_cons_of_mem _ hm)]
      split
      · next hrepeats =>
          have harmed : (booking.rearmed elapsed).arming.repeating = true :=
            (stand booking List.mem_cons_self).repeating_eq.symm.trans hrepeats
          exact singles_book_of_repeating harmed pending
      · rfl

theorem once_notes {booking : Booking} (stands : booking.Stands now) :
    (booking.notes elapsed).filter Arming.once = singles [booking] := by
  rw [Booking.notes, List.filter_replicate, Timer.callCount, stands.repeating_eq]
  cases hrepeats : booking.arming.repeating with
  | false => simp [singles, Arming.once, hrepeats]
  | true => simp [singles, Arming.once, hrepeats]

theorem once_flatMap_notes (stand : ∀ booking ∈ expired, booking.Stands now) :
    (expired.flatMap (·.notes elapsed)).filter Arming.once = singles expired := by
  induction expired with
  | nil => rfl
  | cons booking rest ih =>
      rw [List.flatMap_cons, List.filter_append, once_notes (stand booking List.mem_cons_self),
        ih fun other hm => stand other (List.mem_cons_of_mem _ hm), ← singles_append]
      rfl

namespace Journal

variable {journal : Journal} {trace : Trace} {queue : TimerQueue}

/-- The due timers that do not repeat call in the order of the queue. -/
theorem Keeps.agenda_advance (h : journal.Keeps trace queue) (elapsed : Nat) :
    (journal.advance elapsed).agenda = journal.agenda := by
  have hstand : ∀ booking ∈ journal.pending.takeWhile (·.due elapsed),
      booking.Stands (time trace) := fun booking hm => (h.stands_due hm).2.1
  rw [agenda, agenda, Journal.advance, List.filter_append, once_flatMap_notes hstand,
    singles_rebook hstand, singles_nearer, List.append_assoc, singles_split]

/-! ## What keeps it in order -/

theorem agenda_cancel (journal : Journal) (id : TimerId) :
    (journal.cancel id).agenda.Sublist journal.agenda :=
  ((List.eraseP_sublist.map _).filter _).append_left _

/-- A new timer goes behind those that are due no later, and they were all armed before it. -/
theorem Keeps.agenda_arm (h : journal.Keeps trace queue) (sound : queue.Sound) {arming : Arming}
    (place : arming.place = (issued trace).length) (now : arming.time = time trace)
    (ordered : journal.agenda.Pairwise Arming.Before) :
    (journal.arm arming).agenda.Pairwise Arming.Before := by
  cases hrepeats : arming.repeating with
  | true =>
      have hsame : (journal.arm arming).agenda = journal.agenda := by
        rw [agenda, agenda, Journal.arm, singles_book_of_repeating hrepeats]
      exact hsame ▸ ordered
  | false =>
      have hsingle : singles [⟨arming, arming.timer⟩] = [arming] := by
        simp [singles, Arming.once, hrepeats]
      -- The queue parts where the new timer goes, and the agenda with it.
      rw [agenda, ← singles_split _ arming.delay, ← List.append_assoc] at ordered
      rw [agenda, Journal.arm, singles_book, hsingle, List.append_assoc, ← List.append_assoc]
      refine pairwise_insert ordered (fun first hm => ?_) (fun second hm => ?_)
      · rcases List.mem_append.mp hm with hm | hm
        · obtain ⟨hmade, honce⟩ := List.mem_filter.mp hm
          obtain ⟨hin, hpast⟩ := h.made first hmade
          refine .of_le ((hpast honce).trans ?_) (place ▸ hin.place_lt)
          exact now ▸ Nat.le_add_right ..
        · obtain ⟨honce, booking, hbooking, rfl⟩ := mem_singles.mp hm
          obtain ⟨hin, hstands, hdue⟩ := h.stands_due hbooking
          change booking.timer.remaining ≤ arming.delay at hdue
          refine .of_le ?_ (place ▸ hin.place_lt)
          rw [hstands.waits honce, Arming.deadline, now]
          omega
      · obtain ⟨honce, booking, hbooking, rfl⟩ := mem_singles.mp hm
        obtain ⟨-, hstands, hlater⟩ := h.stands_later sound hbooking
        change arming.delay < booking.timer.remaining at hlater
        refine .inl ?_
        rw [hstands.waits honce, Arming.deadline, now]
        omega

end Journal

/-- The agenda is in the order of the deadlines at any time. -/
theorem Ran.agenda_ordered {trace : Trace} {queue : TimerQueue} (ran : Ran trace queue) :
    (journal trace).agenda.Pairwise Arming.Before := by
  induction ran with
  | created => exact .nil
  | step before does ih =>
      cases does with
      | armed _ => exact before.keeps.agenda_arm before.sound rfl rfl ih
      | refused _ => exact ih
      | cancelled _ => exact ih.sublist (Journal.agenda_cancel _ _)
      | advanced _ => exact before.keeps.agenda_advance _ ▸ ih

/-! ## Firing in order -/

structure InOrder (trace : Trace) (queue : TimerQueue) : Prop where
  sorted : Ordered queue.timers
  next : queue.nextDeadline? = (queue.timers.map (·.remaining)).min?
  timely : ∀ timer ∈ queue.timers, timer.repeating = true →
    1 ≤ timer.remaining ∧ timer.remaining ≤ timer.period
  /-- The journal tells who is pending and who has called, -/
  noted : (journal trace).Keeps trace queue
  /-- and of those who have called, the ones that do not repeat did so by deadline. -/
  fired : ((journal trace).made.filter Arming.once).Pairwise Arming.Before
  /-- What a trace records of a move forward are the calls that it answers. -/
  recorded : ∀ elapsed, (queue.firings elapsed).map (·.2) = (queue.advance elapsed).1
  /-- All that `elapsed` milliseconds bring due is called in the order of the queue, -/
  called : ∀ elapsed, (queue.advance elapsed).1 =
    (queue.timers.filter (·.remaining ≤ elapsed)).flatMap fun timer =>
      List.replicate (timer.callCount (elapsed - timer.remaining)) timer.callback
  /-- and when the first call is made, the queue has become what it will be. -/
  settled : ∀ {m : Type → Type} [Monad m] [LawfulMonad m]
    (handler : Callback → TimerQueue → m Unit) (elapsed : Nat),
    queue.advanceWith handler elapsed = do
      let calls ← (queue.advance elapsed).1.foldlM
        (countedCall handler (queue.advance elapsed).2) 0
      return (calls, (queue.advance elapsed).2)

variable {trace : Trace} {queue : TimerQueue}

theorem Sound.due_eq_filter (h : queue.Sound) (elapsed : Nat) :
    queue.due elapsed = queue.timers.filter (·.remaining ≤ elapsed) := by
  have hdue : (queue.due elapsed).filter (·.remaining ≤ elapsed) = queue.due elapsed :=
    List.filter_eq_self.mpr fun timer hm => by simpa using due_of_mem_takeWhile hm
  have hlater : (queue.later elapsed).filter (·.remaining ≤ elapsed) = [] :=
    List.filter_eq_nil_iff.mpr fun timer hm => by
      simpa using h.ordered.early_of_mem_dropWhile hm
  rw [← due_append_later queue elapsed, List.filter_append, hlater, List.append_nil, hdue]

theorem Ordered.head_remaining {timers : List Timer} (h : Ordered timers) :
    timers.head?.map (·.remaining) = (timers.map (·.remaining)).min? := by
  cases timers with
  | nil => rfl
  | cons first rest =>
      refine (List.min?_eq_some_iff.mpr ⟨List.mem_cons_self, fun remaining hm => ?_⟩).symm
      rcases List.mem_cons.mp hm with rfl | hm
      · exact Nat.le_refl _
      · obtain ⟨timer, htimer, rfl⟩ := List.mem_map.mp hm
        exact (List.pairwise_cons.mp h).1 timer htimer

theorem Ran.inOrder (ran : Ran trace queue) : InOrder trace queue where
  sorted := ran.sound.ordered
  next := ran.sound.ordered.head_remaining
  timely := ran.sound.timely
  noted := ran.keeps
  fired := ran.agenda_ordered.sublist (List.sublist_append_left ..)
  recorded := queue.firings_map_snd
  called := by
    intro elapsed
    rw [advance_calls, ran.sound.due_eq_filter]
    rfl
  settled := fun handler elapsed => advanceWith_eq handler queue elapsed

/-- Two timers come due at 50 ms, armed for 50 ms at the start and for 25 ms half way; a timer that
repeats every 20 ms and one that is due at 35 ms call around them. -/
theorem inOrder_with_equal_deadlines :
    ∃ trace queue, Ran trace queue ∧ InOrder trace queue ∧
      (journal trace).made.map (·.id) = [⟨1⟩, ⟨3⟩, ⟨1⟩, ⟨0⟩, ⟨2⟩] ∧
      ((journal trace).made.filter Arming.once).map (·.deadline) = [35, 50, 50] := by
  have armed : Ran [.armed ⟨1⟩ 20 ⟨2, 0⟩ true, .armed ⟨0⟩ 50 ⟨1, 0⟩ false] _ :=
    .step (.step .created (.armed rfl)) (.armed rfl)
  have halfway : Ran (.armed ⟨3⟩ 10 ⟨4, 0⟩ false :: .armed ⟨2⟩ 25 ⟨3, 0⟩ false ::
      .advanced 25 _ :: _) _ :=
    .step (.step (.step armed (.advanced rfl)) (.armed rfl)) (.armed rfl)
  have ran : Ran (.advanced 30 _ :: _) _ := .step halfway (.advanced rfl)
  exact ⟨_, _, ran, ran.inOrder, by decide, by decide⟩

end TimerQueue

end KernelCore
