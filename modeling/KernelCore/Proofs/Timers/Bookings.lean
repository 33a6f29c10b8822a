import KernelCore.Proofs.Timers.Runs

/-!
# Who made which call

Handles come round, so a handle does not tell for good which timer made a call. The journal of a
run keeps the pending timers together with how each of them was armed, and notes for every call the
arming it goes back to. Without these notes it is the queue itself, and the calls that it made.
-/

namespace KernelCore

namespace TimerQueue

structure Arming where
  /-- How many timers were armed before it. -/
  place : Nat
  /-- How far time had moved by then. -/
  time : Nat
  id : TimerId
  delay : Nat
  callback : Callback
  repeating : Bool
deriving DecidableEq, Repr

namespace Arming

def timer (arming : Arming) : Timer :=
  ⟨arming.id, arming.delay, arming.delay, arming.repeating, arming.callback⟩

def deadline (arming : Arming) : Nat := arming.time + arming.delay

def once (arming : Arming) : Bool := !arming.repeating

def call (arming : Arming) : TimerId × Callback := (arming.id, arming.callback)

def In (arming : Arming) (trace : Trace) : Prop :=
  ∃ later earlier, trace =
      later ++ .armed arming.id arming.delay arming.callback arming.repeating :: earlier ∧
    arming.place = (issued earlier).length ∧ arming.time = TimerQueue.time earlier

variable {arming : Arming} {trace : Trace}

theorem In.cons (h : arming.In trace) (moment : Moment) : arming.In (moment :: trace) := by
  obtain ⟨later, earlier, rfl, hplace, htime⟩ := h
  exact ⟨moment :: later, earlier, rfl, hplace, htime⟩

theorem In.place_lt (h : arming.In trace) : arming.place < (issued trace).length := by
  obtain ⟨later, earlier, rfl, hplace, -⟩ := h
  have hlength := (issued_suffix later
    (.armed arming.id arming.delay arming.callback arming.repeating :: earlier)).length_le
  change (issued earlier).length + 1 ≤ _ at hlength
  omega

end Arming

/-- A pending timer, and how it was armed. -/
structure Booking where
  arming : Arming
  timer : Timer
deriving DecidableEq, Repr

namespace Booking

def nearer (elapsed : Nat) (booking : Booking) : Booking :=
  { booking with timer := booking.timer.nearer elapsed }

def rearmed (booking : Booking) (elapsed : Nat) : Booking :=
  { booking with timer := booking.timer.rearmed (elapsed - booking.timer.remaining) }

/-- One note for each call that the timer makes when it comes due. -/
def notes (booking : Booking) (elapsed : Nat) : List Arming :=
  List.replicate (booking.timer.callCount (elapsed - booking.timer.remaining)) booking.arming

def due (elapsed : Nat) (booking : Booking) : Bool := booking.timer.remaining ≤ elapsed

/-- What came of the arming by the given time. Nothing but the time that remains has changed, and
as long as the timer has not called that is the time up to its deadline. -/
structure Stands (booking : Booking) (now : Nat) : Prop where
  same : ∃ remaining, booking.timer = { booking.arming.timer with remaining }
  waits : booking.arming.once → booking.arming.deadline = now + booking.timer.remaining

end Booking

/-- Puts a booking behind those that are due no later. -/
def book (booking : Booking) (bookings : List Booking) : List Booking :=
  bookings.takeWhile (·.due booking.timer.remaining) ++
    booking :: bookings.dropWhile (·.due booking.timer.remaining)

def rebook (elapsed : Nat) : List Booking → List Booking → List Booking
  | [], pending => pending
  | booking :: rest, pending =>
      rebook elapsed rest
        (if booking.timer.repeating then book (booking.rearmed elapsed) pending else pending)

/-- What a run has come to: the pending timers, the next one due first, and the calls made so far,
the earliest first. -/
structure Journal where
  pending : List Booking
  made : List Arming
deriving DecidableEq, Repr

namespace Journal

def arm (journal : Journal) (arming : Arming) : Journal :=
  { journal with pending := book ⟨arming, arming.timer⟩ journal.pending }

def cancel (journal : Journal) (id : TimerId) : Journal :=
  { journal with pending := journal.pending.eraseP (·.timer.id == id) }

def advance (journal : Journal) (elapsed : Nat) : Journal :=
  let due := journal.pending.takeWhile (·.due elapsed)
  let later := journal.pending.dropWhile (·.due elapsed)
  ⟨rebook elapsed due (later.map (Booking.nearer elapsed)),
    journal.made ++ due.flatMap (·.notes elapsed)⟩

end Journal

def journal : Trace → Journal
  | [] => ⟨[], []⟩
  | .armed id delay callback repeating :: earlier =>
      (journal earlier).arm
        ⟨(issued earlier).length, time earlier, id, delay, callback, repeating⟩
  | .refused _ :: earlier => journal earlier
  | .cancelled id _ :: earlier => (journal earlier).cancel id
  | .advanced elapsed _ :: earlier => (journal earlier).advance elapsed

/-! ## Without the notes -/

theorem insertTimer_eq (timer : Timer) (timers : List Timer) :
    insertTimer timer timers =
      timers.takeWhile (·.remaining ≤ timer.remaining) ++
        timer :: timers.dropWhile (·.remaining ≤ timer.remaining) := by
  induction timers with
  | nil => rfl
  | cons first rest ih =>
      unfold insertTimer
      by_cases hle : first.remaining ≤ timer.remaining
      · rw [if_pos hle, ih, List.takeWhile_cons_of_pos (by simpa using hle),
          List.dropWhile_cons_of_pos (by simpa using hle), List.cons_append]
      · rw [if_neg hle, List.takeWhile_cons_of_neg (by simpa using hle),
          List.dropWhile_cons_of_neg (by simpa using hle), List.nil_append]

theorem map_takeWhile_due (elapsed : Nat) (bookings : List Booking) :
    (bookings.takeWhile (·.due elapsed)).map Booking.timer =
      (bookings.map Booking.timer).takeWhile (·.remaining ≤ elapsed) := by
  rw [List.takeWhile_map]
  rfl

theorem map_dropWhile_due (elapsed : Nat) (bookings : List Booking) :
    (bookings.dropWhile (·.due elapsed)).map Booking.timer =
      (bookings.map Booking.timer).dropWhile (·.remaining ≤ elapsed) := by
  rw [List.dropWhile_map]
  rfl

theorem map_book (booking : Booking) (bookings : List Booking) :
    (book booking bookings).map Booking.timer =
      insertTimer booking.timer (bookings.map Booking.timer) := by
  rw [insertTimer_eq, ← map_takeWhile_due, ← map_dropWhile_due, book, List.map_append,
    List.map_cons]

theorem map_rebook (elapsed : Nat) (expired pending : List Booking) :
    (rebook elapsed expired pending).map Booking.timer =
      rearm elapsed (expired.map Booking.timer) (pending.map Booking.timer) := by
  induction expired generalizing pending with
  | nil => rfl
  | cons booking rest ih =>
      unfold rebook rearm
      rw [ih]
      simp only [List.map_cons]
      split
      · rw [map_book]
        rfl
      · rfl

theorem mem_book {other booking : Booking} {bookings : List Booking} :
    other ∈ book booking bookings ↔ other = booking ∨ other ∈ bookings := by
  rw [book, List.mem_append, List.mem_cons, or_left_comm, ← List.mem_append,
    List.takeWhile_append_dropWhile]

theorem mem_rebook {elapsed : Nat} {booking : Booking} {expired pending : List Booking}
    (h : booking ∈ rebook elapsed expired pending) :
    booking ∈ pending ∨
      ∃ due ∈ expired, due.timer.repeating = true ∧ booking = due.rearmed elapsed := by
  induction expired generalizing pending with
  | nil => exact .inl h
  | cons first rest ih =>
      unfold rebook at h
      rcases ih h with hpending | ⟨due, hdue, hbooked⟩
      · split at hpending
        · next hrepeats =>
            rcases mem_book.mp hpending with rfl | hpending
            · exact .inr ⟨first, List.mem_cons_self, hrepeats, rfl⟩
            · exact .inl hpending
        · exact .inl hpending
      · exact .inr ⟨due, List.mem_cons_of_mem _ hdue, hbooked⟩

namespace Booking

variable {booking : Booking} {now elapsed : Nat}

theorem Stands.repeating_eq (h : booking.Stands now) :
    booking.timer.repeating = booking.arming.repeating := by
  obtain ⟨remaining, hsame⟩ := h.same
  rw [hsame]
  rfl

theorem Stands.notes_map_call (h : booking.Stands now) (due : booking.timer.remaining ≤ elapsed) :
    (booking.notes elapsed).map Arming.call = booking.timer.firings elapsed := by
  obtain ⟨remaining, hsame⟩ := h.same
  rw [Timer.firings_of_due due, notes, List.map_replicate, hsame]
  rfl

theorem stands_armed (arming : Arming) : Stands ⟨arming, arming.timer⟩ arming.time :=
  ⟨⟨arming.delay, rfl⟩, fun _ => rfl⟩

theorem Stands.nearer (h : booking.Stands now) (early : elapsed < booking.timer.remaining) :
    (booking.nearer elapsed).Stands (now + elapsed) := by
  obtain ⟨remaining, hsame⟩ := h.same
  refine ⟨⟨remaining - elapsed, ?_⟩, fun once => ?_⟩
  · show booking.timer.nearer elapsed = _
    rw [hsame]
    rfl
  · have hwaits : booking.arming.deadline = now + booking.timer.remaining := h.waits once
    show booking.arming.deadline = now + elapsed + (booking.timer.remaining - elapsed)
    omega

theorem Stands.rearmed (h : booking.Stands now) (repeats : booking.timer.repeating = true)
    (elapsed later : Nat) : (booking.rearmed elapsed).Stands later := by
  obtain ⟨remaining, hsame⟩ := h.same
  refine ⟨⟨(booking.rearmed elapsed).timer.remaining, ?_⟩, fun once => ?_⟩
  · show booking.timer.rearmed _ = { booking.arming.timer with
      remaining := (booking.timer.rearmed (elapsed - booking.timer.remaining)).remaining }
    rw [hsame]
    rfl
  · have honce : booking.arming.once := once
    simp [Arming.once, ← h.repeating_eq, repeats] at honce

end Booking

/-! ## The journal of a run -/

/-- Without its notes the journal is the queue and its calls, and the notes are true. -/
structure Journal.Keeps (journal : Journal) (trace : Trace) (queue : TimerQueue) : Prop where
  timers : journal.pending.map Booking.timer = queue.timers
  calls : journal.made.map Arming.call = calls trace
  pending : ∀ booking ∈ journal.pending,
    booking.arming.In trace ∧ booking.Stands (time trace)
  made : ∀ arming ∈ journal.made,
    arming.In trace ∧ (arming.once → arming.deadline ≤ time trace)

namespace Journal

variable {journal : Journal} {trace : Trace} {queue queue' : TimerQueue} {id : TimerId}
  {delay elapsed : Nat} {callback : Callback} {repeating pending : Bool}

theorem Keeps.arm (h : journal.Keeps trace queue)
    (hadd : queue.add delay callback repeating = (.ok id, queue')) :
    (journal.arm ⟨(issued trace).length, time trace, id, delay, callback, repeating⟩).Keeps
      (.armed id delay callback repeating :: trace) queue' := by
  obtain ⟨-, -, -, rfl⟩ := add_eq_ok hadd
  refine ⟨?_, h.calls, ?_, ?_⟩
  · rw [Journal.arm, map_book, h.timers]
    rfl
  · intro booking hm
    rcases mem_book.mp hm with rfl | hm
    · exact ⟨⟨[], trace, rfl, rfl, rfl⟩, Booking.stands_armed _⟩
    · exact ⟨(h.pending booking hm).1.cons _, (h.pending booking hm).2⟩
  · intro arming hm
    exact ⟨(h.made arming hm).1.cons _, (h.made arming hm).2⟩

theorem Keeps.refused (h : journal.Keeps trace queue) (cause : TimerError) :
    journal.Keeps (.refused cause :: trace) queue :=
  ⟨h.timers, h.calls, fun booking hm => ⟨(h.pending booking hm).1.cons _, (h.pending booking hm).2⟩,
    fun arming hm => ⟨(h.made arming hm).1.cons _, (h.made arming hm).2⟩⟩

theorem Keeps.cancel (h : journal.Keeps trace queue)
    (hcancel : queue.cancel id = (pending, queue')) :
    (journal.cancel id).Keeps (.cancelled id pending :: trace) queue' := by
  obtain ⟨-, rfl⟩ := cancel_eq hcancel
  refine ⟨?_, h.calls, ?_, ?_⟩
  · show (journal.pending.eraseP _).map _ = queue.timers.eraseP _
    rw [← h.timers, List.eraseP_map]
    rfl
  · intro booking hm
    have hbefore := h.pending booking (List.mem_of_mem_eraseP hm)
    exact ⟨hbefore.1.cons _, hbefore.2⟩
  · intro arming hm
    exact ⟨(h.made arming hm).1.cons _, (h.made arming hm).2⟩

theorem Keeps.due_map (h : journal.Keeps trace queue) (elapsed : Nat) :
    (journal.pending.takeWhile (·.due elapsed)).map Booking.timer = queue.due elapsed := by
  rw [map_takeWhile_due, h.timers, TimerQueue.due]

theorem Keeps.later_map (h : journal.Keeps trace queue) (elapsed : Nat) :
    (journal.pending.dropWhile (·.due elapsed)).map Booking.timer = queue.later elapsed := by
  rw [map_dropWhile_due, h.timers, TimerQueue.later]

theorem Keeps.stands_due (h : journal.Keeps trace queue) {booking : Booking}
    (hm : booking ∈ journal.pending.takeWhile (·.due elapsed)) :
    booking.arming.In trace ∧ booking.Stands (time trace) ∧ booking.timer.remaining ≤ elapsed := by
  have hbefore := h.pending booking ((List.takeWhile_sublist _).mem hm)
  have hdue : booking.due elapsed = true := List.mem_takeWhile_imp hm
  exact ⟨hbefore.1, hbefore.2, of_decide_eq_true hdue⟩

theorem Keeps.stands_later (h : journal.Keeps trace queue) (sound : queue.Sound)
    {booking : Booking} (hm : booking ∈ journal.pending.dropWhile (·.due elapsed)) :
    booking.arming.In trace ∧ booking.Stands (time trace) ∧ elapsed < booking.timer.remaining := by
  have hbefore := h.pending booking ((List.dropWhile_sublist _).mem hm)
  have hlater : booking.timer ∈ queue.later elapsed :=
    h.later_map elapsed ▸ List.mem_map_of_mem hm
  exact ⟨hbefore.1, hbefore.2, sound.ordered.early_of_mem_dropWhile hlater⟩

theorem Keeps.advance (h : journal.Keeps trace queue) (sound : queue.Sound) (elapsed : Nat) :
    (journal.advance elapsed).Keeps (.advanced elapsed (queue.firings elapsed) :: trace)
      (queue.advance elapsed).2 := by
  have htime : time (.advanced elapsed (queue.firings elapsed) :: trace) = time trace + elapsed :=
    Nat.add_comm ..
  refine ⟨?_, ?_, ?_, ?_⟩
  · rw [Journal.advance, map_rebook, h.due_map, advance_timers, ← h.later_map elapsed,
      List.map_map, List.map_map]
    rfl
  · show (journal.made ++ _).map Arming.call = TimerQueue.calls trace ++ queue.firings elapsed
    rw [List.map_append, h.calls, List.map_flatMap, firings, ← h.due_map elapsed,
      List.flatMap_map]
    refine congrArg _ (List.flatMap_congr fun booking hm => ?_)
    obtain ⟨-, hstands, hdue⟩ := h.stands_due hm
    exact hstands.notes_map_call hdue
  · intro booking hm
    rw [htime]
    -- What is pending now was not due, or it was and is armed again.
    rcases mem_rebook hm with hm | ⟨due, hdue, hrepeats, rfl⟩
    · obtain ⟨later, hlater, rfl⟩ := List.mem_map.mp hm
      obtain ⟨hin, hstands, hearly⟩ := h.stands_later sound hlater
      exact ⟨hin.cons _, hstands.nearer hearly⟩
    · obtain ⟨hin, hstands, -⟩ := h.stands_due hdue
      exact ⟨hin.cons _, hstands.rearmed hrepeats elapsed _⟩
  · intro arming hm
    rw [htime]
    rcases List.mem_append.mp hm with hm | hm
    · have hbefore := h.made arming hm
      exact ⟨hbefore.1.cons _, fun once => (hbefore.2 once).trans (Nat.le_add_right ..)⟩
    -- A call that was made just now goes back to a timer that was due.
    · obtain ⟨due, hdue, hnote⟩ := List.mem_flatMap.mp hm
      obtain rfl := List.eq_of_mem_replicate hnote
      obtain ⟨hin, hstands, hreached⟩ := h.stands_due hdue
      refine ⟨hin.cons _, fun once => ?_⟩
      have hwaits := hstands.waits once
      omega

end Journal

theorem Ran.keeps {trace : Trace} {queue : TimerQueue} (ran : Ran trace queue) :
    (journal trace).Keeps trace queue := by
  induction ran with
  | created => exact ⟨rfl, rfl, nofun, nofun⟩
  | step before does ih =>
      cases does with
      | armed hadd => exact ih.arm hadd
      | refused hadd => exact add_eq_error hadd ▸ ih.refused _
      | cancelled hcancel => exact ih.cancel hcancel
      | advanced hadvance => exact hadvance ▸ ih.advance before.sound _

end TimerQueue

end KernelCore
