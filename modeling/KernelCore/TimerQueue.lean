import KernelCore.Error
import KernelCore.Limits

/-!
# Pending timers

A queue of timed callbacks, in the order they come due; timers due together keep the order in
which they were armed. Time moves forward in steps of any size: a repeating timer makes one
call for each of its periods that has passed and is armed again before any call is made.
-/

namespace KernelCore

/-- Handle of a timer. Handles are counted in 32 bits and come round again. -/
structure TimerId where
  number : Nat
deriving DecidableEq, Repr

/-- What a timer calls: a routine, named by a number, with an argument. -/
structure Callback where
  routine : Nat
  arg : Nat
deriving DecidableEq, Repr

structure Timer where
  id : TimerId
  /-- Milliseconds until the timer is due. -/
  remaining : Nat
  period : Nat
  repeating : Bool
  callback : Callback
deriving DecidableEq, Repr

namespace Timer

/-- The timer as it is armed again after coming due `overshoot` milliseconds ago. -/
def rearmed (timer : Timer) (overshoot : Nat) : Timer :=
  { timer with remaining := timer.period - overshoot % timer.period }

def callCount (timer : Timer) (overshoot : Nat) : Nat :=
  if timer.repeating then 1 + overshoot / timer.period else 1

def calls (timer : Timer) (elapsed : Nat) : List Callback :=
  List.replicate (timer.callCount (elapsed - timer.remaining)) timer.callback

end Timer

structure TimerQueue where
  /-- Pending timers, the next one due first. -/
  timers : List Timer
  /-- The number of the next handle. -/
  nextId : Nat
deriving DecidableEq, Repr

namespace TimerQueue

abbrev idLimit : Nat := 0x100000000

def empty : TimerQueue := ⟨[], 0⟩

/-- Puts a timer behind those that are due no later. -/
def insertTimer (timer : Timer) : List Timer → List Timer
  | [] => [timer]
  | first :: rest =>
      if first.remaining ≤ timer.remaining then first :: insertTimer timer rest
      else timer :: first :: rest

theorem insertTimer_perm (timer : Timer) (timers : List Timer) :
    (insertTimer timer timers).Perm (timer :: timers) := by
  induction timers with
  | nil => exact .refl _
  | cons first rest ih =>
      unfold insertTimer
      split
      · exact (ih.cons first).trans (.swap timer first rest)
      · exact .refl _

/-- Arms a timer that is due after `delay` milliseconds, and every `delay` if it repeats. -/
def add (queue : TimerQueue) (delay : Nat) (callback : Callback) (repeating : Bool) :
    Except TimerError TimerId × TimerQueue :=
  if repeating && delay == 0 then (.error .zeroPeriod, queue)
  else if timerCapacity ≤ queue.timers.length then (.error .queueFull, queue)
  else
    let id : TimerId := ⟨queue.nextId⟩
    let timer : Timer := ⟨id, delay, delay, repeating, callback⟩
    (.ok id, ⟨insertTimer timer queue.timers, (queue.nextId + 1) % idLimit⟩)

def cancel (queue : TimerQueue) (id : TimerId) : Bool × TimerQueue :=
  (queue.timers.any (·.id == id),
    { queue with timers := queue.timers.eraseP (·.id == id) })

/-! ## Passing time -/

def rearm (elapsed : Nat) : List Timer → List Timer → List Timer
  | [], pending => pending
  | timer :: rest, pending =>
      let overshoot := elapsed - timer.remaining
      rearm elapsed rest
        (if timer.repeating then insertTimer (timer.rearmed overshoot) pending else pending)

/-- Moves time forward and answers the calls that come due, in order. -/
def advance (queue : TimerQueue) (elapsed : Nat) : List Callback × TimerQueue :=
  let due := queue.timers.takeWhile (·.remaining ≤ elapsed)
  let later := queue.timers.dropWhile (·.remaining ≤ elapsed)
  let pending := later.map fun timer => { timer with remaining := timer.remaining - elapsed }
  (due.flatMap (·.calls elapsed), { queue with timers := rearm elapsed due pending })

def nextDeadline? (queue : TimerQueue) : Option Nat := queue.timers.head?.map (·.remaining)

end TimerQueue

end KernelCore
