import Mathlib
import KernelCore.Proofs.Scheduler.Table

/-!
# Handing out process numbers

The number of a new process is found by going up from the counter, round past the last number, until
one is free. `SearchEnds` is that loop with no bound on its rounds. Since the table holds fewer
processes than there are numbers, it ends after at most one round more than there are processes, and
`allocatePid` answers what it comes to.
-/

namespace KernelCore

namespace Scheduler

variable {s t : Scheduler} {pid : Pid} {rounds : Nat}

/-! ## The loop -/

/-- The search for a free number. Each round tries the number that the counter stands at and moves
the counter on; the search that begins with `s` ends after `rounds` rounds with `pid` and leaves
`t`. -/
inductive SearchEnds : Scheduler → Nat → Pid → Scheduler → Prop
  | free {s : Scheduler} (free : s.process? s.nextPid = none) :
      SearchEnds s 1 s.nextPid { s with nextPid := s.nextPid.next }
  | taken {s t : Scheduler} {pid : Pid} {rounds : Nat} (taken : s.process? s.nextPid ≠ none)
      (rest : SearchEnds { s with nextPid := s.nextPid.next } rounds pid t) :
      SearchEnds s (rounds + 1) pid t

theorem SearchEnds.unique (h : SearchEnds s rounds pid t) {rounds' : Nat} {pid' : Pid}
    {t' : Scheduler} (h' : SearchEnds s rounds' pid' t') :
    rounds' = rounds ∧ pid' = pid ∧ t' = t := by
  induction h generalizing rounds' with
  | free free =>
      cases h' with
      | free => exact ⟨rfl, rfl, rfl⟩
      | taken taken => exact absurd free taken
  | taken taken _ ih =>
      cases h' with
      | free free => exact absurd free taken
      | taken _ rest =>
          obtain ⟨hrounds, hpid, hleft⟩ := ih rest
          exact ⟨congrArg (· + 1) hrounds, hpid, hleft⟩

/-- The search comes past the numbers that are taken, one in each round. -/
theorem searchEnds_of_first {k : Nat} (taken : ∀ i < k, Pid.next^[i] s.nextPid ∈ s.pids)
    (free : Pid.next^[k] s.nextPid ∉ s.pids) :
    SearchEnds s (k + 1) (Pid.next^[k] s.nextPid)
      { s with nextPid := (Pid.next^[k] s.nextPid).next } := by
  induction k generalizing s with
  | zero => exact .free (process?_eq_none.mpr free)
  | succ k ih =>
      have hfirst : s.process? s.nextPid ≠ none := fun hnone =>
        process?_eq_none.mp hnone (taken 0 (Nat.succ_pos k))
      refine .taken hfirst ?_
      exact ih (s := { s with nextPid := s.nextPid.next })
        (fun i hi => taken (i + 1) (Nat.succ_lt_succ hi)) free

/-! ## The number handed out -/

/-- A number is handed out `k` places after the counter. -/
structure HandsOut (s : Scheduler) (k : Nat) : Prop where
  /-- It is the first one from the counter on, round past the last number, that is in no entry of the
  table, whatever the state of the process there. -/
  first : IsLeast { k | ∀ p ∈ s.processes, p.pid ≠ ⟨(s.nextPid.number + k) % Pid.limit⟩ } k
  /-- No more numbers were tried before it than there are processes. -/
  bounded : k ≤ s.processes.length
  answer : s.allocatePid.1 = ⟨(s.nextPid.number + k) % Pid.limit⟩
  /-- The counter is left just past it, and nothing else has changed. -/
  left : s.allocatePid.2 = { s with nextPid := s.allocatePid.1.next }
  /-- The search ends with it, in one round for each number tried. -/
  search : ∀ rounds pid t, SearchEnds s rounds pid t ↔
    rounds = k + 1 ∧ pid = s.allocatePid.1 ∧ t = s.allocatePid.2

/-- The search for a free number always ends, with the first one that no process has. -/
theorem hands_out_first_free (next : s.nextPid.number < Pid.limit)
    (bounded : s.processes.length ≤ processCapacity) : ∃ k, HandsOut s k := by
  obtain ⟨k, henough, hfree, htaken⟩ := exists_first_free next bounded
  have hentry : ∀ i, (∀ p ∈ s.processes, p.pid ≠ ⟨(s.nextPid.number + i) % Pid.limit⟩) ↔
      Pid.next^[i] s.nextPid ∉ s.pids := fun i => by
    simp [iterate_next s.nextPid next, pids]
  have hanswer : s.allocatePid.1 = Pid.next^[k] s.nextPid := freshFrom_eq henough htaken hfree
  have hends : SearchEnds s (k + 1) s.allocatePid.1 s.allocatePid.2 := by
    have hrun := searchEnds_of_first htaken hfree
    rwa [← hanswer] at hrun
  refine ⟨k, ⟨(hentry k).mpr hfree, fun j hj => ?_⟩, henough, ?_, rfl, fun rounds pid t => ?_⟩
  · refine Nat.le_of_not_lt fun earlier => (hentry j).mp hj (htaken j earlier)
  · rw [hanswer, iterate_next s.nextPid next]
  · refine ⟨hends.unique, ?_⟩
    rintro ⟨rfl, rfl, rfl⟩
    exact hends

def lateProcess (number : Nat) (state : ProcessState) : Process :=
  { pid := ⟨number⟩, entry := 0, priority := .normal, state, flags := ⟨true, false⟩
    stack := ⟨0x90000, 0x4000, false⟩, frame := 0, space := none, ticks := 0 }

/-- The last two numbers and the first are taken, and the counter stands at the last but one. -/
def lateTable : Scheduler :=
  { empty with
    processes := [lateProcess 0 .ready, lateProcess 0xFFFFFFFF .terminated,
      lateProcess 0xFFFFFFFE .running]
    nextPid := ⟨0xFFFFFFFE⟩ }

/-- The search goes round past the last number and past three processes, ended or not. -/
theorem number_handed_out_past_the_last :
    lateTable.nextPid.number < Pid.limit ∧ lateTable.processes.length ≤ processCapacity ∧
      HandsOut lateTable 3 ∧ lateTable.allocatePid.1 = ⟨1⟩ ∧
      lateTable.allocatePid.2.nextPid = ⟨2⟩ := by
  obtain ⟨k, hk⟩ := Scheduler.hands_out_first_free (s := lateTable) (by decide) (by decide)
  have hnumber : lateTable.allocatePid.1 = ⟨1⟩ := by decide
  obtain rfl : k = 3 := by
    have hplace : (0xFFFFFFFE + k) % Pid.limit = 1 :=
      congrArg Pid.number (hk.answer.symm.trans hnumber)
    have hle : k ≤ 3 := hk.bounded
    unfold Pid.limit at hplace
    omega
  exact ⟨by decide, by decide, hk, hnumber, by rw [hk.left, hnumber]; rfl⟩

end Scheduler

end KernelCore
