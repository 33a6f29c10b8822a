import Mathlib
import KernelCore.Scheduler.Switch

/-!
# Looking up processes

What the process table answers after each kind of change: a change of one process, a removal, an
entry. A number handed out by `allocatePid` belongs to no process, because among one more
consecutive numbers than there are processes one is free.
-/

namespace KernelCore

namespace Scheduler

variable {s : Scheduler}

def pids (s : Scheduler) : List Pid := s.processes.map (·.pid)

@[simp] theorem length_pids (s : Scheduler) : s.pids.length = s.processes.length :=
  List.length_map _

/-! ## Lookups -/

theorem process?_mem {pid : Pid} {p : Process} (h : s.process? pid = some p) :
    p ∈ s.processes ∧ p.pid = pid :=
  ⟨List.mem_of_find?_eq_some h, by simpa using List.find?_some h⟩

theorem process?_mem_pids {pid : Pid} {p : Process} (h : s.process? pid = some p) :
    pid ∈ s.pids := by
  obtain ⟨hm, rfl⟩ := process?_mem h
  exact List.mem_map_of_mem hm

theorem process?_eq_none {pid : Pid} : s.process? pid = none ↔ pid ∉ s.pids := by
  simp [process?, pids]

theorem exists_process? {pid : Pid} (hm : pid ∈ s.pids) : ∃ p, s.process? pid = some p := by
  cases hfind : s.process? pid with
  | none => exact absurd hm (process?_eq_none.mp hfind)
  | some p => exact ⟨p, rfl⟩

theorem process?_of_mem (distinct : s.pids.Nodup) {p : Process} (hm : p ∈ s.processes) :
    s.process? p.pid = some p := by
  cases hfind : s.process? p.pid with
  | none => exact absurd (List.mem_map_of_mem hm) (process?_eq_none.mp hfind)
  | some q =>
      obtain ⟨hq, hsame⟩ := process?_mem hfind
      rw [List.inj_on_of_nodup_map distinct hq hm hsame]

/-! ## Changing one process -/

section Update

variable {pid : Pid} {f : Process → Process} (keeps : ∀ p, (f p).pid = p.pid)

include keeps

theorem pids_update : (s.update pid f).pids = s.pids := by
  simp only [pids, update, List.map_map]
  refine List.map_congr_left fun p _ => ?_
  simp only [Function.comp_apply]
  split
  · exact keeps p
  · rfl

theorem process?_update (other : Pid) :
    (s.update pid f).process? other =
      if other = pid then (s.process? pid).map f else s.process? other := by
  have hsame : (fun p : Process => (if p.pid = pid then f p else p).pid == other) =
      fun p => p.pid == other := by
    funext p
    split
    · rw [keeps]
    · rfl
  have hfind : (s.update pid f).process? other =
      (s.process? other).map fun p => if p.pid = pid then f p else p := by
    simp only [process?, update, List.find?_map, Function.comp_def, hsame]
  rw [hfind]
  cases hold : s.process? other with
  | none =>
      split
      · next heq => simp [← heq, hold]
      · rfl
  | some p =>
      obtain ⟨-, rfl⟩ := process?_mem hold
      by_cases heq : p.pid = pid
      · subst heq
        simp [hold]
      · simp [heq]

theorem process?_of_update {t : Scheduler} {p : Process} (hp : s.process? pid = some p)
    (table : t.processes = (s.update pid f).processes) (other : Pid) :
    t.process? other = if other = pid then some (f p) else s.process? other := by
  rw [← Option.map_some (f := f), ← hp, ← process?_update keeps, process?, table, process?]

end Update

@[simp] theorem length_update (s : Scheduler) (pid : Pid) (f : Process → Process) :
    (s.update pid f).processes.length = s.processes.length :=
  List.length_map _

@[simp] theorem queue_update (s : Scheduler) (pid : Pid) (f : Process → Process)
    (priority : Priority) : (s.update pid f).queue priority = s.queue priority :=
  rfl

/-! ## Entering and removing processes -/

theorem enter_eq_ok {t : Scheduler} {p : Process} (h : s.enter p = .ok t) :
    s.processes.length < processCapacity ∧ t = { s with processes := s.processes ++ [p] } := by
  unfold enter tableFull at h
  split at h
  · contradiction
  · next hroom =>
      obtain rfl := Except.ok.inj h
      exact ⟨by simpa using hroom, rfl⟩

theorem process?_append {p : Process} (fresh : s.process? p.pid = none) (other : Pid) :
    { s with processes := s.processes ++ [p] }.process? other =
      if other = p.pid then some p else s.process? other := by
  simp only [process?, List.find?_append]
  by_cases hother : other = p.pid
  · subst hother
    rw [process?] at fresh
    simp [fresh]
  · simp [hother, Ne.symm hother]

theorem process?_filter (distinct : s.pids.Nodup) (keep : Process → Bool) (pid : Pid) :
    { s with processes := s.processes.filter keep }.process? pid =
      (s.process? pid).filter keep := by
  have hdistinct : ({ s with processes := s.processes.filter keep } : Scheduler).pids.Nodup :=
    distinct.sublist (List.filter_sublist.map _)
  cases hfind : s.process? pid with
  | none =>
      rw [process?_eq_none] at hfind
      rw [Option.filter_none, process?_eq_none]
      exact fun hm => hfind ((List.filter_sublist.map _).mem hm)
  | some p =>
      obtain ⟨hp, rfl⟩ := process?_mem hfind
      cases hkeep : keep p with
      | true =>
          rw [Option.filter_some_pos hkeep]
          exact process?_of_mem hdistinct (List.mem_filter.mpr ⟨hp, hkeep⟩)
      | false =>
          rw [Option.filter_some_neg (by simp [hkeep]), process?_eq_none]
          intro hm
          obtain ⟨q, hq, hsame⟩ := List.mem_map.mp hm
          obtain ⟨hmem, hkept⟩ := List.mem_filter.mp hq
          rw [List.inj_on_of_nodup_map distinct hmem hp hsame, hkeep] at hkept
          contradiction

/-! ## Numbers -/

theorem iterate_next (pid : Pid) (fits : pid.number < Pid.limit) (i : Nat) :
    Pid.next^[i] pid = ⟨(pid.number + i) % Pid.limit⟩ := by
  induction i with
  | zero => simp [Nat.mod_eq_of_lt fits]
  | succ i ih =>
      rw [Function.iterate_succ_apply', ih, Pid.next]
      simp [Nat.add_assoc]

/-- A search comes past the numbers that are taken, to the first one that is free. -/
theorem freshFrom_eq {tries k : Nat} {pid : Pid} (enough : k ≤ tries)
    (taken : ∀ i < k, Pid.next^[i] pid ∈ s.pids) (free : Pid.next^[k] pid ∉ s.pids) :
    s.freshFrom tries pid = Pid.next^[k] pid := by
  induction k generalizing tries pid with
  | zero =>
      have hfree : s.process? pid = none := process?_eq_none.mpr free
      cases tries with
      | zero => rfl
      | succ tries => simp [freshFrom, hfree]
  | succ k ih =>
      obtain ⟨rest, rfl⟩ : ∃ rest, tries = rest + 1 := ⟨tries - 1, by omega⟩
      obtain ⟨p, hp⟩ := exists_process? (taken 0 (Nat.succ_pos k))
      rw [Function.iterate_zero_apply] at hp
      rw [freshFrom, hp, if_pos Option.isSome_some, Function.iterate_succ_apply]
      exact ih (Nat.le_of_succ_le_succ enough) (fun i hi => taken (i + 1) (Nat.succ_lt_succ hi)) free

theorem freshFrom_lt (s : Scheduler) (tries : Nat) {pid : Pid} (fits : pid.number < Pid.limit) :
    (s.freshFrom tries pid).number < Pid.limit := by
  induction tries generalizing pid with
  | zero => exact fits
  | succ tries ih =>
      unfold freshFrom
      split
      · exact ih (Nat.mod_lt _ (by decide))
      · exact fits

/-- The table cannot hold one more consecutive numbers than it has processes. -/
theorem exists_free_number (next : s.nextPid.number < Pid.limit)
    (bounded : s.processes.length ≤ processCapacity) :
    ∃ k ≤ s.processes.length, Pid.next^[k] s.nextPid ∉ s.pids := by
  by_contra hnone
  push Not at hnone
  have hinj : ((List.range (s.processes.length + 1)).map
      fun i => Pid.next^[i] s.nextPid).Nodup := by
    refine List.Nodup.map_on (fun i hi j hj hij => ?_) List.nodup_range
    rw [List.mem_range] at hi hj
    rw [iterate_next _ next, iterate_next _ next] at hij
    have hnumber := congrArg Pid.number hij
    unfold Pid.limit at *
    unfold processCapacity at bounded
    simp only at hnumber
    omega
  have hsub : (List.range (s.processes.length + 1)).map (fun i => Pid.next^[i] s.nextPid) ⊆
      s.pids := by
    intro pid hm
    obtain ⟨i, hi, rfl⟩ := List.mem_map.mp hm
    exact hnone i (Nat.le_of_lt_succ (List.mem_range.mp hi))
  have hle := (hinj.subperm hsub).length_le
  rw [List.length_map, List.length_range, length_pids] at hle
  omega

theorem exists_first_free (next : s.nextPid.number < Pid.limit)
    (bounded : s.processes.length ≤ processCapacity) :
    ∃ k ≤ s.processes.length, Pid.next^[k] s.nextPid ∉ s.pids ∧
      ∀ i < k, Pid.next^[i] s.nextPid ∈ s.pids := by
  obtain ⟨j, hj, hfree⟩ := exists_free_number next bounded
  have hexists : ∃ k, Pid.next^[k] s.nextPid ∉ s.pids := ⟨j, hfree⟩
  refine ⟨Nat.find hexists, (Nat.find_min' hexists hfree).trans hj, Nat.find_spec hexists,
    fun i hi => ?_⟩
  exact Classical.not_not.mp (Nat.find_min hexists hi)

theorem process?_allocatePid (next : s.nextPid.number < Pid.limit)
    (bounded : s.processes.length ≤ processCapacity) :
    s.process? s.allocatePid.1 = none := by
  obtain ⟨k, henough, hfree, htaken⟩ := exists_first_free next bounded
  rw [allocatePid, freshFrom_eq henough htaken hfree]
  exact process?_eq_none.mpr hfree

end Scheduler

end KernelCore
