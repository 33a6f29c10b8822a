import Mathlib
import KernelCore.Proofs.Scheduler.Table

/-!
# Ready processes and their queues

A scheduler is filed when each queue holds exactly the ready processes of its priority, each once.
`Filed.change` is what every operation on one process comes down to: the queues are filed again if
they have followed that one process and left the others alone.
-/

namespace KernelCore

namespace Scheduler

/-- The table and the queues agree on which processes wait, and where. -/
structure Filed (s : Scheduler) : Prop where
  distinct : s.pids.Nodup
  numbered : ∀ p ∈ s.processes, p.pid.number < Pid.limit
  next : s.nextPid.number < Pid.limit
  bounded : s.processes.length ≤ processCapacity
  once : ∀ priority, (s.queue priority).Nodup
  queued : ∀ priority pid, pid ∈ s.queue priority ↔
    ∃ p, s.process? pid = some p ∧ p.state = .ready ∧ p.priority = priority

variable {s t : Scheduler} {pid : Pid} {p : Process}

/-! ## Who waits where -/

theorem Filed.mem_queue_iff (h : s.Filed) (hp : s.process? pid = some p) (priority : Priority) :
    pid ∈ s.queue priority ↔ p.state = .ready ∧ p.priority = priority := by
  rw [h.queued]
  constructor
  · rintro ⟨q, hq, hready, hpriority⟩
    obtain rfl := Option.some.inj (hp.symm.trans hq)
    exact ⟨hready, hpriority⟩
  · rintro ⟨hready, hpriority⟩
    exact ⟨p, hp, hready, hpriority⟩

theorem Filed.queue_subset (h : s.Filed) (priority : Priority) : s.queue priority ⊆ s.pids := by
  intro pid hm
  obtain ⟨p, hp, -⟩ := (h.queued priority pid).mp hm
  exact process?_mem_pids hp

/-- A queue has room for every process of the table that it does not hold. -/
theorem Filed.queue_length_lt (h : s.Filed) {priority : Priority} (hm : pid ∈ s.pids)
    (absent : pid ∉ s.queue priority) : (s.queue priority).length < processCapacity := by
  have hnodup : (pid :: s.queue priority).Nodup := List.nodup_cons.mpr ⟨absent, h.once priority⟩
  have hsub : pid :: s.queue priority ⊆ s.pids := List.cons_subset.mpr ⟨hm, h.queue_subset priority⟩
  have hle := (hnodup.subperm hsub).length_le
  have hbounded := h.bounded
  rw [List.length_cons, length_pids] at hle
  omega

theorem Filed.queue_length_le (h : s.Filed) (priority : Priority) :
    (s.queue priority).length ≤ s.processes.length := by
  have hle := ((h.once priority).subperm (h.queue_subset priority)).length_le
  rwa [length_pids] at hle

/-! ## Changes to the queues -/

theorem push?_eq_some {priority : Priority} (room : (s.queue priority).length < processCapacity) :
    s.push? priority pid = some (s.setQueue priority (s.queue priority ++ [pid])) := by
  simp only [push?, if_neg (Nat.not_le.mpr room)]

theorem push_eq {priority : Priority} (room : (s.queue priority).length < processCapacity) :
    s.push priority pid = s.setQueue priority (s.queue priority ++ [pid]) := by
  rw [push, push?_eq_some room, Option.getD_some]

theorem mem_descending (priority : Priority) : priority ∈ Priority.descending := by
  simp [Priority.descending]

theorem descending_pairwise :
    Priority.descending.Pairwise fun higher lower => lower.level < higher.level := by
  decide

theorem topPriority?_eq_some {priority : Priority} (h : s.topPriority? = some priority) :
    ∀ higher : Priority, priority.level < higher.level → s.queue higher = [] := by
  obtain ⟨-, above, below, hsplit, hempty⟩ := List.find?_eq_some_iff_append.mp h
  have hordered := hsplit ▸ descending_pairwise
  have hlower := (List.pairwise_cons.mp (List.pairwise_append.mp hordered).2.1).1
  intro higher hlt
  have hmem := hsplit ▸ mem_descending higher
  rw [List.mem_append, List.mem_cons] at hmem
  rcases hmem with habove | rfl | hbelow
  · simpa using hempty higher habove
  · exact absurd hlt (lt_irrefl _)
  · exact absurd hlt (lt_asymm (hlower higher hbelow))

theorem pop?_eq_some {t : Scheduler} (h : s.pop? = some (pid, t)) :
    ∃ priority rest, s.queue priority = pid :: rest ∧ t = s.setQueue priority rest ∧
      ∀ higher : Priority, priority.level < higher.level → s.queue higher = [] := by
  unfold pop? at h
  split at h
  · contradiction
  · next priority htop =>
      split at h
      · contradiction
      · next first rest hqueue =>
          obtain ⟨rfl, rfl⟩ := Prod.mk.injEq .. ▸ Option.some.inj h
          exact ⟨priority, rest, hqueue, rfl, topPriority?_eq_some htop⟩

theorem exists_pop? {priority : Priority} (waiting : pid ∈ s.queue priority) :
    ∃ first t, s.pop? = some (first, t) := by
  unfold pop?
  cases htop : s.topPriority? with
  | none =>
      have hempty := List.find?_eq_none.mp htop priority (mem_descending priority)
      have hnil : s.queue priority = [] := by simpa using hempty
      simp [hnil] at waiting
  | some top =>
      have hfull := List.find?_some htop
      cases hqueue : s.queue top with
      | nil => simp [hqueue] at hfull
      | cons first rest => exact ⟨first, s.setQueue top rest, by simp [hqueue]⟩

/-! ## Changing one process -/

/-- A scheduler is filed after a change of one process if the queues have followed that process
and kept the others. -/
theorem Filed.change (h : s.Filed) (hp : s.process? pid = some p) {f : Process → Process}
    (keeps : ∀ p, (f p).pid = p.pid)
    (table : t.processes = (s.update pid f).processes) (next : t.nextPid = s.nextPid)
    (once : ∀ priority, (t.queue priority).Nodup)
    (others : ∀ priority other, other ≠ pid →
      (other ∈ t.queue priority ↔ other ∈ s.queue priority))
    (this : ∀ priority, pid ∈ t.queue priority ↔
      (f p).state = .ready ∧ (f p).priority = priority) : t.Filed := by
  have hlookup : ∀ other, t.process? other =
      if other = pid then (s.process? pid).map f else s.process? other := by
    intro other
    rw [← process?_update keeps, process?, table, process?]
  refine ⟨?_, ?_, next ▸ h.next, ?_, once, ?_⟩
  · have hsame : t.pids = (s.update pid f).pids := by rw [pids, table, pids]
    rw [hsame, pids_update keeps]
    exact h.distinct
  · intro q hq
    rw [table] at hq
    obtain ⟨old, hold, rfl⟩ := List.mem_map.mp hq
    have hnumber := h.numbered old hold
    split
    · rwa [keeps]
    · exact hnumber
  · rw [table, length_update]
    exact h.bounded
  · intro priority other
    rw [hlookup]
    by_cases hother : other = pid
    · subst hother
      rw [if_pos rfl, hp, this]
      simp
    · rw [if_neg hother, others priority other hother, h.queued]

theorem Filed.congr (h : s.Filed) (table : t.processes = s.processes) (ready : t.ready = s.ready)
    (next : t.nextPid = s.nextPid) : t.Filed := by
  cases s
  cases t
  cases table
  cases ready
  cases next
  exact ⟨h.distinct, h.numbered, h.next, h.bounded, h.once, h.queued⟩

theorem Filed.touch (h : s.Filed) (hp : s.process? pid = some p) {f : Process → Process}
    (keeps : ∀ p, (f p).pid = p.pid) (state : (f p).state = p.state)
    (priority : (f p).priority = p.priority) : (s.update pid f).Filed := by
  refine h.change hp keeps rfl rfl h.once (fun _ _ _ => Iff.rfl) fun level => ?_
  rw [queue_update, h.mem_queue_iff hp, state, priority]

theorem Filed.touch_off (h : s.Filed) (hp : s.process? pid = some p) {f : Process → Process}
    (keeps : ∀ p, (f p).pid = p.pid) (before : p.state ≠ .ready)
    (after : (f p).state ≠ .ready) : (s.update pid f).Filed := by
  refine h.change hp keeps rfl rfl h.once (fun _ _ _ => Iff.rfl) fun level => ?_
  rw [queue_update, h.mem_queue_iff hp]
  exact ⟨fun hq => absurd hq.1 before, fun hq => absurd hq.1 after⟩

theorem Filed.join (h : s.Filed) (hp : s.process? pid = some p) {f : Process → Process}
    (keeps : ∀ p, (f p).pid = p.pid) (before : p.state ≠ .ready)
    (after : (f p).state = .ready) {priority : Priority}
    (level : (f p).priority = priority) :
    (s.queue priority).length < processCapacity ∧
      ((s.update pid f).push priority pid).Filed := by
  have habsent : ∀ priority, pid ∉ s.queue priority := fun priority hm =>
    before ((h.mem_queue_iff hp priority).mp hm).1
  have hroom := h.queue_length_lt (process?_mem_pids hp) (habsent priority)
  refine ⟨hroom, ?_⟩
  rw [push_eq (by rwa [queue_update])]
  refine h.change hp keeps rfl rfl ?_ ?_ ?_
  · intro other
    rw [queue_setQueue]
    split
    · next hsame =>
        subst hsame
        rw [queue_update, List.nodup_append_comm, List.singleton_append, List.nodup_cons]
        exact ⟨habsent _, h.once _⟩
    · exact h.once other
  · intro other otherPid hne
    rw [queue_setQueue]
    split
    · next hsame => simp [← hsame, hne]
    · rfl
  · intro other
    rw [queue_setQueue, after, level]
    split
    · next hsame => simp [hsame]
    · next hdiffers =>
        rw [queue_update]
        simp [habsent other, hdiffers]

/-- A ready process that leaves its queue and stops being ready. -/
theorem Filed.leave (h : s.Filed) (hp : s.process? pid = some p) {f : Process → Process}
    (keeps : ∀ p, (f p).pid = p.pid) (after : (f p).state ≠ .ready) :
    ((s.update pid f).unqueue p.priority pid).Filed := by
  refine h.change hp keeps rfl rfl ?_ ?_ ?_
  · intro other
    rw [queue_unqueue]
    split
    · exact (h.once other).filter _
    · exact h.once other
  · intro other otherPid hne
    rw [queue_unqueue]
    split
    · simp [hne]
    · rfl
  · intro other
    rw [queue_unqueue]
    split
    · simp [after]
    · next hdiffers =>
        rw [queue_update, h.mem_queue_iff hp]
        exact ⟨fun hq => absurd hq.2 hdiffers, fun hq => absurd hq.1 after⟩

theorem Filed.leave_first (h : s.Filed) {priority : Priority} {rest : List Pid}
    (hqueue : s.queue priority = pid :: rest) (hp : s.process? pid = some p)
    {f : Process → Process} (keeps : ∀ p, (f p).pid = p.pid)
    (after : (f p).state ≠ .ready) :
    ((s.setQueue priority rest).update pid f).Filed := by
  have honce := h.once priority
  rw [hqueue, List.nodup_cons] at honce
  have hlevel : p.priority = priority :=
    ((h.mem_queue_iff hp priority).mp (hqueue ▸ List.mem_cons_self)).2
  refine h.change hp keeps rfl rfl ?_ ?_ ?_
  · intro other
    rw [queue_update, queue_setQueue]
    split
    · exact honce.2
    · exact h.once other
  · intro other otherPid hne
    rw [queue_update, queue_setQueue]
    split
    · next hsame =>
        subst hsame
        simp [hqueue, hne]
    · rfl
  · intro other
    rw [queue_update, queue_setQueue]
    split
    · simp [honce.1, after]
    · next hdiffers =>
        rw [h.mem_queue_iff hp]
        exact ⟨fun hq => absurd (hlevel.symm.trans hq.2) hdiffers, fun hq => absurd hq.1 after⟩

theorem Filed.move (h : s.Filed) (hp : s.process? pid = some p) {f : Process → Process}
    (keeps : ∀ p, (f p).pid = p.pid) (ready : p.state = .ready)
    (state : (f p).state = p.state) {priority : Priority}
    (level : (f p).priority = priority) (differs : p.priority ≠ priority) :
    (((s.update pid f).unqueue p.priority pid).queue priority).length < processCapacity ∧
      (((s.update pid f).unqueue p.priority pid).push priority pid).Filed := by
  have habsent : pid ∉ s.queue priority := fun hm =>
    differs ((h.mem_queue_iff hp priority).mp hm).2
  have hroom : (((s.update pid f).unqueue p.priority pid).queue priority).length <
      processCapacity := by
    rw [queue_unqueue, if_neg differs]
    exact h.queue_length_lt (process?_mem_pids hp) habsent
  refine ⟨hroom, ?_⟩
  rw [push_eq hroom]
  refine h.change hp keeps rfl rfl ?_ ?_ ?_
  · intro other
    rw [queue_setQueue, queue_unqueue, if_neg differs]
    split
    · next hsame =>
        subst hsame
        rw [queue_update, List.nodup_append_comm, List.singleton_append, List.nodup_cons]
        exact ⟨habsent, h.once _⟩
    · rw [queue_unqueue]
      split
      · exact (h.once other).filter _
      · exact h.once other
  · intro other otherPid hne
    rw [queue_setQueue, queue_unqueue, if_neg differs]
    split
    · next hsame => simp [← hsame, hne]
    · rw [queue_unqueue]
      split
      · simp [hne]
      · rfl
  · intro other
    rw [queue_setQueue, state, level, queue_unqueue, if_neg differs]
    split
    · next hsame => simp [hsame, ready]
    · next hdiffers =>
        rw [queue_unqueue]
        split
        · simp [hdiffers]
        · next hold =>
            rw [queue_update, h.mem_queue_iff hp]
            exact ⟨fun hq => absurd hq.2 hold, fun hq => absurd hq.2 hdiffers⟩

/-! ## Entering and removing processes -/

/-- A scheduler is filed after a process has entered the table if the queues have taken it in
where it belongs and kept the others. -/
theorem Filed.enter (h : s.Filed) (fresh : s.process? p.pid = none)
    (number : p.pid.number < Pid.limit) (room : s.processes.length < processCapacity)
    (table : t.processes = s.processes ++ [p]) (next : t.nextPid.number < Pid.limit)
    (once : ∀ priority, (t.queue priority).Nodup)
    (others : ∀ priority other, other ≠ p.pid →
      (other ∈ t.queue priority ↔ other ∈ s.queue priority))
    (this : ∀ priority, p.pid ∈ t.queue priority ↔ p.state = .ready ∧ p.priority = priority) :
    t.Filed := by
  have hlookup : ∀ other, t.process? other =
      if other = p.pid then some p else s.process? other := by
    intro other
    rw [← process?_append fresh, process?, table, process?]
  refine ⟨?_, ?_, next, ?_, once, ?_⟩
  · have hpids : t.pids = s.pids ++ [p.pid] := by
      rw [pids, table, List.map_append, pids]
      rfl
    rw [hpids, List.nodup_append_comm, List.singleton_append, List.nodup_cons]
    exact ⟨process?_eq_none.mp fresh, h.distinct⟩
  · intro q hq
    rw [table, List.mem_append, List.mem_singleton] at hq
    rcases hq with hq | rfl
    · exact h.numbered q hq
    · exact number
  · rw [table, List.length_append, List.length_singleton]
    exact room
  · intro priority other
    rw [hlookup]
    by_cases hother : other = p.pid
    · subst hother
      rw [if_pos rfl, this]
      simp
    · rw [if_neg hother, others priority other hother, h.queued]

theorem Filed.remove (h : s.Filed) {keep : Process → Bool}
    (waiting : ∀ p ∈ s.processes, p.state = .ready → keep p = true) :
    Filed { s with processes := s.processes.filter keep } := by
  refine ⟨h.distinct.sublist (List.filter_sublist.map _), ?_, h.next, ?_, h.once, ?_⟩
  · intro p hp
    exact h.numbered p (List.mem_of_mem_filter hp)
  · exact Nat.le_trans (List.length_filter_le _ _) h.bounded
  · intro priority pid
    rw [process?_filter h.distinct]
    refine (h.queued priority pid).trans ⟨?_, ?_⟩
    · rintro ⟨p, hp, hready, hpriority⟩
      refine ⟨p, ?_, hready, hpriority⟩
      rw [hp, Option.filter_some_pos (waiting p (process?_mem hp).1 hready)]
    · rintro ⟨p, hp, hready, hpriority⟩
      exact ⟨p, (Option.filter_eq_some_iff.mp hp).1, hready, hpriority⟩

end Scheduler

end KernelCore
