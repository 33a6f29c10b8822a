import Mathlib
import KernelCore.Proofs.Scheduler.Refinement

/-!
# Taking turns

Only the processes of the highest level that has any contend for the processor: those that wait
there, and behind them the current one. A switch gives the processor to the first of them, which
goes to the end of their list, so the contenders are the same after it, turned by one; a tick
changes nothing. Over any number of switches they take turns in a fixed order: `Turns.cycling`.
-/

namespace KernelCore

namespace Plan

variable {plan after : Plan} {level : Priority} {previous next : Pid} {rest : List Pid}

/-- Who contends for the processor at a level: those who wait there, in their order, and then the
current process, if it has not exited and has that priority. -/
def contenders (plan : Plan) (level : Priority) : List Pid :=
  plan.waiting level ++
    plan.current.toList.filter fun pid => !plan.exited && plan.priority pid == some level

structure Leading (plan : Plan) (level : Priority) : Prop where
  someone : plan.contenders level ≠ []
  highest : ∀ higher : Priority, level.level < higher.level → plan.contenders higher = []

theorem Leading.unique {other : Priority} (h : plan.Leading level) (h' : plan.Leading other) :
    level = other := by
  have hle : ¬level.level < other.level := fun hlt => h'.someone (h.highest other hlt)
  have hge : ¬other.level < level.level := fun hlt => h.someone (h'.highest level hlt)
  have heq : level.level = other.level := by omega
  cases level
  cases other
  exact congrArg Priority.mk heq

theorem exists_leading (someone : plan.contenders level ≠ []) : ∃ top, plan.Leading top := by
  have hmem : level.level ∈ Finset.univ.filter fun l => plan.contenders ⟨l⟩ ≠ [] := by
    simpa using someone
  obtain ⟨top, htop, hmost⟩ := Finset.exists_max_image _ id ⟨_, hmem⟩
  refine ⟨⟨top⟩, by simpa using htop, fun higher hlt => ?_⟩
  by_contra hsome
  have hle := hmost higher.level (by simpa using hsome)
  exact absurd hlt (Nat.not_lt.mpr hle)

structure Orderly (plan : Plan) : Prop where
  filed : ∀ level, ∀ pid ∈ plan.waiting level, plan.priority pid = some level
  present : ∀ pid, plan.current = some pid → (plan.priority pid).isSome

theorem mem_contenders {pid : Pid} :
    pid ∈ plan.contenders level ↔ pid ∈ plan.waiting level ∨
      plan.current = some pid ∧ plan.exited = false ∧ plan.priority pid = some level := by
  simp [contenders]

theorem Orderly.priority_eq {pid : Pid} (h : plan.Orderly) (contends : pid ∈ plan.contenders level) :
    plan.priority pid = some level := by
  cases mem_contenders.mp contends with
  | inl waits => exact h.filed level pid waits
  | inr runs => exact runs.2.2

/-! ## One switch -/

theorem tidy_priority_current (current : plan.current = some previous) :
    plan.tidy.priority previous = plan.priority previous := by
  show (plan.priority previous).filter _ = _
  cases plan.priority previous with
  | none => rfl
  | some level => simp [Option.filter, current]

/-- Once the current process has given up the processor, just the contenders of a level wait
there. -/
theorem Orderly.waiting_requeue (h : plan.Orderly) (current : plan.current = some previous) :
    (plan.tidy.requeue previous).waiting = plan.contenders := by
  obtain ⟨own, hown⟩ := Option.isSome_iff_exists.mp (h.present previous current)
  have htidy : plan.tidy.priority previous = some own :=
    (tidy_priority_current current).trans hown
  funext level
  cases hexited : plan.exited with
  | true =>
      rw [requeue_exited (show plan.tidy.exited = true from hexited), contenders, current]
      simp [hexited, tidy]
  | false =>
      rw [requeue_live (show plan.tidy.exited = false from hexited) htidy, contenders, current]
      by_cases hlevel : level = own
      · subst hlevel
        simp [join, tidy, hexited, hown]
      · have hne : ¬own = level := fun heq => hlevel heq.symm
        simp [join, tidy, hexited, hown, hlevel, hne]

/-- The process that resumes contends behind the others of its level. -/
theorem Orderly.contenders_resume (h : plan.Orderly) (current : plan.current = some previous)
    (first : plan.contenders level = next :: rest) :
    ((plan.tidy.requeue previous).resume next level rest).contenders =
      Function.update plan.contenders level (rest ++ [next]) := by
  have hcontends : next ∈ plan.contenders level := first ▸ List.mem_cons_self
  have hpriority : (plan.tidy.requeue previous).priority next = some level := by
    have hsame : (plan.tidy.requeue previous).priority = plan.tidy.priority := by
      unfold requeue
      split <;> rfl
    rw [hsame]
    show (plan.priority next).filter _ = _
    rw [h.priority_eq hcontends]
    cases mem_contenders.mp hcontends with
    | inl waits => simp [Option.filter, waits]
    | inr runs => simp [Option.filter, runs.1]
  funext other
  show Function.update (plan.tidy.requeue previous).waiting level rest other ++ _ = _
  rw [h.waiting_requeue current]
  by_cases hlevel : other = level
  · subst hlevel
    simp [resume, hpriority]
  · have hne : ¬level = other := fun heq => hlevel heq.symm
    simp [resume, hpriority, hlevel, hne]

/-- A switch turns the contenders of the highest level by one: the first of them gets the
processor and is the last of them from then on. -/
theorem Does.rotates (does : plan.Does .switch after) (h : plan.Orderly)
    (running : plan.current.isSome) (leading : plan.Leading level) :
    after.current = (plan.contenders level).head? ∧
      after.contenders level = (plan.contenders level).rotate 1 ∧ after.Leading level := by
  cases does with
  | notSwitched hnone => simp [hnone] at running
  | @switched previous next top rest hcurrent hfirst hhighest =>
      rw [h.waiting_requeue hcurrent] at hfirst hhighest
      have hlevel : level = top :=
        leading.unique ⟨by rw [hfirst]; exact List.cons_ne_nil _ _, hhighest⟩
      subst hlevel
      have hafter := h.contenders_resume hcurrent hfirst
      refine ⟨by rw [hfirst]; rfl, ?_, ?_, fun higher hlt => ?_⟩
      · rw [hafter, Function.update_self, hfirst, List.rotate_cons_succ, List.rotate_zero]
      · rw [hafter, Function.update_self]
        simp
      · rw [hafter, Function.update_of_ne (fun heq => absurd hlt (by simp [heq]))]
        exact hhighest higher hlt

end Plan

namespace Scheduler

variable {s t : Scheduler} {level : Priority}

theorem Sound.orderly (h : s.Sound) : s.plan.Orderly where
  filed := by
    intro level pid hwaits
    obtain ⟨p, hp, -, hlevel⟩ := (h.queued level pid).mp hwaits
    rw [plan_priority hp, hlevel]
  present := by
    intro pid hcurrent
    obtain ⟨p, hp, -⟩ := h.current pid hcurrent
    rw [plan_priority hp]
    rfl

/-- The current process waits in no queue unless it has exited, so no one contends twice. -/
theorem Sound.contenders_nodup (h : s.Sound) (level : Priority) :
    (s.plan.contenders level).Nodup := by
  refine List.nodup_append'.mpr ⟨h.once level, ?_, fun pid hwaits hruns => ?_⟩
  · cases s.plan.current with
    | none => exact List.nodup_nil
    | some pid => exact (List.nodup_singleton pid).filter _
  · obtain ⟨p, hp, hready, -⟩ := (h.queued level pid).mp hwaits
    have hcurrent : s.current = some pid := by simpa using (List.mem_filter.mp hruns).1
    have hlive : s.hasExited = false := by
      have hboth := (List.mem_filter.mp hruns).2
      simp at hboth
      exact hboth.1
    have hexited := (h.hasExited_iff hcurrent hp).mpr (by simp [hready])
    simp [hlive] at hexited

/-- As long as there is an idle process, someone contends. -/
theorem Sound.exists_leading (h : s.Sound) (idle : s.idle.isSome) :
    ∃ level, s.plan.Leading level := by
  obtain ⟨pid, hidle⟩ := Option.isSome_iff_exists.mp idle
  obtain ⟨p, hp, hlevel, hstate⟩ := h.idle pid hidle
  refine @Plan.exists_leading _ .min (List.ne_nil_of_mem (?_ : pid ∈ _))
  refine Plan.mem_contenders.mpr ?_
  cases hstate with
  | inl ready => exact .inl ((h.mem_queue_iff hp .min).mpr ⟨ready, hlevel⟩)
  | inr running =>
      have hcurrent := h.running pid p hp running
      refine .inr ⟨hcurrent, Bool.eq_false_iff.mpr fun hexited => ?_, ?_⟩
      · exact (h.hasExited_iff hcurrent hp).mp hexited running
      · rw [plan_priority hp, hlevel]

/-! ## Many switches -/

/-- Switches one after the other, each on whatever memory and processor there are at the time, with
ticks between them; the list says who had the processor after each. -/
inductive Turns (s : Scheduler) : List (Option Pid) → Scheduler → Prop
  | here : Turns s [] s
  | ticked {turns : List (Option Pid)} {t : Scheduler} (elapsed : Nat) :
      Turns s turns t → Turns s turns (t.onTick elapsed).2
  | switched {turns : List (Option Pid)} {t : Scheduler} {frame : Nat} {memory : KernelMemory}
      {cpu : Processor} {switched : Switched} :
      Turns s turns t → (t.switch frame memory cpu).result = .ok switched →
      Turns s (turns ++ [switched.scheduler.current]) switched.scheduler

/-- After some turns the contenders are those from the start, turned as often, and the first of them
have had theirs. -/
structure Cycling (s : Scheduler) (level : Priority) (turns : List (Option Pid)) (t : Scheduler) :
    Prop where
  sound : t.Sound
  running : t.current.isSome
  leading : t.plan.Leading level
  turned : t.plan.contenders level = (s.plan.contenders level).rotate turns.length
  had : ∀ i < turns.length,
    turns[i]? = some (s.plan.contenders level)[i % (s.plan.contenders level).length]?
  last : turns ≠ [] → turns.getLast? = some t.current

theorem Cycling.ticked {turns : List (Option Pid)} (h : Cycling s level turns t) (elapsed : Nat) :
    Cycling s level turns (t.onTick elapsed).2 where
  sound := h.sound.ticked elapsed
  running := by rw [current_onTick]; exact h.running
  leading := by rw [h.sound.plan_ticked]; exact h.leading
  turned := by rw [h.sound.plan_ticked]; exact h.turned
  had := h.had
  last := by rw [current_onTick]; exact h.last

theorem Cycling.switched {turns : List (Option Pid)} (h : Cycling s level turns t) {frame : Nat}
    {memory : KernelMemory} {cpu : Processor} {switched : Switched}
    (hswitch : (t.switch frame memory cpu).result = .ok switched) :
    Cycling s level (turns ++ [switched.scheduler.current]) switched.scheduler := by
  obtain ⟨hsound, hrunning, -⟩ := h.sound.switched hswitch
  obtain ⟨hfirst, hturned, hleading⟩ :=
    (h.sound.plan_switched hswitch).rotates h.sound.orderly h.running h.leading
  have hpos : 0 < (s.plan.contenders level).length := by
    have hsome := h.leading.someone
    rw [h.turned] at hsome
    rw [← List.length_rotate (s.plan.contenders level) turns.length]
    exact List.length_pos_iff.mpr hsome
  refine ⟨hsound, hrunning.trans h.running, hleading, ?_, fun i hi => ?_, fun _ => ?_⟩
  · rw [hturned, h.turned, List.rotate_rotate, List.length_append, List.length_singleton]
  · by_cases hold : i < turns.length
    · rw [List.getElem?_append_left hold]
      exact h.had i hold
    · have hlast : i = turns.length := by
        rw [List.length_append, List.length_singleton] at hi
        omega
      subst hlast
      rw [List.getElem?_concat_length, ← current_plan, hfirst, h.turned, ← List.rotate_mod,
        List.head?_rotate (Nat.mod_lt _ hpos)]
  · rw [List.getLast?_concat]

theorem Turns.cycling {turns : List (Option Pid)} (h : Turns s turns t) (sound : s.Sound)
    (running : s.current.isSome) (leading : s.plan.Leading level) : Cycling s level turns t := by
  induction h with
  | here => exact ⟨sound, running, leading, (List.rotate_zero _).symm, nofun, nofun⟩
  | ticked elapsed _ ih => exact ih.ticked elapsed
  | switched _ hswitch ih => exact ih.switched hswitch

/-- The contenders of a level have the processor in turn, and no one else has it. -/
structure TakesTurns (s : Scheduler) (level : Priority) : Prop where
  distinct : (s.plan.contenders level).Nodup
  peers : ∀ pid ∈ s.plan.contenders level, s.plan.priority pid = some level
  /-- Who has the processor after so many switches. -/
  current : ∀ {turns t}, Turns s turns t → 0 < turns.length →
    t.current = (s.plan.contenders level)[(turns.length - 1) % (s.plan.contenders level).length]?
  /-- Who had it after each of them. -/
  had : ∀ {turns t}, Turns s turns t → ∀ i < turns.length,
    turns[i]? = some (s.plan.contenders level)[i % (s.plan.contenders level).length]?
  /-- In as many consecutive switches as there are contenders, each of them gets it once. -/
  once : ∀ {turns t}, Turns s turns t → ∀ before window after, turns = before ++ window ++ after →
    window.length = (s.plan.contenders level).length →
    window.Perm ((s.plan.contenders level).map some)

theorem Cycling.current_eq {turns : List (Option Pid)} (h : Cycling s level turns t)
    (some_turn : 0 < turns.length) :
    t.current =
      (s.plan.contenders level)[(turns.length - 1) % (s.plan.contenders level).length]? := by
  have hlast := h.last (List.length_pos_iff.mp some_turn)
  rw [List.getLast?_eq_getElem?, h.had _ (by omega)] at hlast
  exact (Option.some.inj hlast).symm

theorem Cycling.window_eq {before window after : List (Option Pid)}
    (h : Cycling s level (before ++ window ++ after) t)
    (round : window.length = (s.plan.contenders level).length) :
    window = ((s.plan.contenders level).rotate before.length).map some := by
  refine List.ext_getElem? fun i => ?_
  by_cases hi : i < window.length
  · have hturn : (before ++ window ++ after)[before.length + i]? = window[i]? := by
      rw [List.append_assoc, List.getElem?_append_right (Nat.le_add_right _ _),
        Nat.add_sub_cancel_left, List.getElem?_append_left hi]
    have hmod : (before.length + i) % (s.plan.contenders level).length <
        (s.plan.contenders level).length := Nat.mod_lt _ (by omega)
    rw [← hturn, h.had _ (by simp; omega), List.getElem?_map,
      List.getElem?_rotate (by omega), Nat.add_comm i, List.getElem?_eq_getElem hmod]
    rfl
  · rw [List.getElem?_eq_none (by omega), List.getElem?_eq_none (by simp; omega)]

theorem Sound.takesTurns (h : s.Sound) (running : s.current.isSome)
    (leading : s.plan.Leading level) : s.TakesTurns level where
  distinct := h.contenders_nodup level
  peers _ contends := h.orderly.priority_eq contends
  current hturns := (hturns.cycling h running leading).current_eq
  had hturns := (hturns.cycling h running leading).had
  once hturns before window after heq round := by
    subst heq
    rw [(hturns.cycling h running leading).window_eq round]
    exact (List.rotate_perm _ _).map some

end Scheduler

end KernelCore
