import Mathlib
import KernelCore.Proofs.Frames.InPlace

/-!
# Accounts of a frame pool

A trace records the calls that a pool answered, the latest first. Read as operations on a set of
frame numbers, it says which frames are in use: the bitmap, the count of free frames and the hint
of every pool that is reached from a cleared bitmap agree with that set, and a frame that was
chosen by the pool is not chosen again before it is given back.
-/

namespace KernelCore

namespace FramePool

variable {pool pool' : FramePool} {number : Nat}

abbrev Trace := List (Call × Answer)

def inUse : Trace → Finset Nat
  | [] => ∅
  | (call, answer) :: earlier => call.settle answer (inUse earlier)

/-- The pools that a trace of answered calls leads to from a cleared bitmap. -/
inductive Ran (words total : Nat) : Trace → FramePool → Prop
  | cleared {pool : FramePool} (h : FramePool.cleared words total = .ok pool) :
      Ran words total [] pool
  | step {trace : Trace} {pool pool' : FramePool} {call : Call} {answer : Answer}
      (before : Ran words total trace pool) (answered : call.perform pool = .ok (answer, pool')) :
      Ran words total ((call, answer) :: trace) pool'

variable {words total : Nat} {trace recent earlier : Trace} {call : Call} {answer : Answer}

theorem Ran.of_append (ran : Ran words total (recent ++ earlier) pool') :
    ∃ pool, Ran words total earlier pool := by
  induction recent generalizing pool' with
  | nil => exact ⟨pool', ran⟩
  | cons moment recent ih =>
      cases ran with
      | step before _ => exact ih before

theorem Ran.settled (ran : Ran words total trace pool) :
    pool.Sound ∧ pool.Aimed ∧ pool.total = total ∧ pool.usedNumbers = inUse trace := by
  induction ran with
  | cleared h =>
      obtain ⟨hsound, htotal, hbit⟩ := sound_cleared h
      refine ⟨hsound, .inr ?_, htotal, Finset.filter_false_of_mem fun number _ => ?_⟩
      · unfold FramePool.cleared at h
        split at h
        · obtain rfl := Except.ok.inj h
          rfl
        · contradiction
      · rw [hbit]
        exact Bool.false_ne_true
  | step _ answered ih =>
      obtain ⟨hsound, haimed, htotal, hused⟩ := ih
      obtain ⟨hsettled, -⟩ := hsound.answered haimed answered
      exact ⟨hsettled.sound, hsettled.aimed, hsettled.total.trans htotal, by
        rw [hsettled.used, hused, inUse]⟩

theorem chosen_mem_settle {frame : Nat} (chosen : call.chosen? answer = some frame)
    (used : Finset Nat) : frame / frameSize ∈ call.settle answer used := by
  cases call with
  | take | back => simp [Call.settle, chosen]
  | _ => simp [Call.chosen?] at chosen

theorem mem_settle {used : Finset Nat} (mem : number ∈ used) (kept : call.freed? ≠ some number) :
    number ∈ call.settle answer used := by
  cases call with
  | take | back =>
      simp only [Call.settle]
      cases Call.chosen? _ answer with
      | none => exact mem
      | some frame => exact Finset.mem_insert_of_mem mem
  | mark | map =>
      simp only [Call.settle]
      cases Call.target? _ with
      | none => exact mem
      | some other => exact Finset.mem_insert_of_mem mem
  | release | unback =>
      simp only [Call.settle]
      cases hfreed : Call.freed? _ with
      | none => exact mem
      | some other =>
          refine Finset.mem_erase_of_ne_of_mem ?_ mem
          rintro rfl
          exact kept hfreed

theorem mem_inUse_append (mem : number ∈ inUse earlier)
    (kept : ∀ moment ∈ recent, moment.1.freed? ≠ some number) :
    number ∈ inUse (recent ++ earlier) := by
  induction recent with
  | nil => exact mem
  | cons moment recent ih =>
      exact mem_settle (ih fun later hlater => kept later (List.mem_cons_of_mem moment hlater))
        (kept moment List.mem_cons_self)

/-- The three records of a pool agree with the frames in use after a trace, and its calls deal with
them as operations on that set do. -/
structure Accounted (total : Nat) (trace : Trace) (pool : FramePool) : Prop where
  size : pool.total = total
  bits : ∀ number, pool.bit number = true ↔ number ∈ inUse trace
  bounded : ∀ number ∈ inUse trace, number < total
  counted : (inUse trace).card ≤ total ∧ pool.free = total - (inUse trace).card
  hint : pool.hint < total ∨ pool.hint = 0
  /-- A call about a frame below the total is answered. -/
  answers : ∀ call : Call, (∀ number, call.target? = some number → number < total) →
    call.Aligned → ∃ answer pool', call.perform pool = .ok (answer, pool')
  /-- The pool chooses whole frames of its own that are not in use. -/
  chosen : ∀ (call : Call) (answer : Answer) (pool' : FramePool) (frame : Nat),
    call.perform pool = .ok (answer, pool') → call.chosen? answer = some frame →
    frame % pageSize = 0 ∧ frame < total * frameSize ∧ frame / frameSize ∉ inUse trace
  /-- It finds none only if none is free. -/
  found : ∀ (frame : Option Nat) (pool' : FramePool), pool.take = .ok (frame, pool') →
    (frame = none ↔ pool.free = 0)
  markedAgain : ∀ frame, frame / frameSize ∈ inUse trace → pool.mark frame = .ok pool
  releasedAgain : ∀ frame < total * frameSize, frame / frameSize ∉ inUse trace →
    pool.release frame = .ok pool
  /-- Between two times that the pool chose a frame, it was given back. -/
  once : ∀ (latest between oldest : Trace) (again first : Call) (answer' answer : Answer)
    (frame : Nat), trace = latest ++ (again, answer') :: (between ++ (first, answer) :: oldest) →
    again.chosen? answer' = some frame → first.chosen? answer = some frame →
    ∃ moment ∈ between, moment.1.freed? = some (frame / frameSize)
  /-- Handing back a pool and working on it in place come to the same. -/
  inPlace : ∀ (call : Call) (atHand : PageEntry), call.Aligned →
    call.inPlace.runOn pool (call.entryOr atHand) =
      InPlace.allOrNothing pool (call.entryOr atHand)
        ((fun (answer, pool') => (answer.entryOr atHand, pool')) <$> call.perform pool)
  /-- A call about any other frame is a fault, and changes nothing in place. -/
  outside : ∀ (call : Call) (number : Nat), call.target? = some number → total ≤ number →
    call.perform pool = .error (.frameOutOfRange number) ∧
    ∀ atHand, call.inPlace.runOn pool (call.entryOr atHand) =
      (.error (.frameOutOfRange number), pool, call.entryOr atHand)

theorem Sound.mark_again (h : pool.Sound) {frame : Nat}
    (used : frame / frameSize ∈ pool.usedNumbers) : pool.mark frame = .ok pool := by
  rw [h.mem_usedNumbers] at used
  simp [FramePool.mark, markNumber, checkNumber, h.lt_total used, used]

theorem Sound.release_again (h : pool.Sound) {frame : Nat} (inside : frame < pool.total * frameSize)
    (free : frame / frameSize ∉ pool.usedNumbers) : pool.release frame = .ok pool := by
  have hinside : frame / frameSize < pool.total :=
    Nat.div_lt_of_lt_mul (Nat.mul_comm _ _ ▸ inside)
  have hbit : pool.bit (frame / frameSize) = false := by
    rw [h.mem_usedNumbers] at free
    simpa using free
  simp [FramePool.release, releaseNumber, checkNumber, hinside, hbit]

theorem Sound.found_none (h : pool.Sound) {found : Option Nat}
    (htake : pool.take = .ok (found, pool')) : found = none ↔ pool.free = 0 := by
  obtain ⟨hnone, hfree⟩ | ⟨hsome, hfree⟩ := h.take_free htake
  · simp [hnone, hfree]
  · have hnonzero : pool.free ≠ 0 := by omega
    simp [hnonzero, Option.isSome_iff_ne_none.mp hsome]

theorem Ran.chosen_fresh (ran : Ran words total trace pool)
    (answered : call.perform pool = .ok (answer, pool')) {frame : Nat}
    (chosen : call.chosen? answer = some frame) :
    frame % pageSize = 0 ∧ frame < total * frameSize ∧ frame / frameSize ∉ inUse trace := by
  obtain ⟨hsound, haimed, rfl, hused⟩ := ran.settled
  obtain ⟨number, rfl, hinside, hfresh⟩ := (hsound.answered haimed answered).2 frame chosen
  rw [Nat.mul_div_cancel number (by decide), ← hused]
  exact ⟨Nat.mul_mod_left number pageSize, Nat.mul_lt_mul_of_pos_right hinside (by decide), hfresh⟩

/-- A frame that was in use cannot be chosen, so it was given back before it is chosen again. -/
theorem Ran.freed_between {between oldest : Trace} {again first : Call} {answer answer' : Answer}
    {frame : Nat}
    (ran : Ran words total ((again, answer') :: (between ++ (first, answer) :: oldest)) pool)
    (chosen_again : again.chosen? answer' = some frame)
    (chosen : first.chosen? answer = some frame) :
    ∃ moment ∈ between, moment.1.freed? = some (frame / frameSize) := by
  cases ran with
  | step before answered =>
      obtain ⟨-, -, hfresh⟩ := before.chosen_fresh answered chosen_again
      by_contra hkept
      push Not at hkept
      exact hfresh (mem_inUse_append (chosen_mem_settle chosen (inUse oldest)) hkept)

theorem Ran.frames_accounted (ran : Ran words total trace pool) : Accounted total trace pool := by
  obtain ⟨hsound, haimed, rfl, hused⟩ := ran.settled
  have hmem (number : Nat) : number ∈ inUse trace ↔ pool.bit number = true := by
    rw [← hused, hsound.mem_usedNumbers]
  have hcounted := hsound.counted
  rw [hused] at hcounted
  exact
    { size := rfl
      bits := fun number => (hmem number).symm
      bounded := fun number hnumber => hsound.lt_total ((hmem number).mp hnumber)
      counted := by omega
      hint := haimed
      answers := fun call hinside haligned => hsound.exists_perform haimed hinside haligned
      chosen := fun call answer pool' frame hperform hchosen => ran.chosen_fresh hperform hchosen
      found := fun found pool' htake => hsound.found_none htake
      markedAgain := fun frame hframe => hsound.mark_again (hused ▸ hframe)
      releasedAgain := fun frame hinside hframe => hsound.release_again hinside (hused ▸ hframe)
      once := by
        rintro latest between oldest again first answer' answer frame rfl hagain hfirst
        obtain ⟨later, hlater⟩ := ran.of_append
        exact hlater.freed_between hagain hfirst
      inPlace := fun call atHand haligned => runOn_inPlace call atHand (.inl haligned)
      outside := by
        intro call number htarget houtside
        have hperform := perform_outside htarget houtside
        refine ⟨hperform, fun atHand => ?_⟩
        rw [runOn_inPlace call atHand (.inr ⟨number, htarget, houtside⟩), hperform]
        rfl }

def replay (words total : Nat) : List Call → Except Fault (Trace × FramePool)
  | [] => return ([], ← cleared words total)
  | call :: earlier => do
      let (trace, pool) ← replay words total earlier
      let (answer, pool) ← call.perform pool
      return ((call, answer) :: trace, pool)

theorem ran_of_replay (calls : List Call) (h : replay words total calls = .ok (trace, pool)) :
    Ran words total trace pool := by
  induction calls generalizing trace pool with
  | nil =>
      obtain ⟨start, hcleared, h⟩ := bind_eq_ok h
      obtain ⟨rfl, rfl⟩ := Prod.mk.injEq .. ▸ Except.ok.inj h
      exact .cleared hcleared
  | cons call calls ih =>
      obtain ⟨⟨earlier, before⟩, hbefore, h⟩ := bind_eq_ok h
      obtain ⟨⟨answer, after⟩, hperform, h⟩ := bind_eq_ok h
      obtain ⟨rfl, rfl⟩ := Prod.mk.injEq .. ▸ Except.ok.inj h
      exact .step (ih hbefore) hperform

/-- Of two frames one backs an entry; the other is chosen, given back twice, mapped by an entry that
is then released, and chosen again. -/
def sampleTrace : Trace :=
  [(.take, .found (some 0x1000)), (.unback ⟨0x1003⟩, .changed .empty),
    (.map .empty 0x1000 true true, .changed ⟨0x1003⟩), (.release 0x1000, .done),
    (.release 0x1000, .done), (.mark 0x1000, .done), (.take, .found (some 0x1000)),
    (.back .empty true false, .backed none ⟨0x1⟩)]

theorem ran_sampleTrace : Ran 1 2 sampleTrace ⟨2, 0, 0, #[3#32]⟩ :=
  ran_of_replay (sampleTrace.map Prod.fst) rfl

theorem accounted_after_reuse :
    Ran 1 2 sampleTrace ⟨2, 0, 0, #[3#32]⟩ ∧ Accounted 2 sampleTrace ⟨2, 0, 0, #[3#32]⟩ :=
  ⟨ran_sampleTrace, Ran.frames_accounted ran_sampleTrace⟩

end FramePool

end KernelCore
