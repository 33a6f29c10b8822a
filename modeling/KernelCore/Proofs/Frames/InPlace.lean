import Mathlib
import KernelCore.Proofs.Frames.Calls

/-!
# Frame operations in place

Operations that hand back a pool cannot show how far a fault gets. Here they are written as work on
a pool and an entry in place, one write after the other, and come to the same end as the ones that
hand back: `runOn_inPlace`. A fault comes before the first write, save that an address off the page
boundary is found out only after its frame is reserved.
-/

namespace KernelCore

namespace FramePool

variable {pool pool' : FramePool} {number : Nat} {entry entry' : PageEntry}

/-- Work on a pool and a page entry in place: a fault leaves what was written before it. -/
abbrev InPlace (α : Type) := ExceptT Fault (StateM (FramePool × PageEntry)) α

namespace InPlace

def lift {α : Type} (result : Except Fault α) : InPlace α := ExceptT.mk (pure result)

def check (number : Nat) : InPlace Unit := do
  let (pool, _) ← get
  lift (pool.checkNumber number)

def changeWord (number : Nat) (change : BitVec framesPerWord → BitVec framesPerWord) :
    InPlace Unit :=
  modify fun (pool, entry) =>
    ({ pool with words := pool.words.modify (number / framesPerWord) change }, entry)

def count (change : Nat → Nat) : InPlace Unit :=
  modify fun (pool, entry) => ({ pool with free := change pool.free }, entry)

def setEntry (entry : PageEntry) : InPlace Unit := modify fun (pool, _) => (pool, entry)

def mark (number : Nat) : InPlace Unit := do
  check number
  let (pool, _) ← get
  if pool.bit number then return
  changeWord number (· ||| mask number)
  count (· - 1)

def release (number : Nat) : InPlace Unit := do
  check number
  let (pool, _) ← get
  if pool.bit number then
    changeWord number (· &&& ~~~mask number)
    count (· + 1)

def map (frame : Nat) (kernel writable : Bool) : InPlace Unit := do
  let (_, entry) ← get
  if entry.present then return
  mark (frame / frameSize)
  setEntry (← lift (PageEntry.make frame (PageFlag.ofAccess kernel writable)))

def unback : InPlace Unit := do
  let (_, entry) ← get
  if entry.present then
    release (entry.frame / frameSize)
    setEntry .empty

def atOnce (operation : FramePool → PageEntry → Except Fault (PageEntry × FramePool)) :
    InPlace Unit := do
  let (pool, entry) ← get
  let (entry, pool) ← lift (operation pool entry)
  set (pool, entry)

def runOn {α : Type} (work : InPlace α) (pool : FramePool) (entry : PageEntry) :
    Except Fault α × FramePool × PageEntry := work.run.run (pool, entry)

variable {α β : Type} {frame : Nat} {kernel writable : Bool}

theorem runOn_bind (x : InPlace α) (f : α → InPlace β) :
    (x >>= f).runOn pool entry =
      match x.runOn pool entry with
      | (.ok a, pool', entry') => (f a).runOn pool' entry'
      | (.error cause, rest) => (.error cause, rest) := by
  simp only [runOn, ExceptT.run_bind, StateT.run_bind]
  change StateT.run _ _ = _
  rcases StateT.run x.run (pool, entry) with ⟨_ | _, _, _⟩ <;> rfl

@[simp] theorem runOn_pure (a : α) : (pure a : InPlace α).runOn pool entry = (.ok a, pool, entry) :=
  rfl

@[simp] theorem runOn_get : (get : InPlace (FramePool × PageEntry)).runOn pool entry =
    (.ok (pool, entry), pool, entry) := rfl

@[simp] theorem runOn_set : (set (pool', entry') : InPlace Unit).runOn pool entry =
    (.ok (), pool', entry') := rfl

@[simp] theorem runOn_lift (result : Except Fault α) :
    (lift result).runOn pool entry = (result, pool, entry) := rfl

@[simp] theorem runOn_setEntry : (setEntry entry').runOn pool entry = (.ok (), pool, entry') := rfl

@[simp] theorem runOn_check :
    (check number).runOn pool entry = (pool.checkNumber number, pool, entry) := by
  simp [check, runOn_bind]

def allOrNothing (pool : FramePool) (entry : PageEntry) :
    Except Fault (PageEntry × FramePool) → Except Fault Unit × FramePool × PageEntry
  | .ok (entry', pool') => (.ok (), pool', entry')
  | .error cause => (.error cause, pool, entry)

@[simp] theorem runOn_atOnce
    (operation : FramePool → PageEntry → Except Fault (PageEntry × FramePool)) :
    (atOnce operation).runOn pool entry = allOrNothing pool entry (operation pool entry) := by
  unfold atOnce
  cases h : operation pool entry <;> simp [allOrNothing, runOn_bind, h]

@[simp] theorem runOn_mark :
    (mark number).runOn pool entry =
      allOrNothing pool entry ((entry, ·) <$> pool.markNumber number) := by
  unfold mark markNumber
  cases hcheck : pool.checkNumber number with
  | error cause => simp [runOn_bind, hcheck, allOrNothing]
  | ok =>
      cases hbit : pool.bit number with
      | true => simp [runOn_bind, hcheck, hbit, allOrNothing]
      | false =>
          simp only [runOn_bind, runOn_check, hcheck, runOn_get, hbit, ok_bind]
          rfl

@[simp] theorem runOn_release :
    (release number).runOn pool entry =
      allOrNothing pool entry ((entry, ·) <$> pool.releaseNumber number) := by
  unfold release releaseNumber
  cases hcheck : pool.checkNumber number with
  | error cause => simp [runOn_bind, hcheck, allOrNothing]
  | ok =>
      cases hbit : pool.bit number with
      | true =>
          simp only [runOn_bind, runOn_check, hcheck, runOn_get, hbit, ok_bind]
          rfl
      | false => simp [runOn_bind, hcheck, hbit, allOrNothing]

/-- A frame that is out of range stops the mapping before the address is looked at. -/
theorem runOn_map (early : entry.present = false → frame % pageSize = 0 ∨
      pool.total ≤ frame / frameSize) :
    (map frame kernel writable).runOn pool entry =
      allOrNothing pool entry (pool.map entry frame kernel writable) := by
  unfold map FramePool.map
  cases hentry : entry.present with
  | true => simp [runOn_bind, hentry, allOrNothing]
  | false =>
      rcases early hentry with haligned | houtside
      · obtain ⟨made, hmake⟩ :=
          PageEntry.exists_make haligned (PageFlag.ofAccess kernel writable)
        cases hmark : pool.markNumber (frame / frameSize) <;>
          simp [runOn_bind, hentry, FramePool.mark, hmark, hmake, allOrNothing]
      · have hmark : pool.markNumber (frame / frameSize) =
            .error (.frameOutOfRange (frame / frameSize)) := by
          simp [markNumber, checkNumber_outside houtside]
        simp [runOn_bind, hentry, FramePool.mark, hmark, allOrNothing]

theorem runOn_unback :
    unback.runOn pool entry = allOrNothing pool entry (pool.unback entry) := by
  unfold unback FramePool.unback
  cases hentry : entry.present with
  | false => simp [runOn_bind, hentry, allOrNothing]
  | true =>
      cases hrelease : pool.releaseNumber (entry.frame / frameSize) <;>
        simp [runOn_bind, hentry, FramePool.release, hrelease, allOrNothing]

end InPlace

namespace Call

/-- The entry that a call works on; the others leave the one at hand alone. -/
def entryOr (atHand : PageEntry) : Call → PageEntry
  | back entry .. | map entry .. | unback entry => entry
  | _ => atHand

end Call

def Answer.entryOr (atHand : PageEntry) : Answer → PageEntry
  | backed _ entry | changed entry => entry
  | _ => atHand

/-- A call as work in place on its entry. Taking and backing a frame name none that could be out of
range. -/
def Call.inPlace : Call → InPlace Unit
  | take => .atOnce fun pool entry => do
      let (_, pool) ← pool.take
      return (entry, pool)
  | mark frame => .mark (frame / frameSize)
  | release frame => .release (frame / frameSize)
  | back _ kernel writable => .atOnce fun pool entry => do
      let (_, entry, pool) ← (pool.back entry kernel writable).result
      return (entry, pool)
  | map _ frame kernel writable => .map frame kernel writable
  | unback _ => .unback

/-- A call in place comes to the same end as one that hands back a pool, and a fault changes
nothing. -/
theorem runOn_inPlace (call : Call) (atHand : PageEntry)
    (early : call.Aligned ∨ ∃ number, call.target? = some number ∧ pool.total ≤ number) :
    call.inPlace.runOn pool (call.entryOr atHand) =
      InPlace.allOrNothing pool (call.entryOr atHand)
        ((fun (answer, pool') => (answer.entryOr atHand, pool')) <$> call.perform pool) := by
  cases call with
  | take => cases h : pool.take <;> simp [Call.inPlace, Call.perform, Call.entryOr, h, Answer.entryOr]
  | mark frame =>
      cases h : pool.markNumber (frame / frameSize) <;>
        simp [Call.inPlace, Call.perform, Call.entryOr, FramePool.mark, h, Answer.entryOr]
  | release frame =>
      cases h : pool.releaseNumber (frame / frameSize) <;>
        simp [Call.inPlace, Call.perform, Call.entryOr, FramePool.release, h, Answer.entryOr]
  | back entry kernel writable =>
      cases h : (pool.back entry kernel writable).result <;>
        simp [Call.inPlace, Call.perform, Call.entryOr, h, Answer.entryOr]
  | map entry frame kernel writable =>
      have hearly : entry.present = false → frame % pageSize = 0 ∨
          pool.total ≤ frame / frameSize := by
        intro habsent
        rcases early with haligned | ⟨number, htarget, houtside⟩
        · exact .inl (haligned habsent)
        · simp only [Call.target?, habsent, Bool.false_eq_true, if_false, Option.some.injEq]
            at htarget
          exact .inr (htarget ▸ houtside)
      rw [Call.inPlace, Call.entryOr, InPlace.runOn_map hearly]
      cases h : pool.map entry frame kernel writable <;> simp [Call.perform, h, Answer.entryOr]
  | unback entry =>
      rw [Call.inPlace, Call.entryOr, InPlace.runOn_unback]
      cases h : pool.unback entry <;> simp [Call.perform, h, Answer.entryOr]

end FramePool

end KernelCore
