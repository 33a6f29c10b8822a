import KernelCore.Arena
import KernelCore.Traced

/-!
# Physical frames

The frame pool keeps one bit per frame, set while the frame is in use, and a hint where the
next search starts. Frames are named by the address of their first byte; any address inside a
frame names it too. The search goes round from the hint and skips words without a free frame.
Changing the bit of one frame changes no other: `bit_setMask`, `bit_clearMask`.
-/

namespace KernelCore

structure FramePool where
  /-- Frames that exist; their numbers are those below it. -/
  total : Nat
  /-- Frames not in use. -/
  free : Nat
  /-- Number of the frame at which the next search starts. -/
  hint : Nat
  words : Array (BitVec framesPerWord)
deriving DecidableEq

namespace FramePool

def cleared (words total : Nat) : Except Fault FramePool :=
  if total ≤ words * framesPerWord then
    .ok ⟨total, total, 0, Array.replicate words 0⟩
  else .error .bitmapTooShort

/-- The bitmap words that record `total` frames, at least one. -/
def wordsFor (total : Nat) : Nat :=
  max ((total + (framesPerWord - 1)) / framesPerWord) 1

abbrev wordSize : Nat := 4

/-- Reserves static memory for a bitmap of every frame below `memoryEnd`, all of them free. -/
def carve (arena : Arena) (memoryEnd : Nat) : Traced (FramePool × Arena) := do
  let total := memoryEnd / frameSize
  let words := wordsFor total
  let (place, arena) ← arena.reserve (words * wordSize) .natural
  Traced.note (.framesCounted total words place.addr)
  let pool ← cleared words total
  return (pool, arena)

/-! ## Single frames -/

def bit (pool : FramePool) (number : Nat) : Bool :=
  (pool.words.getD (number / framesPerWord) 0).getLsbD (number % framesPerWord)

def checkNumber (pool : FramePool) (number : Nat) : Except Fault Unit :=
  if number < pool.total then .ok () else .error (.frameOutOfRange number)

def mask (number : Nat) : BitVec framesPerWord :=
  BitVec.twoPow framesPerWord (number % framesPerWord)

/-- Changes the word that records frame `number`, leaving `free` frames not in use. -/
def changeWord (pool : FramePool) (number free : Nat)
    (change : BitVec framesPerWord → BitVec framesPerWord) : FramePool :=
  { pool with free, words := pool.words.modify (number / framesPerWord) change }

def isUsedNumber (pool : FramePool) (number : Nat) : Except Fault Bool := do
  pool.checkNumber number
  return pool.bit number

/-- Records frame `number` as in use; nothing changes if it already is. -/
def markNumber (pool : FramePool) (number : Nat) : Except Fault FramePool := do
  pool.checkNumber number
  if pool.bit number then return pool
  return pool.changeWord number (pool.free - 1) (· ||| mask number)

def releaseNumber (pool : FramePool) (number : Nat) : Except Fault FramePool := do
  pool.checkNumber number
  if pool.bit number then return pool.changeWord number (pool.free + 1) (· &&& ~~~mask number)
  return pool

def isUsed (pool : FramePool) (frame : Nat) : Except Fault Bool :=
  pool.isUsedNumber (frame / frameSize)

def mark (pool : FramePool) (frame : Nat) : Except Fault FramePool :=
  pool.markNumber (frame / frameSize)

def release (pool : FramePool) (frame : Nat) : Except Fault FramePool :=
  pool.releaseNumber (frame / frameSize)

/-! ## The search -/

def advanceHint (pool : FramePool) (step : Nat) : Except Fault FramePool :=
  if pool.total = 0 then .error .remainderByZero
  else .ok { pool with hint := (pool.hint + step) % pool.total }

/-- Whether the hint stands at the start of a word without a free frame. -/
def hintAtFullWord (pool : FramePool) : Except Fault Bool :=
  if pool.hint % framesPerWord = 0 then
    match pool.words[pool.hint / framesPerWord]? with
    | some word => .ok (word == BitVec.ofNat framesPerWord fullFrameWord)
    | none => .error (.indexOutOfBounds pool.words.size (pool.hint / framesPerWord))
  else .ok false

/--
Looks for a free frame from the hint on, takes it and leaves the hint just past it. Each step
passes at least one frame, so `total` steps look at all of them.
-/
def search : Nat → FramePool → Except Fault (Option Nat × FramePool)
  | 0, pool => .ok (none, pool)
  | steps + 1, pool => do
      if ← pool.hintAtFullWord then
        search steps (← pool.advanceHint framesPerWord)
      else if ← pool.isUsedNumber pool.hint then
        search steps (← pool.advanceHint 1)
      else
        let taken ← pool.markNumber pool.hint
        return (some (pool.hint * frameSize), ← taken.advanceHint 1)

def take (pool : FramePool) : Except Fault (Option Nat × FramePool) :=
  if pool.free = 0 then .ok (none, pool) else search pool.total pool

/-! ## What is recorded after a change -/

theorem getLsbD_mask (number place : Nat) :
    (mask number).getLsbD place = (number % framesPerWord == place) := by
  rw [mask, BitVec.getLsbD_twoPow, Bool.beq_eq_decide_eq]
  simp [Nat.mod_lt]

/-- Frames of one word are told apart by their place in it. -/
theorem place_beq_place {number other : Nat}
    (same : number / framesPerWord = other / framesPerWord) :
    (number % framesPerWord == other % framesPerWord) = (number == other) := by
  rw [Bool.eq_iff_iff, beq_iff_eq, beq_iff_eq]
  constructor
  · intro place
    rw [← Nat.div_add_mod number framesPerWord, ← Nat.div_add_mod other framesPerWord, same, place]
  · intro equal
    rw [equal]

theorem bit_changeWord (pool : FramePool) (number free other : Nat)
    (change : BitVec framesPerWord → BitVec framesPerWord)
    (stored : number / framesPerWord < pool.words.size) :
    (pool.changeWord number free change).bit other =
      if number / framesPerWord = other / framesPerWord then
        (change pool.words[number / framesPerWord]).getLsbD (other % framesPerWord)
      else pool.bit other := by
  by_cases same : number / framesPerWord = other / framesPerWord
  · rw [if_pos same]
    simp only [bit, changeWord, Array.getD_eq_getD_getElem?, Array.getElem?_modify, same, if_true]
    simp [← same, stored]
  · rw [if_neg same]
    simp only [bit, changeWord, Array.getD_eq_getD_getElem?, Array.getElem?_modify, same, if_false]

theorem bit_setMask (pool : FramePool) (number free other : Nat)
    (stored : number / framesPerWord < pool.words.size) :
    (pool.changeWord number free (· ||| mask number)).bit other =
      (number == other || pool.bit other) := by
  rw [bit_changeWord _ _ _ _ _ stored]
  split
  · next same =>
      rw [BitVec.getLsbD_or, getLsbD_mask, place_beq_place same, Bool.or_comm, bit, ← same]
      simp [Array.getD_eq_getD_getElem?, stored]
  · next apart =>
      have differs : number ≠ other := fun equal => apart (by rw [equal])
      simp [differs]

theorem bit_clearMask (pool : FramePool) (number free other : Nat)
    (stored : number / framesPerWord < pool.words.size) :
    (pool.changeWord number free (· &&& ~~~mask number)).bit other =
      (number != other && pool.bit other) := by
  rw [bit_changeWord _ _ _ _ _ stored]
  split
  · next same =>
      rw [BitVec.getLsbD_and, BitVec.getLsbD_not, getLsbD_mask, place_beq_place same,
        Bool.and_comm, bit, ← same]
      simp [Array.getD_eq_getD_getElem?, stored, Nat.mod_lt, bne]
  · next apart =>
      have differs : number ≠ other := fun equal => apart (by rw [equal])
      simp [differs]

end FramePool

end KernelCore
