import KernelCore.Limits

/-!
# Priorities

A priority is one of sixteen levels; a higher level runs first.
-/

namespace KernelCore

structure Priority where
  level : Fin priorityLevels
deriving DecidableEq, Repr

namespace Priority

def min : Priority := ⟨0⟩
def low : Priority := ⟨1⟩
def normal : Priority := ⟨8⟩
def high : Priority := ⟨12⟩
def max : Priority := ⟨15⟩

def ofLevel? (level : Nat) : Option Priority :=
  if valid : level < priorityLevels then some ⟨level, valid⟩ else none

def descending : List Priority := (List.finRange priorityLevels).reverse.map Priority.mk

def text (priority : Priority) : String := s!"Priority({priority.level})"

end Priority

end KernelCore
