import KernelCore.Heap.Basic

/-!
# Backing a window of addresses

A heap asks a region mapper for pages and gives them back through it. `PageBudget` is a mapper
that only counts: it grants pages up to a budget and records what it was asked.
-/

namespace KernelCore

/-- Backs and releases ranges of pages, changing a state of its own. -/
structure RegionMapper (σ : Type) where
  /-- Maps every page of `[start, stop)`; pages already mapped are kept. -/
  map : Nat → Nat → HeapFlags → σ → Traced (Option PagingError × σ)
  /-- Unmaps every page of `[start, stop)`. -/
  unmap : Nat → Nat → σ → Traced σ

inductive RegionCall where
  | map (start stop : Nat) (flags : HeapFlags) (granted : Bool)
  | unmap (start stop : Nat)
deriving DecidableEq, Repr

/-- Pages handed out against a budget, and the calls made so far, the latest first. -/
structure PageBudget where
  budget : Nat
  mapped : Nat
  calls : List RegionCall
deriving DecidableEq, Repr

namespace PageBudget

def map (start stop : Nat) (flags : HeapFlags) (pages : PageBudget) :
    Option PagingError × PageBudget :=
  let mapped := pages.mapped + pageCount start stop
  let granted := mapped ≤ pages.budget
  let pages := { pages with calls := .map start stop flags granted :: pages.calls }
  if granted then (none, { pages with mapped }) else (some .outOfFrames, pages)

def unmap (start stop : Nat) (pages : PageBudget) : PageBudget :=
  { pages with
    mapped := pages.mapped - pageCount start stop
    calls := .unmap start stop :: pages.calls }

def mapper : RegionMapper PageBudget where
  map start stop flags pages := pure (pages.map start stop flags)
  unmap start stop pages := pure (pages.unmap start stop)

end PageBudget

end KernelCore
