import Mathlib.Tactic.Common

/-! # The status of a settlement

`TaskStatus` of `core/schemas.py` and the transition table of `core/settlement/engine.py`. -/

namespace Karma.Settlement

inductive TaskStatus
  | draft | pending | accepted | inProgress | progressSubmitted | progressConfirmed | delivered
  | disputed | arbitrated | settled | refunded | cancelled
  | created | locked | running | submitted | buyerRegret | verifying | verified | released | failed
  | arbitration | buyerWins | sellerWins | partialRelease
  | authorized | autoConfirmed | partiallySettled | frozen
  deriving DecidableEq, Repr

namespace TaskStatus

def canonical : TaskStatus → TaskStatus
  | created => draft
  | locked => accepted
  | running => inProgress
  | submitted | verifying | verified => delivered
  | buyerRegret | released | sellerWins | partialRelease => settled
  | failed => cancelled
  | arbitration => arbitrated
  | buyerWins => refunded
  | s => s

def validTransitions : TaskStatus → List TaskStatus
  | draft => [pending, accepted, cancelled]
  | pending => [accepted, cancelled]
  | accepted => [inProgress, disputed, cancelled]
  | inProgress => [progressSubmitted, delivered, settled, disputed, cancelled]
  | progressSubmitted => [progressSubmitted, progressConfirmed, delivered, settled, disputed]
  | progressConfirmed => [delivered, disputed, settled, autoConfirmed]
  | delivered => [settled, disputed, refunded, frozen, autoConfirmed]
  | disputed => [arbitrated, frozen]
  | arbitrated => [settled, refunded, partiallySettled, frozen]
  | settled | refunded | cancelled => [frozen]
  | partiallySettled => [settled, frozen]
  | autoConfirmed => [settled, disputed, frozen]
  | frozen => [delivered, disputed, settled, refunded, cancelled]
  | _ => []

def canTransition (source target : TaskStatus) : Bool :=
  decide (target.canonical ∈ source.canonical.validTransitions)

def order : TaskStatus → ℕ
  | draft => 1
  | pending => 2
  | accepted => 3
  | inProgress => 4
  | progressSubmitted => 5
  | progressConfirmed => 6
  | delivered => 7
  | disputed => 8
  | arbitrated => 9
  | autoConfirmed => 10
  | partiallySettled => 11
  | settled | refunded | cancelled => 12
  | frozen => 13
  | _ => 0

def isPostAccepted (s : TaskStatus) : Bool := decide (order accepted ≤ s.canonical.order)

@[simp] theorem canonical_canonical (s : TaskStatus) : s.canonical.canonical = s.canonical := by
  cases s <;> rfl

end TaskStatus

end Karma.Settlement
