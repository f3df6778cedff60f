import Karma.Arith.Round

/-! # `adjust_auto_split_for_rules` — the split of an automatic arbitration

What comes out is in minor units (`from_minor_units` is exact). -/

namespace Karma.Arbitration

open Arith

/-- `split_amounts`, of an escrow in minor units. -/
def splitAmounts (escrow : ℤ) (settledPercent : ℚ) : ℤ × ℤ :=
  let pct := max 0 (min 100 settledPercent)
  let settled := max 0 (min escrow (halfEven (escrow * pct / 100)))
  (settled, escrow - settled)

variable {ctx ctx' : AutoContext} {p p' : ℚ} {escrow : ℤ}

end Karma.Arbitration
