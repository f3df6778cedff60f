import Karma.Capacity.Code
import Karma.Evm.Run
import Mathlib.Data.List.Permutation

/-! # `_ensure_capacity` — funding a row that others move

With `auto_fund`, `_ensure_capacity` of `services/intent_fulfillment.py` writes three columns as
computed from the row it has read; without it nothing is written. -/

namespace Karma.Capacity

open Evm Function

def need (amount : ℚ) (seen : Balances) : ℚ := amount - seen .availableCredits

/-- The write of `_ensure_capacity`: three columns as computed from `seen`, the others as they
are. -/
def funded (amount : ℚ) (seen row : Balances) : Balances
  | .totalLockedUsdc => seen .totalLockedUsdc + need amount seen
  | .totalBillCredits => seen .totalBillCredits + need amount seen
  | .availableCredits => seen .availableCredits + need amount seen
  | f => row f

/-- `_ensure_capacity` when nothing comes in between; a missing row is created with zeros. -/
def ensureCapacity (amount : ℚ) (row : Option Balances) : Balances :=
  let c := row.getD 0
  if EPSILON < need amount c then funded amount c c else c

/-! ## Serial order -/

inductive Op
  | ensure (amount : ℚ)
  | update (st : Statement)

def Op.perform : Op → Option Balances → Option (Option Balances)
  | .ensure amount, row => some (some (ensureCapacity amount row))
  | .update st, row => st.exec row

def performAll : List Op → Option Balances → Option (Option Balances)
  | [], row => some row
  | op :: ops, row => (op.perform row).bind (performAll ops)

theorem performAll_concat {ops : List Op} {op : Op} {row row' row'' : Option Balances}
    (h : performAll ops row = some row') (hop : op.perform row' = some row'') :
    performAll (ops ++ [op]) row = some row'' := by
  induction ops generalizing row with
  | nil =>
    cases h
    simp [performAll, hop]
  | cons op' ops ih =>
    obtain ⟨r, hr, h⟩ := Option.bind_eq_some_iff.mp h
    rw [List.cons_append, performAll, hr]
    exact ih h

/-! ## Interleavings -/

/-- The row, what each session has read for which amount and not written yet, and the operations
that are done, in this order. -/
structure AutoFund where
  row : Option Balances
  pending : ℕ → Option (ℚ × Option Balances)
  done : List Op

inductive AutoFund.Act
  | read (k : ℕ) (amount : ℚ)
  | write (k : ℕ)
  | update (st : Statement)

def AutoFund.step (s : AutoFund) : AutoFund.Act → Option AutoFund
  | .read k amount =>
    if s.row.any (need amount · ≤ EPSILON) then
      some { s with done := s.done ++ [.ensure amount] }
    else some { s with pending := Function.update s.pending k (some (amount, s.row)) }
  | .write k =>
    match s.pending k, s.row with
    | some (amount, some seen), some row => some
      ⟨some (funded amount seen row), Function.update s.pending k none, s.done ++ [.ensure amount]⟩
    | some (amount, none), none => some
      ⟨some (ensureCapacity amount none), Function.update s.pending k none,
        s.done ++ [.ensure amount]⟩
    -- the row has been inserted by another session
    | _, _ => none
  | .update st => (st.exec s.row).map fun row => { s with row, done := s.done ++ [.update st] }

def AutoFund.start (row : Option Balances) : AutoFund := ⟨row, fun _ => none, []⟩

/-- **The row is what the operations give in some order, one after the other.** -/
def AutoFund.Serial (start : Option Balances) (s : AutoFund) : Prop :=
  ∃ ops : List Op, ops.Perm s.done ∧ performAll ops start = some s.row

/-- **The read still stands**: since then the locked total and the credits have moved as far as the
available credits, and these are still short. -/
def AutoFund.stands (s : AutoFund) : AutoFund.Act → Bool
  | .write k =>
    match s.pending k, s.row with
    | some (amount, some seen), some row =>
      row .totalLockedUsdc - row .availableCredits
          = seen .totalLockedUsdc - seen .availableCredits &&
        row .totalBillCredits - row .availableCredits
          = seen .totalBillCredits - seen .availableCredits &&
        EPSILON < need amount row
    | _, _ => true
  | _ => true

theorem funded_eq {amount : ℚ} {seen row : Balances}
    (hlocked : row .totalLockedUsdc - row .availableCredits
      = seen .totalLockedUsdc - seen .availableCredits)
    (hcredits : row .totalBillCredits - row .availableCredits
      = seen .totalBillCredits - seen .availableCredits) :
    funded amount seen row = funded amount row row := by
  funext f
  cases f <;> simp only [funded, need] <;> linarith

/-- The operations that are done give the row in the order in which they were done. -/
def AutoFund.Ordered (start : Option Balances) (s : AutoFund) : Prop :=
  performAll s.done start = some s.row

theorem AutoFund.Ordered.step {start : Option Balances} {s s' : AutoFund} {a : AutoFund.Act}
    (hs : s.Ordered start) (h : s.step a = some s') (hstands : s.stands a = true) :
    s'.Ordered start := by
  cases a with
  | read k amount =>
    simp only [AutoFund.step] at h
    split_ifs at h with hany
    · cases h
      obtain ⟨c, hrow, hc⟩ := (Option.any_eq_true ..).mp hany
      refine performAll_concat hs ?_
      rw [Op.perform, hrow]
      simp only [ensureCapacity, Option.getD_some, if_neg (not_lt.mpr (of_decide_eq_true hc))]
    · cases h
      exact hs
  | write k =>
    simp only [AutoFund.step, AutoFund.stands] at h hstands
    split at h
    next amount seen row hpending hrow =>
      cases h
      simp only [hpending, hrow, Bool.and_eq_true, decide_eq_true_eq] at hstands
      obtain ⟨⟨hlocked, hcredits⟩, hshort⟩ := hstands
      refine performAll_concat hs ?_
      rw [Op.perform, hrow, funded_eq hlocked hcredits]
      simp only [ensureCapacity, Option.getD_some, if_pos hshort]
    next amount hpending hrow =>
      cases h
      refine performAll_concat hs ?_
      rw [Op.perform, hrow]
    next => cases h
  | update st =>
    obtain ⟨row, hrow, rfl⟩ := Option.map_eq_some_iff.mp h
    exact performAll_concat hs hrow

/-- **Funding is serial as long as every write finds that its read still stands.** -/
theorem auto_fund_serial {start : Option Balances} {h : List (Entry AutoFund AutoFund.Act)}
    {s : AutoFund} (hr : Run (· = AutoFund.start start) AutoFund.step h s)
    (hstands : ∀ e ∈ h, e.pre.stands e.act = true) :
    Throughout (fun _ s => s.Serial start) h s := by
  refine hr.throughout_of (J := AutoFund.Ordered start) ?_ (fun _ _ _ hs h => hs.step h)
    (fun s hs => ⟨s.done, .refl _, hs⟩) hstands
  rintro _ rfl
  rfl

namespace Sample

def five : Balances := deltas [(.totalLockedUsdc, 5), (.totalBillCredits, 5),
  (.availableCredits, 5)]

/-- Session 0 reads, the other request commits, and session 0 writes. -/
def overtaken (st : Statement) : List AutoFund.Act := [.read 0 10, .update st, .write 0]

def fundedAfter (st : Statement) : AutoFund :=
  stateAfter AutoFund.step (overtaken st) (.start (some five))

def fundedHistory (st : Statement) : List (Entry AutoFund AutoFund.Act) :=
  record AutoFund.step (overtaken st) (.start (some five)) []

def deposit : Statement := credit 2 ""

def acceptance : Statement := move .availableCredits .reservedCredits 5 ""

end Sample

open Capacity.Sample

theorem deposit_serial : (fundedAfter deposit).Serial (some five) :=
  (auto_fund_serial (.stateAfter (.start rfl)) (by decide +kernel)).last

/-- The credits that the voucher took are available again, and were locked only once. -/
theorem acceptance_not_serial :
    Run (· = AutoFund.start (some five)) AutoFund.step (fundedHistory acceptance)
        (fundedAfter acceptance) ∧
      ¬ (fundedAfter acceptance).Serial (some five) := by
  refine ⟨.stateAfter (.start rfl), ?_⟩
  rintro ⟨ops, hperm, hops⟩
  have hdone : (fundedAfter acceptance).done = [.update acceptance, .ensure 10] := by
    with_unfolding_all rfl
  rw [hdone, ← List.mem_permutations'] at hperm
  have hlocked := congrArg (fun r => r.bind fun r => r.map fun c =>
    (c .totalLockedUsdc, c .availableCredits)) hops
  simp [List.permutations'] at hperm
  rcases hperm with rfl | rfl <;> revert hlocked <;> decide +kernel

end Karma.Capacity
