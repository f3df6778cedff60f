import Karma.Slashing.Ledger

/-! # `settlement_reversal` — what a victim is owed and has been paid

One reversal row, and the slashes of its case. -/

namespace Karma.Slashing

open Evm

variable {S Tx : Type} [DecidableEq S] [DecidableEq Tx]

structure Executed (Tx : Type) where
  victimAmount : ℕ
  txHash : Tx

/-- `SettlementReversal`; what is owed does not change. -/
structure Reversal (Tx : Type) where
  paid : ℕ := 0
  credited : Finset Tx := ∅
  status : Status := .pending
  attempts : ℕ := 0
  txHash : Option Tx := none

inductive Reversal.Act (S Tx : Type)
  | credit (s : S)
  | settle (status : Status) (txHash : Option Tx)

variable (owed : ℕ) (slash : S → Executed Tx)

namespace Reversal

def credit (r : Reversal Tx) (e : Executed Tx) : Reversal Tx :=
  if e.txHash ∈ r.credited then r
  else
    let delta := min e.victimAmount (owed - r.paid)
    if 0 < delta then
      { r with
        paid := r.paid + delta
        credited := insert e.txHash r.credited
        status := if owed ≤ r.paid + delta then .settled else .submitted
        attempts := r.attempts + 1
        txHash := some e.txHash }
    else r

def settle (r : Reversal Tx) (status : Status) (txHash : Option Tx) : Option (Reversal Tx) :=
  if status = .pending ∨ status = .settled ∧ txHash = none then none
  else some { r with status, attempts := r.attempts + 1, txHash := txHash.or r.txHash }

def step (r : Reversal Tx) : Act S Tx → Option (Reversal Tx)
  | .credit s => some (r.credit owed (slash s))
  | .settle status txHash => r.settle status txHash

def slashes : List (Entry (Reversal Tx) (Act S Tx)) → Finset S
  | [] => ∅
  | e :: h => match e.act with
    | .credit s => insert s (slashes h)
    | .settle _ _ => slashes h

def taken (h : List (Entry (Reversal Tx) (Act S Tx))) : ℕ :=
  ∑ s ∈ slashes h, (slash s).victimAmount

structure Compensated (h : List (Entry (Reversal Tx) (Act S Tx))) (r : Reversal Tx) : Prop where
  paid : r.paid = min owed (taken slash h)
  settled : r.status = .settled ↔ r.paid = owed

/-- A credit that still counts has a transaction of its own, and a status call says what is so. -/
def Honest (h : List (Entry (Reversal Tx) (Act S Tx))) (e : Entry (Reversal Tx) (Act S Tx)) :
    Prop :=
  match e.act with
  | .credit s => s ∉ slashes h → 0 < (slash s).victimAmount → e.pre.paid < owed →
      (slash s).txHash ∉ e.pre.credited
  | .settle status _ => status = .settled ↔ e.pre.paid = owed

structure Kept (h : List (Entry (Reversal Tx) (Act S Tx))) (r : Reversal Tx) : Prop
    extends Compensated owed slash h r where
  done : ∀ s ∈ slashes h, (slash s).txHash ∈ r.credited ∨ (slash s).victimAmount = 0 ∨ owed ≤ r.paid

variable {owed slash} {h : List (Entry (Reversal Tx) (Act S Tx))} {r r' : Reversal Tx}

theorem credit_eq_self {e : Executed Tx}
    (h : e.txHash ∈ r.credited ∨ e.victimAmount = 0 ∨ owed ≤ r.paid) : r.credit owed e = r := by
  simp only [credit]
  by_cases htx : e.txHash ∈ r.credited
  · rw [if_pos htx]
  · have hnone := h.resolve_left htx
    rw [if_neg htx, if_neg (by omega)]

theorem credit_new {e : Executed Tx} (htx : e.txHash ∉ r.credited) (hv : 0 < e.victimAmount)
    (hle : r.paid < owed) :
    (r.credit owed e).paid = min owed (r.paid + e.victimAmount) ∧
      ((r.credit owed e).status = .settled ↔ (r.credit owed e).paid = owed) ∧
      (r.credit owed e).credited = insert e.txHash r.credited := by
  have hpos : 0 < min e.victimAmount (owed - r.paid) := by omega
  simp only [credit, if_neg htx, if_pos hpos]
  refine ⟨by omega, ?_, trivial⟩
  split_ifs with hend
  · exact iff_of_true rfl (by omega)
  · exact iff_of_false (by simp) (by omega)

section Credit

variable {s : S}

omit [DecidableEq Tx] in
theorem taken_again (hs : s ∈ slashes h) :
    taken slash (⟨r, .credit s, r'⟩ :: h) = taken slash h := by
  simp only [taken, slashes, Finset.insert_eq_of_mem hs]

omit [DecidableEq Tx] in
theorem taken_new (hs : s ∉ slashes h) :
    taken slash (⟨r, .credit s, r'⟩ :: h) = (slash s).victimAmount + taken slash h := by
  simp only [taken, slashes, Finset.sum_insert hs]

theorem Kept.credit (hk : Kept owed slash h r)
    (hh : Honest owed slash h ⟨r, .credit s, r.credit owed (slash s)⟩) :
    Kept owed slash (⟨r, .credit s, r.credit owed (slash s)⟩ :: h) (r.credit owed (slash s)) := by
  have hpaid := hk.paid
  by_cases hs : s ∈ slashes h
  · rw [credit_eq_self (hk.done s hs)]
    refine ⟨⟨by rwa [taken_again hs], hk.settled⟩, fun t ht => hk.done t ?_⟩
    rcases Finset.mem_insert.mp ht with rfl | ht
    · exact hs
    · exact ht
  by_cases hnone : (slash s).victimAmount = 0 ∨ owed ≤ r.paid
  · rw [credit_eq_self (.inr hnone)]
    refine ⟨⟨by rw [taken_new hs]; omega, hk.settled⟩, fun t ht => ?_⟩
    rcases Finset.mem_insert.mp ht with rfl | ht
    · exact .inr hnone
    · exact hk.done t ht
  · have hv : 0 < (slash s).victimAmount := by omega
    have hlt : r.paid < owed := by omega
    obtain ⟨hp, hst, hc⟩ := credit_new (r := r) (hh hs hv hlt) hv hlt
    have hall : r.paid = taken slash h := by omega
    refine ⟨⟨by rw [taken_new hs, hp, hall, Nat.add_comm], hst⟩, fun t ht => ?_⟩
    rw [hc]
    rcases Finset.mem_insert.mp ht with rfl | ht
    · exact .inl (Finset.mem_insert_self _ _)
    · rcases hk.done t ht with hdone | hdone | hdone
      · exact .inl (Finset.mem_insert_of_mem hdone)
      · exact .inr (.inl hdone)
      · exact .inr (.inr (by omega))

end Credit

end Reversal

open Reversal

variable {owed slash} {h : List (Entry (Reversal Tx) (Reversal.Act S Tx))} {r : Reversal Tx}

namespace Sample

def five : Bool → Executed Unit := fun _ => ⟨5, ()⟩

end Sample

open Sample

end Karma.Slashing
