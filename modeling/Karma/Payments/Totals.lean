import Mathlib.Algebra.BigOperators.Group.List.Basic
import Mathlib.Algebra.Group.Prod
import Mathlib.Algebra.Order.Ring.Nat
import Mathlib.Data.Finset.Insert

/-! # `payment_ledger` — the totals of an identity

Amounts are micro-units (`assert_token_precision`), so that no rounding takes place. A table is a
list, the newest row first. -/

namespace Karma.Payments

inductive Phase
  | active
  | confirm
  | dispute
  | closed
  deriving DecidableEq

structure Entry where
  payer : Bool
  amount : ℕ
  settled : ℕ
  phase : Phase

inductive SettlementStatus
  | draft
  | pending
  | accepted
  | inProgress
  | progressConfirmed
  | progressSubmitted
  | delivered
  | disputed
  | arbitrated
  | settled
  | refunded
  | cancelled
  /-- Any status that `SETTLEMENT_PHASE` does not have. -/
  | other
  deriving DecidableEq

def SettlementStatus.phase : SettlementStatus → Phase
  | .draft | .pending | .accepted | .inProgress | .progressConfirmed | .other => .active
  | .progressSubmitted | .delivered => .confirm
  | .disputed | .arbitrated => .dispute
  | .settled | .refunded | .cancelled => .closed

inductive BindingState
  | none
  | active
  | finalizing
  | disputed
  | settled
  | slashed
  | cancelled
  deriving DecidableEq

def BindingState.phase : BindingState → Phase
  | .none | .active => .active
  | .finalizing => .confirm
  | .disputed => .dispute
  | .settled | .slashed | .cancelled => .closed

inductive VoucherStatus
  | created
  | accepted
  | used
  | expired
  | cancelled
  | rejected
  deriving DecidableEq

def VoucherStatus.phase : VoucherStatus → Phase
  | .created => .active
  | .accepted => .confirm
  | .used | .expired | .cancelled | .rejected => .closed

variable {Id : Type} [DecidableEq Id]

structure Settlement (Id : Type) where
  client : Id
  worker : Option Id
  escrow : ℕ
  released : ℕ
  status : SettlementStatus

structure Paper (Id σ : Type) where
  buyer : Id
  seller : Option Id
  amount : ℕ
  status : σ

structure Commit where
  amount : ℕ
  spent : ℕ
  isOpen : Bool

structure Tables (Id : Type) where
  settlements : List (Settlement Id)
  bindings : List (Paper Id BindingState)
  vouchers : List (Paper Id VoucherStatus)
  commits : List Commit

variable (me : Id) (agents : List Id)

def parties : List Id := me :: agents

def settlementEntry (r : Settlement Id) : Entry :=
  ⟨r.client = me, r.escrow, if r.status = .settled then r.released else 0, r.status.phase⟩

def bindingEntry (r : Paper Id BindingState) : Entry :=
  ⟨r.buyer = me, r.amount, if r.status = .settled then r.amount else 0, r.status.phase⟩

def voucherEntry (r : Paper Id VoucherStatus) : Entry :=
  ⟨r.buyer = me, r.amount, if r.status = .used then r.amount else 0, r.status.phase⟩

def lockEntry (r : Commit) : Entry :=
  ⟨true, r.amount, r.spent, if r.isOpen then .active else .closed⟩

def readRows {α : Type} (isMine : α → Bool) (rows : List α) : List α :=
  (rows.filter isMine).take 1000

def Settlement.isMine (r : Settlement Id) : Bool :=
  r.client ∈ parties me agents || r.worker.any (· ∈ parties me agents)

def Paper.isMine {σ : Type} (r : Paper Id σ) : Bool :=
  r.buyer ∈ parties me agents || r.seller.any (· ∈ parties me agents)

def buildLedger (t : Tables Id) : List Entry :=
  (readRows (·.isMine me agents) t.settlements).map (settlementEntry me) ++
    (readRows (·.isMine me agents) t.bindings).map (bindingEntry me) ++
    (readRows (·.isMine me agents) t.vouchers).map (voucherEntry me) ++
    (t.commits.take 1000).map lockEntry

structure Summary where
  income : ℕ := 0
  expense : ℕ := 0
  pendingIncome : ℕ := 0
  inFlight : ℕ := 0

def Summary.add (s : Summary) (e : Entry) : Summary :=
  let value := if e.settled = 0 then e.amount else e.settled
  match e.phase, e.payer with
  | .closed, false => { s with income := s.income + value }
  | .closed, true => { s with expense := s.expense + value }
  | _, false => { s with pendingIncome := s.pendingIncome + e.amount }
  | _, true => { s with inFlight := s.inFlight + e.amount }

def summarize (entries : List Entry) : Summary := entries.foldl Summary.add {}

/-! ## What is counted -/

def Entry.shown (e : Entry) : ℕ × ℕ :=
  let value := if e.phase = .closed then if e.settled = 0 then e.amount else e.settled else 0
  if e.payer then (0, value) else (value, 0)

theorem foldl_add (entries : List Entry) (s : Summary) :
    ((entries.foldl Summary.add s).income, (entries.foldl Summary.add s).expense) =
      (s.income, s.expense) + (entries.map Entry.shown).sum := by
  induction entries generalizing s with
  | nil => simp
  | cons e entries ih =>
    rw [List.foldl_cons, ih, List.map_cons, List.sum_cons, ← add_assoc]
    congr 1
    obtain ⟨payer, amount, settled, phase⟩ := e
    cases phase <;> cases payer <;> simp [Summary.add, Entry.shown]

/-- What the settlement really released, to the income and expense of the identity. -/
def Settlement.due (r : Settlement Id) : ℕ × ℕ :=
  let paid := if r.status = .settled then r.released else 0
  (if r.worker.any (· ∈ parties me agents) then paid else 0,
    if r.client ∈ parties me agents then paid else 0)

/-- The rows of the identity that a query leaves out. -/
def missedRows {α : Type} (isMine : α → Bool) (rows : List α) : List α :=
  (rows.filter isMine).drop 1000

structure CountsOnce (t : Tables Id) : Prop where
  totals : ((summarize (buildLedger me agents t)).income,
    (summarize (buildLedger me agents t)).expense) = (t.settlements.map (·.due me agents)).sum
  settlements : ∀ r ∈ t.settlements, r.isMine me agents →
    (settlementEntry me r).shown = r.due me agents
  bindings : ∀ r ∈ t.bindings, r.isMine me agents → (bindingEntry me r).shown = 0
  vouchers : ∀ r ∈ t.vouchers, r.isMine me agents → (voucherEntry me r).shown = 0

structure Settlement.Plain (r : Settlement Id) : Prop where
  unpaid : r.status = .refunded ∨ r.status = .cancelled ∨ r.status = .settled ∧ r.released = 0 →
    r.escrow = 0
  sides : r.status = .settled → r.released ≠ 0 →
    r.client = me ∧ ¬ r.worker.any (· ∈ parties me agents) ∨
      r.client ∉ parties me agents ∧ r.worker.any (· ∈ parties me agents)

structure Plain (t : Tables Id) : Prop where
  settlements : ∀ r ∈ t.settlements, r.isMine me agents → r.Plain me agents
  bindings : ∀ r ∈ t.bindings, r.isMine me agents → r.status.phase = .closed → r.amount = 0
  vouchers : ∀ r ∈ t.vouchers, r.isMine me agents → r.status.phase = .closed → r.amount = 0
  missed : ((missedRows (·.isMine me agents) t.settlements).map (·.due me agents)).sum =
    ((t.commits.take 1000).map fun r => (lockEntry r).shown).sum

variable {me agents} {t : Tables Id}

theorem shown_eq_zero_iff {payer : Bool} {amount settled : ℕ} {phase : Phase}
    (h : settled = amount ∨ settled = 0) :
    (⟨payer, amount, settled, phase⟩ : Entry).shown = 0 ↔ (phase = .closed → amount = 0) := by
  cases payer <;> simp only [Entry.shown] <;> split_ifs <;> simp_all

theorem binding_shown_iff {r : Paper Id BindingState} :
    (bindingEntry me r).shown = 0 ↔ (r.status.phase = .closed → r.amount = 0) :=
  shown_eq_zero_iff (by split_ifs <;> simp)

theorem voucher_shown_iff {r : Paper Id VoucherStatus} :
    (voucherEntry me r).shown = 0 ↔ (r.status.phase = .closed → r.amount = 0) :=
  shown_eq_zero_iff (by split_ifs <;> simp)

theorem settlement_shown_iff {r : Settlement Id} :
    (settlementEntry me r).shown = r.due me agents ↔ r.Plain me agents := by
  by_cases hst : r.status = .settled
  · by_cases hrel : r.released = 0
    · -- A release of nothing is shown as the escrow.
      have hdue : r.due me agents = 0 := by simp [Settlement.due, hst, hrel]
      rw [hdue, settlementEntry, shown_eq_zero_iff (.inr (by simp [hst, hrel]))]
      exact ⟨fun h => ⟨fun _ => h (by rw [hst]; rfl), fun _ h => absurd hrel h⟩,
        fun h _ => h.unpaid (.inr (.inr ⟨hst, hrel⟩))⟩
    · have hplain : r.Plain me agents ↔ (r.client = me ∧ ¬ r.worker.any (· ∈ parties me agents) ∨
          r.client ∉ parties me agents ∧ r.worker.any (· ∈ parties me agents)) :=
        ⟨fun h => h.sides hst hrel, fun h => ⟨by simp [hst, hrel], fun _ _ => h⟩⟩
      rw [hplain]
      by_cases hme : r.client = me
      · have hin : me ∈ parties me agents := .head _
        simp [settlementEntry, Entry.shown, Settlement.due, hst, hrel, hme, hin,
          SettlementStatus.phase, Ne.symm hrel]
      · simp [settlementEntry, Entry.shown, Settlement.due, hst, hrel, hme,
          SettlementStatus.phase, Ne.symm hrel, and_comm]
  · have hdue : r.due me agents = 0 := by simp [Settlement.due, hst]
    rw [hdue, settlementEntry, shown_eq_zero_iff (.inr (if_neg hst))]
    refine ⟨fun h => ⟨fun hend => h ?_, fun h => absurd h hst⟩, fun h hclosed => h.unpaid ?_⟩
    · rcases hend with hend | hend | hend
      · rw [hend]; rfl
      · rw [hend]; rfl
      · exact absurd hend.1 hst
    · cases hs : r.status <;> simp_all [SettlementStatus.phase]

theorem sum_map_eq_zero {α : Type} {f : α → ℕ × ℕ} {l : List α} (h : ∀ r ∈ l, f r = 0) :
    (l.map f).sum = 0 := by
  rw [List.map_congr_left h]
  simp

theorem sum_due_isMine (l : List (Settlement Id)) : (l.map (·.due me agents)).sum =
      ((l.filter (·.isMine me agents)).map (·.due me agents)).sum := by
  induction l with
  | nil => rfl
  | cons r l ih =>
    rw [List.map_cons, List.sum_cons, ih, List.filter_cons]
    split_ifs with hmine
    · rw [List.map_cons, List.sum_cons]
    · have hdue : r.due me agents = 0 := by
        simp only [Settlement.isMine, Bool.or_eq_true, not_or, decide_eq_true_iff] at hmine
        simp [Settlement.due, hmine]
      rw [hdue, zero_add]

theorem summarize_eq (hb : ∀ r ∈ t.bindings, r.isMine me agents → (bindingEntry me r).shown = 0)
    (hv : ∀ r ∈ t.vouchers, r.isMine me agents → (voucherEntry me r).shown = 0)
    (hs : ∀ r ∈ t.settlements, r.isMine me agents →
      (settlementEntry me r).shown = r.due me agents) :
    ((summarize (buildLedger me agents t)).income, (summarize (buildLedger me agents t)).expense) =
      ((readRows (·.isMine me agents) t.settlements).map (·.due me agents)).sum +
        ((t.commits.take 1000).map fun r => (lockEntry r).shown).sum := by
  have hread : ∀ {α : Type} {p : α → Bool} {l : List α} {P : α → Prop},
      (∀ r ∈ l, p r → P r) → ∀ r ∈ readRows p l, P r := fun h r hr => by
    obtain ⟨hmem, hp⟩ := List.mem_filter.mp (List.mem_of_mem_take hr)
    exact h r hmem hp
  rw [summarize, foldl_add]
  simp only [buildLedger, List.map_append, List.map_map, List.sum_append, Function.comp_def]
  rw [sum_map_eq_zero (hread hb), sum_map_eq_zero (hread hv), List.map_congr_left (hread hs),
    add_zero, add_zero]
  exact zero_add _

/-- **The totals count real money once** if and only if the tables are plain. -/
theorem totals_count_once_iff : CountsOnce me agents t ↔ Plain me agents t := by
  have hall : (t.settlements.map (·.due me agents)).sum =
      ((readRows (·.isMine me agents) t.settlements).map (·.due me agents)).sum +
        ((missedRows (·.isMine me agents) t.settlements).map (·.due me agents)).sum := by
    rw [sum_due_isMine, ← List.sum_append, ← List.map_append, readRows, missedRows,
      List.take_append_drop]
  constructor
  · intro h
    have hsum := h.totals
    rw [summarize_eq h.bindings h.vouchers h.settlements, hall] at hsum
    exact ⟨fun r hr hm => settlement_shown_iff.mp (h.settlements r hr hm),
      fun r hr hm => binding_shown_iff.mp (h.bindings r hr hm),
      fun r hr hm => voucher_shown_iff.mp (h.vouchers r hr hm),
      (add_left_cancel hsum).symm⟩
  · intro h
    refine ⟨?_, fun r hr hm => settlement_shown_iff.mpr (h.settlements r hr hm),
      fun r hr hm => binding_shown_iff.mpr (h.bindings r hr hm),
      fun r hr hm => voucher_shown_iff.mpr (h.vouchers r hr hm)⟩
    rw [summarize_eq (fun r hr hm => binding_shown_iff.mpr (h.bindings r hr hm))
      (fun r hr hm => voucher_shown_iff.mpr (h.vouchers r hr hm))
      (fun r hr hm => settlement_shown_iff.mpr (h.settlements r hr hm)), hall, h.missed]

namespace Sample

def tables : Tables Bool :=
  ⟨[⟨false, some true, 5, 5, .settled⟩], [], [⟨false, some true, 5, .used⟩], []⟩

end Sample

open Sample

/-- Five were released, and ten are shown as income. -/
theorem order_counted_twice : (summarize (buildLedger true [] tables)).income = 10 ∧
    (tables.settlements.map (·.due true [])).sum = (5, 0) ∧ ¬ CountsOnce true [] tables :=
  ⟨by decide +kernel, by decide +kernel, fun h =>
    absurd (h.vouchers _ (.head _) (by decide +kernel)) (by decide +kernel)⟩

end Karma.Payments
