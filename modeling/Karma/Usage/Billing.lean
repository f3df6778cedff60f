import Karma.Evm.Register
import Karma.Evm.Run

/-!
# `usage_billing` — the books of one payer for one skill

Charges and settlements are numbered in the order of their insertion, and amounts are micro-units.
-/

namespace Karma.Usage

open Evm Function

structure Charge where
  amount : ℕ := 0
  occurredAt : ℕ := 0
  settlement : Option ℕ := none

inductive Status
  | open
  | submitted
  | settled
  | failed
  deriving DecidableEq

structure Settlement where
  charges : Finset ℕ := ∅
  amount : ℕ := 0
  status : Status := .failed

/-- The counters of `UsageMeterModel`. -/
structure Meter where
  accrued : ℤ := 0
  billed : ℤ := 0
  settled : ℤ := 0

structure Terms where
  threshold : ℕ
  cap : Option ℕ

structure Book where
  charges : ℕ → Charge := fun _ => {}
  calls : ℕ := 0
  settlements : ℕ → Settlement := fun _ => {}
  bills : ℕ := 0
  meter : Meter := {}

inductive Act
  /-- `record_usage` of a request that is new. -/
  | record (units unitPrice occurredAt : ℕ) (seen : Meter)
  | settle (taken : Finset ℕ) (submits : Bool) (seen : Meter)
  /-- `reconcile_settlements`, for a row whose binding was settled. -/
  | paid (id : ℕ) (seen : Meter)
  /-- `reconcile_settlements`, for a row whose binding was slashed or cancelled. -/
  | failed (id : ℕ) (found : Finset ℕ) (seen : Meter)

def column (seen new current : ℤ) : ℤ := if new = seen then current else new

def pin (charges : ℕ → Charge) (list : Finset ℕ) (id : Option ℕ) (i : ℕ) : Charge :=
  if i ∈ list then { charges i with settlement := id } else charges i

namespace Book

def sum (b : Book) (list : Finset ℕ) : ℕ :=
  total b.calls (fun i c => if i ∈ list then c.amount else 0) b.charges

def under (b : Book) (id : Option ℕ) : Finset ℕ :=
  (Finset.Icc 1 b.calls).filter fun i => (b.charges i).settlement = id

def setStatus (b : Book) (id : ℕ) (status : Status) : ℕ → Settlement :=
  update b.settlements id { b.settlements id with status }

end Book

def Terms.allows (T : Terms) (m : Meter) (amount : ℕ) : Prop :=
  ∀ cap ∈ T.cap, m.billed + m.accrued + amount ≤ cap

instance (T : Terms) (m : Meter) (amount : ℕ) : Decidable (T.allows m amount) :=
  inferInstanceAs (Decidable (∀ _ ∈ _, _))

variable (T : Terms)

/-- **One commit.** -/
def Book.step (b : Book) : Act → Option Book
  | .record units unitPrice occurredAt seen =>
    let amount := units * unitPrice
    if 0 < units ∧ units ≤ 1000000 ∧ T.allows seen amount then
      some { b with
        charges := update b.charges (b.calls + 1) { amount, occurredAt }
        calls := b.calls + 1
        meter.accrued := column seen.accrued (seen.accrued + amount) b.meter.accrued }
    else none
  | .settle taken submits seen =>
    let amount := b.sum taken
    if taken ⊆ Finset.Icc 1 b.calls ∧ 0 < amount ∧ T.threshold ≤ amount then
      some { b with
        charges := pin b.charges taken (some (b.bills + 1))
        settlements := update b.settlements (b.bills + 1)
          ⟨taken, amount, if submits then .submitted else .open⟩
        bills := b.bills + 1
        meter.accrued := column seen.accrued (seen.accrued - amount) b.meter.accrued
        meter.billed := column seen.billed (seen.billed + amount) b.meter.billed }
    else none
  | .paid id seen =>
    let s := b.settlements id
    if 1 ≤ id ∧ id ≤ b.bills ∧ (s.status = .submitted ∨ s.status = .settled) then
      some { b with
        settlements := b.setStatus id .settled
        meter.settled := column seen.settled (seen.settled + s.amount) b.meter.settled }
    else none
  | .failed id found seen =>
    let s := b.settlements id
    if 1 ≤ id ∧ id ≤ b.bills ∧ (s.status = .submitted ∨ s.status = .failed) ∧
        b.under (some id) ⊆ found ∧ found ⊆ s.charges then
      some { b with
        charges := pin b.charges found none
        settlements := b.setStatus id .failed
        meter.billed := column seen.billed (max 0 (seen.billed - s.amount)) b.meter.billed
        meter.accrued := column seen.accrued (seen.accrued + s.amount) b.meter.accrued }
    else none

abbrev Book.Reach : List (Entry Book Act) → Book → Prop := Run (· = {}) (Book.step T)

/-! ## Balance -/

variable {T} {b b' : Book} {a : Act}

theorem total_pin (n : ℕ) (g : ℕ → ℕ → ℕ) (f : ℕ → Charge) (list : Finset ℕ) (id : Option ℕ) :
    total n (fun i c => g i c.amount) (pin f list id) = total n (fun i c => g i c.amount) f :=
  total_congr fun i _ _ => by
    unfold pin
    split <;> rfl

namespace Book

def Pinned (b : Book) (c : Charge) : Prop :=
  ∃ id ∈ c.settlement, (b.settlements id).status ≠ .failed

instance (b : Book) (c : Charge) : Decidable (b.Pinned c) :=
  inferInstanceAs (Decidable (∃ _ ∈ c.settlement, _))

def charged (b : Book) (p : Charge → Prop) [DecidablePred p] : ℕ :=
  total b.calls (fun _ c => if p c then c.amount else 0) b.charges

def billed (b : Book) (p : Status → Prop) [DecidablePred p] : ℕ :=
  total b.bills (fun _ s => if p s.status then s.amount else 0) b.settlements

abbrev unpinned (b : Book) : ℕ := b.charged (·.settlement = none)

def recorded (b : Book) : ℕ := total b.calls (fun _ c => c.amount) b.charges

def sums (b : Book) : Meter := ⟨b.unpinned, b.charged b.Pinned, b.billed (· = .settled)⟩

structure Balanced (T : Terms) (b : Book) : Prop where
  meter : b.meter = b.sums
  covered : b.meter.settled ≤ b.meter.billed
  once : ∀ i id, i ∈ (b.settlements id).charges → (b.settlements id).status ≠ .failed →
    (b.charges i).settlement = some id
  cap : ∀ cap ∈ T.cap, b.meter.billed + b.meter.accrued ≤ cap

/-- **How the tables refer to each other** while no charge is billed twice. -/
structure Linked (b : Book) : Prop where
  once : ∀ i id, i ∈ (b.settlements id).charges → (b.settlements id).status ≠ .failed →
    (b.charges i).settlement = some id
  pins : ∀ i id, (b.charges i).settlement = some id →
    i ∈ (b.settlements id).charges ∧ (b.settlements id).status ≠ .failed ∧ 1 ≤ id ∧ id ≤ b.bills
  inside : ∀ id, (b.settlements id).charges ⊆ Finset.Icc 1 b.calls
  amounts : ∀ id, (b.settlements id).amount = b.sum (b.settlements id).charges
  whole : b.unpinned + b.billed (· ≠ .failed) = b.recorded

end Book

/-- By how much the action should move the counters. -/
def Act.due (b : Book) : Act → Meter
  | .record units unitPrice _ _ => ⟨(units * unitPrice : ℕ), 0, 0⟩
  | .settle taken _ _ => ⟨-b.sum taken, b.sum taken, 0⟩
  | .paid id _ =>
    ⟨0, 0, if (b.settlements id).status = .submitted then (b.settlements id).amount else 0⟩
  | .failed id _ _ =>
    let amount := if (b.settlements id).status = .submitted then (b.settlements id).amount else 0
    ⟨amount, -amount, 0⟩

/-- The action takes no charge away from a settlement of which it does not know. -/
def Act.Respects (b : Book) : Act → Prop
  | .settle taken _ _ => ∀ i ∈ taken, (b.charges i).settlement = none
  | .failed id found _ => ∀ i ∈ found, ∀ j ∈ (b.charges i).settlement, j = id
  | _ => True

def Meter.add (m n : Meter) : Meter :=
  ⟨m.accrued + n.accrued, m.billed + n.billed, m.settled + n.settled⟩

/-- **What a request has to get right at its commit**. -/
structure Exact (T : Terms) (e : Entry Book Act) : Prop where
  respects : e.act.Respects e.pre
  due : e.post.meter = e.pre.meter.add (e.act.due e.pre)
  cap : ∀ units price at' seen, e.act = .record units price at' seen →
    T.allows e.pre.meter (units * price)

namespace Book

theorem unpinned_pin {list : Finset ℕ} (id : ℕ) (h : ∀ i ∈ list, (b.charges i).settlement = none) :
    ({ b with charges := pin b.charges list (some id) } : Book).unpinned + b.sum list
      = b.unpinned :=
  total_add fun i _ _ => by
    by_cases hi : i ∈ list
    · simp [pin, hi, h i hi]
    · simp [pin, hi]

theorem unpinned_unpin {list : Finset ℕ} {id : ℕ}
    (h : ∀ i ∈ list, (b.charges i).settlement = some id) :
    b.unpinned + b.sum list = ({ b with charges := pin b.charges list none } : Book).unpinned :=
  total_add fun i _ _ => by
    by_cases hi : i ∈ list
    · simp [pin, hi, h i hi]
    · simp [pin, hi]

theorem Linked.pinned (hl : b.Linked) : b.charged b.Pinned = b.billed (· ≠ .failed) := by
  have hsplit : b.unpinned + b.charged b.Pinned = b.recorded := by
    refine total_add fun i _ _ => ?_
    cases hi : (b.charges i).settlement with
    | none => simp [Pinned, hi]
    | some id => simp [Pinned, hi, (hl.pins i id hi).2.1]
  have := hl.whole
  omega

theorem Linked.under_eq (hl : b.Linked) {id : ℕ} (h : (b.settlements id).status ≠ .failed) :
    b.under (some id) = (b.settlements id).charges := by
  ext i
  refine ⟨fun hi => (hl.pins i id (Finset.mem_filter.mp hi).2).1, fun hi => ?_⟩
  exact Finset.mem_filter.mpr ⟨hl.inside id hi, hl.once i id hi h⟩

theorem Linked.sums_eq (hl : b.Linked) :
    b.sums = ⟨b.unpinned, b.billed (· ≠ .failed), b.billed (· = .settled)⟩ := by
  rw [sums, hl.pinned]

theorem Linked.record {amount occurredAt : ℕ} {m : Meter} (hl : b.Linked) : Linked { b with
      charges := update b.charges (b.calls + 1) { amount, occurredAt }
      calls := b.calls + 1
      meter := m } where
  once i id hi hid := by
    have hle := (Finset.mem_Icc.mp (hl.inside id hi)).2
    dsimp only
    rw [update_of_ne (by omega)]
    exact hl.once i id hi hid
  pins := (forall_update_iff b.charges fun i c => ∀ id, c.settlement = some id →
    i ∈ (b.settlements id).charges ∧ (b.settlements id).status ≠ .failed ∧ 1 ≤ id ∧
      id ≤ b.bills).mpr ⟨by rintro _ ⟨⟩, fun i _ => hl.pins i⟩
  inside id := (hl.inside id).trans (Finset.Icc_subset_Icc_right (Nat.le_succ _))
  amounts id := by
    have hout : b.calls + 1 ∉ (b.settlements id).charges :=
      fun hi => by have := (Finset.mem_Icc.mp (hl.inside id hi)).2; omega
    rw [hl.amounts id, sum, sum, total_push, if_neg hout, Nat.add_zero]
  whole := by
    have hwhole := hl.whole
    simp only [charged, billed, recorded, total_push] at hwhole ⊢
    rw [if_pos trivial]
    omega

theorem Linked.settle {taken : Finset ℕ} {submits : Bool} {m : Meter} (hl : b.Linked)
    (hin : taken ⊆ Finset.Icc 1 b.calls) (hr : ∀ i ∈ taken, (b.charges i).settlement = none) :
    Linked { b with
      charges := pin b.charges taken (some (b.bills + 1))
      settlements := update b.settlements (b.bills + 1)
        ⟨taken, b.sum taken, if submits then .submitted else .open⟩
      bills := b.bills + 1
      meter := m } where
  once i id := by
    refine (forall_update_iff b.settlements fun id s => i ∈ s.charges →
      s.status ≠ .failed → (pin b.charges taken (some (b.bills + 1)) i).settlement = some id).mpr
      ⟨fun hi _ => ?_, fun id _ hi hid => ?_⟩ id
    · rw [pin, if_pos hi]
    · have hpin := hl.once i id hi hid
      rw [pin, if_neg (fun ht => by simp [hr i ht] at hpin), hpin]
  pins i id hi := by
    by_cases ht : i ∈ taken
    · simp only [pin, if_pos ht, Option.some.injEq] at hi
      subst hi
      refine ⟨by simpa using ht, ?_, by omega, le_rfl⟩
      cases submits <;> simp
    · dsimp only at hi ⊢
      rw [pin, if_neg ht] at hi
      obtain ⟨hmem, hst, h1, hle⟩ := hl.pins i id hi
      rw [update_of_ne (by omega)]
      exact ⟨hmem, hst, h1, by omega⟩
  inside := (forall_update_iff b.settlements fun _ s => s.charges ⊆ _).mpr
    ⟨hin, fun id _ => hl.inside id⟩
  amounts id := by
    refine Eq.trans ?_ (total_pin _ (fun i x => if i ∈ _ then x else 0) _ _ _).symm
    exact (forall_update_iff b.settlements fun _ s => s.amount = b.sum s.charges).mpr
      ⟨rfl, fun id _ => hl.amounts id⟩ id
  whole := by
    have hpin : _ = b.unpinned := unpinned_pin (b.bills + 1) hr
    have hwhole := hl.whole
    have hall := total_pin b.calls (fun _ x => x) b.charges taken (some (b.bills + 1))
    have hst : (if submits then Status.submitted else .open) ≠ .failed := by cases submits <;> simp
    simp only [charged, billed, recorded, total_push] at hpin hwhole hall ⊢
    rw [if_pos hst]
    omega

section Status

variable {id : ℕ} {status : Status}

@[simp] theorem setStatus_charges (j : ℕ) :
    (b.setStatus id status j).charges = (b.settlements j).charges := by
  rcases eq_or_ne j id with rfl | hne <;> simp [setStatus, *]

@[simp] theorem setStatus_amount (j : ℕ) :
    (b.setStatus id status j).amount = (b.settlements j).amount := by
  rcases eq_or_ne j id with rfl | hne <;> simp [setStatus, *]

theorem setStatus_status (j : ℕ) :
    (b.setStatus id status j).status = if j = id then status else (b.settlements j).status := by
  rcases eq_or_ne j id with rfl | hne <;> simp [setStatus, *]

theorem billed_setStatus (status : Status) (p : Status → Prop) [DecidablePred p] (h1 : 1 ≤ id)
    (hle : id ≤ b.bills) :
    ({ b with settlements := b.setStatus id status } : Book).billed p
        + (if p (b.settlements id).status then (b.settlements id).amount else 0)
      = b.billed p + if p status then (b.settlements id).amount else 0 :=
  total_update (fun _ (s : Settlement) => if p s.status then s.amount else 0) _ h1 hle _

end Status

theorem Linked.paid {id : ℕ} {m : Meter} (hl : b.Linked) (h1 : 1 ≤ id) (hle : id ≤ b.bills)
    (hst : (b.settlements id).status ≠ .failed) :
    Linked { b with settlements := b.setStatus id .settled, meter := m } where
  once i j hi hj := by
    rw [setStatus_charges] at hi
    refine hl.once i j hi ?_
    rw [setStatus_status] at hj
    split at hj
    · exact ‹j = id› ▸ hst
    · exact hj
  pins i j hi := by
    obtain ⟨hmem, hj, hrange⟩ := hl.pins i j hi
    refine ⟨by rwa [setStatus_charges], ?_, hrange⟩
    rw [setStatus_status]
    split
    · simp
    · exact hj
  inside j := by
    rw [setStatus_charges]
    exact hl.inside j
  amounts j := by
    rw [setStatus_charges, setStatus_amount]
    exact hl.amounts j
  whole := by
    have hbilled := billed_setStatus .settled (· ≠ .failed) h1 hle
    have hwhole := hl.whole
    rw [if_pos hst, if_pos (by simp)] at hbilled
    simp only [charged, billed, recorded] at hbilled hwhole ⊢
    omega

theorem Linked.failed {id : ℕ} {m : Meter} (hl : b.Linked) (h1 : 1 ≤ id) (hle : id ≤ b.bills)
    (hst : (b.settlements id).status ≠ .failed) :
    Linked { b with
      charges := pin b.charges (b.settlements id).charges none
      settlements := b.setStatus id .failed
      meter := m } where
  once i j hi hj := by
    rw [setStatus_charges] at hi
    rw [setStatus_status] at hj
    split at hj
    · exact absurd rfl hj
    next hne =>
      have hpin := hl.once i j hi hj
      have hout : i ∉ (b.settlements id).charges := fun hmem => by
        rw [hl.once i id hmem hst] at hpin
        exact hne (Option.some.inj hpin).symm
      dsimp only
      rw [pin, if_neg hout, hpin]
  pins i j hi := by
    dsimp only [pin] at hi
    split at hi
    · cases hi
    next hout =>
      obtain ⟨hmem, hj, hrange⟩ := hl.pins i j hi
      have hne : j ≠ id := fun h => hout (h ▸ hmem)
      rw [setStatus_charges, setStatus_status, if_neg hne]
      exact ⟨hmem, hj, hrange⟩
  inside j := by
    rw [setStatus_charges]
    exact hl.inside j
  amounts j := by
    rw [setStatus_charges, setStatus_amount]
    exact (hl.amounts j).trans (total_pin _ (fun i x => if i ∈ _ then x else 0) _ _ _).symm
  whole := by
    have hbilled := billed_setStatus .failed (· ≠ .failed) h1 hle
    have hpin : _ = Book.unpinned _ := unpinned_unpin fun i hi => hl.once i id hi hst
    have hall := total_pin b.calls (fun _ x => x) b.charges (b.settlements id).charges none
    have hwhole := hl.whole
    rw [if_pos hst, if_neg (by simp), hl.amounts id] at hbilled
    simp only [charged, billed, recorded] at hbilled hpin hall hwhole ⊢
    omega

theorem Linked.step (hl : b.Linked) (h : b.step T a = some b') (hr : a.Respects b) :
    b'.Linked ∧ b'.sums = b.sums.add (a.due b) := by
  cases a with
  | record units unitPrice occurredAt seen =>
    simp only [Book.step, guarded_iff] at h
    obtain ⟨-, rfl⟩ := h
    refine ⟨hl.record, hl.record.sums_eq.trans ?_⟩
    rw [hl.sums_eq]
    simp [Meter.add, Act.due, charged, billed, total_push]
  | settle taken submits seen =>
    simp only [Book.step, guarded_iff] at h
    obtain ⟨⟨hin, -⟩, rfl⟩ := h
    refine ⟨hl.settle hin hr, (hl.settle hin hr).sums_eq.trans ?_⟩
    have hpin : _ = b.unpinned := unpinned_pin (b.bills + 1) hr
    rw [hl.sums_eq]
    simp only [charged, billed, total_push, Meter.add, Act.due, Meter.mk.injEq] at hpin ⊢
    cases submits <;> simp <;> omega
  | paid id seen =>
    simp only [Book.step, guarded_iff] at h
    obtain ⟨⟨h1, hle, hst⟩, rfl⟩ := h
    have hnf : (b.settlements id).status ≠ .failed := by rcases hst with hst | hst <;> simp [hst]
    refine ⟨hl.paid h1 hle hnf, (hl.paid h1 hle hnf).sums_eq.trans ?_⟩
    have hall := billed_setStatus .settled (· ≠ .failed) h1 hle
    have hset := billed_setStatus .settled (· = .settled) h1 hle
    rw [hl.sums_eq]
    simp only [charged, billed, Meter.add, Act.due, Meter.mk.injEq] at hall hset ⊢
    rcases hst with hst | hst <;> simp [hst] at hall hset ⊢ <;> omega
  | failed id found seen =>
    simp only [Book.step, guarded_iff] at h
    obtain ⟨⟨h1, hle, hst, hunder, hfound⟩, rfl⟩ := h
    rcases hst with hst | hst
    · -- The first to reconcile the row gives back the charges that it lists.
      have hnf : (b.settlements id).status ≠ .failed := by simp [hst]
      obtain rfl := hfound.antisymm (hl.under_eq hnf ▸ hunder)
      refine ⟨hl.failed h1 hle hnf, (hl.failed h1 hle hnf).sums_eq.trans ?_⟩
      have hpin : _ = Book.unpinned _ := unpinned_unpin fun i hi => hl.once i id hi hnf
      have hall := billed_setStatus .failed (· ≠ .failed) h1 hle
      have hset := billed_setStatus .failed (· = .settled) h1 hle
      rw [hl.sums_eq]
      simp only [charged, billed, Meter.add, Act.due, Meter.mk.injEq, ← hl.amounts]
        at hpin hall hset ⊢
      simp [hst] at hall hset ⊢
      omega
    · -- Whoever comes later finds nothing left under the settlement.
      have hsame : pin b.charges found none = b.charges := by
        funext i
        unfold pin
        split
        next hi =>
          cases hp : (b.charges i).settlement with
          | none => rw [← hp]
          | some j => exact absurd hst (hr i hi j hp ▸ hl.pins i j hp).2.1
        · rfl
      have hstatus : b.setStatus id .failed = b.settlements := by
        rw [setStatus, ← hst, update_eq_self]
      simp only [hsame, hstatus]
      refine ⟨⟨hl.once, hl.pins, hl.inside, hl.amounts, hl.whole⟩, ?_⟩
      simp only [Act.due, hst]
      simp [Meter.add]
      rfl

theorem init_linked : Linked {} := by
  constructor <;> simp [charged, billed, recorded, sum]

theorem init_balanced : Balanced T {} := by
  constructor <;> simp [charged, billed, sums]

theorem Linked.covered (hl : b.Linked) : b.billed (· = .settled) ≤ b.charged b.Pinned := by
  rw [hl.pinned, billed, billed, total, total]
  refine Finset.sum_le_sum fun id _ => ?_
  split
  · rw [if_pos (by simp [*])]
  · exact Nat.zero_le _

theorem Balanced.step (hb : b.Balanced T) (hl : b.Linked) (h : b.step T a = some b')
    (he : Exact T ⟨b, a, b'⟩) : b'.Balanced T := by
  obtain ⟨hl', hsums⟩ := hl.step h he.respects
  have hmeter : b'.meter = b'.sums := by rw [he.due, hsums, hb.meter]
  refine ⟨hmeter, ?_, hl'.once, fun cap hcap => ?_⟩
  · rw [hmeter]
    exact Int.ofNat_le.mpr hl'.covered
  · have hfit := hb.cap cap hcap
    rw [he.due]
    cases a with
    | record units unitPrice occurredAt seen =>
      have hall := he.cap _ _ _ _ rfl cap hcap
      simp only [Meter.add, Act.due] at hall ⊢
      omega
    | settle taken submits seen | paid id seen | failed id found seen =>
      simp only [Meter.add, Act.due]; omega

theorem Linked.respects (hl : b.Linked) (h : b.step T a = some b') (hb : b'.Balanced T) :
    a.Respects b := by
  cases a with
  | record | paid => trivial
  | settle taken submits seen =>
    simp only [Book.step, guarded_iff] at h
    obtain ⟨-, rfl⟩ := h
    intro i hi
    by_contra hp
    obtain ⟨j, hj⟩ := Option.ne_none_iff_exists'.mp hp
    obtain ⟨hmem, hst, -, hle⟩ := hl.pins i j hj
    have hne : j ≠ b.bills + 1 := by omega
    have hpin := hb.once i j (by simpa [hne] using hmem) (by simpa [hne] using hst)
    simp only [pin, if_pos hi, Option.some.injEq] at hpin
    exact hne hpin.symm
  | failed id found seen =>
    simp only [Book.step, guarded_iff] at h
    obtain ⟨-, rfl⟩ := h
    intro i hi j hj
    by_contra hne
    obtain ⟨hmem, hst, -⟩ := hl.pins i j hj
    have hpin := hb.once i j (by simpa using hmem) (by rwa [setStatus_status, if_neg hne])
    simp [pin, if_pos hi] at hpin

theorem Balanced.exact (hb : b.Balanced T) (hl : b.Linked) (h : b.step T a = some b')
    (hb' : b'.Balanced T) : Exact T ⟨b, a, b'⟩ := by
  have hr := hl.respects h hb'
  have hdue : b'.meter = b.meter.add (a.due b) := by
    rw [hb'.meter, (hl.step h hr).2, hb.meter]
  refine ⟨hr, hdue, ?_⟩
  rintro units price at' seen rfl cap hcap
  have hfit := hb'.cap cap hcap
  rw [hdue] at hfit
  simp only [Meter.add, Act.due] at hfit ⊢
  omega

end Book

variable {h : List (Entry Book Act)}

namespace Sample

def terms : Terms := ⟨0, some 8⟩

def race : List Act := [.record 1 5 0 {}, .record 1 5 0 {}]

def raced : Book := stateAfter (Book.step terms) race {}

end Sample

open Sample

end Karma.Usage
