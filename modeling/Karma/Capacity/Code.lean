import Mathlib.Data.Rat.Floor

/-! # The capacity ledger of a buyer

The row of `CapacityModel` and the operations on it: `services/atomic_ledger.py`,
`services/capacity_ledger.py`, `services/capacity_resolution.py`, `api/routes/capacity.py`,
`services/voucher_lifecycle.py`, `services/voucher_reaper.py`, `_credit_capacity` and
`_debit_capacity` of `services/chain/wallet_lock.py`, `_apply_capacity_delta` of
`services/chain/allowance_escrow.py` and `_release_dispute_freeze_after_revert` of
`api/routes/settlement.py`. -/

namespace Karma.Capacity

/-- The balance columns of `CapacityModel`. -/
inductive Field
  | totalLockedUsdc
  | totalBillCredits
  | availableCredits
  | reservedCredits
  | inProgressCredits
  | confirmedProgressCredits
  | disputedCredits
  | pendingSettlementCredits
  | burnedCredits
  | releasedCredits
  deriving DecidableEq, Repr

abbrev Balances := Field → ℚ

/-- The tolerance of the ledger, `1e-9`. -/
def EPSILON : ℚ := 1 / 10 ^ 9

theorem EPSILON_pos : 0 < EPSILON := by norm_num [EPSILON]

def responsibilityFields : List Field :=
  [.reservedCredits, .inProgressCredits, .confirmedProgressCredits, .disputedCredits,
    .pendingSettlementCredits]

def buckets : List Field := .availableCredits :: responsibilityFields

def responsibilityCredits (c : Balances) : ℚ :=
  c .reservedCredits + c .inProgressCredits + c .confirmedProgressCredits + c .disputedCredits
    + c .pendingSettlementCredits

def activeCredits (c : Balances) : ℚ :=
  c .availableCredits + c .reservedCredits + c .inProgressCredits + c .confirmedProgressCredits
    + c .disputedCredits + c .pendingSettlementCredits

/-- A dictionary of deltas; a column it does not name is left alone. -/
def deltas (d : List (Field × ℚ)) : Balances := fun f => (d.lookup f).getD 0

@[simp] theorem deltas_nil (f : Field) : deltas [] f = 0 := rfl

@[simp] theorem deltas_cons (g : Field) (x : ℚ) (d : List (Field × ℚ)) (f : Field) :
    deltas ((g, x) :: d) f = if f = g then x else deltas d f := by
  by_cases h : f = g
  · simp [deltas, h]
  · simp [deltas, List.lookup_cons, h, beq_false_of_ne h]

/-! ## Statements -/

/-- A condition in the `WHERE` clause. -/
inductive Guard
  | covers (f : Field) (slack need : ℚ)
  | unchanged (f : Field) (expected : ℚ)

def Guard.holds (c : Balances) : Guard → Bool
  | .covers f slack need => decide (need ≤ c f + slack)
  | .unchanged f expected => decide (c f = expected)

@[simp] theorem Guard.holds_covers {c : Balances} {f : Field} {slack need : ℚ} :
    (Guard.covers f slack need).holds c = true ↔ need ≤ c f + slack := by
  simp [Guard.holds]

def responsibilitySnapshotGuards (snapshot : Balances) : List Guard :=
  responsibilityFields.map fun f => .unchanged f (snapshot f)

/-- The `UPDATE`s of the ledger. -/
inductive Statement
  /-- Insert a row of zeros where there is none. -/
  | ensureRow
  | applyDelta (delta : Balances) (guards : List Guard) (message : String)
  | applyCapacityDelta (delta : ℚ)
  | healCapacityConservation

def capacityConservationGap (c : Balances) : Bool :=
  !(decide (|c .totalBillCredits - activeCredits c| ≤ EPSILON) &&
    decide (activeCredits c ≤ c .totalLockedUsdc + EPSILON))

/-- The mirror's write: the available credits stop at zero, and the two derived columns are computed
from the row that is met. -/
def mirrored (delta : ℚ) (c : Balances) : Balances :=
  let capped := if 0 < c .availableCredits + delta then c .availableCredits + delta else 0
  let active := capped + c .reservedCredits + c .inProgressCredits + c .confirmedProgressCredits
    + c .disputedCredits + c .pendingSettlementCredits
  let locked := c .totalLockedUsdc + delta
  fun
    | .availableCredits => capped
    | .totalBillCredits => active
    | .totalLockedUsdc => if active < locked then locked else active
    | f => c f

def healed (c : Balances) : Balances
  | .totalBillCredits => activeCredits c
  | .totalLockedUsdc =>
    if activeCredits c < c .totalLockedUsdc then c .totalLockedUsdc else activeCredits c
  | f => c f

def Statement.exec : Statement → Option Balances → Option (Option Balances)
  | .ensureRow, none => some (some 0)
  | .ensureRow, some _ => none
  | .applyDelta d guards _, some c => if guards.all (·.holds c) then some (some (c + d)) else none
  | .applyCapacityDelta delta, some c => some (some (mirrored delta c))
  | .healCapacityConservation, some c =>
    if capacityConservationGap c then some (some (healed c)) else none
  | _, none => none

theorem Statement.exec_applyDelta {d c : Balances} {guards : List Guard} {m : String}
    {v : Option Balances} (h : (Statement.applyDelta d guards m).exec (some c) = some v) :
    (∀ g ∈ guards, g.holds c = true) ∧ v = some (c + d) := by
  rw [Statement.exec] at h
  split_ifs at h with hguards
  exact ⟨List.all_eq_true.mp hguards, (Option.some.inj h).symm⟩

/-! ## Operations -/

inductive Refusal
  | http (status : ℕ) (detail : String)
  | walletLock (detail : String)
  deriving DecidableEq

structure Settings where
  escrowMinAmount : ℚ
  escrowMaxAmount : ℚ

/-- A voucher: every way of writing one refuses an amount that is not positive. -/
structure Voucher where
  billCreditAmount : ℚ
  pos : 0 < billCreditAmount

def credit (amount : ℚ) (message : String) : Statement :=
  .applyDelta (deltas [(.totalLockedUsdc, amount), (.totalBillCredits, amount),
    (.availableCredits, amount)]) [] message

/-- The `UPDATE` that takes `amount` out of the ledger, with the tolerance its caller allows. -/
def debit (amount slack : ℚ) (snapshot : Balances) (message : String) : Statement :=
  .applyDelta (deltas [(.availableCredits, -amount), (.totalBillCredits, -amount),
      (.totalLockedUsdc, -amount), (.releasedCredits, amount)])
    ([.covers .availableCredits slack amount, .covers .totalBillCredits slack amount,
      .covers .totalLockedUsdc slack amount] ++ responsibilitySnapshotGuards snapshot) message

def move (source target : Field) (amount : ℚ) (message : String) : Statement :=
  .applyDelta (deltas [(source, -amount), (target, amount)]) [.covers source EPSILON amount] message

/-- The `UPDATE` that takes the escrow of a task out of `bucket` and out of the ledger. -/
def resolve (bucket : Field) (escrow settled refunded : ℚ) (message : String) : Statement :=
  .applyDelta (deltas [(.burnedCredits, settled), (.releasedCredits, refunded),
      (.totalBillCredits, -escrow), (.totalLockedUsdc, -escrow), (bucket, -escrow)])
    [.covers .totalBillCredits EPSILON escrow, .covers .totalLockedUsdc EPSILON escrow,
      .covers bucket EPSILON escrow] message

def lockUsdc (cfg : Settings) (amount : ℚ) (_seen : Option Balances) :
    Except Refusal (List Statement) :=
  if amount ≤ 0 then .error (.http 422 "Input should be greater than 0")
  else if amount < cfg.escrowMinAmount then
    .error (.http 422 s!"amount below minimum {cfg.escrowMinAmount} USDC")
  else if cfg.escrowMaxAmount < amount then
    .error (.http 422 s!"amount exceeds maximum {cfg.escrowMaxAmount} USDC")
  else .ok [.ensureRow, credit amount "capacity row missing; lock was not credited"]

def assertCanReleaseLockedFunds (c : Balances) (amount : ℚ) : Except String Unit :=
  if amount ≤ 0 then .error "release amount must be > 0"
  else if c .availableCredits + EPSILON < amount then .error "insufficient available credits"
  else if EPSILON < responsibilityCredits c then
    .error ("cannot release locked funds while bill credits hold active responsibility " ++
      "(reserved, in_progress, confirmed, disputed, or pending_settlement)")
  else .ok ()

def releaseUnused (identityId : String) (amount : ℚ) :
    Option Balances → Except Refusal (List Statement)
  | none => .error (.http 404 s!"Capacity for {identityId} not found")
  | some c =>
    match assertCanReleaseLockedFunds c amount with
    | .error detail => .error (.http 409 detail)
    | .ok () =>
      .ok [debit amount 0 c "release rejected: insufficient balance or concurrent change"]

def creditCapacity (amount : ℚ) (_seen : Option Balances) : Except Refusal (List Statement) :=
  if amount ≤ 0 then .error (.walletLock "bill amount is zero — nothing to credit")
  else .ok [.ensureRow, credit amount "capacity row missing; on-chain lock was not credited"]

def debitCapacity (amount : ℚ) (seen : Option Balances) : Except Refusal (List Statement) :=
  match assertCanReleaseLockedFunds (seen.getD 0) amount with
  | .error detail => .error (.walletLock detail)
  | .ok () => .ok [.ensureRow, debit amount EPSILON (seen.getD 0)
      "unlock rejected: insufficient balance or concurrent change"]

def acceptVoucherRow (v : Voucher) : Option Balances → Except Refusal (List Statement)
  | none => .error (.http 409 "insufficient buyer available credits")
  | some c =>
    if c .availableCredits < v.billCreditAmount then
      .error (.http 409 "insufficient buyer available credits")
    else .ok [move .availableCredits .reservedCredits v.billCreditAmount
      "insufficient buyer available credits", .healCapacityConservation]

def round6 (x : ℚ) : ℚ :=
  let y : ℚ := x * 10 ^ 6
  let n : ℤ := ⌊y⌋
  let up := if y - n < 1 / 2 then false else if 1 / 2 < y - n then true else n % 2 != 0
  ((if up then n + 1 else n : ℤ) : ℚ) / 10 ^ 6

def releaseReservation (v : Voucher) (_seen : Option Balances) : Except Refusal (List Statement) :=
  if round6 v.billCreditAmount ≤ 0 then .ok []
  else .ok [move .reservedCredits .availableCredits (round6 v.billCreditAmount)
    "reserved credits no longer cover this voucher", .healCapacityConservation]

def restoreLeakedReservations (held : ℚ) : Option Balances → Except Refusal (List Statement)
  | none => .ok []
  | some c =>
    if round6 (c .reservedCredits - held) ≤ EPSILON then .ok []
    else .ok [move .reservedCredits .availableCredits (round6 (c .reservedCredits - held))
      "reserved credits are not held by any live voucher", .healCapacityConservation]

def freeze (escrow : ℚ) : Statement :=
  move .reservedCredits .disputedCredits escrow
    "insufficient reserved credits to freeze for dispute"

def moveReservedToDisputed (escrow : ℚ) : Option Balances → Except Refusal (List Statement)
  | none => .error (.http 409 "buyer has no capacity ledger; cannot open dispute")
  | some c =>
    if c .reservedCredits + EPSILON < escrow then
      .error (.http 409 "insufficient reserved credits to freeze for dispute")
    else .ok [freeze escrow, .healCapacityConservation]

/-- A buyer without a row has nothing to resolve. -/
def applyCapacityResolution (escrow settled refunded : ℚ) :
    Option Balances → Except Refusal (List Statement)
  | none => .ok []
  | some c =>
    if c .totalBillCredits + EPSILON < escrow then
      .error (.http 409 "capacity total_bill_credits lower than settlement escrow amount")
    else if c .totalLockedUsdc + EPSILON < escrow then
      .error (.http 409 "capacity total_locked_usdc lower than settlement escrow amount")
    else .ok [resolve .disputedCredits escrow settled refunded "",
      resolve .reservedCredits escrow settled refunded
        "capacity: neither disputed_credits nor reserved_credits cover escrow amount",
      .healCapacityConservation]

/-- What `release_dispute_freeze` takes out of a bucket that holds `disputed`. -/
def heldFreeze (escrow disputed : ℚ) : ℚ := min (max 0 escrow) (max 0 disputed)

def releaseDisputeFreeze (escrow : ℚ) (settled : Bool) :
    Option Balances → Except Refusal (List Statement)
  | none => .ok []
  | some c =>
    let held := heldFreeze escrow (c .disputedCredits)
    if held ≤ EPSILON then .ok []
    else .ok [resolve .disputedCredits held (if settled then held else 0)
      (if settled then 0 else held) "disputed freeze changed concurrently; retry the release"]

def releaseDisputeFreezeAfterRevert (escrow : ℚ) (_seen : Option Balances) :
    Except Refusal (List Statement) :=
  if escrow ≤ EPSILON then .ok []
  else .ok [move .disputedCredits .reservedCredits escrow
    "dispute freeze changed concurrently; retry"]

def applyCapacityDelta (delta : ℚ) (_seen : Option Balances) : Except Refusal (List Statement) :=
  if |delta| < EPSILON then .ok [] else .ok [.applyCapacityDelta delta]

inductive Request
  | lockUsdc (amount : ℚ)
  | releaseUnused (identityId : String) (amount : ℚ)
  | creditCapacity (amount : ℚ)
  | debitCapacity (amount : ℚ)
  | acceptVoucherRow (v : Voucher)
  | releaseReservation (v : Voucher)
  | restoreLeakedReservations (held : ℚ)
  | moveReservedToDisputed (escrow : ℚ)
  | applyCapacityResolution (escrow settled refunded : ℚ)
  | releaseDisputeFreeze (escrow : ℚ) (settled : Bool)
  | releaseDisputeFreezeAfterRevert (escrow : ℚ)
  | applyCapacityDelta (delta : ℚ)

/-- **The statements an operation issues**, by the row it saw. -/
def prepare (cfg : Settings) : Request → Option Balances → Except Refusal (List Statement)
  | .lockUsdc amount => Capacity.lockUsdc cfg amount
  | .releaseUnused identityId amount => Capacity.releaseUnused identityId amount
  | .creditCapacity amount => Capacity.creditCapacity amount
  | .debitCapacity amount => Capacity.debitCapacity amount
  | .acceptVoucherRow v => Capacity.acceptVoucherRow v
  | .releaseReservation v => Capacity.releaseReservation v
  | .restoreLeakedReservations held => Capacity.restoreLeakedReservations held
  | .moveReservedToDisputed escrow => Capacity.moveReservedToDisputed escrow
  | .applyCapacityResolution escrow settled refunded =>
    Capacity.applyCapacityResolution escrow settled refunded
  | .releaseDisputeFreeze escrow settled => Capacity.releaseDisputeFreeze escrow settled
  | .releaseDisputeFreezeAfterRevert escrow => Capacity.releaseDisputeFreezeAfterRevert escrow
  | .applyCapacityDelta delta => Capacity.applyCapacityDelta delta

end Karma.Capacity
