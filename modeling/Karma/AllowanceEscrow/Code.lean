import Karma.AllowanceEscrow.State
import Karma.Evm.Run

/-! # `KarmaAllowanceEscrow` — the contract's functions

A transcription of the contract in the order of the source. -/

namespace Karma.AllowanceEscrow

open Evm Function

/-! ## Internal helpers -/

def CanAct (bill : Bill) (who : Address) : Prop :=
  who = bill.owner ∨ (bill.operator ≠ 0 ∧ who = bill.operator)

instance (bill : Bill) (who : Address) : Decidable (CanAct bill who) := by
  unfold CanAct; infer_instance

def requireOpenBill (billId : ℕ) : M Bill := do
  let w ← Tx.get
  let bill := w.bills billId
  Tx.revertIf (bill.billId = 0 ∨ bill.state ≠ .opened) (.wrongBillState billId)
  pure bill

def requireBinding (bindingId : ℕ) : M Binding := do
  let w ← Tx.get
  let b := w.bindings bindingId
  Tx.revertIf (b.bindingId = 0 ∨ b.state = .none) (.unknownBinding bindingId)
  pure b

def pull (D : Deployment) (token source target : Address) (amount : ℕ) : M Unit := do
  let w ← Tx.get
  Tx.revertIf ((w.tokens token).allowance source D.self < amount) (.insufficientAllowance 0 amount)
  let T ← Tx.ofOption .pullFailed ((w.tokens token).transferFrom D.self source target amount)
  Tx.revertIf (T.balanceOf D.self ≠ 0) .custodyViolation
  Tx.set { w with
    tokens := update w.tokens token T,
    pulls := w.pulls ++ [⟨token, source, target, amount⟩] }

/-! ## Configuration -/

def onlyAdmin (D : Deployment) (sender : Address) : M Unit :=
  Tx.revertIf (sender ≠ D.admin) (.require "not admin")

def notFrozen : M Unit := do
  let w ← Tx.get
  Tx.revertIf (w.frozen = true) (.require "frozen")

def setTokenAllowed (D : Deployment) (sender token : Address) (allowed : Bool) : M Unit := do
  onlyAdmin D sender
  Tx.revertIf (token = 0) .zeroAddress
  Tx.modify fun w => { w with tokenAllowed := update w.tokenAllowed token allowed }
  emit (.tokenAllowedUpdated token allowed)

def setDisputeWindow (D : Deployment) (sender : Address) (seconds : ℕ) : M Unit := do
  onlyAdmin D sender
  Tx.modify fun w => { w with disputeWindowSeconds := seconds }
  emit (.disputeWindowUpdated seconds)

def setSettleDelay (D : Deployment) (sender : Address) (seconds : ℕ) : M Unit := do
  onlyAdmin D sender
  Tx.modify fun w => { w with settleDelaySeconds := seconds }
  emit (.settleDelayUpdated seconds)

def setDisputeResolver (D : Deployment) (sender resolver : Address) : M Unit := do
  onlyAdmin D sender
  Tx.revertIf (resolver = 0) .zeroAddress
  Tx.modify fun w => { w with disputeResolver := resolver }
  emit (.disputeResolverUpdated resolver)

def setFrozen (D : Deployment) (sender : Address) (value : Bool) : M Unit := do
  onlyAdmin D sender
  Tx.modify fun w => { w with frozen := value }
  emit (.frozen value)

/-- Record `amount` of `token` as a responsibility backed by the caller's wallet. -/
def commit (D : Deployment) (sender token : Address) (amount : ℕ) (operator : Address) : M ℕ := do
  notFrozen
  let w ← Tx.get
  Tx.revertIf (w.tokenAllowed token = false) .tokenNotAllowed
  Tx.revertIf (amount = 0) .zeroAmount
  -- the allowance is looked at once, here; nothing keeps the owner from lowering it later
  let held := (w.tokens token).allowance sender D.self
  Tx.revertIf (held < amount) (.insufficientAllowance held amount)
  let billId := w.billCounter + 1
  Tx.set { w with
    billCounter := billId,
    bills := update w.bills billId
      { billId, owner := sender, operator, token, amount, state := .opened, createdAt := w.now },
    ownerBills := update w.ownerBills sender (w.ownerBills sender ++ [billId]) }
  emit (.billCommitted billId sender operator token amount)
  pure billId

def setOperator (sender : Address) (billId : ℕ) (operator : Address) : M Unit := do
  let bill ← requireOpenBill billId
  Tx.revertIf (bill.owner ≠ sender) (.notBillOwner billId)
  Tx.modify fun w => w.setBill billId { bill with operator }
  emit (.billOperatorSet billId operator)

def revoke (sender : Address) (billId : ℕ) : M Unit := do
  let bill ← requireOpenBill billId
  Tx.revertIf (bill.owner ≠ sender) (.notBillOwner billId)
  Tx.revertIf (bill.reserved ≠ 0) (.reservationActive bill.reserved)
  Tx.modify fun w => w.setBill billId { bill with state := .closed }
  let unspent ← Tx.checkedSub .underflow bill.amount bill.spent
  emit (.billRevoked billId sender unspent)

/-! ## Bindings -/

def availableOf (bill : Bill) : M ℕ := do
  let rest ← Tx.checkedSub .underflow bill.amount bill.reserved
  Tx.checkedSub .underflow rest bill.spent

def bind (sender : Address) (buyerBillId sellerBillId : ℕ) (scopeHash : Bytes32)
    (amount stakeAmount : ℕ) : M ℕ := do
  notFrozen
  let w ← Tx.get
  let buyerBill := w.bills buyerBillId
  let sellerBill := w.bills sellerBillId
  Tx.revertIf (buyerBill.state ≠ .opened) (.wrongBillState buyerBillId)
  Tx.revertIf (sellerBill.state ≠ .opened) (.wrongBillState sellerBillId)
  -- only the buyer's side acts; the seller's bill is bound without a word of its owner
  Tx.revertIf (¬ CanAct buyerBill sender) (.notBillOperator buyerBillId)
  Tx.revertIf (buyerBill.token ≠ sellerBill.token) .tokenMismatch
  Tx.revertIf (buyerBill.owner = sellerBill.owner) .sameOwner
  Tx.revertIf (amount = 0) .zeroAmount
  Tx.revertIf (stakeAmount = 0) .zeroAmount
  let buyerAvailable ← availableOf buyerBill
  Tx.revertIf (buyerAvailable < amount) (.insufficientCommitment buyerAvailable amount)
  let sellerAvailable ← availableOf sellerBill
  Tx.revertIf (sellerAvailable < stakeAmount) (.insufficientCommitment sellerAvailable stakeAmount)
  let buyerReserved ← Tx.checkedAdd .overflow buyerBill.reserved amount
  Tx.modify fun w => w.setBill buyerBillId { buyerBill with reserved := buyerReserved }
  let sellerReserved ← Tx.checkedAdd .overflow sellerBill.reserved stakeAmount
  Tx.modify fun w => w.setBill sellerBillId { sellerBill with reserved := sellerReserved }
  let bindingId := w.bindingCounter + 1
  let settleAfter ← Tx.checkedAdd .overflow w.now w.settleDelaySeconds
  Tx.modify fun w => { w with
    bindingCounter := bindingId,
    bindings := update w.bindings bindingId
      { bindingId, buyerBillId, sellerBillId, scopeHash, amount, stakeAmount,
        state := .active, createdAt := w.now, settleAfter } }
  emit (.billsBound bindingId buyerBillId sellerBillId scopeHash amount stakeAmount)
  pure bindingId

def unreserve (billId amount : ℕ) : M Unit := do
  let w ← Tx.get
  let bill := w.bills billId
  let reserved ← Tx.checkedSub .underflow bill.reserved amount
  Tx.set (w.setBill billId { bill with reserved })

def spendReserved (billId amount : ℕ) : M Unit := do
  unreserve billId amount
  let w ← Tx.get
  let bill := w.bills billId
  let spent ← Tx.checkedAdd .overflow bill.spent amount
  Tx.set (w.setBill billId
    { bill with spent, state := if bill.amount ≤ spent then .closed else bill.state })

/-- Release both reservations: either party while the binding is active, only the resolver while it
is disputed. -/
def cancelBinding (sender : Address) (bindingId : ℕ) : M Unit := do
  let b ← requireBinding bindingId
  let w ← Tx.get
  if b.state = .disputed then
    Tx.revertIf (sender ≠ w.disputeResolver) (.wrongBindingState bindingId)
  else
    Tx.revertIf (b.state ≠ .active) (.wrongBindingState bindingId)
  Tx.revertIf (¬ CanAct (w.bills b.buyerBillId) sender ∧ ¬ CanAct (w.bills b.sellerBillId) sender ∧
    sender ≠ w.disputeResolver) .notSettlementParty
  unreserve b.buyerBillId b.amount
  unreserve b.sellerBillId b.stakeAmount
  Tx.modify fun w => w.setBinding bindingId { b with state := .cancelled, closedAt := w.now }
  emit (.bindingCancelled bindingId)

def markDisputed (sender : Address) (bindingId : ℕ) : M Unit := do
  let b ← requireBinding bindingId
  let w ← Tx.get
  Tx.revertIf (b.state ≠ .active) (.wrongBindingState bindingId)
  Tx.revertIf (sender ≠ w.disputeResolver) .notResolver
  Tx.set (w.setBinding bindingId { b with state := .disputed })
  emit (.bindingDisputed bindingId w.now)

/-- The buyer's own "pay the seller" mark, on an open payout window. -/
def buyerConfirm (sender : Address) (bindingId : ℕ) : M Unit := do
  let b ← requireBinding bindingId
  let w ← Tx.get
  Tx.revertIf (b.state ≠ .finalizing) (.wrongBindingState bindingId)
  Tx.revertIf (b.slashArmed = true) (.wrongBindingState bindingId)
  Tx.revertIf (¬ CanAct (w.bills b.buyerBillId) sender) .notSettlementParty
  Tx.revertIf (b.buyerConfirmed = true) (.alreadyConfirmed bindingId)
  Tx.set (w.setBinding bindingId { b with buyerConfirmed := true, confirmedAt := w.now })
  emit (.buyerConfirmed bindingId sender w.now)

/-! ## Rulings and pulls -/

def openWindow (sender : Address) (bindingId : ℕ) (proofHash : Bytes32) (slash : Bool) : M ℕ := do
  let b ← requireBinding bindingId
  let w ← Tx.get
  Tx.revertIf (b.state ≠ .active ∧ b.state ≠ .disputed ∧ b.state ≠ .finalizing)
    (.wrongBindingState bindingId)
  Tx.revertIf (sender ≠ w.disputeResolver) .notResolver
  -- in an open window `settleAfter` is its end, so a ruling waits for the window to pass
  Tx.revertIf (w.now < b.settleAfter) (.settleDelayActive b.settleAfter)
  let settleAfter ← Tx.checkedAdd .overflow w.now w.disputeWindowSeconds
  Tx.set (w.setBinding bindingId
    -- `buyerConfirmed` and `confirmedAt` stay as they are
    { b with state := .finalizing, slashArmed := slash, proofHash, settleAfter })
  pure settleAfter

def submitSettlement (sender : Address) (bindingId : ℕ) (proofHash : Bytes32) : M Unit := do
  let settleAfter ← openWindow sender bindingId proofHash false
  emit (.settleSubmitted bindingId proofHash settleAfter)

def submitBreach (sender : Address) (bindingId : ℕ) (proofHash : Bytes32) : M Unit := do
  let settleAfter ← openWindow sender bindingId proofHash true
  emit (.breachSubmitted bindingId proofHash settleAfter)

def finalizeSettlement (D : Deployment) (bindingId : ℕ) : M ℕ := do
  let b ← requireBinding bindingId
  let w ← Tx.get
  Tx.revertIf (b.state ≠ .finalizing) (.wrongBindingState bindingId)
  Tx.revertIf (b.slashArmed = true) (.wrongBindingState bindingId)
  -- the buyer's mark replaces the wait
  Tx.revertIf (w.now < b.settleAfter ∧ b.buyerConfirmed = false) (.settleDelayActive b.settleAfter)
  let paid := b.amount
  spendReserved b.buyerBillId paid
  unreserve b.sellerBillId b.stakeAmount
  Tx.modify fun w => w.setBinding bindingId { b with state := .settled, closedAt := w.now }
  let w ← Tx.get
  let buyerBill := w.bills b.buyerBillId
  let sellerBill := w.bills b.sellerBillId
  pull D buyerBill.token buyerBill.owner sellerBill.owner paid
  emit (.settled bindingId buyerBill.owner sellerBill.owner buyerBill.token paid)
  pure paid

/-- Slash the seller's stake to the buyer; only the resolver may call. -/
def finalizeBreach (D : Deployment) (sender : Address) (bindingId : ℕ) : M ℕ := do
  let b ← requireBinding bindingId
  let w ← Tx.get
  Tx.revertIf (b.state ≠ .finalizing) (.wrongBindingState bindingId)
  Tx.revertIf (b.slashArmed = false) (.wrongBindingState bindingId)
  Tx.revertIf (sender ≠ w.disputeResolver) .notResolver
  Tx.revertIf (w.now < b.settleAfter) (.settleDelayActive b.settleAfter)
  -- the books first, the pull last
  let slashed := b.stakeAmount
  unreserve b.buyerBillId b.amount
  spendReserved b.sellerBillId slashed
  Tx.modify fun w => w.setBinding bindingId { b with state := .slashed, closedAt := w.now }
  let w ← Tx.get
  let buyerBill := w.bills b.buyerBillId
  let sellerBill := w.bills b.sellerBillId
  pull D sellerBill.token sellerBill.owner buyerBill.owner slashed
  emit (.stakeSlashed bindingId sellerBill.owner buyerBill.owner sellerBill.token slashed)
  pure slashed

/-! ## Transactions -/

inductive Call
  | setTokenAllowed (token : Address) (allowed : Bool)
  | setDisputeWindow (seconds : ℕ)
  | setSettleDelay (seconds : ℕ)
  | setDisputeResolver (resolver : Address)
  | setFrozen (value : Bool)
  | commit (token : Address) (amount : ℕ) (operator : Address)
  | setOperator (billId : ℕ) (operator : Address)
  | revoke (billId : ℕ)
  | bind (buyerBillId sellerBillId : ℕ) (scopeHash : Bytes32) (amount stakeAmount : ℕ)
  | cancelBinding (bindingId : ℕ)
  | markDisputed (bindingId : ℕ)
  | buyerConfirm (bindingId : ℕ)
  | submitSettlement (bindingId : ℕ) (proofHash : Bytes32)
  | submitBreach (bindingId : ℕ) (proofHash : Bytes32)
  | finalizeSettlement (bindingId : ℕ)
  | finalizeBreach (bindingId : ℕ)
  deriving DecidableEq

def Call.words : Call → List ℕ
  | .setTokenAllowed _ _ | .setDisputeResolver _ | .setFrozen _ => []
  | .setDisputeWindow seconds | .setSettleDelay seconds => [seconds]
  | .commit _ amount _ => [amount]
  | .setOperator billId _ | .revoke billId => [billId]
  | .bind buyerBillId sellerBillId _ amount stakeAmount =>
    [buyerBillId, sellerBillId, amount, stakeAmount]
  | .cancelBinding bindingId | .markDisputed bindingId | .buyerConfirm bindingId
  | .submitSettlement bindingId _ | .submitBreach bindingId _
  | .finalizeSettlement bindingId | .finalizeBreach bindingId => [bindingId]

def Call.WordSized (c : Call) : Prop := ∀ n ∈ c.words, n < 2 ^ 256

instance (c : Call) : Decidable c.WordSized := by unfold Call.WordSized; infer_instance

def exec (D : Deployment) (sender : Address) : Call → M Unit
  | .setTokenAllowed token allowed => setTokenAllowed D sender token allowed
  | .setDisputeWindow seconds => setDisputeWindow D sender seconds
  | .setSettleDelay seconds => setSettleDelay D sender seconds
  | .setDisputeResolver resolver => setDisputeResolver D sender resolver
  | .setFrozen value => setFrozen D sender value
  | .commit token amount operator => do let _ ← commit D sender token amount operator
  | .setOperator billId operator => setOperator sender billId operator
  | .revoke billId => revoke sender billId
  | .bind buyerBillId sellerBillId scopeHash amount stakeAmount => do
      let _ ← bind sender buyerBillId sellerBillId scopeHash amount stakeAmount
  | .cancelBinding bindingId => cancelBinding sender bindingId
  | .markDisputed bindingId => markDisputed sender bindingId
  | .buyerConfirm bindingId => buyerConfirm sender bindingId
  | .submitSettlement bindingId proofHash => submitSettlement sender bindingId proofHash
  | .submitBreach bindingId proofHash => submitBreach sender bindingId proofHash
  | .finalizeSettlement bindingId => do let _ ← finalizeSettlement D bindingId
  | .finalizeBreach bindingId => do let _ ← finalizeBreach D sender bindingId

inductive Act
  | tick (time : ℕ)
  | call (sender : Address) (call : Call)
  | token (sender token : Address) (call : Erc20.Call Address)

/-- The world at the start of a transaction: an empty receipt. -/
def World.fresh (w : World) : World := { w with pulls := [], events := [] }

/-- **One transaction.** -/
def step (D : Deployment) (w : World) : Act → Option World
  | .tick time => if w.now ≤ time then some { w.fresh with now := time } else none
  | .call sender c =>
    if sender = D.self ∨ ¬ c.WordSized then none
    else
      match (exec D sender c w.fresh).result with
      | .ok (_, w') => some w'
      | .error _ => none
  | .token sender token c =>
    if sender = D.self then none
    else ((w.tokens token).run sender c).map fun T =>
      { w.fresh with tokens := update w.tokens token T }

abbrev History : Type := List (Entry World Act)

abbrev Reach (D : Deployment) : History → World → Prop := Run (Init D) (step D)

end Karma.AllowanceEscrow
