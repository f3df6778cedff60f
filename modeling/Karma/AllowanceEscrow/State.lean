import Karma.Evm.Tx
import Karma.Evm.Erc20
import Karma.Evm.Word

/-! # `KarmaAllowanceEscrow` — data model

The non-custodial escrow (version 5): a *bill* records that a wallet stands in for up to `amount` of
a token through its ERC-20 allowance, a *binding* reserves part of a buyer's bill for a price and
part of a seller's bill for a stake. -/

namespace Karma.AllowanceEscrow

open Evm Function

inductive BillState
  | none | opened | closed
  deriving DecidableEq, Repr

inductive BindingState
  | none | active | finalizing | settled | slashed | cancelled | disputed
  deriving DecidableEq, Repr

/-- A binding that still reserves money on both bills. -/
def BindingState.Live : BindingState → Prop
  | .active | .disputed | .finalizing => True
  | _ => False

instance : DecidablePred BindingState.Live := fun st => by
  cases st <;> simp only [BindingState.Live] <;> infer_instance

structure Bill where
  billId : ℕ := 0
  owner : Address := 0
  /-- The delegate that may bind and confirm for this bill. -/
  operator : Address := 0
  token : Address := 0
  amount : ℕ := 0
  reserved : ℕ := 0
  spent : ℕ := 0
  state : BillState := .none
  createdAt : ℕ := 0

structure Binding where
  bindingId : ℕ := 0
  buyerBillId : ℕ := 0
  sellerBillId : ℕ := 0
  scopeHash : Bytes32 := 0#256
  amount : ℕ := 0
  stakeAmount : ℕ := 0
  state : BindingState := .none
  createdAt : ℕ := 0
  settleAfter : ℕ := 0
  proofHash : Bytes32 := 0#256
  closedAt : ℕ := 0
  buyerConfirmed : Bool := false
  confirmedAt : ℕ := 0
  /-- The direction of the open window. -/
  slashArmed : Bool := false

/-- The custom errors of the contract, its two `require` messages, the arithmetic panics. -/
inductive Error
  | tokenNotAllowed
  | zeroAmount
  | zeroAddress
  | notBillOwner (billId : ℕ)
  | notBillOperator (billId : ℕ)
  | wrongBillState (billId : ℕ)
  | insufficientAllowance (held need : ℕ)
  | insufficientCommitment (available need : ℕ)
  | tokenMismatch
  | sameOwner
  | unknownBinding (bindingId : ℕ)
  | wrongBindingState (bindingId : ℕ)
  | settleDelayActive (settleAfter : ℕ)
  | notSettlementParty
  | notResolver
  | pullFailed
  | custodyViolation
  | reservationActive (reserved : ℕ)
  | alreadyConfirmed (bindingId : ℕ)
  | require (message : String)
  | overflow
  | underflow
  deriving DecidableEq, Repr

inductive Event
  | billCommitted (billId : ℕ) (owner operator token : Address) (amount : ℕ)
  | billOperatorSet (billId : ℕ) (operator : Address)
  | billRevoked (billId : ℕ) (owner : Address) (unspent : ℕ)
  | billsBound (bindingId buyerBillId sellerBillId : ℕ) (scopeHash : Bytes32)
      (amount stakeAmount : ℕ)
  | settleSubmitted (bindingId : ℕ) (proofHash : Bytes32) (pullAfter : ℕ)
  | settled (bindingId : ℕ) (source target token : Address) (amount : ℕ)
  | stakeSlashed (bindingId : ℕ) (source target token : Address) (amount : ℕ)
  | bindingCancelled (bindingId : ℕ)
  | buyerConfirmed (bindingId : ℕ) (sender : Address) (confirmedAt : ℕ)
  | bindingDisputed (bindingId : ℕ) (time : ℕ)
  | breachSubmitted (bindingId : ℕ) (proofHash : Bytes32) (pullAfter : ℕ)
  | disputeWindowUpdated (seconds : ℕ)
  | settleDelayUpdated (seconds : ℕ)
  | disputeResolverUpdated (resolver : Address)
  | tokenAllowedUpdated (token : Address) (allowed : Bool)
  | frozen (value : Bool)

/-- A successful `transferFrom` made by the contract. -/
structure Pull where
  token : Address
  source : Address
  target : Address
  amount : ℕ
  deriving DecidableEq, Repr

structure Deployment where
  self : Address
  admin : Address

/-- The storage of the contract, the tokens, the clock and the receipt of the last transaction. -/
structure World where
  disputeResolver : Address
  disputeWindowSeconds : ℕ
  settleDelaySeconds : ℕ
  frozen : Bool
  tokenAllowed : Address → Bool
  bills : ℕ → Bill
  bindings : ℕ → Binding
  ownerBills : Address → List ℕ
  billCounter : ℕ
  bindingCounter : ℕ
  tokens : Address → Erc20 Address
  /-- `block.timestamp`. -/
  now : ℕ
  pulls : List Pull
  events : List Event

abbrev M (α : Type) : Type := Tx Error World α

structure Init (D : Deployment) (w : World) : Prop where
  disputeResolver : w.disputeResolver = D.admin
  frozen : w.frozen = false
  tokenAllowed : ∀ t, w.tokenAllowed t = false
  bills : ∀ i, w.bills i = {}
  bindings : ∀ b, w.bindings b = {}
  ownerBills : ∀ a, w.ownerBills a = []
  billCounter : w.billCounter = 0
  bindingCounter : w.bindingCounter = 0

def emit (e : Event) : M Unit := Tx.modify fun w => { w with events := w.events ++ [e] }

def World.setBill (w : World) (i : ℕ) (bill : Bill) : World :=
  { w with bills := update w.bills i bill }

def World.setBinding (w : World) (b : ℕ) (binding : Binding) : World :=
  { w with bindings := update w.bindings b binding }

@[simp] theorem World.setBill_bills (w : World) (i : ℕ) (bill : Bill) :
    (w.setBill i bill).bills = update w.bills i bill := rfl

@[simp] theorem World.setBinding_bindings (w : World) (b : ℕ) (binding : Binding) :
    (w.setBinding b binding).bindings = update w.bindings b binding := rfl

@[simp] theorem World.setBinding_bills (w : World) (b : ℕ) (binding : Binding) :
    (w.setBinding b binding).bills = w.bills := rfl

end Karma.AllowanceEscrow
