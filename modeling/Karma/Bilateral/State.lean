import Karma.Bilateral.Bill
import Karma.Evm.Erc20
import Karma.IdentityRegistry.Code

/-! # `KarmaBilateral` — data model

The custodial settlement core: `lock` takes tokens into the contract and mints a *bill*, `bind` ties
a buyer's bill to an agent's bill in a *binding*, and the settlement paths burn both bills and pay
the pool out. -/

namespace Karma.Bilateral

open Evm

inductive BindingState
  | active | pending | finalizing | settled | disputed | refunded
  deriving DecidableEq, Repr

def BindingState.Open : BindingState → Prop
  | .active | .pending | .finalizing | .disputed => True
  | .settled | .refunded => False

instance : DecidablePred BindingState.Open := fun st => by
  cases st <;> simp only [BindingState.Open] <;> infer_instance

@[ext] structure BillToken where
  owner : Address := 0
  state : BillState := .minted
  token : Address := 0
  amount : ℕ := 0
  deriving DecidableEq

structure Binding where
  bindingId : ℕ := 0
  buyerBillId : ℕ := 0
  agentBillId : ℕ := 0
  scopeHash : Bytes32 := 0#256
  state : BindingState := .active
  createdAt : ℕ := 0
  settleAfter : ℕ := 0
  proofHash : Bytes32 := 0#256
  settleSubmittedAt : ℕ := 0
  disputedAt : ℕ := 0
  disputeInitiator : Address := 0

structure ArbitrationRecord where
  buyerEvidenceHash : Bytes32 := 0#256
  agentEvidenceHash : Bytes32 := 0#256
  buyerSubmittedAt : ℕ := 0
  agentSubmittedAt : ℕ := 0
  startedAt : ℕ := 0
  resolved : Bool := false

/-- The fields that the core reads, and the rest of the document, which only the hash and the stored
copy carry. -/
structure IntentPackage where
  buyer : Address := 0
  seller : Address := 0
  serviceType : Bytes32 := 0#256
  amount : ℕ := 0
  penaltyRate : ℕ := 0
  expiresAt : ℕ := 0
  verifier : Address := 0
  details : List Bytes32 := []
  deriving DecidableEq

inductive Error
  | zeroAmount
  | zeroAddress
  | tokenNotAllowed
  | notBillOwner (billId : ℕ)
  | wrongBillState (billId : ℕ) (expected actual : BillState)
  | wrongBindingState (bindingId : ℕ) (expected actual : BindingState)
  | billNotMinted (billId : ℕ)
  | bindingNotFound (bindingId : ℕ)
  | buyerAgentSameAddress
  | reputationTooLow (agent : Address) (score required : ℕ)
  | transferFailed
  | unauthorized
  | fundsFrozen (scope until_ : ℕ)
  | invalidAddress
  | invalidSplit
  | tooManyTokens
  | attestationRequired (bindingId : ℕ)
  | gatewayNotSet
  | noPendingGatewayUpdate
  | gatewayUpdateNotReady (applyTime : ℕ)
  | settleDelayActive (endsAt : ℕ)
  | finalizeWindowOpen (endsAt : ℕ)
  | disputeWindowClosed (closedAt : ℕ)
  | noDisputeAccess (bindingId : ℕ)
  | disputeNotExpired (bindingId : ℕ)
  | evidenceWindowClosed (bindingId : ℕ)
  | arbitrationNotStarted (bindingId : ℕ)
  | arbitrationAlreadyResolved (bindingId : ℕ)
  | arbitrationEvidenceWindowOpen (windowEnd : ℕ)
  | largeDisputeRequiresAdmin (bindingId totalPool : ℕ)
  | splitMustMatchEvidence
  | splitOutsideRange (buyerShareBps : ℕ)
  | teeVerifierNotSet
  | zkNotImplemented
  | insufficientFreeBalance (addr : Address) (available requested : ℕ)
  | intentPartyMismatch (party : String)
  | intentAmountMismatch (intent buyer agent : ℕ)
  | intentExpired (expiredAt : ℕ)
  | identityRegistryNotSet
  | subAgentNotAuthorized (subWallet : Address) (amount : ℕ)
  | overflow
  | underflow
  | enumConversion
  | reentrancy
  | malformedCalldata
  | externalCallFailed
  deriving DecidableEq, Repr

inductive Event
  | billMinted (billId : ℕ) (owner token : Address) (amount : ℕ)
  | billBurned (billId : ℕ) (owner : Address) (amount : ℕ) (reason : String)
  | billsBound (bindingId buyerBillId agentBillId : ℕ) (scopeHash : Bytes32)
  | scoringEngineUpdated (scoringEngine : Address)
  | minReputationScoreUpdated (minScore : ℕ)
  | bindingSettled (bindingId : ℕ) (proofHash : Bytes32) (buyerAmount agentAmount : ℕ)
  | bindingRefunded (bindingId buyerAmount agentAmount : ℕ)
  | disputeResolved (bindingId buyerShareBps : ℕ)
  | batchThresholdUpdated (token : Address) (threshold : ℕ)
  | tokenAllowed (token : Address) (allowed : Bool)
  | attestationGatewayUpdated (gateway : Address)
  | attestationGatewayProposed (gateway : Address) (applyTime : ℕ)
  | gatewayChangeDelayUpdated (delay : ℕ)
  | treasuryUpdated (treasury : Address)
  | feeBridgeUpdated (feeBridge : Address)
  | teeVerifierUpdated (verifier : Address)
  | teeSettled (bindingId : ℕ) (imageHash : Bytes32)
  | identityRegistryUpdated (identityRegistry : Address)
  | bindingDeveloperUpdated (bindingId : ℕ) (developer : Address)
  | settleDelayUpdated (seconds : ℕ)
  | optimisticDisputeWindowUpdated (seconds : ℕ)
  | evidenceWindowUpdated (seconds : ℕ)
  | autoArbitrationThresholdUpdated (amount : ℕ)
  | settleTimeoutUpdated (seconds : ℕ)
  | largeDisputeTimeoutUpdated (seconds : ℕ)
  | feeCappedToHardCeiling (bindingId quotedFee cappedFee : ℕ)
  | attestationBindingRegistered (bindingId : ℕ) (taskId : Bytes32)
  | intentBound (bindingId buyerBillId agentBillId : ℕ) (intentHash : Bytes32)
  | settleSubmitted (bindingId : ℕ) (proofHash : Bytes32) (finalizeAfter : ℕ)
  | settleFinalized (bindingId : ℕ) (proofHash : Bytes32)
  | disputeRaised (bindingId : ℕ) (initiator : Address) (evidenceHash : Bytes32)
  | arbitrationEvidenceSubmitted (bindingId : ℕ) (submitter : Address) (evidenceHash : Bytes32)
  | arbitrationAutoResolved (bindingId : ℕ) (buyerWon : Bool) (buyerShare : ℕ)
  | emergencyGuardUpdated (guard : Address)
  | settleOperatorUpdated (operator : Address)
  deriving DecidableEq, Repr

inductive Move
  | pulled (token owner : Address) (amount : ℕ)
  | sent (token target : Address) (amount : ℕ)
  | granted (token spender : Address) (amount : ℕ)
  deriving DecidableEq, Repr

/-- A state-changing call that the contract makes to a contract other than a token, with what it
passes on. -/
inductive OutCall
  | consumeAuthorization (subWallet : Address) (amount : ℕ)
  | registerTaskPublisher (taskId : Bytes32) (buyer agent : Address)
  | collectAndRecord (bindingId : ℕ) (buyer seller developer : Address) (amount fee : ℕ)
  | recordSettlement (seller buyer verifier : Address) (completedOnTime : Bool) (speedRatio : ℕ)
  | recordDisputeResolution (seller buyer verifier : Address) (sellerWon wasPenalty : Bool)
  deriving DecidableEq, Repr

structure Deployment where
  self : Address
  admin : Address
  registry : Address
  intentHash : IntentPackage → Bytes32
  self_ne_zero : self ≠ 0
  admin_ne_zero : admin ≠ 0

/-- The storage written by the functions without a reentrancy guard, with its initial values. -/
structure Config where
  emergencyGuard : Address := 0
  settleOperator : Address := 0
  tokenIds : Address → BitVec 8 := fun _ => 0
  idToToken : BitVec 8 → Address := fun _ => 0
  tokenCounter : BitVec 8 := 0
  tokenAllowed : Address → Bool := fun _ => false
  batchThreshold : Address → ℕ := fun _ => 0
  settleDelaySeconds : ℕ := 1800
  optimisticDisputeWindow : ℕ := 86400
  evidenceWindow : ℕ := 259200
  autoArbitrationThreshold : ℕ := 100000000
  settleTimeoutSeconds : ℕ := 604800
  largeDisputeTimeoutSeconds : ℕ := 604800
  scoringEngine : Address := 0
  identityRegistry : Address := 0
  minReputationScore : ℕ := 0
  attestationGateway : Address := 0
  pendingAttestationGateway : Address := 0
  pendingGatewayApplyTime : ℕ := 0
  gatewayChangeDelay : ℕ := 86400
  treasury : Address := 0
  feeBridge : Address := 0
  teeVerifier : Address := 0
  bindingDeveloper : ℕ → Address := fun _ => 0

structure Ledger where
  billCounter : ℕ := 0
  bindingCounter : ℕ := 0
  bills : ℕ → Bytes32 := fun _ => 0
  billAmounts : ℕ → ℕ := fun _ => 0
  bindings : ℕ → Binding := fun _ => {}
  intentPackages : ℕ → IntentPackage := fun _ => {}
  totalLocked : Address → ℕ := fun _ => 0
  pendingBatchAmount : Address → ℕ := fun _ => 0
  arbitrations : ℕ → ArbitrationRecord := fun _ => {}
  bindingTaskId : ℕ → Bytes32 := fun _ => 0
  requiresAttestation : ℕ → Bool := fun _ => false
  freeBalance : Address → ℕ := fun _ => 0
  boundBalance : Address → ℕ := fun _ => 0

/-- The storage of the contract, what it depends on, and the receipt of the transaction. -/
structure World extends Config, Ledger where
  tokens : Address → Erc20 Address
  registry : IdentityRegistry.Registry
  /-- `block.timestamp`. -/
  now : ℕ
  entered : Bool
  moves : List Move
  calls : List OutCall
  events : List Event

abbrev M (α : Type) : Type := Tx Error World α

structure Init (D : Deployment) (w : World) : Prop where
  config : w.toConfig = {}
  ledger : w.toLedger = {}
  registry : w.registry = {}
  now : 0 < w.now
  entered : w.entered = false
  allowance : ∀ t s, (w.tokens t).allowance D.self s = 0

def emit (e : Event) : M Unit := Tx.modify fun w => { w with events := w.events ++ [e] }

def Config.billToken (c : Config) (b : Bytes32) : Address := c.idToToken (billTokenId b)

def World.decodeBill (w : World) (billId : ℕ) : Option BillToken :=
  (billState (w.bills billId)).map fun state =>
    { owner := billOwner (w.bills billId), state, token := w.billToken (w.bills billId),
      amount := w.billAmounts billId }

end Karma.Bilateral
