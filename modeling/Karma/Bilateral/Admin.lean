import Karma.Bilateral.State

/-! # `KarmaBilateral` — the functions without a reentrancy guard

The admin setters, `applyAttestationGateway` and `setBindingDeveloper` write only the `Config` half
of the storage and may also run *inside* a guarded function that hands control to foreign code. -/

namespace Karma.Bilateral

open Evm Function

def onlyAdmin (D : Deployment) (sender : Address) : M Unit :=
  Tx.revertIf (sender ≠ D.admin) .unauthorized

def writeConfig (f : Config → Config) : M Unit :=
  Tx.modify fun w => { w with toConfig := f w.toConfig }

def adminSet (D : Deployment) (sender : Address) (f : Config → Config) (e : Event) : M Unit := do
  onlyAdmin D sender
  writeConfig f
  emit e

section Setters

variable (D : Deployment) (sender : Address)

def setEmergencyGuard (guard : Address) : M Unit :=
  adminSet D sender (fun c => { c with emergencyGuard := guard }) (.emergencyGuardUpdated guard)

def setSettleOperator (operator : Address) : M Unit :=
  adminSet D sender (fun c => { c with settleOperator := operator })
    (.settleOperatorUpdated operator)

def setTEEVerifier (verifier : Address) : M Unit :=
  adminSet D sender (fun c => { c with teeVerifier := verifier }) (.teeVerifierUpdated verifier)

def setIdentityRegistry (registry : Address) : M Unit :=
  adminSet D sender (fun c => { c with identityRegistry := registry })
    (.identityRegistryUpdated registry)

def setScoringEngine (engine : Address) : M Unit :=
  adminSet D sender (fun c => { c with scoringEngine := engine }) (.scoringEngineUpdated engine)

def setMinReputationScore (minScore : ℕ) : M Unit :=
  adminSet D sender (fun c => { c with minReputationScore := minScore })
    (.minReputationScoreUpdated minScore)

def setBatchThreshold (token : Address) (threshold : ℕ) : M Unit :=
  adminSet D sender (fun c => { c with batchThreshold := update c.batchThreshold token threshold })
    (.batchThresholdUpdated token threshold)

def setSettleDelay (seconds : ℕ) : M Unit :=
  adminSet D sender (fun c => { c with settleDelaySeconds := seconds })
    (.settleDelayUpdated seconds)

def setOptimisticDisputeWindow (seconds : ℕ) : M Unit :=
  adminSet D sender (fun c => { c with optimisticDisputeWindow := seconds })
    (.optimisticDisputeWindowUpdated seconds)

def setEvidenceWindow (seconds : ℕ) : M Unit :=
  adminSet D sender (fun c => { c with evidenceWindow := seconds }) (.evidenceWindowUpdated seconds)

def setAutoArbitrationThreshold (amount : ℕ) : M Unit :=
  adminSet D sender (fun c => { c with autoArbitrationThreshold := amount })
    (.autoArbitrationThresholdUpdated amount)

def setSettleTimeout (seconds : ℕ) : M Unit :=
  adminSet D sender (fun c => { c with settleTimeoutSeconds := seconds })
    (.settleTimeoutUpdated seconds)

def setGatewayChangeDelay (delay : ℕ) : M Unit :=
  adminSet D sender (fun c => { c with gatewayChangeDelay := delay })
    (.gatewayChangeDelayUpdated delay)

def setTreasury (treasury : Address) : M Unit :=
  adminSet D sender (fun c => { c with treasury := treasury }) (.treasuryUpdated treasury)

def setFeeBridge (feeBridge : Address) : M Unit :=
  adminSet D sender (fun c => { c with feeBridge := feeBridge }) (.feeBridgeUpdated feeBridge)

/-- The one setter with a lower bound. -/
def setLargeDisputeTimeout (seconds : ℕ) : M Unit := do
  onlyAdmin D sender
  Tx.revertIf (seconds < 86400) .invalidSplit
  writeConfig fun c => { c with largeDisputeTimeoutSeconds := seconds }
  emit (.largeDisputeTimeoutUpdated seconds)

def setTokenAllowed (token : Address) (allowed : Bool) : M Unit := do
  onlyAdmin D sender
  Tx.revertIf (token = 0) .zeroAddress
  writeConfig fun c => { c with tokenAllowed := update c.tokenAllowed token allowed }
  let w ← Tx.get
  if allowed = true ∧ w.tokenIds token = 0 then
    Tx.revertIf (w.tokenCounter = BitVec.allOnes 8) .tooManyTokens
    writeConfig fun c => { c with
      tokenCounter := c.tokenCounter + 1,
      tokenIds := update c.tokenIds token (c.tokenCounter + 1),
      idToToken := update c.idToToken (c.tokenCounter + 1) token }
  emit (.tokenAllowed token allowed)

/-- The first gateway is set at once; replacing one goes through a delay. -/
def setAttestationGateway (gateway : Address) : M Unit := do
  onlyAdmin D sender
  Tx.revertIf (gateway = 0) .invalidAddress
  let w ← Tx.get
  if w.attestationGateway = 0 then
    writeConfig fun c => { c with attestationGateway := gateway }
    emit (.attestationGatewayUpdated gateway)
  else
    let applyTime ← Tx.checkedAdd .overflow w.now w.gatewayChangeDelay
    writeConfig fun c => { c with
      pendingAttestationGateway := gateway, pendingGatewayApplyTime := applyTime }
    emit (.attestationGatewayProposed gateway applyTime)

end Setters

def applyAttestationGateway : M Unit := do
  let w ← Tx.get
  let pending := w.pendingAttestationGateway
  Tx.revertIf (pending = 0) .noPendingGatewayUpdate
  Tx.revertIf (w.now < w.pendingGatewayApplyTime) (.gatewayUpdateNotReady w.pendingGatewayApplyTime)
  writeConfig fun c => { c with
    pendingAttestationGateway := 0, pendingGatewayApplyTime := 0, attestationGateway := pending }
  emit (.attestationGatewayUpdated pending)

/-- Attribute a binding to a developer, while it is neither disputed nor over. -/
def setBindingDeveloper (D : Deployment) (sender : Address) (bindingId : ℕ)
    (developer : Address) : M Unit := do
  let w ← Tx.get
  let b := w.bindings bindingId
  Tx.revertIf (b.bindingId = 0) (.bindingNotFound bindingId)
  Tx.revertIf (b.state ≠ .active ∧ b.state ≠ .pending ∧ b.state ≠ .finalizing)
    (.wrongBindingState bindingId .active b.state)
  Tx.revertIf (sender ≠ D.admin ∧ sender ≠ billOwner (w.bills b.buyerBillId) ∧
    sender ≠ billOwner (w.bills b.agentBillId)) .unauthorized
  writeConfig fun c => { c with
    bindingDeveloper := update c.bindingDeveloper bindingId developer }
  emit (.bindingDeveloperUpdated bindingId developer)

/-- The entry points without a reentrancy guard, with their arguments. -/
inductive OpenCall
  | setEmergencyGuard (guard : Address)
  | setSettleOperator (operator : Address)
  | setTEEVerifier (verifier : Address)
  | setIdentityRegistry (registry : Address)
  | setTokenAllowed (token : Address) (allowed : Bool)
  | setScoringEngine (engine : Address)
  | setMinReputationScore (minScore : ℕ)
  | setBatchThreshold (token : Address) (threshold : ℕ)
  | setSettleDelay (seconds : ℕ)
  | setOptimisticDisputeWindow (seconds : ℕ)
  | setEvidenceWindow (seconds : ℕ)
  | setAutoArbitrationThreshold (amount : ℕ)
  | setSettleTimeout (seconds : ℕ)
  | setLargeDisputeTimeout (seconds : ℕ)
  | setAttestationGateway (gateway : Address)
  | applyAttestationGateway
  | setGatewayChangeDelay (delay : ℕ)
  | setTreasury (treasury : Address)
  | setFeeBridge (feeBridge : Address)
  | setBindingDeveloper (bindingId : ℕ) (developer : Address)
  deriving DecidableEq

def OpenCall.exec (D : Deployment) (sender : Address) : OpenCall → M Unit
  | .setEmergencyGuard guard => Bilateral.setEmergencyGuard D sender guard
  | .setSettleOperator operator => Bilateral.setSettleOperator D sender operator
  | .setTEEVerifier verifier => Bilateral.setTEEVerifier D sender verifier
  | .setIdentityRegistry registry => Bilateral.setIdentityRegistry D sender registry
  | .setTokenAllowed token allowed => Bilateral.setTokenAllowed D sender token allowed
  | .setScoringEngine engine => Bilateral.setScoringEngine D sender engine
  | .setMinReputationScore minScore => Bilateral.setMinReputationScore D sender minScore
  | .setBatchThreshold token threshold => Bilateral.setBatchThreshold D sender token threshold
  | .setSettleDelay seconds => Bilateral.setSettleDelay D sender seconds
  | .setOptimisticDisputeWindow seconds => Bilateral.setOptimisticDisputeWindow D sender seconds
  | .setEvidenceWindow seconds => Bilateral.setEvidenceWindow D sender seconds
  | .setAutoArbitrationThreshold amount => Bilateral.setAutoArbitrationThreshold D sender amount
  | .setSettleTimeout seconds => Bilateral.setSettleTimeout D sender seconds
  | .setLargeDisputeTimeout seconds => Bilateral.setLargeDisputeTimeout D sender seconds
  | .setAttestationGateway gateway => Bilateral.setAttestationGateway D sender gateway
  | .applyAttestationGateway => Bilateral.applyAttestationGateway
  | .setGatewayChangeDelay delay => Bilateral.setGatewayChangeDelay D sender delay
  | .setTreasury treasury => Bilateral.setTreasury D sender treasury
  | .setFeeBridge feeBridge => Bilateral.setFeeBridge D sender feeBridge
  | .setBindingDeveloper bindingId developer =>
    Bilateral.setBindingDeveloper D sender bindingId developer

/-! ## Foreign code -/

/-- What the registry reads of the core and the clock. -/
def World.ctx (w : World) : IdentityRegistry.Ctx where
  now := w.now
  freeBalance := w.freeBalance
  boundBalance := w.boundBalance

/-- What foreign code can do to the world in one call. -/
inductive Outside
  | core (sender : Address) (c : OpenCall)
  | registry (sender : Address) (c : IdentityRegistry.Call)
  | erc20 (sender token : Address) (c : Erc20.Call Address)

def Outside.sender : Outside → Address
  | .core sender _ | .registry sender _ | .erc20 sender _ _ => sender

def Outside.attempt (D : Deployment) (a : Outside) (w : World) : Option World :=
  if a.sender = D.self ∨ a.sender = 0 then none
  else
    match a with
    | .core sender c =>
      match (c.exec D sender w).result with
      | .ok (_, w') => some w'
      | .error _ => none
    | .registry sender c =>
      match (IdentityRegistry.exec D.self w.ctx sender c w.registry).result with
      | .ok (_, R) => some { w with registry := R }
      | .error _ => none
    | .erc20 sender token c =>
      ((w.tokens token).run sender c).map fun T =>
        { w with tokens := update w.tokens token T }

def Outside.run (D : Deployment) (a : Outside) (w : World) : World := (a.attempt D w).getD w

/-- What a called contract does before it returns, and its answer (`none` when it reverts). -/
structure Reply (α : Type) where
  acts : List Outside := []
  answer : Option α

/-- **The contracts around the core**, as one transaction finds them. -/
structure Env where
  consumeAuthorization : Reply Bool := { answer := none }
  isRegistered : Option Bool := none
  getReputationScore : Option ℕ := none
  registerTaskPublisher : Reply Unit := { answer := none }
  payoutBlocked : Option (Bool × ℕ × ℕ) := none
  verifySettlement : Option Unit := none
  /-- `none` when the call fails or returns less than a word. -/
  quoteFee : Option ℕ := none
  collectAndRecord : Reply Unit := { answer := none }
  /-- `none` when there is no code at the engine's address. -/
  record : Option (Reply Unit) := none

def callOut {α : Type} (D : Deployment) (c : OutCall) (r : Reply α) : M (Option α) := do
  Tx.modify fun w => { w with calls := w.calls ++ [c] }
  Tx.callOut (Outside.run D) r.acts r.answer

end Karma.Bilateral
