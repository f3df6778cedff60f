import Karma.Bilateral.Admin
import Karma.Evm.Run

/-! # `KarmaBilateral` — the guarded functions and the system

A transcription of the functions behind the reentrancy guard, from the internal helpers up. -/

namespace Karma.Bilateral

open Evm Function

def nonReentrant {α : Type} (body : M α) : M α := do
  let w ← Tx.get
  Tx.revertIf (w.entered = true) .reentrancy
  Tx.modify fun w => { w with entered := true }
  let a ← body
  Tx.modify fun w => { w with entered := false }
  pure a

/-! ## Bills, bindings, balances -/

def writeLedger (f : Ledger → Ledger) : M Unit :=
  Tx.modify fun w => { w with toLedger := f w.toLedger }

def requireBill (billId : ℕ) : M Bytes32 := do
  let w ← Tx.get
  let packed := w.bills billId
  Tx.revertIf (billOwner packed = 0) (.billNotMinted billId)
  pure packed

def requireBillState (billId : ℕ) (bill : Bytes32) (expected : BillState) : M Unit := do
  let actual ← Tx.ofOption .enumConversion (billState bill)
  Tx.revertIf (actual ≠ expected) (.wrongBillState billId expected actual)

def requireBinding (bindingId : ℕ) : M Binding := do
  let w ← Tx.get
  let b := w.bindings bindingId
  Tx.revertIf (b.createdAt = 0) (.bindingNotFound bindingId)
  pure b

def setBill (billId : ℕ) (packed : Bytes32) : M Unit :=
  writeLedger fun l => { l with bills := update l.bills billId packed }

def updateBinding (bindingId : ℕ) (f : Binding → Binding) : M Unit :=
  writeLedger fun l => { l with
    bindings := update l.bindings bindingId (f (l.bindings bindingId)) }

def updateArbitration (bindingId : ℕ) (f : ArbitrationRecord → ArbitrationRecord) : M Unit :=
  writeLedger fun l => { l with
    arbitrations := update l.arbitrations bindingId (f (l.arbitrations bindingId)) }

def moveFreeToBound (addr : Address) (amount : ℕ) : M Unit := do
  let w ← Tx.get
  Tx.revertIf (w.freeBalance addr < amount)
    (.insufficientFreeBalance addr (w.freeBalance addr) amount)
  let free ← Tx.checkedSub .underflow (w.freeBalance addr) amount
  writeLedger fun l => { l with freeBalance := update l.freeBalance addr free }
  let bound ← Tx.checkedAdd .overflow (w.boundBalance addr) amount
  writeLedger fun l => { l with boundBalance := update l.boundBalance addr bound }

def decrementBound (addr : Address) (amount : ℕ) : M Unit := do
  let w ← Tx.get
  let bound ← Tx.checkedSub .underflow (w.boundBalance addr) amount
  writeLedger fun l => { l with boundBalance := update l.boundBalance addr bound }

def decrementPending (token : Address) (amount : ℕ) : M Unit := do
  let w ← Tx.get
  let pending ← Tx.checkedSub .underflow (w.pendingBatchAmount token) amount
  writeLedger fun l => { l with
    pendingBatchAmount := update l.pendingBatchAmount token pending }

def burnBill (billId : ℕ) (bill : Bytes32) (reason : String) : M Unit := do
  let w ← Tx.get
  let token := w.billToken bill
  let amount := w.billAmounts billId
  setBill billId (setBillState bill .burned)
  let locked ← Tx.checkedSub .underflow (w.totalLocked token) amount
  writeLedger fun l => { l with totalLocked := update l.totalLocked token locked }
  emit (.billBurned billId (billOwner bill) amount reason)

/-! ## External calls -/

/-- `_transfer`. A token that reverts instead of answering `false` makes the call revert all the
same. -/
def transfer (D : Deployment) (token target : Address) (amount : ℕ) : M Unit := do
  let w ← Tx.get
  let T ← Tx.ofOption .transferFailed ((w.tokens token).transfer D.self target amount)
  Tx.set { w with
    tokens := update w.tokens token T, moves := w.moves ++ [.sent token target amount] }

def transferNonzero (D : Deployment) (token target : Address) (amount : ℕ) : M Unit :=
  if 0 < amount then transfer D token target amount else pure ()

def requirePayoutNotFrozen (env : Env) (bindingId : ℕ) : M Unit := do
  let w ← Tx.get
  if w.emergencyGuard = 0 ∨ bindingId = 0 then pure ()
  else
    let (blocked, scope, until_) ← Tx.ofOption .externalCallFailed env.payoutBlocked
    Tx.revertIf (blocked = true) (.fundsFrozen scope until_)

def enforceReputationGate (env : Env) (agent : Address) : M Unit := do
  let w ← Tx.get
  if w.scoringEngine = 0 ∨ w.minReputationScore = 0 then pure ()
  else
    let registered ← Tx.ofOption .externalCallFailed env.isRegistered
    if registered = false then pure ()
    else
      let score ← Tx.ofOption .externalCallFailed env.getReputationScore
      Tx.revertIf (score < w.minReputationScore)
        (.reputationTooLow agent score w.minReputationScore)

def tryRecord (D : Deployment) (env : Env) (c : OutCall) : M Unit := do
  let w ← Tx.get
  if w.scoringEngine = 0 then pure ()
  else
    let reply ← Tx.ofOption .externalCallFailed env.record
    let _ ← callOut D c reply

def tryRecordSettlement (D : Deployment) (env : Env) (seller buyer : Address) (onTime : Bool) :
    M Unit :=
  tryRecord D env (.recordSettlement seller buyer 0 onTime 10000)

def tryRecordDispute (D : Deployment) (env : Env) (seller buyer : Address)
    (sellerWon wasPenalty : Bool) : M Unit :=
  tryRecord D env (.recordDisputeResolution seller buyer 0 sellerWon wasPenalty)

def maxFeeBps : ℕ := 1000

def approveAndCollect (D : Deployment) (env : Env) (token feeBridge : Address) (fee : ℕ)
    (collect : OutCall) : M Unit := do
  let w ← Tx.get
  let T ← Tx.ofOption .transferFailed ((w.tokens token).approve D.self feeBridge fee)
  Tx.set { w with
    tokens := update w.tokens token T, moves := w.moves ++ [.granted token feeBridge fee] }
  let collected ← callOut D collect env.collectAndRecord
  Tx.revertIf (collected = none) .transferFailed

def collectEconomyFee (D : Deployment) (env : Env) (bindingId : ℕ)
    (token buyer seller developer : Address) (amountUsdc : ℕ) : M ℕ := do
  let w ← Tx.get
  let feeBridge := w.feeBridge
  if feeBridge = 0 ∨ amountUsdc = 0 then pure 0
  else
    -- a bridge that reverts or answers too few bytes has quoted zero
    let quoted := env.quoteFee.getD 0
    if quoted = 0 then
      -- the answer is dropped: recording is best effort
      let _ ← callOut D (.collectAndRecord bindingId buyer seller developer amountUsdc 0)
        env.collectAndRecord
      pure 0
    else
      -- first the pool caps the quote, then a tenth of the pool
      let fee := if amountUsdc < quoted then amountUsdc else quoted
      let scaled ← Tx.checkedMul .overflow amountUsdc maxFeeBps
      let feeCeiling := scaled / 10000
      (if feeCeiling < fee then emit (.feeCappedToHardCeiling bindingId fee feeCeiling)
        else pure ())
      let fee := if feeCeiling < fee then feeCeiling else fee
      approveAndCollect D env token feeBridge fee
        (.collectAndRecord bindingId buyer seller developer amountUsdc fee)
      pure fee

/-! ## Payouts -/

def releasePair (buyerBillId agentBillId : ℕ) (reason : String) : M ℕ := do
  let w ← Tx.get
  let buyerBill := w.bills buyerBillId
  let agentBill := w.bills agentBillId
  decrementBound (billOwner buyerBill) (w.billAmounts buyerBillId)
  decrementBound (billOwner agentBill) (w.billAmounts agentBillId)
  burnBill buyerBillId buyerBill reason
  burnBill agentBillId agentBill reason
  let totalPool ← Tx.checkedAdd .overflow (w.billAmounts buyerBillId) (w.billAmounts agentBillId)
  decrementPending (w.billToken buyerBill) totalPool
  pure totalPool

/-- The pool less the fee goes to the agent. -/
def executeSettle (D : Deployment) (env : Env) (bindingId buyerBillId agentBillId : ℕ)
    (proofHash : Bytes32) : M Unit := do
  requirePayoutNotFrozen env bindingId
  let w ← Tx.get
  let token := w.billToken (w.bills buyerBillId)
  let buyerOwner := billOwner (w.bills buyerBillId)
  let agentOwner := billOwner (w.bills agentBillId)
  updateBinding bindingId fun b => { b with state := .settled, proofHash }
  let totalPool ← releasePair buyerBillId agentBillId "settled"
  -- nobody set a developer: the agent counts as one
  let developer :=
    if w.bindingDeveloper bindingId = 0 then agentOwner else w.bindingDeveloper bindingId
  let fee ← collectEconomyFee D env bindingId token buyerOwner agentOwner developer totalPool
  -- the buyer's share is the constant zero in the source, so only the agent is paid
  let sellerPayout := if fee < totalPool then totalPool - fee else 0
  transferNonzero D token agentOwner sellerPayout
  emit (.settleFinalized bindingId proofHash)
  emit (.bindingSettled bindingId proofHash 0 sellerPayout)
  tryRecordSettlement D env agentOwner buyerOwner true

def executeRefund (D : Deployment) (env : Env) (bindingId buyerBillId agentBillId : ℕ) :
    M Unit := do
  let w ← Tx.get
  let token := w.billToken (w.bills buyerBillId)
  let buyerOwner := billOwner (w.bills buyerBillId)
  let agentOwner := billOwner (w.bills agentBillId)
  updateBinding bindingId fun b => { b with state := .refunded }
  let _ ← releasePair buyerBillId agentBillId "refunded"
  transfer D token buyerOwner (w.billAmounts buyerBillId)
  transfer D token agentOwner (w.billAmounts agentBillId)
  tryRecordDispute D env agentOwner buyerOwner false true

/-- The buyer's share in basis points, rounded down, and the rest to the agent. -/
def executeSplit (D : Deployment) (env : Env) (bindingId buyerBillId agentBillId : ℕ)
    (buyerShareBps : ℕ) : M Unit := do
  -- a full refund to the buyer is never frozen
  (if buyerShareBps < 10000 then requirePayoutNotFrozen env bindingId else pure ())
  let w ← Tx.get
  let token := w.billToken (w.bills buyerBillId)
  let buyerOwner := billOwner (w.bills buyerBillId)
  let agentOwner := billOwner (w.bills agentBillId)
  let totalPool ← Tx.checkedAdd .overflow (w.billAmounts buyerBillId) (w.billAmounts agentBillId)
  let scaled ← Tx.checkedMul .overflow totalPool buyerShareBps
  let buyerPayout := scaled / 10000
  let agentPayout ← Tx.checkedSub .underflow totalPool buyerPayout
  updateBinding bindingId fun b => { b with state := .settled }
  let _ ← releasePair buyerBillId agentBillId "dispute-resolved"
  transferNonzero D token buyerOwner buyerPayout
  transferNonzero D token agentOwner agentPayout
  emit (.disputeResolved bindingId buyerShareBps)
  emit (.bindingSettled bindingId 0 buyerPayout agentPayout)
  tryRecordDispute D env agentOwner buyerOwner (decide (buyerShareBps = 0))
    (decide (buyerShareBps = 10000))

/-! ## Locking -/

def lockInto (D : Deployment) (token : Address) (amount : ℕ) (owner : Address) : M ℕ := do
  let w ← Tx.get
  Tx.revertIf (w.tokenAllowed token = false) .tokenNotAllowed
  Tx.revertIf (amount = 0) .zeroAmount
  Tx.revertIf (token = 0) .zeroAddress
  let tokenId := w.tokenIds token
  Tx.revertIf (tokenId = 0) .tokenNotAllowed
  -- the pull comes before every write; a failed pull reverts the whole call
  let T ← Tx.ofOption .transferFailed ((w.tokens token).transferFrom D.self owner D.self amount)
  Tx.set { w with
    tokens := update w.tokens token T, moves := w.moves ++ [.pulled token owner amount] }
  let billId := w.billCounter + 1
  let locked ← Tx.checkedAdd .overflow (w.totalLocked token) amount
  let free ← Tx.checkedAdd .overflow (w.freeBalance owner) amount
  writeLedger fun l => { l with
    billCounter := billId,
    bills := update l.bills billId (packBill owner tokenId .minted),
    billAmounts := update l.billAmounts billId amount,
    totalLocked := update l.totalLocked token locked,
    freeBalance := update l.freeBalance owner free }
  emit (.billMinted billId owner token amount)
  pure billId

def lock (D : Deployment) (sender token : Address) (amount : ℕ) : M ℕ :=
  lockInto D token amount sender

def consumeAuthorization (D : Deployment) (env : Env) (registry sender : Address) (amount : ℕ) :
    M Bool := do
  if registry = D.registry then
    let w ← Tx.get
    match (IdentityRegistry.consumeAuthorization D.self w.now D.self sender amount
        w.registry).result with
    | .ok (answer, R) => do
        Tx.set { w with
          registry := R, calls := w.calls ++ [.consumeAuthorization sender amount] }
        pure answer
    | .error _ => Tx.revert .externalCallFailed
  else
    let answer ← callOut D (.consumeAuthorization sender amount) env.consumeAuthorization
    Tx.ofOption .externalCallFailed answer

def lockFor (D : Deployment) (env : Env) (sender token : Address) (amount : ℕ) (master : Address) :
    M ℕ := do
  Tx.revertIf (master = 0) .zeroAddress
  let w ← Tx.get
  let registry := w.identityRegistry
  Tx.revertIf (registry = 0) .identityRegistryNotSet
  -- the registry is asked about the caller; `master` comes from calldata and is not compared with
  -- the master the registry knows
  let authorized ← consumeAuthorization D env registry sender amount
  Tx.revertIf (authorized = false) (.subAgentNotAuthorized sender amount)
  lockInto D token amount master

def unlock (D : Deployment) (sender : Address) (billId : ℕ) : M Unit := do
  let bill ← requireBill billId
  Tx.revertIf (billOwner bill ≠ sender) (.notBillOwner billId)
  requireBillState billId bill .minted
  let w ← Tx.get
  let token := w.billToken bill
  let amount := w.billAmounts billId
  Tx.revertIf (w.freeBalance sender < amount)
    (.insufficientFreeBalance sender (w.freeBalance sender) amount)
  let free ← Tx.checkedSub .underflow (w.freeBalance sender) amount
  writeLedger fun l => { l with freeBalance := update l.freeBalance sender free }
  burnBill billId bill "unlocked"
  transfer D token sender amount

/-! ## Binding -/

/-- The checks on the two bills that all three ways of binding make. -/
def requireBindable (env : Env) (sender : Address) (buyerBillId agentBillId : ℕ) :
    M (Bytes32 × Bytes32) := do
  let buyerBill ← requireBill buyerBillId
  let agentBill ← requireBill agentBillId
  Tx.revertIf (billOwner buyerBill ≠ sender) (.notBillOwner buyerBillId)
  requireBillState buyerBillId buyerBill .minted
  requireBillState agentBillId agentBill .minted
  Tx.revertIf (billTokenId buyerBill ≠ billTokenId agentBill) .tokenNotAllowed
  Tx.revertIf (billOwner buyerBill = billOwner agentBill) .buyerAgentSameAddress
  enforceReputationGate env (billOwner agentBill)
  pure (buyerBill, agentBill)

/-- Allocate the binding, move both free balances to bound, apply the batch threshold. -/
def finalizeBind (buyerBillId agentBillId : ℕ) (scopeHash : Bytes32) : M ℕ := do
  let w ← Tx.get
  let buyerBill := w.bills buyerBillId
  let agentBill := w.bills agentBillId
  let bindingId := w.bindingCounter + 1
  let settleAfter ← Tx.checkedAdd .overflow w.now w.settleDelaySeconds
  writeLedger fun l => { l with
    bindingCounter := bindingId,
    bindings := update l.bindings bindingId
      { bindingId, buyerBillId, agentBillId, scopeHash, state := .active, createdAt := w.now,
        settleAfter } }
  let token := w.billToken buyerBill
  let buyerAmt := w.billAmounts buyerBillId
  let agentAmt := w.billAmounts agentBillId
  let pool ← Tx.checkedAdd .overflow buyerAmt agentAmt
  let pending ← Tx.checkedAdd .overflow (w.pendingBatchAmount token) pool
  writeLedger fun l => { l with
    pendingBatchAmount := update l.pendingBatchAmount token pending }
  -- the second move reads the balances the first one wrote
  moveFreeToBound (billOwner buyerBill) buyerAmt
  moveFreeToBound (billOwner agentBill) agentAmt
  (if 0 < w.batchThreshold token ∧ w.batchThreshold token ≤ pending then
    updateBinding bindingId fun b => { b with state := .pending } else pure ())
  emit (.billsBound bindingId buyerBillId agentBillId scopeHash)
  pure bindingId

def bindPair (buyerBillId agentBillId : ℕ) (buyerBill agentBill scopeHash : Bytes32) : M ℕ := do
  setBill buyerBillId (setBillState buyerBill .bound)
  setBill agentBillId (setBillState agentBill .bound)
  finalizeBind buyerBillId agentBillId scopeHash

def bind (env : Env) (sender : Address) (buyerBillId agentBillId : ℕ) (scopeHash : Bytes32) :
    M ℕ := do
  let (buyerBill, agentBill) ← requireBindable env sender buyerBillId agentBillId
  bindPair buyerBillId agentBillId buyerBill agentBill scopeHash

def requireAttestation (bindingId : ℕ) (taskId : Bytes32) : M Unit :=
  writeLedger fun l => { l with
    requiresAttestation := update l.requiresAttestation bindingId true,
    bindingTaskId := update l.bindingTaskId bindingId taskId }

def registerTaskPublisher (D : Deployment) (env : Env) (taskId buyerBill agentBill : Bytes32) :
    M Unit := do
  let answer ← callOut D (.registerTaskPublisher taskId (billOwner buyerBill) (billOwner agentBill))
    env.registerTaskPublisher
  Tx.ofOption .externalCallFailed answer

def bindWithAttestation (D : Deployment) (env : Env) (sender : Address)
    (buyerBillId agentBillId : ℕ) (scopeHash taskId : Bytes32) : M ℕ := do
  let w ← Tx.get
  Tx.revertIf (w.attestationGateway = 0) .gatewayNotSet
  Tx.revertIf (taskId = 0) .zeroAmount
  let (buyerBill, agentBill) ← requireBindable env sender buyerBillId agentBillId
  let bindingId ← bindPair buyerBillId agentBillId buyerBill agentBill scopeHash
  requireAttestation bindingId taskId
  registerTaskPublisher D env taskId buyerBill agentBill
  emit (.attestationBindingRegistered bindingId taskId)
  pure bindingId

def requireIntent (intent : IntentPackage) (buyerBillId agentBillId : ℕ)
    (buyerBill agentBill : Bytes32) : M Unit := do
  Tx.revertIf (intent.buyer ≠ billOwner buyerBill) (.intentPartyMismatch "buyer")
  Tx.revertIf (intent.seller ≠ billOwner agentBill) (.intentPartyMismatch "seller")
  let scaled ← Tx.checkedMul .overflow intent.amount intent.penaltyRate
  let sellerStake := scaled / 10000
  let w ← Tx.get
  Tx.revertIf (intent.amount ≠ w.billAmounts buyerBillId ∨ sellerStake ≠ w.billAmounts agentBillId)
    (.intentAmountMismatch intent.amount (w.billAmounts buyerBillId) (w.billAmounts agentBillId))
  Tx.revertIf (intent.expiresAt < w.now) (.intentExpired intent.expiresAt)
  Tx.revertIf (intent.serviceType = 0) .zeroAmount

def registerIntent (D : Deployment) (env : Env) (intent : IntentPackage) (bindingId : ℕ)
    (buyerBill agentBill intentHash : Bytes32) : M Unit := do
  if intent.verifier ≠ 0 then
    requireAttestation bindingId intentHash
    let w ← Tx.get
    if w.attestationGateway ≠ 0 then registerTaskPublisher D env intentHash buyerBill agentBill
    else pure ()
  else pure ()

def bindWithIntent (D : Deployment) (env : Env) (sender : Address) (intent : IntentPackage)
    (buyerBillId agentBillId : ℕ) : M ℕ := do
  let (buyerBill, agentBill) ← requireBindable env sender buyerBillId agentBillId
  requireIntent intent buyerBillId agentBillId buyerBill agentBill
  let intentHash := D.intentHash intent
  let bindingId ← bindPair buyerBillId agentBillId buyerBill agentBill intentHash
  writeLedger fun l => { l with
    intentPackages := update l.intentPackages bindingId intent }
  registerIntent D env intent bindingId buyerBill agentBill intentHash
  emit (.intentBound bindingId buyerBillId agentBillId intentHash)
  pure bindingId

/-! ## Settling -/

/-- The state check that `settle`, `settleWithTEE` and `refundOnTimeout` make. -/
def requireUnsettled (bindingId : ℕ) (b : Binding) : M Unit :=
  Tx.revertIf (b.state ≠ .active ∧ b.state ≠ .pending)
    (.wrongBindingState bindingId .active b.state)

def requireSettleDelay (b : Binding) : M Unit := do
  let w ← Tx.get
  Tx.revertIf (b.state = .active ∧ w.now < b.settleAfter) (.settleDelayActive b.settleAfter)

/-- Open the dispute window, or, on the attested path, pay at once. -/
def settle (D : Deployment) (env : Env) (sender : Address) (bindingId : ℕ) (proofHash : Bytes32) :
    M Unit := do
  let b ← requireBinding bindingId
  requireUnsettled bindingId b
  let w ← Tx.get
  if w.requiresAttestation bindingId = true then
    -- the gateway has its own quorum and challenge window, so neither delay nor window applies here
    Tx.revertIf (sender ≠ w.attestationGateway) (.attestationRequired bindingId)
    executeSettle D env bindingId b.buyerBillId b.agentBillId proofHash
  else
    Tx.revertIf (sender ≠ billOwner (w.bills b.buyerBillId) ∧
      sender ≠ billOwner (w.bills b.agentBillId) ∧ sender ≠ w.settleOperator)
      (.noDisputeAccess bindingId)
    requireSettleDelay b
    updateBinding bindingId fun b => { b with
      state := .finalizing, proofHash, settleSubmittedAt := w.now }
    let finalizeAfter ← Tx.checkedAdd .overflow w.now w.optimisticDisputeWindow
    emit (.settleSubmitted bindingId proofHash finalizeAfter)

def finalizeSettle (D : Deployment) (env : Env) (bindingId : ℕ) : M Unit := do
  let b ← requireBinding bindingId
  Tx.revertIf (b.state ≠ .finalizing) (.wrongBindingState bindingId .finalizing b.state)
  let w ← Tx.get
  let windowEnd ← Tx.checkedAdd .overflow b.settleSubmittedAt w.optimisticDisputeWindow
  Tx.revertIf (w.now < windowEnd) (.finalizeWindowOpen windowEnd)
  executeSettle D env bindingId b.buyerBillId b.agentBillId b.proofHash

structure TEEAttestation where
  imageHash : Bytes32
  v : BitVec 8
  r : Bytes32
  s : Bytes32
  deriving DecidableEq

/-- A valid enclave attestation (`none` when the bytes do not decode to one) skips the dispute
window. -/
def settleWithTEE (D : Deployment) (env : Env) (bindingId : ℕ) (proofHash : Bytes32)
    (teeAttestation : Option TEEAttestation) : M Unit := do
  let b ← requireBinding bindingId
  requireUnsettled bindingId b
  requireSettleDelay b
  let w ← Tx.get
  Tx.revertIf (w.teeVerifier = 0) .teeVerifierNotSet
  let attestation ← Tx.ofOption .malformedCalldata teeAttestation
  -- the verifier is a view; all that matters is whether it reverts
  Tx.ofOption .externalCallFailed env.verifySettlement
  executeSettle D env bindingId b.buyerBillId b.agentBillId proofHash
  emit (.teeSettled bindingId attestation.imageHash)

def settleWithZKProof (_bindingId : ℕ) (_proofHash : Bytes32) (_zkProof : List UInt8) : M Unit :=
  Tx.revert .zkNotImplemented

def refundOnTimeout (D : Deployment) (env : Env) (sender : Address) (bindingId : ℕ) : M Unit := do
  let b ← requireBinding bindingId
  requireUnsettled bindingId b
  let w ← Tx.get
  let deadline ← Tx.checkedAdd .overflow b.createdAt w.settleTimeoutSeconds
  Tx.revertIf (w.now < deadline) (.disputeNotExpired bindingId)
  Tx.revertIf (sender ≠ billOwner (w.bills b.buyerBillId)) (.notBillOwner b.buyerBillId)
  executeRefund D env bindingId b.buyerBillId b.agentBillId
  emit (.bindingRefunded bindingId (w.billAmounts b.buyerBillId) (w.billAmounts b.agentBillId))

/-! ## Disputes -/

def dispute (sender : Address) (bindingId : ℕ) (evidenceHash : Bytes32) : M Unit := do
  let b ← requireBinding bindingId
  Tx.revertIf (b.state ≠ .finalizing) (.wrongBindingState bindingId .finalizing b.state)
  let w ← Tx.get
  let windowEnd ← Tx.checkedAdd .overflow b.settleSubmittedAt w.optimisticDisputeWindow
  Tx.revertIf (windowEnd ≤ w.now) (.disputeWindowClosed windowEnd)
  Tx.revertIf (sender ≠ billOwner (w.bills b.buyerBillId)) (.noDisputeAccess bindingId)
  updateBinding bindingId fun b => { b with
    state := .disputed, disputedAt := w.now, disputeInitiator := sender }
  updateArbitration bindingId fun _ =>
    { buyerEvidenceHash := evidenceHash, buyerSubmittedAt := w.now, startedAt := w.now }
  emit (.disputeRaised bindingId sender evidenceHash)

def submitArbitrationEvidence (sender : Address) (bindingId : ℕ) (evidenceHash : Bytes32) :
    M Unit := do
  let b ← requireBinding bindingId
  Tx.revertIf (b.state ≠ .disputed) (.wrongBindingState bindingId .disputed b.state)
  let w ← Tx.get
  let arb := w.arbitrations bindingId
  Tx.revertIf (arb.startedAt = 0) (.arbitrationNotStarted bindingId)
  Tx.revertIf (arb.resolved = true) (.arbitrationAlreadyResolved bindingId)
  let windowEnd ← Tx.checkedAdd .overflow arb.startedAt w.evidenceWindow
  Tx.revertIf (windowEnd ≤ w.now) (.evidenceWindowClosed bindingId)
  if sender = billOwner (w.bills b.buyerBillId) then
    updateArbitration bindingId fun arb => { arb with
      buyerEvidenceHash := evidenceHash, buyerSubmittedAt := w.now }
  else if sender = billOwner (w.bills b.agentBillId) then
    updateArbitration bindingId fun arb => { arb with
      agentEvidenceHash := evidenceHash, agentSubmittedAt := w.now }
  else Tx.revert (.noDisputeAccess bindingId)
  emit (.arbitrationEvidenceSubmitted bindingId sender evidenceHash)

def requireAutoResolvable (bindingId totalPool windowEnd : ℕ) : M Unit := do
  let w ← Tx.get
  if w.autoArbitrationThreshold ≤ totalPool then
    let timeout ← Tx.checkedAdd .overflow windowEnd w.largeDisputeTimeoutSeconds
    Tx.revertIf (w.now < timeout) (.largeDisputeRequiresAdmin bindingId totalPool)
  else pure ()

/-- After the evidence window anyone may resolve a small dispute by who submitted evidence, and
after a further timeout a large one too. -/
def autoResolveArbitration (D : Deployment) (env : Env) (bindingId : ℕ) : M Unit := do
  let b ← requireBinding bindingId
  Tx.revertIf (b.state ≠ .disputed) (.wrongBindingState bindingId .disputed b.state)
  let w ← Tx.get
  let arb := w.arbitrations bindingId
  Tx.revertIf (arb.startedAt = 0) (.arbitrationNotStarted bindingId)
  Tx.revertIf (arb.resolved = true) (.arbitrationAlreadyResolved bindingId)
  let windowEnd ← Tx.checkedAdd .overflow arb.startedAt w.evidenceWindow
  Tx.revertIf (w.now < windowEnd) (.finalizeWindowOpen windowEnd)
  let totalPool ← Tx.checkedAdd .overflow (w.billAmounts b.buyerBillId)
    (w.billAmounts b.agentBillId)
  requireAutoResolvable bindingId totalPool windowEnd
  updateArbitration bindingId fun arb => { arb with resolved := true }
  -- only the agent submitted: pay as if undisputed; only the buyer: the agent's stake is forfeit;
  -- nobody: each takes back its own; both: half and half
  if arb.agentSubmittedAt ≠ 0 ∧ arb.buyerSubmittedAt = 0 then
    emit (.arbitrationAutoResolved bindingId false 0)
    executeSettle D env bindingId b.buyerBillId b.agentBillId b.proofHash
  else if arb.buyerSubmittedAt ≠ 0 ∧ arb.agentSubmittedAt = 0 then
    emit (.arbitrationAutoResolved bindingId true 10000)
    executeSplit D env bindingId b.buyerBillId b.agentBillId 10000
  else if arb.buyerSubmittedAt = 0 ∧ arb.agentSubmittedAt = 0 then
    emit (.arbitrationAutoResolved bindingId true 10000)
    executeRefund D env bindingId b.buyerBillId b.agentBillId
  else
    emit (.arbitrationAutoResolved bindingId false 5000)
    executeSplit D env bindingId b.buyerBillId b.agentBillId 5000

/-- The bounds of an admin's split between two parties that both submitted evidence. -/
def minAdminSplitBps : ℕ := 100

def maxAdminSplitBps : ℕ := 9900

def requireSplitMatchesEvidence (arb : ArbitrationRecord) (buyerShareBps : ℕ) : M Unit :=
  if arb.buyerSubmittedAt ≠ 0 ∧ arb.agentSubmittedAt ≠ 0 then
    Tx.revertIf (buyerShareBps < minAdminSplitBps ∨ maxAdminSplitBps < buyerShareBps)
      (.splitOutsideRange buyerShareBps)
  else if arb.buyerSubmittedAt ≠ 0 ∧ arb.agentSubmittedAt = 0 then
    Tx.revertIf (buyerShareBps ≠ 10000) .splitMustMatchEvidence
  else if arb.buyerSubmittedAt = 0 ∧ arb.agentSubmittedAt ≠ 0 then
    Tx.revertIf (buyerShareBps ≠ 0) .splitMustMatchEvidence
  else
    Tx.revertIf (buyerShareBps ≠ 10000) .splitMustMatchEvidence

/-- After the evidence window the admin splits the pool, within what the submitted evidence allows.
-/
def resolveDispute (D : Deployment) (env : Env) (sender : Address) (bindingId buyerShareBps : ℕ) :
    M Unit := do
  onlyAdmin D sender
  Tx.revertIf (10000 < buyerShareBps) .invalidSplit
  let b ← requireBinding bindingId
  Tx.revertIf (b.state ≠ .disputed) (.wrongBindingState bindingId .disputed b.state)
  let w ← Tx.get
  let arb := w.arbitrations bindingId
  Tx.revertIf (arb.startedAt = 0) (.arbitrationNotStarted bindingId)
  let windowEnd ← Tx.checkedAdd .overflow arb.startedAt w.evidenceWindow
  Tx.revertIf (w.now < windowEnd) (.arbitrationEvidenceWindowOpen windowEnd)
  -- unlike `autoResolveArbitration`, nothing here looks at `arb.resolved`
  requireSplitMatchesEvidence arb buyerShareBps
  updateArbitration bindingId fun arb => { arb with resolved := true }
  emit (.disputeResolved bindingId buyerShareBps)
  executeSplit D env bindingId b.buyerBillId b.agentBillId buyerShareBps

/-! ## Transactions -/

inductive Call
  | lock (token : Address) (amount : ℕ)
  | lockFor (token : Address) (amount : ℕ) (master : Address)
  | bind (buyerBillId agentBillId : ℕ) (scopeHash : Bytes32)
  | bindWithAttestation (buyerBillId agentBillId : ℕ) (scopeHash taskId : Bytes32)
  | bindWithIntent (intent : IntentPackage) (buyerBillId agentBillId : ℕ)
  | settle (bindingId : ℕ) (proofHash : Bytes32)
  | finalizeSettle (bindingId : ℕ)
  | dispute (bindingId : ℕ) (evidenceHash : Bytes32)
  | submitArbitrationEvidence (bindingId : ℕ) (evidenceHash : Bytes32)
  | autoResolveArbitration (bindingId : ℕ)
  | settleWithTEE (bindingId : ℕ) (proofHash : Bytes32) (teeAttestation : Option TEEAttestation)
  | settleWithZKProof (bindingId : ℕ) (proofHash : Bytes32) (zkProof : List UInt8)
  | resolveDispute (bindingId buyerShareBps : ℕ)
  | refundOnTimeout (bindingId : ℕ)
  | unlock (billId : ℕ)
  deriving DecidableEq

/-- The body of a guarded entry point, its return value dropped. -/
def Call.body (D : Deployment) (env : Env) (sender : Address) : Call → M Unit
  | .lock token amount => do let _ ← Bilateral.lock D sender token amount
  | .lockFor token amount master => do
      let _ ← Bilateral.lockFor D env sender token amount master
  | .bind buyerBillId agentBillId scopeHash => do
      let _ ← Bilateral.bind env sender buyerBillId agentBillId scopeHash
  | .bindWithAttestation buyerBillId agentBillId scopeHash taskId => do
      let _ ← Bilateral.bindWithAttestation D env sender buyerBillId agentBillId scopeHash taskId
  | .bindWithIntent intent buyerBillId agentBillId => do
      let _ ← Bilateral.bindWithIntent D env sender intent buyerBillId agentBillId
  | .settle bindingId proofHash => Bilateral.settle D env sender bindingId proofHash
  | .finalizeSettle bindingId => Bilateral.finalizeSettle D env bindingId
  | .dispute bindingId evidenceHash => Bilateral.dispute sender bindingId evidenceHash
  | .submitArbitrationEvidence bindingId evidenceHash =>
    Bilateral.submitArbitrationEvidence sender bindingId evidenceHash
  | .autoResolveArbitration bindingId => Bilateral.autoResolveArbitration D env bindingId
  | .settleWithTEE bindingId proofHash teeAttestation =>
    Bilateral.settleWithTEE D env bindingId proofHash teeAttestation
  | .settleWithZKProof bindingId proofHash zkProof =>
    Bilateral.settleWithZKProof bindingId proofHash zkProof
  | .resolveDispute bindingId buyerShareBps =>
    Bilateral.resolveDispute D env sender bindingId buyerShareBps
  | .refundOnTimeout bindingId => Bilateral.refundOnTimeout D env sender bindingId
  | .unlock billId => Bilateral.unlock D sender billId

def Call.exec (D : Deployment) (env : Env) (sender : Address) (c : Call) : M Unit :=
  nonReentrant (c.body D env sender)

/-- The actions of the system: time passes, somebody makes a call that needs no guard, or somebody
makes a guarded call, which finds the contracts around the core in some condition. -/
inductive Act
  | tick (time : ℕ)
  | outside (a : Outside)
  | call (sender : Address) (env : Env) (c : Call)

def World.fresh (w : World) : World :=
  { w with
    entered := false, moves := [], calls := [], events := [],
    registry := { w.registry with events := [] } }

/-- **One transaction.** -/
def step (D : Deployment) (w : World) : Act → Option World
  | .tick time => if w.now ≤ time then some { w.fresh with now := time } else none
  | .outside a => a.attempt D w.fresh
  | .call sender env c =>
    if sender = D.self ∨ sender = 0 then none
    else
      match (c.exec D env sender w.fresh).result with
      | .ok (_, w') => some w'
      | .error _ => none

abbrev History : Type := List (Entry World Act)

abbrev Reach (D : Deployment) : History → World → Prop := Run (Init D) (step D)

end Karma.Bilateral
