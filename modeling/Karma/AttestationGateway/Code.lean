import Karma.Evm.Run
import Karma.VerifierRegistry.Code

/-! # `KarmaAttestationGateway` — the contract and the system around it

The gateway lets a binding of the settlement core be settled only after its evidence was published,
enough verifiers attested to it, and a challenge window passed. -/

namespace Karma.AttestationGateway

open Evm Function

/-- The custom errors of the gateway that it uses, the arithmetic panic, and an external call whose
failure is passed on. -/
inductive Error
  | unauthorized
  | evidenceAlreadyPublished
  | verifierNotActive (verifier : Address)
  | attestationAlreadySubmitted (verifier : Address) (taskId : Bytes32)
  | invalidSignature
  | insufficientAttestations (valid required : ℕ)
  | challengeWindowOpen
  | challengeAlreadyRaised
  | settlementBlocked
  | noActiveChallenge
  | challengeResolved
  | notArbitrator
  | invalidAddress
  | taskNotFound
  | taskBindingMismatch (taskId : Bytes32) (bindingId : ℕ) (bindingTaskId : Bytes32)
  | failedAttestationsBlock (failCount required : ℕ)
  | challengeWindowTooShort (minimum provided : ℕ)
  | challengeStakeNotConfigured
  | challengeStakeTransferFailed
  | notTaskPublisher (caller : Address)
  | overflow
  | externalCallFailed
  deriving DecidableEq, Repr

inductive Event
  | evidencePublished (taskId evidenceHash : Bytes32) (cid : String)
  | attestationSubmitted (taskId : Bytes32) (verifier : Address) (valid : Bool)
  | settlementApproved (taskId : Bytes32) (bindingId : ℕ) (proofHash : Bytes32)
  | challengeRaised (taskId : Bytes32) (challenger : Address) (reason evidenceCid : String)
  | challengeResolvedEvent (taskId : Bytes32) (upheld : Bool) (arbitrator : Address)
  | challengeWindowDurationUpdated (newDuration : ℕ)
  | challengeStakeConfigUpdated (token : Address) (amount : ℕ)
  | challengeStakeRefunded (taskId : Bytes32) (challenger : Address) (amount : ℕ)
  | challengeStakeSlashed (taskId : Bytes32) (challenger : Address) (amount : ℕ)
  | taskPublishersRegistered (taskId : Bytes32) (buyer agent : Address)
  deriving DecidableEq, Repr

inductive Move
  | pulled (token owner : Address) (amount : ℕ)
  | sent (token target : Address) (amount : ℕ)
  deriving DecidableEq, Repr

structure Deployment where
  self : Address
  registry : VerifierRegistry.Deployment
  bilateralContract : Address
  arbitrator : Address
  /-- The constructor's `_challengeWindowDuration`, which it takes as it is. -/
  windowDuration : ℕ
  digest : Bytes32 → Bytes32 → String → Address → Bytes32
  /-- The signer recovered from a digest and a signature. -/
  ecrecover : Bytes32 → BitVec 8 → Bytes32 → Bytes32 → Address
  self_ne_zero : self ≠ 0
  self_ne_registry : self ≠ registry.self
  bilateral_ne_zero : bilateralContract ≠ 0
  arbitrator_ne_zero : arbitrator ≠ 0

structure Storage where
  challengeWindowDuration : ℕ := 0
  challengeStakeToken : Address := 0
  challengeStakeAmount : ℕ := 0
  taskEvidence : Bytes32 → Bytes32 := fun _ => 0
  taskEvidenceCid : Bytes32 → String := fun _ => ""
  challengeEnd : Bytes32 → ℕ := fun _ => 0
  challenged : Bytes32 → Bool := fun _ => false
  challengeUpheld : Bytes32 → Bool := fun _ => false
  challengeResolved : Bytes32 → Bool := fun _ => false
  challengerOf : Bytes32 → Address := fun _ => 0
  challengeStakeOf : Bytes32 → ℕ := fun _ => 0
  taskPublishers : Bytes32 → Address → Bool := fun _ _ => false
  attestationSubmitted : Bytes32 → Address → Bool := fun _ _ => false
  validAttestationCount : Bytes32 → ℕ := fun _ => 0
  failAttestationCount : Bytes32 → ℕ := fun _ => 0

/-- The storage, what the gateway depends on, and the receipt of the transaction. -/
structure World extends Storage where
  verifiers : VerifierRegistry.Registry
  tokens : Address → Erc20 Address
  /-- `block.timestamp`. -/
  now : ℕ
  moves : List Move
  events : List Event

structure Init (D : Deployment) (w : World) : Prop where
  storage : w.toStorage = { challengeWindowDuration := D.windowDuration }
  allowance : ∀ t s, (w.tokens t).allowance D.self s = 0

abbrev M (α : Type) : Type := Tx Error World α

def emit (e : Event) : M Unit := Tx.modify fun w => { w with events := w.events ++ [e] }

def write (f : Storage → Storage) : M Unit :=
  Tx.modify fun w => { w with toStorage := f w.toStorage }

def minChallengeWindow : ℕ := 3600

def failedAttestationBlock : ℕ := 1

/-! ## Calls to the other contracts -/

/-- Run a function of the registry on this world, under the gateway's name. -/
def World.runRegistry (w : World) (D : Deployment) (sender : Address) (c : VerifierRegistry.Call) :
    Option World :=
  match (VerifierRegistry.exec D.registry sender c
      { toRegistry := w.verifiers, tokens := w.tokens }).result with
  | .ok (_, R) => some { w with verifiers := R.toRegistry, tokens := R.tokens }
  | .error _ => none

def callRegistry (D : Deployment) (c : VerifierRegistry.Call) : M Unit := do
  let w ← Tx.get
  let w' ← Tx.ofOption .externalCallFailed (w.runRegistry D D.self c)
  Tx.set w'

def tryRegistry (D : Deployment) (c : VerifierRegistry.Call) : M Unit :=
  Tx.modify fun w => (w.runRegistry D D.self c).getD w

def pullStake (D : Deployment) (owner : Address) (amount : ℕ) : M Unit := do
  let w ← Tx.get
  let token := w.challengeStakeToken
  let T ← Tx.ofOption .challengeStakeTransferFailed
    ((w.tokens token).transferFrom D.self owner D.self amount)
  Tx.set { w with
    tokens := update w.tokens token T, moves := w.moves ++ [.pulled token owner amount] }

def sendStake (D : Deployment) (target : Address) (amount : ℕ) : M Unit := do
  let w ← Tx.get
  let token := w.challengeStakeToken
  Tx.revertIf (token = 0) .externalCallFailed
  let T ← Tx.ofOption .challengeStakeTransferFailed ((w.tokens token).transfer D.self target amount)
  Tx.set { w with
    tokens := update w.tokens token T, moves := w.moves ++ [.sent token target amount] }

structure Core where
  bindingTaskId : Option Bytes32 := none
  settle : Option Unit := none
  deriving DecidableEq

def registerTaskPublisher (D : Deployment) (sender : Address) (taskId : Bytes32)
    (buyer agent : Address) : M Unit := do
  Tx.revertIf (sender ≠ D.bilateralContract) .unauthorized
  write fun s => { s with
    taskPublishers := update s.taskPublishers taskId
      (update (update (s.taskPublishers taskId) buyer true) agent true) }
  emit (.taskPublishersRegistered taskId buyer agent)

def publishEvidence (sender : Address) (taskId evidenceHash : Bytes32) (cid : String) : M Unit := do
  let w ← Tx.get
  Tx.revertIf (w.taskPublishers taskId sender = false) (.notTaskPublisher sender)
  Tx.revertIf (w.taskEvidence taskId ≠ 0) .evidenceAlreadyPublished
  let windowEnd ← Tx.checkedAdd .overflow w.now w.challengeWindowDuration
  write fun s => { s with
    taskEvidence := update s.taskEvidence taskId evidenceHash,
    taskEvidenceCid := update s.taskEvidenceCid taskId cid,
    challengeEnd := update s.challengeEnd taskId windowEnd }
  emit (.evidencePublished taskId evidenceHash cid)

def countAttestation (taskId : Bytes32) (valid : Bool) : M Unit := do
  let w ← Tx.get
  if valid = true then
    let count ← Tx.checkedAdd .overflow (w.validAttestationCount taskId) 1
    write fun s => { s with
      validAttestationCount := update s.validAttestationCount taskId count }
  else
    let count ← Tx.checkedAdd .overflow (w.failAttestationCount taskId) 1
    write fun s => { s with
      failAttestationCount := update s.failAttestationCount taskId count }

def submitAttestation (D : Deployment) (sender : Address) (taskId : Bytes32) (v : BitVec 8)
    (r s : Bytes32) (valid : Bool) : M Bool := do
  let w ← Tx.get
  let evidenceHash := w.taskEvidence taskId
  Tx.revertIf (evidenceHash = 0) .taskNotFound
  Tx.revertIf (w.verifiers.isActiveVerifier sender = false) (.verifierNotActive sender)
  Tx.revertIf (w.attestationSubmitted taskId sender = true)
    (.attestationAlreadySubmitted sender taskId)
  let digest := D.digest taskId evidenceHash (w.taskEvidenceCid taskId) sender
  let recovered := D.ecrecover digest v r s
  Tx.revertIf (recovered ≠ sender ∨ recovered = 0) .invalidSignature
  write fun s => { s with
    attestationSubmitted := update s.attestationSubmitted taskId
      (update (s.attestationSubmitted taskId) sender true) }
  countAttestation taskId valid
  callRegistry D (.recordAttestation sender valid)
  -- the reward is best effort: an empty pool does not stop the attestation
  let w ← Tx.get
  (if valid = true ∧ 0 < w.verifiers.verificationReward ∧ w.verifiers.stakingToken ≠ 0 then
    tryRegistry D (.rewardVerifier sender w.verifiers.verificationReward)
  else pure ())
  emit (.attestationSubmitted taskId sender valid)
  pure true

def World.isQuorumReached (w : World) (taskId : Bytes32) : Bool :=
  decide (w.verifiers.getRequiredThreshold ≤ w.validAttestationCount taskId)

/-- The gates of `settleWithAttestation`, in the order of the source. -/
def requireGates (core : Core) (taskId : Bytes32) (bindingId : ℕ) (proofHash : Bytes32) :
    M Unit := do
  let w ← Tx.get
  Tx.revertIf (w.taskEvidence taskId = 0) .taskNotFound
  let boundTaskId ← Tx.ofOption .externalCallFailed core.bindingTaskId
  Tx.revertIf (boundTaskId ≠ taskId) (.taskBindingMismatch taskId bindingId boundTaskId)
  -- the source reuses the error of the signature check for a hash that does not match
  Tx.revertIf (w.taskEvidence taskId ≠ proofHash) .invalidSignature
  let required := w.verifiers.getRequiredThreshold
  Tx.revertIf (required * failedAttestationBlock ≤ w.failAttestationCount taskId)
    (.failedAttestationsBlock (w.failAttestationCount taskId) required)
  Tx.revertIf (w.validAttestationCount taskId < required)
    (.insufficientAttestations (w.validAttestationCount taskId) required)
  Tx.revertIf (w.now < w.challengeEnd taskId) .challengeWindowOpen
  if w.challenged taskId = true then
    Tx.revertIf (w.challengeResolved taskId = false) .settlementBlocked
    Tx.revertIf (w.challengeUpheld taskId = true) .settlementBlocked
  else pure ()

def settleWithAttestation (core : Core) (taskId : Bytes32) (bindingId : ℕ) (proofHash : Bytes32) :
    M Unit := do
  requireGates core taskId bindingId proofHash
  let settled ← Tx.callOut (fun (_ : Empty) w => w) [] core.settle
  Tx.revertIf (settled = none) .externalCallFailed
  emit (.settlementApproved taskId bindingId proofHash)

def raiseChallenge (D : Deployment) (sender : Address) (taskId : Bytes32)
    (reason evidenceCid : String) : M Unit := do
  let w ← Tx.get
  Tx.revertIf (w.taskEvidence taskId = 0) .taskNotFound
  Tx.revertIf (w.challengeEnd taskId < w.now) .challengeWindowOpen
  Tx.revertIf (w.challenged taskId = true) .challengeAlreadyRaised
  let stakeAmount := w.challengeStakeAmount
  (if 0 < stakeAmount then do
    Tx.revertIf (w.challengeStakeToken = 0) .challengeStakeNotConfigured
    pullStake D sender stakeAmount
    write fun s => { s with
      challengerOf := update s.challengerOf taskId sender,
      challengeStakeOf := update s.challengeStakeOf taskId stakeAmount }
  else pure ())
  write fun s => { s with challenged := update s.challenged taskId true }
  emit (.challengeRaised taskId sender reason evidenceCid)

def resolveChallenge (D : Deployment) (sender : Address) (taskId : Bytes32) (upheld : Bool) :
    M Unit := do
  Tx.revertIf (sender ≠ D.arbitrator) .notArbitrator
  let w ← Tx.get
  Tx.revertIf (w.challenged taskId = false) .noActiveChallenge
  Tx.revertIf (w.challengeResolved taskId = true) .challengeResolved
  write fun s => { s with
    challengeResolved := update s.challengeResolved taskId true,
    challengeUpheld := update s.challengeUpheld taskId upheld }
  let stakeAmount := w.challengeStakeOf taskId
  (if 0 < stakeAmount then do
    let challenger := w.challengerOf taskId
    write fun s => { s with challengeStakeOf := update s.challengeStakeOf taskId 0 }
    if upheld = true then do
      sendStake D challenger stakeAmount
      emit (.challengeStakeRefunded taskId challenger stakeAmount)
    else do
      sendStake D D.arbitrator stakeAmount
      emit (.challengeStakeSlashed taskId challenger stakeAmount)
  else pure ())
  emit (.challengeResolvedEvent taskId upheld sender)

/-- The one place where the floor is checked. -/
def setChallengeWindowDuration (D : Deployment) (sender : Address) (duration : ℕ) : M Unit := do
  Tx.revertIf (sender ≠ D.arbitrator) .notArbitrator
  Tx.revertIf (duration < minChallengeWindow) (.challengeWindowTooShort minChallengeWindow duration)
  write fun s => { s with challengeWindowDuration := duration }
  emit (.challengeWindowDurationUpdated duration)

/-- Nothing here looks at the stakes already locked. -/
def setChallengeStake (D : Deployment) (sender token : Address) (amount : ℕ) : M Unit := do
  Tx.revertIf (sender ≠ D.arbitrator) .notArbitrator
  Tx.revertIf (0 < amount ∧ token = 0) .invalidAddress
  write fun s => { s with challengeStakeToken := token, challengeStakeAmount := amount }
  emit (.challengeStakeConfigUpdated token amount)

/-! ## Views -/

def World.isChallengeWindowOpen (w : World) (taskId : Bytes32) : Bool :=
  decide (w.now ≤ w.challengeEnd taskId) && decide (w.taskEvidence taskId ≠ 0)

def World.isChallengeWindowClosed (w : World) (taskId : Bytes32) : Bool :=
  decide (w.challengeEnd taskId < w.now) && decide (w.taskEvidence taskId ≠ 0)

def World.unblocked (w : World) (taskId : Bytes32) : Bool :=
  if w.challenged taskId = true then
    if w.challengeResolved taskId = false then false
    else if w.challengeUpheld taskId = true then false
    else true
  else true

def World.canSettle (w : World) (taskId proofHash : Bytes32) : Bool :=
  if w.taskEvidence taskId = 0 then false
  else if w.taskEvidence taskId ≠ proofHash then false
  else if w.validAttestationCount taskId < w.verifiers.getRequiredThreshold then false
  else if w.verifiers.getRequiredThreshold ≤ w.failAttestationCount taskId then false
  else if w.now < w.challengeEnd taskId then false
  else w.unblocked taskId

/-- The same without the proof. -/
def World.canSettleTask (w : World) (taskId : Bytes32) : Bool :=
  if w.taskEvidence taskId = 0 then false
  else if w.validAttestationCount taskId < w.verifiers.getRequiredThreshold then false
  else if w.verifiers.getRequiredThreshold ≤ w.failAttestationCount taskId then false
  else if w.now < w.challengeEnd taskId then false
  else w.unblocked taskId

/-! ## Transactions -/

inductive Call
  | registerTaskPublisher (taskId : Bytes32) (buyer agent : Address)
  | publishEvidence (taskId evidenceHash : Bytes32) (cid : String)
  | submitAttestation (taskId : Bytes32) (v : BitVec 8) (r s : Bytes32) (valid : Bool)
  | settleWithAttestation (core : Core) (taskId : Bytes32) (bindingId : ℕ) (proofHash : Bytes32)
  | raiseChallenge (taskId : Bytes32) (reason evidenceCid : String)
  | resolveChallenge (taskId : Bytes32) (upheld : Bool)
  | setChallengeWindowDuration (duration : ℕ)
  | setChallengeStake (token : Address) (amount : ℕ)
  deriving DecidableEq

def exec (D : Deployment) (sender : Address) : Call → M Unit
  | .registerTaskPublisher taskId buyer agent => registerTaskPublisher D sender taskId buyer agent
  | .publishEvidence taskId evidenceHash cid => publishEvidence sender taskId evidenceHash cid
  | .submitAttestation taskId v r s valid => do
      let _ ← submitAttestation D sender taskId v r s valid
  | .settleWithAttestation core taskId bindingId proofHash =>
    settleWithAttestation core taskId bindingId proofHash
  | .raiseChallenge taskId reason evidenceCid => raiseChallenge D sender taskId reason evidenceCid
  | .resolveChallenge taskId upheld => resolveChallenge D sender taskId upheld
  | .setChallengeWindowDuration duration => setChallengeWindowDuration D sender duration
  | .setChallengeStake token amount => setChallengeStake D sender token amount

inductive Act
  | tick (time : ℕ)
  | gateway (sender : Address) (c : Call)
  | verifiers (sender : Address) (c : VerifierRegistry.Call)
  | erc20 (sender token : Address) (c : Erc20.Call Address)

def Act.sender : Act → Option Address
  | .tick _ => none
  | .gateway sender _ | .verifiers sender _ | .erc20 sender _ _ => some sender

def World.fresh (w : World) : World := { w with moves := [], events := [] }

/-- **One transaction.** -/
def step (D : Deployment) (w : World) (a : Act) : Option World :=
  if a.sender = some D.self ∨ a.sender = some D.registry.self ∨ a.sender = some 0 then none
  else
    match a with
    | .tick time => if w.now ≤ time then some { w.fresh with now := time } else none
    | .gateway sender c =>
      match (exec D sender c w.fresh).result with
      | .ok (_, w') => some w'
      | .error _ => none
    | .verifiers sender c => w.fresh.runRegistry D sender c
    | .erc20 sender token c =>
      ((w.tokens token).run sender c).map fun T =>
        { w.fresh with tokens := update w.tokens token T }

abbrev History : Type := List (Entry World Act)

abbrev Reach (D : Deployment) : History → World → Prop := Run (Init D) (step D)

end Karma.AttestationGateway
