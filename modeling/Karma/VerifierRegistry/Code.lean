import Karma.Evm.Erc20
import Karma.Evm.Tx
import Karma.Evm.Word

/-! # `VerifierRegistry` — who may attest

The registry lists the verifier nodes, says how many valid attestations a task needs, and keeps the
verifiers' stakes and rewards. -/

namespace Karma.VerifierRegistry

open Evm Function

/-- The custom errors of the registry, the arithmetic panics, and a call to an address without
code. -/
inductive Error
  | unauthorized
  | verifierAlreadyRegistered
  | verifierNotFound
  | invalidAddress
  | invalidThreshold
  | thresholdExceedsTotal
  | insufficientStake
  | transferFailed
  | insufficientRewardPool
  | stakingTokenNotSet
  | overflow
  | underflow
  | externalCallFailed
  deriving DecidableEq, Repr

structure VerifierInfo where
  wallet : Address := 0
  endpointUrl : String := ""
  active : Bool := false
  stakeAmount : ℕ := 0
  successCount : ℕ := 0
  falseAttestationCount : ℕ := 0
  totalEarnings : ℕ := 0
  slashedAmount : ℕ := 0

inductive Event
  | verifierRegistered (wallet : Address) (endpointUrl : String) (stakeAmount : ℕ)
  | verifierRemoved (wallet : Address)
  | thresholdsUpdated (newThreshold newTotalVerifiers : ℕ)
  | verifierSuspended (wallet : Address)
  | verifierActivated (wallet : Address)
  | attestationRecorded (verifier : Address) (success : Bool)
  | verifierStaked (verifier : Address) (amount total : ℕ)
  | verifierUnstaked (verifier : Address) (amount remaining : ℕ)
  | verifierSlashed (verifier : Address) (amount : ℕ) (reason : String)
  | verifierRewarded (verifier : Address) (amount : ℕ)
  | stakingConfigUpdated (minStake reward : ℕ)
  | slashRecipientUpdated (recipient : Address)
  | authorizedCallerUpdated (caller : Address) (allowed : Bool)
  | rewardPoolCredited (amount : ℕ)
  | rewardAllocatorUpdated (allocator : Address)
  | scoringEngineUpdated (engine : Address)
  deriving DecidableEq, Repr

structure Deployment where
  self : Address
  admin : Address
  self_ne_zero : self ≠ 0
  admin_ne_zero : admin ≠ 0

structure Registry where
  authorizedCallers : Address → Bool := fun _ => false
  defaultThreshold : ℕ := 3
  defaultTotalVerifiers : ℕ := 5
  verifiers : Address → VerifierInfo := fun _ => {}
  verifierList : List Address := []
  stakingToken : Address := 0
  minStake : ℕ := 0
  verificationReward : ℕ := 0
  slashRecipient : Address := 0
  rewardPool : ℕ := 0
  rewardAllocator : Address := 0
  scoringEngine : Address := 0

def Deployment.created (D : Deployment) : Registry := { slashRecipient := D.admin }

structure World extends Registry where
  tokens : Address → Erc20 Address
  events : List Event := []

abbrev M (α : Type) : Type := Tx Error World α

def emit (e : Event) : M Unit := Tx.modify fun w => { w with events := w.events ++ [e] }

def write (f : Registry → Registry) : M Unit :=
  Tx.modify fun w => { w with toRegistry := f w.toRegistry }

def updateVerifier (wallet : Address) (f : VerifierInfo → VerifierInfo) : M Unit :=
  write fun R => { R with verifiers := update R.verifiers wallet (f (R.verifiers wallet)) }

/-! ## Modifiers, views and internal helpers -/

section Guards

variable (D : Deployment) (sender : Address)

def onlyAdmin : M Unit := Tx.revertIf (sender ≠ D.admin) .unauthorized

def onlyAuthorizedCaller : M Unit := do
  let w ← Tx.get
  Tx.revertIf (sender ≠ D.admin ∧ w.authorizedCallers sender = false) .unauthorized

def onlyRewardAllocator : M Unit := do
  let w ← Tx.get
  Tx.revertIf (sender ≠ w.rewardAllocator) .unauthorized

end Guards

def requireVerifier (wallet : Address) : M VerifierInfo := do
  let w ← Tx.get
  Tx.revertIf ((w.verifiers wallet).wallet = 0) .verifierNotFound
  pure (w.verifiers wallet)

def Registry.isActiveVerifier (R : Registry) (wallet : Address) : Bool :=
  decide ((R.verifiers wallet).wallet ≠ 0) && (R.verifiers wallet).active

def Registry.getRequiredThreshold (R : Registry) : ℕ := R.defaultThreshold

def Registry.activeCount (R : Registry) : ℕ :=
  R.verifierList.countP fun wallet => (R.verifiers wallet).active

def transfer (D : Deployment) (target : Address) (amount : ℕ) : M Unit := do
  let w ← Tx.get
  Tx.revertIf (w.stakingToken = 0) .externalCallFailed
  let T ← Tx.ofOption .transferFailed ((w.tokens w.stakingToken).transfer D.self target amount)
  Tx.set { w with tokens := update w.tokens w.stakingToken T }

/-! ## Admin functions -/

section Admin

variable (D : Deployment) (sender : Address)

def setAuthorizedCaller (caller : Address) (allowed : Bool) : M Unit := do
  onlyAdmin D sender
  Tx.revertIf (caller = 0) .invalidAddress
  write fun R => { R with authorizedCallers := update R.authorizedCallers caller allowed }
  emit (.authorizedCallerUpdated caller allowed)

def registerVerifier (wallet : Address) (endpointUrl : String) (_stakeAmount : ℕ) : M Unit := do
  onlyAdmin D sender
  Tx.revertIf (wallet = 0) .invalidAddress
  let w ← Tx.get
  Tx.revertIf ((w.verifiers wallet).wallet ≠ 0) .verifierAlreadyRegistered
  write fun R => { R with
    verifiers := update R.verifiers wallet
      { wallet, endpointUrl, active := decide (R.minStake = 0) },
    verifierList := R.verifierList ++ [wallet] }
  emit (.verifierRegistered wallet endpointUrl 0)
  let w ← Tx.get
  if w.defaultTotalVerifiers < w.activeCount then do
    write fun R => { R with defaultTotalVerifiers := w.activeCount }
    emit (.thresholdsUpdated w.defaultThreshold w.activeCount)
  else pure ()

def swapRemove (wallet : Address) (wallets : List Address) : List Address :=
  match wallets.findIdx? (· = wallet) with
  | some i => (wallets.set i (wallets.getLastD wallet)).dropLast
  | none => wallets

def removeVerifier (wallet : Address) : M Unit := do
  onlyAdmin D sender
  let _ ← requireVerifier wallet
  write fun R => { R with
    verifiers := update R.verifiers wallet {},
    verifierList := swapRemove wallet R.verifierList }
  emit (.verifierRemoved wallet)

def suspendVerifier (wallet : Address) : M Unit := do
  onlyAdmin D sender
  let _ ← requireVerifier wallet
  updateVerifier wallet fun v => { v with active := false }
  emit (.verifierSuspended wallet)

/-- Unlike `stake`, this does not look at the stake. -/
def activateVerifier (wallet : Address) : M Unit := do
  onlyAdmin D sender
  let _ ← requireVerifier wallet
  updateVerifier wallet fun v => { v with active := true }
  emit (.verifierActivated wallet)

def setSlashRecipient (recipient : Address) : M Unit := do
  onlyAdmin D sender
  Tx.revertIf (recipient = 0) .invalidAddress
  write fun R => { R with slashRecipient := recipient }
  emit (.slashRecipientUpdated recipient)

def setScoringEngine (engine : Address) : M Unit := do
  onlyAdmin D sender
  write fun R => { R with scoringEngine := engine }
  emit (.scoringEngineUpdated engine)

def setRewardAllocator (allocator : Address) : M Unit := do
  onlyAdmin D sender
  Tx.revertIf (allocator = 0) .invalidAddress
  write fun R => { R with rewardAllocator := allocator }
  emit (.rewardAllocatorUpdated allocator)

def setThresholds (threshold totalVerifiers : ℕ) : M Unit := do
  onlyAdmin D sender
  Tx.revertIf (threshold = 0 ∨ totalVerifiers = 0) .invalidThreshold
  Tx.revertIf (totalVerifiers < threshold) .thresholdExceedsTotal
  write fun R => { R with
    defaultThreshold := threshold, defaultTotalVerifiers := totalVerifiers }
  emit (.thresholdsUpdated threshold totalVerifiers)

end Admin

def suspendUnderstaked (minStake : ℕ) : List Address → M Unit
  | [] => pure ()
  | wallet :: wallets => do
      let w ← Tx.get
      (if (w.verifiers wallet).active = true ∧ (w.verifiers wallet).stakeAmount < minStake then do
        updateVerifier wallet fun v => { v with active := false }
        emit (.verifierSuspended wallet)
      else pure ())
      suspendUnderstaked minStake wallets

def setStakingConfig (D : Deployment) (sender token : Address) (minStake reward : ℕ) : M Unit := do
  onlyAdmin D sender
  write fun R => { R with stakingToken := token, minStake, verificationReward := reward }
  emit (.stakingConfigUpdated minStake reward)
  let w ← Tx.get
  suspendUnderstaked minStake w.verifierList

def recordAttestation (D : Deployment) (sender verifier : Address) (success : Bool) : M Unit := do
  onlyAuthorizedCaller D sender
  let v ← requireVerifier verifier
  (if success = true then do
    let count ← Tx.checkedAdd .overflow v.successCount 1
    updateVerifier verifier fun v => { v with successCount := count }
  else do
    let count ← Tx.checkedAdd .overflow v.falseAttestationCount 1
    updateVerifier verifier fun v => { v with falseAttestationCount := count })
  emit (.attestationRecorded verifier success)

def creditRewards (sender : Address) (amount : ℕ) : M Unit := do
  onlyRewardAllocator sender
  if amount = 0 then pure ()
  else do
    let w ← Tx.get
    let pool ← Tx.checkedAdd .overflow w.rewardPool amount
    write fun R => { R with rewardPool := pool }
    emit (.rewardPoolCredited amount)

def rewardVerifier (D : Deployment) (sender verifier : Address) (amount : ℕ) : M Unit := do
  onlyAuthorizedCaller D sender
  let v ← requireVerifier verifier
  let w ← Tx.get
  Tx.revertIf (w.rewardPool < amount) .insufficientRewardPool
  (if 0 < amount then do
    let earnings ← Tx.checkedAdd .overflow v.totalEarnings amount
    write fun R => { R with rewardPool := R.rewardPool - amount }
    updateVerifier verifier fun v => { v with totalEarnings := earnings }
    (if w.stakingToken ≠ 0 then transfer D verifier amount else pure ())
  else pure ())
  emit (.verifierRewarded verifier amount)

/-- A registered verifier that reaches the minimum becomes active, suspended or not. -/
def stake (D : Deployment) (sender : Address) (amount : ℕ) : M Unit := do
  let w ← Tx.get
  Tx.revertIf (w.stakingToken = 0) .stakingTokenNotSet
  let v ← requireVerifier sender
  let T ← Tx.ofOption .transferFailed
    ((w.tokens w.stakingToken).transferFrom D.self sender D.self amount)
  Tx.set { w with tokens := update w.tokens w.stakingToken T }
  let total ← Tx.checkedAdd .overflow v.stakeAmount amount
  updateVerifier sender fun v => { v with stakeAmount := total }
  (if v.active = false ∧ w.minStake ≤ total then do
    updateVerifier sender fun v => { v with active := true }
    emit (.verifierActivated sender)
  else pure ())
  emit (.verifierStaked sender amount total)

def unstake (D : Deployment) (sender : Address) (amount : ℕ) : M Unit := do
  let v ← requireVerifier sender
  let w ← Tx.get
  let needed ← Tx.checkedAdd .overflow amount w.minStake
  Tx.revertIf (v.stakeAmount < needed) .insufficientStake
  updateVerifier sender fun v => { v with stakeAmount := v.stakeAmount - amount }
  transfer D sender amount
  emit (.verifierUnstaked sender amount (v.stakeAmount - amount))

def slash (D : Deployment) (engine : Option Unit) (sender verifier : Address) (amount : ℕ)
    (reason : String) : M Unit := do
  onlyAdmin D sender
  let v ← requireVerifier verifier
  let amount := if v.stakeAmount < amount then v.stakeAmount else amount
  let slashed ← Tx.checkedAdd .overflow v.slashedAmount amount
  updateVerifier verifier fun v => { v with
    stakeAmount := v.stakeAmount - amount, slashedAmount := slashed }
  let w ← Tx.get
  (if 0 < amount ∧ w.stakingToken ≠ 0 then transfer D w.slashRecipient amount else pure ())
  (if v.stakeAmount - amount < w.minStake then do
    updateVerifier verifier fun v => { v with active := false }
    emit (.verifierSuspended verifier)
  else pure ())
  (if w.scoringEngine ≠ 0 then Tx.ofOption .externalCallFailed engine else pure ())
  emit (.verifierSlashed verifier amount reason)

inductive Call
  | setAuthorizedCaller (caller : Address) (allowed : Bool)
  | registerVerifier (wallet : Address) (endpointUrl : String) (stakeAmount : ℕ)
  | removeVerifier (wallet : Address)
  | suspendVerifier (wallet : Address)
  | activateVerifier (wallet : Address)
  | setSlashRecipient (recipient : Address)
  | setScoringEngine (engine : Address)
  | setRewardAllocator (allocator : Address)
  | setThresholds (threshold totalVerifiers : ℕ)
  | setStakingConfig (token : Address) (minStake reward : ℕ)
  | recordAttestation (verifier : Address) (success : Bool)
  | creditRewards (amount : ℕ)
  | rewardVerifier (verifier : Address) (amount : ℕ)
  | stake (amount : ℕ)
  | unstake (amount : ℕ)
  | slash (engine : Option Unit) (verifier : Address) (amount : ℕ) (reason : String)
  deriving DecidableEq

def exec (D : Deployment) (sender : Address) : Call → M Unit
  | .setAuthorizedCaller caller allowed => setAuthorizedCaller D sender caller allowed
  | .registerVerifier wallet endpointUrl stakeAmount =>
    registerVerifier D sender wallet endpointUrl stakeAmount
  | .removeVerifier wallet => removeVerifier D sender wallet
  | .suspendVerifier wallet => suspendVerifier D sender wallet
  | .activateVerifier wallet => activateVerifier D sender wallet
  | .setSlashRecipient recipient => setSlashRecipient D sender recipient
  | .setScoringEngine engine => setScoringEngine D sender engine
  | .setRewardAllocator allocator => setRewardAllocator D sender allocator
  | .setThresholds threshold totalVerifiers => setThresholds D sender threshold totalVerifiers
  | .setStakingConfig token minStake reward => setStakingConfig D sender token minStake reward
  | .recordAttestation verifier success => recordAttestation D sender verifier success
  | .creditRewards amount => creditRewards sender amount
  | .rewardVerifier verifier amount => rewardVerifier D sender verifier amount
  | .stake amount => stake D sender amount
  | .unstake amount => unstake D sender amount
  | .slash engine verifier amount reason => slash D engine sender verifier amount reason

end Karma.VerifierRegistry
