import Karma.Evm.Erc20
import Karma.Evm.Run
import Karma.Evm.Tx
import Karma.Evm.Word

/-! # `KarmaVerifierBond` — the vault of the verifiers' bonds

A verifier stakes tokens, is active from the minimum bond on, and gets its bond back after a
cooldown. -/

namespace Karma.VerifierBond

open Evm Function

/-- The custom errors of the contract, the arithmetic panics, and a call to an address without
code. -/
inductive Error
  | unauthorized
  | invalidAddress
  | invalidAmount
  | invalidConfig
  | tokenNotSet
  | transferFailed
  | notRegistered
  | insufficientBond
  | unstakingNotRequested
  | cooldownActive (readyAt : ℕ)
  | poolUnderThreshold (pool threshold : ℕ)
  | poolInsolvent (requested available : ℕ)
  | noWinners
  | reentrancy
  | overflow
  | underflow
  | externalCallFailed
  deriving DecidableEq, Repr

inductive Event
  | bondStaked (verifier : Address) (amount total : ℕ)
  | verifierActivated (verifier : Address) (bond : ℕ)
  | bondSlashed (verifier victim : Address) (amount victimAmount poolAmount : ℕ) (reason : Bytes32)
  | bondUnstakeRequested (verifier : Address) (amount readyAt : ℕ)
  | bondWithdrawn (verifier : Address) (amount remaining : ℕ)
  | verifierDeactivated (verifier : Address) (remainingBond : ℕ)
  | poolFunded (amount poolTotal : ℕ)
  | poolDistributed (winners : List Address) (amount perWinner : ℕ)
  | slasherUpdated (slasher : Address)
  | stakeConfigUpdated (token : Address) (minBond unbondCooldown minPoolPayout : ℕ)
  | slashSplitUpdated (victimShareBps : ℕ)
  deriving DecidableEq, Repr

def bpsDenominator : ℕ := 10000

structure Deployment where
  self : Address
  admin : Address
  self_ne_zero : self ≠ 0
  admin_ne_zero : admin ≠ 0

structure Bond where
  amount : ℕ := 0
  slashedTotal : ℕ := 0
  unbondAmount : ℕ := 0
  unbondRequestedAt : ℕ := 0
  registered : Bool := false
  active : Bool := false
  deriving DecidableEq

structure Config where
  slasher : Address := 0
  token : Address
  minBond : ℕ
  unbondCooldown : ℕ := 259200
  minPoolPayout : ℕ := 0
  victimShareBps : ℕ := 8000
  deriving DecidableEq

structure Vault where
  totalBonded : ℕ := 0
  slashPool : ℕ := 0
  bonds : Address → Bond := fun _ => {}
  members : List Address := []
  member : Address → Bool := fun _ => false

/-- The storage, the tokens, the clock, and the receipt of the transaction. -/
structure World extends Config, Vault where
  tokens : Address → Erc20 Address
  now : ℕ
  /-- `_locked` is 2. -/
  entered : Bool
  paid : List (Address × ℕ)
  events : List Event

/-- The state right after the constructor, which sets the token and the minimum bond. -/
structure Init (D : Deployment) (w : World) : Prop where
  config : w.toConfig = { token := w.token, minBond := w.minBond }
  vault : w.toVault = {}
  now : 0 < w.now
  entered : w.entered = false
  allowance : ∀ t a, (w.tokens t).allowance D.self a = 0

abbrev M (α : Type) : Type := Tx Error World α

def emit (e : Event) : M Unit := Tx.modify fun w => { w with events := w.events ++ [e] }

def writeConfig (f : Config → Config) : M Unit :=
  Tx.modify fun w => { w with toConfig := f w.toConfig }

def writeVault (f : Vault → Vault) : M Unit :=
  Tx.modify fun w => { w with toVault := f w.toVault }

def updateBond (verifier : Address) (f : Bond → Bond) : M Unit :=
  writeVault fun v => { v with bonds := update v.bonds verifier (f (v.bonds verifier)) }

def nonReentrant {α : Type} (body : M α) : M α := do
  let w ← Tx.get
  Tx.revertIf (w.entered = true) .reentrancy
  Tx.modify fun w => { w with entered := true }
  let r ← body
  Tx.modify fun w => { w with entered := false }
  pure r

def transfer (D : Deployment) (target : Address) (amount : ℕ) : M Unit := do
  let w ← Tx.get
  Tx.revertIf (w.token = 0) .externalCallFailed
  let T ← Tx.ofOption .transferFailed ((w.tokens w.token).transfer D.self target amount)
  Tx.set { w with
    tokens := update w.tokens w.token T, paid := w.paid ++ [(target, amount)] }

def transferNonzero (D : Deployment) (target : Address) (amount : ℕ) : M Unit :=
  if 0 < amount then transfer D target amount else pure ()

/-! ## Admin functions -/

section Admin

variable (D : Deployment) (sender : Address)

def onlyAdmin : M Unit := Tx.revertIf (sender ≠ D.admin) .unauthorized

def setSlasher (slasher : Address) : M Unit := do
  onlyAdmin D sender
  writeConfig fun c => { c with slasher }
  emit (.slasherUpdated slasher)

/-- The token can be replaced only while the vault is empty. -/
def setToken (token : Address) : M Unit := do
  onlyAdmin D sender
  Tx.revertIf (token = 0) .invalidAddress
  let w ← Tx.get
  Tx.revertIf (w.totalBonded ≠ 0 ∨ w.slashPool ≠ 0) .invalidConfig
  writeConfig fun c => { c with token }
  emit (.stakeConfigUpdated token w.minBond w.unbondCooldown w.minPoolPayout)

/-- Unlike `slash` and `withdrawUnstake`, this does not look at who is active. -/
def setStakeConfig (minBond unbondCooldown minPoolPayout : ℕ) : M Unit := do
  onlyAdmin D sender
  writeConfig fun c => { c with minBond, unbondCooldown, minPoolPayout }
  let w ← Tx.get
  emit (.stakeConfigUpdated w.token minBond unbondCooldown minPoolPayout)

def setSlashSplit (victimShareBps : ℕ) : M Unit := do
  onlyAdmin D sender
  Tx.revertIf (bpsDenominator < victimShareBps) .invalidConfig
  writeConfig fun c => { c with victimShareBps }
  emit (.slashSplitUpdated victimShareBps)

end Admin

/-! ## Staking -/

def register (verifier : Address) : M Unit := do
  let w ← Tx.get
  if (w.bonds verifier).registered = false then do
    updateBond verifier fun b => { b with registered := true }
    if w.member verifier = false then
      writeVault fun v => { v with
        member := update v.member verifier true, members := v.members ++ [verifier] }
    else pure ()
  else pure ()

/-- From the minimum bond on the verifier is active. -/
def stake (D : Deployment) (sender : Address) (amount : ℕ) : M Unit := nonReentrant do
  let w ← Tx.get
  Tx.revertIf (w.token = 0) .tokenNotSet
  Tx.revertIf (amount = 0) .invalidAmount
  let T ← Tx.ofOption .transferFailed ((w.tokens w.token).transferFrom D.self sender D.self amount)
  Tx.set { w with tokens := update w.tokens w.token T }
  register sender
  let bond ← Tx.checkedAdd .overflow (w.bonds sender).amount amount
  updateBond sender fun b => { b with amount := bond }
  let total ← Tx.checkedAdd .overflow w.totalBonded amount
  writeVault fun v => { v with totalBonded := total }
  (if (w.bonds sender).active = false ∧ w.minBond ≤ bond then do
    updateBond sender fun b => { b with active := true }
    emit (.verifierActivated sender bond)
  else pure ())
  emit (.bondStaked sender amount bond)

/-- Start the cooldown; the bond stays where it is, and the verifier active. -/
def requestUnstake (sender : Address) (amount : ℕ) : M Unit := do
  let w ← Tx.get
  Tx.revertIf ((w.bonds sender).registered = false) .notRegistered
  Tx.revertIf (amount = 0 ∨ (w.bonds sender).amount < amount) .invalidAmount
  updateBond sender fun b => { b with unbondAmount := amount, unbondRequestedAt := w.now }
  let readyAt ← Tx.checkedAdd .overflow w.now w.unbondCooldown
  emit (.bondUnstakeRequested sender amount readyAt)

def deactivateBelow (verifier : Address) : M Unit := do
  let w ← Tx.get
  if (w.bonds verifier).active = true ∧ (w.bonds verifier).amount < w.minBond then do
    updateBond verifier fun b => { b with active := false }
    emit (.verifierDeactivated verifier (w.bonds verifier).amount)
  else pure ()

def withdrawUnstake (D : Deployment) (sender : Address) : M Unit := nonReentrant do
  let w ← Tx.get
  let b := w.bonds sender
  Tx.revertIf (b.unbondRequestedAt = 0) .unstakingNotRequested
  let readyAt ← Tx.checkedAdd .overflow b.unbondRequestedAt w.unbondCooldown
  Tx.revertIf (w.now < readyAt) (.cooldownActive readyAt)
  let amount := if b.amount < b.unbondAmount then b.amount else b.unbondAmount
  let remaining ← Tx.checkedSub .underflow b.amount amount
  updateBond sender fun b => { b with
    unbondAmount := 0, unbondRequestedAt := 0, amount := remaining }
  let total ← Tx.checkedSub .underflow w.totalBonded amount
  writeVault fun v => { v with totalBonded := total }
  deactivateBelow sender
  transferNonzero D sender amount
  emit (.bondWithdrawn sender amount remaining)

/-- At most the whole bond; the victim's share of it is paid out, the rest goes to the pool. -/
def slash (D : Deployment) (sender verifier victim : Address) (amount : ℕ) (reason : Bytes32) :
    M (ℕ × ℕ) := do
  let w ← Tx.get
  Tx.revertIf (sender ≠ w.slasher) .unauthorized
  nonReentrant do
    let w ← Tx.get
    let b := w.bonds verifier
    Tx.revertIf (b.registered = false) .notRegistered
    Tx.revertIf (amount = 0) .invalidAmount
    Tx.revertIf (b.amount = 0) .insufficientBond
    let take := if b.amount < amount then b.amount else amount
    let remaining ← Tx.checkedSub .underflow b.amount take
    let slashed ← Tx.checkedAdd .overflow b.slashedTotal take
    let total ← Tx.checkedSub .underflow w.totalBonded take
    updateBond verifier fun b => { b with amount := remaining, slashedTotal := slashed }
    writeVault fun v => { v with totalBonded := total }
    -- what is pending never exceeds what is left
    (if b.unbondRequestedAt ≠ 0 ∧ remaining < b.unbondAmount then
      updateBond verifier fun b => { b with unbondAmount := remaining }
    else pure ())
    deactivateBelow verifier
    let scaled ← (if victim = 0 then pure 0 else Tx.checkedMul .overflow take w.victimShareBps)
    let victimAmount := scaled / bpsDenominator
    let poolAmount ← Tx.checkedSub .underflow take victimAmount
    transferNonzero D victim victimAmount
    let pool ← Tx.checkedAdd .overflow w.slashPool poolAmount
    writeVault fun v => { v with slashPool := pool }
    emit (.bondSlashed verifier victim take victimAmount poolAmount reason)
    (if 0 < poolAmount then emit (.poolFunded poolAmount pool) else pure ())
    pure (victimAmount, poolAmount)

/-- The loop of `distributePool`: the last winner gets the remainder, too. -/
def payWinners (D : Deployment) (per remainder : ℕ) : List Address → M Unit
  | [] => pure ()
  | winner :: winners => do
      let payout ← (if winners = [] then Tx.checkedAdd .overflow per remainder else pure per)
      transferNonzero D winner payout
      payWinners D per remainder winners

/-- The pool, once it is large enough, is shared out evenly. -/
def distributePool (D : Deployment) (sender : Address) (winners : List Address) (amount : ℕ) :
    M Unit := do
  onlyAdmin D sender
  nonReentrant do
    let w ← Tx.get
    Tx.revertIf (winners = []) .noWinners
    Tx.revertIf (amount = 0) .invalidAmount
    Tx.revertIf (w.slashPool < amount) (.poolInsolvent amount w.slashPool)
    Tx.revertIf (w.slashPool < w.minPoolPayout) (.poolUnderThreshold w.slashPool w.minPoolPayout)
    let pool ← Tx.checkedSub .underflow w.slashPool amount
    writeVault fun v => { v with slashPool := pool }
    let per := amount / winners.length
    let shared ← Tx.checkedMul .overflow per winners.length
    let remainder ← Tx.checkedSub .underflow amount shared
    payWinners D per remainder winners
    emit (.poolDistributed winners amount per)

namespace World

variable (w : World)

def isActive (verifier : Address) : Bool :=
  (w.bonds verifier).registered && (w.bonds verifier).active

def slashable (verifier : Address) : ℕ := (w.bonds verifier).amount

def solvencyGap (D : Deployment) : Option ℕ :=
  if w.token = 0 then some 0
  else if w.totalBonded + w.slashPool < 2 ^ 256 then
    let required := w.totalBonded + w.slashPool
    let balance := (w.tokens w.token).balanceOf D.self
    some (if required ≤ balance then 0 else required - balance)
  else none

end World

/-! ## Transactions -/

inductive Call
  | setSlasher (slasher : Address)
  | setToken (token : Address)
  | setStakeConfig (minBond unbondCooldown minPoolPayout : ℕ)
  | setSlashSplit (victimShareBps : ℕ)
  | stake (amount : ℕ)
  | requestUnstake (amount : ℕ)
  | withdrawUnstake
  | slash (verifier victim : Address) (amount : ℕ) (reason : Bytes32)
  | distributePool (winners : List Address) (amount : ℕ)
  deriving DecidableEq

def Call.exec (D : Deployment) (sender : Address) : Call → M Unit
  | .setSlasher slasher => VerifierBond.setSlasher D sender slasher
  | .setToken token => VerifierBond.setToken D sender token
  | .setStakeConfig minBond unbondCooldown minPoolPayout =>
    VerifierBond.setStakeConfig D sender minBond unbondCooldown minPoolPayout
  | .setSlashSplit victimShareBps => VerifierBond.setSlashSplit D sender victimShareBps
  | .stake amount => VerifierBond.stake D sender amount
  | .requestUnstake amount => VerifierBond.requestUnstake sender amount
  | .withdrawUnstake => VerifierBond.withdrawUnstake D sender
  | .slash verifier victim amount reason => do
      let _ ← VerifierBond.slash D sender verifier victim amount reason
  | .distributePool winners amount => VerifierBond.distributePool D sender winners amount

/-- The actions of the system: time passes, somebody calls a token, or the contract. -/
inductive Act
  | tick (time : ℕ)
  | erc20 (sender token : Address) (c : Erc20.Call Address)
  | call (sender : Address) (c : Call)

def World.fresh (w : World) : World := { w with paid := [], events := [] }

def step (D : Deployment) (w : World) : Act → Option World
  | .tick time => if w.now ≤ time then some { w.fresh with now := time } else none
  | .erc20 sender token c =>
    if sender = D.self ∨ sender = 0 then none
    else ((w.tokens token).run sender c).map fun T =>
      { w.fresh with tokens := update w.tokens token T }
  | .call sender c =>
    if sender = D.self ∨ sender = 0 then none
    else
      match (c.exec D sender w.fresh).result with
      | .ok (_, w') => some w'
      | .error _ => none

abbrev History : Type := List (Entry World Act)

abbrev Reach (D : Deployment) : History → World → Prop := Run (Init D) (step D)

end Karma.VerifierBond
