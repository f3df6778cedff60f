import Karma.Evm.Tx
import Karma.Evm.Word

/-! # `KarmaIdentityRegistry` — master wallets and their sub-agents

The registry keeps, for every master wallet, up to three active sub-agents with a cumulative
`allowance`, a cap per transaction and an expiry. -/

namespace Karma.IdentityRegistry

open Evm Function

inductive SubAgentStatus
  | active | inactive
  deriving DecidableEq, Repr

structure SubAgent where
  subWallet : Address := 0
  subAgentId : Bytes32 := 0#256
  master : Address := 0
  allowance : ℕ := 0
  perTxLimit : ℕ := 0
  expiresAt : ℕ := 0
  status : SubAgentStatus := .active
  addedAt : ℕ := 0
  removedAt : ℕ := 0

structure KarmaIdentity where
  masterWallet : Address := 0
  masterAgentId : Bytes32 := 0#256
  registered : Bool := false

inductive Error
  | identityAlreadyRegistered (addr : Address)
  | identityNotFound (addr : Address)
  | subAgentLimitReached (master : Address)
  | subAgentAlreadyAdded (sub : Address)
  | allowanceExceedsFreeBalance (total free : ℕ)
  | subAgentNotFound (sub : Address)
  | subAgentHasBoundBalance (sub : Address) (bound : ℕ)
  | perTxLimitExceedsAllowance (perTxLimit allowance : ℕ)
  | expiryInPast (expiresAt : ℕ)
  | unauthorizedCaller
  | zeroAddress
  | zeroAmount
  | overflow
  | underflow
  deriving DecidableEq, Repr

inductive Event
  | identityRegistered (masterWallet : Address) (masterAgentId : Bytes32)
  | subAgentAdded (masterWallet subWallet : Address) (subAgentId : Bytes32)
  | subAgentDeactivated (masterWallet subWallet : Address) (subAgentId : Bytes32)
  | subAgentBoundsUpdated (masterWallet subWallet : Address) (allowance perTxLimit expiresAt : ℕ)
  deriving DecidableEq, Repr

/-- The storage of the registry and the events of the transaction under way. -/
structure Registry where
  identities : Address → KarmaIdentity := fun _ => {}
  masterSubAgentIds : Address → List Bytes32 := fun _ => []
  subAgentById : Bytes32 → SubAgent := fun _ => {}
  subAgentMaster : Address → Address := fun _ => 0
  activeSubAgents : Address → ℕ := fun _ => 0
  events : List Event := []

structure Ctx where
  now : ℕ
  freeBalance : Address → ℕ
  boundBalance : Address → ℕ

abbrev M (α : Type) : Type := Tx Error Registry α

def emit (e : Event) : M Unit := Tx.modify fun R => { R with events := R.events ++ [e] }

def Registry.setSubAgent (R : Registry) (id : Bytes32) (sa : SubAgent) : Registry :=
  { R with subAgentById := update R.subAgentById id sa }

/-! ## Internal helpers -/

def requireIdentity (addr : Address) : M Unit := do
  let R ← Tx.get
  Tx.revertIf ((R.identities addr).registered = false) (.identityNotFound addr)

def Registry.ActiveAs (R : Registry) (subWallet : Address) (id : Bytes32) : Prop :=
  (R.subAgentById id).subWallet = subWallet ∧ (R.subAgentById id).status = .active

instance (R : Registry) (subWallet : Address) : DecidablePred (R.ActiveAs subWallet) := fun id => by
  unfold Registry.ActiveAs; infer_instance

def Registry.activeId (R : Registry) (master subWallet : Address) : Option Bytes32 :=
  (R.masterSubAgentIds master).find? (R.ActiveAs subWallet ·)

def findActiveSubAgentId (master subWallet : Address) : M Bytes32 := do
  let R ← Tx.get
  Tx.ofOption (.subAgentNotFound subWallet) (R.activeId master subWallet)

/-! ## Entry points -/

def registerIdentity (sender : Address) (masterAgentId : Bytes32) : M Unit := do
  let R ← Tx.get
  Tx.revertIf ((R.identities sender).registered = true) (.identityAlreadyRegistered sender)
  Tx.set { R with
    identities := update R.identities sender
      { masterWallet := sender, masterAgentId, registered := true } }
  emit (.identityRegistered sender masterAgentId)

def addSubAgent (ctx : Ctx) (sender subWallet : Address) (subAgentId : Bytes32) : M Unit := do
  requireIdentity sender
  Tx.revertIf (subWallet = 0) .zeroAddress
  Tx.revertIf (subAgentId = 0) .zeroAmount
  let R ← Tx.get
  Tx.revertIf (3 ≤ R.activeSubAgents sender) (.subAgentLimitReached sender)
  Tx.revertIf (R.subAgentMaster subWallet ≠ 0) (.subAgentAlreadyAdded subWallet)
  Tx.revertIf ((R.subAgentById subAgentId).addedAt ≠ 0) (.subAgentAlreadyAdded subWallet)
  Tx.set { R with
    subAgentById := update R.subAgentById subAgentId
      { subWallet, subAgentId, master := sender, status := .active, addedAt := ctx.now },
    masterSubAgentIds := update R.masterSubAgentIds sender
      (R.masterSubAgentIds sender ++ [subAgentId]),
    subAgentMaster := update R.subAgentMaster subWallet sender,
    activeSubAgents := update R.activeSubAgents sender (R.activeSubAgents sender + 1) }
  emit (.subAgentAdded sender subWallet subAgentId)

def removeSubAgent (ctx : Ctx) (sender subWallet : Address) : M Unit := do
  requireIdentity sender
  let subAgentId ← findActiveSubAgentId sender subWallet
  let bound := ctx.boundBalance subWallet
  Tx.revertIf (bound ≠ 0) (.subAgentHasBoundBalance subWallet bound)
  Tx.modify fun R => R.setSubAgent subAgentId { R.subAgentById subAgentId with
      status := .inactive, allowance := 0, perTxLimit := 0, expiresAt := 0, removedAt := ctx.now }
  let R ← Tx.get
  let activeSubAgents ← Tx.checkedSub .underflow (R.activeSubAgents sender) 1
  Tx.set { R with activeSubAgents := update R.activeSubAgents sender activeSubAgents }
  emit (.subAgentDeactivated sender subWallet subAgentId)

def totalAllowance (R : Registry) : List Bytes32 → ℕ → M ℕ
  | [], acc => pure acc
  | id :: ids, acc => do
      let other := R.subAgentById id
      let acc ←
        if other.status = .active then Tx.checkedAdd .overflow acc other.allowance else pure acc
      totalAllowance R ids acc

def setSubAgentBounds (ctx : Ctx) (sender subWallet : Address)
    (allowance perTxLimit expiresAt : ℕ) : M Unit := do
  requireIdentity sender
  let subAgentId ← findActiveSubAgentId sender subWallet
  Tx.revertIf (allowance < perTxLimit) (.perTxLimitExceedsAllowance perTxLimit allowance)
  Tx.revertIf (expiresAt ≠ 0 ∧ expiresAt ≤ ctx.now) (.expiryInPast expiresAt)
  Tx.modify fun R => R.setSubAgent subAgentId
    { R.subAgentById subAgentId with allowance, perTxLimit, expiresAt }
  let R ← Tx.get
  let total ← totalAllowance R (R.masterSubAgentIds sender) 0
  let free := ctx.freeBalance sender
  Tx.revertIf (free < total) (.allowanceExceedsFreeBalance total free)
  emit (.subAgentBoundsUpdated sender subWallet allowance perTxLimit expiresAt)

def SubAgent.Covers (sa : SubAgent) (now amount : ℕ) : Prop :=
  ¬ (sa.expiresAt ≠ 0 ∧ sa.expiresAt ≤ now) ∧ ¬ (sa.perTxLimit ≠ 0 ∧ sa.perTxLimit < amount) ∧
    amount ≤ sa.allowance

instance (sa : SubAgent) (now amount : ℕ) : Decidable (sa.Covers now amount) := by
  unfold SubAgent.Covers; infer_instance

def isAuthorized (R : Registry) (now : ℕ) (subWallet : Address) (amount : ℕ) : Bool :=
  let master := R.subAgentMaster subWallet
  if master = 0 ∨ (R.identities master).registered = false then false
  else
    match R.activeId master subWallet with
    | none => false
    | some id => decide ((R.subAgentById id).Covers now amount)

/-- Check as `isAuthorized` does, and on success lower the allowance. -/
def consumeAuthorization (bilateral : Address) (now : ℕ) (sender subWallet : Address)
    (amount : ℕ) : M Bool := do
  Tx.revertIf (sender ≠ bilateral) .unauthorizedCaller
  let R ← Tx.get
  let master := R.subAgentMaster subWallet
  if master = 0 ∨ (R.identities master).registered = false then pure false
  else
    match R.activeId master subWallet with
    | none => pure false
    | some id =>
      let sa := R.subAgentById id
      if sa.Covers now amount then do
        Tx.set (R.setSubAgent id { sa with allowance := sa.allowance - amount })
        pure true
      else pure false

inductive Call
  | registerIdentity (masterAgentId : Bytes32)
  | addSubAgent (subWallet : Address) (subAgentId : Bytes32)
  | removeSubAgent (subWallet : Address)
  | setSubAgentBounds (subWallet : Address) (allowance perTxLimit expiresAt : ℕ)
  | consumeAuthorization (subWallet : Address) (amount : ℕ)
  deriving DecidableEq

def exec (bilateral : Address) (ctx : Ctx) (sender : Address) : Call → M Unit
  | .registerIdentity masterAgentId => registerIdentity sender masterAgentId
  | .addSubAgent subWallet subAgentId => addSubAgent ctx sender subWallet subAgentId
  | .removeSubAgent subWallet => removeSubAgent ctx sender subWallet
  | .setSubAgentBounds subWallet allowance perTxLimit expiresAt =>
    setSubAgentBounds ctx sender subWallet allowance perTxLimit expiresAt
  | .consumeAuthorization subWallet amount => do
      let _ ← consumeAuthorization bilateral ctx.now sender subWallet amount

/-- `Step bilateral R R'`: somebody other than the core makes one successful call, at some positive
time and under some balances of the core. -/
def Step (bilateral : Address) (R R' : Registry) : Prop :=
  ∃ ctx sender c, 0 < ctx.now ∧ sender ≠ 0 ∧ sender ≠ bilateral ∧
    (exec bilateral ctx sender c R).result = .ok ((), R')

end Karma.IdentityRegistry
