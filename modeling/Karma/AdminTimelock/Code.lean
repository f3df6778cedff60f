import Karma.Evm.Run
import Karma.Evm.Tx
import Karma.Evm.Word

/-! # `AdminTimelock` — the multisig in front of the core contracts

Owners schedule and approve actions; an action with enough approvals can be executed by anybody once
its delay has passed. -/

namespace Karma.AdminTimelock

open Evm Function

abbrev Bytes : Type := List (BitVec 8)

inductive Error
  | notOwner
  | zeroAddress
  | invalidConfig
  | unknownAction
  | notReady (eta : ℕ)
  | alreadyExecuted
  | alreadyApproved
  | notApproved (required current : ℕ)
  | delayTooLarge (delay : ℕ)
  | callFailed
  | overflow
  deriving DecidableEq

inductive Event
  | ownerSetUpdated (owners : List Address) (threshold : ℕ)
  | minDelayUpdated (minDelay : ℕ)
  | scheduled (id : Bytes32) (target : Address) (value eta : ℕ) (data : Bytes)
  | approved (id : Bytes32) (owner : Address)
  | executed (id : Bytes32) (target : Address)
  | cancelled (id : Bytes32)
  deriving DecidableEq

structure Action where
  target : Address := 0
  value : ℕ := 0
  data : Bytes := []
  eta : ℕ := 0
  approvals : ℕ := 0
  executed : Bool := false
  deriving DecidableEq

def maxDelay : ℕ := 2592000

structure Storage where
  owners : List Address := []
  isOwner : Address → Bool := fun _ => false
  threshold : ℕ := 0
  minDelay : ℕ := 0
  nonce : ℕ := 0
  actionIds : List Bytes32 := []
  actions : Bytes32 → Action := fun _ => {}
  approvedBy : Bytes32 → Address → Bool := fun _ _ => false

inductive Moment
  | scheduled (id : Bytes32) (owner : Address) (time minDelay : ℕ)
  | approved (id : Bytes32) (owner : Address)
  /-- It is executed: the checks have been passed, and the target is about to be called. -/
  | executed (id : Bytes32) (time : ℕ) (before : Storage)
  | cancelled (id : Bytes32) (owner : Address)

structure World extends Storage where
  now : ℕ
  events : List Event := []
  log : List Moment := []

inductive Call
  | schedule (target : Address) (value : ℕ) (data : Bytes)
  | approve (id : Bytes32)
  | execute (id : Bytes32)
  | cancel (id : Bytes32)
  | setOwners (newOwners : List Address) (newThreshold : ℕ)
  | setMinDelay (newMinDelay : ℕ)
  | reconfigure (newOwners : List Address) (newThreshold newMinDelay : ℕ)
  deriving DecidableEq

structure Deployment where
  self : Address
  actionId : Address → ℕ → Bytes → ℕ → Bytes32
  decode : Bytes → Option Call

inductive Plan
  | mk (calls : List (Address × Call × Plan)) (succeeds : Bool)

def Plan.idle : Plan := .mk [] true

abbrev M (α : Type) : Type := Tx Error World α

def emit (e : Event) : M Unit := Tx.modify fun w => { w with events := w.events ++ [e] }

def write (f : Storage → Storage) : M Unit :=
  Tx.modify fun w => { w with toStorage := f w.toStorage }

def updateAction (id : Bytes32) (f : Action → Action) : M Unit :=
  write fun g => { g with actions := update g.actions id (f (g.actions id)) }

def note (m : Moment) : M Unit := Tx.modify fun w => { w with log := m :: w.log }

def setApproved (id : Bytes32) (owner : Address) : M Unit :=
  write fun g => { g with
    approvedBy := update g.approvedBy id (update (g.approvedBy id) owner true) }

def onlyOwner (sender : Address) : M Unit := do
  let w ← Tx.get
  Tx.revertIf (w.isOwner sender = false) .notOwner

def onlySelf (D : Deployment) (sender : Address) : M Unit :=
  Tx.revertIf (sender ≠ D.self) .notOwner

/-! ## Owners and delay -/

/-- The first loop of `_setOwnerSet`. -/
def clearOwners : List Address → M Unit
  | [] => pure ()
  | owner :: owners => do
      write fun g => { g with isOwner := update g.isOwner owner false }
      clearOwners owners

/-- The second loop of `_setOwnerSet`. -/
def addOwners : List Address → M Unit
  | [] => pure ()
  | owner :: owners => do
      let w ← Tx.get
      Tx.revertIf (owner = 0 ∨ w.isOwner owner = true) .invalidConfig
      write fun g => { g with
        isOwner := update g.isOwner owner true, owners := g.owners ++ [owner] }
      addOwners owners

def setOwnerSet (newOwners : List Address) (newThreshold : ℕ) : M Unit := do
  Tx.revertIf (newOwners.length = 0 ∨ newThreshold = 0 ∨ newOwners.length < newThreshold)
    .invalidConfig
  let w ← Tx.get
  clearOwners w.owners
  write fun g => { g with owners := [] }
  addOwners newOwners
  write fun g => { g with threshold := newThreshold }
  emit (.ownerSetUpdated newOwners newThreshold)

def setMinDelayTo (newMinDelay : ℕ) : M Unit := do
  Tx.revertIf (maxDelay < newMinDelay) (.delayTooLarge newMinDelay)
  write fun g => { g with minDelay := newMinDelay }
  emit (.minDelayUpdated newMinDelay)

def create (owners : List Address) (threshold minDelay : ℕ) : M Unit := do
  setOwnerSet owners threshold
  setMinDelayTo minDelay

section Governance

variable (D : Deployment) (sender : Address)

def setOwners (newOwners : List Address) (newThreshold : ℕ) : M Unit := do
  onlySelf D sender
  setOwnerSet newOwners newThreshold

def setMinDelay (newMinDelay : ℕ) : M Unit := do
  onlySelf D sender
  setMinDelayTo newMinDelay

def reconfigure (newOwners : List Address) (newThreshold newMinDelay : ℕ) : M Unit := do
  onlySelf D sender
  setMinDelayTo newMinDelay
  setOwnerSet newOwners newThreshold

end Governance

/-- The proposer approves its own action. -/
def schedule (D : Deployment) (sender target : Address) (value : ℕ) (data : Bytes) : M Bytes32 := do
  onlyOwner sender
  Tx.revertIf (target = 0) .zeroAddress
  let w ← Tx.get
  let next ← Tx.checkedAdd .overflow w.nonce 1
  write fun g => { g with nonce := next }
  let id := D.actionId target value data w.nonce
  let eta ← Tx.checkedAdd .overflow w.now w.minDelay
  updateAction id fun a => { a with target, value, data, eta, approvals := 1 }
  setApproved id sender
  write fun g => { g with actionIds := g.actionIds ++ [id] }
  note (.scheduled id sender w.now w.minDelay)
  emit (.scheduled id target value eta data)
  pure id

def approve (sender : Address) (id : Bytes32) : M Unit := do
  onlyOwner sender
  let w ← Tx.get
  Tx.revertIf ((w.actions id).eta = 0) .unknownAction
  Tx.revertIf ((w.actions id).executed = true) .alreadyExecuted
  Tx.revertIf (w.approvedBy id sender = true) .alreadyApproved
  setApproved id sender
  let approvals ← Tx.checkedAdd .overflow (w.actions id).approvals 1
  updateAction id fun a => { a with approvals }
  note (.approved id sender)
  emit (.approved id sender)

def cancel (sender : Address) (id : Bytes32) : M Unit := do
  onlyOwner sender
  let w ← Tx.get
  Tx.revertIf ((w.actions id).eta = 0) .unknownAction
  Tx.revertIf ((w.actions id).executed = true) .alreadyExecuted
  Tx.revertIf ((w.actions id).approvals < w.threshold)
    (.notApproved w.threshold (w.actions id).approvals)
  note (.cancelled id sender)
  updateAction id fun _ => {}
  emit (.cancelled id)

/-! ## Execution -/

/-- How the code of a call is run. -/
abbrev Runner : Type := Address → Call → Plan → M Unit

def foreign (D : Deployment) (run : Runner) : List (Address × Call × Plan) → M Unit
  | [] => Tx.observe
  | (sender, c, plan) :: calls => do
      Tx.observe
      (if sender = D.self then pure () else Tx.attempt (run sender c plan))
      foreign D run calls

def callTarget (D : Deployment) (run : Runner) (a : Action) (plan : Plan) : M Unit :=
  if a.target = D.self then
    match D.decode a.data with
    | some c =>
      if a.value = 0 then do
        Tx.observe
        Tx.mapError (fun _ => .callFailed) (run D.self c plan)
      else Tx.revert .callFailed
    | none => Tx.revert .callFailed
  else
    match plan with
    | .mk calls succeeds => do
        foreign D run calls
        Tx.revertIf (succeeds = false) .callFailed

/-- By anybody, when the delay has passed and the action has enough approvals. -/
def execute (D : Deployment) (run : Runner) (id : Bytes32) (plan : Plan) : M Unit := do
  let w ← Tx.get
  Tx.revertIf ((w.actions id).eta = 0) .unknownAction
  Tx.revertIf ((w.actions id).executed = true) .alreadyExecuted
  Tx.revertIf (w.now < (w.actions id).eta) (.notReady (w.actions id).eta)
  Tx.revertIf ((w.actions id).approvals < w.threshold)
    (.notApproved w.threshold (w.actions id).approvals)
  note (.executed id w.now w.toStorage)
  updateAction id fun a => { a with executed := true }
  callTarget D run (w.actions id) plan
  let w ← Tx.get
  emit (.executed id (w.actions id).target)

/-- **Run an entry point**, with calls nested at most `depth` deep. -/
def exec (D : Deployment) : ℕ → Runner
  | 0 => fun _ _ _ => Tx.revert .callFailed
  | depth + 1 => fun sender c plan =>
    match c with
    | .schedule target value data => do
        let _ ← schedule D sender target value data
    | .approve id => approve sender id
    | .execute id => execute D (exec D depth) id plan
    | .cancel id => cancel sender id
    | .setOwners newOwners newThreshold => setOwners D sender newOwners newThreshold
    | .setMinDelay newMinDelay => setMinDelay D sender newMinDelay
    | .reconfigure newOwners newThreshold newMinDelay =>
      reconfigure D sender newOwners newThreshold newMinDelay

/-! ## Transactions -/

/-- The actions of the system: time passes, or somebody calls the timelock. -/
inductive Act
  | tick (time : ℕ)
  | call (depth : ℕ) (sender : Address) (c : Call) (plan : Plan)

def World.fresh (w : World) : World := { w with events := [] }

def step (D : Deployment) (w : World) : Act → Option World
  | .tick time => if w.now ≤ time then some { w.fresh with now := time } else none
  | .call depth sender c plan =>
    if sender = D.self then none
    else
      match (exec D depth sender c plan w.fresh).result with
      | .ok (_, w') => some w'
      | .error _ => none

def Init (w : World) : Prop :=
  0 < w.now ∧ ∃ owners threshold minDelay,
    (create owners threshold minDelay { now := w.now }).result = .ok ((), w)

abbrev History : Type := List (Entry World Act)

abbrev Reach (D : Deployment) : History → World → Prop := Run Init (step D)

/-- **The worlds of a run**: between transactions, and whenever a called target is in control within
one. -/
def Visits (D : Deployment) (w : World) : Prop :=
  ∃ h v, Reach D h v ∧ (w = v ∨ ∃ depth sender c plan, sender ≠ D.self ∧
      w ∈ (exec D depth sender c plan v.fresh).seen)

end Karma.AdminTimelock
