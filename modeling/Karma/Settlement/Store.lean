import Karma.Settlement.Status
import Karma.Db.Row

/-! # The settlement row and the requests that write it

`PostgresSettlementStore` of `db/stores/settlement_store.py`, and the way the routes use it. -/

namespace Karma.Settlement

open Karma.Evm Karma.Db

inductive Column
  | settlementId | taskId | escrowAmount | currency | clientAgentId | workerAgentId | profileId
  | workerProfileId | releasedAmount | refundedAmount | disputeReason | arbitrationNotes | createdAt
  | updatedAt | releasedAt | settlementMode | chainId | contractAddress | txHash
  | evidenceBundleHash | onchainStatus | onchainBindingId | onchainBuyerBillId | onchainAgentBillId
  | quoteId | voucherId | deliveryDeadlineAt | progressRuleSpec | fundingSource
  | confirmWindowHours | confirmDeadlineAt
  deriving DecidableEq, Repr

structure SettlementRow (V : Type) where
  status : TaskStatus
  field : Column → V

/-- The `SET` list of an `UPDATE`. -/
structure Write (V : Type) where
  status : Option TaskStatus
  field : Column → Option V

variable {T V : Type}

def Write.apply (w : Write V) (s : SettlementRow V) : SettlementRow V :=
  ⟨w.status.getD s.status, fun c => (w.field c).getD (s.field c)⟩

def Write.Disjoint (w w' : Write V) : Prop :=
  (w.status = none ∨ w'.status = none) ∧ ∀ c, w.field c = none ∨ w'.field c = none

inductive SaveError
  | statusTransition (source target : TaskStatus)
  | immutableField (c : Column)

def immutableFields : List Column := [.escrowAmount, .currency, .clientAgentId, .workerAgentId]

def save [DecidableEq V] (existing next : SettlementRow V) : Except SaveError (Write V) :=
  if existing.status.canonical ≠ next.status.canonical ∧
      existing.status.canTransition next.status = false then
    .error (.statusTransition existing.status.canonical next.status.canonical)
  else
    match immutableFields.find? fun c =>
        existing.status.isPostAccepted && existing.field c != next.field c with
    | some c => .error (.immutableField c)
    | none => .ok {
        status := if existing.status = next.status.canonical then none
          else some next.status.canonical
        field := fun c => if existing.field c = next.field c then none else some (next.field c) }

def snapshotColumns : List Column :=
  [.releasedAmount, .refundedAmount, .releasedAt, .arbitrationNotes, .disputeReason]

/-- The `UPDATE` of `_revert_chain_rejected_transition`. -/
def revertWrite (prior : SettlementRow V) : Write V where
  status := some prior.status
  field := fun c => if c ∈ snapshotColumns then some (prior.field c) else none

/-! ## Requests -/

inductive Kind
  | save
  | revert
  deriving DecidableEq

/-- An `UPDATE` of a request: its `SET` list, and, for the record, when its request read the
settlement and when it loaded the status it was judged by (in numbers of committed statements). -/
structure Stmt (T V : Type) where
  session : T
  kind : Kind
  since : ℕ
  loaded : ℕ
  base : TaskStatus
  sets : Write V

/-- The `UPDATE` always matches: its only condition is the key of the row. -/
def Stmt.exec (o : Stmt T V) (s : SettlementRow V) : Option (SettlementRow V) :=
  some (o.sets.apply s)

abbrev Reading (V : Type) := SettlementRow V × ℕ

structure Request (T V : Type) where
  state : Option (Reading V) := none
  /-- The snapshot of `_apply_transition`. -/
  prior : Option (Reading V) := none
  /-- The row that `save` compares with. -/
  existing : Option (Reading V) := none
  /-- The `UPDATE` it is about to issue. -/
  todo : Option (Stmt T V) := none

structure State (T V : Type) where
  row : Row T (Stmt T V) (SettlementRow V)
  request : T → Request T V

inductive Act (T V : Type)
  /-- `store.get`. -/
  | read (t : T)
  | snapshot (t : T)
  /-- `session.get` of `save`. -/
  | load (t : T)
  /-- The rest of `save`, up to its `UPDATE`. -/
  | save (t : T) (next : SettlementRow V) (transition : Bool)
  /-- `_revert_chain_rejected_transition`, up to its `UPDATE`. -/
  | revert (t : T)
  /-- The `UPDATE`. -/
  | issue (t : T)
  | commit (t : T)
  | rollback (t : T)

variable [DecidableEq T]

def State.visible (S : State T V) (t : T) : SettlementRow V :=
  match S.row.writer with
  | some w => if w.session = t then w.version else S.row.committed
  | none => S.row.committed

def State.reading (S : State T V) (t : T) : Reading V := (S.visible t, S.row.log.length)

def State.put (S : State T V) (t : T) (q : Request T V) : State T V :=
  { S with request := Function.update S.request t q }

def step [DecidableEq V] (S : State T V) : Act T V → Option (State T V)
  | .read t => some (S.put t { S.request t with state := some (S.reading t), existing := none })
  | .snapshot t => some (S.put t { S.request t with prior := some (S.reading t) })
  | .load t => some (S.put t { S.request t with existing := some (S.reading t) })
  | .save t next transition =>
    match (S.request t).state, (S.request t).existing with
    | some (state, n), some (existing, m) =>
      if transition && !state.status.canTransition next.status then none
      else match Settlement.save existing next with
        | .ok sets => some (S.put t { S.request t with
            todo := some ⟨t, .save, n, m, existing.status, sets⟩ })
        | .error _ => none
    | _, _ => none
  | .revert t =>
    (S.request t).prior.map fun (prior, m) => S.put t { S.request t with
      todo := some ⟨t, .revert, m, m, prior.status, revertWrite prior⟩ }
  | .issue t =>
    (S.request t).todo.bind fun o => (S.row.step Stmt.exec (.update t o)).map fun row =>
      { S with row := row }.put t { S.request t with todo := none, existing := none }
  | .commit t => (S.row.step Stmt.exec (.commit t)).map fun row => { S with row := row }
  | .rollback t => (S.row.step Stmt.exec (.rollback t)).map fun row =>
    { S with row := row }.put t { S.request t with todo := none, existing := none }

abbrev History (T V : Type) := List (Entry (State T V) (Act T V))

abbrev Reach [DecidableEq V] (v₀ : SettlementRow V) (h : History T V) (S : State T V) : Prop :=
  Run (· = ⟨⟨v₀, none, []⟩, fun _ => {}⟩) step h S

/-! ## Sequences of committed statements -/

def replay (v₀ : SettlementRow V) (log : List (Stmt T V)) : SettlementRow V :=
  log.foldr (fun o s => o.sets.apply s) v₀

def Along (R : Stmt T V → TaskStatus → TaskStatus → Prop) (v₀ : SettlementRow V) :
    List (Stmt T V) → Prop
  | [] => True
  | o :: log => R o (replay v₀ log).status (replay v₀ (o :: log)).status ∧ Along R v₀ log

/-- **No lost update**: no statement sets a column that another request has committed since the
read behind it. -/
def Clean : List (Stmt T V) → Prop
  | [] => True
  | o :: log => (∀ o' ∈ log.take (log.length - o.since), o'.session ≠ o.session →
      o'.sets.Disjoint o.sets) ∧ Clean log

def Legal (s s' : TaskStatus) : Prop := s.canonical = s'.canonical ∨ s.canTransition s' = true

def Stmt.Steps (o : Stmt T V) (s s' : TaskStatus) : Prop :=
  match o.kind with
  | .save => Legal s s'
  | .revert => s' = o.base

end Karma.Settlement
