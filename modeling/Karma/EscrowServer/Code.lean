import Karma.AllowanceEscrow.DirectionGate

/-! # The server's ledger of on-chain bindings

`services/chain/escrow_settlement.py` and `services/chain/escrow_autosettle.py` keep a row for every
binding they open on the escrow contract and push settlements to the chain, on behalf of a request
or in background passes. -/

namespace Karma.EscrowServer

open Evm AllowanceEscrow Function

variable {T : Type} [DecidableEq T]

/-! ## The database -/

/-- The state column of `EscrowBindingModel`. -/
inductive RowState
  | active | finalizing | breaching | disputed | settled | slashed | cancelled
  deriving DecidableEq

structure Row (T : Type) where
  task : T
  state : RowState
  amount : ℕ
  pullAfter : Option ℕ
  createdAt : ℕ
  deriving DecidableEq

inductive Status
  | settled | refunded | cancelled | failed | expired | autoConfirmed
  | running
  deriving DecidableEq

/-- What is read of the `SettlementModel` row of a task. -/
structure Books where
  status : Status
  onchainStatus : Option RowState
  /-- `released_amount`, in minor units. -/
  released : Option ℕ
  verified : Bool
  traceable : Bool
  updatedAt : ℕ
  deriving DecidableEq

/-- The contract, the rows (by the number of their binding on the contract) and the settlements. -/
structure State (T : Type) where
  chain : World
  rows : ℕ → Option (Row T)
  books : T → Option Books

structure Config (T : Type) where
  contract : Deployment
  operator : Address
  orphanCancel : Bool
  scopeHash : T → Bytes32
  proof : T → ℕ → Bytes32
  breachProof : T → Bytes32
  requiredStake : ℕ → ℕ

/-! ## Decisions -/

inductive Plan (T : Type)
  | idle
  | write (b : ℕ) (row : Row T)
  | send (b : ℕ) (c : Call) (row : Row T) (target : RowState)
  | rebind (b : ℕ) (row : Row T) (i j amount : ℕ)

def chainFinal : BindingState → Option RowState
  | .settled => some .settled
  | .slashed => some .slashed
  | .cancelled => some .cancelled
  | _ => none

def State.snapshot (S : State T) (read : Bool) (b : ℕ) : Option Binding :=
  if read then some (S.chain.bindings b) else none

def nonzero (time : ℕ) : Option ℕ := if time = 0 then none else some time

def Row.adopt (row : Row T) (binding : Binding) : Row T :=
  { row with state := .finalizing, pullAfter := (nonzero binding.settleAfter).or row.pullAfter }

def cancelForTask (S : State T) (read : Bool) (b : ℕ) (row : Row T) : Plan T :=
  if row.state ≠ .active then .idle
  else
    match S.snapshot read b with
    | none => .send b (.cancelBinding b) row .cancelled
    | some binding =>
      match binding.state with
      | .finalizing => .write b (row.adopt binding)
      | .settled => .write b { row with state := .settled }
      | .slashed => .write b { row with state := .slashed }
      | .cancelled => .write b { row with state := .cancelled }
      | .none => .idle
      | .active | .disputed => .send b (.cancelBinding b) row .cancelled

/-- The same for one row, which does not adopt an open window. -/
def cancelBindingRow (S : State T) (read : Bool) (b : ℕ) (row : Row T) : Plan T :=
  match cancelForTask S read b row with
  | .write b row' => if row'.state = .finalizing then .idle else .write b row'
  | p => p

def releaseMinor (given released : Option ℕ) (amount : ℕ) : ℕ :=
  min ((given.or released).getD amount) amount

def submitForTask (cfg : Config T) (S : State T) (read : Bool) (b : ℕ) (row : Row T) (i j : ℕ)
    (given : Option ℕ) : Plan T :=
  if row.state ≠ .active ∧ row.state ≠ .disputed then .idle
  else
    match S.books row.task with
    | none => .idle
    | some books =>
      -- `assert_release_verified`, with `PAY`
      if ¬ (books.status = .settled ∧ books.verified ∧ books.traceable) then .idle
      else
        let amount := releaseMinor given books.released row.amount
        if amount = 0 then cancelForTask S read b row
        else if amount ≠ row.amount then .rebind b row i j amount
        else
          let submit := .send b (.submitSettlement b (cfg.proof row.task amount)) row .finalizing
          match S.snapshot read b with
          | none => submit
          | some binding =>
            if binding.state = .finalizing then .write b (row.adopt binding) else submit

def slashForTask (cfg : Config T) (S : State T) (read : Bool) (b : ℕ) (row : Row T) : Plan T :=
  if row.state ≠ .active ∧ row.state ≠ .finalizing ∧ row.state ≠ .disputed then .idle
  else
    match S.books row.task with
    | none => .idle
    | some books =>
      -- `assert_release_verified`, with `SLASH`
      if ¬ (books.status = .refunded ∧ books.traceable) then .idle
      else
        let submit := .send b (.submitBreach b (cfg.breachProof row.task)) row .breaching
        match S.snapshot read b with
        | none => submit
        | some binding =>
          match chainFinal binding.state with
          | some state => .write b { row with state }
          | none =>
            if binding.state = .finalizing ∧ binding.slashArmed then
              .write b { row with
                state := .breaching,
                pullAfter := (nonzero binding.settleAfter).or row.pullAfter }
            else submit

def markDisputeForTask (S : State T) (read : Bool) (b : ℕ) (row : Row T) : Plan T :=
  if row.state ∈ [.settled, .cancelled, .slashed, .breaching] then .idle
  else
    match S.snapshot read b with
    | none => .send b (.markDisputed b) row .disputed
    | some binding =>
      match binding.state with
      | .disputed => .write b { row with state := .disputed }
      | .active => .send b (.markDisputed b) row .disputed
      | _ => .idle

/-! ## The passes -/

def settleDelayMargin : ℕ := 5
def strandedGrace : ℕ := 60
def strandedAutoConfirmGrace : ℕ := 600

/-- The window of the row has passed, as `due_bindings` and `due_breach_bindings` see it. -/
def Row.Due (row : Row T) (now : ℕ) : Prop :=
  ∃ time, row.pullAfter = some time ∧ 0 < time ∧ time + settleDelayMargin ≤ now

instance (row : Row T) (now : ℕ) : Decidable (row.Due now) :=
  match h : row.pullAfter with
  | none => isFalse fun ⟨_, h', _⟩ => Option.some_ne_none _ (h'.symm.trans h)
  | some time =>
    decidable_of_iff (0 < time ∧ time + settleDelayMargin ≤ now)
      ⟨fun h' => ⟨time, h, h'⟩, fun ⟨_, h', h''⟩ => by
        cases h.symm.trans h'
        exact h''⟩

def Status.Decided (s : Status) : Prop :=
  s ∈ [Status.settled, .refunded, .cancelled, .failed, .expired]

instance : DecidablePred Status.Decided := fun s =>
  inferInstanceAs (Decidable (s ∈ [Status.settled, .refunded, .cancelled, .failed, .expired]))

def State.Stranded (S : State T) (row : Row T) : Prop :=
  row.state = .active ∧ row.createdAt + strandedGrace ≤ S.chain.now ∧
    ∃ books ∈ S.books row.task, books.status.Decided ∨
      books.status = .autoConfirmed ∧ books.updatedAt + strandedAutoConfirmGrace ≤ S.chain.now

instance (S : State T) (row : Row T) : Decidable (S.Stranded row) := by
  unfold State.Stranded
  infer_instance

def Books.OrphanCancelAllowed (books : Books) : Prop :=
  books.status ∈ [Status.cancelled, .failed, .expired] ∨ books.status = .settled ∧
      books.onchainStatus ∈ [some RowState.settled, some .slashed, some .cancelled]

instance : DecidablePred Books.OrphanCancelAllowed := fun books => by
  unfold Books.OrphanCancelAllowed
  infer_instance

def State.Newest (S : State T) (row : Row T) : Prop :=
  ∀ c ∈ List.range (S.chain.bindingCounter + 1), ∀ other ∈ S.rows c,
    other.task = row.task → other.createdAt ≤ row.createdAt

instance (S : State T) (row : Row T) : Decidable (S.Newest row) := by
  unfold State.Newest
  infer_instance

def State.select (S : State T) (b : ℕ) (p : Row T → Prop) [DecidablePred p]
    (f : Row T → Plan T) : Plan T :=
  match S.rows b with
  | none => .idle
  | some row => if p row then f row else .idle

def reapDecided (cfg : Config T) (S : State T) (read : Bool) (b : ℕ) (row : Row T) (c i j : ℕ) :
    Plan T :=
  match S.books row.task with
  | none => .idle
  | some books =>
    S.select c (fun newest => newest.task = row.task ∧ S.Newest newest) fun newest =>
      if cfg.orphanCancel ∧ books.OrphanCancelAllowed ∧ c ≠ b then cancelBindingRow S read b row
      else
        match books.status with
        | .cancelled | .failed | .expired | .autoConfirmed => cancelForTask S read c newest
        | .refunded => slashForTask cfg S read c newest
        | .settled => submitForTask cfg S read c newest i j none
        | .running => .idle

def reapStranded (cfg : Config T) (S : State T) (read : Bool) (b : ℕ) (row : Row T) (c i j : ℕ) :
    Plan T :=
  match S.snapshot read b with
  | none => reapDecided cfg S read b row c i j
  | some binding =>
    match chainFinal binding.state with
    | some state => .write b { row with state }
    | none =>
      if binding.state = .finalizing then .write b (row.adopt binding)
      else reapDecided cfg S read b row c i j

/-- The end of `settle_due` and `breach_due`, for one row. -/
def execute (S : State T) (read : Bool) (b : ℕ) (c : Call) (row : Row T) (target : RowState) :
    Plan T :=
  match (S.snapshot read b).bind fun binding => chainFinal binding.state with
  | some state => .write b { row with state }
  | none => .send b c row target

def reconcile (S : State T) (read : Bool) (b : ℕ) (row : Row T) : Plan T :=
  match (S.snapshot read b).bind fun binding => chainFinal binding.state with
  | some state => .write b { row with state }
  | none => .idle

inductive Job
  | submitForTask (b i j : ℕ) (given : Option ℕ)
  | slashForTask (b : ℕ)
  | cancelForTask (b : ℕ)
  | markDisputeForTask (b : ℕ)
  | settleDue (b : ℕ)
  | breachDue (b : ℕ)
  | reapStranded (b c i j : ℕ)
  | reconcileFromChain (b : ℕ)

def plan (cfg : Config T) (S : State T) (read : Bool) : Job → Plan T
  | .submitForTask b i j given => S.select b S.Newest fun row =>
    submitForTask cfg S read b row i j given
  | .slashForTask b => S.select b S.Newest fun row => slashForTask cfg S read b row
  | .cancelForTask b => S.select b S.Newest fun row => cancelForTask S read b row
  | .markDisputeForTask b => S.select b S.Newest fun row => markDisputeForTask S read b row
  | .settleDue b => S.select b (fun row => row.state = .finalizing ∧ row.Due S.chain.now) fun row =>
    execute S read b (.finalizeSettlement b) row .settled
  | .breachDue b => S.select b (fun row => row.state = .breaching ∧ row.Due S.chain.now) fun row =>
    execute S read b (.finalizeBreach b) row .slashed
  | .reapStranded b c i j => S.select b S.Stranded fun row =>
    reapStranded cfg S read b row c i j
  | .reconcileFromChain b =>
    S.select b (fun row => row.state ∈ [.active, .finalizing, .breaching]) fun row =>
      reconcile S read b row

def State.at (S : State T) (now : ℕ) : State T := { S with chain := { S.chain with now } }

/-! ## Carrying a decision out -/

/-- The row once its transaction is through. -/
def Row.moved (row : Row T) (target : RowState) (binding : Binding) : Row T :=
  match target with
  | .finalizing | .breaching =>
    { row with state := target, pullAfter := nonzero binding.settleAfter }
  | _ => { row with state := target }

def Plan.calls (cfg : Config T) (w : World) : Plan T → List Call
  | .idle | .write _ _ => []
  | .send _ c _ _ => [c]
  | .rebind b row i j amount =>
    [.cancelBinding b, .bind i j (cfg.scopeHash row.task) amount (cfg.requiredStake amount),
      .submitSettlement (w.bindingCounter + 1) (cfg.proof row.task amount)]

def Plan.store (w : World) (rows : ℕ → Option (Row T)) : Plan T → ℕ → Option (Row T)
  | .idle => rows
  | .write b row => update rows b (some row)
  | .send b _ row target => update rows b (some (row.moved target (w.bindings b)))
  | .rebind b row _ _ amount =>
    update (update rows b none) w.bindingCounter
      (some { row.moved .finalizing (w.bindings w.bindingCounter) with amount })

def Plan.run (cfg : Config T) (S : State T) (landed : ℕ) (committed : Bool) (p : Plan T) :
    Option (State T) :=
  let calls := p.calls cfg S.chain
  let acts := (calls.take landed).map (AllowanceEscrow.Act.call cfg.operator)
  (steps (AllowanceEscrow.step cfg.contract) acts S.chain).map fun w =>
    { S with
      chain := w
      rows := if committed ∧ calls.length ≤ landed then p.store w S.rows else S.rows }

/-! ## Runs -/

/-- What can happen: a settlement changes, somebody else uses the contract, an order is locked, a
job runs. -/
inductive Act (T : Type)
  | book (t : T) (books : Option Books)
  | chain (a : AllowanceEscrow.Act)
  /-- `bind_for_task`: `open_order`, then the row. -/
  | lock (t : T) (i j amount : ℕ) (committed : Bool)
  | job (job : Job) (read : Bool) (landed : ℕ) (committed : Bool)

def OpensWindow : AllowanceEscrow.Act → Bool
  | .call _ (.submitSettlement _ _) | .call _ (.submitBreach _ _) => true
  | _ => false

def step (cfg : Config T) (S : State T) : Act T → Option (State T)
  | .book t books => some { S with books := update S.books t books }
  | .chain a =>
    if OpensWindow a then none
    else (AllowanceEscrow.step cfg.contract S.chain a).map fun w => { S with chain := w }
  | .lock t i j amount committed =>
    let bind := .bind i j (cfg.scopeHash t) amount (cfg.requiredStake amount)
    (AllowanceEscrow.step cfg.contract S.chain (.call cfg.operator bind)).map fun w =>
      { S with
        chain := w
        rows :=
          if committed then
            update S.rows w.bindingCounter (some ⟨t, .active, amount, none, w.now⟩)
          else S.rows }
  | .job job read landed committed => (plan cfg S read job).run cfg S landed committed

structure Init (cfg : Config T) (S : State T) : Prop where
  chain : AllowanceEscrow.Init cfg.contract S.chain
  rows : ∀ b, S.rows b = none
  books : ∀ t, S.books t = none

abbrev Reach (cfg : Config T) : List (Entry (State T) (Act T)) → State T → Prop :=
  Run (Init cfg) (step cfg)

end Karma.EscrowServer
