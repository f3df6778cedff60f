import Karma.Spending.Grant

/-! # Tasks of the A2A bridge

`packages/karma-a2a-bridge`: a task is a list of events, each written by a request with an EIP-712
signature (`a2a_server.py`, `eip712_auth.py`), and its state is rebuilt from them (`task_store.py`).
-/

namespace Karma.A2A

open Evm Function
open Spending (Text)

inductive Op
  | create
  | confirm
  | submit
  | cancel
  | handoff
deriving DecidableEq

inductive Status
  | negotiating
  | accepted
  | completed
  | cancelled
deriving DecidableEq

variable {Wallet Sig : Type}

structure Event (Wallet : Type) where
  op : Op
  signer : Wallet
  requester : Text
  amount : ℚ
  amountMicro : ℤ
deriving DecidableEq

def status : List (Event Wallet) → Option Status
  | [] => none
  | e :: es =>
    match e.op with
    | .create => some .negotiating
    | .confirm => some .accepted
    | .submit => some .completed
    | .cancel => some .cancelled
    | .handoff => status es

structure TypedData (Wallet : Type) where
  taskId : Text
  op : Op
  agent : Wallet
  requesterId : Text
  amountMicro : ℤ
  nonce : ℤ
  deadline : ℤ

structure Auth (Wallet Sig : Type) where
  agent : Wallet
  signature : Sig
  nonce : ℤ
  deadline : ℤ
  amountMicro : ℤ
  requesterId : Text

structure Request (Wallet Sig : Type) where
  now : ℤ
  taskId : Text
  op : Op
  skill : Text
  requester : Text
  amount : ℚ
  auth : Auth Wallet Sig

structure Bridge (Wallet Sig : Type) where
  skills : List Text
  wallet : Wallet
  recover : TypedData Wallet → Sig → Option Wallet

structure Store (Wallet : Type) where
  events : Text → List (Event Wallet)
  nonces : List (Wallet × ℤ)

def micro (amount : ℚ) : ℤ := Arith.halfEven (amount * 10 ^ 6)

def requesterOf (es : List (Event Wallet)) : Text := (es.getLast?.map Event.requester).getD []

def Request.typedData (r : Request Wallet Sig) (es : List (Event Wallet)) : TypedData Wallet :=
  ⟨r.taskId, r.op, r.auth.agent, if r.auth.requesterId ≠ [] then r.auth.requesterId
    else if r.requester ≠ [] then r.requester else requesterOf es,
    r.auth.amountMicro, r.auth.nonce, r.auth.deadline⟩

variable [DecidableEq Wallet] (b : Bridge Wallet Sig)

def Bridge.accepts (s : Store Wallet) (r : Request Wallet Sig) : Bool :=
  (if r.op = .create then s.events r.taskId = [] ∧ (b.skills = [] ∨ r.skill ∈ b.skills)
    else s.events r.taskId ≠ []) &&
  (r.op = .confirm → micro r.amount ≠ 0 → r.auth.amountMicro = micro r.amount) &&
  r.now ≤ r.auth.deadline &&
  b.recover (r.typedData (s.events r.taskId)) r.auth.signature = some r.auth.agent &&
  (r.auth.agent, r.auth.nonce) ∉ s.nonces

def Request.event (r : Request Wallet Sig) : Event Wallet :=
  ⟨r.op, r.auth.agent, r.requester, r.amount, r.auth.amountMicro⟩

def Bridge.step (s : Store Wallet) (r : Request Wallet Sig) : Option (Store Wallet) :=
  if b.accepts s r then
    some ⟨update s.events r.taskId (r.event :: s.events r.taskId),
      (r.auth.agent, r.auth.nonce) :: s.nonces⟩
  else none

abbrev Bridge.Reach := Run (fun s : Store Wallet => ∀ t, s.events t = []) b.step

def creator (es : List (Event Wallet)) : Option Wallet := es.getLast?.map Event.signer

def Moves (old new : Option Status) : Prop :=
  old = new ∨ old = none ∧ new = some .negotiating ∨
    old = some .negotiating ∧ new = some .accepted ∨ old = some .accepted ∧ new = some .completed ∨
    (old = some .negotiating ∨ old = some .accepted) ∧ new = some .cancelled

/-- **A task that its parties drove**. -/
def Driven : List (Event Wallet) → Prop
  | [] => True
  | e :: es => Driven es ∧ (es ≠ [] → creator es = some e.signer ∨ e.signer = b.wallet) ∧
      (e.op = .confirm → e.amountMicro = micro e.amount) ∧ Moves (status es) (status (e :: es))

/-- **A request in order**: by a party, with nothing signed where the amount rounds to nothing, and
at its place in the life of the task. -/
def Proper (e : Entry (Store Wallet) (Request Wallet Sig)) : Prop :=
  let es := e.pre.events e.act.taskId
  (e.act.op ≠ .create → creator es = some e.act.auth.agent ∨ e.act.auth.agent = b.wallet) ∧
    match e.act.op with
    | .confirm => (micro e.act.amount = 0 → e.act.auth.amountMicro = 0) ∧
        (status es = some .negotiating ∨ status es = some .accepted)
    | .submit => status es = some .accepted ∨ status es = some .completed
    | .cancel => status es ≠ some .completed
    | _ => True

variable {b} {s s' : Store Wallet} {r : Request Wallet Sig}

theorem Bridge.Reach.status_ne {h : List (Entry _ _)} (hr : b.Reach h s) (t : Text)
    (ht : s.events t ≠ []) : status (s.events t) ≠ none := by
  refine hr.safe (P := fun s => ∀ t, s.events t ≠ [] → status (s.events t) ≠ none)
    (fun s h0 t ht => absurd (h0 t) ht) (fun s r s' ih hs t => ?_) t ht
  simp only [Bridge.step] at hs
  split_ifs at hs with hok
  cases hs
  by_cases htask : t = r.taskId
  · subst htask
    have := ih r.taskId
    cases hop : r.op <;> simp_all [Bridge.accepts, status, Request.event]
  · simpa [update_of_ne htask] using ih t

theorem driven_cons_iff {h : List (Entry _ _)} (hr : b.Reach h s) (hok : b.accepts s r)
    (hd : Driven b (s.events r.taskId)) :
    Driven b (r.event :: s.events r.taskId) ↔ Proper b ⟨s, r, s'⟩ := by
  have hst := Bridge.Reach.status_ne hr r.taskId
  simp only [Bridge.accepts, Bool.and_eq_true, decide_eq_true_eq] at hok
  obtain ⟨⟨⟨⟨htask, hamount⟩, -⟩, -⟩, -⟩ := hok
  simp only [Driven, Proper, hd, true_and]
  cases hst' : status (s.events r.taskId) with
  | none => cases hop : r.op <;> simp_all [status, Request.event, Moves]
  | some st =>
    have : s.events r.taskId ≠ [] := fun h => by simp [h, status] at hst'
    cases hop : r.op <;> cases st <;> grind [status, Request.event, Moves]

/-- The tasks are driven by their parties exactly if every request is in order. -/
theorem driven_iff {h : List (Entry (Store Wallet) (Request Wallet Sig))} (hr : b.Reach h s) :
    Throughout (fun _ s => ∀ t, Driven b (s.events t)) h s ↔ ∀ e ∈ h, Proper b e := by
  refine hr.throughout_iff_step (fun s h0 t => by simp [h0 t, Driven]) fun h s r s' hr hd hs => ?_
  simp only [Bridge.step] at hs
  split_ifs at hs with hok
  cases hs
  rw [← driven_cons_iff hr hok (hd _)]
  exact (forall_update_iff s.events fun _ es => Driven b es).trans (and_iff_left fun t _ => hd t)

namespace Sample

def bridge : Bridge ℕ ℕ := ⟨[], 9, fun _ w => some w⟩

def nothing : Store ℕ := ⟨fun _ => [], []⟩

def ask (op : Op) (wallet : ℕ) (nonce : ℤ) (amount : ℚ) (signed : ℤ) : Request ℕ ℕ :=
  ⟨0, ['t'], op, [], [], amount, wallet, wallet, nonce, 0, signed, []⟩

def askAfter (rs : List (Request ℕ ℕ)) := stateAfter bridge.step rs nothing

def askHistory (rs : List (Request ℕ ℕ)) := record bridge.step rs nothing []

def orderly : List (Request ℕ ℕ) :=
  [ask .create 1 0 0 0, ask .confirm 9 0 5 5000000, ask .submit 9 1 0 0]

end Sample

open Sample in
theorem driven_sample : Throughout (fun _ s => ∀ t, Driven bridge (s.events t)) (askHistory orderly)
      (askAfter orderly) ↔ ∀ e ∈ askHistory orderly, Proper bridge e :=
  driven_iff (.stateAfter (.start fun _ => rfl))

open Sample in
/-- A stranger confirms the completed task, which is accepted again, for an amount that rounds to
zero and with another one signed. -/
theorem driven_by_stranger :
    let late := ask .confirm 5 0 (1 / 10 ^ 7) 7
    let s := askAfter (orderly ++ [late])
    bridge.Reach (askHistory (orderly ++ [late])) s ∧ status (s.events ['t']) = some .accepted ∧
      s.events ['t'] = late.event :: orderly.reverse.map Request.event ∧
      ¬ Driven bridge (late.event :: orderly.reverse.map Request.event) := by
  refine ⟨.stateAfter (.start fun _ => rfl), by decide +kernel,
    by decide +kernel, fun h => ?_⟩
  exact absurd (h.2.1 (by decide)) (by decide +kernel)

end Karma.A2A
