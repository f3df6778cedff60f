import Karma.Spending.Grant

/-! # Pairing an agent

`services/agent_pairing.py`, one pairing under requests by anyone. -/

namespace Karma.Pairing

open Evm
open Spending (Text)

inductive Status
  | pending
  | approved
  | denied
  | claimed
  | expired
deriving DecidableEq

variable {Code : Type}

structure Handoff (Code : Type) where
  code : Code
  expires : ℕ
  failures : ℕ

structure Email (Code : Type) where
  token : Code
  expires : ℕ
  confirmed : Bool
  attempts : ℕ

structure Record (Code : Type) where
  code : Code
  expiresAt : ℕ
  status : Status
  owner : Text
  delivery : List Text
  handoff : Option (Handoff Code)
  email : Option (Email Code)

def create (code : Code) (now : ℕ) : Record Code := ⟨code, now + 900, .pending, [], [], none, none⟩

/-- The requests; `other` is one on another pairing. -/
inductive Act (Code : Type)
  | approve (owner : Text) (credentials : List Text)
  | deny
  | issueHandoff (owner : Text) (code : Code)
  | attachRuntimeKey (owner : Text) (key : Text)
  | attachEmail (token : Code)
  | verifyEmail (token : Code)
  | claim (pairingCode : Code) (given : Option Code)
  | other

def Record.purge (p : Record Code) (now : ℕ) : Record Code :=
  if (p.status = .pending ∨ p.status = .approved) ∧ p.expiresAt < now then
    { p with status := .expired, delivery := [] }
  else p

inductive Answer
  | nothing
  | awaitingEmail
  | awaitingHandoff
  | mismatch
  | credentials (delivery : List Text)
deriving DecidableEq

variable [DecidableEq Code]

def Record.claim (p : Record Code) (now : ℕ) (code : Code) (given : Option Code) :
    Answer × Record Code :=
  let deliver :=
    (.credentials p.delivery, { p with status := .claimed, delivery := [], handoff := none })
  if code ≠ p.code ∨ p.status ≠ .approved then (.nothing, p)
  else if p.email.any (!·.confirmed) then (.awaitingEmail, p)
  else
    match p.handoff with
    | none => deliver
    | some o =>
      if o.expires < now ∨ given = none then (.awaitingHandoff, p)
      else if given = some o.code then deliver
      else if 5 ≤ o.failures + 1 then
        (.mismatch, { p with status := .expired, delivery := [], handoff := none })
      else (.mismatch, { p with handoff := some { o with failures := o.failures + 1 } })

def Record.verifyEmail (p : Record Code) (now : ℕ) (token : Code) : Record Code :=
  match p.email with
  | none => p
  | some m =>
    if m.confirmed ∨ p.status = .expired ∨ m.expires < now then p
    else if token = m.token then { p with email := some { m with confirmed := true } }
    else
      let p := { p with email := some { m with attempts := m.attempts + 1 } }
      if 6 ≤ m.attempts + 1 then { p with status := .expired, delivery := [] } else p

/-- One request; what is refused after the purge leaves the record as it is. -/
def Record.handle (p : Record Code) (now : ℕ) (a : Act Code) : Record Code :=
  let q := p.purge now
  match a with
  | .approve owner credentials =>
    if q.status = .pending then
      { q with status := .approved, owner := owner, delivery := credentials }
    else q
  | .deny => if q.status = .pending then { q with status := .denied, delivery := [] } else q
  | .issueHandoff owner code =>
    if q.status = .approved ∧ owner = q.owner then
      { q with handoff := some ⟨code, now + 180, 0⟩ }
    else q
  | .attachRuntimeKey owner key =>
    if q.status = .approved ∧ owner = q.owner then { q with delivery := q.delivery ++ [key] } else q
  | .attachEmail token =>
    if q.status = .approved then { q with email := some ⟨token, now + 600, false, 0⟩ } else q
  | .verifyEmail token => p.verifyEmail now token
  | .claim code given => (q.claim now code given).2
  | .other => q

def Record.answer (p : Record Code) (now : ℕ) : Act Code → Answer
  | .claim code given => ((p.purge now).claim now code given).1
  | _ => .nothing

def step (p : Record Code) (a : ℕ × Act Code) : Option (Record Code) := some (p.handle a.1 a.2)

abbrev History (Code : Type) := List (Entry (Record Code) (ℕ × Act Code))

def Fresh (p : Record Code) : Prop := ∃ code now, p = create code now

abbrev Reach : History Code → Record Code → Prop := Run Fresh step

/-! ## What was asked so far -/

/-- What the requests came to: whether the pairing was approved, the token of the latest email and
whether it was presented, the latest handoff code with its end, the wrong codes since, and the
deliveries. -/
structure Trail (Code : Type) where
  approved : Bool
  token : Option Code
  presented : Bool
  handoff : Option (Code × ℕ)
  wrong : ℕ
  deliveries : ℕ

def Trail.next (r : Trail Code) (e : Entry (Record Code) (ℕ × Act Code)) : Trail Code :=
  let q := e.pre.purge e.act.1
  match e.act.2 with
  | .approve .. => if q.status = .pending then { r with approved := true } else r
  | .issueHandoff owner code =>
    if q.status = .approved ∧ owner = q.owner then
      { r with handoff := some (code, e.act.1 + 180), wrong := 0 }
    else r
  | .attachEmail token =>
    if q.status = .approved then { r with token := some token, presented := false } else r
  | .verifyEmail token => if r.token = some token then { r with presented := true } else r
  | .claim code given =>
    match (q.claim e.act.1 code given).1 with
    | .mismatch => { r with wrong := r.wrong + 1 }
    | .credentials _ => { r with deliveries := r.deliveries + 1 }
    | _ => r
  | _ => r

def Record.Closed (p : Record Code) : Prop :=
  p.status = .claimed ∨ p.status = .denied ∨ p.status = .expired → p.delivery = []

structure Follows (r : Trail Code) (p : Record Code) : Prop where
  closed : p.Closed
  fresh : p.status = .pending → p.email = none ∧ p.handoff = none ∧ p.delivery = []
  approved : p.status = .approved → r.approved ∧ r.deliveries = 0
  pending : p.status = .pending → r.deliveries = 0 ∧ r.token = none ∧ r.handoff = none
  token : r.token = p.email.map Email.token
  presented : ∀ m, p.email = some m → m.confirmed → r.presented
  handoff : p.status = .approved → r.handoff = p.handoff.map fun o => (o.code, o.expires)
  wrong : ∀ o, p.status = .approved → p.handoff = some o → r.wrong = o.failures ∧ o.failures < 5

variable {r : Trail Code} {p : Record Code} {h : History Code} {now : ℕ} {a : Act Code}

omit [DecidableEq Code] in
theorem Follows.purge (hf : Follows r p) (now : ℕ) : Follows r (p.purge now) := by
  obtain ⟨closed, fresh, approved, pending, token, presented, handoff, wrong⟩ := hf
  unfold Record.purge
  split_ifs
  · constructor <;> grind [Record.Closed]
  · exact ⟨closed, fresh, approved, pending, token, presented, handoff, wrong⟩

theorem Follows.claim (hf : Follows r p) {code : Code} {given : Option Code} :
    Follows (match (p.claim now code given).1 with
      | .mismatch => { r with wrong := r.wrong + 1 }
      | .credentials _ => { r with deliveries := r.deliveries + 1 }
      | _ => r) (p.claim now code given).2 := by
  obtain ⟨closed, fresh, approved, pending, token, presented, handoff, wrong⟩ := hf
  simp only [Record.claim]
  cases ho : p.handoff with
  | none =>
    split_ifs
    all_goals constructor <;> grind [Record.Closed]
  | some o =>
    dsimp only
    split_ifs
    all_goals constructor <;> grind [Record.Closed]

theorem Follows.step (hf : Follows r p) :
    Follows (r.next ⟨p, (now, a), p.handle now a⟩) (p.handle now a) := by
  have hq := hf.purge now
  cases a with
  | verifyEmail token =>
    obtain ⟨closed, fresh, approved, pending, token, presented, handoff, wrong⟩ := hf
    simp only [Trail.next, Record.handle, Record.verifyEmail]
    constructor <;> grind [Record.Closed]
  | claim code given => exact hq.claim
  | _ =>
    simp only [Trail.next, Record.handle]
    generalize p.purge now = q at hq ⊢
    obtain ⟨closed, fresh, approved, pending, token, presented, handoff, wrong⟩ := hq
    constructor <;> grind [Record.Closed]

namespace Sample

def locked : List (ℕ × Act ℕ) :=
  [(10, .approve ['o'] [['k']]), (20, .attachEmail 7), (30, .issueHandoff ['o'] 5),
    (40, .verifyEmail 7), (50, .claim 1 (some 6)), (60, .claim 1 (some 5))]

end Sample

end Karma.Pairing
