import Karma.MiniApp.Orders
import Karma.Spending.Grant

/-! # Orders and the payment policy of the buyer

The routes `sign_order`, `policy_check` and `settlement_lock` of `telegram_miniapp_commerce.py` for
many orders and sessions. -/

namespace Karma.MiniApp

open Evm Function

/-- `payment_policy`: a limit that is missing or zero is none. -/
structure Policy where
  single : Option ℚ
  daily : Option ℚ
  spentToday : ℚ
  allowed : List ℕ

def Policy.limit (limit : Option ℚ) : ℚ := limit.getD (10 ^ 18)

def Policy.verdict (p : Policy) (amount : ℚ) (seller : Option ℕ) : PolicyVerdict :=
  if Policy.limit p.single < amount ∨ Policy.limit p.daily < p.spentToday + amount ∨
      p.allowed ≠ [] ∧ ∃ s ∈ seller, s ∉ p.allowed then .exceeded
  else .ok

structure Deal where
  order : Order
  buyer : ℕ
  seller : Option ℕ
  amount : ℚ

/-- The orders and the policies of the identities, with the signatures by the identity of their
session and the amounts locked by buyer and day. -/
structure Book where
  deals : ℕ → Option Deal
  policies : ℕ → Option Policy
  signs : List (ℕ × Role × Option ℕ)
  locks : List (ℕ × ℕ × ℚ)

/-- The policy of an identity, or that of the routes if it is not known. -/
def Book.policyOf (b : Book) (i : Option ℕ) : Policy :=
  (i.bind b.policies).getD ⟨some 500, some 2000, 0, []⟩

inductive Body
  | create (id : ℕ) (seller : Option ℕ) (amount : ℚ) (quoted selfDeal : Bool)
  | setPolicy (p : Policy)
  | sign (id : ℕ) (role : Role)
  | policyCheck (id : ℕ)
  | lock (id : ℕ) (bindingId : Option ℤ)
  | other (id : ℕ) (a : Act)

structure Call where
  day : ℕ
  session : Option ℕ
  body : Body

def Book.perform (b : Book) (id : ℕ) (a : Deal → Act) : Option Book :=
  (b.deals id).bind fun d => (d.order.step (a d)).map fun o =>
    { b with deals := update b.deals id (some { d with order := o }) }

def Book.locked (b : Book) (id : ℕ) : Bool := (b.deals id).any (·.order.status = .locked)

def Book.step (b : Book) (c : Call) : Option Book :=
  match c.body with
  | .create id seller amount quoted selfDeal =>
    match c.session, b.deals id with
    | some buyer, none =>
      some { b with deals := update b.deals id (some ⟨⟨if quoted then .quoted else .draft,
        .pendingAccept, false, false, none, false, none, none, 0, 0, selfDeal⟩, buyer, seller,
        amount⟩) }
    | _, _ => none
  | .setPolicy p => c.session.map fun i => { b with policies := update b.policies i p }
  | .sign id role =>
    (b.perform id fun _ => .sign role).map fun b =>
      { b with signs := (id, role, c.session) :: b.signs }
  | .policyCheck id =>
    b.perform id fun d => .policyCheck ((b.policyOf c.session).verdict d.amount d.seller)
  | .lock id bindingId =>
    (b.perform id fun d =>
      .lock ((b.policyOf (some d.buyer)).verdict d.amount d.seller) bindingId).map fun b' =>
        match b'.deals id with
        | some d => if b'.locked id then { b' with locks := (d.buyer, c.day, d.amount) :: b'.locks }
          else b'
        | none => b'
  | .other id a =>
    match a with
    | .sign _ | .policyCheck _ | .lock _ _ => none
    | a => b.perform id fun _ => a

abbrev Book.Reach :=
  Run (fun b : Book => (∀ id, b.deals id = none) ∧ b.signs = [] ∧ b.locks = []) Book.step

def Book.spent (b : Book) (d : Deal) (day : ℕ) : ℚ :=
  ((b.locks.filter fun l => l.1 = d.buyer ∧ l.2.1 = day).map (·.2.2)).sum + d.amount

variable {b b' : Book} {c : Call} {id : ℕ} {d : Deal}

namespace Sample

end Sample

end Karma.MiniApp
