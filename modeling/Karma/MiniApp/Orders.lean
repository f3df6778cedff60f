import Karma.Evm.Run
import Mathlib.Data.Int.Notation

/-! # Orders of the MiniApp

`services/miniapp_commerce/orders.py` with the routes and the sweep that call it. -/

namespace Karma.MiniApp

open Evm

inductive OrderStatus
  | draft
  | quoted
  | signed
  | policyChecked
  | locked
  | executed
  | evidenceSubmitted
  | verified
  | settled
  | refunded
  | rejected
  deriving DecidableEq

inductive FulfillmentStatus
  | pendingAccept
  | accepted
  | processing
  | delivered
  | verified
  | settled
  | disputed
  | refunded
  deriving DecidableEq

/-- `MiniAppOrder` with what the other services keep for it. -/
structure Order where
  status : OrderStatus
  fulfillment : FulfillmentStatus
  buyerSigned : Bool
  sellerSigned : Bool
  bindingId : Option ℤ
  evidence : Bool
  latestPass : Option Bool
  riskHold : Option Bool
  openDisputes : ℕ
  resolvedDisputes : ℕ
  selfDeal : Bool

inductive Role
  | buyer
  | seller
  deriving DecidableEq

/-- How `apply_policy` ends: it may also refuse to say anything (`infinite_approve`). -/
inductive PolicyVerdict
  | ok
  | exceeded
  | forbidden
  deriving DecidableEq

namespace Order

def sign (o : Order) (role : Role) : Order :=
  let o := match role with
    | .buyer => { o with buyerSigned := true }
    | .seller => { o with sellerSigned := true }
  if o.buyerSigned && o.sellerSigned then { o with status := .signed } else o

def applyPolicy (o : Order) (verdict : PolicyVerdict) : Option Order :=
  if o.status ∈ [OrderStatus.signed, .quoted, .policyChecked] then
    match verdict with
    | .ok => some { o with status := .policyChecked }
    | .exceeded => some { o with status := .rejected }
    | .forbidden => none
  else none

def markLocked (o : Order) (bindingId : Option ℤ) : Option Order :=
  if o.status = .policyChecked then some { o with status := .locked, bindingId } else none

def submitEvidence (o : Order) (evidence : Bool) : Option Order :=
  if o.status ∈ [OrderStatus.locked, .executed, .evidenceSubmitted] then
    some { o with
      evidence
      status := .evidenceSubmitted
      fulfillment :=
        if o.fulfillment ∈ [FulfillmentStatus.pendingAccept, .accepted, .processing] then .delivered
        else o.fulfillment }
  else none

/-- `verification_runs`, with the verdict of the engine on intent and evidence and the assessment
that is made if there is none. -/
def verify (o : Order) (pass hold : Bool) : Option Order :=
  if o.evidence ∧ ¬ o.selfDeal then
    let held := o.riskHold.getD hold
    let o := { o with riskHold := some held, latestPass := some (pass && !held) }
    some (if pass && !held then { o with status := .verified, fulfillment := .verified } else o)
  else none

def finalize (o : Order) : Option Order :=
  if o.latestPass = some true ∧ o.riskHold ≠ some true ∧ o.openDisputes = 0 ∧ ¬ o.selfDeal ∧
      o.bindingId.isSome ∧ o.status = .verified then
    some { o with status := .settled, fulfillment := .settled }
  else none

def markRefunded (o : Order) : Order := { o with status := .refunded, fulfillment := .refunded }

def markDisputed (o : Order) : Order :=
  if o.fulfillment ∈ [FulfillmentStatus.settled, .refunded] then o
  else { o with fulfillment := .disputed }

def restoreFulfillment (o : Order) : Order :=
  if o.fulfillment = .disputed then
    { o with fulfillment := match o.status with
      | .evidenceSubmitted => .delivered
      | .verified => .verified
      | .settled => .settled
      | _ => .accepted }
  else o

end Order

inductive Act
  | sign (role : Role)
  | accept
  | start
  | deliver (evidence : Bool)
  | policyCheck (verdict : PolicyVerdict)
  | lock (verdict : PolicyVerdict) (bindingId : Option ℤ)
  | submitEvidence (evidence : Bool)
  | assessRisk (hold : Bool)
  | verify (pass hold : Bool)
  | finalize
  | openDispute
  | resolveDispute (isOpen refund : Bool)
  | sweep
  deriving DecidableEq

/-- `none` is a request that is refused and changes nothing. -/
def Order.step (o : Order) : Act → Option Order
  | .sign role => some (o.sign role)
  | .accept =>
    if o.fulfillment = .pendingAccept ∧
        o.status ∈ [OrderStatus.quoted, .signed, .policyChecked, .locked] then
      some { o with fulfillment := .accepted }
    else none
  | .start =>
    if o.status = .locked ∧ o.fulfillment = .accepted then
      some { o with fulfillment := .processing }
    else none
  | .deliver evidence =>
    if o.status = .locked ∧ o.fulfillment ∈ [FulfillmentStatus.accepted, .processing] then
      some { o with evidence, status := .evidenceSubmitted, fulfillment := .delivered }
    else none
  | .policyCheck verdict => o.applyPolicy verdict
  | .lock verdict bindingId =>
    if o.status = .signed then
      (o.applyPolicy verdict).map fun o => (o.markLocked bindingId).getD o
    else o.markLocked bindingId
  | .submitEvidence evidence => o.submitEvidence evidence
  | .assessRisk hold => if o.selfDeal then none else some { o with riskHold := some hold }
  | .verify pass hold => o.verify pass hold
  | .finalize => o.finalize
  | .openDispute =>
    if o.status = .settled then none
    else some { o.markDisputed with openDisputes := o.openDisputes + 1 }
  | .resolveDispute isOpen refund =>
    if 0 < (if isOpen then o.openDisputes else o.resolvedDisputes) then
      let o := if isOpen then
          { o with
            openDisputes := o.openDisputes - 1
            resolvedDisputes := o.resolvedDisputes + 1 }
        else o
      -- the dispute is resolved also where a refund is refused
      some (if refund then if o.status = .settled then o else o.markRefunded
        else o.restoreFulfillment)
    else none
  | .sweep =>
    if o.status ∈ [OrderStatus.locked, .executed, .evidenceSubmitted] ∧
        o.fulfillment ≠ .disputed then
      some o.markRefunded
    else none

structure Order.Fresh (o : Order) : Prop where
  status : o.status = .draft ∨ o.status = .quoted
  fulfillment : o.fulfillment = .pendingAccept
  signatures : o.buyerSigned = false ∧ o.sellerSigned = false
  evidence : o.evidence = false
  services : o.latestPass = none ∧ o.riskHold = none ∧ o.openDisputes = 0 ∧ o.resolvedDisputes = 0

abbrev Order.Reach (h : List (Entry Order Act)) (o : Order) : Prop :=
  Run Order.Fresh Order.step h o

/-! ## The way to the settlement -/

def OrderStatus.final (s : OrderStatus) : Bool := s ∈ [OrderStatus.settled, .refunded]

def OrderStatus.beforeLock (s : OrderStatus) : Bool :=
  s ∈ [OrderStatus.draft, .quoted, .signed, .policyChecked, .rejected]

/-- How far the order has come since it last had a status that precedes the lock. -/
def stage : List (Entry Order Act) → ℕ
  | [] => 0
  | e :: h =>
    if e.post.status.beforeLock then 0
    else if e.post.status = .locked then max (stage h) 1
    else if e.post.status = .evidenceSubmitted ∧ 1 ≤ stage h then max (stage h) 2
    else if e.post.status = .verified ∧ 2 ≤ stage h then 3
    else stage h

structure EndsOnce (h : List (Entry Order Act)) (e : Entry Order Act) : Prop where
  absorbing : e.pre.status.final → e.post.status = e.pre.status
  earned : e.post.status = .settled → e.pre.status ≠ .settled → stage h = 3

def verifiedFrom : List (Entry Order Act) → Option OrderStatus
  | [] => none
  | e :: h => if e.pre.status = .verified then verifiedFrom h else some e.pre.status

/-- A signature that completes the pair, or a verification that passes. -/
def Reopens (e : Entry Order Act) : Prop :=
  match e.act with
  | .sign _ => e.post.buyerSigned ∧ e.post.sellerSigned
  | .verify _ _ => e.post.latestPass = some true
  | _ => False

structure Orderly (h : List (Entry Order Act)) (e : Entry Order Act) : Prop where
  closed : e.pre.status.final → ¬ Reopens e
  proved : e.act = .finalize → verifiedFrom h = some .evidenceSubmitted

def Leads (s s' : OrderStatus) : Prop :=
  s' = s ∨ s' = .signed ∨ s' = .verified ∨ s' = .refunded ∨
    s.beforeLock ∧ (s' = .policyChecked ∨ s' = .rejected ∨ s' = .locked) ∨
    (s = .locked ∨ s = .executed ∨ s = .evidenceSubmitted) ∧ s' = .evidenceSubmitted ∨
    s = .verified ∧ s' = .settled

variable {o o' : Order} {a : Act} {h : List (Entry Order Act)}

theorem status_applyPolicy {verdict : PolicyVerdict} (hs : o.applyPolicy verdict = some o') :
    o.status.beforeLock ∧ (o'.status = .policyChecked ∨ o'.status = .rejected) := by
  unfold Order.applyPolicy at hs
  split_ifs at hs with hstatus
  refine ⟨by revert hstatus; cases o.status <;> decide, ?_⟩
  cases verdict <;> simp only [Option.some.injEq, reduceCtorEq] at hs <;> subst hs <;> simp

theorem status_markLocked {bindingId : Option ℤ} (hs : o.markLocked bindingId = some o') :
    o.status = .policyChecked ∧ o'.status = .locked := by
  unfold Order.markLocked at hs
  split_ifs at hs with hstatus
  exact ⟨hstatus, Option.some.inj hs ▸ rfl⟩

theorem leads_of_step (hs : o.step a = some o') : Leads o.status o'.status := by
  unfold Leads
  cases a <;> simp only [Order.step, Order.sign, Order.submitEvidence, Order.verify,
    Order.finalize, Order.markRefunded, Order.markDisputed, Order.restoreFulfillment] at hs
  case policyCheck verdict =>
    obtain ⟨hb, h | h⟩ := status_applyPolicy hs <;> simp [hb, h]
  case lock verdict bindingId =>
    split_ifs at hs with hsigned
    · obtain ⟨o₁, h₁, rfl⟩ := Option.map_eq_some_iff.mp hs
      obtain ⟨hb, hst⟩ := status_applyPolicy h₁
      cases hl : o₁.markLocked bindingId with
      | none => rcases hst with h | h <;> simp [hb, h]
      | some o₂ => simp [hb, (status_markLocked hl).2]
    · obtain ⟨hp, hl⟩ := status_markLocked hs
      simp [hp, hl, OrderStatus.beforeLock]
  all_goals grind

theorem absorbing_iff (hs : o.step a = some o') (hfinal : o.status.final) :
    o'.status = o.status ↔ ¬ Reopens ⟨o, a, o'⟩ := by
  have hor : o.status = .settled ∨ o.status = .refunded := by simpa [OrderStatus.final] using hfinal
  cases a <;> simp only [Order.step, Order.sign, Order.submitEvidence, Order.verify,
    Order.finalize, Order.markRefunded, Order.markDisputed, Order.restoreFulfillment,
    Order.applyPolicy, Order.markLocked, Reopens] at hs ⊢ <;> grind

theorem finalize_iff (hs : o.step a = some o') :
    a = .finalize ↔ o'.status = .settled ∧ o.status ≠ .settled := by
  cases a <;> simp only [Order.step, Order.sign, Order.submitEvidence, Order.verify,
    Order.finalize, Order.markRefunded, Order.markDisputed, Order.restoreFulfillment,
    Order.applyPolicy, Order.markLocked] at hs ⊢ <;> grind

structure Staged (h : List (Entry Order Act)) (o : Order) : Prop where
  executed : o.status ≠ .executed
  before : o.status.beforeLock → stage h = 0
  locked : o.status = .locked → stage h = 1
  evidenced : o.status = .evidenceSubmitted → stage h = 2
  verified : o.status = .verified → stage h = 3 ∧ verifiedFrom h = some .evidenceSubmitted ∨
      stage h < 2 ∧ verifiedFrom h ≠ some .evidenceSubmitted

theorem Staged.step (hst : Staged h o) (hs : o.step a = some o')
    (hkeep : o.status.final → o'.status = o.status) : Staged (⟨o, a, o'⟩ :: h) o' := by
  obtain ⟨hexec, hbefore, hlocked, hevidenced, hverified⟩ := hst
  have hleads := leads_of_step hs
  simp only [Leads, OrderStatus.final, OrderStatus.beforeLock] at *
  constructor
  case verified =>
    -- entered from submitted evidence or from a status with a lower stage; final ones are not left
    cases ho : o.status <;> grind [stage, verifiedFrom, OrderStatus.beforeLock]
  all_goals grind [stage, OrderStatus.beforeLock]

/-- **An order ends once** in a run exactly if the run is orderly. -/
theorem order_ends_once_iff (hr : Order.Reach h o) : Each EndsOnce h ↔ Each Orderly h := by
  refine hr.each_iff_inv (J := Staged) (fun o h0 => ?_) (fun h o a o' hst hs he => ?_)
    fun h o a o' hst hs => ?_
  · rcases h0.status with h | h <;> constructor <;> simp [h, stage, OrderStatus.beforeLock]
  · exact hst.step hs he.absorbing
  · have hsettles := finalize_iff hs
    have hverified : o'.status = .settled → o.status ≠ .settled → o.status = .verified := by
      have hleads := leads_of_step hs
      grind [Leads]
    refine ⟨fun he => ⟨fun hf => (absorbing_iff hs hf).mp (he.absorbing hf), fun hfin => ?_⟩,
      fun ho => ⟨fun hf => (absorbing_iff hs hf).mpr (ho.closed hf), fun h₁ h₂ => ?_⟩⟩
    · obtain ⟨h₁, h₂⟩ := hsettles.mp hfin
      rcases hst.verified (hverified h₁ h₂) with ⟨-, hfrom⟩ | ⟨hlt, -⟩
      · exact hfrom
      · exact absurd (he.earned h₁ h₂) (by omega)
    · rcases hst.verified (hverified h₁ h₂) with ⟨hstage, -⟩ | ⟨-, hfrom⟩
      · exact hstage
      · exact absurd (ho.proved (hsettles.mpr ⟨h₁, h₂⟩)) hfrom

namespace Sample

def newOrder : Order :=
  ⟨.quoted, .pendingAccept, false, false, none, false, none, none, 0, 0, false⟩

def orderAfter (as : List Act) : Order := stateAfter Order.step as newOrder

def orderHistory (as : List Act) : List (Entry Order Act) := record Order.step as newOrder []

def paved : List Act :=
  [.sign .buyer, .sign .seller, .lock .ok (some 1), .submitEvidence true, .verify true false]

end Sample

open Sample

theorem order_ends_once_sample : (orderAfter (paved ++ [.finalize])).status = .settled ∧
      Each EndsOnce (orderHistory (paved ++ [.finalize])) := by
  refine ⟨by decide +kernel, (order_ends_once_iff (.stateAfter
    (.start ⟨Or.inr rfl, rfl, ⟨rfl, rfl⟩, rfl, rfl, rfl, rfl, rfl⟩))).mpr ?_⟩
  refine ⟨?_, ?_, ?_, ?_, ?_, ?_, trivial⟩ <;>
    exact ⟨fun h => absurd h (by decide +kernel), by decide +kernel⟩

/-- **Settled twice**: a signature reopens a settled order, and the old evidence carries it to the
next settlement. -/
theorem settled_twice :
    Order.Reach (orderHistory (paved ++ [.finalize, .sign .buyer, .verify true false, .finalize]))
      (orderAfter (paved ++ [.finalize, .sign .buyer, .verify true false, .finalize])) ∧
    (orderHistory (paved ++ [.finalize, .sign .buyer, .verify true false, .finalize])).map
        (·.post.status) =
      [.settled, .verified, .signed, .settled, .verified, .evidenceSubmitted, .locked, .signed,
        .quoted] ∧
    (orderHistory (paved.take 4 ++ [.sweep, .verify true false, .finalize])).map (·.post.status) =
      [.settled, .verified, .refunded, .evidenceSubmitted, .locked, .signed, .quoted] :=
  ⟨.stateAfter (.start ⟨Or.inr rfl, rfl, ⟨rfl, rfl⟩, rfl, rfl, rfl, rfl, rfl⟩), by decide +kernel⟩

end Karma.MiniApp
