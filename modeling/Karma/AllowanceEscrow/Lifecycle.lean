import Karma.AllowanceEscrow.Receipts

/-! # `KarmaAllowanceEscrow` — the life of one binding

`Life w b w' a` is the state machine of a single binding `b`. -/

namespace Karma.AllowanceEscrow

open Evm Function

variable {D : Deployment} {w w' : World} {a : Act} {h : History} {b : ℕ}

def Act.binding : Act → Option ℕ
  | .call _ (.cancelBinding b) | .call _ (.markDisputed b) | .call _ (.buyerConfirm b)
  | .call _ (.submitSettlement b _) | .call _ (.submitBreach b _)
  | .call _ (.finalizeSettlement b) | .call _ (.finalizeBreach b) => some b
  | _ => none

inductive Life (w : World) (b : ℕ) (w' : World) : Act → Prop
  | untouched {a : Act} (hact : a.binding ≠ some b) (hsame : w'.bindings b = w.bindings b) :
      Life w b w' a
  | bound {sender : Address} {i j n m : ℕ} {scopeHash : Bytes32} (hb : b = w.bindingCounter + 1)
      (hnew : w'.bindings b =
        { bindingId := b, buyerBillId := i, sellerBillId := j, scopeHash, amount := n,
          stakeAmount := m, state := .active, createdAt := w.now,
          settleAfter := w.now + w.settleDelaySeconds }) :
      Life w b w' (.call sender (.bind i j scopeHash n m))
  | cancelled {sender : Address} (hst : (w.bindings b).state = .active ∨
        (w.bindings b).state = .disputed ∧ sender = w.disputeResolver)
      (hact : CanAct (w.bills (w.bindings b).buyerBillId) sender ∨
        CanAct (w.bills (w.bindings b).sellerBillId) sender ∨ sender = w.disputeResolver)
      (hnew : w'.bindings b = { w.bindings b with state := .cancelled, closedAt := w.now })
      (hpulls : w'.pulls = []) :
      Life w b w' (.call sender (.cancelBinding b))
  | disputed {sender : Address} (hst : (w.bindings b).state = .active)
      (hres : sender = w.disputeResolver)
      (hnew : w'.bindings b = { w.bindings b with state := .disputed }) (hpulls : w'.pulls = []) :
      Life w b w' (.call sender (.markDisputed b))
  | confirmed {sender : Address} (hst : (w.bindings b).state = .finalizing)
      (hslash : (w.bindings b).slashArmed = false)
      (hact : CanAct (w.bills (w.bindings b).buyerBillId) sender)
      (hconf : (w.bindings b).buyerConfirmed = false)
      (hnew : w'.bindings b = { w.bindings b with buyerConfirmed := true, confirmedAt := w.now })
      (hpulls : w'.pulls = []) :
      Life w b w' (.call sender (.buyerConfirm b))
  | ruledSettlement {sender : Address} {proofHash : Bytes32} (hst : (w.bindings b).state.Live)
      (hres : sender = w.disputeResolver) (htime : (w.bindings b).settleAfter ≤ w.now)
      (hnew : w'.bindings b = { w.bindings b with
          state := .finalizing, slashArmed := false, proofHash,
          settleAfter := w.now + w.disputeWindowSeconds }) (hpulls : w'.pulls = []) :
      Life w b w' (.call sender (.submitSettlement b proofHash))
  | ruledBreach {sender : Address} {proofHash : Bytes32} (hst : (w.bindings b).state.Live)
      (hres : sender = w.disputeResolver) (htime : (w.bindings b).settleAfter ≤ w.now)
      (hnew : w'.bindings b = { w.bindings b with
          state := .finalizing, slashArmed := true, proofHash,
          settleAfter := w.now + w.disputeWindowSeconds }) (hpulls : w'.pulls = []) :
      Life w b w' (.call sender (.submitBreach b proofHash))
  | settled {sender : Address} (hst : (w.bindings b).state = .finalizing)
      (hslash : (w.bindings b).slashArmed = false)
      (htime : (w.bindings b).settleAfter ≤ w.now ∨ (w.bindings b).buyerConfirmed = true)
      (hnew : w'.bindings b = { w.bindings b with state := .settled, closedAt := w.now })
      (hpulls : w'.pulls = [w.payment b]) :
      Life w b w' (.call sender (.finalizeSettlement b))
  | slashed {sender : Address} (hst : (w.bindings b).state = .finalizing)
      (hslash : (w.bindings b).slashArmed = true) (hres : sender = w.disputeResolver)
      (htime : (w.bindings b).settleAfter ≤ w.now)
      (hnew : w'.bindings b = { w.bindings b with state := .slashed, closedAt := w.now })
      (hpulls : w'.pulls = [w.slashing b]) :
      Life w b w' (.call sender (.finalizeBreach b))

theorem Life.of_ne {c : ℕ} {binding : Binding} (hcb : c ≠ b) (hact : a.binding = some c)
    (hw' : w'.bindings = update w.bindings c binding) : Life w b w' a := by
  refine .untouched ?_ ?_
  · rw [hact]
    exact fun h => hcb (Option.some.inj h)
  · rw [hw', update_of_ne hcb.symm]

theorem Effect.life (he : Effect D w a w') (b : ℕ) : Life w b w' a := by
  -- a transaction about binding `c` is a transition of `c` and leaves the others untouched
  cases he with
  | tick | token | setTokenAllowed | setDisputeWindow | setSettleDelay | setDisputeResolver
  | setFrozen | commit | setOperator | revoke => exact .untouched nofun rfl
  | bind =>
    rcases eq_or_ne b (w.bindingCounter + 1) with rfl | hb
    · exact .bound rfl (update_self ..)
    · exact .untouched nofun (update_of_ne hb ..)
  | @cancelBinding _ c _ hst hact =>
    rcases eq_or_ne c b with rfl | hc
    · exact .cancelled hst hact (update_self ..) rfl
    · exact .of_ne hc rfl rfl
  | @markDisputed _ c _ hst hres =>
    rcases eq_or_ne c b with rfl | hc
    · exact .disputed hst hres (update_self ..) rfl
    · exact .of_ne hc rfl rfl
  | @buyerConfirm _ c _ hst hslash hact hconf =>
    rcases eq_or_ne c b with rfl | hc
    · exact .confirmed hst hslash hact hconf (update_self ..) rfl
    · exact .of_ne hc rfl rfl
  | @submitSettlement _ c _ _ hst hres htime =>
    rcases eq_or_ne c b with rfl | hc
    · exact .ruledSettlement hst hres htime (update_self ..) rfl
    · exact .of_ne hc rfl rfl
  | @submitBreach _ c _ _ hst hres htime =>
    rcases eq_or_ne c b with rfl | hc
    · exact .ruledBreach hst hres htime (update_self ..) rfl
    · exact .of_ne hc rfl rfl
  | @finalizeSettlement _ c _ _ hst hslash htime _ _ =>
    rcases eq_or_ne c b with rfl | hc
    · exact .settled hst hslash htime (update_self ..) rfl
    · exact .of_ne hc rfl rfl
  | @finalizeBreach _ c _ _ hst hslash hres htime _ _ =>
    rcases eq_or_ne c b with rfl | hc
    · exact .slashed hst hslash hres htime (update_self ..) rfl
    · exact .of_ne hc rfl rfl

theorem Effect.bindings_eq (he : Effect D w a w') (hb : b ≤ w.bindingCounter)
    (hname : a.binding ≠ some b) : w'.bindings b = w.bindings b := by
  cases he.life b with
  | untouched _ hsame => exact hsame
  | bound hnew => omega
  | cancelled | disputed | confirmed | ruledSettlement | ruledBreach | settled | slashed =>
    exact absurd rfl hname

theorem Effect.bindingCounter_eq (he : Effect D w a w')
    (hbind : ∀ sender i j scopeHash n m, a ≠ .call sender (.bind i j scopeHash n m)) :
    w'.bindingCounter = w.bindingCounter := by
  cases he with
  | bind => exact absurd rfl (hbind _ _ _ _ _ _)
  | _ => rfl

/-! ## The history of one binding -/

def pullsOf (b : ℕ) (h : History) : List Pull :=
  h.flatMap fun e => if e.act.binding = some b then e.post.pulls else []

inductive Ruling
  | settlement | breach
  deriving DecidableEq, Repr

def Act.ruling (b : ℕ) : Act → Option Ruling
  | .call _ (.submitSettlement c _) => if c = b then some .settlement else none
  | .call _ (.submitBreach c _) => if c = b then some .breach else none
  | _ => none

def lastRuling (b : ℕ) (h : History) : Option Ruling := h.findSome? fun e => e.act.ruling b

variable {e : Entry World Act}

theorem pullsOf_cons_of_ne (hb : e.act.binding ≠ some b) :
    pullsOf b (e :: h) = pullsOf b h := by
  simp [pullsOf, hb]

theorem pullsOf_cons_of_eq (hb : e.act.binding = some b) :
    pullsOf b (e :: h) = e.post.pulls ++ pullsOf b h := by
  simp [pullsOf, hb]

theorem Act.ruling_eq_none (hb : a.binding ≠ some b) : a.ruling b = none := by
  unfold Act.ruling
  split
  · exact if_neg fun hc => hb (by simp [Act.binding, hc])
  · exact if_neg fun hc => hb (by simp [Act.binding, hc])
  · rfl

theorem lastRuling_cons_of_none (hb : e.act.ruling b = none) :
    lastRuling b (e :: h) = lastRuling b h := by
  simp [lastRuling, hb]

theorem lastRuling_cons_of_some {r : Ruling} (hb : e.act.ruling b = some r) :
    lastRuling b (e :: h) = some r := by
  simp [lastRuling, hb]

end Karma.AllowanceEscrow
