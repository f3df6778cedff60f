import Karma.AllowanceEscrow.Code
import Karma.Evm.Register

/-! # `KarmaAllowanceEscrow` — what a transaction does

`Effect D w a w'` has one constructor for each entry point, with the guards it has passed and the
world it leaves behind. -/

namespace Karma.AllowanceEscrow

open Evm Function

/-! ## Bookkeeping on one bill -/

def Bill.unreserve (bill : Bill) (n : ℕ) : Bill := { bill with reserved := bill.reserved - n }

def Bill.spendReserved (bill : Bill) (n : ℕ) : Bill :=
  { bill with
    reserved := bill.reserved - n,
    spent := bill.spent + n,
    state := if bill.amount ≤ bill.spent + n then .closed else bill.state }

def World.unreserve (w : World) (i n : ℕ) : World := w.setBill i ((w.bills i).unreserve n)

def World.spendReserved (w : World) (i n : ℕ) : World := w.setBill i ((w.bills i).spendReserved n)

variable {I : World → Prop} {E : Error → Prop} {w : World}

@[simp] theorem World.fresh_bills : w.fresh.bills = w.bills := rfl

@[simp] theorem World.fresh_bindings : w.fresh.bindings = w.bindings := rfl

@[simp] theorem World.fresh_tokens : w.fresh.tokens = w.tokens := rfl

@[simp] theorem World.fresh_now : w.fresh.now = w.now := rfl

@[simp] theorem World.fresh_disputeResolver : w.fresh.disputeResolver = w.disputeResolver := rfl

@[simp] theorem World.setBinding_tokens (b : ℕ) (binding : Binding) :
    (w.setBinding b binding).tokens = w.tokens := rfl

@[simp] theorem World.unreserve_tokens (i n : ℕ) : (w.unreserve i n).tokens = w.tokens := rfl

@[simp] theorem World.spendReserved_tokens (i n : ℕ) :
    (w.spendReserved i n).tokens = w.tokens := rfl

theorem World.unreserve_bills_of_ne {i j : ℕ} (n : ℕ) (hij : i ≠ j) :
    (w.unreserve i n).bills j = w.bills j :=
  update_of_ne hij.symm ..

theorem World.spendReserved_bills_of_ne {i j : ℕ} (n : ℕ) (hij : i ≠ j) :
    (w.spendReserved i n).bills j = w.bills j :=
  update_of_ne hij.symm ..

/-! ## The terms of bills and bindings -/

def Bill.terms (bill : Bill) : Address × Address × ℕ := (bill.owner, bill.token, bill.amount)

def Binding.terms (b : Binding) : ℕ × ℕ × ℕ × ℕ × ℕ :=
  (b.bindingId, b.buyerBillId, b.sellerBillId, b.amount, b.stakeAmount)

theorem terms_update_binding {bindings : ℕ → Binding} {b : ℕ} {binding : Binding}
    (h : binding.terms = (bindings b).terms) (k : ℕ) :
    (update bindings b binding k).terms = (bindings k).terms :=
  (forall_update_iff bindings fun k binding => binding.terms = (bindings k).terms).mpr
    ⟨h, fun _ _ => rfl⟩ k

variable {β : Type}

theorem World.unreserve_apply (f : Bill → β) (hf : ∀ (bill : Bill) n, f (bill.unreserve n) = f bill)
    (i n k : ℕ) : f ((w.unreserve i n).bills k) = f (w.bills k) :=
  (forall_update_iff w.bills fun k bill => f bill = f (w.bills k)).mpr ⟨hf _ n, fun _ _ => rfl⟩ k

theorem World.spendReserved_apply (f : Bill → β)
    (hf : ∀ (bill : Bill) n, f (bill.spendReserved n) = f bill) (i n k : ℕ) :
    f ((w.spendReserved i n).bills k) = f (w.bills k) :=
  (forall_update_iff w.bills fun k bill => f bill = f (w.bills k)).mpr ⟨hf _ n, fun _ _ => rfl⟩ k

@[simp] theorem World.unreserve_token (i n k : ℕ) :
    ((w.unreserve i n).bills k).token = (w.bills k).token :=
  World.unreserve_apply Bill.token (fun _ _ => rfl) i n k

@[simp] theorem World.unreserve_owner (i n k : ℕ) :
    ((w.unreserve i n).bills k).owner = (w.bills k).owner :=
  World.unreserve_apply Bill.owner (fun _ _ => rfl) i n k

@[simp] theorem World.spendReserved_token (i n k : ℕ) :
    ((w.spendReserved i n).bills k).token = (w.bills k).token :=
  World.spendReserved_apply Bill.token (fun _ _ => rfl) i n k

@[simp] theorem World.spendReserved_owner (i n k : ℕ) :
    ((w.spendReserved i n).bills k).owner = (w.bills k).owner :=
  World.spendReserved_apply Bill.owner (fun _ _ => rfl) i n k

def World.payment (w : World) (b : ℕ) : Pull where
  token := (w.bills (w.bindings b).buyerBillId).token
  source := (w.bills (w.bindings b).buyerBillId).owner
  target := (w.bills (w.bindings b).sellerBillId).owner
  amount := (w.bindings b).amount

def World.slashing (w : World) (b : ℕ) : Pull where
  token := (w.bills (w.bindings b).sellerBillId).token
  source := (w.bills (w.bindings b).sellerBillId).owner
  target := (w.bills (w.bindings b).buyerBillId).owner
  amount := (w.bindings b).stakeAmount

/-! ## The helpers of the code -/

@[simp] theorem wp_emit (e : Event) (Q : Unit → World → Prop) :
    Tx.wp (emit e) I E Q w ↔ Q () { w with events := w.events ++ [e] } := by
  simp [emit]

@[simp] theorem wp_onlyAdmin (D : Deployment) (sender : Address) (Q : Unit → World → Prop) :
    Tx.wp (onlyAdmin D sender) I E Q w ↔
      (sender ≠ D.admin → E (.require "not admin")) ∧ (sender = D.admin → Q () w) := by
  simp [onlyAdmin]

@[simp] theorem wp_notFrozen (Q : Unit → World → Prop) :
    Tx.wp notFrozen I E Q w ↔
      (w.frozen = true → E (.require "frozen")) ∧ (w.frozen = false → Q () w) := by
  simp [notFrozen]

@[simp] theorem wp_requireOpenBill (i : ℕ) (Q : Bill → World → Prop) :
    Tx.wp (requireOpenBill i) I E Q w ↔
      ((w.bills i).billId = 0 ∨ (w.bills i).state ≠ .opened → E (.wrongBillState i)) ∧
        ((w.bills i).billId ≠ 0 ∧ (w.bills i).state = .opened → Q (w.bills i) w) := by
  simp [requireOpenBill]

@[simp] theorem wp_requireBinding (b : ℕ) (Q : Binding → World → Prop) :
    Tx.wp (requireBinding b) I E Q w ↔
      ((w.bindings b).bindingId = 0 ∨ (w.bindings b).state = .none → E (.unknownBinding b)) ∧
        ((w.bindings b).bindingId ≠ 0 ∧ (w.bindings b).state ≠ .none → Q (w.bindings b) w) := by
  simp [requireBinding]

@[simp] theorem wp_availableOf (bill : Bill) (Q : ℕ → World → Prop) :
    Tx.wp (availableOf bill) I E Q w ↔
      (bill.reserved + bill.spent ≤ bill.amount → Q (bill.amount - bill.reserved - bill.spent) w) ∧
        (¬ bill.reserved + bill.spent ≤ bill.amount → E .underflow) := by
  simp only [availableOf, Tx.wp_bind, Tx.wp_checkedSub]
  constructor
  · rintro ⟨h1, h2⟩
    refine ⟨fun h => (h1 (by omega)).1 (by omega), fun h => ?_⟩
    by_cases hr : bill.reserved ≤ bill.amount
    · exact (h1 hr).2 (by omega)
    · exact h2 hr
  · rintro ⟨h1, h2⟩
    exact ⟨fun hr => ⟨fun hs => h1 (by omega), fun hs => h2 (by omega)⟩, fun hr => h2 (by omega)⟩

@[simp] theorem wp_unreserve (i n : ℕ) (Q : Unit → World → Prop) :
    Tx.wp (unreserve i n) I E Q w ↔ (n ≤ (w.bills i).reserved → Q () (w.unreserve i n)) ∧
        (¬ n ≤ (w.bills i).reserved → E .underflow) := by
  simp [unreserve, World.unreserve, Bill.unreserve]

@[simp] theorem wp_spendReserved (i n : ℕ) (Q : Unit → World → Prop) :
    Tx.wp (spendReserved i n) I E Q w ↔ (n ≤ (w.bills i).reserved →
        ((w.bills i).spent + n < 2 ^ 256 → Q () (w.spendReserved i n)) ∧
          (¬ (w.bills i).spent + n < 2 ^ 256 → E .overflow)) ∧
        (¬ n ≤ (w.bills i).reserved → E .underflow) := by
  simp [spendReserved, World.unreserve, World.spendReserved, Bill.unreserve, Bill.spendReserved,
    World.setBill]

@[simp] theorem wp_pull (D : Deployment) (t a b : Address) (n : ℕ) (Q : Unit → World → Prop) :
    Tx.wp (pull D t a b n) I E Q w ↔
      ((w.tokens t).allowance a D.self < n → E (.insufficientAllowance 0 n)) ∧
      (n ≤ (w.tokens t).allowance a D.self →
        ((w.tokens t).transferFrom D.self a b n = none → E .pullFailed) ∧
        ∀ T, (w.tokens t).transferFrom D.self a b n = some T →
          (T.balanceOf D.self ≠ 0 → E .custodyViolation) ∧
          (T.balanceOf D.self = 0 → Q () { w with
            tokens := update w.tokens t T, pulls := w.pulls ++ [⟨t, a, b, n⟩] })) := by
  simp [pull]

theorem not_live_iff {st : BindingState} :
    ¬ st.Live ↔ st ≠ .active ∧ st ≠ .disputed ∧ st ≠ .finalizing := by
  cases st <;> simp [BindingState.Live]

/-! ## The effect of a transaction -/

/-- **Everything a transaction can do.** -/
inductive Effect (D : Deployment) (w : World) : Act → World → Prop
  | tick {time : ℕ} (hle : w.now ≤ time) : Effect D w (.tick time) { w.fresh with now := time }
  | token {sender token : Address} {c : Erc20.Call Address} {T : Erc20 Address}
      (hself : sender ≠ D.self) (hrun : (w.tokens token).run sender c = some T) :
      Effect D w (.token sender token c) { w.fresh with tokens := update w.tokens token T }
  | setTokenAllowed {sender token : Address} {allowed : Bool} (hadmin : sender = D.admin) :
      Effect D w (.call sender (.setTokenAllowed token allowed)) { w.fresh with
          tokenAllowed := update w.tokenAllowed token allowed,
          events := [.tokenAllowedUpdated token allowed] }
  | setDisputeWindow {sender : Address} {seconds : ℕ} (hadmin : sender = D.admin) :
      Effect D w (.call sender (.setDisputeWindow seconds)) { w.fresh with
          disputeWindowSeconds := seconds, events := [.disputeWindowUpdated seconds] }
  | setSettleDelay {sender : Address} {seconds : ℕ} (hadmin : sender = D.admin) :
      Effect D w (.call sender (.setSettleDelay seconds))
        { w.fresh with settleDelaySeconds := seconds, events := [.settleDelayUpdated seconds] }
  | setDisputeResolver {sender resolver : Address} (hadmin : sender = D.admin) :
      Effect D w (.call sender (.setDisputeResolver resolver))
        { w.fresh with disputeResolver := resolver, events := [.disputeResolverUpdated resolver] }
  | setFrozen {sender : Address} {value : Bool} (hadmin : sender = D.admin) :
      Effect D w (.call sender (.setFrozen value))
        { w.fresh with frozen := value, events := [.frozen value] }
  | commit {sender token operator : Address} {amount : ℕ} (hself : sender ≠ D.self)
      (hamount : amount ≠ 0) (hword : amount < 2 ^ 256) :
      Effect D w (.call sender (.commit token amount operator)) { w.fresh with
          billCounter := w.billCounter + 1,
          bills := update w.bills (w.billCounter + 1)
            { billId := w.billCounter + 1, owner := sender, operator, token, amount,
              state := .opened, createdAt := w.now },
          ownerBills := update w.ownerBills sender (w.ownerBills sender ++ [w.billCounter + 1]),
          events := [.billCommitted (w.billCounter + 1) sender operator token amount] }
  | setOperator {sender operator : Address} {i : ℕ} (hopen : (w.bills i).state = .opened)
      (howner : (w.bills i).owner = sender) :
      Effect D w (.call sender (.setOperator i operator))
        { w.fresh.setBill i { w.bills i with operator } with
          events := [.billOperatorSet i operator] }
  | revoke {sender : Address} {i : ℕ} (hopen : (w.bills i).state = .opened)
      (howner : (w.bills i).owner = sender) (hreserved : (w.bills i).reserved = 0) :
      Effect D w (.call sender (.revoke i))
        { w.fresh.setBill i { w.bills i with state := .closed } with
          events := [.billRevoked i sender ((w.bills i).amount - (w.bills i).spent)] }
  | bind {sender : Address} {i j n m : ℕ} {scopeHash : Bytes32}
      (hi : (w.bills i).state = .opened) (hj : (w.bills j).state = .opened)
      (hact : CanAct (w.bills i) sender) (htoken : (w.bills i).token = (w.bills j).token)
      (howner : (w.bills i).owner ≠ (w.bills j).owner) (hn : n ≠ 0) (hm : m ≠ 0)
      (hni : (w.bills i).reserved + (w.bills i).spent + n ≤ (w.bills i).amount)
      (hmj : (w.bills j).reserved + (w.bills j).spent + m ≤ (w.bills j).amount) :
      Effect D w (.call sender (.bind i j scopeHash n m))
        { (w.fresh.setBill i { w.bills i with reserved := (w.bills i).reserved + n }).setBill j
            { w.bills j with reserved := (w.bills j).reserved + m } with
          bindingCounter := w.bindingCounter + 1,
          bindings := update w.bindings (w.bindingCounter + 1)
            { bindingId := w.bindingCounter + 1, buyerBillId := i, sellerBillId := j, scopeHash,
              amount := n, stakeAmount := m, state := .active, createdAt := w.now,
              settleAfter := w.now + w.settleDelaySeconds },
          events := [.billsBound (w.bindingCounter + 1) i j scopeHash n m] }
  | cancelBinding {sender : Address} {b : ℕ} (hid : (w.bindings b).bindingId ≠ 0)
      (hst : (w.bindings b).state = .active ∨
        (w.bindings b).state = .disputed ∧ sender = w.disputeResolver)
      (hact : CanAct (w.bills (w.bindings b).buyerBillId) sender ∨
        CanAct (w.bills (w.bindings b).sellerBillId) sender ∨ sender = w.disputeResolver) :
      Effect D w (.call sender (.cancelBinding b))
        { ((w.fresh.unreserve (w.bindings b).buyerBillId (w.bindings b).amount).unreserve
            (w.bindings b).sellerBillId (w.bindings b).stakeAmount).setBinding b
            { w.bindings b with state := .cancelled, closedAt := w.now } with
          events := [.bindingCancelled b] }
  | markDisputed {sender : Address} {b : ℕ} (hid : (w.bindings b).bindingId ≠ 0)
      (hst : (w.bindings b).state = .active) (hres : sender = w.disputeResolver) :
      Effect D w (.call sender (.markDisputed b))
        { w.fresh.setBinding b { w.bindings b with state := .disputed } with
          events := [.bindingDisputed b w.now] }
  | buyerConfirm {sender : Address} {b : ℕ} (hid : (w.bindings b).bindingId ≠ 0)
      (hst : (w.bindings b).state = .finalizing) (hslash : (w.bindings b).slashArmed = false)
      (hact : CanAct (w.bills (w.bindings b).buyerBillId) sender)
      (hconf : (w.bindings b).buyerConfirmed = false) :
      Effect D w (.call sender (.buyerConfirm b)) { w.fresh.setBinding b { w.bindings b with
            buyerConfirmed := true, confirmedAt := w.now } with
          events := [.buyerConfirmed b sender w.now] }
  | submitSettlement {sender : Address} {b : ℕ} {proofHash : Bytes32}
      (hid : (w.bindings b).bindingId ≠ 0) (hst : (w.bindings b).state.Live)
      (hres : sender = w.disputeResolver) (htime : (w.bindings b).settleAfter ≤ w.now) :
      Effect D w (.call sender (.submitSettlement b proofHash)) { w.fresh.setBinding b
            { w.bindings b with
              state := .finalizing, slashArmed := false, proofHash,
              settleAfter := w.now + w.disputeWindowSeconds } with
          events := [.settleSubmitted b proofHash (w.now + w.disputeWindowSeconds)] }
  | submitBreach {sender : Address} {b : ℕ} {proofHash : Bytes32}
      (hid : (w.bindings b).bindingId ≠ 0) (hst : (w.bindings b).state.Live)
      (hres : sender = w.disputeResolver) (htime : (w.bindings b).settleAfter ≤ w.now) :
      Effect D w (.call sender (.submitBreach b proofHash)) { w.fresh.setBinding b
            { w.bindings b with
              state := .finalizing, slashArmed := true, proofHash,
              settleAfter := w.now + w.disputeWindowSeconds } with
          events := [.breachSubmitted b proofHash (w.now + w.disputeWindowSeconds)] }
  | finalizeSettlement {sender : Address} {b : ℕ} {T : Erc20 Address}
      (hid : (w.bindings b).bindingId ≠ 0) (hst : (w.bindings b).state = .finalizing)
      (hslash : (w.bindings b).slashArmed = false)
      (htime : (w.bindings b).settleAfter ≤ w.now ∨ (w.bindings b).buyerConfirmed = true)
      (hpull : (w.tokens (w.payment b).token).transferFrom D.self (w.payment b).source
        (w.payment b).target (w.payment b).amount = some T)
      (hcustody : T.balanceOf D.self = 0) :
      Effect D w (.call sender (.finalizeSettlement b))
        { ((w.fresh.spendReserved (w.bindings b).buyerBillId (w.bindings b).amount).unreserve
            (w.bindings b).sellerBillId (w.bindings b).stakeAmount).setBinding b
            { w.bindings b with state := .settled, closedAt := w.now } with
          tokens := update w.tokens (w.payment b).token T,
          pulls := [w.payment b],
          events := [.settled b (w.payment b).source (w.payment b).target (w.payment b).token
            (w.payment b).amount] }
  | finalizeBreach {sender : Address} {b : ℕ} {T : Erc20 Address}
      (hid : (w.bindings b).bindingId ≠ 0) (hst : (w.bindings b).state = .finalizing)
      (hslash : (w.bindings b).slashArmed = true) (hres : sender = w.disputeResolver)
      (htime : (w.bindings b).settleAfter ≤ w.now)
      (hpull : (w.tokens (w.slashing b).token).transferFrom D.self (w.slashing b).source
        (w.slashing b).target (w.slashing b).amount = some T)
      (hcustody : T.balanceOf D.self = 0) :
      Effect D w (.call sender (.finalizeBreach b))
        { ((w.fresh.unreserve (w.bindings b).buyerBillId (w.bindings b).amount).spendReserved
            (w.bindings b).sellerBillId (w.bindings b).stakeAmount).setBinding b
            { w.bindings b with state := .slashed, closedAt := w.now } with
          tokens := update w.tokens (w.slashing b).token T,
          pulls := [w.slashing b],
          events := [.stakeSlashed b (w.slashing b).source (w.slashing b).target
            (w.slashing b).token (w.slashing b).amount] }

theorem wp_exec (D : Deployment) (w : World) {sender : Address} (hself : sender ≠ D.self)
    {c : Call} (hword : c.WordSized) :
    Tx.wp (exec D sender c) (fun _ => True) (fun _ => True)
      (fun _ w' => Effect D w (.call sender c) w') w.fresh := by
  -- in each case `simp only` runs the code; what is left are its guards, in the order of the source
  cases c with
  | setTokenAllowed token allowed =>
    simp only [exec, setTokenAllowed, Tx.post_code, wp_onlyAdmin, wp_emit, implies_true, true_and]
    intro hadmin _
    exact .setTokenAllowed hadmin
  | setDisputeWindow seconds =>
    simp only [exec, setDisputeWindow, Tx.post_code, wp_onlyAdmin, wp_emit, implies_true, true_and]
    exact fun hadmin => .setDisputeWindow hadmin
  | setSettleDelay seconds =>
    simp only [exec, setSettleDelay, Tx.post_code, wp_onlyAdmin, wp_emit, implies_true, true_and]
    exact fun hadmin => .setSettleDelay hadmin
  | setDisputeResolver resolver =>
    simp only [exec, setDisputeResolver, Tx.post_code, wp_onlyAdmin, wp_emit, implies_true,
      true_and]
    intro hadmin _
    exact .setDisputeResolver hadmin
  | setFrozen value =>
    simp only [exec, setFrozen, Tx.post_code, wp_onlyAdmin, wp_emit, implies_true, true_and]
    exact fun hadmin => .setFrozen hadmin
  | commit token amount operator =>
    simp only [exec, commit, Tx.post_code, wp_notFrozen, wp_emit, implies_true, true_and]
    intro _ _ hamount _
    exact .commit hself hamount (hword amount (by simp [Call.words]))
  | setOperator i operator =>
    simp only [exec, setOperator, Tx.post_code, wp_requireOpenBill, wp_emit, implies_true, true_and]
    intro hopen howner
    exact .setOperator hopen.2 (not_not.mp howner)
  | revoke i =>
    simp only [exec, revoke, Tx.post_code, wp_requireOpenBill, wp_emit, implies_true, true_and]
    intro hopen howner hreserved _
    exact .revoke hopen.2 (not_not.mp howner) (not_not.mp hreserved)
  | bind i j scopeHash n m =>
    simp only [exec, bind, Tx.post_code, wp_notFrozen, wp_availableOf, wp_emit, implies_true,
      true_and, and_true]
    intro _ hi hj hact htoken howner hn hm hai hni haj hmj _ _ _
    refine .bind (not_not.mp hi) (not_not.mp hj) (not_not.mp hact) (not_not.mp htoken) howner
      hn hm ?_ ?_
    · simp only [World.fresh] at hai hni
      omega
    · simp only [World.fresh] at haj hmj
      omega
  | cancelBinding b =>
    simp only [exec, cancelBinding, Tx.post_code, wp_requireBinding, wp_unreserve, wp_emit,
      implies_true, true_and, and_true]
    rintro ⟨hid, -⟩
    refine ⟨fun hst hres hact _ _ => ?_, fun _ hst hact _ _ => ?_⟩
    · refine .cancelBinding hid (.inr ⟨hst, not_not.mp hres⟩) ?_
      exact .inr (.inr (not_not.mp hres))
    · refine .cancelBinding hid (.inl (not_not.mp hst)) ?_
      simpa only [World.fresh, not_and_or, not_not] using hact
  | markDisputed b =>
    simp only [exec, markDisputed, Tx.post_code, wp_requireBinding, wp_emit, implies_true, true_and]
    rintro ⟨hid, -⟩ hst hres
    exact .markDisputed hid (not_not.mp hst) (not_not.mp hres)
  | buyerConfirm b =>
    simp only [exec, buyerConfirm, Tx.post_code, wp_requireBinding, wp_emit, implies_true, true_and]
    rintro ⟨hid, -⟩ hst hslash hact hconf
    exact .buyerConfirm hid (not_not.mp hst) (Bool.eq_false_of_not_eq_true hslash)
      (not_not.mp hact) (Bool.eq_false_of_not_eq_true hconf)
  | submitSettlement b proofHash =>
    simp only [exec, submitSettlement, openWindow, Tx.post_code, wp_requireBinding, wp_emit,
      implies_true, true_and]
    rintro ⟨hid, -⟩ hst hres htime _
    exact .submitSettlement hid (not_not.mp (mt not_live_iff.mp hst)) (not_not.mp hres)
      (not_lt.mp htime)
  | submitBreach b proofHash =>
    simp only [exec, submitBreach, openWindow, Tx.post_code, wp_requireBinding, wp_emit,
      implies_true, true_and]
    rintro ⟨hid, -⟩ hst hres htime _
    exact .submitBreach hid (not_not.mp (mt not_live_iff.mp hst)) (not_not.mp hres)
      (not_lt.mp htime)
  | finalizeSettlement b =>
    simp only [exec, finalizeSettlement, Tx.post_code, wp_requireBinding, wp_spendReserved,
      wp_unreserve, wp_pull, wp_emit, implies_true, true_and, and_true, World.setBinding_bills,
      World.unreserve_token, World.unreserve_owner, World.spendReserved_token,
      World.spendReserved_owner]
    rintro ⟨hid, -⟩ hst hslash htime _ _ _ _ T hpull hcustody
    refine .finalizeSettlement hid (not_not.mp hst) (Bool.eq_false_of_not_eq_true hslash) ?_
      hpull hcustody
    rcases not_and_or.mp htime with h | h
    · exact .inl (not_lt.mp h)
    · exact .inr (Bool.eq_true_of_not_eq_false h)
  | finalizeBreach b =>
    simp only [exec, finalizeBreach, Tx.post_code, wp_requireBinding, wp_spendReserved,
      wp_unreserve, wp_pull, wp_emit, implies_true, true_and, and_true, World.setBinding_bills,
      World.unreserve_token, World.unreserve_owner, World.spendReserved_token,
      World.spendReserved_owner]
    rintro ⟨hid, -⟩ hst hslash hres htime _ _ _ _ T hpull hcustody
    exact .finalizeBreach hid (not_not.mp hst) (Bool.eq_true_of_not_eq_false hslash)
      (not_not.mp hres) (not_lt.mp htime) hpull hcustody

variable {D : Deployment}

theorem step_call_eq_some {w w' : World} {sender : Address} {c : Call} :
    step D w (.call sender c) = some w' ↔
      sender ≠ D.self ∧ c.WordSized ∧ (exec D sender c w.fresh).result = .ok ((), w') := by
  simp only [step]
  split_ifs with hcall
  · simp only [false_iff]
    rintro ⟨hself, hword, -⟩
    exact hcall.elim hself fun h => h hword
  · obtain ⟨hself, hword⟩ := not_or.mp hcall
    rcases hr : (exec D sender c w.fresh).result with e | ⟨⟨⟩, v⟩
    · simp
    · simp [hself, not_not.mp hword]

variable {a : Act}

theorem effect_of_step {w w' : World} (h : step D w a = some w') : Effect D w a w' := by
  cases a with
  | tick time =>
    simp only [step] at h
    split_ifs at h with hle
    cases h
    exact .tick hle
  | call sender c =>
    obtain ⟨hself, hword, hr⟩ := step_call_eq_some.mp h
    exact Tx.wp_ok (wp_exec D w hself hword) hr
  | token sender token c =>
    simp only [step] at h
    split_ifs at h with hself
    obtain ⟨T, hrun, rfl⟩ := Option.map_eq_some_iff.mp h
    exact .token hself hrun

/-! ## What no transaction changes -/

structure Extends (w w' : World) : Prop where
  billCounter : w.billCounter ≤ w'.billCounter
  bindingCounter : w.bindingCounter ≤ w'.bindingCounter
  bill : ∀ i, i ≤ w.billCounter → (w'.bills i).terms = (w.bills i).terms
  binding : ∀ b, b ≤ w.bindingCounter → (w'.bindings b).terms = (w.bindings b).terms

theorem Extends.trans {w w' w'' : World} (h : Extends w w') (h' : Extends w' w'') :
    Extends w w'' where
  billCounter := Nat.le_trans h.billCounter h'.billCounter
  bindingCounter := Nat.le_trans h.bindingCounter h'.bindingCounter
  bill := fun i hi => (h'.bill i (Nat.le_trans hi h.billCounter)).trans (h.bill i hi)
  binding := fun b hb => (h'.binding b (Nat.le_trans hb h.bindingCounter)).trans (h.binding b hb)

theorem Effect.bill_apply {w w' : World} (h : Effect D w a w') (f : Bill → β)
    (hf : ∀ (bill : Bill) (state : BillState) (reserved spent : ℕ),
      f { bill with state, reserved, spent } = f bill) {i : ℕ} (hi : i ≤ w.billCounter)
    (hoperator : ∀ operator, a = .call (w.bills i).owner (.setOperator i operator) →
      f { w.bills i with operator } = f (w.bills i)) : f (w'.bills i) = f (w.bills i) := by
  -- both ways of giving back a reservation write only what `f` does not see
  have hun : ∀ (bill : Bill) n, f (bill.unreserve n) = f bill := fun bill n => hf bill _ _ _
  have hsp : ∀ (bill : Bill) n, f (bill.spendReserved n) = f bill := fun bill n => hf bill _ _ _
  cases h with
  | tick | token | setTokenAllowed | setDisputeWindow | setSettleDelay | setDisputeResolver
  | setFrozen | markDisputed | buyerConfirm | submitSettlement | submitBreach => rfl
  | commit => exact congrArg f (update_of_ne (by omega) ..)
  | @setOperator sender operator j _ howner =>
    -- the one transaction that writes another field of a recorded bill
    rcases eq_or_ne i j with rfl | hij
    · refine (congrArg f (update_self ..)).trans (hoperator operator ?_)
      rw [howner]
    · exact congrArg f (update_of_ne hij ..)
  | @revoke _ j =>
    exact (forall_update_iff w.bills fun k bill => f bill = f (w.bills k)).mpr
      ⟨hf _ _ _ _, fun _ _ => rfl⟩ i
  | bind =>
    exact forall_update_update (fun k bill => f bill = f (w.bills k)) (hf _ _ _ _)
      (hf _ _ _ _) (fun _ => rfl) i
  | cancelBinding => exact (World.unreserve_apply f hun ..).trans (World.unreserve_apply f hun ..)
  | finalizeSettlement =>
    exact (World.unreserve_apply f hun ..).trans (World.spendReserved_apply f hsp ..)
  | finalizeBreach =>
    exact (World.spendReserved_apply f hsp ..).trans (World.unreserve_apply f hun ..)

theorem Effect.extends {w w' : World} (h : Effect D w a w') : Extends w w' := by
  have hbill : ∀ i, i ≤ w.billCounter → (w'.bills i).terms = (w.bills i).terms := fun i hi =>
    h.bill_apply Bill.terms (fun _ _ _ _ => rfl) hi fun _ _ => rfl
  cases h with
  | tick | token | setTokenAllowed | setDisputeWindow | setSettleDelay | setDisputeResolver
  | setFrozen | setOperator | revoke => exact ⟨le_rfl, le_rfl, hbill, fun _ _ => rfl⟩
  | commit => exact ⟨Nat.le_succ _, le_rfl, hbill, fun _ _ => rfl⟩
  | bind =>
    refine ⟨le_rfl, Nat.le_succ _, hbill, fun b hb => ?_⟩
    exact congrArg Binding.terms (update_of_ne (by omega) ..)
  | cancelBinding | markDisputed | buyerConfirm | submitSettlement | submitBreach
  | finalizeSettlement | finalizeBreach =>
    exact ⟨le_rfl, le_rfl, hbill, fun b _ => terms_update_binding (by rfl) b⟩

end Karma.AllowanceEscrow
