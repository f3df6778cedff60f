import Karma.AllowanceEscrow.Reservation

/-!
# `KarmaAllowanceEscrow` — what was pulled on account of a bill

`pulledOn i h` is what the contract has pulled, in the transactions of `h`, on account of bill `i`.
-/

namespace Karma.AllowanceEscrow

open Evm Function

variable {D : Deployment} {w w' : World} {a : Act} {h : History}

/-! ## Booking a pull -/

/-- The bill on whose account a transaction pulls. -/
def payingBill (w : World) : Act → Option ℕ
  | .call _ (.finalizeSettlement b) => some (w.bindings b).buyerBillId
  | .call _ (.finalizeBreach b) => some (w.bindings b).sellerBillId
  | _ => none

def Entry.pulledOn (e : Entry World Act) (i : ℕ) : ℕ :=
  if payingBill e.pre e.act = some i then (e.post.pulls.map Pull.amount).sum else 0

def pulledOn (i : ℕ) (h : History) : ℕ := (h.map fun e => Entry.pulledOn e i).sum

theorem World.unreserve_spent (i n k : ℕ) : ((w.unreserve i n).bills k).spent = (w.bills k).spent :=
  World.unreserve_apply Bill.spent (fun _ _ => rfl) i n k

theorem World.spendReserved_spent (i n k : ℕ) :
    ((w.spendReserved i n).bills k).spent = (if i = k then n else 0) + (w.bills k).spent := by
  rcases eq_or_ne i k with rfl | hik
  · rw [if_pos rfl, Nat.add_comm]
    simp [World.spendReserved, Bill.spendReserved]
  · rw [if_neg hik, zero_add, World.spendReserved_bills_of_ne n hik]

theorem Effect.spent (hs : w.Sound) (he : Effect D w a w') (i : ℕ) :
    (w'.bills i).spent = Entry.pulledOn ⟨w, a, w'⟩ i + (w.bills i).spent := by
  -- a transaction that pulls on no account has to leave `spent` alone
  have hsame : payingBill w a = none → (w'.bills i).spent = (w.bills i).spent →
      (w'.bills i).spent = Entry.pulledOn ⟨w, a, w'⟩ i + (w.bills i).spent := by
    intro hnone heq
    simp [Entry.pulledOn, hnone, heq]
  cases he with
  | tick | token | setTokenAllowed | setDisputeWindow | setSettleDelay | setDisputeResolver
  | setFrozen | markDisputed | buyerConfirm | submitSettlement | submitBreach => exact hsame rfl rfl
  | commit =>
    refine hsame rfl ?_
    dsimp only
    rcases eq_or_ne i (w.billCounter + 1) with rfl | hi
    · rw [update_self, hs.blank_bill _ (by omega)]
    · rw [update_of_ne hi]
  | setOperator | revoke =>
    refine hsame rfl ?_
    exact (forall_update_iff w.bills fun k (bill : Bill) =>
      bill.spent = (w.bills k).spent).mpr ⟨by rfl, fun _ _ => rfl⟩ i
  | bind =>
    refine hsame rfl ?_
    exact forall_update_update (fun k (bill : Bill) => bill.spent = (w.bills k).spent) (by rfl)
      (by rfl) (fun _ => rfl) i
  | cancelBinding =>
    exact hsame rfl ((World.unreserve_spent _ _ i).trans (World.unreserve_spent _ _ i))
  | @finalizeSettlement _ b =>
    have hspent := (World.unreserve_spent (w := w.fresh.spendReserved
      (w.bindings b).buyerBillId (w.bindings b).amount) (w.bindings b).sellerBillId
      (w.bindings b).stakeAmount i).trans (World.spendReserved_spent _ _ i)
    refine hspent.trans ?_
    simp [Entry.pulledOn, payingBill, World.payment]
  | @finalizeBreach _ b =>
    have hspent := (World.spendReserved_spent (w := w.fresh.unreserve
      (w.bindings b).buyerBillId (w.bindings b).amount) (w.bindings b).sellerBillId
      (w.bindings b).stakeAmount i)
    refine hspent.trans ?_
    simp [Entry.pulledOn, payingBill, World.slashing, World.unreserve_spent]

theorem Reach.pulledOn_eq_spent (hr : Reach D h w) (i : ℕ) : pulledOn i h = (w.bills i).spent := by
  refine hr.invariant (P := fun h w => pulledOn i h = (w.bills i).spent) (fun w hw => ?_)
    fun h w a w' hr ih hstep => ?_
  · rw [hw.bills i]
    rfl
  · rw [(effect_of_step hstep).spent (Reach.sound hr) i, ← ih]
    rfl

theorem Effect.pulls_from_owner (hs : w.Sound) (he : Effect D w a w') {p : Pull}
    (hp : p ∈ w'.pulls) :
    ∃ i, payingBill w a = some i ∧ i ≤ w.billCounter ∧ p.source = (w.bills i).owner ∧
      p.token = (w.bills i).token := by
  cases he with
  | tick | token | setTokenAllowed | setDisputeWindow | setSettleDelay | setDisputeResolver
  | setFrozen | commit | setOperator | revoke | bind | cancelBinding | markDisputed | buyerConfirm
  | submitSettlement | submitBreach => exact absurd hp (List.not_mem_nil)
  | @finalizeSettlement _ b =>
    obtain rfl := List.mem_singleton.mp hp
    exact ⟨_, rfl, (hs.bounded b).1, rfl, rfl⟩
  | @finalizeBreach _ b =>
    obtain rfl := List.mem_singleton.mp hp
    exact ⟨_, rfl, (hs.bounded b).2, rfl, rfl⟩

theorem Reach.pulls_from_owner (hr : Reach D h w) :
    ∀ e ∈ h, ∀ p ∈ e.post.pulls, ∃ i, payingBill e.pre e.act = some i ∧ i ≤ w.billCounter ∧
      p.source = (w.bills i).owner ∧ p.token = (w.bills i).token := by
  refine hr.invariant (P := fun h w => ∀ e ∈ h, ∀ p ∈ e.post.pulls, ∃ i,
    payingBill e.pre e.act = some i ∧ i ≤ w.billCounter ∧ p.source = (w.bills i).owner ∧
      p.token = (w.bills i).token) (fun w _ e he => absurd he (List.not_mem_nil))
    fun h w a w' hr ih hstep => ?_
  have heff := effect_of_step hstep
  intro e he p hp
  obtain ⟨i, hi, hle, hsource, htoken⟩ : ∃ i, payingBill e.pre e.act = some i ∧
      i ≤ w.billCounter ∧ p.source = (w.bills i).owner ∧ p.token = (w.bills i).token := by
    rcases List.mem_cons.mp he with rfl | he
    · exact heff.pulls_from_owner (Reach.sound hr) hp
    · exact ih e he p hp
  -- owner and token of the bill are among its terms, which the last step has kept
  have hterms := heff.extends.bill i hle
  simp only [Bill.terms, Prod.mk.injEq] at hterms
  exact ⟨i, hi, hle.trans heff.extends.billCounter, by rw [hsource, hterms.1],
    by rw [htoken, hterms.2.1]⟩

theorem reservation_invariant (hr : Reach D h w) :
    (∀ b, (w.bindings b).state ≠ .none → 1 ≤ b ∧ b ≤ w.bindingCounter) ∧
    (∀ i, (w.bills i).reserved = reservedBy w.bindings w.bindingCounter i) ∧
    (∀ i, (w.bills i).reserved + (w.bills i).spent ≤ (w.bills i).amount) ∧
    (∀ i, (w.bills i).state = .closed → (w.bills i).reserved = 0) ∧
    (∀ b, (w.bindings b).state.Live → (w.bills (w.bindings b).buyerBillId).state = .opened ∧
      (w.bills (w.bindings b).sellerBillId).state = .opened) ∧
    (∀ e ∈ h, ∀ p ∈ e.post.pulls, ∃ i, payingBill e.pre e.act = some i ∧ i ≤ w.billCounter ∧
      p.source = (w.bills i).owner ∧ p.token = (w.bills i).token) ∧
    (∀ i, pulledOn i h = (w.bills i).spent ∧ pulledOn i h ≤ (w.bills i).amount) ∧
    (∀ sender c, (exec D sender c w.fresh).result ≠ .error .underflow) := by
  have hs := hr.sound
  refine ⟨fun b hb => hs.binding_range hb, hs.reserved, hs.room, hs.closed, hs.backed,
    hr.pulls_from_owner, fun i => ?_, fun sender c herr => ?_⟩
  · have hroom := hs.room i
    rw [hr.pulledOn_eq_spent i]
    exact ⟨rfl, by omega⟩
  · exact Tx.wp_error (wp_exec_ne_underflow hs D sender c) herr rfl

/-! ## A sample contract -/

namespace Sample

def deployment : Deployment := ⟨.ofNat 1, .ofNat 2⟩

def token : Address := .ofNat 9

def buyer : Address := .ofNat 3

def seller : Address := .ofNat 4

def start : World where
  disputeResolver := deployment.admin
  disputeWindowSeconds := 10
  settleDelaySeconds := 5
  frozen := false
  tokenAllowed := fun _ => false
  bills := fun _ => {}
  bindings := fun _ => {}
  ownerBills := fun _ => []
  billCounter := 0
  bindingCounter := 0
  tokens := fun _ =>
    { balanceOf := fun a => if a = deployment.self then 0 else 1000, allowance := fun _ _ => 0 }
  now := 100
  pulls := []
  events := []

theorem init_start : Init deployment start :=
  ⟨rfl, rfl, fun _ => rfl, fun _ => rfl, fun _ => rfl, fun _ => rfl, rfl, rfl⟩

def opening : List Act :=
  [.call deployment.admin (.setTokenAllowed token true),
    .token buyer token (.approve deployment.self 100),
    .token seller token (.approve deployment.self 50),
    .call buyer (.commit token 100 0),
    .call seller (.commit token 50 0),
    .call buyer (.bind 1 2 0#256 40 20)]

def settling : List Act :=
  opening ++ [.tick 105, .call deployment.admin (.submitSettlement 1 0#256), .tick 115,
    .call (.ofNat 7) (.finalizeSettlement 1)]

def history (as : List Act) : History := record (step deployment) as start []

def after (as : List Act) (w : World) : World := (steps (step deployment) as w).getD w

def world (as : List Act) : World := after as start

theorem steps_eq_after {as : List Act} {w : World} (has : (steps (step deployment) as w).isSome) :
    steps (step deployment) as w = some (after as w) := by
  obtain ⟨v, hv⟩ := Option.isSome_iff_exists.mp has
  rw [after, hv, Option.getD_some]

theorem reach (as : List Act) (has : (steps (step deployment) as start).isSome) :
    Reach deployment (history as) (world as) :=
  (Run.start init_start).steps (steps_eq_after has)

end Sample

open Sample

theorem reservation_invariant_sample : ((world settling).bindings 1).state = .settled ∧
      ((world settling).bills 1).spent = 40 ∧
      pulledOn 1 (history settling) = 40 ∧
      ((world settling).bills 1).reserved = reservedBy (world settling).bindings
          (world settling).bindingCounter 1 := by
  obtain ⟨-, hreserved, -, -, -, -, hpulled, -⟩ :=
    reservation_invariant (reach settling (by decide +kernel))
  have hspent : ((world settling).bills 1).spent = 40 := by decide +kernel
  exact ⟨by decide +kernel, hspent, (hpulled 1).1.trans hspent, hreserved 1⟩

end Karma.AllowanceEscrow
