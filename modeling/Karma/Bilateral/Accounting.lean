import Karma.Bilateral.System

/-! # `KarmaBilateral` — the ledger adds up, and the core can pay

Two invariants of every run. The four running totals are the sums that they stand for, and a bill is
bound exactly when one live binding names it (`ledger_invariant`). -/

namespace Karma.Bilateral

open Evm

variable {D : Deployment} {h : History} {w w' : World}

/-! ## The ledger -/

theorem Book.Paired.bound_iff {B : Book} (h : B.Paired) (i : ℕ) :
    (B.bill i).state = .bound ↔ ∃! b, (B.binding b).Live ∧ (B.binding b).Holds i := by
  constructor
  · intro hi
    obtain ⟨b, hlive, hholds⟩ := h.holder i hi
    exact ⟨b, ⟨hlive, hholds⟩, fun c hc => h.sole c b i hc.1 hlive hc.2 hholds⟩
  · rintro ⟨b, ⟨hlive, hholds⟩, -⟩
    exact h.held b i hlive hholds

theorem ledger_invariant (hr : Reach D h w) : (∀ i, w.decodeBill i = some (w.bill i)) ∧
    (∀ i, (w.bill i).owner ≠ 0 ↔ 1 ≤ i ∧ i ≤ w.billCounter) ∧
    (∀ b, (w.bindings b).createdAt ≠ 0 ↔ 1 ≤ b ∧ b ≤ w.bindingCounter) ∧
    (∀ t, w.totalLocked t = total w.billCounter
      (fun _ x => if x.token = t ∧ x.state ≠ .burned then x.amount else 0) w.bill) ∧
    (∀ a, w.freeBalance a = total w.billCounter
      (fun _ x => if x.owner = a ∧ x.state = .minted then x.amount else 0) w.bill) ∧
    (∀ a, w.boundBalance a = total w.billCounter
      (fun _ x => if x.owner = a ∧ x.state = .bound then x.amount else 0) w.bill) ∧
    (∀ t, w.pendingBatchAmount t = total w.bindingCounter
      (fun _ x => if x.Live ∧ (w.bill x.buyerBillId).token = t then
        (w.bill x.buyerBillId).amount + (w.bill x.agentBillId).amount else 0) w.bindings) ∧
    (∀ i, (w.bill i).state = .bound ↔ ∃! b, (w.bindings b).Live ∧ (w.bindings b).Holds i) ∧
    ∀ (env : Env) (sender : Address) (c : Call),
      (c.exec D env sender w.fresh).result ≠ .error .underflow ∧
        ∀ a free amount, (c.exec D env sender w.fresh).result ≠
          .error (.insufficientFreeBalance a free amount) := by
  have hs := hr.sound
  obtain ⟨hpaired, hsummed⟩ := hs.balanced
  refine ⟨hs.wf.decodeBill, hpaired.bill_iff, hpaired.binding_iff, hsummed.totalLocked,
    hsummed.freeBalance, hsummed.boundBalance, hsummed.pendingBatchAmount, hpaired.bound_iff,
    fun env sender c => ?_⟩
  have hclean := wp_exec hs.fresh env sender c
  exact ⟨fun he => Tx.wp_error hclean he trivial, fun a free amount he =>
    Tx.wp_error hclean he trivial⟩

namespace Sample

def deployment : Deployment where
  self := .ofNat 1
  admin := .ofNat 2
  registry := .ofNat 3
  intentHash := fun _ => 1#256
  self_ne_zero := by decide
  admin_ne_zero := by decide

def token : Address := .ofNat 20

def buyer : Address := .ofNat 10

def agent : Address := .ofNat 11

def start : World where
  tokens := fun _ =>
    { balanceOf := fun a => if a = deployment.self then 0 else 1000, allowance := fun _ _ => 0 }
  registry := {}
  now := 100
  entered := false
  moves := []
  calls := []
  events := []

theorem init_start : Init deployment start := ⟨rfl, rfl, rfl, by decide, rfl, fun _ _ => rfl⟩

def opening : List Act :=
  [.outside (.core deployment.admin (.setTokenAllowed token true)),
    .outside (.erc20 buyer token (.approve deployment.self 100)),
    .outside (.erc20 agent token (.approve deployment.self 50)),
    .call buyer {} (.lock token 100),
    .call agent {} (.lock token 50),
    .call buyer {} (.bind 1 2 0#256)]

def history (as : List Act) : History := record (step deployment) as start []

def world (as : List Act) : World := (steps (step deployment) as start).getD start

theorem reach (as : List Act) (has : (steps (step deployment) as start).isSome) :
    Reach deployment (history as) (world as) :=
  (Run.start init_start).stateAfter has

end Sample

open Sample

theorem ledger_invariant_sample : (world opening).totalLocked token = 150 ∧
      ((world opening).bill 2).state = .bound ∧
      ∃! b, ((world opening).bindings b).Live ∧ ((world opening).bindings b).Holds 2 := by
  have hbound : ((world opening).bill 2).state = .bound := by decide +kernel
  obtain ⟨-, -, -, -, -, -, -, hiff, -⟩ :=
    ledger_invariant (reach opening (by decide +kernel))
  exact ⟨by decide +kernel, hbound, (hiff 2).mp hbound⟩

/-! ## Solvency -/

theorem wp_unlock_of_minted {i : ℕ} (hs : Sound D w) (howner : (w.bill i).owner ≠ 0)
    (hminted : (w.bill i).state = .minted) :
    (unlock D (w.bill i).owner i).wp (fun _ => True) (fun _ => False) (fun _ _ => True) w := by
  have hfree := hs.balanced.amount_le_freeBalance howner hminted
  have hlocked := hs.balanced.amount_le_totalLocked howner
    (by rw [show (w.book.bill i).state = .minted from hminted]; simp)
  obtain ⟨st, hst⟩ := Option.isSome_iff_exists.mp (hs.wf.states i)
  obtain rfl : st = .minted := by simpa [World.bill, hst] using hminted
  -- the core holds at least what is locked of the token, and so the amount of the bill
  have hcover : (w.bill i).amount ≤ (w.tokens (w.bill i).token).balanceOf D.self := by
    have hback := hs.solvent (w.bill i).token
    unfold Erc20.Backs at hback
    exact (hlocked.trans (Nat.le_add_right _ _)).trans hback
  have htransfer := (Erc20.transfer_eq_some (T := w.tokens (w.bill i).token)).mpr
    ⟨D.self_ne_zero, howner, hcover, rfl⟩
  simp only [unlock, requireBill, requireBillState, burnBill, setBill, transfer, Tx.wp_code,
    wp_writeLedger, wp_emit]
  refine ⟨howner, fun _ => ⟨fun hne => hne rfl, fun _ => ⟨fun hnone => ?_, fun st' hst' =>
    ⟨fun hne => ?_, fun _ => ⟨fun hlt => absurd hfree (not_le.mpr hlt), fun _ => ⟨fun _ =>
      ⟨fun _ => ⟨fun hnone => ?_, fun _ _ => trivial⟩, fun hlt => absurd hlocked hlt⟩,
        fun hlt => absurd hfree hlt⟩⟩⟩⟩⟩⟩
  · rw [hst] at hnone
    cases hnone
  · rw [hst] at hst'
    exact hne (Option.some.inj hst').symm
  · exact absurd (htransfer.symm.trans hnone) (by simp)

/-- **Solvency.** In every reachable world, and in every world that foreign code gets to see during
a guarded call, the core holds of every token what its ledger says beyond everything it has
approved. -/
theorem solvency (hr : Reach D h w) :
    (∀ t, w.totalLocked t + (w.tokens t).granted D.self ≤ (w.tokens t).balanceOf D.self) ∧
    (∀ (env : Env) (sender : Address) (c : Call), ∀ v ∈ (c.exec D env sender w.fresh).seen, ∀ t,
      v.totalLocked t + (v.tokens t).granted D.self ≤ (v.tokens t).balanceOf D.self) ∧
    ∀ (env : Env) (i : ℕ), (w.bill i).owner ≠ 0 → (w.bill i).state = .minted →
      ∃ w', ((Call.unlock i).exec D env (w.bill i).owner w.fresh).result = .ok ((), w') ∧
        w'.moves = [.sent (w.bill i).token (w.bill i).owner (w.bill i).amount] := by
  have hs := hr.sound
  refine ⟨hs.solvent, fun env sender c v hv => (wp_exec hs.fresh env sender c).1 v hv,
    fun env i howner hminted => ?_⟩
  -- the call cannot fail; what it then does is its effect
  have hwp : ((Call.unlock i).exec D env (w.bill i).owner).wp (fun _ => True) (fun _ => False)
      (fun _ _ => True) w.fresh := by
    simp only [Call.exec, nonReentrant, Tx.wp_code]
    exact ⟨Bool.false_ne_true, fun _ => wp_unlock_of_minted (hs.fresh.flag true) howner hminted⟩
  obtain ⟨⟨⟩, w', hok, -⟩ := Tx.exists_ok_of_wp hwp
  refine ⟨w', hok, ?_⟩
  cases Tx.wp_ok (wp_exec hs.fresh env (w.bill i).owner (.unlock i)) hok with
  | unlock _ _ _ hd => exact hd.moves
  | bind hp => cases hp
  | revise hb | close hb => cases hb

namespace Sample

def bridge : Env where
  quoteFee := some 5
  collectAndRecord :=
    { acts := [.erc20 (.ofNat 30) token (.transferFrom deployment.self (.ofNat 31) 3)],
      answer := some () }

def charged : List Act :=
  opening ++ [.outside (.core deployment.admin (.setFeeBridge (.ofNat 30))),
    .outside (.erc20 agent token (.approve deployment.self 7)),
    .call agent {} (.lock token 7), .tick 1900, .call buyer {} (.settle 1 0#256), .tick 88300,
    .call (.ofNat 7) bridge (.finalizeSettle 1)]

end Sample

theorem solvency_sample : ((world charged).tokens token).allowance deployment.self (.ofNat 30) = 2 ∧
      ((world charged).tokens token).balanceOf deployment.self = 9 ∧
      ∃ w', ((Call.unlock 3).exec deployment {} ((world charged).bill 3).owner
        (world charged).fresh).result = .ok ((), w') := by
  obtain ⟨-, -, hunlock⟩ := solvency (reach charged (by decide +kernel))
  obtain ⟨w', hok, -⟩ := hunlock {} 3 (by decide +kernel) (by decide +kernel)
  exact ⟨by decide +kernel, by decide +kernel, w', hok⟩

end Karma.Bilateral
