import Karma.Bilateral.Accounting
import Karma.Bilateral.Shares
import Karma.EmergencyFreeze.Code

/-! # The freeze as the guard of the settlement core

`guarded` answers the core's question to its guard with the code of `EmergencyFreeze`. -/

namespace Karma.EmergencyFreeze

open Evm Bilateral

variable {D : Bilateral.Deployment} {G : Deployment} {h : History} {w w' : Bilateral.World}
  {g g' : Storage} {breaker breaker' : Breaker} {env : Env} {sender : Address} {b : ℕ}

def Storage.answer (g : Storage) (breaker : Breaker) (w : Bilateral.World) (b : ℕ) :
    Option (Bool × ℕ × ℕ) :=
  g.payoutBlocked breaker w.now b (w.bindings b).buyerBillId (w.bindings b).agentBillId
    (w.buyerOf b) (w.agentOf b)

/-- The contracts around the core in a call `c`, if this is the guard that the core asks. -/
def guarded (G : Deployment) (g : Storage) (breaker : Breaker) (w : Bilateral.World)
    (c : Bilateral.Call) (env : Env) : Env :=
  if w.emergencyGuard = G.self then
    { env with payoutBlocked := g.answer breaker w (c.binding.getD 0) }
  else env

def Storage.Blocks (g : Storage) (breaker : Breaker) (w : Bilateral.World) (b : ℕ) : Prop :=
  ∃ scope time, g.answer breaker w b = some (true, scope, time)

inductive About (G : Deployment) (g : Storage) (breaker : Breaker) (w : Bilateral.World) (b : ℕ) :
    Bilateral.Act → Prop
  | call {sender : Address} {env : Env} {c : Bilateral.Call} :
      c.binding = some b → About G g breaker w b (.call sender (guarded G g breaker w c env) c)
  | outside {o : Outside} : About G g breaker w b (.outside o)

def Returns (l : Ledger) : Bilateral.Call → Prop
  | .refundOnTimeout _ | .unlock _ => True
  | .resolveDispute _ buyerShareBps => buyerShareBps = 10000
  | .autoResolveArbitration b => (l.arbitrations b).agentSubmittedAt = 0
  | _ => False

/-! ## While payouts are blocked -/

/-- **What a step pays while payouts are blocked**. -/
structure Spares (w : Bilateral.World) (b : ℕ) (ms : List Move) : Prop where
  agent : sentTo (w.book.poolToken (w.bindings b)) (w.bill (w.bindings b).agentBillId).owner ms ≤
    (w.bill (w.bindings b).agentBillId).amount
  buyer : ms ≠ [] → (w.bill (w.bindings b).buyerBillId).amount ≤
    sentTo (w.book.poolToken (w.bindings b)) (w.bill (w.bindings b).buyerBillId).owner ms

theorem Spares.nothing (w : Bilateral.World) (b : ℕ) : Spares w b [] :=
  ⟨Nat.zero_le _, fun h => absurd rfl h⟩

theorem not_unfrozen {c : Bilateral.Call} (hguard : w.emergencyGuard = G.self)
    (hblocks : g.Blocks breaker w b) (hb : b ≠ 0) (hc : c.binding = some b) :
    ¬ Unfrozen (guarded G g breaker w c env) w b := by
  obtain ⟨scope, time, hanswer⟩ := hblocks
  rintro (hzero | hzero | ⟨scope', time', hfree⟩)
  · exact G.self_ne_zero (hguard.symm.trans hzero)
  · exact hb hzero
  · rw [guarded, if_pos hguard, hc] at hfree
    cases hanswer.symm.trans hfree

theorem spares_of_makes {p : Payoff} {ms : List Move}
    (hm : w.book.Matched (w.bindings b)) (hp : ¬ p.Checked)
    (hmakes : p.Makes w.book (w.bindings b) ms) : Spares w b ms := by
  cases p with
  | settle => exact absurd trivial hp
  | refund =>
    obtain ⟨hbuyer, hagent⟩ := hmakes.refund_shares hm
    exact ⟨hagent.le, fun _ => hbuyer.ge⟩
  | split bps =>
    -- the buyer's share is at least everything
    obtain ⟨hbuyer, hagent⟩ := hmakes.split_shares hm
    have hall : 10000 ≤ bps := not_lt.mp hp
    have hpool : w.book.pool (w.bindings b) ≤ w.book.pool (w.bindings b) * bps / 10000 := by
      rw [Nat.le_div_iff_mul_le (by decide)]
      exact Nat.mul_le_mul_left _ hall
    have hsum : w.book.pool (w.bindings b) = (w.bill (w.bindings b).buyerBillId).amount +
        (w.bill (w.bindings b).agentBillId).amount := rfl
    constructor
    · rw [show (w.bill (w.bindings b).agentBillId).owner =
        (w.book.bill (w.bindings b).agentBillId).owner from rfl, hagent]
      omega
    · intro _
      rw [show (w.bill (w.bindings b).buyerBillId).owner =
        (w.book.bill (w.bindings b).buyerBillId).owner from rfl, hbuyer]
      omega

theorem spares_of_step {a : Bilateral.Act} (hr : Bilateral.Reach D h w)
    (hguard : w.emergencyGuard = G.self) (hblocks : g.Blocks breaker w b)
    (ha : About G g breaker w b a) (hstep : Bilateral.step D w a = some w') :
    Spares w b w'.moves := by
  cases ha with
  | outside =>
    have hmoves : w'.moves = [] := (foreign_of_attempt hstep).moves
    rw [hmoves]
    exact .nothing w b
  | @call sender env c hc =>
    have hcreated := created_of_step hstep hc
    have hzero : b ≠ 0 := by
      have := (hr.sound.balanced.paired.binding_iff b).mp hcreated
      omega
    have hdisposes := disposes_of_step hstep hc
    rw [Disposes] at hdisposes
    split at hdisposes
    case h_1 =>
      rw [show w'.moves = [] from hdisposes]
      exact .nothing w b
    case h_2 p _ =>
      obtain ⟨ms, hunfrozen, hmakes, hmoves, -⟩ := hdisposes.moves
      rw [show w'.moves = ms from hmoves]
      refine spares_of_makes (hr.sound.balanced.paired.matched b hcreated) (fun hp => ?_) hmakes
      exact not_unfrozen hguard hblocks hzero hc (hunfrozen hp)

/-! ## Whatever is frozen -/

theorem executeSplit_unasked (env : Env) (x y : Option (Bool × ℕ × ℕ)) (b i j : ℕ) :
    executeSplit D { env with payoutBlocked := x } b i j 10000 =
      executeSplit D { env with payoutBlocked := y } b i j 10000 := by
  simp only [executeSplit, lt_irrefl, if_false]
  rfl

theorem executeRefund_unasked (env : Env) (x y : Option (Bool × ℕ × ℕ)) (b i j : ℕ) :
    executeRefund D { env with payoutBlocked := x } b i j =
      executeRefund D { env with payoutBlocked := y } b i j := rfl

theorem body_isSome_iff {c : Bilateral.Call} {x y : Option (Bool × ℕ × ℕ)}
    (hc : Returns w.toLedger c) :
    (c.body D { env with payoutBlocked := x } sender).wp (fun _ => True) (fun _ => False)
        (fun _ _ => True) w ↔
      (c.body D { env with payoutBlocked := y } sender).wp (fun _ => True) (fun _ => False)
        (fun _ _ => True) w := by
  have hsplit := executeSplit_unasked (D := D) env x y
  have hrefund := executeRefund_unasked (D := D) env x y
  cases c with
  | lock | lockFor | bind | bindWithAttestation | bindWithIntent | settle | finalizeSettle | dispute
  | submitArbitrationEvidence | settleWithTEE | settleWithZKProof => exact hc.elim
  | refundOnTimeout => simp only [Bilateral.Call.body, refundOnTimeout, hrefund]
  | unlock => simp only [Bilateral.Call.body]
  | resolveDispute b bps =>
    obtain rfl : bps = 10000 := hc
    simp only [Bilateral.Call.body, resolveDispute, hsplit]
  | autoResolveArbitration b =>
    have hsilent : (w.arbitrations b).agentSubmittedAt = 0 := hc
    -- the branches that would ask are closed, whether or not the buyer has submitted evidence
    by_cases hbuyer : (w.arbitrations b).buyerSubmittedAt = 0
    · simp only [Bilateral.Call.body, autoResolveArbitration, requireBinding, Tx.wp_bind,
        Tx.wp_get, Tx.wp_pure, Tx.wp_checkedAdd, hsplit, hrefund, Tx.wp_revertIf, hsilent, hbuyer,
        ne_eq, not_true_eq_false, and_true, and_self, if_true, if_false]
    · simp only [Bilateral.Call.body, autoResolveArbitration, requireBinding, Tx.wp_bind,
        Tx.wp_get, Tx.wp_pure, Tx.wp_checkedAdd, hsplit, hrefund, Tx.wp_revertIf,
        hsilent, hbuyer, ne_eq, not_true_eq_false, not_false_eq_true, and_true,
        and_self, if_true, if_false]

theorem step_isSome_congr {c : Bilateral.Call} (hc : Returns w.toLedger c) :
    (Bilateral.step D w (.call sender (guarded G g breaker w c env) c)).isSome ↔
      (Bilateral.step D w (.call sender (guarded G g' breaker' w c env) c)).isSome := by
  rw [step_isSome_iff, step_isSome_iff, guarded, guarded]
  by_cases hguard : w.emergencyGuard = G.self
  · rw [if_pos hguard, if_pos hguard]
    exact and_congr_right fun _ => body_isSome_iff hc
  · rw [if_neg hguard, if_neg hguard]

/-- **A freeze only ever stops money on its way to the agent.** -/
theorem freeze_spares_the_buyer (hr : Bilateral.Reach D h w) (hguard : w.emergencyGuard = G.self)
    (hblocks : g.Blocks breaker w b) :
    (∀ a w', About G g breaker w b a → Bilateral.step D w a = some w' → Spares w b w'.moves) ∧
      ∀ (v : Bilateral.World) (g g' : Storage) (breaker breaker' : Breaker) (sender : Address)
        (env : Env) (c : Bilateral.Call), Returns v.toLedger c →
        ((Bilateral.step D v (.call sender (guarded G g breaker v c env) c)).isSome ↔
          (Bilateral.step D v (.call sender (guarded G g' breaker' v c env) c)).isSome) := by
  constructor
  · intro a w' ha hstep
    exact spares_of_step hr hguard hblocks ha hstep
  · intro v g g' breaker breaker' sender env c hc
    exact step_isSome_congr hc

namespace Sample

def deployment : Deployment where
  self := .ofNat 50
  admin := .ofNat 51
  self_ne_zero := by decide
  admin_ne_zero := by decide

def frozen : Storage := { freezeOperator := .ofNat 51, globalFreezeUntil := 10 ^ 10 }

def guarding : List Bilateral.Act :=
  Bilateral.Sample.opening ++
    [.outside (.core Bilateral.Sample.deployment.admin (.setEmergencyGuard deployment.self)),
      .tick (10 ^ 9)]

end Sample

open Sample

theorem freeze_spares_the_buyer_sample : frozen.Blocks {} (Bilateral.Sample.world guarding) 1 ∧
      ∃ w', Bilateral.step Bilateral.Sample.deployment (Bilateral.Sample.world guarding)
          (.call Bilateral.Sample.buyer (guarded deployment frozen {}
            (Bilateral.Sample.world guarding) (.refundOnTimeout 1) {})
            (.refundOnTimeout 1)) = some w' ∧
        Spares (Bilateral.Sample.world guarding) 1 w'.moves := by
  have hblocks : frozen.Blocks {} (Bilateral.Sample.world guarding) 1 :=
    ⟨1, 10 ^ 10, by decide +kernel⟩
  have hsome : (Bilateral.step Bilateral.Sample.deployment (Bilateral.Sample.world guarding)
      (.call Bilateral.Sample.buyer (guarded deployment frozen {}
        (Bilateral.Sample.world guarding) (.refundOnTimeout 1) {})
        (.refundOnTimeout 1))).isSome := by decide +kernel
  obtain ⟨w', hstep⟩ := Option.isSome_iff_exists.mp hsome
  obtain ⟨hspares, -⟩ := freeze_spares_the_buyer (G := deployment)
    (Bilateral.Sample.reach guarding (by decide +kernel)) (by decide +kernel) hblocks
  exact ⟨hblocks, w', hstep, hspares _ w' (.call rfl) hstep⟩

end Karma.EmergencyFreeze
