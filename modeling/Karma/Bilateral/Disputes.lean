import Karma.Bilateral.Shares
import Karma.Bilateral.Payments

/-! # `KarmaBilateral` — how disputes end

A dispute is raised by the buyer, together with evidence (`Reach.arbitrated`). -/

namespace Karma.Bilateral

open Evm

variable {D : Deployment} {h : History} {w w' : World} {a : Act} {env : Env} {sender : Address}
  {b : ℕ}

/-- **The arbitration of a disputed binding runs**, on the evidence of the buyer. -/
structure Arbitrated (arb : ArbitrationRecord) : Prop where
  started : arb.startedAt ≠ 0
  unresolved : arb.resolved = false
  buyer : arb.buyerSubmittedAt ≠ 0

def Docket.Arbitrated (d : Docket) : Prop :=
  ∀ b, (d.bindings b).state = .disputed → Bilateral.Arbitrated (d.arbitrations b)

theorem Files.arbitrated {s : Scene} {c : Call} {d : Docket} {n : Notices}
    (hf : Files D s sender c d n) (hnow : s.now ≠ 0) (hd : s.docket.Arbitrated) :
    d.Arbitrated := by
  intro b
  have hold : (s.bindings b).state = .disputed → Bilateral.Arbitrated (s.arbitrations b) := hd b
  have hfiled := hf.refiled b
  generalize d.bindings b = x, d.arbitrations b = arb at hfiled ⊢
  cases hfiled with
  | same => exact hold
  | made hst | paid hst | resolved hst =>
    -- none of these states is the disputed one
    intro hdisputed
    rcases hst with rfl | rfl <;> cases hdisputed
  | submitted => exact nofun
  | disputed => exact fun _ => ⟨hnow, rfl, hnow⟩
  | testified htest =>
    intro hdisputed
    have harb := hold hdisputed
    cases htest with
    | buyer => exact ⟨harb.started, harb.unresolved, hnow⟩
    | agent => exact ⟨harb.started, harb.unresolved, harb.buyer⟩

theorem Reach.arbitrated (hr : Reach D h w) : w.docket.Arbitrated := by
  apply Run.invariant (P := fun _ w => w.docket.Arbitrated) _ _ hr
  · intro w hinit b hdisputed
    have hbinding : w.docket.bindings b = {} := by rw [Ledger.docket, hinit.ledger]
    rw [hbinding] at hdisputed
    cases hdisputed
  · intro h w a w' hr ih hstep
    cases records_of_step hstep with
    | tick => exact ih
    | outside _ hidle =>
      rw [hidle.docket]
      exact ih
    | call _ _ hf hlogs =>
      rw [hlogs.docket]
      exact hf.arbitrated (Reach.sound hr).now.ne' ih

/-! ## The two ways out -/

structure SplitAt (D : Deployment) (env : Env) (w : World) (b bps : ℕ) (w' : World) : Prop where
  executes : Executes D env w b (.split bps) w'
  settled : (w'.bindings b).state = .settled
  buyer : sentTo (w.book.poolToken (w.bindings b)) (w.bill (w.bindings b).buyerBillId).owner
    w'.moves = w.book.pool (w.bindings b) * bps / 10000
  agent : sentTo (w.book.poolToken (w.bindings b)) (w.bill (w.bindings b).agentBillId).owner
    w'.moves = w.book.pool (w.bindings b) - w.book.pool (w.bindings b) * bps / 10000

theorem Executes.splitAt {bps : ℕ} (hs : Sound D w) (hcreated : (w.bindings b).createdAt ≠ 0)
    (hmoves : w.moves = []) (h : Executes D env w b (.split bps) w') :
    SplitAt D env w b bps w' := by
  obtain ⟨ms, -, hmakes, hms, hclosed⟩ := h.moves
  rw [hmoves, List.nil_append] at hms
  obtain ⟨hbuyer, hagent⟩ := hmakes.split_shares (hs.balanced.paired.matched b hcreated)
  rw [← hms] at hbuyer hagent
  exact ⟨h, congrArg Binding.state hclosed, hbuyer, hagent⟩

/-- **Disputes end in splits.** In every reachable world the arbitration of every disputed binding
has started, is not resolved, and has the buyer's evidence on record. -/
theorem disputes_are_split (hr : Reach D h w) (hdisputed : (w.bindings b).state = .disputed) :
    Arbitrated (w.arbitrations b) ∧
      (∀ sender env w', step D w (.call sender env (.autoResolveArbitration b)) = some w' →
        (w.arbitrations b).agentSubmittedAt = 0 ∧
            SplitAt D env { w.fresh with entered := true } b 10000 w' ∧
            sentTo (w.book.poolToken (w.bindings b)) (w.bill (w.bindings b).buyerBillId).owner
              w'.moves = w.book.pool (w.bindings b) ∨
          (w.arbitrations b).agentSubmittedAt ≠ 0 ∧
            SplitAt D env { w.fresh with entered := true } b 5000 w' ∧
            sentTo (w.book.poolToken (w.bindings b)) (w.bill (w.bindings b).buyerBillId).owner
              w'.moves = w.book.pool (w.bindings b) / 2) ∧
      ∀ sender env bps w', step D w (.call sender env (.resolveDispute b bps)) = some w' →
        SplitAt D env { w.fresh with entered := true } b bps w' ∧
          ((w.arbitrations b).agentSubmittedAt = 0 → bps = 10000) ∧
          ((w.arbitrations b).agentSubmittedAt ≠ 0 →
            minAdminSplitBps ≤ bps ∧ bps ≤ maxAdminSplitBps) := by
  have harb : Arbitrated (w.arbitrations b) := hr.arbitrated b hdisputed
  have hs : Sound D { w.fresh with entered := true } := hr.sound.fresh.flag true
  refine ⟨harb, ?_, ?_⟩
  · intro sender env w' hstep
    have hruns : Executes D env { w.fresh with entered := true } b
        ((w.arbitrations b).payoff (w.bindings b).proofHash) w' := disposes_of_step hstep rfl
    by_cases hagent : (w.arbitrations b).agentSubmittedAt = 0
    · have hpayoff : (w.arbitrations b).payoff (w.bindings b).proofHash = .split 10000 := by
        simp [ArbitrationRecord.payoff, harb.buyer, hagent]
      rw [hpayoff] at hruns
      have hsplit := hruns.splitAt hs (created_of_step hstep rfl) rfl
      refine .inl ⟨hagent, hsplit, hsplit.buyer.trans ?_⟩
      exact Nat.mul_div_cancel _ (by decide)
    · have hpayoff : (w.arbitrations b).payoff (w.bindings b).proofHash = .split 5000 := by
        simp [ArbitrationRecord.payoff, harb.buyer, hagent]
      rw [hpayoff] at hruns
      have hsplit := hruns.splitAt hs (created_of_step hstep rfl) rfl
      refine .inr ⟨hagent, hsplit, hsplit.buyer.trans ?_⟩
      show w.book.pool (w.bindings b) * 5000 / 10000 = _
      omega
  · intro sender env bps w' hstep
    have hruns : Executes D env { w.fresh with entered := true } b (.split bps) w' :=
      disposes_of_step hstep rfl
    have hallows : (w.arbitrations b).Allows bps := of_step (P := fun _ => _) hstep
      (post_resolveDispute fun _ _ hallows _ => hallows)
    have hsplit := hruns.splitAt hs (created_of_step hstep rfl) rfl
    exact ⟨hsplit, hallows.silent, hallows.both harb.buyer⟩

namespace Sample

def disputing : List Act :=
  opening ++ [.tick 1900, .call buyer {} (.settle 1 0#256), .call buyer {} (.dispute 1 0#256),
    .tick 1000000]

end Sample

open Sample

theorem disputes_are_split_sample : ((world disputing).bindings 1).state = .disputed ∧
      (world disputing).book.pool ((world disputing).bindings 1) = 150 ∧
      ∃ w', step deployment (world disputing)
          (.call (.ofNat 7) {} (.autoResolveArbitration 1)) = some w' ∧
        sentTo ((world disputing).book.poolToken ((world disputing).bindings 1))
          ((world disputing).bill
            ((world disputing).bindings 1).buyerBillId).owner w'.moves = 150 := by
  have hdisputed : ((world disputing).bindings 1).state = .disputed := by
    decide +kernel
  have hpool : (world disputing).book.pool ((world disputing).bindings 1) = 150 := by decide +kernel
  have hsilent : ((world disputing).arbitrations 1).agentSubmittedAt = 0 := by
    decide +kernel
  have hsome : (step deployment (world disputing)
      (.call (.ofNat 7) {} (.autoResolveArbitration 1))).isSome := by decide +kernel
  obtain ⟨w', hstep⟩ := Option.isSome_iff_exists.mp hsome
  obtain ⟨-, hauto, -⟩ :=
    disputes_are_split (reach disputing (by decide +kernel)) hdisputed
  refine ⟨hdisputed, hpool, w', hstep, ?_⟩
  rcases hauto _ _ _ hstep with ⟨-, -, hbuyer⟩ | ⟨hanswered, -, -⟩
  · exact hbuyer.trans hpool
  · exact absurd hsilent hanswered

end Karma.Bilateral
