import Karma.Bilateral.Docket

/-! # `KarmaBilateral` — the three payouts

`Call.payoff` says which of the three payouts a call about a binding leads to; for
`autoResolveArbitration` the evidence on record decides. -/

namespace Karma.Bilateral

open Evm

variable {D : Deployment} {env : Env} {os : List Outside} {u v w : World} {b : ℕ} {d : Docket}
  {ms ms' : List Move} {Q : Unit → World → Prop}

/-! ## The three payouts -/

inductive Payoff
  | settle (proofHash : Bytes32)
  | refund
  | split (buyerShareBps : ℕ)
  deriving DecidableEq

def Payoff.code (D : Deployment) (env : Env) (b : ℕ) (x : Binding) : Payoff → M Unit
  | .settle proofHash => executeSettle D env b x.buyerBillId x.agentBillId proofHash
  | .refund => executeRefund D env b x.buyerBillId x.agentBillId
  | .split buyerShareBps => executeSplit D env b x.buyerBillId x.agentBillId buyerShareBps

/-- The payouts before which the guard is asked. -/
def Payoff.Checked : Payoff → Prop
  | .settle _ => True
  | .refund => False
  | .split buyerShareBps => buyerShareBps < 10000

def Payoff.Makes (B : Book) (x : Binding) (ms : List Move) : Payoff → Prop
  | .settle _ => ∃ fee ms₁ ms₂, Levies (B.poolToken x) fee ms₁ ∧
      Pays (B.poolToken x) (B.bill x.agentBillId).owner (B.pool x - fee) ms₂ ∧ ms = ms₁ ++ ms₂
  | .refund => ms =
      [.sent (B.poolToken x) (B.bill x.buyerBillId).owner (B.bill x.buyerBillId).amount,
        .sent (B.poolToken x) (B.bill x.agentBillId).owner (B.bill x.agentBillId).amount]
  | .split bps => ∃ ms₁ ms₂,
      Pays (B.poolToken x) (B.bill x.buyerBillId).owner (B.pool x * bps / 10000) ms₁ ∧
      Pays (B.poolToken x) (B.bill x.agentBillId).owner (B.pool x - B.pool x * bps / 10000) ms₂ ∧
      ms = ms₁ ++ ms₂

def Unfrozen (env : Env) (w : World) (b : ℕ) : Prop :=
  w.emergencyGuard = 0 ∨ b = 0 ∨ ∃ scope time, env.payoutBlocked = some (false, scope, time)

def Payoff.closes (x : Binding) : Payoff → Binding
  | .settle proofHash => { x with state := .settled, proofHash }
  | .refund => { x with state := .refunded }
  | .split _ => { x with state := .settled }

/-! ## Stretches of a payout -/

/-- A stretch of a transaction that leaves the docket `d`, and makes the token calls `ms`. -/
structure Outlay (D : Deployment) (os : List Outside) (w v : World) (d : Docket)
    (ms : List Move) : Prop where
  logs : Logs D os w v d {}
  moves : v.moves = w.moves ++ ms

theorem Outlay.refl (w : World) : Outlay D os w w w.docket [] :=
  ⟨Idle.refl w, (List.append_nil _).symm⟩

theorem Outlay.trans (h : Outlay D os w v d ms) (h' : Outlay D os v u v.docket ms') :
    Outlay D os w u d (ms ++ ms') :=
  ⟨h.logs.idle h'.logs, by rw [h'.moves, h.moves, List.append_assoc]⟩

theorem Outlay.idle (h : Outlay D os w v d ms) (h' : Outlay D os v u v.docket []) :
    Outlay D os w u d ms := by
  simpa only [List.append_nil] using h.trans h'

theorem Outlay.event {e : Event} (h : Outlay D os w v d ms) (he : e.deadline = none) :
    Outlay D os w { v with events := v.events ++ [e] } d ms :=
  ⟨h.logs.idle (.event he), h.moves⟩

theorem mem_payoutActs_collect {o : Outside} (ho : o ∈ env.collectAndRecord.acts) :
    o ∈ env.payoutActs :=
  List.mem_append_left _ ho

theorem mem_payoutActs_record {r : Reply Unit} (hr : env.record = some r) {o : Outside}
    (ho : o ∈ r.acts) : o ∈ env.payoutActs := by
  simp [Env.payoutActs, hr, ho]

theorem post_transfer (os : List Outside) {t a : Address} {n : ℕ}
    (hQ : ∀ v, Outlay D os w v w.docket [.sent t a n] → Q () v) :
    (transfer D t a n).post Q w := by
  simp only [transfer, Tx.post_code]
  exact fun T hT => hQ _ ⟨Idle.token (c := .transfer a n) hT, rfl⟩

theorem post_transferNonzero (os : List Outside) {t a : Address} {n : ℕ}
    (hQ : ∀ ms v, Pays t a n ms → Outlay D os w v w.docket ms → Q () v) :
    (transferNonzero D t a n).post Q w := by
  simp only [transferNonzero, Tx.wp_code]
  refine ⟨fun _ => post_transfer os fun v hv => hQ _ v (.inl rfl) hv, fun hzero => ?_⟩
  obtain rfl : n = 0 := by omega
  exact hQ [] w (.nothing t a) (.refl w)

theorem post_requirePayoutNotFrozen (hQ : Unfrozen env w b → Q () w) :
    (requirePayoutNotFrozen env b).post Q w := by
  simp only [requirePayoutNotFrozen, Tx.post_code]
  refine ⟨fun hnone => hQ ?_, fun _ r hr hblocked => hQ (.inr (.inr ⟨r.2.1, r.2.2, ?_⟩))⟩
  · rcases hnone with hguard | hzero
    · exact .inl hguard
    · exact .inr (.inl hzero)
  · have hfalse : r.1 = false := Bool.eq_false_iff.mpr hblocked
    rw [hr, ← hfalse]

theorem post_callOut_outlay {α : Type} {Q : Option α → World → Prop} {c : OutCall} {r : Reply α}
    (hc : c.registration = none) (hr : ∀ o ∈ r.acts, o ∈ os)
    (hQ : ∀ v, Outlay D os w v w.docket [] → Q r.answer v) : (callOut D c r).post Q w := by
  refine post_callOut c r hr fun v hv hmoves => hQ v ⟨?_, by rw [hmoves, List.append_nil]⟩
  rwa [hc] at hv

theorem post_tryRecord {c : OutCall} (hc : c.registration = none)
    (hQ : ∀ v, Outlay D env.payoutActs w v w.docket [] → Q () v) :
    (tryRecord D env c).post Q w := by
  simp only [tryRecord, Tx.post_code]
  exact ⟨fun _ => hQ _ (.refl w), fun _ r hr =>
    post_callOut_outlay hc (fun o ho => mem_payoutActs_record hr ho) hQ⟩

theorem post_approveAndCollect {t bridge : Address} {fee : ℕ} {c : OutCall}
    (hc : c.registration = none)
    (hQ : ∀ v, Outlay D env.payoutActs w v w.docket [.granted t bridge fee] → Q () v) :
    (approveAndCollect D env t bridge fee c).post Q w := by
  simp only [approveAndCollect, Tx.post_code]
  refine fun T hT => post_callOut_outlay hc (fun _ => mem_payoutActs_collect) fun v hv _ => ?_
  have hgrant : Outlay D env.payoutActs w { w with
      tokens := Function.update w.tokens t T
      moves := w.moves ++ [.granted t bridge fee] } w.docket [.granted t bridge fee] :=
    ⟨Idle.token (c := .approve bridge fee) hT, rfl⟩
  exact hQ v (hgrant.idle hv)

theorem post_collectEconomyFee {amount : ℕ} {t buyer seller developer : Address}
    {Q : ℕ → World → Prop}
    (hQ : ∀ fee ms v, Levies t fee ms → Outlay D env.payoutActs w v w.docket ms → Q fee v) :
    (collectEconomyFee D env b t buyer seller developer amount).post Q w := by
  simp only [collectEconomyFee, Tx.post_code, wp_emit]
  have hnone : ∀ v, Outlay D env.payoutActs w v w.docket [] → Q 0 v := fun v =>
    hQ 0 [] v (.nothing t)
  refine ⟨fun _ => hnone w (.refl w), fun _ => ⟨fun _ => ?_, fun _ _ => ⟨fun _ => ?_, fun _ => ?_⟩⟩⟩
  · exact post_callOut_outlay rfl (fun _ => mem_payoutActs_collect) hnone
  · exact post_approveAndCollect rfl fun v hv =>
      hQ _ _ v (.inl ⟨_, rfl⟩) (((Outlay.refl w).event rfl).trans hv)
  · exact post_approveAndCollect rfl fun v hv => hQ _ _ v (.inl ⟨_, rfl⟩) hv

theorem post_close (D : Deployment) (os : List Outside) {reason : String} {f : Binding → Binding}
    {x : Binding} {Q : ℕ → World → Prop}
    (hQ : ∀ v, Outlay D os w v (w.docket.revise b (f (w.bindings b))) [] → Q (w.book.pool x) v) :
    (updateBinding b f).post
      (fun _ v => (releasePair x.buyerBillId x.agentBillId reason).post Q v) w := by
  simp only [updateBinding, releasePair, decrementBound, burnBill, setBill, decrementPending,
    Tx.post_code, wp_writeLedger, wp_emit]
  refine fun _ _ _ _ _ _ => hQ _ ⟨⟨rfl, rfl, (List.append_nil _).symm, ?_, .refl, fun _ => rfl⟩,
    (List.append_nil _).symm⟩
  simp [World.notices, Event.deadline]

theorem post_code (p : Payoff) (x : Binding)
    (hQ : ∀ v ms, (p.Checked → Unfrozen env w b) → p.Makes w.book x ms →
      Outlay D env.payoutActs w v (w.docket.revise b (p.closes (w.bindings b))) ms → Q () v) :
    (p.code D env b x).post Q w := by
  cases p with
  | settle proofHash =>
    simp only [Payoff.code, executeSettle, tryRecordSettlement, Tx.wp_bind, Tx.wp_get, wp_emit]
    refine post_requirePayoutNotFrozen fun hunfrozen => post_close D env.payoutActs fun v₁ h₁ => ?_
    refine post_collectEconomyFee fun fee ms₁ v₂ hfee h₂ => ?_
    have hpayout : (if fee < w.book.pool x then w.book.pool x - fee else 0) =
        w.book.pool x - fee := by
      split_ifs <;> omega
    rw [hpayout]
    refine post_transferNonzero env.payoutActs fun ms₂ v₃ hagent h₃ => ?_
    refine post_tryRecord rfl fun v₄ h₄ => ?_
    refine hQ v₄ (ms₁ ++ ms₂) (fun _ => hunfrozen) ⟨fee, ms₁, ms₂, hfee, hagent, rfl⟩ ?_
    have hpaid := (h₁.trans h₂).trans h₃
    exact ((hpaid.event rfl).event rfl).idle h₄
  | refund =>
    simp only [Payoff.code, executeRefund, tryRecordDispute, Tx.wp_bind, Tx.wp_get]
    refine post_close D env.payoutActs fun v₁ h₁ => post_transfer env.payoutActs fun v₂ h₂ => ?_
    refine post_transfer env.payoutActs fun v₃ h₃ => post_tryRecord rfl fun v₄ h₄ => ?_
    exact hQ v₄ _ False.elim rfl (((h₁.trans h₂).trans h₃).idle h₄)
  | split bps =>
    have hcheck : ∀ {Q' : Unit → World → Prop}, ((bps < 10000 → Unfrozen env w b) → Q' () w) →
        (if bps < 10000 then requirePayoutNotFrozen env b else pure ()).post Q' w := by
      intro Q' hQ'
      simp only [Tx.wp_ite, Tx.wp_pure]
      constructor
      · intro _
        exact post_requirePayoutNotFrozen fun hunfrozen => hQ' fun _ => hunfrozen
      · intro hall
        exact hQ' fun hless => absurd hless hall
    simp only [Payoff.code, executeSplit, tryRecordDispute, Tx.wp_bind, Tx.wp_get]
    refine hcheck fun hunfrozen => ?_
    simp only [Tx.post_code, wp_emit]
    intro _ _ _
    refine post_close D env.payoutActs fun v₁ h₁ => ?_
    refine post_transferNonzero env.payoutActs fun ms₁ v₂ hbuyer h₂ => ?_
    refine post_transferNonzero env.payoutActs fun ms₂ v₃ hagent h₃ => ?_
    refine post_tryRecord rfl fun v₄ h₄ => ?_
    refine hQ v₄ (ms₁ ++ ms₂) hunfrozen ⟨ms₁, ms₂, hbuyer, hagent, rfl⟩ ?_
    have hpaid := (h₁.trans h₂).trans h₃
    exact ((hpaid.event rfl).event rfl).idle h₄

/-! ## Which payout a call makes -/

def ArbitrationRecord.payoff (arb : ArbitrationRecord) (proofHash : Bytes32) : Payoff :=
  if arb.agentSubmittedAt ≠ 0 ∧ arb.buyerSubmittedAt = 0 then .settle proofHash
  else if arb.buyerSubmittedAt ≠ 0 ∧ arb.agentSubmittedAt = 0 then .split 10000
  else if arb.buyerSubmittedAt = 0 ∧ arb.agentSubmittedAt = 0 then .refund
  else .split 5000

/-- **The payout that a call leads to**, once it is past its checks. -/
def Call.payoff (l : Ledger) : Call → Option Payoff
  | .settle b proofHash =>
    if l.requiresAttestation b = true then some (.settle proofHash) else none
  | .finalizeSettle b => some (.settle (l.bindings b).proofHash)
  | .settleWithTEE _ proofHash _ => some (.settle proofHash)
  | .refundOnTimeout _ => some .refund
  | .autoResolveArbitration b => some ((l.arbitrations b).payoff (l.bindings b).proofHash)
  | .resolveDispute _ buyerShareBps => some (.split buyerShareBps)
  | _ => none

def Beside (w v : World) : Prop :=
  ∃ arbs es e, v = { w with arbitrations := arbs, events := es, entered := e }

theorem Beside.refl (w : World) : Beside w w := ⟨_, _, _, rfl⟩

theorem Beside.trans (h : Beside w v) (h' : Beside v u) : Beside w u := by
  obtain ⟨_, _, _, rfl⟩ := h
  obtain ⟨arbs, es, e, rfl⟩ := h'
  exact ⟨arbs, es, e, rfl⟩

/-- **The code of the payout `p` was run**, on the way from `w` to `u`, and nothing else happened
but bookkeeping around it. -/
def Executes (D : Deployment) (env : Env) (w : World) (b : ℕ) (p : Payoff) (u : World) : Prop :=
  ∃ v v', Beside w v ∧ (p.code D env b (w.bindings b) v).result = .ok ((), v') ∧ Beside v' u

theorem Executes.moves {p : Payoff} (h : Executes D env w b p u) :
    ∃ ms, (p.Checked → Unfrozen env w b) ∧ p.Makes w.book (w.bindings b) ms ∧
      u.moves = w.moves ++ ms ∧ u.bindings b = p.closes (w.bindings b) := by
  obtain ⟨v, v', ⟨arbs, es, e, rfl⟩, hrun, ⟨_, _, _, rfl⟩⟩ := h
  have hpost : (p.code D env b (w.bindings b)).post (fun _ v => ∃ ms,
      (p.Checked → Unfrozen env w b) ∧ p.Makes w.book (w.bindings b) ms ∧
        v.moves = w.moves ++ ms ∧ v.bindings b = p.closes (w.bindings b))
      { w with arbitrations := arbs, events := es, entered := e } := by
    refine post_code p (w.bindings b) fun v ms hunfrozen hmakes hv =>
      ⟨ms, hunfrozen, hmakes, hv.moves, ?_⟩
    have hbindings : v.bindings = _ := congrArg Docket.bindings hv.logs.docket
    rw [hbindings]
    exact Function.update_self ..
  have hend := Tx.wp_ok hpost hrun
  exact hend

theorem Executes.beside {p : Payoff} (h : Executes D env w b p v) (h' : Beside v u) :
    Executes D env w b p u := by
  obtain ⟨v₁, v₂, hv, hrun, hu⟩ := h
  exact ⟨v₁, v₂, hv, hrun, hu.trans h'⟩

theorem post_executes {p : Payoff} (h : Beside w v) (hQ : ∀ u, Executes D env w b p u →
      Logs D env.payoutActs v u (v.docket.revise b (p.closes (v.bindings b))) {} → Q () u) :
    (p.code D env b (w.bindings b)).post Q v := by
  have hlogs : (p.code D env b (w.bindings b)).post (fun _ u =>
      Logs D env.payoutActs v u (v.docket.revise b (p.closes (v.bindings b))) {}) v :=
    post_code p (w.bindings b) fun _ _ _ _ hu => hu.logs
  refine ⟨fun _ _ => trivial, ?_⟩
  split
  case h_1 u hrun => exact hQ u ⟨v, u, h, hrun, .refl u⟩ (Tx.wp_ok hlogs hrun)
  case h_2 => trivial

/-- What a call about a binding comes to: no payment, or its payout. -/
def Disposes (D : Deployment) (env : Env) (w : World) (b : ℕ) (c : Call) (u : World) : Prop :=
  match c.payoff w.toLedger with
  | none => u.moves = w.moves
  | some p => Executes D env w b p u

end Karma.Bilateral
