import Karma.Bilateral.Effect

/-! # `KarmaBilateral` — what settling and disputing do

The rules for the entry points that move a binding along or end it. -/

namespace Karma.Bilateral

open Evm

variable {D : Deployment} {env : Env} {w w' : World} {sender : Address} {I : World → Prop}

/-! ## Settling -/

section Settle

variable {b : ℕ} {Q : Unit → World → Prop}

variable {es : List Event}

theorem Sound.aside {arbs : ℕ → ArbitrationRecord} (hs : Sound D w) :
    Sound D { w with arbitrations := arbs, events := es } :=
  ⟨⟨hs.wf.listed, hs.wf.ids, hs.wf.states⟩, hs.balanced, hs.solvent, hs.now⟩

variable {x : Binding}

theorem Closes.aside {arbs : ℕ → ArbitrationRecord}
    (h : Closes D { w with arbitrations := arbs, events := es } b x w') : Closes D w b x w' := by
  obtain ⟨ms, hpay, hd⟩ := h
  exact ⟨ms, hpay, ⟨hd.book, hd.moves, hd.now, hd.wf, hd.solvent, hd.backs⟩, hd.registry⟩

theorem Closes.event (h : Closes D w b x w') : Closes D w b x { w' with events := es } := by
  obtain ⟨ms, hpay, hd⟩ := h
  exact ⟨ms, hpay, ⟨hd.book, hd.moves, hd.now, ⟨hd.wf.listed, hd.wf.ids, hd.wf.states⟩, hd.solvent,
    hd.backs⟩, hd.registry⟩

theorem live_of_unsettled (hc : (w.bindings b).createdAt ≠ 0)
    (h : (w.bindings b).state = .active ∨ (w.bindings b).state = .pending) :
    (w.bindings b).Live ∧ (w.bindings b).state.Next .finalizing ∧
      (w.bindings b).state.Next .settled ∧ (w.bindings b).state.Next .refunded := by
  rcases h with h | h <;> simp [Binding.Live, hc, h, BindingState.Open, BindingState.Next]

theorem live_of_finalizing (hc : (w.bindings b).createdAt ≠ 0)
    (h : (w.bindings b).state = .finalizing) :
    (w.bindings b).Live ∧ (w.bindings b).state.Next .settled ∧
      (w.bindings b).state.Next .disputed := by
  simp [Binding.Live, hc, h, BindingState.Open, BindingState.Next]

theorem live_of_disputed (hc : (w.bindings b).createdAt ≠ 0)
    (h : (w.bindings b).state = .disputed) :
    (w.bindings b).Live ∧ (w.bindings b).state.Next .settled ∧
      (w.bindings b).state.Next .refunded := by
  simp [Binding.Live, hc, h, BindingState.Open, BindingState.Next]

theorem Effect.settled {c : Call} {proofHash : Bytes32} (hc : c.binding = some b)
    (hlive : (w.bindings b).Live) (hnext : (w.bindings b).state.Next .settled)
    (h : Closes D w b { w.bindings b with state := .settled, proofHash } w') :
    Effect D w sender c w' :=
  .close (x := { w.bindings b with state := .settled, proofHash }) hc hlive ⟨rfl, rfl, rfl⟩ id
    hnext h

theorem Effect.refunded {c : Call} (hc : c.binding = some b) (hlive : (w.bindings b).Live)
    (hnext : (w.bindings b).state.Next .refunded)
    (h : Closes D w b { w.bindings b with state := .refunded } w') : Effect D w sender c w' :=
  .close (x := { w.bindings b with state := .refunded }) hc hlive ⟨rfl, rfl, rfl⟩ id hnext h

theorem Effect.moved {c : Call} (hs : Sound D w) (hc : c.binding = some b)
    (hlive : (w.bindings b).Live) (hx : x.Revises (w.bindings b)) (hopen : x.state.Open)
    (hnext : x.state = (w.bindings b).state ∨ (w.bindings b).state.Next x.state)
    (h : Books w w' (w.book.revise b x)) : Effect D w sender c w' :=
  .revise hc hlive hx hopen hnext (h.drifts.done hs rfl)

theorem wp_settle {proofHash : Bytes32} (hs : Sound D w)
    (hQ : ∀ v, Effect D w sender (.settle b proofHash) v → Q () v) :
    (settle D env sender b proofHash).wp (Solvent D) Clean Q w := by
  simp only [settle, Tx.wp_bind]
  refine wp_requireBinding fun hc => wp_requireUnsettled fun hst => ?_
  obtain ⟨hlive, hfin, hset, -⟩ := live_of_unsettled hc hst
  simp only [Tx.wp_code]
  refine ⟨fun _ => ⟨fun _ => id, fun _ => ?_⟩, fun _ => ⟨fun _ => id, fun _ => ?_⟩⟩
  · -- the attested path pays at once
    exact wp_executeSettle hs hlive (.inr fun _ => id) fun v hv => hQ v (.settled rfl hlive hset hv)
  · -- the standard path opens the window
    refine wp_requireSettleDelay ?_
    simp only [updateBinding, wp_writeLedger, wp_emit]
    refine ⟨fun _ => hQ _ ?_, fun _ => id⟩
    refine .moved (x := { w.bindings b with
      state := .finalizing, proofHash, settleSubmittedAt := w.now }) hs rfl hlive ⟨rfl, rfl, rfl⟩
      trivial (.inr hfin) ⟨rfl, rfl, rfl, rfl, rfl, rfl, fun hw => ?_⟩
    exact ⟨hw.listed, hw.ids, hw.states⟩

theorem wp_finalizeSettle (hs : Sound D w)
    (hQ : ∀ v, Effect D w sender (.finalizeSettle b) v → Q () v) :
    (finalizeSettle D env b).wp (Solvent D) Clean Q w := by
  simp only [finalizeSettle, Tx.wp_bind]
  refine wp_requireBinding fun hc => ?_
  simp only [Tx.wp_code]
  refine ⟨fun _ => id, fun hst => ⟨fun _ => ⟨fun _ => id, fun _ => ?_⟩, fun _ => id⟩⟩
  obtain ⟨hlive, hset, -⟩ := live_of_finalizing hc (not_not.mp hst)
  exact wp_executeSettle hs hlive (.inr fun _ => id) fun v hv => hQ v (.settled rfl hlive hset hv)

theorem wp_settleWithTEE {proofHash : Bytes32} {att : Option TEEAttestation} (hs : Sound D w)
    (hQ : ∀ v, Effect D w sender (.settleWithTEE b proofHash att) v → Q () v) :
    (settleWithTEE D env b proofHash att).wp (Solvent D) Clean Q w := by
  simp only [settleWithTEE, Tx.wp_bind]
  refine wp_requireBinding fun hc => wp_requireUnsettled fun hst => wp_requireSettleDelay ?_
  obtain ⟨hlive, -, hset, -⟩ := live_of_unsettled hc hst
  simp only [Tx.wp_code]
  refine ⟨fun _ => id, fun _ => ⟨fun _ => id, fun _ _ => ⟨fun _ => id, fun _ _ => ?_⟩⟩⟩
  refine wp_executeSettle hs hlive (.inr fun _ => id) fun v hv => ?_
  rw [wp_emit]
  exact hQ _ (.settled rfl hlive hset hv.event)

theorem wp_refundOnTimeout (hs : Sound D w)
    (hQ : ∀ v, Effect D w sender (.refundOnTimeout b) v → Q () v) :
    (refundOnTimeout D env sender b).wp (Solvent D) Clean Q w := by
  simp only [refundOnTimeout, Tx.wp_bind]
  refine wp_requireBinding fun hc => wp_requireUnsettled fun hst => ?_
  obtain ⟨hlive, -, -, href⟩ := live_of_unsettled hc hst
  simp only [Tx.wp_code]
  refine ⟨fun _ => ⟨fun _ => id, fun _ => ⟨fun _ => id, fun _ => ?_⟩⟩, fun _ => id⟩
  refine wp_executeRefund hs hlive (.inr fun _ => id) fun v hv => ?_
  rw [wp_emit]
  exact hQ _ (.refunded rfl hlive href hv.event)

end Settle

/-! ## Disputes -/

section Dispute

variable {b : ℕ} {Q : Unit → World → Prop}

theorem wp_dispute {evidenceHash : Bytes32} (hs : Sound D w)
    (hQ : ∀ v, Effect D w sender (.dispute b evidenceHash) v → Q () v) :
    (dispute sender b evidenceHash).wp I Clean Q w := by
  simp only [dispute, Tx.wp_bind]
  refine wp_requireBinding fun hc => ?_
  simp only [Tx.wp_code, updateBinding, updateArbitration, wp_writeLedger, wp_emit]
  refine ⟨fun _ => id, fun hst => ⟨fun _ => ⟨fun _ => id, fun _ => ⟨fun _ => id, fun _ => hQ _ ?_⟩⟩,
    fun _ => id⟩⟩
  obtain ⟨hlive, -, hdis⟩ := live_of_finalizing hc (not_not.mp hst)
  refine .moved (x := { w.bindings b with
    state := .disputed, disputedAt := w.now, disputeInitiator := sender }) hs rfl hlive
    ⟨rfl, rfl, rfl⟩ trivial (.inr hdis) ⟨rfl, rfl, rfl, rfl, rfl, rfl, fun hw => ?_⟩
  exact ⟨hw.listed, hw.ids, hw.states⟩

theorem wp_submitArbitrationEvidence {evidenceHash : Bytes32} (hs : Sound D w)
    (hQ : ∀ v, Effect D w sender (.submitArbitrationEvidence b evidenceHash) v → Q () v) :
    (submitArbitrationEvidence sender b evidenceHash).wp I Clean Q w := by
  simp only [submitArbitrationEvidence, Tx.wp_bind]
  refine wp_requireBinding fun hc => ?_
  simp only [Tx.wp_code, Tx.wp_revert, updateArbitration, wp_writeLedger, wp_emit]
  refine ⟨fun _ => id, fun hst => ⟨fun _ => id, fun _ => ⟨fun _ => id, fun _ => ⟨fun _ =>
    ⟨fun _ => id, fun _ => ?_⟩, fun _ => id⟩⟩⟩⟩
  obtain ⟨hlive, -, -⟩ := live_of_disputed hc (not_not.mp hst)
  -- the book stays as it is: the binding is overwritten by itself
  have hsame : w.book.revise b (w.bindings b) = w.book := by
    rw [Book.revise, show Function.update w.book.binding b (w.bindings b) = w.book.binding from
      Function.update_eq_self b w.bindings]
  have hmoved : ∀ arbs es, Effect D w sender (.submitArbitrationEvidence b evidenceHash)
      { w with arbitrations := arbs, events := es } := by
    intro arbs es
    refine .moved hs rfl hlive ⟨rfl, rfl, rfl⟩ hlive.2 (.inl rfl) ?_
    rw [hsame]
    exact ⟨rfl, rfl, rfl, rfl, rfl, rfl, fun hw => ⟨hw.listed, hw.ids, hw.states⟩⟩
  exact ⟨fun _ => hQ _ (hmoved _ _), fun _ => ⟨fun _ => hQ _ (hmoved _ _), fun _ => id⟩⟩

theorem wp_requireAutoResolvable {totalPool windowEnd : ℕ} (hQ : Q () w) :
    (requireAutoResolvable b totalPool windowEnd).wp I Clean Q w := by
  simp only [requireAutoResolvable, Tx.wp_code]
  exact ⟨fun _ => ⟨fun _ => ⟨fun _ => id, fun _ => hQ⟩, fun _ => id⟩, fun _ => hQ⟩

variable {bps : ℕ}

theorem wp_split_disputed {c : Call} {arbs : ℕ → ArbitrationRecord} {es : List Event}
    (hs : Sound D w) (hc : c.binding = some b) (hlive : (w.bindings b).Live)
    (hset : (w.bindings b).state.Next .settled) (hbps : bps ≤ 10000)
    (hQ : ∀ v, Effect D w sender c v → Q () v) :
    (executeSplit D env b (w.bindings b).buyerBillId (w.bindings b).agentBillId bps).wp
      (Solvent D) Clean Q { w with arbitrations := arbs, events := es } :=
  wp_executeSplit (w := { w with arbitrations := arbs, events := es }) hs.aside hlive hbps
    (.inr fun _ => id) fun v hv => hQ v (.settled hc hlive hset hv.aside)

theorem wp_autoResolveArbitration (hs : Sound D w)
    (hQ : ∀ v, Effect D w sender (.autoResolveArbitration b) v → Q () v) :
    (autoResolveArbitration D env b).wp (Solvent D) Clean Q w := by
  simp only [autoResolveArbitration, Tx.wp_bind]
  refine wp_requireBinding fun hc => ?_
  simp only [Tx.wp_code]
  refine ⟨fun _ => id, fun hst => ⟨fun _ => id, fun _ => ⟨fun _ => id, fun _ => ⟨fun _ =>
    ⟨fun _ => id, fun _ => ⟨fun _ => ?_, fun _ => id⟩⟩, fun _ => id⟩⟩⟩⟩
  obtain ⟨hlive, hset, href⟩ := live_of_disputed hc (not_not.mp hst)
  refine wp_requireAutoResolvable ?_
  simp only [updateArbitration, wp_writeLedger, wp_emit]
  -- evidence of the agent alone, of the buyer alone, of nobody, of both
  refine ⟨fun _ => ?_, fun _ => ⟨fun _ => ?_, fun _ => ⟨fun _ => ?_, fun _ => ?_⟩⟩⟩
  · exact wp_executeSettle (w := { w with arbitrations := _, events := _ }) hs.aside hlive
      (.inr fun _ => id) fun v hv => hQ v (.settled rfl hlive hset hv.aside)
  · exact wp_split_disputed hs rfl hlive hset le_rfl hQ
  · exact wp_executeRefund (w := { w with arbitrations := _, events := _ }) hs.aside hlive
      (.inr fun _ => id) fun v hv => hQ v (.refunded rfl hlive href hv.aside)
  · exact wp_split_disputed hs rfl hlive hset (by decide) hQ

theorem wp_requireSplitMatchesEvidence {arb : ArbitrationRecord} (hQ : Q () w) :
    (requireSplitMatchesEvidence arb bps).wp I Clean Q w := by
  simp only [requireSplitMatchesEvidence, Tx.wp_code]
  refine ⟨fun _ => ?both, fun _ => ⟨fun _ => ?buyer, fun _ => ⟨fun _ => ?agent, fun _ => ?none⟩⟩⟩
  all_goals exact ⟨fun _ => id, fun _ => hQ⟩

theorem wp_resolveDispute (hs : Sound D w)
    (hQ : ∀ v, Effect D w sender (.resolveDispute b bps) v → Q () v) :
    (resolveDispute D env sender b bps).wp (Solvent D) Clean Q w := by
  simp only [resolveDispute, onlyAdmin, Tx.wp_bind, Tx.wp_revertIf]
  refine ⟨fun _ => id, fun _ => ⟨fun _ => id, fun hbps => wp_requireBinding fun hc => ?_⟩⟩
  simp only [Tx.wp_code]
  refine ⟨fun _ => id, fun hst => ⟨fun _ => id, fun _ => ⟨fun _ => ⟨fun _ => id, fun _ => ?_⟩,
    fun _ => id⟩⟩⟩
  obtain ⟨hlive, hset, -⟩ := live_of_disputed hc (not_not.mp hst)
  refine wp_requireSplitMatchesEvidence ?_
  simp only [updateArbitration, wp_writeLedger, wp_emit]
  exact wp_split_disputed hs rfl hlive hset (not_lt.mp hbps) hQ

end Dispute

end Karma.Bilateral
