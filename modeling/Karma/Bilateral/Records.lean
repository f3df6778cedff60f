import Karma.Bilateral.Payoffs

/-! # `KarmaBilateral` — what each guarded call files

The rules behind `Files`: one for every entry point, read off the code in the form of partial
correctness, and, for a call about a binding, the payout that it makes. -/

namespace Karma.Bilateral

open Evm Relation Function

variable {D : Deployment} {env : Env} {os : List Outside} {u v w : World} {sender : Address}
  {d : Docket} {n : Notices}

section Entries

variable {b i j : ℕ} {Q : Unit → World → Prop}

theorem post_lockInto (os : List Outside) {token owner : Address} {amount : ℕ}
    {Q : ℕ → World → Prop} (hQ : ∀ k v, Idle D os w v → Q k v) :
    (lockInto D token amount owner).post Q w := by
  simp only [lockInto, Tx.post_code, wp_writeLedger, wp_emit]
  refine fun _ _ _ _ T hT _ _ => hQ _ _ ?_
  have hpulled : Idle D os w { w with tokens := update w.tokens token T } :=
    .token (c := .transferFrom owner D.self amount) hT
  refine hpulled.trans (.of_eq rfl rfl rfl ?_ rfl rfl)
  simp [World.notices, Event.deadline]

theorem post_lockFor {token master : Address} {amount : ℕ} {Q : ℕ → World → Prop}
    (hQ : ∀ k v, Idle D env.consumeAuthorization.acts w v → Q k v) :
    (lockFor D env sender token amount master).post Q w := by
  simp only [lockFor, consumeAuthorization, Tx.post_code]
  refine fun _ _ => ⟨fun _ => ?_, fun _ => ?_⟩
  · -- the registry created for this core runs its own code
    split
    case h_1 answer R hr =>
      simp only [Tx.wp_code]
      refine fun _ => post_lockInto env.consumeAuthorization.acts fun k v hv => hQ k v (Idle.trans
        ?_ hv)
      refine ⟨rfl, rfl, ?_, (List.append_nil _).symm, .refl, fun _ => rfl⟩
      simp [World.notices, OutCall.registration]
    case h_2 => exact Tx.wp_revert _ |>.mpr trivial
  · refine post_callOut _ _ (fun _ => id) fun v hv _ _ _ _ => post_lockInto _ fun k v' (hv' : Idle D
      env.consumeAuthorization.acts v v') => hQ k v' ?_
    exact Idle.trans hv hv'

theorem post_unlock (hQ : ∀ v, Idle D os w v → Q () v) : (unlock D sender i).post Q w := by
  simp only [unlock, requireBill, requireBillState, burnBill, setBill, Tx.post_code,
    wp_writeLedger, wp_emit]
  intro _ _ _ _ _ _ _ _
  refine post_transfer os fun v hv => hQ v (Idle.trans ?_ hv.logs)
  refine .of_eq rfl rfl rfl ?_ rfl rfl
  simp [World.notices, Event.deadline]

/-! ### Binding -/

theorem post_requireBindable {Q : Bytes32 × Bytes32 → World → Prop}
    (hQ : Offers w.scene sender i j → Q (w.bills i, w.bills j) w) :
    (requireBindable env sender i j).post Q w := by
  simp only [requireBindable, requireBill, requireBillState, enforceReputationGate, Tx.post_code]
  intro hbuyer hagent hsender _ _ _ _ _ _ _ _
  have hoffers : Offers w.scene sender i j := ⟨not_not.mp hsender, hbuyer, hagent⟩
  exact ⟨fun _ => hQ hoffers, fun _ _ _ => ⟨fun _ => hQ hoffers, fun _ _ _ _ => hQ hoffers⟩⟩

theorem post_moveFreeToBound (D : Deployment) (os : List Outside) {owner : Address} {amount : ℕ}
    (hQ : ∀ v, Idle D os w v → v.toConfig = w.toConfig → Q () v) :
    (moveFreeToBound owner amount).post Q w := by
  simp only [moveFreeToBound, Tx.post_code, wp_writeLedger]
  exact fun _ _ _ => hQ _ (.of_eq rfl rfl rfl rfl rfl rfl) rfl

theorem Logs.batched {scopeHash : Bytes32}
    (h : Logs D os w v (w.docket.enter (w.scene.opening i j scopeHash .active)) {}) :
    Logs D os w
      { v with
        bindings := update v.bindings (w.bindingCounter + 1)
          { v.bindings (w.bindingCounter + 1) with state := .pending } }
      (w.docket.enter (w.scene.opening i j scopeHash .pending)) {} := by
  refine ⟨?_, h.now, h.registrations, h.deadlines, h.config, h.supply⟩
  show v.docket.revise (w.bindingCounter + 1)
    { v.docket.bindings (w.bindingCounter + 1) with state := .pending } = _
  rw [h.docket]
  simp [Docket.revise, Docket.enter, Ledger.docket, Scene.opening]

theorem post_bindPair (D : Deployment) (os : List Outside) {scopeHash : Bytes32}
    {Q : ℕ → World → Prop}
    (hQ : ∀ st v, st = .active ∨ st = .pending →
      Logs D os w v (w.docket.enter (w.scene.opening i j scopeHash st)) {} →
      v.toConfig = w.toConfig → Q (w.bindingCounter + 1) v) :
    (bindPair i j (w.bills i) (w.bills j) scopeHash).post Q w := by
  simp only [bindPair, finalizeBind, setBill, Tx.post_code, wp_writeLedger]
  intro _ _ _
  refine post_moveFreeToBound D os fun v₁ h₁ hc₁ => post_moveFreeToBound D os fun v₂ h₂ hc₂ => ?_
  have hentered : Logs D os w v₂ (w.docket.enter (w.scene.opening i j scopeHash .active)) {} := by
    have h := Idle.trans h₁ h₂
    exact ⟨h.docket, h.now, h.registrations, h.deadlines, h.config, h.supply⟩
  simp only [updateBinding, wp_writeLedger, wp_emit]
  refine ⟨fun _ => hQ .pending _ (.inr rfl) (hentered.batched.idle (.event rfl)) (hc₂.trans hc₁),
    fun _ => hQ .active _ (.inl rfl) (hentered.idle (.event rfl)) (hc₂.trans hc₁)⟩

def Filed (D : Deployment) (os : List Outside) (w : World) (sender : Address) (c : Call)
    (v : World) : Prop :=
  ∃ d n, Files D w.scene sender c d n ∧ Logs D os w v d n

theorem Logs.attest {taskId : Bytes32} (h : Logs D os w v d n) :
    Logs D os w
      { v with
        requiresAttestation := update v.requiresAttestation b true
        bindingTaskId := update v.bindingTaskId b taskId }
      (d.attest b taskId) n := by
  refine ⟨?_, h.now, h.registrations, h.deadlines, h.config, h.supply⟩
  show v.docket.attest b taskId = _
  rw [h.docket]

theorem post_registerTaskPublisher {taskId : Bytes32} {x y : Bytes32}
    (hQ : ∀ v, Logs D env.registerTaskPublisher.acts w v w.docket
      { registrations := [⟨taskId, billOwner x, billOwner y⟩] } → Q () v) :
    (registerTaskPublisher D env taskId x y).post Q w := by
  simp only [registerTaskPublisher, Tx.wp_bind]
  refine post_callOut _ _ (fun _ => id) fun v hv _ => ?_
  simp only [Tx.post_code]
  exact fun _ _ => hQ v hv

theorem post_bind {scopeHash : Bytes32} {Q : ℕ → World → Prop}
    (hQ : ∀ k v, Filed D os w sender (.bind i j scopeHash) v → Q k v) :
    (Bilateral.bind env sender i j scopeHash).post Q w := by
  simp only [Bilateral.bind, Tx.wp_bind]
  refine post_requireBindable fun hoffers => post_bindPair D os fun st v hst hv _ => ?_
  exact hQ _ v ⟨_, _, .bind hoffers hst, hv⟩

theorem post_bindWithAttestation {scopeHash taskId : Bytes32} {Q : ℕ → World → Prop}
    (hQ : ∀ k v, Filed D env.registerTaskPublisher.acts w sender
      (.bindWithAttestation i j scopeHash taskId) v → Q k v) :
    (bindWithAttestation D env sender i j scopeHash taskId).post Q w := by
  simp only [bindWithAttestation, requireAttestation, Tx.post_code, wp_writeLedger, wp_emit]
  intro hgateway htask
  refine post_requireBindable fun hoffers => ?_
  refine post_bindPair D env.registerTaskPublisher.acts fun st v hst hv _ => ?_
  refine post_registerTaskPublisher fun v' hv' => hQ _ _ ⟨_, _, .bindAttested hoffers hst hgateway
    htask, (hv.attest.notify hv').idle (.event rfl)⟩

theorem post_bindWithIntent {intent : IntentPackage} {Q : ℕ → World → Prop}
    (hQ : ∀ k v, Filed D env.registerTaskPublisher.acts w sender (.bindWithIntent intent i j) v →
      Q k v) :
    (bindWithIntent D env sender intent i j).post Q w := by
  simp only [bindWithIntent, requireIntent, registerIntent, requireAttestation, Tx.post_code,
    wp_writeLedger, wp_emit]
  refine post_requireBindable fun hoffers => ?_
  intro _ _ _ _ _ _
  refine post_bindPair D env.registerTaskPublisher.acts fun st v hst hv hconfig => ?_
  have hstored : Logs D env.registerTaskPublisher.acts w
      { v with
        intentPackages := update v.intentPackages (w.bindingCounter + 1) intent }
      (w.docket.enter (w.scene.opening i j (D.intentHash intent) st)) {} :=
    ⟨hv.docket, hv.now, hv.registrations, hv.deadlines, hv.config, hv.supply⟩
  have hgateway : v.attestationGateway = w.attestationGateway := by rw [hconfig]
  refine ⟨fun hverifier => ⟨fun hset => ?_, fun hset => ?_⟩, fun hverifier => ?_⟩
  · -- the gateway is told about the new task
    refine post_registerTaskPublisher fun v' hv' => hQ _ _ ⟨_, _, .bindIntentAttested hoffers hst
      hverifier, ?_⟩
    rw [if_pos (show w.scene.attestationGateway ≠ 0 from hgateway ▸ hset)]
    exact (hstored.attest.notify hv').idle (.event rfl)
  · refine hQ _ _ ⟨_, _, .bindIntentAttested hoffers hst hverifier, ?_⟩
    rw [if_neg (show ¬ w.scene.attestationGateway ≠ 0 from hgateway ▸ hset)]
    exact hstored.attest.idle (.event rfl)
  · exact hQ _ _ ⟨_, _, .bindIntent hoffers hst (not_not.mp hverifier), hstored.idle (.event rfl)⟩

/-! ### Settling and disputing -/

theorem post_requireBinding {Q : Binding → World → Prop}
    (hQ : (w.bindings b).createdAt ≠ 0 → Q (w.bindings b) w) : (requireBinding b).post Q w := by
  simp only [requireBinding, Tx.post_code]
  exact hQ

theorem post_requireUnsettled
    (hQ : (w.bindings b).state = .active ∨ (w.bindings b).state = .pending → Q () w) :
    (requireUnsettled b (w.bindings b)).post Q w := by
  simp only [requireUnsettled, Tx.post_code]
  refine fun h => hQ ?_
  rwa [not_and_or, not_not, not_not] at h

theorem post_requireSettleDelay (hQ : DelayOver w.scene b → Q () w) :
    (requireSettleDelay (w.bindings b)).post Q w := by
  simp only [requireSettleDelay, Tx.post_code]
  refine fun h => hQ fun hactive => ?_
  exact not_lt.mp fun hlt => h ⟨hactive, hlt⟩

theorem Logs.written {l : Ledger} {e : Event} {ds : List Deadline}
    (he : e.deadline.toList = ds) :
    Logs D os w { w with toLedger := l, events := w.events ++ [e] } l.docket
      { deadlines := ds } := by
  refine ⟨rfl, rfl, (List.append_nil _).symm, ?_, .refl, fun _ => rfl⟩
  subst he
  cases hd : e.deadline <;> simp [World.notices, hd]

theorem post_settle {proofHash : Bytes32}
    (hQ : ∀ v, Filed D ((Call.settle b proofHash).acts w.scene env) w sender (.settle b proofHash)
      v → Disposes D env w b (.settle b proofHash) v → Q () v) :
    (settle D env sender b proofHash).post Q w := by
  simp only [settle, Tx.wp_bind]
  refine post_requireBinding fun hcreated => post_requireUnsettled fun hstate => ?_
  simp only [Tx.post_code]
  simp only [Disposes, Call.payoff] at hQ
  refine ⟨fun hflag hsender => ?_, fun hflag hsender => ?_⟩
  · have hacts : (Call.settle b proofHash).acts w.scene env = env.payoutActs := if_pos hflag
    rw [hacts, if_pos hflag] at hQ
    exact post_executes (p := .settle _) (.refl w) fun v hpaid hv =>
      hQ v ⟨_, _, .attested ⟨hcreated, hstate⟩ hflag (not_not.mp hsender), hv⟩ hpaid
  · refine post_requireSettleDelay fun hdelay => ?_
    simp only [updateBinding, wp_writeLedger, wp_emit]
    rw [if_neg hflag] at hQ
    refine fun hfits => hQ _ ⟨_, _, .submitted ⟨hcreated, hstate⟩ (Bool.eq_false_iff.mpr hflag)
      hdelay ?_ hfits, .written rfl⟩ rfl
    rwa [not_and_or, not_and_or, not_not, not_not, not_not] at hsender

theorem post_finalizeSettle
    (hQ : ∀ v, Filed D env.payoutActs w sender (.finalizeSettle b) v →
      Disposes D env w b (.finalizeSettle b) v → Q () v) :
    (finalizeSettle D env b).post Q w := by
  simp only [finalizeSettle, Tx.wp_bind]
  refine post_requireBinding fun hcreated => ?_
  simp only [Tx.post_code]
  intro hstate _ hwindow
  exact post_executes (p := .settle _) (.refl w) fun v hpaid hv =>
    hQ v ⟨_, _, .finalized ⟨hcreated, not_not.mp hstate⟩ (not_lt.mp hwindow), hv⟩ hpaid

theorem post_settleWithTEE {proofHash : Bytes32} {att : Option TEEAttestation}
    (hQ : ∀ v, Filed D env.payoutActs w sender (.settleWithTEE b proofHash att) v →
      Disposes D env w b (.settleWithTEE b proofHash att) v → Q () v) :
    (settleWithTEE D env b proofHash att).post Q w := by
  simp only [settleWithTEE, Tx.wp_bind]
  refine post_requireBinding fun hcreated => post_requireUnsettled fun hstate =>
    post_requireSettleDelay fun hdelay => ?_
  simp only [Tx.post_code, wp_emit]
  intro hverifier _ _ _ _
  exact post_executes (p := .settle _) (.refl w) fun v hpaid hv =>
    hQ _ ⟨_, _, .enclave ⟨hcreated, hstate⟩ hdelay hverifier, hv.idle (.event rfl)⟩
      (hpaid.beside ⟨_, _, _, rfl⟩)

theorem post_refundOnTimeout
    (hQ : ∀ v, Filed D env.payoutActs w sender (.refundOnTimeout b) v →
      Disposes D env w b (.refundOnTimeout b) v → Q () v) :
    (refundOnTimeout D env sender b).post Q w := by
  simp only [refundOnTimeout, Tx.wp_bind]
  refine post_requireBinding fun hcreated => post_requireUnsettled fun hstate => ?_
  simp only [Tx.post_code, wp_emit]
  intro _ htime hsender
  exact post_executes (p := .refund) (.refl w) fun v hpaid hv => hQ _ ⟨_, _, .refunded
    ⟨hcreated, hstate⟩ (not_lt.mp htime) (not_not.mp hsender), hv.idle (.event rfl)⟩
      (hpaid.beside ⟨_, _, _, rfl⟩)

theorem post_dispute {evidenceHash : Bytes32}
    (hQ : ∀ v, Filed D os w sender (.dispute b evidenceHash) v → v.moves = w.moves → Q () v) :
    (dispute sender b evidenceHash).post Q w := by
  simp only [dispute, Tx.wp_bind]
  refine post_requireBinding fun hcreated => ?_
  simp only [Tx.post_code, updateBinding, updateArbitration, wp_writeLedger, wp_emit]
  refine fun hstate _ hwindow hsender => hQ _ ⟨_, _, ?_, .written rfl⟩ rfl
  exact .disputed ⟨hcreated, not_not.mp hstate⟩ (not_le.mp hwindow) (not_not.mp hsender)

theorem post_submitArbitrationEvidence {evidenceHash : Bytes32}
    (hQ : ∀ v, Filed D os w sender (.submitArbitrationEvidence b evidenceHash) v →
      v.moves = w.moves → Q () v) :
    (submitArbitrationEvidence sender b evidenceHash).post Q w := by
  simp only [submitArbitrationEvidence, Tx.wp_bind]
  refine post_requireBinding fun hcreated => ?_
  simp only [Tx.post_code, Tx.wp_revert, updateArbitration, wp_writeLedger, wp_emit]
  intro hstate hstarted hpending _ hwindow
  have hdisputed : Disputed w.scene b := ⟨hcreated, not_not.mp hstate, hstarted⟩
  have hresolved : (w.scene.arbitrations b).resolved = false := Bool.eq_false_iff.mpr hpending
  refine ⟨fun hsender => hQ _ ⟨_, _, .testified hdisputed hresolved (not_le.mp hwindow)
    (.buyer hsender), .written rfl⟩ rfl, fun _ => ⟨fun hsender => hQ _ ⟨_, _, ?_, .written rfl⟩ rfl,
      fun _ => trivial⟩⟩
  exact .testified hdisputed hresolved (not_le.mp hwindow) (.agent hsender)

theorem post_requireAutoResolvable {totalPool windowEnd : ℕ} (hQ : Q () w) :
    (requireAutoResolvable b totalPool windowEnd).post Q w := by
  simp only [requireAutoResolvable, Tx.post_code]
  exact ⟨fun _ _ _ => hQ, fun _ => hQ⟩

theorem Logs.resolve {arb : ArbitrationRecord} {e : Event} {x : Binding} (he : e.deadline = none)
    (h : Logs D os
      { w with
        arbitrations := update w.arbitrations b arb
        events := w.events ++ [e] } v
      ((w.docket.arbitrate b arb).revise b x) {}) :
    Logs D os w v ((w.docket.revise b x).arbitrate b arb) {} := by
  refine ⟨h.docket, h.now, h.registrations, h.deadlines.trans ?_, h.config, h.supply⟩
  simp [World.notices, he]

theorem post_autoResolveArbitration
    (hQ : ∀ v, Filed D env.payoutActs w sender (.autoResolveArbitration b) v →
      Disposes D env w b (.autoResolveArbitration b) v → Q () v) :
    (autoResolveArbitration D env b).post Q w := by
  simp only [autoResolveArbitration, Tx.wp_bind]
  refine post_requireBinding fun hcreated => ?_
  simp only [Tx.post_code]
  intro hstate hstarted hpending _ hwindow _
  have hfiles : ∀ st : BindingState, st = .settled ∨ st = .refunded →
      Files D w.scene sender (.autoResolveArbitration b) _ _ := fun st =>
    .autoResolved ⟨hcreated, not_not.mp hstate, hstarted⟩ (Bool.eq_false_iff.mpr hpending)
      (not_lt.mp hwindow)
  refine post_requireAutoResolvable ?_
  simp only [updateArbitration, wp_writeLedger, wp_emit]
  simp only [Disposes, Call.payoff, ArbitrationRecord.payoff] at hQ
  -- evidence of the agent alone, of the buyer alone, of nobody, of both
  refine ⟨fun hagent => ?_, fun hagent => ⟨fun hbuyer => ?_, fun hbuyer => ⟨fun hnone => ?_,
    fun hnone => ?_⟩⟩⟩
  · rw [if_pos hagent] at hQ
    exact post_executes (p := .settle _) ⟨_, _, _, rfl⟩ fun v hpaid hv =>
      hQ v ⟨_, _, hfiles _ (.inl rfl), Logs.resolve rfl hv⟩ hpaid
  · rw [if_neg hagent, if_pos hbuyer] at hQ
    exact post_executes (p := .split _) ⟨_, _, _, rfl⟩ fun v hpaid hv =>
      hQ v ⟨_, _, hfiles _ (.inl rfl), Logs.resolve rfl hv⟩ hpaid
  · rw [if_neg hagent, if_neg hbuyer, if_pos hnone] at hQ
    exact post_executes (p := .refund) ⟨_, _, _, rfl⟩ fun v hpaid hv =>
      hQ v ⟨_, _, hfiles _ (.inr rfl), Logs.resolve rfl hv⟩ hpaid
  · rw [if_neg hagent, if_neg hbuyer, if_neg hnone] at hQ
    exact post_executes (p := .split _) ⟨_, _, _, rfl⟩ fun v hpaid hv =>
      hQ v ⟨_, _, hfiles _ (.inl rfl), Logs.resolve rfl hv⟩ hpaid

structure ArbitrationRecord.Allows (arb : ArbitrationRecord) (bps : ℕ) : Prop where
  both : arb.buyerSubmittedAt ≠ 0 → arb.agentSubmittedAt ≠ 0 →
    minAdminSplitBps ≤ bps ∧ bps ≤ maxAdminSplitBps
  silent : arb.agentSubmittedAt = 0 → bps = 10000
  alone : arb.buyerSubmittedAt = 0 → arb.agentSubmittedAt ≠ 0 → bps = 0

theorem post_requireSplitMatchesEvidence {arb : ArbitrationRecord} {bps : ℕ}
    (hQ : arb.Allows bps → Q () w) : (requireSplitMatchesEvidence arb bps).post Q w := by
  simp only [requireSplitMatchesEvidence, Tx.post_code]
  refine ⟨fun hboth hrange => hQ ?both, fun hboth => ⟨fun hbuyer hall => hQ ?buyer, fun hbuyer =>
    ⟨fun hagent hnone => hQ ?agent, fun hagent hall => hQ ?none⟩⟩⟩
  case both =>
    exact ⟨fun _ _ => ⟨by omega, by omega⟩, fun h => absurd h hboth.2, fun h => absurd h hboth.1⟩
  case buyer =>
    exact ⟨fun h h' => absurd ⟨h, h'⟩ hboth, fun _ => not_not.mp hall, fun h => absurd h hbuyer.1⟩
  case agent =>
    exact ⟨fun h h' => absurd ⟨h, h'⟩ hboth, fun h => absurd h hagent.2,
      fun _ _ => not_not.mp hnone⟩
  case none =>
    exact ⟨fun h h' => absurd ⟨h, h'⟩ hboth, fun _ => not_not.mp hall,
      fun h h' => absurd ⟨h, h'⟩ hagent⟩

theorem post_resolveDispute {bps : ℕ}
    (hQ : ∀ v, Filed D env.payoutActs w sender (.resolveDispute b bps) v →
      (w.arbitrations b).Allows bps → Executes D env w b (.split bps) v → Q () v) :
    (resolveDispute D env sender b bps).post Q w := by
  simp only [resolveDispute, onlyAdmin, Tx.post_code]
  refine fun hsender _ => post_requireBinding fun hcreated => ?_
  refine fun hstate hstarted _ hwindow => post_requireSplitMatchesEvidence fun hallows => ?_
  simp only [updateArbitration, wp_writeLedger, wp_emit]
  refine post_executes (p := .split bps) ⟨_, _, _, rfl⟩ fun v hpaid hv =>
    hQ v ⟨_, _, ?_, Logs.resolve rfl hv⟩ hallows hpaid
  exact .resolved (not_not.mp hsender) ⟨hcreated, not_not.mp hstate, hstarted⟩ (not_lt.mp hwindow)

end Entries

/-! ## Transactions -/

theorem post_body {Q : Unit → World → Prop} (c : Call)
    (hQ : ∀ v, Filed D (c.acts w.scene env) w sender c v →
      (∀ b, c.binding = some b → Disposes D env w b c v) → Q () v) :
    (c.body D env sender).post Q w := by
  cases c with
  | lock =>
    simp only [Call.body, lock, Tx.wp_code]
    exact post_lockInto _ fun _ v hv => hQ v ⟨_, _, .lock, hv⟩ (by rintro _ ⟨⟩)
  | lockFor =>
    simp only [Call.body, Tx.wp_code]
    exact post_lockFor fun _ v hv => hQ v ⟨_, _, .lockFor, hv⟩ (by rintro _ ⟨⟩)
  | bind =>
    simp only [Call.body, Tx.wp_code]
    exact post_bind fun _ v hv => hQ v hv (by rintro _ ⟨⟩)
  | bindWithAttestation =>
    simp only [Call.body, Tx.wp_code]
    exact post_bindWithAttestation fun _ v hv => hQ v hv (by rintro _ ⟨⟩)
  | bindWithIntent =>
    simp only [Call.body, Tx.wp_code]
    exact post_bindWithIntent fun _ v hv => hQ v hv (by rintro _ ⟨⟩)
  | unlock => exact post_unlock fun v hv => hQ v ⟨_, _, .unlock, hv⟩ (by rintro _ ⟨⟩)
  | settle => exact post_settle fun v hv hd => hQ v hv (by rintro _ ⟨⟩; exact hd)
  | finalizeSettle => exact post_finalizeSettle fun v hv hd => hQ v hv (by rintro _ ⟨⟩; exact hd)
  | settleWithTEE => exact post_settleWithTEE fun v hv hd => hQ v hv (by rintro _ ⟨⟩; exact hd)
  | refundOnTimeout => exact post_refundOnTimeout fun v hv hd => hQ v hv (by rintro _ ⟨⟩; exact hd)
  | dispute => exact post_dispute fun v hv hd => hQ v hv fun _ _ => hd
  | submitArbitrationEvidence =>
    exact post_submitArbitrationEvidence fun v hv hd => hQ v hv fun _ _ => hd
  | autoResolveArbitration =>
    exact post_autoResolveArbitration fun v hv hd => hQ v hv (by rintro _ ⟨⟩; exact hd)
  | settleWithZKProof => simp only [Call.body, settleWithZKProof, Tx.wp_revert]
  | resolveDispute =>
    exact post_resolveDispute fun v hv _ hd => hQ v hv (by rintro _ ⟨⟩; exact hd)

theorem post_exec (env : Env) (sender : Address) (c : Call) :
    (c.exec D env sender).post (fun _ v => Filed D (c.acts w.scene env) w sender c v) w := by
  simp only [Call.exec, nonReentrant, Tx.post_code]
  refine fun _ => post_body c fun v hv _ => ?_
  obtain ⟨d, n, hfiles, hlogs⟩ := hv
  exact ⟨d, n, hfiles, hlogs.docket, hlogs.now, hlogs.registrations, hlogs.deadlines, hlogs.config,
    hlogs.supply⟩

/-- **What a transaction files.** -/
inductive Records (D : Deployment) (w : World) : Act → World → Prop
  | tick {time : ℕ} : w.now ≤ time → Records D w (.tick time) { w.fresh with now := time }
  | outside {o : Outside} {w' : World} :
      o.attempt D w.fresh = some w' → Idle D [o] w.fresh w' → Records D w (.outside o) w'
  | call {sender : Address} {env : Env} {c : Call} {d : Docket} {n : Notices} {w' : World} :
      sender ≠ D.self → sender ≠ 0 → Files D w.scene sender c d n →
      Logs D (c.acts w.scene env) w.fresh w' d n → Records D w (.call sender env c) w'

theorem records_of_step {a : Act} (h : step D w a = some v) : Records D w a v := by
  cases a with
  | tick time =>
    rw [step] at h
    split_ifs at h with htime
    cases h
    exact .tick htime
  | outside o => exact .outside h (idle_of_attempt List.mem_cons_self h)
  | call sender env c =>
    rw [step] at h
    split_ifs at h with hsender
    rw [not_or] at hsender
    split at h
    case h_1 u hr =>
      cases h
      obtain ⟨d, n, hfiles, hlogs⟩ := Tx.wp_ok (post_exec env sender c) hr
      exact .call hsender.1 hsender.2 hfiles hlogs
    case h_2 => cases h

theorem docket_of_tick {time : ℕ} (h : step D w (.tick time) = some v) : v.docket = w.docket := by
  cases records_of_step h with
  | tick _ => rfl

theorem docket_of_outside {o : Outside} (h : step D w (.outside o) = some v) :
    v.docket = w.docket := by
  cases records_of_step h with
  | outside _ hidle => exact hidle.docket

theorem Records.config {a : Act} (hrec : Records D w a v) :
    ReflTransGen (Rewrites D (a.acts w.scene) w.now) w.toConfig v.toConfig := by
  cases hrec with
  | tick _ => exact .refl
  | outside _ hidle => exact hidle.config
  | call _ _ _ hlogs => exact hlogs.config

theorem Records.now_le {a : Act} (hrec : Records D w a v) : w.now ≤ v.now := by
  cases hrec with
  | tick htime => exact htime
  | outside _ hidle => exact hidle.now.ge
  | call _ _ _ hlogs => exact hlogs.now.ge

theorem Records.supply {a : Act} (hrec : Records D w a v) (t : Address) :
    (v.tokens t).supply = (w.tokens t).supply := by
  cases hrec with
  | tick _ => rfl
  | outside _ hidle => exact hidle.supply t
  | call _ _ _ hlogs => exact hlogs.supply t

/-! ## What is filed about one binding -/

structure Docket.Same (d d' : Docket) (b : ℕ) : Prop where
  binding : d'.bindings b = d.bindings b
  arbitration : d'.arbitrations b = d.arbitrations b
  taskId : d'.bindingTaskId b = d.bindingTaskId b
  attested : d'.requiresAttestation b = d.requiresAttestation b

theorem Docket.Same.refl (d : Docket) (b : ℕ) : d.Same d b := ⟨rfl, rfl, rfl, rfl⟩

theorem Docket.same_revise {d : Docket} {b k : ℕ} {x : Binding} (hne : b ≠ k) :
    d.Same (d.revise k x) b :=
  ⟨update_of_ne hne _ _, rfl, rfl, rfl⟩

theorem Docket.same_arbitrate {d : Docket} {b k : ℕ} {arb : ArbitrationRecord} (hne : b ≠ k) :
    d.Same (d.arbitrate k arb) b :=
  ⟨rfl, update_of_ne hne _ _, rfl, rfl⟩

theorem Docket.same_enter {d : Docket} {b : ℕ} {x : Binding} (hne : b ≠ d.bindingCounter + 1) :
    d.Same (d.enter x) b :=
  ⟨update_of_ne hne _ _, rfl, rfl, rfl⟩

theorem Docket.same_attest {d : Docket} {b k : ℕ} {taskId : Bytes32} (hne : b ≠ k) :
    d.Same (d.attest k taskId) b :=
  ⟨rfl, rfl, update_of_ne hne _ _, update_of_ne hne _ _⟩

theorem Docket.Same.trans {d d' d'' : Docket} {b : ℕ} (h : d.Same d' b) (h' : d'.Same d'' b) :
    d.Same d'' b :=
  ⟨h'.binding.trans h.binding, h'.arbitration.trans h.arbitration, h'.taskId.trans h.taskId,
    h'.attested.trans h.attested⟩

theorem Files.same {s : Scene} {c : Call} {b : ℕ} (hf : Files D s sender c d n)
    (hnew : b ≠ s.bindingCounter + 1) (hc : c.binding ≠ some b) : s.docket.Same d b := by
  have hne : ∀ {k}, some k ≠ some b → b ≠ k := fun h heq => h (congrArg some heq.symm)
  cases hf with
  | lock | lockFor | unlock => exact .refl _ _
  | bind _ _ | bindIntent _ _ _ => exact Docket.same_enter hnew
  | bindAttested _ _ _ _ | bindIntentAttested _ _ _ =>
    exact (Docket.same_enter hnew).trans (Docket.same_attest hnew)
  | submitted | attested | finalized | enclave | refunded => exact Docket.same_revise (hne hc)
  | testified => exact Docket.same_arbitrate (hne hc)
  | disputed | autoResolved | resolved =>
    exact (Docket.same_revise (hne hc)).trans (Docket.same_arbitrate (hne hc))

/-- **What a call files about one binding**. -/
inductive Refiled (s : Scene) (sender : Address) (b : ℕ) : Binding → ArbitrationRecord → Prop
  | same : Refiled s sender b (s.bindings b) (s.arbitrations b)
  | made {i j : ℕ} {scopeHash : Bytes32} {st : BindingState} :
      st = .active ∨ st = .pending →
      Refiled s sender b (s.opening i j scopeHash st) (s.arbitrations b)
  | submitted {proofHash : Bytes32} :
      Refiled s sender b { s.bindings b with
        state := .finalizing, proofHash, settleSubmittedAt := s.now } (s.arbitrations b)
  | paid {proofHash : Bytes32} {st : BindingState} :
      st = .settled ∨ st = .refunded →
      Refiled s sender b { s.bindings b with state := st, proofHash } (s.arbitrations b)
  | disputed {evidenceHash : Bytes32} :
      Refiled s sender b
        { s.bindings b with state := .disputed, disputedAt := s.now, disputeInitiator := sender }
        { buyerEvidenceHash := evidenceHash, buyerSubmittedAt := s.now, startedAt := s.now }
  | testified {evidenceHash : Bytes32} {arb : ArbitrationRecord} :
      Testifies s sender b evidenceHash arb → Refiled s sender b (s.bindings b) arb
  | resolved {st : BindingState} :
      st = .settled ∨ st = .refunded →
      Refiled s sender b { s.bindings b with state := st }
        { s.arbitrations b with resolved := true }

theorem Docket.Same.refiled {s : Scene} {d : Docket} {b : ℕ} (h : s.docket.Same d b) :
    Refiled s sender b (d.bindings b) (d.arbitrations b) := by
  rw [h.binding, h.arbitration]
  exact .same

theorem Files.refiled {s : Scene} {c : Call} (hf : Files D s sender c d n) (b : ℕ) :
    Refiled s sender b (d.bindings b) (d.arbitrations b) := by
  -- a record that was entered, revised or resolved; the others stay
  have henter : ∀ {i j scopeHash st}, st = .active ∨ st = .pending →
      Refiled s sender b ((s.docket.enter (s.opening i j scopeHash st)).bindings b)
        (s.arbitrations b) := by
    intro i j scopeHash st hst
    by_cases hb : b = s.bindingCounter + 1
    · have hnew : (s.docket.enter (s.opening i j scopeHash st)).bindings b =
          s.opening i j scopeHash st := by
        rw [hb]
        exact update_self ..
      rw [hnew]
      exact .made hst
    · exact (Docket.same_enter hb).refiled
  have hrevise : ∀ {k x}, Refiled s sender k x (s.arbitrations k) →
      Refiled s sender b ((s.docket.revise k x).bindings b) (s.arbitrations b) := by
    intro k x hx
    by_cases hb : b = k
    · rw [hb, show (s.docket.revise k x).bindings k = x from update_self ..]
      exact hx
    · exact (Docket.same_revise hb).refiled
  have hboth : ∀ {k x arb}, Refiled s sender k x arb →
      Refiled s sender b (((s.docket.revise k x).arbitrate k arb).bindings b)
        (((s.docket.revise k x).arbitrate k arb).arbitrations b) := by
    intro k x arb hx
    by_cases hb : b = k
    · rw [hb, show ((s.docket.revise k x).arbitrate k arb).bindings k = x from
        update_self .., show ((s.docket.revise k x).arbitrate k arb).arbitrations k = arb
        from update_self ..]
      exact hx
    · exact ((Docket.same_revise hb).trans (Docket.same_arbitrate hb)).refiled
  cases hf with
  | lock | lockFor | unlock => exact .same
  | bind _ hst | bindIntent _ hst _ | bindAttested _ hst | bindIntentAttested _ hst =>
    exact henter hst
  | submitted => exact hrevise .submitted
  | attested | finalized | enclave => exact hrevise (.paid (.inl rfl))
  | refunded => exact hrevise (.paid (.inr rfl))
  | disputed => exact hboth .disputed
  | @testified k _ arb _ _ _ htest =>
    by_cases hb : b = k
    · rw [hb, show (s.docket.arbitrate k arb).arbitrations k = arb from update_self ..]
      exact .testified htest
    · exact (Docket.same_arbitrate hb).refiled
  | autoResolved _ _ _ hst => exact hboth (.resolved hst)
  | resolved => exact hboth (.resolved (.inl rfl))

end Karma.Bilateral
