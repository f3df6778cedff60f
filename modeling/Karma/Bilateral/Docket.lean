import Karma.Bilateral.System

/-! # `KarmaBilateral` — what the core records about its bindings

The *docket* is what the core records beside its book. -/

namespace Karma.Bilateral

open Evm Relation Function

/-! ## The docket -/

@[ext] structure Docket where
  bindingCounter : ℕ
  bindings : ℕ → Binding
  arbitrations : ℕ → ArbitrationRecord
  bindingTaskId : ℕ → Bytes32
  requiresAttestation : ℕ → Bool

def Ledger.docket (l : Ledger) : Docket where
  bindingCounter := l.bindingCounter
  bindings := l.bindings
  arbitrations := l.arbitrations
  bindingTaskId := l.bindingTaskId
  requiresAttestation := l.requiresAttestation

def Docket.revise (d : Docket) (b : ℕ) (x : Binding) : Docket :=
  { d with bindings := update d.bindings b x }

def Docket.arbitrate (d : Docket) (b : ℕ) (arb : ArbitrationRecord) : Docket :=
  { d with arbitrations := update d.arbitrations b arb }

def Docket.enter (d : Docket) (x : Binding) : Docket :=
  { d with
    bindingCounter := d.bindingCounter + 1,
    bindings := update d.bindings (d.bindingCounter + 1) x }

def Docket.attest (d : Docket) (b : ℕ) (taskId : Bytes32) : Docket :=
  { d with
    requiresAttestation := update d.requiresAttestation b true,
    bindingTaskId := update d.bindingTaskId b taskId }

/-- **The scene**: what the checks of a guarded call read. -/
structure Scene extends Config, Ledger where
  now : ℕ

def World.scene (w : World) : Scene :=
  { toConfig := w.toConfig, toLedger := w.toLedger, now := w.now }

def Ledger.buyerOf (l : Ledger) (b : ℕ) : Address := billOwner (l.bills (l.bindings b).buyerBillId)

def Ledger.agentOf (l : Ledger) (b : ℕ) : Address := billOwner (l.bills (l.bindings b).agentBillId)

/-! ## What a guarded call files -/

structure Unsettled (s : Scene) (b : ℕ) : Prop where
  created : (s.bindings b).createdAt ≠ 0
  state : (s.bindings b).state = .active ∨ (s.bindings b).state = .pending

def DelayOver (s : Scene) (b : ℕ) : Prop :=
  (s.bindings b).state = .active → (s.bindings b).settleAfter ≤ s.now

/-- The binding exists and its dispute window was opened. -/
structure Finalizing (s : Scene) (b : ℕ) : Prop where
  created : (s.bindings b).createdAt ≠ 0
  state : (s.bindings b).state = .finalizing

structure Disputed (s : Scene) (b : ℕ) : Prop where
  created : (s.bindings b).createdAt ≠ 0
  state : (s.bindings b).state = .disputed
  started : (s.arbitrations b).startedAt ≠ 0

structure Offers (s : Scene) (sender : Address) (i j : ℕ) : Prop where
  sender : billOwner (s.bills i) = sender
  buyer : billOwner (s.bills i) ≠ 0
  agent : billOwner (s.bills j) ≠ 0

def Scene.opening (s : Scene) (i j : ℕ) (scopeHash : Bytes32) (state : BindingState) : Binding where
  bindingId := s.bindingCounter + 1
  buyerBillId := i
  agentBillId := j
  scopeHash
  state
  createdAt := s.now
  settleAfter := s.now + s.settleDelaySeconds

inductive Testifies (s : Scene) (sender : Address) (b : ℕ) (evidenceHash : Bytes32) :
    ArbitrationRecord → Prop
  | buyer : sender = s.buyerOf b → Testifies s sender b evidenceHash
      { s.arbitrations b with buyerEvidenceHash := evidenceHash, buyerSubmittedAt := s.now }
  | agent : sender = s.agentOf b → Testifies s sender b evidenceHash
      { s.arbitrations b with agentEvidenceHash := evidenceHash, agentSubmittedAt := s.now }

structure Registration where
  taskId : Bytes32
  buyer : Address
  agent : Address
  deriving DecidableEq

/-- The registration of the parties of a new binding. -/
def Scene.registration (s : Scene) (taskId : Bytes32) (i j : ℕ) : Registration :=
  ⟨taskId, billOwner (s.bills i), billOwner (s.bills j)⟩

structure Notices where
  registrations : List Registration := []
  deadlines : List Deadline := []

inductive Files (D : Deployment) (s : Scene) (sender : Address) : Call → Docket → Notices → Prop
  | lock {token : Address} {amount : ℕ} : Files D s sender (.lock token amount) s.docket {}
  | lockFor {token master : Address} {amount : ℕ} :
      Files D s sender (.lockFor token amount master) s.docket {}
  | unlock {i : ℕ} : Files D s sender (.unlock i) s.docket {}
  | bind {i j : ℕ} {scopeHash : Bytes32} {st : BindingState} :
      Offers s sender i j → st = .active ∨ st = .pending →
      Files D s sender (.bind i j scopeHash) (s.docket.enter (s.opening i j scopeHash st)) {}
  | bindAttested {i j : ℕ} {scopeHash taskId : Bytes32} {st : BindingState} :
      Offers s sender i j → st = .active ∨ st = .pending → s.attestationGateway ≠ 0 → taskId ≠ 0 →
      Files D s sender (.bindWithAttestation i j scopeHash taskId)
        ((s.docket.enter (s.opening i j scopeHash st)).attest (s.bindingCounter + 1) taskId)
        { registrations := [s.registration taskId i j] }
  | bindIntent {i j : ℕ} {intent : IntentPackage} {st : BindingState} :
      Offers s sender i j → st = .active ∨ st = .pending → intent.verifier = 0 →
      Files D s sender (.bindWithIntent intent i j)
        (s.docket.enter (s.opening i j (D.intentHash intent) st)) {}
  | bindIntentAttested {i j : ℕ} {intent : IntentPackage} {st : BindingState} :
      Offers s sender i j → st = .active ∨ st = .pending → intent.verifier ≠ 0 →
      Files D s sender (.bindWithIntent intent i j)
        ((s.docket.enter (s.opening i j (D.intentHash intent) st)).attest (s.bindingCounter + 1)
          (D.intentHash intent))
        { registrations := if s.attestationGateway ≠ 0 then
            [s.registration (D.intentHash intent) i j] else [] }
  | submitted {b : ℕ} {proofHash : Bytes32} :
      Unsettled s b → s.requiresAttestation b = false → DelayOver s b →
      sender = s.buyerOf b ∨ sender = s.agentOf b ∨ sender = s.settleOperator →
      s.now + s.optimisticDisputeWindow < 2 ^ 256 →
      Files D s sender (.settle b proofHash) (s.docket.revise b { s.bindings b with
        state := .finalizing, proofHash, settleSubmittedAt := s.now })
        { deadlines := [⟨b, s.now + s.optimisticDisputeWindow⟩] }
  | attested {b : ℕ} {proofHash : Bytes32} :
      Unsettled s b → s.requiresAttestation b = true → sender = s.attestationGateway →
      Files D s sender (.settle b proofHash)
        (s.docket.revise b { s.bindings b with state := .settled, proofHash }) {}
  | finalized {b : ℕ} :
      Finalizing s b → (s.bindings b).settleSubmittedAt + s.optimisticDisputeWindow ≤ s.now →
      Files D s sender (.finalizeSettle b)
        (s.docket.revise b { s.bindings b with state := .settled }) {}
  | enclave {b : ℕ} {proofHash : Bytes32} {att : Option TEEAttestation} :
      Unsettled s b → DelayOver s b → s.teeVerifier ≠ 0 →
      Files D s sender (.settleWithTEE b proofHash att)
        (s.docket.revise b { s.bindings b with state := .settled, proofHash }) {}
  | refunded {b : ℕ} : Unsettled s b → (s.bindings b).createdAt + s.settleTimeoutSeconds ≤ s.now →
      sender = s.buyerOf b →
      Files D s sender (.refundOnTimeout b)
        (s.docket.revise b { s.bindings b with state := .refunded }) {}
  | disputed {b : ℕ} {evidenceHash : Bytes32} :
      Finalizing s b → s.now < (s.bindings b).settleSubmittedAt + s.optimisticDisputeWindow →
      sender = s.buyerOf b →
      Files D s sender (.dispute b evidenceHash) ((s.docket.revise b { s.bindings b with
          state := .disputed, disputedAt := s.now, disputeInitiator := sender }).arbitrate b
          { buyerEvidenceHash := evidenceHash, buyerSubmittedAt := s.now, startedAt := s.now }) {}
  | testified {b : ℕ} {evidenceHash : Bytes32} {arb : ArbitrationRecord} :
      Disputed s b → (s.arbitrations b).resolved = false →
      s.now < (s.arbitrations b).startedAt + s.evidenceWindow →
      Testifies s sender b evidenceHash arb →
      Files D s sender (.submitArbitrationEvidence b evidenceHash) (s.docket.arbitrate b arb) {}
  | autoResolved {b : ℕ} {st : BindingState} : Disputed s b → (s.arbitrations b).resolved = false →
      (s.arbitrations b).startedAt + s.evidenceWindow ≤ s.now → st = .settled ∨ st = .refunded →
      Files D s sender (.autoResolveArbitration b)
        ((s.docket.revise b { s.bindings b with state := st }).arbitrate b
          { s.arbitrations b with resolved := true }) {}
  | resolved {b bps : ℕ} : sender = D.admin → Disputed s b →
      (s.arbitrations b).startedAt + s.evidenceWindow ≤ s.now →
      Files D s sender (.resolveDispute b bps)
        ((s.docket.revise b { s.bindings b with state := .settled }).arbitrate b
          { s.arbitrations b with resolved := true }) {}

/-! ## What a transaction leaves for others to see -/

def OutCall.registration : OutCall → Option Registration
  | .registerTaskPublisher taskId buyer agent => some ⟨taskId, buyer, agent⟩
  | _ => none

/-- The notices of the transaction, read off its receipt. -/
def World.notices (w : World) : Notices where
  registrations := w.calls.filterMap OutCall.registration
  deadlines := w.events.filterMap Event.deadline

/-- The calls that foreign code makes in the course of a payout. -/
def Env.payoutActs (env : Env) : List Outside :=
  env.collectAndRecord.acts ++ env.record.elim [] Reply.acts

def Call.acts (s : Scene) (env : Env) : Call → List Outside
  | .lock _ _ | .unlock _ | .bind _ _ _ | .dispute _ _ | .submitArbitrationEvidence _ _
  | .settleWithZKProof _ _ _ => []
  | .lockFor _ _ _ => env.consumeAuthorization.acts
  | .bindWithAttestation _ _ _ _ | .bindWithIntent _ _ _ => env.registerTaskPublisher.acts
  | .settle b _ => if s.requiresAttestation b = true then env.payoutActs else []
  | .finalizeSettle _ | .settleWithTEE _ _ _ | .autoResolveArbitration _ | .resolveDispute _ _
  | .refundOnTimeout _ => env.payoutActs

/-- The calls from outside that an action consists of or gives occasion to. -/
def Act.acts (s : Scene) : Act → List Outside
  | .tick _ => []
  | .outside o => [o]
  | .call _ env c => c.acts s env

def Rewrites (D : Deployment) (os : List Outside) (now : ℕ) (c c' : Config) : Prop :=
  ∃ sender call, Outside.core sender call ∈ os ∧ (call.AdminOnly → sender = D.admin) ∧
    c' = call.rewrite now c

/-- **What a stretch of a transaction leaves behind**. -/
structure Logs (D : Deployment) (os : List Outside) (w v : World) (d : Docket) (n : Notices) :
    Prop where
  docket : v.docket = d
  now : v.now = w.now
  registrations : v.notices.registrations = w.notices.registrations ++ n.registrations
  deadlines : v.notices.deadlines = w.notices.deadlines ++ n.deadlines
  config : ReflTransGen (Rewrites D os w.now) w.toConfig v.toConfig
  supply : ∀ t, (v.tokens t).supply = (w.tokens t).supply

abbrev Idle (D : Deployment) (os : List Outside) (w v : World) : Prop := Logs D os w v w.docket {}

variable {D : Deployment} {env : Env} {os : List Outside} {u v w : World} {sender : Address}
  {d : Docket} {n n' : Notices}

theorem Idle.refl (w : World) : Idle D os w w :=
  ⟨rfl, rfl, (List.append_nil _).symm, (List.append_nil _).symm, .refl, fun _ => rfl⟩

theorem Logs.append (h : Logs D os w v d n) (h' : Logs D os v u v.docket n') :
    Logs D os w u d ⟨n.registrations ++ n'.registrations, n.deadlines ++ n'.deadlines⟩ := by
  constructor
  · rw [h'.docket, h.docket]
  · rw [h'.now, h.now]
  · rw [h'.registrations, h.registrations, List.append_assoc]
  · rw [h'.deadlines, h.deadlines, List.append_assoc]
  · exact h.config.trans (h.now ▸ h'.config)
  · exact fun t => (h'.supply t).trans (h.supply t)

theorem Logs.idle (h : Logs D os w v d n) (h' : Idle D os v u) : Logs D os w u d n := by
  simpa only [List.append_nil] using h.append h'

theorem Logs.notify (h : Logs D os w v d {}) (h' : Logs D os v u v.docket n) :
    Logs D os w u d n := by
  simpa only [List.nil_append] using h.append h'

theorem Idle.trans (h : Idle D os w v) (h' : Idle D os v u) : Idle D os w u := Logs.idle h h'

theorem Idle.of_eq (hdocket : v.docket = w.docket) (hnow : v.now = w.now)
    (hcalls : v.calls = w.calls) (hevents : v.notices.deadlines = w.notices.deadlines)
    (hconfig : v.toConfig = w.toConfig) (htokens : v.tokens = w.tokens) : Idle D os w v := by
  refine ⟨hdocket, hnow, ?_, ?_, hconfig ▸ .refl, fun t => by rw [htokens]⟩
  · rw [World.notices, World.notices, hcalls]
    exact (List.append_nil _).symm
  · rw [hevents]
    exact (List.append_nil _).symm

theorem Idle.token {token x : Address} {T : Erc20 Address} {c : Erc20.Call Address}
    {ms : List Move} (hT : (w.tokens token).run x c = some T) :
    Idle D os w { w with tokens := update w.tokens token T, moves := ms } := by
  refine ⟨rfl, rfl, (List.append_nil _).symm, (List.append_nil _).symm, .refl, fun t => ?_⟩
  rcases eq_or_ne t token with rfl | hne
  · simpa using Erc20.supply_run hT
  · simp [hne]

theorem Idle.event {e : Event} (he : e.deadline = none) :
    Idle D os w { w with events := w.events ++ [e] } := by
  refine .of_eq rfl rfl rfl ?_ rfl rfl
  simp [World.notices, he]

/-! ## Foreign code files nothing -/

structure Rewritten (D : Deployment) (w : World) (sender : Address) (c : OpenCall) (v : World) :
    Prop where
  config : v.toConfig = c.rewrite w.now w.toConfig
  admin : c.AdminOnly → sender = D.admin
  ledger : v.toLedger = w.toLedger
  now : v.now = w.now
  calls : v.calls = w.calls
  deadlines : v.notices.deadlines = w.notices.deadlines
  tokens : v.tokens = w.tokens

theorem Rewritten.written {c : OpenCall} {e : Event} {cfg : Config} (he : e.deadline = none)
    (hconfig : cfg = c.rewrite w.now w.toConfig) (hadmin : c.AdminOnly → sender = D.admin) :
    Rewritten D w sender c { w with toConfig := cfg, events := w.events ++ [e] } :=
  ⟨hconfig, hadmin, rfl, rfl, rfl, by simp [World.notices, he], rfl⟩

theorem idle_of_attempt {o : Outside} (ho : o ∈ os) (h : o.attempt D w = some v) :
    Idle D os w v := by
  unfold Outside.attempt at h
  split_ifs at h
  cases o with
  | core sender c =>
    dsimp only at h
    split at h
    case h_1 u hr =>
      cases h
      obtain ⟨e, he, honly, -, rfl⟩ := Tx.wp_ok (post_openCall c) hr
      obtain ⟨hconfig, hadmin, hledger, hnow, hcalls, hdeadlines, htokens⟩ :=
        Rewritten.written (c := c) he rfl honly
      refine ⟨congrArg Ledger.docket hledger, hnow, ?_, ?_,
        .single ⟨sender, c, ho, hadmin, hconfig⟩, fun t => by rw [htokens]⟩
      · simp [World.notices]
      · rw [hdeadlines]
        exact (List.append_nil _).symm
    case h_2 => cases h
  | registry sender c =>
    dsimp only at h
    split at h
    case h_1 R hr =>
      cases h
      exact .of_eq rfl rfl rfl rfl rfl rfl
    case h_2 => cases h
  | erc20 sender token c =>
    obtain ⟨T, hT, rfl⟩ := Option.map_eq_some_iff.mp h
    exact .token hT

theorem idle_run {o : Outside} (ho : o ∈ os) (w : World) : Idle D os w (o.run D w) := by
  rw [Outside.run]
  cases h : o.attempt D w with
  | none => exact .refl w
  | some v => exact idle_of_attempt ho h

theorem post_callOut {α : Type} {Q : Option α → World → Prop} (c : OutCall) (r : Reply α)
    (hr : ∀ o ∈ r.acts, o ∈ os)
    (hQ : ∀ v, Logs D os w v w.docket { registrations := c.registration.toList } →
      v.moves = w.moves → Q r.answer v) : (callOut D c r).post Q w := by
  simp only [callOut, Tx.wp_code]
  have hlog : Logs D os w { w with calls := w.calls ++ [c] } w.docket
      { registrations := c.registration.toList } := by
    refine ⟨rfl, rfl, ?_, (List.append_nil _).symm, .refl, fun _ => rfl⟩
    cases hc : c.registration <;> simp [World.notices, hc]
  refine Tx.wp_callOut (R := fun w v => Idle D os w v ∧ v.moves = w.moves)
    (fun w => ⟨.refl w, rfl⟩) (fun _ _ _ h h' => ⟨h.1.trans h'.1, h'.2.trans h.2⟩) _
    (fun o ho w => ⟨idle_run (hr o ho) w, ?_⟩) _ _ (fun _ _ => trivial) ?_ ?_
  · rw [(foreign_run o w).moves, List.append_nil]
  · intro a v ha hv
    rw [← ha]
    exact hQ v (hlog.idle hv.1) hv.2
  · intro ha
    rw [← ha]
    exact hQ _ hlog rfl

end Karma.Bilateral
