import Karma.Attestation.System

/-! # Attested bindings are paid by the quorum, or by an enclave

A binding made by `bindWithAttestation` is meant to be paid only through the gateway, past all its
gates. -/

namespace Karma.Attestation

open Evm
open Bilateral (Sound)

variable {D : Deployment} {h : History} {s s' : State} {a : Act} {b : ℕ} {x : Bytes32}

/-! ## The invariant of the core, in the system -/

structure Kept (D : Deployment) (s : State) : Prop where
  sound : Sound D.core s.core
  marked : s.core.Marked
  direct : s.core.Direct
  tagged : s.core.Tagged

theorem Kept.put {act : AttestationGateway.Act} {g : AttestationGateway.World} (hk : Kept D s)
    (hapart : D.Apart act) (ht : AttestationGateway.Transition D.gateway s.view act g) :
    Kept D (s.put g) := by
  have hsender : act.sender ≠ some D.core.self := by
    intro heq
    cases act with
    | tick | erc20 => exact hapart
    | verifiers sender c => exact hapart (Option.some.inj heq)
    | gateway sender c =>
      cases c with
      | settleWithAttestation => exact hapart
      | _ => exact hapart (Option.some.inj heq)
  have hs := hk.sound.fresh
  refine ⟨⟨⟨hs.wf.listed, hs.wf.ids, hs.wf.states⟩, hs.balanced, fun t => ?_, hs.now⟩, hk.marked,
    hk.direct, hk.tagged⟩
  exact ht.backs D.gateway_ne_core.symm D.registry_ne_core.symm hsender (hk.sound.solvent t)

theorem Kept.core {act : Bilateral.Act} (hk : Kept D s)
    (hstep : Bilateral.step D.core s.core act = some s'.core) : Kept D s' := by
  have hturn := Bilateral.taskTurn_of_step hk.sound hstep
  exact ⟨(Bilateral.transition_of_step hk.sound hstep).sound hk.sound,
    hturn.marked hk.sound hstep hk.marked,
    Bilateral.direct_of_step hk.sound hstep hk.marked hk.direct,
    Bilateral.tagged_of_step hstep hk.tagged⟩

theorem Transition.kept (ht : Transition D s s' a) (hk : Kept D s) : Kept D s' := by
  cases ht with
  | tick hstep _ | outside hstep _ | call _ hstep _ | settled _ _ hstep _ => exact hk.core hstep
  | gateway hapart hg heq =>
    rw [heq]
    exact hk.put hapart hg

theorem Reach.kept (hr : Reach D h s) : Kept D s :=
  hr.safe (fun _ hi => ⟨hi.core.sound, hi.core.marked, hi.core.direct, hi.core.tagged⟩)
    fun _ _ _ hk hstep => (transition_of_step hstep).kept hk

theorem Transition.onTask (ht : Transition D s s' a) (hk : Kept D s) (hb : s.core.OnTask b x) :
    s'.core.OnTask b x ∧ s'.core.buyerOf b = s.core.buyerOf b ∧
      s'.core.agentOf b = s.core.agentOf b := by
  have hcore : ∀ {act}, Bilateral.step D.core s.core act = some s'.core →
      s'.core.OnTask b x ∧ s'.core.buyerOf b = s.core.buyerOf b ∧
        s'.core.agentOf b = s.core.agentOf b := by
    intro act hstep
    have hturn := Bilateral.taskTurn_of_step hk.sound hstep
    exact ⟨hturn.kept hk.sound hk.marked hb,
      (Bilateral.parties_of_step hk.sound hstep (hk.marked b hb.flagged)).2⟩
  cases ht with
  | tick hstep _ | outside hstep _ | call _ hstep _ | settled _ _ hstep _ => exact hcore hstep
  | gateway _ _ heq =>
    rw [heq]
    exact ⟨⟨hb.flagged, hb.task⟩, rfl, rfl⟩

/-! ## Payments -/

/-- In the transaction `e` the locked amounts of binding `b` are paid to its agent. -/
structure Pays (b : ℕ) (e : Entry State Act) : Prop where
  live : (e.pre.core.bindings b).Live
  settled : (e.post.core.bindings b).state = .settled

def ByQuorum (D : Deployment) (b : ℕ) (e : Entry State Act) : Prop :=
  ∃ sender env taskId proofHash others,
    e.act = .settleWithAttestation sender env taskId b proofHash others ∧
    e.pre.core.attestationGateway = D.gateway.self ∧ e.pre.core.bindingTaskId b = taskId ∧
    AttestationGateway.Gates e.pre.view taskId proofHash

def ByEnclave (b : ℕ) (e : Entry State Act) : Prop :=
  ∃ sender env proofHash att others,
    e.act = .call sender env (.settleWithTEE b proofHash att) others

theorem Kept.route {sender : Address} {env : Bilateral.Env} {c : Bilateral.Call} (hk : Kept D s)
    (hb : s.core.OnTask b x) (hlive : (s.core.bindings b).Live)
    (hstep : Bilateral.step D.core s.core (.call sender env c) = some s'.core)
    (hsettled : (s'.core.bindings b).state = .settled) :
    (∃ proofHash, c = .settle b proofHash ∧ sender = s.core.attestationGateway) ∨
      ∃ proofHash att, c = .settleWithTEE b proofHash att := by
  cases Bilateral.records_of_step hstep with
  | call _ _ hf hlogs =>
    have hpost : s'.core.bindings b = _ :=
      congrFun (congrArg Bilateral.Docket.bindings hlogs.docket) b
    rw [hpost] at hsettled
    exact hf.settles hk.direct hb.flagged (hk.sound.ne_new hlive.1) hlive.2 hsettled

theorem not_pays_of_docket (hsame : s'.core.docket = s.core.docket) : ¬ Pays b ⟨s, a, s'⟩ := by
  rintro ⟨⟨-, hopen⟩, hsettled⟩
  have hbindings : s'.core.bindings = s.core.bindings :=
    congrArg Bilateral.Docket.bindings hsame
  have hsettled' : (s.core.bindings b).state = .settled := by
    rw [← hbindings]
    exact hsettled
  have hopen' : (s.core.bindings b).state.Open := hopen
  rw [hsettled'] at hopen'
  exact hopen'

theorem Transition.paid_iff (ht : Transition D s s' a) (hk : Kept D s) (hb : s.core.OnTask b x)
    (hp : Pays b ⟨s, a, s'⟩) :
    ByQuorum D b ⟨s, a, s'⟩ ↔
      ¬ ByEnclave b ⟨s, a, s'⟩ ∧ s.core.attestationGateway = D.gateway.self := by
  cases ht with
  | tick hstep _ => exact absurd hp (not_pays_of_docket (Bilateral.docket_of_tick hstep))
  | outside hstep _ => exact absurd hp (not_pays_of_docket (Bilateral.docket_of_outside hstep))
  | gateway _ _ heq =>
    refine absurd hp (not_pays_of_docket ?_)
    rw [heq]
    rfl
  | @call sender env c others hsender hstep _ =>
    -- the gateway itself makes no other call; an enclave pays, or another gateway
    have hnot : ¬ ByQuorum D b ⟨s, .call sender env c others, s'⟩ := by
      rintro ⟨_, _, _, _, _, hact, -⟩
      cases hact
    refine ⟨fun hq => absurd hq hnot, ?_⟩
    rintro ⟨henclave, hgateway⟩
    rcases hk.route hb hp.live hstep hp.settled with ⟨p, -, heq⟩ | ⟨p, att, rfl⟩
    · exact absurd (heq.trans hgateway) hsender
    · exact absurd ⟨sender, env, p, att, others, rfl⟩ henclave
  | @settled sender env taskId proofHash bindingId others hgates htask hstep _ =>
    rcases hk.route hb hp.live hstep hp.settled with ⟨p, hc, heq⟩ | ⟨p, att, hc⟩
    · cases hc
      constructor
      · intro _
        refine ⟨?_, heq.symm⟩
        rintro ⟨_, _, _, _, _, hact⟩
        cases hact
      · intro _
        exact ⟨sender, env, taskId, proofHash, others, rfl, heq.symm, htask, hgates⟩
    · cases hc

theorem paid_by_quorum_iff {later before : History} {c e : Entry State Act} {sender : Address}
    {env : Bilateral.Env} {i j : ℕ} {scopeHash : Bytes32} {others : List Meanwhile}
    (hr : Reach D (later ++ c :: before) s)
    (hmade : c.act = .call sender env (.bindWithAttestation i j scopeHash x) others)
    (hb : b = c.post.core.bindingCounter) (he : e ∈ later) (hp : Pays b e) :
    ByQuorum D b e ↔ ¬ ByEnclave b e ∧ e.pre.core.attestationGateway = D.gateway.self := by
  obtain ⟨hbefore, hstep⟩ := Run.of_append hr
  have hon : c.post.core.OnTask b x := by
    rw [hmade] at hstep
    cases transition_of_step hstep with
    | call _ hcore _ =>
      cases Bilateral.taskTurn_of_step (Reach.kept hbefore).sound hcore with
      | same hnone _ _ => exact absurd (hnone _ _ _ rfl) (by simp [Bilateral.Call.task])
      | made htask _ hcounter hiff _ _ _ _ =>
        exact (hiff b x).mpr (.inr ⟨hb.trans hcounter, Option.some.inj htask⟩)
  -- the binding stays on its task
  obtain ⟨-, hlater⟩ := Run.since (P := fun s => s.core.OnTask b x) hr hon
    fun e' _ h' hr' hstep' hon' => ((transition_of_step hstep').onTask (Reach.kept hr') hon').1
  obtain ⟨h', hr', hstep'⟩ := Run.of_mem hr (List.mem_append_left _ he)
  exact (transition_of_step hstep').paid_iff (Reach.kept hr') (hlater e he) hp

/-! ## A sample of the system

The sample core and a gateway at address 93, with one verifier at address 50 and a quorum of one.
Signatures recover to the address that their `r` spells. -/

namespace Sample

def registry : VerifierRegistry.Deployment where
  self := .ofNat 60
  admin := .ofNat 61
  self_ne_zero := by decide
  admin_ne_zero := by decide

def gateway : AttestationGateway.Deployment where
  self := .ofNat 93
  registry := registry
  bilateralContract := Bilateral.Sample.deployment.self
  arbitrator := .ofNat 92
  windowDuration := 3600
  digest := fun _ _ _ _ => 0
  ecrecover := fun _ _ r _ => ⟨r.setWidth 160⟩
  self_ne_zero := by decide
  self_ne_registry := by decide
  bilateral_ne_zero := by decide
  arbitrator_ne_zero := by decide

def deployment : Deployment where
  core := Bilateral.Sample.deployment
  gateway := gateway
  bilateral_eq := rfl
  gateway_ne_core := by decide
  registry_ne_core := by decide

def start : State where
  core := Bilateral.Sample.start
  gateway := { challengeWindowDuration := 3600 }
  verifiers := registry.created

theorem init_start : Init deployment start :=
  ⟨Bilateral.Sample.init_start, rfl, fun _ _ => rfl⟩

def after (as : List Act) : State := (steps (step deployment) as start).getD start

def history (as : List Act) : History := record (step deployment) as start []

theorem reach (as : List Act) (has : (steps (step deployment) as start).isSome) :
    Reach deployment (history as) (after as) :=
  (Run.start init_start).stateAfter has

def locks (n amount : ℕ) : List Act :=
  [.outside (.erc20 (.ofNat n) Bilateral.Sample.token (.approve deployment.core.self amount)),
    .call (.ofNat n) {} (.lock Bilateral.Sample.token amount) []]

def setup : List Act :=
  [.outside (.core deployment.core.admin (.setTokenAllowed Bilateral.Sample.token true)),
    .outside (.core deployment.core.admin (.setAttestationGateway gateway.self)),
    .gateway (.verifiers registry.admin (.setThresholds 1 1)),
    .gateway (.verifiers registry.admin (.registerVerifier (.ofNat 50) "" 0)),
    .gateway (.verifiers registry.admin (.setAuthorizedCaller gateway.self true))]

def binds (n i j : ℕ) (x : Bytes32) : Act :=
  .call (.ofNat n) {} (.bindWithAttestation i j 0#256 x) []

def locked : List Act := setup ++ locks 10 100 ++ locks 11 50

def attesting (n : ℕ) : List Act :=
  [.gateway (.gateway (.ofNat n) (.publishEvidence 7#256 9#256 "cid")),
    .gateway (.gateway (.ofNat 50) (.submitAttestation 7#256 27 50 0 true)), .tick 4000]

def settles (b : ℕ) : Act := .settleWithAttestation (.ofNat 6) {} 7#256 b 9#256 []

def enclave : List Act :=
  [.outside (.core deployment.core.admin (.setTEEVerifier (.ofNat 70))), .tick 1900]

def enclaveSettles : Act :=
  .call (.ofNat 6) { verifySettlement := some () }
    (.settleWithTEE 1 0#256 (some { imageHash := 0#256, v := 27, r := 0#256, s := 0#256 })) []

theorem after_of_steps {as : List Act} {v : State}
    (hv : steps (step deployment) as start = some v) :
    after as = v := by
  rw [after, hv, Option.getD_some]

def entry (mid : List Act) (last : Act) : Entry State Act where
  pre := after (locked ++ binds 10 1 2 7#256 :: mid)
  act := last
  post := after (locked ++ binds 10 1 2 7#256 :: (mid ++ [last]))

def made : Entry State Act where
  pre := after locked
  act := binds 10 1 2 7#256
  post := after (locked ++ [binds 10 1 2 7#256])

theorem history_split {as bs : List Act} {a : Act}
    (hok : (steps (step deployment) (as ++ a :: bs) start).isSome) :
    history (as ++ a :: bs) = record (step deployment) bs (after (as ++ [a])) [] ++
      ⟨after as, a, after (as ++ [a])⟩ :: history as := by
  obtain ⟨v, hv⟩ := Option.isSome_iff_exists.mp hok
  obtain ⟨t, t', ht, hstep, -, hrecord⟩ := record_split (h := []) hv
  have ht' : steps (step deployment) (as ++ [a]) start = some t' := by
    rw [steps_append, ht]
    simp [steps, hstep]
  rw [after_of_steps ht, after_of_steps ht']
  exact hrecord

theorem isSome_of_append {as bs : List Act}
    (hok : (steps (step deployment) (as ++ bs) start).isSome) :
    (steps (step deployment) as start).isSome := by
  rw [steps_append] at hok
  exact Option.isSome_of_isSome_bind hok

theorem entries (mid : List Act) (last : Act)
    (hok : (steps (step deployment) (locked ++ binds 10 1 2 7#256 :: (mid ++ [last]))
      start).isSome) :
    ∃ later before, Reach deployment ((entry mid last :: later) ++ made :: before)
      (entry mid last).post := by
  have hreach := reach _ hok
  have hassoc : locked ++ binds 10 1 2 7#256 :: (mid ++ [last]) =
      (locked ++ binds 10 1 2 7#256 :: mid) ++ last :: [] := by simp
  have hhistory : history (locked ++ binds 10 1 2 7#256 :: (mid ++ [last])) =
      entry mid last :: history (locked ++ binds 10 1 2 7#256 :: mid) := by
    rw [hassoc, history_split (hassoc ▸ hok), ← hassoc]
    rfl
  rw [hhistory, history_split (isSome_of_append (hassoc ▸ hok))] at hreach
  exact ⟨_, _, hreach⟩

end Sample

open Sample

theorem paid_by_quorum_sample : Pays 1 (entry (attesting 11) (settles 1)) ∧
      ByQuorum deployment 1 (entry (attesting 11) (settles 1)) := by
  obtain ⟨later, before, hreach⟩ := entries (attesting 11) (settles 1) (by decide +kernel)
  have hpays : Pays 1 (entry (attesting 11) (settles 1)) :=
    ⟨by decide +kernel, by decide +kernel⟩
  refine ⟨hpays, (paid_by_quorum_iff hreach rfl ?_ List.mem_cons_self hpays).mpr ⟨?_, ?_⟩⟩
  · decide +kernel
  · rintro ⟨_, _, _, _, _, hact⟩
    cases hact
  · decide +kernel

/-- **Paid by an enclave.** The sample binding is made on a task for which nobody ever publishes any
evidence. -/
theorem paid_by_enclave :
    ∃ (D : Deployment) (s : State) (later before : History) (c e : Entry State Act),
      Reach D (later ++ c :: before) s ∧
      (∃ sender env i j scopeHash x others,
        c.act = .call sender env (.bindWithAttestation i j scopeHash x) others) ∧
      e ∈ later ∧ Pays c.post.core.bindingCounter e ∧
      e.pre.core.attestationGateway = D.gateway.self ∧
      ¬ ByQuorum D c.post.core.bindingCounter e := by
  obtain ⟨later, before, hreach⟩ := entries enclave enclaveSettles (by decide +kernel)
  refine ⟨_, _, _, _, _, _, hreach, ⟨_, _, _, _, _, _, _, rfl⟩, List.mem_cons_self, ⟨?_, ?_⟩,
    ?_, ?_⟩
  · decide +kernel
  · decide +kernel
  · decide +kernel
  · rintro ⟨_, _, _, _, _, hact, -⟩
    cases hact

end Karma.Attestation
