import Karma.AttestationGateway.Votes
import Karma.Bilateral.Tasks

/-! # The settlement core and its attestation gateway

`KarmaBilateral` registers the parties of a new binding with `KarmaAttestationGateway`, which reads
the task of a binding from the core and calls `settle` for it. -/

namespace Karma.Attestation

open Evm Relation Function

structure Deployment where
  core : Bilateral.Deployment
  gateway : AttestationGateway.Deployment
  bilateral_eq : gateway.bilateralContract = core.self
  gateway_ne_core : gateway.self ≠ core.self
  registry_ne_core : gateway.registry.self ≠ core.self

structure State where
  core : Bilateral.World
  gateway : AttestationGateway.Storage
  verifiers : VerifierRegistry.Registry

def State.view (s : State) : AttestationGateway.World where
  toStorage := s.gateway
  verifiers := s.verifiers
  tokens := s.core.tokens
  now := s.core.now
  moves := []
  events := []

def State.put (s : State) (g : AttestationGateway.World) : State where
  core := { s.core.fresh with tokens := g.tokens }
  gateway := g.toStorage
  verifiers := g.verifiers

structure Init (D : Deployment) (s : State) : Prop where
  core : Bilateral.Init D.core s.core
  gateway : AttestationGateway.Init D.gateway s.view

def Deployment.Apart (D : Deployment) : AttestationGateway.Act → Prop
  | .gateway _ (.settleWithAttestation _ _ _ _) => False
  | .gateway sender _ | .verifiers sender _ => sender ≠ D.core.self
  | .tick _ | .erc20 _ _ _ => False

instance (D : Deployment) : DecidablePred D.Apart := fun a => by
  unfold Deployment.Apart
  split <;> infer_instance

/-- A call that foreign code makes to the gateway or its registry while the core has control, with
the token ledger that it finds. -/
structure Meanwhile where
  act : AttestationGateway.Act
  tokens : Address → Erc20 Address

inductive Act
  | tick (time : ℕ)
  | outside (o : Bilateral.Outside)
  | call (sender : Address) (env : Bilateral.Env) (c : Bilateral.Call) (others : List Meanwhile)
  | gateway (a : AttestationGateway.Act)
  | settleWithAttestation (sender : Address) (env : Bilateral.Env) (taskId : Bytes32)
      (bindingId : ℕ) (proofHash : Bytes32) (others : List Meanwhile)

/-! ## What the two answer to each other -/

def Deployment.env (D : Deployment) (s : State) (env : Bilateral.Env) : Bilateral.Env :=
  if s.core.attestationGateway = D.gateway.self then
    { env with registerTaskPublisher := { answer := some () } }
  else env

def Deployment.register (D : Deployment) (s : State) (r : Bilateral.Registration) : State :=
  match AttestationGateway.step D.gateway s.view
      (.gateway D.core.self (.registerTaskPublisher r.taskId r.buyer r.agent)) with
  | some g => { s with gateway := g.toStorage }
  | none => s

def Deployment.registrations (D : Deployment) (s : State) (w : Bilateral.World) :
    List Bilateral.Registration :=
  if s.core.attestationGateway = D.gateway.self then w.notices.registrations else []

/-- Others call the gateway while the core has control. -/
def Deployment.meanwhile (D : Deployment) (s : State) (m : Meanwhile) : State :=
  if D.Apart m.act then
    match AttestationGateway.step D.gateway { s.view with tokens := m.tokens } m.act with
    | some g => { s with gateway := g.toStorage, verifiers := g.verifiers }
    | none => s
  else s

def Deployment.settle (D : Deployment) (s : State) (env : Bilateral.Env) (bindingId : ℕ)
    (proofHash : Bytes32) : Option Bilateral.World :=
  Bilateral.step D.core s.core (.call D.gateway.self (D.env s env) (.settle bindingId proofHash))

def Deployment.answer (D : Deployment) (s : State) (env : Bilateral.Env) (bindingId : ℕ)
    (proofHash : Bytes32) : AttestationGateway.Core where
  bindingTaskId := some (s.core.bindingTaskId bindingId)
  settle := (D.settle s env bindingId proofHash).map fun _ => ()

/-- **One transaction.** -/
def step (D : Deployment) (s : State) : Act → Option State
  | .tick time => (Bilateral.step D.core s.core (.tick time)).map fun w => { s with core := w }
  | .outside o =>
    if o.sender = D.gateway.self ∨ o.sender = D.gateway.registry.self then none
    else (Bilateral.step D.core s.core (.outside o)).map fun w => { s with core := w }
  | .call sender env c others =>
    if sender = D.gateway.self ∨ sender = D.gateway.registry.self then none
    else
      (Bilateral.step D.core s.core (.call sender (D.env s env) c)).map fun w =>
        others.foldl D.meanwhile ((D.registrations s w).foldl D.register { s with core := w })
  | .gateway a =>
    if D.Apart a then (AttestationGateway.step D.gateway s.view a).map s.put else none
  | .settleWithAttestation sender env taskId bindingId proofHash others =>
    if sender = D.core.self then none
    else
      (AttestationGateway.step D.gateway s.view (.gateway sender (.settleWithAttestation
        (D.answer s env bindingId proofHash) taskId bindingId proofHash))).bind fun g =>
      (D.settle s env bindingId proofHash).map fun w =>
        others.foldl D.meanwhile { core := w, gateway := g.toStorage, verifiers := g.verifiers }

abbrev History : Type := List (Entry State Act)

abbrev Reach (D : Deployment) : History → State → Prop := Run (Init D) (step D)

variable {D : Deployment} {s s' : State} {a : Act}

/-! ## What the gateway's side of a transaction does -/

/-- The gateway or its registry answers a call that does not concern the core. -/
def Answers (D : Deployment) (acts : List AttestationGateway.Act)
    (g g' : AttestationGateway.Storage) : Prop :=
  ∃ a ∈ acts, D.Apart a ∧ ∃ w w', AttestationGateway.Transition D.gateway w a w' ∧
    w.toStorage = g ∧ w'.toStorage = g'

def Act.answered : Act → List AttestationGateway.Act
  | .gateway a => [a]
  | .call _ _ _ others | .settleWithAttestation _ _ _ _ _ others => others.map Meanwhile.act
  | _ => []

def enroll (r : Bilateral.Registration) (g : AttestationGateway.Storage) :
    AttestationGateway.Storage :=
  { g with
    taskPublishers := update g.taskPublishers r.taskId
      (update (update (g.taskPublishers r.taskId) r.buyer true) r.agent true) }

theorem register_eq (D : Deployment) (s : State) (r : Bilateral.Registration) :
    D.register s r = { s with gateway := enroll r s.gateway } := by
  have hcore : ¬ (some D.core.self = some D.gateway.self ∨
      some D.core.self = some D.gateway.registry.self ∨ some D.core.self = some 0) := by
    simp [D.gateway_ne_core.symm, D.registry_ne_core.symm, D.core.self_ne_zero]
  have hexec : AttestationGateway.exec D.gateway D.core.self
      (.registerTaskPublisher r.taskId r.buyer r.agent) s.view.fresh = ⟨[], .ok ((), { s.view with
        toStorage := enroll r s.gateway
        events := [.taskPublishersRegistered r.taskId r.buyer r.agent] })⟩ := by
    apply Tx.eq_ok_of_wp
    simp only [AttestationGateway.exec, AttestationGateway.registerTaskPublisher, Tx.wp_bind,
      Tx.wp_revertIf, AttestationGateway.wp_write, AttestationGateway.wp_emit]
    exact ⟨fun hne => hne D.bilateral_eq.symm, fun _ => ⟨trivial, rfl⟩⟩
  simp only [Deployment.register, AttestationGateway.step, AttestationGateway.Act.sender,
    if_neg hcore, hexec]

theorem foldl_register (D : Deployment) (s : State) (rs : List Bilateral.Registration) :
    rs.foldl D.register s = { s with gateway := rs.foldl (fun g r => enroll r g) s.gateway } := by
  induction rs generalizing s with
  | nil => rfl
  | cons r rs ih => rw [List.foldl_cons, register_eq, ih, List.foldl_cons]

theorem meanwhile_spec (D : Deployment) (s : State) (m : Meanwhile) :
    (D.meanwhile s m).core = s.core ∧ ((D.meanwhile s m).gateway = s.gateway ∨
      Answers D [m.act] s.gateway (D.meanwhile s m).gateway) := by
  unfold Deployment.meanwhile
  split
  case isFalse => exact ⟨rfl, .inl rfl⟩
  case isTrue hapart =>
    split
    case h_1 g hg =>
      exact ⟨rfl, .inr ⟨m.act, List.mem_cons_self, hapart, _, g,
        AttestationGateway.transition_of_step hg, rfl, rfl⟩⟩
    case h_2 => exact ⟨rfl, .inl rfl⟩

theorem foldl_meanwhile {acts : List AttestationGateway.Act} {others : List Meanwhile}
    (s : State) (hothers : ∀ m ∈ others, m.act ∈ acts) :
    (others.foldl D.meanwhile s).core = s.core ∧
      ReflTransGen (Answers D acts) s.gateway (others.foldl D.meanwhile s).gateway := by
  induction others generalizing s with
  | nil => exact ⟨rfl, .refl⟩
  | cons m others ih =>
    obtain ⟨hcore, hone⟩ := meanwhile_spec D s m
    obtain ⟨hrestcore, hrest⟩ := ih (D.meanwhile s m) fun m' hm' =>
      hothers m' (List.mem_cons_of_mem _ hm')
    rw [List.foldl_cons]
    refine ⟨hrestcore.trans hcore, ?_⟩
    rcases hone with heq | ⟨a, ha, hanswer⟩
    · rw [← heq]
      exact hrest
    · refine .head ⟨a, ?_, hanswer⟩ hrest
      rw [List.mem_singleton.mp ha]
      exact hothers m List.mem_cons_self

inductive Transition (D : Deployment) (s s' : State) : Act → Prop
  | tick {time : ℕ} :
      Bilateral.step D.core s.core (.tick time) = some s'.core → s'.gateway = s.gateway →
      Transition D s s' (.tick time)
  | outside {o : Bilateral.Outside} :
      Bilateral.step D.core s.core (.outside o) = some s'.core → s'.gateway = s.gateway →
      Transition D s s' (.outside o)
  | call {sender : Address} {env : Bilateral.Env} {c : Bilateral.Call} {others : List Meanwhile} :
      sender ≠ D.gateway.self →
      Bilateral.step D.core s.core (.call sender (D.env s env) c) = some s'.core →
      ReflTransGen (Answers D (others.map Meanwhile.act))
        ((D.registrations s s'.core).foldl (fun g r => enroll r g) s.gateway) s'.gateway →
      Transition D s s' (.call sender env c others)
  | gateway {b : AttestationGateway.Act} {g : AttestationGateway.World} :
      D.Apart b → AttestationGateway.Transition D.gateway s.view b g → s' = s.put g →
      Transition D s s' (.gateway b)
  | settled {sender : Address} {env : Bilateral.Env} {taskId proofHash : Bytes32} {bindingId : ℕ}
      {others : List Meanwhile} :
      AttestationGateway.Gates s.view taskId proofHash → s.core.bindingTaskId bindingId = taskId →
      Bilateral.step D.core s.core (.call D.gateway.self (D.env s env)
        (.settle bindingId proofHash)) = some s'.core →
      ReflTransGen (Answers D (others.map Meanwhile.act)) s.gateway s'.gateway →
      Transition D s s' (.settleWithAttestation sender env taskId bindingId proofHash others)

theorem transition_of_step (h : step D s a = some s') : Transition D s s' a := by
  cases a with
  | tick time =>
    obtain ⟨w, hw, rfl⟩ := Option.map_eq_some_iff.mp h
    exact .tick hw rfl
  | outside o =>
    rw [step] at h
    split_ifs at h
    obtain ⟨w, hw, rfl⟩ := Option.map_eq_some_iff.mp h
    exact .outside hw rfl
  | call sender env c others =>
    rw [step] at h
    split_ifs at h with hsender
    obtain ⟨w, hw, rfl⟩ := Option.map_eq_some_iff.mp h
    obtain ⟨hcore, hgateway⟩ := foldl_meanwhile
      ((D.registrations s w).foldl D.register { s with core := w }) fun m hm =>
        List.mem_map_of_mem (f := Meanwhile.act) hm
    rw [foldl_register] at hcore hgateway
    rw [foldl_register]
    refine .call (not_or.mp hsender).1 ?_ ?_
    · rw [hcore]
      exact hw
    · rw [hcore]
      exact hgateway
  | gateway b =>
    rw [step] at h
    split_ifs at h with hapart
    obtain ⟨g, hg, rfl⟩ := Option.map_eq_some_iff.mp h
    exact .gateway hapart (AttestationGateway.transition_of_step hg) rfl
  | settleWithAttestation sender env taskId bindingId proofHash others =>
    rw [step] at h
    split_ifs at h with hsender
    obtain ⟨g, hg, hrest⟩ := Option.bind_eq_some_iff.mp h
    obtain ⟨w, hw, rfl⟩ := Option.map_eq_some_iff.mp hrest
    obtain ⟨hcore, hgateway⟩ := foldl_meanwhile
      { core := w, gateway := g.toStorage, verifiers := g.verifiers } fun m hm =>
        List.mem_map_of_mem (f := Meanwhile.act) hm
    cases AttestationGateway.transition_of_step hg with
    | gateway _ he =>
      cases he with
      | settled hgates htask _ =>
        refine .settled ⟨hgates.published, hgates.proof, hgates.uncondemned, hgates.quorum,
          hgates.windowOver, hgates.overruled⟩ (Option.some.inj htask) ?_ hgateway
        rw [hcore]
        exact hw

end Karma.Attestation
