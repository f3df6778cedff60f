import Karma.Bilateral.Parties

/-! # `KarmaBilateral` — the tasks that bindings are made on

A binding that asks for attestation is made *on a task* (`Call.task`). -/

namespace Karma.Bilateral

open Evm Function

variable {D : Deployment} {h : History} {w w' : World} {a : Act} {b : ℕ} {x : Bytes32}
  {sender : Address} {s : Scene} {c : Call} {d : Docket} {n : Notices}

def Call.task (D : Deployment) : Call → Option Bytes32
  | .bindWithAttestation _ _ _ taskId => some taskId
  | .bindWithIntent intent _ _ => if intent.verifier = 0 then none else some (D.intentHash intent)
  | _ => none

structure Ledger.OnTask (l : Ledger) (b : ℕ) (x : Bytes32) : Prop where
  flagged : l.requiresAttestation b = true
  task : l.bindingTaskId b = x

def Ledger.Party (l : Ledger) (b : ℕ) (p : Address) : Prop := p = l.buyerOf b ∨ p = l.agentOf b

def Ledger.Marked (l : Ledger) : Prop :=
  ∀ b, l.requiresAttestation b = true → (l.bindings b).createdAt ≠ 0

def Ledger.Tagged (l : Ledger) : Prop :=
  ∀ b, l.bindingTaskId b ≠ 0 → l.requiresAttestation b = true

def Ledger.Direct (l : Ledger) : Prop :=
  ∀ b, l.requiresAttestation b = true →
    (l.bindings b).state ≠ .finalizing ∧ (l.bindings b).state ≠ .disputed

structure Commissions (D : Deployment) (s : Scene) (sender : Address) (c : Call) (d : Docket)
    (n : Notices) (x : Bytes32) (i j : ℕ) : Prop where
  task : c.task D = some x
  pairs : c.pairs = some (i, j)
  offers : Offers s sender i j
  docket : ∃ scopeHash st, (st = .active ∨ st = .pending) ∧
    d = (s.docket.enter (s.opening i j scopeHash st)).attest (s.bindingCounter + 1) x
  registrations : n.registrations = if s.attestationGateway ≠ 0 then [s.registration x i j] else []

theorem Files.tasks (hf : Files D s sender c d n) :
    (c.task D = none ∧ d.requiresAttestation = s.requiresAttestation ∧
      d.bindingTaskId = s.bindingTaskId ∧ n.registrations = []) ∨
    ∃ x i j, Commissions D s sender c d n x i j := by
  cases hf with
  | bindAttested hoffers hst hgateway _ =>
    exact .inr ⟨_, _, _, rfl, rfl, hoffers, ⟨_, _, hst, rfl⟩, (if_pos hgateway).symm⟩
  | bindIntentAttested hoffers hst hverifier =>
    exact .inr ⟨_, _, _, if_neg hverifier, rfl, hoffers, ⟨_, _, hst, rfl⟩, rfl⟩
  | bindIntent _ _ hverifier => exact .inl ⟨if_pos hverifier, rfl, rfl, rfl⟩
  | _ => exact .inl ⟨rfl, rfl, rfl, rfl⟩

inductive TaskTurn (D : Deployment) (w w' : World) : Act → Prop
  | same {a : Act} : (∀ sender env c, a = .call sender env c → c.task D = none) →
      (∀ b x, w'.OnTask b x ↔ w.OnTask b x) → w'.notices.registrations = [] → TaskTurn D w w' a
  | made {sender : Address} {env : Env} {c : Call} {x : Bytes32} {i j : ℕ} :
      c.task D = some x → c.pairs = some (i, j) → w'.bindingCounter = w.bindingCounter + 1 →
      (∀ b y, w'.OnTask b y ↔ w.OnTask b y ∧ b ≠ w.bindingCounter + 1 ∨
        b = w.bindingCounter + 1 ∧ y = x) →
      (w'.bindings (w.bindingCounter + 1)).createdAt ≠ 0 →
      w'.buyerOf (w.bindingCounter + 1) = billOwner (w.bills i) →
      w'.agentOf (w.bindingCounter + 1) = billOwner (w.bills j) →
      w'.notices.registrations = (if w.attestationGateway ≠ 0 then
        [⟨x, w'.buyerOf (w.bindingCounter + 1), w'.agentOf (w.bindingCounter + 1)⟩] else []) →
      TaskTurn D w w' (.call sender env c)

theorem onTask_attest {y : Bytes32} {x₀ : Binding}
    (hd : w'.docket = (w.docket.enter x₀).attest (w.bindingCounter + 1) x) :
    w'.OnTask b y ↔ w.OnTask b y ∧ b ≠ w.bindingCounter + 1 ∨ b = w.bindingCounter + 1 ∧ y = x := by
  have hflag : w'.requiresAttestation = update w.requiresAttestation (w.bindingCounter + 1) true :=
    congrArg Docket.requiresAttestation hd
  have htask : w'.bindingTaskId = update w.bindingTaskId (w.bindingCounter + 1) x :=
    congrArg Docket.bindingTaskId hd
  by_cases hb : b = w.bindingCounter + 1
  · subst hb
    constructor
    · rintro ⟨-, hy⟩
      rw [htask, update_self] at hy
      exact .inr ⟨rfl, hy.symm⟩
    · rintro (⟨-, hne⟩ | ⟨-, rfl⟩)
      · exact absurd rfl hne
      · exact ⟨by rw [hflag, update_self], by rw [htask, update_self]⟩
  · have hiff : w'.OnTask b y ↔ w.OnTask b y := by
      constructor
      · rintro ⟨hf, ht⟩
        rw [hflag, update_of_ne hb] at hf
        rw [htask, update_of_ne hb] at ht
        exact ⟨hf, ht⟩
      · rintro ⟨hf, ht⟩
        exact ⟨by rw [hflag, update_of_ne hb, hf],
          by rw [htask, update_of_ne hb, ht]⟩
    rw [hiff]
    simp [hb]

structure SameTasks (w w' : World) : Prop where
  flag : w'.requiresAttestation = w.requiresAttestation
  task : w'.bindingTaskId = w.bindingTaskId

theorem SameTasks.of_docket {d : Docket} (hd : w'.docket = d)
    (hflag : d.requiresAttestation = w.requiresAttestation)
    (htask : d.bindingTaskId = w.bindingTaskId) : SameTasks w w' :=
  ⟨(congrArg Docket.requiresAttestation hd).trans hflag,
    (congrArg Docket.bindingTaskId hd).trans htask⟩

theorem SameTasks.onTask_iff (h : SameTasks w w') (b : ℕ) (x : Bytes32) :
    w'.OnTask b x ↔ w.OnTask b x := by
  constructor
  · rintro ⟨hf, ht⟩
    exact ⟨h.flag ▸ hf, h.task ▸ ht⟩
  · rintro ⟨hf, ht⟩
    exact ⟨h.flag ▸ hf, h.task ▸ ht⟩

theorem SameTasks.tagged (h : SameTasks w w') (ht : w.Tagged) : w'.Tagged := by
  intro b hb
  rw [h.task] at hb
  rw [h.flag]
  exact ht b hb

theorem taskTurn_of_step (hs : Sound D w) (h : step D w a = some w') : TaskTurn D w w' a := by
  have hturn := turn_of_step hs h
  cases records_of_step h with
  | tick _ =>
    refine .same ?_ (fun _ _ => .rfl) rfl
    intro _ _ _ heq
    cases heq
  | outside _ hlogs =>
    refine .same ?_ (SameTasks.of_docket hlogs.docket rfl rfl).onTask_iff hlogs.registrations
    intro _ _ _ heq
    cases heq
  | @call sender env c d n _ _ _ hf hlogs =>
    have hregs : w'.notices.registrations = n.registrations := by
      rw [hlogs.registrations]
      exact List.nil_append _
    rcases hf.tasks with ⟨htask, hflag, hid, hnone⟩ | ⟨x, i, j, hcom⟩
    · refine .same ?_ (SameTasks.of_docket hlogs.docket hflag hid).onTask_iff (hregs.trans hnone)
      intro _ _ _ heq
      cases heq
      exact htask
    · obtain ⟨scopeHash, st, -, hd⟩ := hcom.docket
      have hdocket : w'.docket = _ := hlogs.docket.trans hd
      have hbinding : w'.bindings (w.bindingCounter + 1) = w.scene.opening i j scopeHash st :=
        (congrFun (congrArg Docket.bindings hdocket) _).trans (update_self ..)
      -- the bills of the new binding keep their owners
      have hbuyer : w'.buyerOf (w.bindingCounter + 1) = billOwner (w.bills i) := by
        rw [Ledger.buyerOf, hbinding]
        exact hturn.owner hs hcom.offers.buyer
      have hagent : w'.agentOf (w.bindingCounter + 1) = billOwner (w.bills j) := by
        rw [Ledger.agentOf, hbinding]
        exact hturn.owner hs hcom.offers.agent
      have hcounter : w'.bindingCounter = w.bindingCounter + 1 :=
        congrArg Docket.bindingCounter hdocket
      refine .made hcom.task hcom.pairs hcounter (fun b y => onTask_attest hdocket) ?_ hbuyer
        hagent ?_
      · rw [hbinding]
        exact hs.now.ne'
      · rw [hregs, hcom.registrations, hbuyer, hagent]
        rfl

theorem TaskTurn.kept (ht : TaskTurn D w w' a) (hs : Sound D w) (hm : w.Marked)
    (hb : w.OnTask b x) : w'.OnTask b x := by
  cases ht with
  | same _ hiff _ => exact (hiff b x).mpr hb
  | made _ _ _ hiff _ _ _ _ => exact (hiff b x).mpr (.inl ⟨hb, hs.ne_new (hm b hb.flagged)⟩)

theorem TaskTurn.marked (ht : TaskTurn D w w' a) (hs : Sound D w) (h : step D w a = some w')
    (hm : w.Marked) : w'.Marked := by
  intro b hflag
  have hold : w.requiresAttestation b = true → (w'.bindings b).createdAt ≠ 0 := by
    intro hflag
    rw [(parties_of_step hs h (hm b hflag)).1]
    exact hm b hflag
  have hon : w'.OnTask b (w'.bindingTaskId b) := ⟨hflag, rfl⟩
  cases ht with
  | same _ hiff _ => exact hold ((hiff b _).mp hon).flagged
  | made _ _ _ hiff hcreated _ _ _ =>
    rcases (hiff b _).mp hon with ⟨hb, -⟩ | ⟨rfl, -⟩
    · exact hold hb.flagged
    · exact hcreated

theorem Init.marked (h : Init D w) : w.Marked := by
  intro b hflag
  simp [h.ledger] at hflag

theorem tagged_of_step (h : step D w a = some w') (ht : w.Tagged) : w'.Tagged := by
  cases records_of_step h with
  | tick _ => exact ht
  | outside _ hlogs => exact (SameTasks.of_docket hlogs.docket rfl rfl).tagged ht
  | call _ _ hf hlogs =>
    rcases hf.tasks with ⟨-, hflag, htask, -⟩ | ⟨x, i, j, hcom⟩
    · exact (SameTasks.of_docket hlogs.docket hflag htask).tagged ht
    · obtain ⟨scopeHash, st, -, hd⟩ := hcom.docket
      intro b hb
      by_cases hnew : b = w.bindingCounter + 1
      · exact ((onTask_attest (hlogs.docket.trans hd)).mpr (.inr ⟨hnew, rfl⟩)).flagged
      · have htask : w'.bindingTaskId b = w.bindingTaskId b :=
          (congrFun (congrArg Docket.bindingTaskId (hlogs.docket.trans hd)) b).trans
            (update_of_ne hnew ..)
        rw [htask] at hb
        exact ((onTask_attest (hlogs.docket.trans hd)).mpr (.inl ⟨⟨ht b hb, rfl⟩, hnew⟩)).flagged

theorem Init.tagged (h : Init D w) : w.Tagged := by
  intro b hb
  simp [h.ledger] at hb

/-! ## How a binding on a task is settled -/

theorem Files.direct (hf : Files D s sender c d n) (hd : s.Direct)
    (hnew : s.requiresAttestation (s.bindingCounter + 1) = false) (b : ℕ)
    (hflag : d.requiresAttestation b = true) :
    (d.bindings b).state ≠ .finalizing ∧ (d.bindings b).state ≠ .disputed := by
  by_cases hb : b = s.bindingCounter + 1
  · rcases hf.tasks with ⟨-, hsame, -, -⟩ | ⟨x, i, j, hcom⟩
    · rw [hsame, hb, hnew] at hflag
      cases hflag
    · obtain ⟨scopeHash, st, hst, rfl⟩ := hcom.docket
      have hbinding : ((s.docket.enter (s.opening i j scopeHash st)).attest (s.bindingCounter + 1)
          x).bindings b = s.opening i j scopeHash st := by
        rw [hb]
        exact update_self ..
      rw [hbinding, Scene.opening]
      rcases hst with rfl | rfl <;> simp
  · -- an older binding: it had the mark before
    have hold : s.requiresAttestation b = true := by
      rcases hf.tasks with ⟨-, hsame, -, -⟩ | ⟨x, i, j, hcom⟩
      · rwa [hsame] at hflag
      · obtain ⟨scopeHash, st, -, rfl⟩ := hcom.docket
        exact (update_of_ne hb _ _).symm.trans hflag
    obtain ⟨hfin, hdis⟩ := hd b hold
    by_cases hc : c.binding = some b
    · cases hf with
      | lock | lockFor | unlock | bind | bindIntent | bindAttested | bindIntentAttested => cases hc
      | submitted _ hordinary =>
        cases hc
        exact absurd (hold.symm.trans hordinary) (by decide)
      | attested | enclave | refunded =>
        cases hc
        simp [Docket.revise]
      | finalized hf | disputed hf =>
        cases hc
        exact absurd hf.state hfin
      | testified hf | autoResolved hf | resolved _ hf =>
        cases hc
        exact absurd hf.state hdis
    · rw [(hf.same hb hc).binding]
      exact ⟨hfin, hdis⟩

theorem direct_of_step (hs : Sound D w) (h : step D w a = some w') (hm : w.Marked)
    (hd : w.Direct) : w'.Direct := by
  have hnew : w.requiresAttestation (w.bindingCounter + 1) = false := by
    by_contra hflag
    exact hs.ne_new (hm _ (by simpa using hflag)) rfl
  cases records_of_step h with
  | tick _ => exact hd
  | outside _ hlogs =>
    intro b hflag
    have hflags : w'.requiresAttestation = w.requiresAttestation :=
      congrArg Docket.requiresAttestation hlogs.docket
    have hsame : w'.bindings = w.bindings := congrArg Docket.bindings hlogs.docket
    rw [hflags] at hflag
    rw [hsame]
    exact hd b hflag
  | call _ _ hf hlogs =>
    intro b hflag
    have hflag' : w'.docket.requiresAttestation b = true := hflag
    have hsame : w'.bindings = _ := congrArg Docket.bindings hlogs.docket
    rw [hlogs.docket] at hflag'
    rw [hsame]
    exact hf.direct hd hnew b hflag'

theorem Init.direct (h : Init D w) : w.Direct := by
  intro b hflag
  simp [h.ledger] at hflag

theorem Files.settles (hf : Files D s sender c d n) (hd : s.Direct)
    (hflag : s.requiresAttestation b = true) (hnew : b ≠ s.bindingCounter + 1)
    (hopen : (s.bindings b).state.Open) (hsettled : (d.bindings b).state = .settled) :
    (∃ proofHash, c = .settle b proofHash ∧ sender = s.attestationGateway) ∨
      ∃ proofHash att, c = .settleWithTEE b proofHash att := by
  obtain ⟨hfin, hdis⟩ := hd b hflag
  by_cases hc : c.binding = some b
  · cases hf with
    | lock | lockFor | unlock | bind | bindIntent | bindAttested | bindIntentAttested => cases hc
    | submitted _ hordinary =>
      cases hc
      exact absurd (hflag.symm.trans hordinary) (by decide)
    | attested _ _ hsender =>
      cases hc
      exact .inl ⟨_, rfl, hsender⟩
    | enclave =>
      cases hc
      exact .inr ⟨_, _, rfl⟩
    | refunded =>
      cases hc
      simp [Docket.revise] at hsettled
    | finalized hf | disputed hf =>
      cases hc
      exact absurd hf.state hfin
    | testified hf | autoResolved hf | resolved _ hf =>
      cases hc
      exact absurd hf.state hdis
  · -- nothing was filed about the binding, which was open
    rw [(hf.same hnew hc).binding] at hsettled
    have hsettled' : (s.bindings b).state = .settled := hsettled
    rw [hsettled'] at hopen
    exact hopen.elim

end Karma.Bilateral
