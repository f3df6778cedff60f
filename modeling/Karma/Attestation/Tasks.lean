import Karma.Attestation.Quorum

/-! # Tasks are shared

The core keeps bindings, the gateway keeps tasks. -/

namespace Karma.Attestation

open Evm Relation
open Bilateral (billOwner)

variable {D : Deployment} {h : History} {s s' : State} {a : Act} {b : ℕ} {x y : Bytes32}
  {p : Address} {g g' : AttestationGateway.Storage} {acts : List AttestationGateway.Act}

/-! ## The gateway's side -/

/-- Nobody has voted on task `x`. -/
structure Unvoted (g : AttestationGateway.Storage) (x : Bytes32) : Prop where
  valid : g.validAttestationCount x = 0
  fail : g.failAttestationCount x = 0
  submitted : ∀ v, g.attestationSubmitted x v = false

structure Grows (acts : List AttestationGateway.Act) (g g' : AttestationGateway.Storage) :
    Prop where
  evidence : ∀ x, g'.taskEvidence x = g.taskEvidence x ∨ g.taskEvidence x = 0 ∧
    ∃ p cid, .gateway p (.publishEvidence x (g'.taskEvidence x) cid) ∈ acts ∧
      g'.taskPublishers x p = true
  votes : ∀ x, g'.taskEvidence x = 0 → Unvoted g x → Unvoted g' x

theorem Grows.of_eq (hevidence : g'.taskEvidence = g.taskEvidence)
    (hvotes : ∀ x, Unvoted g x → Unvoted g' x) : Grows acts g g' :=
  ⟨fun x => .inl (congrFun hevidence x), fun x _ => hvotes x⟩

theorem Grows.refl (g : AttestationGateway.Storage) : Grows acts g g := .of_eq rfl fun _ => id

theorem Grows.trans {g'' : AttestationGateway.Storage} (h₁ : Grows acts g g')
    (h₂ : Grows acts g' g'') (hrights : g''.taskPublishers = g'.taskPublishers) :
    Grows acts g g'' := by
  constructor
  · intro x
    rcases h₂.evidence x with heq | ⟨hzero, hpub⟩
    · rw [heq, hrights]
      exact h₁.evidence x
    · rcases h₁.evidence x with heq | ⟨hzero', -⟩
      · exact .inr ⟨heq.symm.trans hzero, hpub⟩
      · exact .inr ⟨hzero', hpub⟩
  · intro x hnone hunvoted
    have hnone' : g'.taskEvidence x = 0 := by
      rcases h₂.evidence x with heq | ⟨hzero, -⟩
      · rw [← heq, hnone]
      · exact hzero
    exact h₂.votes x hnone (h₁.votes x hnone' hunvoted)

theorem Answers.grows (ha : Answers D acts g g') :
    g'.taskPublishers = g.taskPublishers ∧ Grows acts g g' := by
  obtain ⟨a, hmem, hapart, w, w', ht, rfl, rfl⟩ := ha
  cases ht with
  | tick | erc20 => exact hapart.elim
  | verifiers => exact ⟨rfl, .refl _⟩
  | gateway _ he =>
    cases he with
    | registered hsender => exact absurd (hsender.trans D.bilateral_eq) hapart
    | settled => exact hapart.elim
    | @published taskId hash cid _ hpub hnew =>
      refine ⟨rfl, fun x => ?_, fun _ _ hunvoted => ⟨hunvoted.valid, hunvoted.fail,
        hunvoted.submitted⟩⟩
      by_cases hx : x = taskId
      · subst hx
        refine .inr ⟨hnew, _, cid, ?_, hpub⟩
        simpa using hmem
      · exact .inl (Function.update_of_ne hx ..)
    | @attested taskId _ _ _ valid _ _ _ hatt _ =>
      refine ⟨rfl, fun _ => .inl rfl, fun x hnone hbefore => ?_⟩
      have hunvoted : Unvoted w.fresh.toStorage x := hbefore
      -- a verdict is about a task with evidence
      have hx : x ≠ taskId := fun heq => hatt.published (heq ▸ hnone)
      constructor
      · cases valid <;> simp [hx, hunvoted.valid]
      · cases valid <;> simp [hx, hunvoted.fail]
      · intro v
        simp [hx, hunvoted.submitted v]
    | _ => exact ⟨rfl, .of_eq rfl fun _ hunvoted => ⟨hunvoted.valid, hunvoted.fail,
        hunvoted.submitted⟩⟩

theorem grows_of_answers (ha : ReflTransGen (Answers D acts) g g') :
    g'.taskPublishers = g.taskPublishers ∧ Grows acts g g' := by
  induction ha with
  | refl => exact ⟨rfl, .refl _⟩
  | tail _ hlast ih =>
    obtain ⟨hrights, hgrows⟩ := hlast.grows
    exact ⟨hrights.trans ih.1, ih.2.trans hgrows hrights⟩

theorem enroll_iff {r : Bilateral.Registration} : (enroll r g).taskPublishers y p = true ↔
      g.taskPublishers y p = true ∨ y = r.taskId ∧ (p = r.buyer ∨ p = r.agent) := by
  by_cases hy : y = r.taskId
  · subst hy
    by_cases hagent : p = r.agent
    · simp [enroll, hagent]
    · by_cases hbuyer : p = r.buyer
      · subst hbuyer
        simp [enroll, hagent]
      · simp [enroll, hagent, hbuyer]
  · simp [enroll, hy]

/-! ## Both sides -/

def Act.task (D : Deployment) : Act → Option Bytes32
  | .call _ _ c _ => c.task D.core
  | _ => none

def Act.pairs : Act → Option (ℕ × ℕ)
  | .call _ _ c _ => c.pairs
  | _ => none

/-- **What a transaction does to the tasks**, on both sides. -/
inductive Turn (D : Deployment) (s s' : State) (a : Act) : Prop
  | same : a.task D = none → (∀ b x, s'.core.OnTask b x ↔ s.core.OnTask b x) →
      s'.gateway.taskPublishers = s.gateway.taskPublishers →
      Grows a.answered s.gateway s'.gateway → Turn D s s' a
  | made (x : Bytes32) (i j : ℕ) : a.task D = some x → a.pairs = some (i, j) →
      (∀ b y, s'.core.OnTask b y ↔ s.core.OnTask b y ∨ b = s.core.bindingCounter + 1 ∧ y = x) →
      (∀ p, s'.core.Party (s.core.bindingCounter + 1) p ↔
        p = billOwner (s.core.bills i) ∨ p = billOwner (s.core.bills j)) →
      (∀ y p, s'.gateway.taskPublishers y p = true ↔ s.gateway.taskPublishers y p = true ∨
        s.core.attestationGateway = D.gateway.self ∧ y = x ∧
          (p = billOwner (s.core.bills i) ∨ p = billOwner (s.core.bills j))) →
      Grows a.answered s.gateway s'.gateway → Turn D s s' a

theorem Turn.grows (ht : Turn D s s' a) : Grows a.answered s.gateway s'.gateway := by
  cases ht with
  | same _ _ _ hgrows | made _ _ _ _ _ _ _ _ hgrows => exact hgrows

theorem Turn.publisher (ht : Turn D s s' a) (hp : s.gateway.taskPublishers x p = true) :
    s'.gateway.taskPublishers x p = true := by
  cases ht with
  | same _ _ hrights _ => rw [hrights, hp]
  | made _ _ _ _ _ _ _ hrights _ => exact (hrights x p).mpr (.inl hp)

theorem Turn.of_core {act : Bilateral.Act} (hk : Kept D s)
    (hstep : Bilateral.step D.core s.core act = some s'.core)
    (hact : ∀ sender env c, act = .call sender env c → c.task D.core = none)
    (htask : a.task D = none)
    (hgateway : s'.core.notices.registrations = [] →
      ReflTransGen (Answers D a.answered) s.gateway s'.gateway) : Turn D s s' a := by
  cases Bilateral.taskTurn_of_step hk.sound hstep with
  | same _ hiff hregs =>
    obtain ⟨hrights, hgrows⟩ := grows_of_answers (hgateway hregs)
    exact .same htask hiff hrights hgrows
  | made hmade => exact absurd (hact _ _ _ rfl) (by simp [hmade])

theorem turn_of_step (hk : Kept D s) (hstep : step D s a = some s') : Turn D s s' a := by
  cases transition_of_step hstep with
  | tick hcore hsame | outside hcore hsame =>
    refine .of_core hk hcore (fun _ _ _ heq => ?_) rfl fun _ => ?_
    · cases heq
    · rw [hsame]
  | settled _ _ hcore hanswers =>
    refine .of_core hk hcore (fun _ _ _ heq => ?_) rfl fun _ => hanswers
    cases heq
    rfl
  | @gateway act g hapart ht heq =>
    subst heq
    have hanswer : Answers D [act] s.gateway (s.put g).gateway :=
      ⟨act, List.mem_cons_self, hapart, _, g, ht, rfl, rfl⟩
    obtain ⟨hrights, hgrows⟩ := hanswer.grows
    exact .same rfl (fun b x => Iff.intro (fun hb => ⟨hb.flagged, hb.task⟩)
      fun hb => ⟨hb.flagged, hb.task⟩) hrights hgrows
  | @call sender env c others _ hcore hanswers =>
    obtain ⟨hrights, hgrows⟩ := grows_of_answers hanswers
    cases Bilateral.taskTurn_of_step hk.sound hcore with
    | same hnone hiff hregs =>
      have hempty : D.registrations s s'.core = [] := by
        simp [Deployment.registrations, hregs]
      rw [hempty] at hrights hgrows
      exact .same (hnone _ _ _ rfl) hiff hrights hgrows
    | @made _ _ _ x i j htask hpairs _ hiff _ hbuyer hagent hregs =>
      have hparty : ∀ p, s'.core.Party (s.core.bindingCounter + 1) p ↔
          p = billOwner (s.core.bills i) ∨ p = billOwner (s.core.bills j) := by
        intro p
        rw [Bilateral.Ledger.Party, hbuyer, hagent]
      have hon : ∀ b y, s'.core.OnTask b y ↔
          s.core.OnTask b y ∨ b = s.core.bindingCounter + 1 ∧ y = x := by
        intro b y
        rw [hiff]
        constructor
        · rintro (⟨hb, -⟩ | hnew)
          · exact .inl hb
          · exact .inr hnew
        · rintro (hb | hnew)
          · exact .inl ⟨hb, hk.sound.ne_new (hk.marked b hb.flagged)⟩
          · exact .inr hnew
      by_cases hself : s.core.attestationGateway = D.gateway.self
      · have hone : D.registrations s s'.core =
            [⟨x, billOwner (s.core.bills i), billOwner (s.core.bills j)⟩] := by
          rw [Deployment.registrations, if_pos hself, hregs, hbuyer, hagent, hself,
            if_pos D.gateway.self_ne_zero]
        rw [hone] at hrights hgrows
        refine .made x i j htask hpairs hon hparty (fun y p => ?_)
          ⟨hgrows.evidence, fun y hnone hunvoted => hgrows.votes y hnone ⟨hunvoted.valid,
            hunvoted.fail, hunvoted.submitted⟩⟩
        rw [hrights]
        simp only [List.foldl_cons, List.foldl_nil, hself, true_and]
        exact enroll_iff
      · have hempty : D.registrations s s'.core = [] := if_neg hself
        rw [hempty] at hrights hgrows
        refine .made x i j htask hpairs hon hparty (fun y p => ?_) hgrows
        rw [hrights]
        simp [hself]

/-! ## What holds in every run -/

def Published (h : History) (s : State) (x : Bytes32) (p : Address) : Prop :=
  ∃ e ∈ h, ∃ cid, .gateway p (.publishEvidence x (s.gateway.taskEvidence x) cid) ∈ e.act.answered ∧
    e.pre.gateway.taskEvidence x = 0 ∧ e.post.gateway.taskEvidence x = s.gateway.taskEvidence x

structure Filed (h : History) (s : State) : Prop where
  publishers : ∀ x p, s.gateway.taskPublishers x p = true →
    ∃ b, s.core.OnTask b x ∧ s.core.Party b p
  evidence : ∀ x, s.gateway.taskEvidence x ≠ 0 →
    ∃ p, s.gateway.taskPublishers x p = true ∧ Published h s x p
  votes : ∀ x, s.gateway.taskEvidence x = 0 → Unvoted s.gateway x

theorem Transition.party (ht : Transition D s s' a) (hk : Kept D s) (hb : s.core.OnTask b x) :
    s'.core.Party b p ↔ s.core.Party b p := by
  obtain ⟨-, hbuyer, hagent⟩ := ht.onTask hk hb
  rw [Bilateral.Ledger.Party, Bilateral.Ledger.Party, hbuyer, hagent]

theorem Filed.step (hf : Filed h s) (hk : Kept D s) (hstep : step D s a = some s') :
    Filed (⟨s, a, s'⟩ :: h) s' := by
  have hturn := turn_of_step hk hstep
  have htrans := transition_of_step hstep
  constructor
  · intro x p hp
    -- an old publisher has an old binding, a new one the new binding
    have hold : s.gateway.taskPublishers x p = true →
        ∃ b, s'.core.OnTask b x ∧ s'.core.Party b p := by
      intro hp
      obtain ⟨b, hb, hparty⟩ := hf.publishers x p hp
      exact ⟨b, (htrans.onTask hk hb).1, (htrans.party hk hb).mpr hparty⟩
    cases hturn with
    | same _ _ hrights _ =>
      rw [hrights] at hp
      exact hold hp
    | made y i j _ _ hon hparty hrights _ =>
      rcases (hrights x p).mp hp with hp | ⟨-, rfl, howner⟩
      · exact hold hp
      · exact ⟨_, (hon _ _).mpr (.inr ⟨rfl, rfl⟩), (hparty p).mpr howner⟩
  · intro x hpub
    rcases hturn.grows.evidence x with heq | ⟨hnone, p, cid, hmem, hp⟩
    · obtain ⟨p, hp, e, he, cid, hmem, hpre, hpost⟩ := hf.evidence x (heq ▸ hpub)
      refine ⟨p, hturn.publisher hp, e, List.mem_cons_of_mem _ he, cid, ?_, hpre, ?_⟩
      · rw [heq]
        exact hmem
      · rw [heq]
        exact hpost
    · exact ⟨p, hp, _, List.mem_cons_self, cid, hmem, hnone, rfl⟩
  · intro x hnone
    have hbefore : s.gateway.taskEvidence x = 0 := by
      rcases hturn.grows.evidence x with heq | ⟨hzero, -⟩
      · rw [← heq, hnone]
      · exact hzero
    exact hturn.grows.votes x hnone (hf.votes x hbefore)

theorem Reach.filed (hr : Reach D h s) : Filed h s := by
  apply hr.invariant (P := Filed)
  · intro s hinit
    have hstorage : s.gateway = _ := hinit.gateway.storage
    constructor
    · intro x p hp
      simp [hstorage] at hp
    · intro x hpub
      simp [hstorage] at hpub
    · intro x _
      rw [hstorage]
      exact ⟨rfl, rfl, fun _ => rfl⟩
  · intro h s a s' hr hf hstep
    exact hf.step (Reach.kept hr) hstep

theorem Filed.binding (hf : Filed h s) (hpub : s.gateway.taskEvidence x ≠ 0) :
    ∃ b, s.core.OnTask b x := by
  obtain ⟨p, hp, -⟩ := hf.evidence x hpub
  obtain ⟨b, hb, -⟩ := hf.publishers x p hp
  exact ⟨b, hb⟩

theorem Reach.onTask (hr : Reach D h s) {e : Entry State Act} (he : e ∈ h)
    (hb : e.post.core.OnTask b x) : s.core.OnTask b x := by
  obtain ⟨later, before, rfl⟩ := List.append_of_mem he
  exact (Run.since (P := fun s => s.core.OnTask b x) hr hb
    fun e' _ h' hr' hstep' hon => ((transition_of_step hstep').onTask (Reach.kept hr') hon).1).1

/-! ## One binding for each task -/

/-- The transaction settles binding `b` on the evidence and the verdicts of task `x`. -/
def Settles (x : Bytes32) (b : ℕ) (e : Entry State Act) : Prop :=
  ∃ sender env proofHash others, e.act = .settleWithAttestation sender env x b proofHash others

structure Untouched (g : AttestationGateway.Storage) (x : Bytes32) : Prop extends Unvoted g x where
  evidence : g.taskEvidence x = 0

/-- If the transaction makes a binding on a task, the task is a new one. -/
def Fresh (D : Deployment) (e : Entry State Act) : Prop :=
  ∀ x, e.act.task D = some x → x ≠ 0 ∧ ∀ b, ¬ e.pre.core.OnTask b x

structure Own (s : State) : Prop where
  nonzero : ∀ {b x}, s.core.OnTask b x → x ≠ 0
  unique : ∀ {b b' x}, s.core.OnTask b x → s.core.OnTask b' x → b = b'

theorem Own.turn (ho : Own s) (ht : Turn D s s' a) (hfresh : Fresh D ⟨s, a, s'⟩) : Own s' := by
  cases ht with
  | same _ hon _ _ =>
    constructor
    · intro b x hb
      exact ho.nonzero ((hon b x).mp hb)
    · intro b b' x hb hb'
      exact ho.unique ((hon b x).mp hb) ((hon b' x).mp hb')
  | made y i j htask _ hon _ _ _ =>
    obtain ⟨hne, hnew⟩ := hfresh y htask
    constructor
    · intro b x hb
      rcases (hon b x).mp hb with hb | ⟨-, rfl⟩
      · exact ho.nonzero hb
      · exact hne
    · intro b b' x hb hb'
      rcases (hon b x).mp hb with hb | ⟨rfl, rfl⟩
      · rcases (hon b' x).mp hb' with hb' | ⟨rfl, rfl⟩
        · exact ho.unique hb hb'
        · exact absurd hb (hnew b)
      · rcases (hon b' x).mp hb' with hb' | ⟨rfl, -⟩
        · exact absurd hb' (hnew b')
        · rfl

theorem Reach.own (hr : Reach D h s) (hfresh : ∀ e ∈ h, Fresh D e) : Own s := by
  revert hfresh
  apply hr.invariant (P := fun h s => (∀ e ∈ h, Fresh D e) → Own s)
  · intro s hinit _
    have hmarked : ∀ {b x}, ¬ s.core.OnTask b x := by
      intro b x hb
      have hflag := hb.flagged
      simp [hinit.core.ledger] at hflag
    exact ⟨fun hb => absurd hb hmarked, fun hb => absurd hb hmarked⟩
  · intro h s a s' hr ih hstep hfresh
    have ho : Own s := ih fun e he => hfresh e (List.mem_cons_of_mem _ he)
    exact ho.turn (turn_of_step (Reach.kept hr) hstep) (hfresh _ List.mem_cons_self)

theorem Reach.settles (hr : Reach D h s) (ho : Own s) {e : Entry State Act} (he : e ∈ h)
    (hs : Settles x b e) : s.core.OnTask b x := by
  obtain ⟨h', hr', hstep⟩ := Run.of_mem hr he
  obtain ⟨sender, env, proofHash, others, hact⟩ := hs
  have hnow : ∀ {b}, e.pre.core.OnTask b x → s.core.OnTask b x := fun hb =>
    hr.onTask he ((transition_of_step hstep).onTask (Reach.kept hr') hb).1
  rw [hact] at hstep
  cases transition_of_step hstep with
  | settled hgates htask _ _ =>
    obtain ⟨b₀, hb₀⟩ := (Reach.filed hr').binding hgates.published
    -- so the task is not the zero task, that of the bindings without attestation
    have htagged : e.pre.core.bindingTaskId b ≠ 0 := by
      rw [htask]
      exact ho.nonzero (hnow hb₀)
    exact hnow ⟨(Reach.kept hr').tagged b htagged, htask⟩

theorem settled_on_own_quorum (hr : Reach D h s) (hfresh : ∀ e ∈ h, Fresh D e)
    {e : Entry State Act} (he : e ∈ h) (hs : Settles x b e) :
    (∀ e' ∈ h, (e'.post.core.bindings b).createdAt = 0 → Untouched e'.post.gateway x) ∧
      ∀ e' ∈ h, ∀ b', Settles x b' e' → b' = b := by
  have ho := hr.own hfresh
  have hb := hr.settles ho he hs
  constructor
  · intro e' he' huncreated
    obtain ⟨h', hr', hstep⟩ := Run.of_mem hr he'
    have hfiled := Reach.filed (hr'.next hstep)
    have hnone : e'.post.gateway.taskEvidence x = 0 := by
      by_contra hpub
      -- the evidence is for a binding on the task, which is this one
      obtain ⟨b₁, hb₁⟩ := hfiled.binding hpub
      obtain rfl := ho.unique (hr.onTask he' hb₁) hb
      exact (Reach.kept (hr'.next hstep)).marked b₁ hb₁.flagged huncreated
    exact ⟨hfiled.votes x hnone, hnone⟩
  · intro e' he' b' hs'
    exact ho.unique (hr.settles ho he' hs') hb

namespace Sample

theorem mem_history {as bs cs : List Act} {a : Act} (heq : cs = as ++ a :: bs)
    (hok : (steps (step deployment) cs start).isSome) :
    ⟨after as, a, after (as ++ [a])⟩ ∈ history cs := by
  subst heq
  rw [history_split hok]
  exact List.mem_append_right _ List.mem_cons_self

def quorum : List Act := locked ++ binds 10 1 2 7#256 :: (attesting 11 ++ [settles 1])

theorem not_onTask {as : List Act} (hok : (steps (step deployment) as start).isSome)
    (hnone : (after as).core.bindingCounter = 0) : ¬ (after as).core.OnTask b x := by
  intro hb
  have hk := Reach.kept (reach as hok)
  obtain ⟨hpos, hle⟩ := (hk.sound.balanced.paired.binding_iff b).mp (hk.marked b hb.flagged)
  have hle' : b ≤ (after as).core.bindingCounter := hle
  omega

theorem history_forall {P : Entry State Act → Prop} {bs : List Act}
    (hok : (steps (step deployment) (locked ++ binds 10 1 2 7#256 :: bs) start).isSome)
    (hbs : ∀ a ∈ bs, a.task deployment = none)
    (hidle : ∀ a s s', a.task deployment = none → P ⟨s, a, s'⟩) (hmade : P made) :
    ∀ e ∈ history (locked ++ binds 10 1 2 7#256 :: bs), P e := by
  intro e he
  rw [history_split hok] at he
  rcases List.mem_append.mp he with he | he
  · refine record_forall (P := P) (fun _ hnil => ?_) (fun a ha s s' => hidle a s s' (hbs a ha)) e he
    cases hnil
  · rcases List.mem_cons.mp he with rfl | he
    · exact hmade
    · refine record_forall (P := P) (fun _ hnil => ?_) (fun a ha s s' => hidle a s s' ?_) e he
      · cases hnil
      · revert a
        decide +kernel

theorem quorum_ok : (steps (step deployment) quorum start).isSome := by decide +kernel

theorem quorum_fresh : ∀ e ∈ history quorum, Fresh deployment e := by
  refine history_forall quorum_ok (by decide +kernel) (fun a s s' hnone x hx => ?_) ?_
  · cases hnone.symm.trans hx
  · intro x hx
    cases hx
    exact ⟨by decide, fun b => not_onTask (by decide +kernel) (by decide +kernel)⟩

end Sample

open Sample

theorem settled_on_own_quorum_sample : (∃ e ∈ history quorum, Settles 7#256 1 e) ∧
      ∀ e ∈ history quorum,
        (e.post.core.bindings 1).createdAt = 0 → Untouched e.post.gateway 7#256 := by
  have hlast : quorum = (locked ++ binds 10 1 2 7#256 :: attesting 11) ++ [settles 1] := by
    simp [quorum]
  have he := mem_history hlast quorum_ok
  refine ⟨⟨_, he, _, _, _, _, rfl⟩, ?_⟩
  exact (settled_on_own_quorum (reach _ quorum_ok) quorum_fresh he ⟨_, _, _, _, rfl⟩).1

namespace Sample

def attestedOnce : List Act :=
  locked ++ locks 10 100 ++ locks 11 50 ++ binds 10 1 2 7#256 :: attesting 11

def settledTwice : List Act :=
  attestedOnce ++ [settles 1, binds 10 3 4 7#256, .tick 8000, settles 2]

end Sample

/-- **Two bindings, one quorum.** The second binding of the sample is made on the task of the first,
when evidence and verdict are there already, and is settled on them like the first. -/
theorem two_bindings_one_quorum :
    ∃ (D : Deployment) (h : History) (s : State) (e e' : Entry State Act) (x : Bytes32) (b b' : ℕ),
      Reach D h s ∧ e ∈ h ∧ e' ∈ h ∧ Settles x b e ∧ Settles x b' e' ∧ b ≠ b' ∧
      (e.post.core.bindings b').createdAt = 0 ∧ ¬ Untouched e.post.gateway x := by
  have hok : (steps (step deployment) settledTwice start).isSome := by
    decide +kernel
  have hlast : settledTwice = (attestedOnce ++
      [settles 1, binds 10 3 4 7#256, .tick 8000]) ++ [settles 2] := by
    simp [settledTwice]
  refine ⟨_, _, _, _, _, 7#256, 1, 2, reach _ hok, mem_history rfl hok,
    mem_history hlast hok, ⟨_, _, _, _, rfl⟩, ⟨_, _, _, _, rfl⟩, by decide, ?_, ?_⟩
  · decide +kernel
  · intro huntouched
    have hpub : (after (attestedOnce ++ [settles 1])).gateway.taskEvidence
        7#256 ≠ 0 := by decide +kernel
    exact hpub huntouched.evidence

/-! ## The publishers of a task -/

/-- If the transaction makes a binding on a task, this gateway is told, unless the task is in use
already. -/
def SameParties (D : Deployment) (e : Entry State Act) : Prop :=
  ∀ x i j, e.act.task D = some x → e.act.pairs = some (i, j) →
    (e.pre.core.attestationGateway = D.gateway.self ∨ ∃ b, e.pre.core.OnTask b x) ∧
    ∀ b, e.pre.core.OnTask b x → ∀ p, e.pre.core.Party b p ↔
      p = billOwner (e.pre.core.bills i) ∨ p = billOwner (e.pre.core.bills j)

def Exact (s : State) : Prop :=
  ∀ b x, s.core.OnTask b x → ∀ p, s.gateway.taskPublishers x p = true ↔ s.core.Party b p

theorem Exact.step_iff (he : Exact s) (hf : Filed h s) (hk : Kept D s)
    (hstep : step D s a = some s') : Exact s' ↔ SameParties D ⟨s, a, s'⟩ := by
  have hparty : ∀ {b x p}, s.core.OnTask b x → (s'.core.Party b p ↔ s.core.Party b p) := by
    intro b x p hb
    exact (transition_of_step hstep).party hk hb
  cases turn_of_step hk hstep with
  | same htask hon hrights _ =>
    constructor
    · intro _ x i j hx
      cases htask.symm.trans hx
    · intro _ b x hb p
      have hb' := (hon b x).mp hb
      rw [hrights, hparty hb']
      exact he b x hb' p
  | made x i j htask hpairs hon howners hrights _ =>
    constructor
    · intro he' x' i' j' hx' hij'
      obtain rfl := Option.some.inj (htask.symm.trans hx')
      obtain ⟨rfl, rfl⟩ := Prod.mk.inj (Option.some.inj (hpairs.symm.trans hij'))
      have hnew := he' _ x ((hon _ x).mpr (.inr ⟨rfl, rfl⟩))
      constructor
      · -- the owner of the first bill became a publisher now, or was one for a binding
        rcases (hrights x _).mp ((hnew _).mpr ((howners _).mpr (.inl rfl))) with hold | ⟨hself, -⟩
        · obtain ⟨b, hb, -⟩ := hf.publishers x _ hold
          exact .inr ⟨b, hb⟩
        · exact .inl hself
      · intro b hb p
        have hboth := he' b x ((hon b x).mpr (.inl hb)) p
        rw [hparty hb] at hboth
        exact hboth.symm.trans ((hnew p).trans (howners p))
    · intro hsame b y hb p
      obtain ⟨htold, hreuse⟩ := hsame x i j htask hpairs
      rw [hrights y p]
      rcases (hon b y).mp hb with hb | ⟨rfl, rfl⟩
      · rw [hparty hb, he b y hb p]
        constructor
        · rintro (hp | ⟨-, rfl, howner⟩)
          · exact hp
          · exact (hreuse b hb p).mpr howner
        · exact .inl
      · rw [howners p]
        constructor
        · rintro (hp | ⟨-, -, howner⟩)
          · obtain ⟨b', hb', hp'⟩ := hf.publishers y p hp
            exact (hreuse b' hb' p).mp hp'
          · exact howner
        · intro howner
          rcases htold with hself | ⟨b', hb'⟩
          · exact .inr ⟨hself, rfl, howner⟩
          · exact .inl ((he b' y hb' p).mpr ((hreuse b' hb' p).mpr howner))

theorem Reach.exact_iff (hr : Reach D h s) :
    (∀ e ∈ h, SameParties D e) ↔ ∀ e ∈ h, Exact e.post := by
  refine (hr.invariant (P := fun h s => ((∀ e ∈ h, SameParties D e) ↔ ∀ e ∈ h, Exact e.post) ∧
    ((∀ e ∈ h, Exact e.post) → Exact s)) ?_ ?_).1
  · intro s hinit
    refine ⟨by simp, fun _ b x hb => ?_⟩
    have hflag := hb.flagged
    simp [hinit.core.ledger] at hflag
  · rintro h s a s' hr ⟨hiff, hlast⟩ hstep
    have hone : Exact s → (Exact s' ↔ SameParties D ⟨s, a, s'⟩) := fun he =>
      he.step_iff (Reach.filed hr) (Reach.kept hr) hstep
    rw [List.forall_mem_cons, List.forall_mem_cons]
    refine ⟨⟨?_, ?_⟩, fun hall => hall.1⟩
    · rintro ⟨hsame, hold⟩
      have hexact := hiff.mp hold
      exact ⟨(hone (hlast hexact)).mpr hsame, hexact⟩
    · rintro ⟨hnew, hexact⟩
      exact ⟨(hone (hlast hexact)).mp hnew, hiff.mpr hexact⟩

structure Unpoisoned (h : History) (s : State) : Prop where
  publishers : Exact s
  evidence : ∀ b x, s.core.OnTask b x → s.gateway.taskEvidence x ≠ 0 →
    ∃ p, s.core.Party b p ∧ Published h s x p

theorem Reach.unpoisoned (hr : Reach D h s) (he : Exact s) : Unpoisoned h s := by
  refine ⟨he, fun b x hb hpub => ?_⟩
  obtain ⟨p, hp, hpublished⟩ := (Reach.filed hr).evidence x hpub
  exact ⟨p, (he b x hb p).mp hp, hpublished⟩

/-- **The publishers of a task are the parties of its binding**, and so the evidence is theirs, in
every state of a run, exactly when in every transaction of the run a binding on a task is made by
the parties of the earlier bindings on the task, or on a new task with the gateway installed. -/
theorem publishers_are_parties_iff (hr : Reach D h s) : (∀ e ∈ h, SameParties D e) ↔
      ∀ later before e, h = later ++ e :: before → Unpoisoned (e :: before) e.post := by
  rw [hr.exact_iff]
  constructor
  · intro hexact later before e heq
    subst heq
    obtain ⟨hr', hstep⟩ := Run.of_append hr
    have hnow : Exact e.post := hexact e (List.mem_append_right _ List.mem_cons_self)
    exact Reach.unpoisoned (hr'.next hstep) hnow
  · intro hall e he
    obtain ⟨later, before, heq⟩ := List.append_of_mem he
    exact (hall later before e heq).publishers

theorem publishers_are_parties_sample : (after quorum).core.OnTask 1 7#256 ∧ Exact (after quorum) ∧
      ∃ p, (after quorum).core.Party 1 p ∧ Published (history quorum) (after quorum) 7#256 p := by
  have hlast : quorum = (locked ++ binds 10 1 2 7#256 :: attesting 11) ++ [settles 1] := by
    simp [quorum]
  have hsame : ∀ e ∈ history quorum, SameParties deployment e := by
    refine history_forall quorum_ok (by decide +kernel) (fun a s s' hnone x _ _ hx => ?_) ?_
    · cases hnone.symm.trans hx
    · intro x i j _ _
      refine ⟨.inl (by decide +kernel), fun b hb => absurd hb ?_⟩
      exact not_onTask (by decide +kernel) (by decide +kernel)
  have hon : (after quorum).core.OnTask 1 7#256 :=
    ⟨by decide +kernel, by decide +kernel⟩
  have hall := (publishers_are_parties_iff (reach _ quorum_ok)).mp hsame
  have hend : Unpoisoned (history quorum) (after quorum) := by
    have hsplit := history_split (hlast ▸ quorum_ok)
    rw [← hlast] at hsplit
    rw [hsplit]
    exact hall [] _ _ hsplit
  exact ⟨hon, hend.publishers, hend.evidence 1 7#256 hon (by decide +kernel)⟩

namespace Sample

def intruded : List Act :=
  locked ++ binds 10 1 2 7#256 :: (locks 12 5 ++ locks 13 5 ++ [binds 12 3 4 7#256])

def poison : Act := .gateway (.gateway (.ofNat 12) (.publishEvidence 7#256 13#256 ""))

end Sample

/-- **A stranger publishes.** An account that is no party of the sample binding makes a binding on
its task, may publish for it from then on, and publishes the evidence that the task has for ever. -/
theorem stranger_publishes :
    ∃ (D : Deployment) (h : History) (s : State) (b : ℕ) (x hash : Bytes32) (p : Address),
      Reach D h s ∧ s.core.OnTask b x ∧ ¬ s.core.Party b p ∧
      s.gateway.taskPublishers x p = true ∧ s.gateway.taskEvidence x = hash ∧ hash ≠ 0 ∧
      ∃ e ∈ h, ∃ cid, e.act = .gateway (.gateway p (.publishEvidence x hash cid)) ∧
        e.pre.gateway.taskEvidence x = 0 := by
  have hok : (steps (step deployment) (intruded ++ [poison]) start).isSome := by decide +kernel
  refine ⟨_, _, _, 1, 7#256, 13#256, .ofNat 12, reach _ hok, ⟨?_, ?_⟩, ?_, ?_, ?_, ?_, _,
    mem_history rfl hok, _, rfl, ?_⟩
  · decide +kernel
  · decide +kernel
  · unfold Bilateral.Ledger.Party
    decide +kernel
  · decide +kernel
  · decide +kernel
  · decide
  · decide +kernel

end Karma.Attestation
