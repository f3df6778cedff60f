import Karma.Bilateral.Parties

/-! # `KarmaBilateral` — announced deadlines

`settle` announces the end of the dispute window in `SettleSubmitted`, and `dispute` opens an
evidence window. -/

namespace Karma.Bilateral

open Evm Relation Function

variable {D : Deployment} {h : History} {w w' : World} {a : Act} {b T : ℕ} {sender : Address}
  {env : Env}

/-! ## Setting the windows -/

def OpenCall.disputeWindow : OpenCall → Option ℕ
  | .setOptimisticDisputeWindow seconds => some seconds
  | _ => none

def OpenCall.evidenceWindow : OpenCall → Option ℕ
  | .setEvidenceWindow seconds => some seconds
  | _ => none

theorem OpenCall.rewrite_disputeWindow (now : ℕ) (c : Config) (call : OpenCall) :
    (call.rewrite now c).optimisticDisputeWindow =
      call.disputeWindow.getD c.optimisticDisputeWindow := by
  cases call with
  | setTokenAllowed | setAttestationGateway =>
    simp only [OpenCall.rewrite]
    split_ifs <;> rfl
  | _ => rfl

theorem OpenCall.rewrite_evidenceWindow (now : ℕ) (c : Config) (call : OpenCall) :
    (call.rewrite now c).evidenceWindow = call.evidenceWindow.getD c.evidenceWindow := by
  cases call with
  | setTokenAllowed | setAttestationGateway =>
    simp only [OpenCall.rewrite]
    split_ifs <;> rfl
  | _ => rfl

def Extends (now m n : ℕ) : Prop := m ≤ n ∧ now + n < 2 ^ 256

structure Considerate (e : Entry World Act) : Prop where
  dispute : ∀ sender c, Outside.core sender c ∈ e.act.acts e.pre.scene → ∀ n ∈ c.disputeWindow,
    Extends e.pre.now e.pre.optimisticDisputeWindow n ∨ ∀ b, (e.pre.bindings b).state ≠ .finalizing
  evidence : ∀ sender c, Outside.core sender c ∈ e.act.acts e.pre.scene → ∀ n ∈ c.evidenceWindow,
    Extends e.pre.now e.pre.evidenceWindow n ∨ ∀ b, (e.pre.bindings b).state ≠ .disputed
  room : ∀ sender env b evidenceHash, e.act = .call sender env (.dispute b evidenceHash) →
    e.pre.now + e.pre.evidenceWindow < 2 ^ 256

theorem window_of_rewrites {os : List Outside} {now : ℕ} {c c' : Config} {P : ℕ → Prop}
    {window : Config → ℕ} {sets : OpenCall → Option ℕ}
    (hsets : ∀ now c call, window (OpenCall.rewrite now c call) = (sets call).getD (window c))
    (hP : ∀ sender call, Outside.core sender call ∈ os → ∀ n ∈ sets call, P n)
    (hrew : ReflTransGen (Rewrites D os now) c c') (hc : P (window c)) : P (window c') := by
  induction hrew with
  | refl => exact hc
  | tail _ hstep ih =>
    obtain ⟨sender, call, hmem, -, rfl⟩ := hstep
    rw [hsets]
    cases hset : sets call with
    | none => exact ih
    | some n => exact hP sender call hmem n hset

/-! ## The dispute window -/

structure Pledged (w : World) (b T : ℕ) : Prop where
  created : (w.bindings b).createdAt ≠ 0
  begun : (w.bindings b).state ≠ .active ∧ (w.bindings b).state ≠ .pending
  submitted : (w.bindings b).settleSubmittedAt ≤ w.now
  later : (w.bindings b).state = .finalizing →
    T ≤ (w.bindings b).settleSubmittedAt + w.optimisticDisputeWindow ∧
      (w.bindings b).settleSubmittedAt + w.optimisticDisputeWindow < 2 ^ 256

theorem Files.begun {s : Scene} {c : Call} {d : Docket} {n : Notices}
    (hf : Files D s sender c d n) (hnew : b ≠ s.bindingCounter + 1)
    (hactive : (s.bindings b).state ≠ .active) (hpending : (s.bindings b).state ≠ .pending) :
    d.bindings b = s.bindings b ∨ ∃ st dis ini, (st = .settled ∨ st = .refunded ∨ st = .disputed) ∧
        d.bindings b = { s.bindings b with
          state := st, disputedAt := dis, disputeInitiator := ini } := by
  have hunsettled : ¬ Unsettled s b := fun h => h.state.elim hactive hpending
  by_cases hc : c.binding = some b
  · cases hf with
    | lock | lockFor | unlock | bind | bindIntent | bindAttested | bindIntentAttested => cases hc
    | submitted hu | attested hu | enclave hu | refunded hu =>
      cases hc
      exact absurd hu hunsettled
    | testified => exact .inl rfl
    | finalized | resolved =>
      cases hc
      exact .inr ⟨_, _, _, .inl rfl, update_self ..⟩
    | disputed =>
      cases hc
      exact .inr ⟨_, _, _, .inr (.inr rfl), update_self ..⟩
    | autoResolved _ _ _ hst =>
      cases hc
      exact .inr ⟨_, _, _, hst.imp_right .inl, update_self ..⟩
  · exact .inl (hf.same hnew hc).binding

theorem Pledged.kept (hs : Sound D w) (hp : Pledged w b T) (hrec : Records D w a w')
    (hcon : Considerate ⟨w, a, w'⟩) : Pledged w' b T := by
  have hbinding : w'.bindings b = w.bindings b ∨
      ∃ st dis ini, (st = .settled ∨ st = .refunded ∨ st = .disputed) ∧
        w'.bindings b = { w.bindings b with
          state := st, disputedAt := dis, disputeInitiator := ini } := by
    cases hrec with
    | tick _ => exact .inl rfl
    | outside _ hidle => exact .inl (congrFun (congrArg Docket.bindings hidle.docket) b)
    | call _ _ hf hlogs =>
      have hpost : w'.bindings b = _ := congrFun (congrArg Docket.bindings hlogs.docket) b
      rw [hpost]
      exact hf.begun (hs.ne_new hp.created) hp.begun.1 hp.begun.2
  have hnow := hp.submitted.trans hrec.now_le
  rcases hbinding with hsame | ⟨st, dis, ini, hst, hmoved⟩
  · -- the binding is as it was: the window has not been shortened under it
    refine ⟨?_, ?_, ?_, fun hfin => ?_⟩
    · rw [hsame]
      exact hp.created
    · rw [hsame]
      exact hp.begun
    · rw [hsame]
      exact hnow
    · rw [hsame] at hfin ⊢
      refine window_of_rewrites (P := fun n => T ≤ (w.bindings b).settleSubmittedAt + n ∧
        (w.bindings b).settleSubmittedAt + n < 2 ^ 256)
        OpenCall.rewrite_disputeWindow ?_ hrec.config
        (hp.later hfin)
      intro sender c hmem n hn
      rcases hcon.dispute sender c hmem n hn with ⟨hle, hroom⟩ | hnone
      · have hT : T ≤ (w.bindings b).settleSubmittedAt + w.optimisticDisputeWindow :=
          (hp.later hfin).1
        have hsub := hp.submitted
        dsimp only at hle hroom
        omega
      · exact absurd hfin (hnone b)
  · rw [← (show (w'.bindings b).state = st by rw [hmoved])] at hst
    refine ⟨?_, ?_, ?_, fun hfin => ?_⟩
    · rw [hmoved]
      exact hp.created
    · rcases hst with h | h | h <;> simp [h]
    · rw [hmoved]
      exact hnow
    · rw [hfin] at hst
      simp at hst

theorem pledged_of_event {p : Bytes32} (hrec : Records D w a w')
    (hev : .settleSubmitted b p T ∈ w'.events) : Pledged w' b T := by
  have hdeadline : (⟨b, T⟩ : Deadline) ∈ w'.notices.deadlines :=
    List.mem_filterMap.mpr ⟨_, hev, rfl⟩
  cases hrec with
  | tick _ => exact absurd hdeadline (by simp [World.notices, World.fresh])
  | outside _ hidle =>
    rw [hidle.deadlines] at hdeadline
    exact absurd hdeadline (by simp [World.notices, World.fresh])
  | @call _ env c d n _ _ _ hf hlogs =>
    rw [hlogs.deadlines] at hdeadline
    have hdeadline : (⟨b, T⟩ : Deadline) ∈ n.deadlines := by
      simpa [World.notices, World.fresh] using hdeadline
    cases hf with
    | @submitted k q hu hflag _ _ hfits =>
      obtain ⟨rfl, rfl⟩ := Deadline.mk.inj (List.mem_singleton.mp hdeadline)
      have hpost : w'.bindings b = { w.bindings b with
          state := .finalizing, proofHash := q, settleSubmittedAt := w.now } :=
        (congrFun (congrArg Docket.bindings hlogs.docket) b).trans (update_self ..)
      -- the call hands control to nobody, so the window is still the one it read
      have hacts : (Call.settle b q).acts w.scene env = [] :=
        if_neg (by rw [hflag]; exact Bool.false_ne_true)
      have hwindow : w'.optimisticDisputeWindow = w.optimisticDisputeWindow := by
        have hconfig := hlogs.config
        rw [hacts] at hconfig
        exact window_of_rewrites (P := (· = w.optimisticDisputeWindow))
          OpenCall.rewrite_disputeWindow (fun _ _ hmem => absurd hmem List.not_mem_nil)
          hconfig rfl
      refine ⟨?_, ?_, ?_, fun _ => ?_⟩
      · rw [hpost]
        exact hu.created
      · simp [hpost]
      · rw [hpost, hlogs.now]
        exact le_rfl
      · rw [hpost, hwindow]
        exact ⟨le_rfl, hfits⟩
    | bindIntentAttested => exact absurd hdeadline List.not_mem_nil
    | _ => exact absurd hdeadline List.not_mem_nil

/-! ## The evidence window -/

structure Hearing (w : World) (b T : ℕ) : Prop where
  disputed : Disputed w.scene b
  unresolved : (w.arbitrations b).resolved = false
  started : (w.arbitrations b).startedAt ≤ w.now
  later : T ≤ (w.arbitrations b).startedAt + w.evidenceWindow
  room : (w.arbitrations b).startedAt + w.evidenceWindow < 2 ^ 256

theorem Files.heard {s : Scene} {c : Call} {d : Docket} {n : Notices}
    (hf : Files D s sender c d n) (hnew : b ≠ s.bindingCounter + 1)
    (hstate : (s.bindings b).state = .disputed)
    (hwindow : s.now < (s.arbitrations b).startedAt + s.evidenceWindow) :
    d.bindings b = s.bindings b ∧ (d.arbitrations b).startedAt = (s.arbitrations b).startedAt ∧
      (d.arbitrations b).resolved = (s.arbitrations b).resolved := by
  have hunsettled : ¬ Unsettled s b := fun h => by simpa [hstate] using h.state
  have hfinalizing : ¬ Finalizing s b := fun h => by simpa [hstate] using h.state
  by_cases hc : c.binding = some b
  · cases hf with
    | lock | lockFor | unlock | bind | bindIntent | bindAttested | bindIntentAttested => cases hc
    | submitted hu | attested hu | enclave hu | refunded hu =>
      cases hc
      exact absurd hu hunsettled
    | finalized hfin | disputed hfin =>
      cases hc
      exact absurd hfin hfinalizing
    | autoResolved _ _ hover | resolved _ _ hover =>
      cases hc
      omega
    | testified _ _ _ ht =>
      cases hc
      refine ⟨rfl, ?_⟩
      simp only [Docket.arbitrate, update_self]
      cases ht with
      | buyer | agent => exact ⟨rfl, rfl⟩
  · have hsame := hf.same hnew hc
    exact ⟨hsame.binding, congrArg _ hsame.arbitration, congrArg _ hsame.arbitration⟩

theorem Hearing.kept (hs : Sound D w) (hh : Hearing w b T) (hrec : Records D w a w')
    (hcon : Considerate ⟨w, a, w'⟩) (htime : w'.now < T) : Hearing w' b T := by
  have hnow := hrec.now_le
  have hwindow : w.now < (w.arbitrations b).startedAt + w.evidenceWindow := by
    have := hh.later
    omega
  have hkept : w'.bindings b = w.bindings b ∧
      (w'.arbitrations b).startedAt = (w.arbitrations b).startedAt ∧
      (w'.arbitrations b).resolved = (w.arbitrations b).resolved := by
    cases hrec with
    | tick _ => exact ⟨rfl, rfl, rfl⟩
    | outside _ hidle =>
      have hbindings : w'.bindings = w.bindings := congrArg Docket.bindings hidle.docket
      have harbitrations : w'.arbitrations = w.arbitrations :=
        congrArg Docket.arbitrations hidle.docket
      rw [hbindings, harbitrations]
      exact ⟨rfl, rfl, rfl⟩
    | call _ _ hf hlogs =>
      have hbindings : w'.bindings b = _ := congrFun (congrArg Docket.bindings hlogs.docket) b
      have harbitrations : w'.arbitrations b = _ :=
        congrFun (congrArg Docket.arbitrations hlogs.docket) b
      rw [hbindings, harbitrations]
      exact hf.heard (hs.ne_new hh.disputed.created) hh.disputed.state hwindow
  obtain ⟨hbinding, hstarted, hresolved⟩ := hkept
  have hlater : T ≤ (w.arbitrations b).startedAt + w'.evidenceWindow ∧
      (w.arbitrations b).startedAt + w'.evidenceWindow < 2 ^ 256 := by
    refine window_of_rewrites (P := fun n => T ≤ (w.arbitrations b).startedAt + n ∧
      (w.arbitrations b).startedAt + n < 2 ^ 256) OpenCall.rewrite_evidenceWindow ?_ hrec.config
      ⟨hh.later, hh.room⟩
    intro sender c hmem n hn
    rcases hcon.evidence sender c hmem n hn with ⟨hle, hroom⟩ | hnone
    · have hT := hh.later
      have hbegun := hh.started
      dsimp only at hle hroom
      omega
    · exact absurd hh.disputed.state (hnone b)
  refine ⟨⟨?_, ?_, ?_⟩, ?_, ?_, ?_, ?_⟩
  · show (w'.bindings b).createdAt ≠ 0
    rw [hbinding]
    exact hh.disputed.created
  · show (w'.bindings b).state = .disputed
    rw [hbinding]
    exact hh.disputed.state
  · show (w'.arbitrations b).startedAt ≠ 0
    rw [hstarted]
    exact hh.disputed.started
  · rw [hresolved]
    exact hh.unresolved
  · rw [hstarted]
    exact hh.started.trans hnow
  · rw [hstarted]
    exact hlater.1
  · rw [hstarted]
    exact hlater.2

theorem hearing_of_dispute {evidenceHash : Bytes32} (hs : Sound D w)
    (hrec : Records D w (.call sender env (.dispute b evidenceHash)) w')
    (hroom : w.now + w.evidenceWindow < 2 ^ 256) : Hearing w' b (w.now + w.evidenceWindow) := by
  cases hrec with
  | call _ _ hf hlogs =>
    cases hf with
    | disputed hfin _ _ =>
      have hbinding : w'.bindings b = { w.bindings b with
          state := .disputed, disputedAt := w.now, disputeInitiator := sender } :=
        (congrFun (congrArg Docket.bindings hlogs.docket) b).trans (update_self ..)
      have harb : w'.arbitrations b =
          { buyerEvidenceHash := evidenceHash, buyerSubmittedAt := w.now,
            startedAt := w.now } :=
        (congrFun (congrArg Docket.arbitrations hlogs.docket) b).trans (update_self ..)
      have hwindow : w'.evidenceWindow = w.evidenceWindow :=
        window_of_rewrites (P := (· = w.evidenceWindow)) OpenCall.rewrite_evidenceWindow
          (fun _ _ hmem => absurd hmem List.not_mem_nil) hlogs.config rfl
      refine ⟨⟨?_, ?_, ?_⟩, ?_, ?_, ?_, ?_⟩
      · show (w'.bindings b).createdAt ≠ 0
        rw [hbinding]
        exact hfin.created
      · show (w'.bindings b).state = .disputed
        rw [hbinding]
      · show (w'.arbitrations b).startedAt ≠ 0
        rw [harb]
        exact hs.now.ne'
      · rw [harb]
      · rw [harb, hlogs.now]
        exact le_rfl
      · rw [harb, hwindow]
      · rw [harb, hwindow]
        exact hroom

/-! ## Calls that go through -/

theorem step_call_of_wp {c : Call} {I Q : World → Prop} (hself : sender ≠ D.self)
    (hzero : sender ≠ 0)
    (hbody : (c.body D env sender).wp I (fun _ => False) (fun _ v => Q { v with entered := false })
      { w.fresh with entered := true }) :
    ∃ w', step D w (.call sender env c) = some w' ∧ Q w' := by
  have hexec : (c.exec D env sender).wp I (fun _ => False) (fun _ v => Q v) w.fresh := by
    simp only [Call.exec, nonReentrant, Tx.wp_code]
    exact ⟨fun h => Bool.false_ne_true h, fun _ => hbody⟩
  obtain ⟨u, w', hok, hQ⟩ := Tx.exists_ok_of_wp hexec
  refine ⟨w', ?_, hQ⟩
  rw [step, if_neg (not_or.mpr ⟨hself, hzero⟩), hok]

theorem step_call_isSome {c : Call} (hself : sender ≠ D.self) (hzero : sender ≠ 0)
    (hbody : (c.body D env sender).wp (fun _ => True) (fun _ => False) (fun _ _ => True)
      { w.fresh with entered := true }) : (step D w (.call sender env c)).isSome := by
  obtain ⟨w', hstep, -⟩ := step_call_of_wp (Q := fun _ => True) hself hzero hbody
  rw [hstep]
  rfl

theorem Pledged.dispute (hs : Sound D w) (hp : Pledged w b T)
    (hstate : (w.bindings b).state = .finalizing) (htime : w.now < T)
    (hself : w.buyerOf b ≠ D.self) (env : Env) (evidenceHash : Bytes32) :
    (step D w (.call (w.buyerOf b) env (.dispute b evidenceHash))).isSome := by
  obtain ⟨hT, hroom⟩ := hp.later hstate
  refine step_call_isSome hself (hs.parties_ne_zero hp.created).1 ?_
  simp only [Call.body, Bilateral.dispute, requireBinding, updateBinding, updateArbitration,
    Tx.wp_code, wp_writeLedger, wp_emit]
  refine ⟨hp.created, fun _ => ⟨fun h => h hstate, fun _ => ⟨fun _ => ⟨fun hle => ?_, fun _ =>
    ⟨fun h => h rfl, fun _ => trivial⟩⟩, fun h => h hroom⟩⟩⟩
  have hle' : (w.bindings b).settleSubmittedAt + w.optimisticDisputeWindow ≤ w.now := hle
  omega

theorem Hearing.testify (hs : Sound D w) (hh : Hearing w b T) (htime : w.now < T)
    (hparty : sender = w.buyerOf b ∨ sender = w.agentOf b) (hself : sender ≠ D.self) (env : Env)
    (evidenceHash : Bytes32) :
    (step D w (.call sender env (.submitArbitrationEvidence b evidenceHash))).isSome := by
  obtain ⟨hbuyer, hagent⟩ := hs.parties_ne_zero hh.disputed.created
  have hzero : sender ≠ 0 := by
    rcases hparty with rfl | rfl
    · exact hbuyer
    · exact hagent
  refine step_call_isSome hself hzero ?_
  simp only [Call.body, submitArbitrationEvidence, requireBinding, updateArbitration, Tx.wp_code,
    Tx.wp_revert, wp_writeLedger, wp_emit]
  refine ⟨hh.disputed.created, fun _ => ⟨fun h => h hh.disputed.state, fun _ =>
    ⟨hh.disputed.started, fun _ => ⟨fun h => ?_, fun _ => ⟨fun _ => ⟨fun hle => ?_, fun _ =>
      ⟨fun _ => trivial, fun hne => ⟨fun _ => trivial, fun hne' => ?_⟩⟩⟩, fun h => h hh.room⟩⟩⟩⟩⟩
  · exact Bool.false_ne_true (hh.unresolved.symm.trans h)
  · have hle' : (w.arbitrations b).startedAt + w.evidenceWindow ≤ w.now := hle
    have hT := hh.later
    omega
  · exact hparty.elim hne hne'

def Call.Resolves (b : ℕ) : Call → Prop
  | .autoResolveArbitration k | .resolveDispute k _ => k = b
  | _ => False

theorem Records.late {c : Call} (hrec : Records D w (.call sender env c) w') :
    (c = .finalizeSettle b → (w.bindings b).state = .finalizing ∧
      (w.bindings b).settleSubmittedAt + w.optimisticDisputeWindow ≤ w.now) ∧
    (c.Resolves b → (w.arbitrations b).startedAt + w.evidenceWindow ≤ w.now) := by
  cases hrec with
  | call _ _ hf _ =>
    refine ⟨fun hc => ?_, fun hc => ?_⟩
    · subst hc
      cases hf with
      | finalized hfin hover => exact ⟨hfin.state, hover⟩
    · cases hf with
      | autoResolved _ _ hover =>
        obtain rfl : _ = b := hc
        exact hover
      | resolved _ _ hover =>
        obtain rfl : _ = b := hc
        exact hover
      | _ => exact hc.elim

/-! ## Whole runs -/

/-- **Announced deadlines are binding** in every run that shortens no window under a binding that it
concerns. -/
theorem deadlines_binding (hr : Reach D h w) (hcon : ∀ e ∈ h, Considerate e) :
    (∀ later e before b p T, h = later ++ e :: before → .settleSubmitted b p T ∈ e.post.events →
      (∀ e' ∈ later, ∀ sender env, e'.act = .call sender env (.finalizeSettle b) → T ≤ e'.pre.now) ∧
      ((w.bindings b).state = .finalizing → w.now < T → ∀ env evidenceHash,
        (step D w (.call (w.buyerOf b) env (.dispute b evidenceHash))).isSome)) ∧
    ∀ later e before b buyer env evidenceHash, h = later ++ e :: before →
      e.act = .call buyer env (.dispute b evidenceHash) →
      (∀ e' ∈ later, ∀ sender env c, e'.act = .call sender env c → c.Resolves b →
        e.pre.now + e.pre.evidenceWindow ≤ e'.pre.now) ∧
      (w.now < e.pre.now + e.pre.evidenceWindow → ∀ sender, sender ≠ D.self →
        sender = w.buyerOf b ∨ sender = w.agentOf b → ∀ env evidenceHash,
        (step D w (.call sender env (.submitArbitrationEvidence b evidenceHash))).isSome) := by
  have hs : Sound D w := Reach.sound hr
  constructor
  · intro later e before b p T hsplit hev
    subst hsplit
    obtain ⟨hbefore, hstep⟩ := Run.of_append hr
    have hpledged : Pledged e.post b T := pledged_of_event (records_of_step hstep) hev
    -- the deadline is kept by every later transaction
    obtain ⟨hnow, hlater⟩ := Run.since (P := fun w => Pledged w b T) hr hpledged
      fun e' he' h' hr' hstep' hp => hp.kept (Reach.sound hr') (records_of_step hstep')
        (hcon e' (List.mem_append_left _ he'))
    refine ⟨fun e' he' sender env hact => ?_, fun hstate htime env evidenceHash => ?_⟩
    · obtain ⟨_, -, hstep'⟩ := Run.of_mem hr (List.mem_append_left _ he')
      rw [hact] at hstep'
      obtain ⟨hfin, hover⟩ := (records_of_step hstep').late.1 rfl
      exact ((hlater e' he').later hfin).1.trans hover
    · exact hnow.dispute hs hstate htime (Reach.buyer_ne_self hr hnow.created) env evidenceHash
  · intro later e before b buyer env evidenceHash hsplit hact
    subst hsplit
    obtain ⟨hbefore, hstep⟩ := Run.of_append hr
    have he := hcon e (List.mem_append_right _ List.mem_cons_self)
    rw [hact] at hstep
    have hhearing := hearing_of_dispute (Reach.sound hbefore) (records_of_step hstep)
      (he.room buyer env b evidenceHash hact)
    -- the hearing is kept open by every later transaction, as long as its time is not over
    obtain ⟨hnow, hlater⟩ := Run.since (P := fun w => w.now < e.pre.now + e.pre.evidenceWindow →
        Hearing w b (e.pre.now + e.pre.evidenceWindow)) hr (fun _ => hhearing)
      fun e' he' h' hr' hstep' hh htime =>
        have hrec := records_of_step hstep'
        (hh (hrec.now_le.trans_lt htime)).kept (Reach.sound hr') hrec
          (hcon e' (List.mem_append_left _ he')) htime
    refine ⟨fun e' he' sender env c hact' hc => ?_, fun htime sender hself hparty env hash => ?_⟩
    · by_contra hearly
      obtain ⟨_, -, hstep'⟩ := Run.of_mem hr (List.mem_append_left _ he')
      rw [hact'] at hstep'
      have hover := (records_of_step hstep').late.2 hc
      have hopen := (hlater e' he' (not_le.mp hearly)).later
      omega
    · exact (hnow htime).testify hs htime hparty hself env hash

namespace Sample

def submitting : List Act := opening ++ [.tick 1900, .call buyer {} (.settle 1 0#256)]

def shortening : List Act :=
  submitting ++ [.outside (.core deployment.admin (.setOptimisticDisputeWindow 0))]

def setsNoWindow (e : Entry World Act) : Bool :=
  (e.act.acts e.pre.scene).all (fun
    | .core _ c => c.disputeWindow.isNone && c.evidenceWindow.isNone
    | _ => true) &&
  decide (e.pre.now + e.pre.evidenceWindow < 2 ^ 256)

theorem considerate {e : Entry World Act} (he : setsNoWindow e = true) : Considerate e := by
  obtain ⟨hall, hroom⟩ := Bool.and_eq_true_iff.mp he
  have hnone : ∀ sender c, Outside.core sender c ∈ e.act.acts e.pre.scene →
      c.disputeWindow = none ∧ c.evidenceWindow = none := by
    intro sender c hmem
    simpa using List.all_eq_true.mp hall _ hmem
  refine ⟨fun sender c hmem n hn => ?_, fun sender c hmem n hn => ?_, fun _ _ _ _ _ =>
    of_decide_eq_true hroom⟩
  · rw [(hnone sender c hmem).1] at hn
    cases hn
  · rw [(hnone sender c hmem).2] at hn
    cases hn

end Sample

open Sample

theorem deadlines_binding_sample : (∃ e ∈ history (submitting ++ [.tick 88299]),
      .settleSubmitted 1 0#256 88300 ∈ e.post.events) ∧
      (step deployment (world (submitting ++ [.tick 88299]))
        (.call buyer {} (.dispute 1 9#256))).isSome := by
  have hevent : ∃ e ∈ history (submitting ++ [.tick 88299]),
      .settleSubmitted 1 0#256 88300 ∈ e.post.events := by decide +kernel
  have hcon : (history (submitting ++ [.tick 88299])).all setsNoWindow = true := by
    decide +kernel
  have hbuyer : (world (submitting ++ [.tick 88299])).buyerOf 1 = buyer := by
    decide +kernel
  obtain ⟨e, he, hev⟩ := hevent
  obtain ⟨later, before, hsplit⟩ := List.append_of_mem he
  refine ⟨⟨e, he, hev⟩, ?_⟩
  rw [← hbuyer]
  exact ((deadlines_binding (reach _ (by decide +kernel)) fun e he =>
    considerate (List.all_eq_true.mp hcon e he)).1 later e before 1 0#256 88300 hsplit
    hev).2 (by decide +kernel) (by decide +kernel) {} 9#256

/-- **The deadline is moved.** The sample window is announced to end at 88300. -/
theorem deadline_moved : ∃ (D : Deployment) (h : History) (w : World), Reach D h w ∧
      ∃ later e before, h = later ++ e :: before ∧ .settleSubmitted 1 0#256 88300 ∈ e.post.events ∧
        ∃ e' ∈ later, ∃ sender env, e'.act = .call sender env (.finalizeSettle 1) ∧
          e'.pre.now < 88300 := by
  have hok : (step deployment (world shortening)
      (.call (.ofNat 7) {} (.finalizeSettle 1))).isSome := by decide +kernel
  obtain ⟨w, hw⟩ := Option.isSome_iff_exists.mp hok
  have hevent : ∃ e ∈ history shortening,
      .settleSubmitted 1 0#256 88300 ∈ e.post.events := by decide +kernel
  have hnow : (world shortening).now < 88300 := by decide +kernel
  obtain ⟨e, he, hev⟩ := hevent
  obtain ⟨later, before, hsplit⟩ := List.append_of_mem he
  have hreach := reach shortening (by decide +kernel)
  refine ⟨_, _, w, hreach.next hw, ⟨world shortening, _, w⟩ :: later, e, before, ?_,
    hev, _, List.mem_cons_self, .ofNat 7, {}, rfl, hnow⟩
  rw [hsplit]
  rfl

end Karma.Bilateral
