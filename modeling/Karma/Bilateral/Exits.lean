import Karma.Bilateral.Consent
import Karma.Bilateral.Deadlines

/-! # `KarmaBilateral` — ways out of a binding

By waiting and by calls of its own a party should be able to end every live binding, whatever
everybody else does. -/

namespace Karma.Bilateral

open Evm Function

variable {D : Deployment} {h : History} {w w' : World} {a : Act} {env : Env}
  {sender party : Address} {b time : ℕ}

/-! ## The times that a binding records -/

structure Modest (c : Config) : Prop where
  settleDelay : c.settleDelaySeconds < 2 ^ 64
  disputeWindow : c.optimisticDisputeWindow < 2 ^ 64
  evidenceWindow : c.evidenceWindow < 2 ^ 64
  settleTimeout : c.settleTimeoutSeconds < 2 ^ 64
  largeDisputeTimeout : c.largeDisputeTimeoutSeconds < 2 ^ 64

instance : DecidablePred Modest := fun c =>
  decidable_of_iff (c.settleDelaySeconds < 2 ^ 64 ∧ c.optimisticDisputeWindow < 2 ^ 64 ∧
    c.evidenceWindow < 2 ^ 64 ∧ c.settleTimeoutSeconds < 2 ^ 64 ∧
    c.largeDisputeTimeoutSeconds < 2 ^ 64)
    ⟨fun ⟨h₁, h₂, h₃, h₄, h₅⟩ => ⟨h₁, h₂, h₃, h₄, h₅⟩,
      fun ⟨h₁, h₂, h₃, h₄, h₅⟩ => ⟨h₁, h₂, h₃, h₄, h₅⟩⟩

structure Timely (now : ℕ) (x : Binding) (arb : ArbitrationRecord) : Prop where
  created : x.createdAt ≤ now
  delay : x.settleAfter ≤ now + 2 ^ 64
  submitted : x.state = .finalizing → x.settleSubmittedAt ≤ now
  started : x.state = .disputed → arb.startedAt ≠ 0 ∧ arb.startedAt ≤ now ∧ arb.resolved = false

def Docket.Timely (d : Docket) (now : ℕ) : Prop :=
  ∀ b, Bilateral.Timely now (d.bindings b) (d.arbitrations b)

variable {x : Binding}

theorem Timely.mono {now now' : ℕ} {arb : ArbitrationRecord} (h : Timely now x arb)
    (hle : now ≤ now') : Timely now' x arb := by
  refine ⟨h.created.trans hle, ?_, fun hst => (h.submitted hst).trans hle, fun hst => ?_⟩
  · have := h.delay
    omega
  · obtain ⟨hzero, hpast, hresolved⟩ := h.started hst
    exact ⟨hzero, hpast.trans hle, hresolved⟩

theorem Timely.paid {now : ℕ} {x y : Binding} {arb arb' : ArbitrationRecord} (h : Timely now x arb)
    (hcreated : y.createdAt = x.createdAt) (hdelay : y.settleAfter = x.settleAfter)
    (hstate : y.state = .settled ∨ y.state = .refunded) : Timely now y arb' := by
  refine ⟨hcreated ▸ h.created, hdelay ▸ h.delay, fun hst => ?_, fun hst => ?_⟩
  · rw [hst] at hstate
    simp at hstate
  · rw [hst] at hstate
    simp at hstate

variable {s : Scene}

theorem Scene.opening_timely {i j : ℕ} {scopeHash : Bytes32} {st : BindingState}
    {arb : ArbitrationRecord} (hm : Modest s.toConfig) (hst : st = .active ∨ st = .pending) :
    Timely s.now (s.opening i j scopeHash st) arb := by
  refine ⟨le_rfl, Nat.add_le_add_left hm.settleDelay.le _, fun h => ?_, fun h => ?_⟩
  · rw [show st = .finalizing from h] at hst
    simp at hst
  · rw [show st = .disputed from h] at hst
    simp at hst

variable {c : Call}

theorem Files.timely {d : Docket} {n : Notices} (hf : Files D s sender c d n)
    (hm : Modest s.toConfig) (hnow : s.now ≠ 0) (ht : s.docket.Timely s.now) : d.Timely s.now := by
  intro b
  have hold : Bilateral.Timely s.now (s.bindings b) (s.arbitrations b) := ht b
  have hfiled := hf.refiled b
  show Bilateral.Timely s.now (d.bindings b) (d.arbitrations b)
  generalize d.bindings b = x, d.arbitrations b = arb at hfiled ⊢
  cases hfiled with
  | same => exact hold
  | made hst => exact Scene.opening_timely hm hst
  | submitted => exact ⟨hold.created, hold.delay, fun _ => le_rfl, nofun⟩
  | paid hst | resolved hst => exact hold.paid rfl rfl hst
  | disputed => exact ⟨hold.created, hold.delay, nofun, fun _ => ⟨hnow, le_rfl, rfl⟩⟩
  | testified htest =>
    cases htest with
    | buyer | agent => exact ⟨hold.created, hold.delay, hold.submitted, hold.started⟩

theorem Records.timely (hrec : Records D w a w') (hs : Sound D w) (hm : Modest w.toConfig)
    (ht : w.docket.Timely w.now) : w'.docket.Timely w'.now := by
  cases hrec with
  | tick htime => exact fun b => (ht b).mono htime
  | outside _ hidle =>
    rw [hidle.docket, hidle.now]
    exact ht
  | call _ _ hf hlogs =>
    rw [hlogs.docket, hlogs.now]
    exact hf.timely hm hs.now.ne' ht

theorem Reach.timely (hr : Reach D h w) (hm : ∀ e ∈ h, Modest e.pre.toConfig) :
    w.docket.Timely w.now := by
  refine Run.invariant (P := fun h w => (∀ e ∈ h, Modest e.pre.toConfig) → w.docket.Timely w.now)
    (fun w hinit _ b => ?_) (fun h w a w' hr ih hstep hm => ?_) hr hm
  · have hbinding : w.docket.bindings b = {} := by rw [Ledger.docket, hinit.ledger]
    rw [hbinding]
    refine ⟨Nat.zero_le _, Nat.zero_le _, fun hstate => ?_, fun hstate => ?_⟩
    · cases hstate
    · cases hstate
  · exact (records_of_step hstep).timely (Reach.sound hr) (hm _ List.mem_cons_self)
      (ih fun e he => hm e (List.mem_cons_of_mem _ he))

/-! ## Calls that end a binding -/

structure Ready (D : Deployment) (env : Env) (w : World) (b : ℕ) : Prop where
  sound : Sound D w
  timely : Timely w.now (w.bindings b) (w.arbitrations b)
  modest : Modest w.toConfig
  smooth : Smooth env w.toConfig (w.book.pool (w.bindings b))

theorem Ready.enter (hr : Ready D env w b) : Ready D env { w.fresh with entered := true } b :=
  ⟨hr.sound.fresh.flag true, hr.timely, hr.modest, hr.smooth⟩

theorem Ready.wait (hr : Ready D env w b) (htime : w.now ≤ time) :
    Ready D env { w.fresh with now := time } b := by
  have hs := hr.sound.fresh
  exact ⟨⟨⟨hs.wf.listed, hs.wf.ids, hs.wf.states⟩, hs.balanced, hs.solvent,
    hs.now.trans_le htime⟩, hr.timely.mono htime, hr.modest, hr.smooth⟩

theorem Closes.binding (hc : Closes D w b x w') : w'.bindings b = x := by
  obtain ⟨ms, -, hd⟩ := hc
  exact (congrFun (congrArg Book.binding hd.book) b).trans (update_self ..)

theorem Closes.ended (hc : Closes D w b x w') (hcreated : x.createdAt ≠ 0) (hx : ¬ x.state.Open) :
    (w'.bindings b).Ended := by
  rw [hc.binding]
  exact ⟨hcreated, hx⟩

section Payouts

variable {Q : Unit → World → Prop}

theorem Ready.wp_finalizeSettle (hr : Ready D env w b) (hcreated : (w.bindings b).createdAt ≠ 0)
    (hstate : (w.bindings b).state = .finalizing)
    (hover : (w.bindings b).settleSubmittedAt + w.optimisticDisputeWindow ≤ w.now)
    (hnow : w.now < 2 ^ 256) :
    (finalizeSettle D env b).wp (Solvent D) (fun _ => False) (fun _ v => (v.bindings b).Ended)
      w := by
  obtain ⟨hlive, -, -⟩ := live_of_finalizing hcreated hstate
  simp only [finalizeSettle, requireBinding, Tx.wp_code]
  refine ⟨hcreated, fun _ => ⟨fun h => h hstate, fun _ => ⟨fun _ => ⟨fun h => ?_, fun _ => ?_⟩,
    fun h => ?_⟩⟩⟩
  · omega
  · exact wp_executeSettle hr.sound hlive (.inl hr.smooth) fun v hv => hv.ended hcreated id
  · omega

theorem Ready.wp_refundOnTimeout (hr : Ready D env w b) (hu : Unsettled w.scene b)
    (hover : (w.bindings b).createdAt + w.settleTimeoutSeconds ≤ w.now) (hnow : w.now < 2 ^ 256) :
    (refundOnTimeout D env (w.buyerOf b) b).wp (Solvent D) (fun _ => False)
      (fun _ v => (v.bindings b).Ended) w := by
  have hcreated : (w.bindings b).createdAt ≠ 0 := hu.created
  have hstate : (w.bindings b).state = .active ∨ (w.bindings b).state = .pending := hu.state
  obtain ⟨hlive, -, -, -⟩ := live_of_unsettled hcreated hstate
  simp only [refundOnTimeout, requireBinding, requireUnsettled, Tx.wp_code, wp_emit]
  refine ⟨hcreated, fun _ => ⟨fun h => hstate.elim h.1 h.2, fun _ => ⟨fun _ => ⟨fun h => ?_,
    fun _ => ⟨fun h => h rfl, fun _ => ?_⟩⟩, fun h => ?_⟩⟩⟩
  · omega
  · exact wp_executeRefund hr.sound hlive (.inl hr.smooth) fun v hv => hv.ended hcreated id
  · omega

theorem Ready.wp_split {arbs : ℕ → ArbitrationRecord} {es : List Event} {bps : ℕ}
    (hr : Ready D env w b) (hlive : (w.bindings b).Live) (hbps : bps ≤ 10000) :
    (executeSplit D env b (w.bindings b).buyerBillId (w.bindings b).agentBillId bps).wp
      (Solvent D) (fun _ => False) (fun _ v => (v.bindings b).Ended)
      { w with arbitrations := arbs, events := es } :=
  wp_executeSplit (w := { w with arbitrations := arbs, events := es }) hr.sound.aside hlive hbps
    (.inl hr.smooth) fun _ hv => hv.ended hlive.1 id

theorem wp_requireAutoResolvable_of_late {I : World → Prop} {totalPool windowEnd : ℕ}
    (hover : windowEnd + w.largeDisputeTimeoutSeconds ≤ w.now) (hnow : w.now < 2 ^ 256)
    (hQ : Q () w) : (requireAutoResolvable b totalPool windowEnd).wp I (fun _ => False) Q w := by
  simp only [requireAutoResolvable, Tx.wp_code]
  refine ⟨fun _ => ⟨fun _ => ⟨fun h => ?_, fun _ => hQ⟩, fun h => ?_⟩, fun _ => hQ⟩
  · omega
  · omega

theorem Ready.wp_autoResolveArbitration (hr : Ready D env w b)
    (hcreated : (w.bindings b).createdAt ≠ 0) (hstate : (w.bindings b).state = .disputed)
    (hover : (w.arbitrations b).startedAt + w.evidenceWindow + w.largeDisputeTimeoutSeconds ≤
      w.now) (hnow : w.now < 2 ^ 256) :
    (autoResolveArbitration D env b).wp (Solvent D) (fun _ => False)
      (fun _ v => (v.bindings b).Ended) w := by
  obtain ⟨hlive, -, -⟩ := live_of_disputed hcreated hstate
  obtain ⟨hstarted, -, hresolved⟩ := hr.timely.started hstate
  simp only [autoResolveArbitration, requireBinding, Tx.wp_code]
  refine ⟨hcreated, fun _ => ⟨fun h => h hstate, fun _ => ⟨hstarted, fun _ => ⟨fun h => ?_, fun _ =>
    ⟨fun _ => ⟨fun h => ?_, fun _ => ⟨fun _ => wp_requireAutoResolvable_of_late hover hnow ?_,
      fun h => h hr.smooth.pool_lt⟩⟩, fun h => ?_⟩⟩⟩⟩⟩
  · exact Bool.false_ne_true (hresolved.symm.trans h)
  · omega
  · simp only [updateArbitration, wp_writeLedger, wp_emit]
    -- evidence of the agent alone, of the buyer alone, of nobody, of both
    refine ⟨fun _ => ?_, fun _ => ⟨fun _ => ?_, fun _ => ⟨fun _ => ?_, fun _ => ?_⟩⟩⟩
    · exact wp_executeSettle (w := { w with arbitrations := _, events := _ }) hr.sound.aside hlive
        (.inl hr.smooth) fun v hv => hv.ended hcreated id
    · exact hr.wp_split hlive le_rfl
    · exact wp_executeRefund (w := { w with arbitrations := _, events := _ }) hr.sound.aside hlive
        (.inl hr.smooth) fun v hv => hv.ended hcreated id
    · exact hr.wp_split hlive (by decide)
  · omega

theorem Ready.wp_settle {proofHash : Bytes32} (hr : Ready D env w b) (hu : Unsettled w.scene b)
    (hflag : w.requiresAttestation b = false) (hparty : party = w.buyerOf b ∨ party = w.agentOf b)
    (hover : (w.bindings b).settleAfter ≤ w.now) (hroom : w.now + 2 ^ 64 ≤ 2 ^ 256)
    (hQ : ∀ es, Q () { w with
      bindings := update w.bindings b { w.bindings b with
        state := .finalizing, proofHash, settleSubmittedAt := w.now }
      events := es }) : (settle D env party b proofHash).wp (Solvent D) (fun _ => False) Q w := by
  have hstate : (w.bindings b).state = .active ∨ (w.bindings b).state = .pending := hu.state
  have hwindow := hr.modest.disputeWindow
  simp only [settle, requireBinding, requireUnsettled, requireSettleDelay, updateBinding,
    Tx.wp_code, wp_writeLedger, wp_emit]
  refine ⟨hu.created, fun _ => ⟨fun h => hstate.elim h.1 h.2, fun _ => ⟨fun h => ?_, fun _ =>
    ⟨fun h => hparty.elim h.1 h.2.1, fun _ => ⟨fun h => ?_, fun _ => ⟨fun _ => hQ _,
      fun h => ?_⟩⟩⟩⟩⟩⟩
  · exact absurd h (by rw [hflag]; exact Bool.false_ne_true)
  · omega
  · omega

end Payouts

/-! ## Ways out -/

inductive Alone (party : Address) (env : Env) : Act → Prop
  | wait {time : ℕ} : Alone party env (.tick time)
  | call {c : Call} : Alone party env (.call party env c)

inductive WayOut (D : Deployment) (env : World → Env) (party : Address) (b : ℕ) : World → Prop
  | ended {w : World} : (w.bindings b).Ended → WayOut D env party b w
  | step {w w' : World} {a : Act} :
      Alone party (env w) a → step D w a = some w' → WayOut D env party b w' →
      WayOut D env party b w

variable {env : World → Env}

theorem WayOut.wait (htime : w.now ≤ time) (h : WayOut D env party b { w.fresh with now := time }) :
    WayOut D env party b w :=
  .step .wait (by rw [Bilateral.step, if_pos htime]) h

theorem WayOut.last (hself : party ≠ D.self) (hzero : party ≠ 0)
    (h : (c.body D (env w) party).wp (Solvent D) (fun _ => False) (fun _ v => (v.bindings b).Ended)
      { w.fresh with entered := true }) : WayOut D env party b w := by
  obtain ⟨w', hstep, hended⟩ :=
    step_call_of_wp (Q := fun v => (v.bindings b).Ended) hself hzero h
  exact .step .call hstep (.ended hended)

theorem Ready.wayOut_of_finalizing (hr : ∀ v, Ready D (env v) w b)
    (hcreated : (w.bindings b).createdAt ≠ 0) (hstate : (w.bindings b).state = .finalizing)
    (hself : party ≠ D.self) (hzero : party ≠ 0) (hnow : w.now + 2 ^ 65 < 2 ^ 256) :
    WayOut D env party b w := by
  have htime : w.now ≤ w.now + 2 ^ 65 := Nat.le_add_right ..
  refine .wait htime (.last (c := .finalizeSettle b) hself hzero ?_)
  refine ((hr _).wait htime).enter.wp_finalizeSettle hcreated hstate ?_ hnow
  have hsubmitted := (hr w).timely.submitted hstate
  have hwindow := (hr w).modest.disputeWindow
  show (w.bindings b).settleSubmittedAt + w.optimisticDisputeWindow ≤ w.now + 2 ^ 65
  omega

theorem Ready.wayOut_of_disputed (hr : ∀ v, Ready D (env v) w b)
    (hcreated : (w.bindings b).createdAt ≠ 0) (hstate : (w.bindings b).state = .disputed)
    (hself : party ≠ D.self) (hzero : party ≠ 0) (hnow : w.now + 2 ^ 65 < 2 ^ 256) :
    WayOut D env party b w := by
  have htime : w.now ≤ w.now + 2 ^ 65 := Nat.le_add_right ..
  refine .wait htime (.last (c := .autoResolveArbitration b) hself hzero ?_)
  refine ((hr _).wait htime).enter.wp_autoResolveArbitration hcreated hstate ?_ hnow
  obtain ⟨-, hstarted, -⟩ := (hr w).timely.started hstate
  have hwindow := (hr w).modest.evidenceWindow
  have hlarge := (hr w).modest.largeDisputeTimeout
  show (w.arbitrations b).startedAt + w.evidenceWindow + w.largeDisputeTimeoutSeconds ≤
    w.now + 2 ^ 65
  omega

theorem Ready.wayOut_of_unsettled (hr : ∀ v, Ready D (env v) w b) (hu : Unsettled w.scene b)
    (hself : w.buyerOf b ≠ D.self) (hnow : w.now + 2 ^ 65 < 2 ^ 256) :
    WayOut D env (w.buyerOf b) b w := by
  have htime : w.now ≤ w.now + 2 ^ 65 := Nat.le_add_right ..
  have hzero := ((hr w).sound.parties_ne_zero hu.created).1
  refine .wait htime (.last (c := .refundOnTimeout b) hself hzero ?_)
  refine ((hr _).wait htime).enter.wp_refundOnTimeout ⟨hu.created, hu.state⟩ ?_ hnow
  have hcreated := (hr w).timely.created
  have htimeout := (hr w).modest.settleTimeout
  show (w.bindings b).createdAt + w.settleTimeoutSeconds ≤ w.now + 2 ^ 65
  omega

theorem Ready.submit {env : Env} {proofHash : Bytes32} {es : List Event} (hr : Ready D env w b)
    (hs : Sound D w')
    (hw' : w' = { w.fresh with
      bindings := update w.bindings b { w.bindings b with
        state := .finalizing, proofHash, settleSubmittedAt := w.now }
      events := es }) : Ready D env w' b := by
  have hbinding : w'.bindings b = { w.bindings b with
      state := .finalizing, proofHash, settleSubmittedAt := w.now } := by
    rw [hw']
    exact update_self ..
  have hpool : w'.book.pool (w'.bindings b) = w.book.pool (w.bindings b) := by
    rw [hbinding, hw']
    rfl
  refine ⟨hs, ?_, ?_, ?_⟩
  · rw [hbinding, hw']
    exact ⟨hr.timely.created, hr.timely.delay, fun _ => le_rfl, nofun⟩
  · rw [hw']
    exact hr.modest
  · rw [hpool, hw']
    exact hr.smooth

theorem Ready.wayOut_of_delayOver (hr : ∀ v, Ready D (env v) w b) (hu : Unsettled w.scene b)
    (hflag : w.requiresAttestation b = false) (hparty : party = w.buyerOf b ∨ party = w.agentOf b)
    (hover : (w.bindings b).settleAfter ≤ w.now) (hself : party ≠ D.self) (hzero : party ≠ 0)
    (hnow : w.now + 2 ^ 65 < 2 ^ 256) : WayOut D env party b w := by
  have hroom : w.now + 2 ^ 64 ≤ 2 ^ 256 := by omega
  obtain ⟨w', hstep, es, hw'⟩ := step_call_of_wp (c := .settle b 0#256)
    (Q := fun w' => ∃ es, w' = { w.fresh with
      bindings := update w.bindings b { w.bindings b with
        state := .finalizing, proofHash := 0#256, settleSubmittedAt := w.now }
      events := es }) hself hzero
    ((hr w).enter.wp_settle ⟨hu.created, hu.state⟩ hflag hparty hover hroom fun es => ⟨es, rfl⟩)
  have hs : Sound D w' := (transition_of_step (hr w).sound hstep).sound (hr w).sound
  have hbinding : w'.bindings b = { w.bindings b with
      state := .finalizing, proofHash := 0#256, settleSubmittedAt := w.now } := by
    rw [hw']
    exact update_self ..
  refine .step .call hstep (Ready.wayOut_of_finalizing (fun v => (hr v).submit hs hw') ?_ ?_ hself
    hzero ?_)
  · rw [hbinding]
    exact hu.created
  · rw [hbinding]
  · rw [hw']
    exact hnow

theorem Ready.wayOut (hr : ∀ v, Ready D (env v) w b) (hlive : (w.bindings b).Live)
    (hparty : party = w.buyerOf b ∨ party = w.agentOf b ∧ w.requiresAttestation b = false)
    (hself : party ≠ D.self) (hnow : w.now < 2 ^ 255) : WayOut D env party b w := by
  obtain ⟨hcreated, hopen⟩ := hlive
  obtain ⟨hbuyer, hagent⟩ := (hr w).sound.parties_ne_zero hcreated
  have hzero : party ≠ 0 := by
    rcases hparty with rfl | ⟨rfl, -⟩
    · exact hbuyer
    · exact hagent
  have hunsettled : Unsettled w.scene b → WayOut D env party b w := by
    intro hu
    rcases hparty with rfl | ⟨hagentOf, hflag⟩
    · exact Ready.wayOut_of_unsettled hr hu hself (by omega)
    · have htime : w.now ≤ w.now + 2 ^ 65 := Nat.le_add_right ..
      refine .wait htime (Ready.wayOut_of_delayOver (fun v => (hr v).wait htime)
        ⟨hu.created, hu.state⟩ hflag (.inr hagentOf) ?_ hself hzero ?_)
      · have hdelay := (hr w).timely.delay
        show (w.bindings b).settleAfter ≤ w.now + 2 ^ 65
        omega
      · show w.now + 2 ^ 65 + 2 ^ 65 < 2 ^ 256
        omega
  cases hstate : (w.bindings b).state with
  | active => exact hunsettled ⟨hcreated, .inl hstate⟩
  | pending => exact hunsettled ⟨hcreated, .inr hstate⟩
  | finalizing => exact Ready.wayOut_of_finalizing hr hcreated hstate hself hzero (by omega)
  | disputed => exact Ready.wayOut_of_disputed hr hcreated hstate hself hzero (by omega)
  | settled | refunded =>
    rw [hstate] at hopen
    exact hopen.elim

theorem Sound.pool_le_supply (hs : Sound D w) (hlive : (w.bindings b).Live) :
    w.book.pool (w.bindings b) ≤ (w.tokens (w.book.poolToken (w.bindings b))).supply := by
  have hm : w.book.Matched (w.bindings b) := hs.balanced.paired.matched b hlive.1
  have hlocked := hs.balanced.pool_le_totalLocked hm fun k hk => by
    simp [hs.balanced.paired.held b k hlive hk]
  have hbacks := hs.solvent (w.book.poolToken (w.bindings b))
  have hsupply := Erc20.balanceOf_le_supply (w.tokens (w.book.poolToken (w.bindings b))) D.self
  rw [Erc20.Backs] at hbacks
  exact hlocked.trans ((Nat.le_add_right _ _).trans (hbacks.trans hsupply))

/-- **No way out is barred** to the buyer of a live binding, nor to its agent unless the binding
asks for attestation. -/
theorem parties_can_exit (hr : Reach D h w) (hlive : (w.bindings b).Live)
    (hparty : party = w.buyerOf b ∨
      party = w.agentOf b ∧ party ≠ D.self ∧ w.requiresAttestation b = false)
    (hguard : w.emergencyGuard = 0) (hbridge : w.feeBridge = 0)
    (hengine : w.scoringEngine = 0 ∨ ∀ v, (env v).record.isSome)
    (hsupply : ∀ t, (w.tokens t).supply < 2 ^ 240)
    (hpast : ∀ e ∈ h, Modest e.pre.toConfig) (hmodest : Modest w.toConfig)
    (hnow : w.now < 2 ^ 255) : WayOut D env party b w := by
  have hs := Reach.sound hr
  have hpool := (hs.pool_le_supply hlive).trans_lt (hsupply _)
  have hready : ∀ v, Ready D (env v) w b := fun v =>
    ⟨hs, Reach.timely hr hpast b, hmodest, hguard, hbridge, hengine.imp_right (· v), by omega⟩
  refine Ready.wayOut hready hlive (hparty.imp_right fun h => ⟨h.1, h.2.2⟩) ?_ hnow
  rcases hparty with rfl | ⟨-, hself, -⟩
  · exact Reach.buyer_ne_self hr hlive.1
  · exact hself

namespace Sample

theorem supply_start (t : Address) : (start.tokens t).supply ≤ 2 ^ 160 * 1000 := by
  have hle : ∀ a, (start.tokens t).balanceOf a ≤ 1000 := by
    intro a
    simp only [start]
    split_ifs <;> omega
  exact (Erc20.supply_le_card_mul _ hle).trans (Nat.mul_le_mul_right _ Address.card_le)

theorem supply_world (as : List Act) (t : Address) : ((world as).tokens t).supply < 2 ^ 240 := by
  have hbound : ((world as).tokens t).supply ≤ 2 ^ 160 * 1000 := by
    rw [world]
    cases hv : steps (step deployment) as start with
    | none => exact supply_start t
    | some v =>
      refine steps_induct (P := fun w => (w.tokens t).supply ≤ 2 ^ 160 * 1000)
        (fun w a _ w' hle hstep => ?_) (supply_start t) hv
      exact ((records_of_step hstep).supply t).trans_le hle
  omega

end Sample

open Sample

theorem parties_can_exit_sample : ((world opening).bindings 1).Live ∧
      WayOut deployment (fun _ => {}) agent 1 (world opening) := by
  have hlive : ((world opening).bindings 1).Live := by decide +kernel
  have hpast : ∀ e ∈ history opening, Modest e.pre.toConfig := by decide +kernel
  exact ⟨hlive, parties_can_exit (reach _ (by decide +kernel)) hlive
    (.inr (by decide +kernel)) (by decide +kernel) (by decide +kernel) (.inl (by decide +kernel))
    (supply_world _) hpast (by decide +kernel) (by decide +kernel)⟩

/-! ## Hostages -/

def Act.Without (others : List Address) : Act → Prop
  | .tick _ => True
  | .outside o => o.sender ∉ others
  | .call sender env _ => sender ∉ others ∧ ∀ o ∈ env.acts, o.sender ∉ others

theorem Call.mem_acts {env : Env} {o : Outside} (ho : o ∈ c.acts s env) : o ∈ env.acts := by
  have hpayout : o ∈ env.payoutActs → o ∈ env.acts := by
    intro ho
    cases hrecord : env.record with
    | none | some r => simp_all [Env.acts, Env.payoutActs]
  cases c with
  | lock | unlock | bind | dispute | submitArbitrationEvidence | settleWithZKProof =>
    exact absurd ho List.not_mem_nil
  | lockFor => simp [Env.acts, show o ∈ env.consumeAuthorization.acts from ho]
  | bindWithAttestation | bindWithIntent =>
    simp [Env.acts, show o ∈ env.registerTaskPublisher.acts from ho]
  | settle b _ =>
    rw [Call.acts] at ho
    split_ifs at ho
    · exact hpayout ho
    · exact absurd ho List.not_mem_nil
  | finalizeSettle | settleWithTEE | autoResolveArbitration | resolveDispute | refundOnTimeout =>
    exact hpayout ho

theorem Act.Without.acts {others : List Address} {o : Outside} (ha : a.Without others)
    (ho : o ∈ a.acts s) : o.sender ∉ others := by
  cases a with
  | tick => exact absurd ho List.not_mem_nil
  | outside o' =>
    rw [List.mem_singleton.mp ho]
    exact ha
  | call sender env c => exact ha.2 o (Call.mem_acts ho)

/-- **A binding that only the gateway `gateway` can settle**, and only the buyer refund. -/
structure Hostage (gateway : Address) (w : World) (b : ℕ) : Prop where
  unsettled : Unsettled w.scene b
  flagged : w.requiresAttestation b = true
  enclave : w.teeVerifier = 0
  gateway : w.attestationGateway = gateway ∨ w.attestationGateway = 0
  pending : w.pendingAttestationGateway = 0

variable {gateway : Address}

theorem hostage_config {os : List Outside} {now : ℕ} {c c' : Config}
    (hadmin : ∀ o ∈ os, o.sender ≠ D.admin) (hrew : Relation.ReflTransGen (Rewrites D os now) c c')
    (hc : c.teeVerifier = 0 ∧ (c.attestationGateway = gateway ∨ c.attestationGateway = 0) ∧
      c.pendingAttestationGateway = 0) :
    c'.teeVerifier = 0 ∧ (c'.attestationGateway = gateway ∨ c'.attestationGateway = 0) ∧
      c'.pendingAttestationGateway = 0 := by
  induction hrew with
  | refl => exact hc
  | tail _ hstep ih =>
    obtain ⟨sender, call, hmem, honly, rfl⟩ := hstep
    have hopen : ¬ call.AdminOnly := fun h => hadmin _ hmem (honly h)
    cases call with
    | applyAttestationGateway => exact ⟨ih.1, .inr ih.2.2, rfl⟩
    | setBindingDeveloper => exact ih
    | _ => exact absurd trivial hopen

theorem Files.hostage {d : Docket} {n : Notices} (hf : Files D s sender c d n)
    (hnew : b ≠ s.bindingCounter + 1) (hu : Unsettled s b) (hflag : s.requiresAttestation b = true)
    (htee : s.teeVerifier = 0) (hgateway : sender ≠ s.attestationGateway)
    (hbuyer : sender ≠ s.buyerOf b) : s.docket.Same d b := by
  by_cases hc : c.binding = some b
  · have hstate := hu.state
    cases hf with
    | lock | lockFor | unlock | bind | bindIntent | bindAttested | bindIntentAttested => cases hc
    | submitted _ hordinary =>
      cases hc
      exact absurd (hflag.symm.trans hordinary) (by decide)
    | attested _ _ hsender =>
      exact absurd hsender hgateway
    | enclave _ _ hverifier => exact absurd htee hverifier
    | refunded _ _ hsender =>
      cases hc
      exact absurd hsender hbuyer
    | finalized hfin | disputed hfin =>
      cases hc
      simp [hfin.state] at hstate
    | testified hdis | autoResolved hdis | resolved _ hdis =>
      cases hc
      simp [hdis.state] at hstate
  · exact hf.same hnew hc

theorem Hostage.kept (hs : Sound D w) (hh : Hostage gateway w b)
    (ha : a.Without [w.buyerOf b, D.admin, gateway]) (hrec : Records D w a w') :
    Hostage gateway w' b := by
  have hadmin : ∀ o ∈ a.acts w.scene, o.sender ≠ D.admin := by
    intro o ho heq
    exact ha.acts ho (by simp [heq])
  obtain ⟨htee, hgateway, hpending⟩ := hostage_config hadmin hrec.config
    ⟨hh.enclave, hh.gateway, hh.pending⟩
  have hsame : w.docket.Same w'.docket b := by
    cases hrec with
    | tick _ => exact .refl _ _
    | outside _ hidle =>
      rw [hidle.docket]
      exact .refl _ _
    | call _ hzero hf hlogs =>
      rw [hlogs.docket]
      obtain ⟨hsender, -⟩ := ha
      simp only [List.mem_cons, List.not_mem_nil, or_false, not_or] at hsender
      refine hf.hostage (hs.ne_new hh.unsettled.created) hh.unsettled hh.flagged hh.enclave ?_
        hsender.1
      rcases hh.gateway with heq | heq
      · exact heq ▸ hsender.2.2
      · exact heq ▸ hzero
  have hbinding : w'.bindings b = w.bindings b := hsame.binding
  refine ⟨⟨?_, ?_⟩, hsame.attested.trans hh.flagged, htee, hgateway, hpending⟩
  · show (w'.bindings b).createdAt ≠ 0
    rw [hbinding]
    exact hh.unsettled.created
  · show (w'.bindings b).state = .active ∨ (w'.bindings b).state = .pending
    rw [hbinding]
    exact hh.unsettled.state

theorem Hostage.steps {plan : List Act} (hs : Sound D w) (hh : Hostage gateway w b)
    (hplan : ∀ a ∈ plan, a.Without [w.buyerOf b, D.admin, gateway])
    (hsteps : Evm.steps (step D) plan w = some w') : Hostage gateway w' b := by
  have hkept : Sound D w' ∧ Hostage gateway w' b ∧ w'.buyerOf b = w.buyerOf b := by
    refine steps_induct (P := fun v => Sound D v ∧ Hostage gateway v b ∧ v.buyerOf b = w.buyerOf b)
      (fun v a ha v' hv hstep => ?_) ⟨hs, hh, rfl⟩ hsteps
    obtain ⟨hs, hh, hbuyer⟩ := hv
    obtain ⟨-, hkeeps, -⟩ := parties_of_step hs hstep hh.unsettled.created
    have hwithout := hplan a ha
    rw [← hbuyer] at hwithout
    exact ⟨(transition_of_step hs hstep).sound hs, hh.kept hs hwithout (records_of_step hstep),
      hkeeps.trans hbuyer⟩
  exact hkept.2.1

namespace Sample

def attested : List Act :=
  opening.dropLast ++ [.outside (.core deployment.admin (.setAttestationGateway (.ofNat 40))),
    .call buyer { registerTaskPublisher := { answer := some () } }
      (.bindWithAttestation 1 2 0#256 7#256)]

end Sample

theorem agent_held_hostage :
    ∃ (D : Deployment) (h : History) (w : World), Reach D h w ∧ (w.bindings 1).Live ∧
      w.agentOf 1 ≠ D.self ∧ w.emergencyGuard = 0 ∧ w.feeBridge = 0 ∧ w.scoringEngine = 0 ∧
      (∀ t, (w.tokens t).supply < 2 ^ 240) ∧ (∀ e ∈ h, Modest e.pre.toConfig) ∧
      Modest w.toConfig ∧ w.now < 2 ^ 255 ∧
      ∀ plan w', (∀ a ∈ plan, a.Without [w.buyerOf 1, D.admin, w.attestationGateway]) →
        steps (step D) plan w = some w' → (w'.bindings 1).Live := by
  have hreach := reach attested (by decide +kernel)
  have hhostage : Hostage (world attested).attestationGateway (world attested) 1 := by
    refine ⟨⟨?_, ?_⟩, ?_, ?_, .inl rfl, ?_⟩
    · show ((world attested).bindings 1).createdAt ≠ 0
      decide +kernel
    · show ((world attested).bindings 1).state = .active ∨
        ((world attested).bindings 1).state = .pending
      decide +kernel
    · decide +kernel
    · decide +kernel
    · decide +kernel
  have hpast : ∀ e ∈ history attested, Modest e.pre.toConfig := by decide +kernel
  refine ⟨_, _, _, hreach, by decide +kernel, by decide +kernel, by decide +kernel,
    by decide +kernel, by decide +kernel, supply_world _, hpast, by decide +kernel,
    by decide +kernel, fun plan w' hplan hsteps => ?_⟩
  have hstays := hhostage.steps (Reach.sound hreach) hplan hsteps
  exact (live_of_unsettled hstays.unsettled.created hstays.unsettled.state).1

end Karma.Bilateral
