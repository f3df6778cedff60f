import Karma.Bilateral.Accounting
import Karma.Bilateral.Records
import Karma.Fees.Wiring

/-! # When the fee bridge lets a settlement through

A binding can be paid out with the fee that was quoted, distributed to the last unit, exactly when
it is `Payable` (`settled_without_flaw_iff`). -/

namespace Karma.Fees

open Evm Function
open Bilateral (Env Sound Uncapped)

variable {D : Deployment} {s : State} {b : ℕ} {env : Env}

/-! ## The settlement on both sides -/

structure Wired (D : Deployment) (s : State) : Prop where
  feeBridge : s.core.feeBridge = D.bridge.self
  core : s.bridge.core = D.core.self
  destinations : s.bridge.Addressed
  guard : s.core.emergencyGuard = 0

structure Due (s : State) (b : ℕ) : Prop where
  created : (s.core.bindings b).createdAt ≠ 0
  finalizing : (s.core.bindings b).state = .finalizing
  elapsed : (s.core.bindings b).settleSubmittedAt + s.core.optimisticDisputeWindow ≤ s.core.now

def Listening (env : Env) (s : State) : Prop :=
  s.core.scoringEngine = 0 ∨ ∃ r, env.record = some r ∧ r.acts = []

def Deployment.paid (D : Deployment) (s : State) (b : ℕ) : Address → Erc20 Address :=
  update (D.charged s b) (s.token b)
    ((D.charged s b (s.token b)).move D.core.self (s.agent b) (s.pool b - s.fee b))

theorem wp_tryRecord_listening {E : Bilateral.Error → Prop} {c : Bilateral.OutCall}
    {w : Bilateral.World} {Q : Unit → Bilateral.World → Prop}
    (hengine : w.scoringEngine = 0 ∨ ∃ r, env.record = some r ∧ r.acts = [])
    (hQ : ∀ cs, Q () { w with calls := cs }) :
    (Bilateral.tryRecord D.core env c).wp (fun _ => True) E Q w := by
  simp only [Bilateral.tryRecord, Tx.wp_code]
  refine ⟨fun _ => hQ w.calls, fun hne => ?_⟩
  obtain ⟨r, hrecord, hacts⟩ := hengine.resolve_left hne
  rw [hrecord]
  refine ⟨fun hnone => absurd hnone (Option.some_ne_none _), fun r' hr' => ?_⟩
  cases hr'
  simp only [Bilateral.callOut, hacts, Tx.wp_code, Tx.wp_callOut_nil, true_and]
  exact hQ _

structure Outcome (D : Deployment) (s : State) (b : ℕ) (u : Bilateral.World) : Prop where
  charged : Charged D s b
  uncapped : Uncapped s.core.events → Uncapped u.events
  tokens : u.tokens = D.paid s b

theorem wp_finalizeSettle_wired {Q : Unit → Bilateral.World → Prop} (hs : Sound D.core s.core)
    (hw : Wired D s) (hg : s.bridge.Sane) (hdue : Due s b) (hnow : s.core.now < 2 ^ 256)
    (hpool : s.pool b < 2 ^ 256) (hengine : Listening env s) (hQ : ∀ u, Outcome D s b u → Q () u) :
    (Bilateral.finalizeSettle D.core (D.env s b env) b).wp (fun _ => True)
      (fun _ => ¬ Charged D s b) Q s.core := by
  obtain ⟨hlive, -, -⟩ := Bilateral.live_of_finalizing hdue.created hdue.finalizing
  have hm := hs.balanced.paired.matched b hlive.1
  have hover := hdue.elapsed
  have hrecord : (D.env s b env).record = env.record := by
    rw [Deployment.env]
    split_ifs <;> rfl
  simp only [Bilateral.finalizeSettle, Bilateral.requireBinding, Tx.wp_code]
  refine ⟨fun hnone => absurd hnone hdue.created, fun _ => ⟨absurd hdue.finalizing, fun _ =>
    ⟨fun _ => ⟨fun hopen => absurd hopen (by omega), fun _ => ?_⟩, fun hsum => absurd hsum ?_⟩⟩⟩
  rotate_left
  · exact not_not.mpr (hover.trans_lt hnow)
  refine Bilateral.wp_executeSettle_of_fee hs hlive (.inl hw.guard) (.inl hpool)
    fun v hv huncapped howes => ?_
  -- the fee: what holds with any bridge, and what this one does
  have hany : (Bilateral.collectEconomyFee D.core (D.env s b env) b (s.token b) (s.buyer b)
      (s.agent b) (s.core.developer b) (s.pool b)).wp (Bilateral.Solvent D.core) (fun _ => True)
      (fun fee u => Bilateral.Owes D.core u (s.token b) (s.pool b - fee)) v :=
    Bilateral.wp_collectEconomyFee (.inr fun _ _ => trivial) howes fun fee ms u _ _ _ _ ho => ho
  refine Tx.wp_both (wp_collectEconomyFee_wired hw.feeBridge hg hw.destinations hpool hv.config
    hv.tokens) hany (fun _ _ _ => trivial) (fun _ h _ => h) fun fee u hcharge ho => ?_
  obtain rfl := hcharge.fee
  simp only [Tx.wp_bind, Bilateral.wp_emit, Bilateral.tryRecordSettlement]
  refine Bilateral.wp_transferNonzero (m := 0) hm.agent (by rwa [Nat.zero_add])
    fun _ v₂ _ hsends _ _ => ?_
  refine wp_tryRecord_listening ?_ fun cs => hQ _ ⟨hcharge.charged, fun hu => ?_, ?_⟩
  · rw [hrecord]
    have hconfig := hsends.config.trans (hcharge.config.trans hv.config)
    rw [Listening, ← hconfig] at hengine
    exact hengine
  · have hv₂ : Uncapped v₂.events := by
      rw [hsends.events, hcharge.events]
      exact huncapped hu
    exact (hv₂.append id).append id
  · show v₂.tokens = D.paid s b
    rw [hsends.tokens, hcharge.tokens]
    rfl

/-! ## When the fee can be charged -/

structure Chargeable (D : Deployment) (s : State) (b : ℕ) : Prop where
  ceiling : s.pool b * Bilateral.maxFeeBps < 2 ^ 256
  set : s.bridge.token ≠ 0
  token : s.token b = s.bridge.token ∨
    s.fee b ≤ (s.core.tokens s.bridge.token).allowance D.core.self D.bridge.self ∧
      s.fee b ≤ (s.core.tokens s.bridge.token).balanceOf D.core.self
  gmv : s.bridge.totalGmvRecorded + s.pool b < 2 ^ 256
  fees : s.bridge.totalFeesCollected + s.fee b < 2 ^ 256

theorem pool_le_balanceOf (hs : Sound D.core s.core) (hlive : (s.core.bindings b).Live) :
    s.pool b ≤ (s.core.tokens (s.token b)).balanceOf D.core.self := by
  have hm := hs.balanced.paired.matched b hlive.1
  have hlocked := hs.balanced.pool_le_totalLocked hm fun k hk => by
    simp [hs.balanced.paired.held b k hlive hk]
  have hsolvent := hs.solvent (s.token b)
  rw [Erc20.Backs] at hsolvent
  have hle : s.pool b ≤ s.core.totalLocked (s.token b) := hlocked
  omega

theorem allowance_granted (hfee : s.fee b ≠ 0) (hg : s.bridge.Sane) :
    (D.granted s b s.bridge.token).allowance D.core.self D.bridge.self =
      (if s.token b = s.bridge.token then s.fee b
        else (s.core.tokens s.bridge.token).allowance D.core.self D.bridge.self) ∧
      ∀ t, (D.granted s b t).balanceOf = (s.core.tokens t).balanceOf := by
  have hgranted : D.granted s b = update s.core.tokens (s.token b)
      ((s.core.tokens (s.token b)).allow D.core.self D.bridge.self (s.fee b)) :=
    if_neg ((fee_eq hg).1 ▸ hfee)
  rw [hgranted]
  constructor
  · by_cases htoken : s.token b = s.bridge.token
    · rw [if_pos htoken, ← htoken, update_self]
      simp [Erc20.allow]
    · rw [if_neg htoken, update_of_ne (Ne.symm htoken)]
  · intro t
    by_cases ht : t = s.token b
    · rw [ht, update_self, Erc20.allow_balanceOf]
    · rw [update_of_ne ht]

theorem charged_iff (hs : Sound D.core s.core) (hw : Wired D s) (hg : s.bridge.Sane)
    (hlive : (s.core.bindings b).Live) (hroom : s.pool b * s.bridge.feeBps < 2 ^ 256) :
    Charged D s b ↔ (s.fee b ≠ 0 → Chargeable D s b) := by
  refine forall_congr' fun hfee => ?_
  obtain ⟨hallowance, hbalance⟩ := allowance_granted (D := D) hfee hg
  have hcovered := (fee_le_pool hg).trans (pool_le_balanceOf hs hlive)
  have hexpected := (quote_eq hg hroom).2
  constructor
  · rintro ⟨hceiling, hc⟩
    obtain ⟨hset, -, hallowed, hhas⟩ := hc.pull hfee
    refine ⟨hceiling, hset, ?_, hc.gmv, hc.fees⟩
    by_cases htoken : s.token b = s.bridge.token
    · exact .inl htoken
    · right
      have hcore : (s.view (D.granted s b)).core = D.core.self := hw.core
      rw [hcore] at hallowed hhas
      constructor
      · rw [if_neg htoken] at hallowance
        exact hallowed.trans_eq hallowance
      · exact hhas.trans_eq (congrFun (hbalance _) _)
  · intro hc
    refine ⟨hc.ceiling, hw.core.symm, hroom, hexpected, fun _ => ⟨hc.set, ?_, ?_, ?_⟩, hc.gmv,
      hc.fees⟩
    · show s.bridge.core ≠ 0
      rw [hw.core]
      exact D.core.self_ne_zero
    · show s.fee b ≤ (D.granted s b s.bridge.token).allowance s.bridge.core D.bridge.self
      rw [hw.core, hallowance]
      split_ifs with htoken
      · exact le_rfl
      · exact (hc.token.resolve_left htoken).1
    · show s.fee b ≤ (D.granted s b s.bridge.token).balanceOf s.bridge.core
      rw [hw.core, hbalance]
      rcases hc.token with htoken | ⟨-, hhas⟩
      · rw [← htoken]
        exact hcovered
      · exact hhas

theorem balanceOf_paid (hw : Wired D s) (hg : s.bridge.Sane) (t : Address) :
    (D.paid s b t).balanceOf D.bridge.self = (s.core.tokens t).balanceOf D.bridge.self +
      (if s.fee b ≠ 0 ∧ t = s.bridge.token then
        Erc20.due D.bridge.self (s.bridge.shares (s.fee b)) else 0) +
      if t = s.token b ∧ s.agent b = D.bridge.self then s.pool b - s.fee b else 0 := by
  have hne : D.core.self ≠ D.bridge.self := D.bridge_ne_core.symm
  have hcharged : (D.charged s b t).balanceOf D.bridge.self =
      (s.core.tokens t).balanceOf D.bridge.self + (if s.fee b ≠ 0 ∧ t = s.bridge.token then
        Erc20.due D.bridge.self (s.bridge.shares (s.fee b)) else 0) := by
    rw [Deployment.charged]
    by_cases hfee : s.fee b = 0
    · simp [hfee]
    · have hcore : s.bridge.core ≠ D.bridge.self := by
        rw [hw.core]
        exact hne
      rw [if_neg hfee, FeeBridge.balanceOf_distributed hg hcore hfee t]
      have hview : ((s.view (D.granted s b)).tokens t).balanceOf = (s.core.tokens t).balanceOf :=
        (allowance_granted hfee hg).2 t
      rw [hview]
      simp only [ne_eq, hfee, not_false_eq_true, true_and]
      rfl
  rw [← hcharged, Deployment.paid]
  by_cases ht : t = s.token b
  · subst ht
    rw [update_self]
    by_cases hagent : s.agent b = D.bridge.self
    · rw [hagent, Erc20.move_balanceOf_target hne, if_pos ⟨rfl, rfl⟩]
    · rw [Erc20.move_balanceOf_of_ne D.bridge_ne_core (Ne.symm hagent),
        if_neg fun h => hagent h.2, Nat.add_zero]
  · rw [update_of_ne ht, if_neg fun h => ht h.1, Nat.add_zero]

theorem unchanged_iff (hw : Wired D s) (hg : s.bridge.Sane) :
    (∀ t, (D.paid s b t).balanceOf D.bridge.self = (s.core.tokens t).balanceOf D.bridge.self) ↔
      (s.fee b ≠ 0 → Erc20.due D.bridge.self (s.bridge.shares (s.fee b)) = 0) ∧
      (s.agent b = D.bridge.self → s.pool b = 0) := by
  have hle := (fee_eq (b := b) hg).2
  rw [Bilateral.maxFeeBps] at hle
  constructor
  · intro hsame
    constructor
    · intro hfee
      have hdue := hsame s.bridge.token
      rw [balanceOf_paid hw hg, if_pos ⟨hfee, rfl⟩] at hdue
      omega
    · intro hagent
      have hpaid := hsame (s.token b)
      rw [balanceOf_paid hw hg, if_pos (c := s.token b = s.token b ∧ _) ⟨rfl, hagent⟩] at hpaid
      omega
  · rintro ⟨hdue, hagent⟩ t
    have hshare : (if s.fee b ≠ 0 ∧ t = s.bridge.token then
        Erc20.due D.bridge.self (s.bridge.shares (s.fee b)) else 0) = 0 := by
      split_ifs with h
      · exact hdue h.1
      · rfl
    have hpayout : (if t = s.token b ∧ s.agent b = D.bridge.self then s.pool b - s.fee b else 0) =
        0 := by
      split_ifs with h
      · rw [hagent h.2, Nat.zero_sub]
      · rfl
    rw [balanceOf_paid hw hg, hshare, hpayout, Nat.add_zero]

theorem moves_receipt (hw : Wired D s) (hg : s.bridge.Sane) (hpool : s.pool b < 2 ^ 256)
    (hcharged : Charged D s b) (w : Bilateral.World) :
    FeeBridge.collected (receipt D s b w).bridge.moves = s.fee b ∧
      FeeBridge.sentOn (receipt D s b w).bridge.moves = s.fee b := by
  have hle := fee_le_pool (b := b) hg
  rw [receipt]
  by_cases hempty : s.pool b = 0
  · have hfee : s.fee b = 0 := by omega
    rw [if_neg fun h => h.2 hempty, hfee]
    exact ⟨rfl, rfl⟩
  rw [if_pos ⟨hw.feeBridge, hempty⟩]
  rcases collect_spec (D := D) (b := b) hg hw.destinations hpool with
    ⟨u, hu, -, hcollected⟩ | ⟨hnone, hc⟩
  · rw [hu, Option.getD_some, hcollected.moves]
    exact FeeBridge.collected_distributed hg rfl
  · -- a collection that fails is one of nothing
    have hfee : s.fee b = 0 := by
      by_contra hne
      exact hc (hcharged hne).2
    rw [hnone, hfee]
    exact ⟨rfl, rfl⟩

/-! ## The settlement without a flaw -/

structure Flawless (D : Deployment) (s : State) (b : ℕ) (r : Receipt) : Prop where
  settled : (r.core.bindings b).state = .settled
  quoted : s.quote b = some (FeeBridge.collected r.bridge.moves)
  shared : FeeBridge.sentOn r.bridge.moves = FeeBridge.collected r.bridge.moves
  uncapped : Uncapped r.core.events
  unchanged : ∀ t, (r.core.tokens t).balanceOf D.bridge.self =
    (s.core.tokens t).balanceOf D.bridge.self

/-- **The binding can be paid out without a flaw**. -/
structure Payable (D : Deployment) (s : State) (b : ℕ) : Prop where
  quoted : s.pool b * s.bridge.feeBps < 2 ^ 256
  agent : s.agent b = D.bridge.self → s.pool b = 0
  elsewhere : s.fee b ≠ 0 → Erc20.due D.bridge.self (s.bridge.shares (s.fee b)) = 0
  charge : s.fee b ≠ 0 → Chargeable D s b

theorem finalizeSettle_spec {sender : Address} (hs : Sound D.core s.core) (hw : Wired D s)
    (hg : s.bridge.Sane) (hdue : Due s b) (hnow : s.core.now < 2 ^ 256)
    (hpool : s.pool b < 2 ^ 256) (hself : sender ≠ D.core.self) (hzero : sender ≠ 0)
    (hengine : Listening env s) :
    (∃ w, Bilateral.step D.core s.core (.call sender (D.env s b env) (.finalizeSettle b)) = some w ∧
      Charged D s b ∧ Uncapped w.events ∧ w.tokens = D.paid s b) ∨
    Bilateral.step D.core s.core (.call sender (D.env s b env) (.finalizeSettle b)) = none ∧
      ¬ Charged D s b := by
  let entered : State := ⟨{ s.core.fresh with entered := true }, s.bridge⟩
  have hexec : ((Bilateral.Call.finalizeSettle b).exec D.core (D.env s b env) sender).wp
      (fun _ => True) (fun _ => ¬ Charged D s b)
      (fun _ w => Charged D s b ∧ Uncapped w.events ∧ w.tokens = D.paid s b) s.core.fresh := by
    simp only [Bilateral.Call.exec, Bilateral.nonReentrant, Tx.wp_code]
    refine ⟨fun h => absurd h Bool.false_ne_true, fun _ => ?_⟩
    refine wp_finalizeSettle_wired (s := entered) (hs.fresh.flag true)
      ⟨hw.feeBridge, hw.core, hw.destinations, hw.guard⟩ hg
      ⟨hdue.created, hdue.finalizing, hdue.elapsed⟩ hnow hpool hengine fun u hu => ?_
    exact ⟨hu.charged, hu.uncapped (fun _ h => absurd h List.not_mem_nil), hu.tokens⟩
  rw [Bilateral.step, if_neg (not_or.mpr ⟨hself, hzero⟩)]
  have hend := hexec.2
  split at hend
  case h_1 u w hok =>
    rw [hok]
    exact .inl ⟨w, rfl, hend⟩
  case h_2 e herror =>
    rw [herror]
    exact .inr ⟨rfl, hend⟩

theorem settled_of_step {w w' : Bilateral.World} {sender : Address}
    (hstep : Bilateral.step D.core w (.call sender env (.finalizeSettle b)) = some w') :
    (w'.bindings b).state = .settled := by
  cases Bilateral.records_of_step hstep with
  | call _ _ hfiles hlogs =>
    cases hfiles with
    | finalized =>
      have hbindings : w'.bindings = update w.bindings b { w.bindings b with state := .settled } :=
        congrArg Bilateral.Docket.bindings hlogs.docket
      rw [hbindings, update_self]

/-- **The bridge and the payout.** In every reachable state of the two contracts, wired together and
without a guard, and for every submitted binding whose window has passed. -/
theorem settled_without_flaw_iff {h : Bilateral.History} {h' : FeeBridge.History}
    {v : FeeBridge.World} {sender : Address} (hr : Bilateral.Reach D.core h s.core)
    (hr' : FeeBridge.Reach D.bridge h' v) (hbridge : s.bridge = v.toStorage) (hw : Wired D s)
    (hdue : Due s b) (hnow : s.core.now < 2 ^ 256)
    (hword : (s.core.tokens (s.token b)).balanceOf D.core.self < 2 ^ 256)
    (hself : sender ≠ D.core.self) (hzero : sender ≠ 0) (hengine : Listening env s) :
    (∃ r, D.finalizeSettle s sender env b = some r ∧ Flawless D s b r) ↔ Payable D s b := by
  have hs := hr.sound
  have hg : s.bridge.Sane := hbridge ▸ hr'.sane
  obtain ⟨hlive, -, -⟩ := Bilateral.live_of_finalizing hdue.created hdue.finalizing
  have hpool : s.pool b < 2 ^ 256 := (pool_le_balanceOf hs hlive).trans_lt hword
  have hspec := finalizeSettle_spec hs hw hg hdue hnow hpool hself hzero hengine
  constructor
  · rintro ⟨r, hrun, hflawless⟩
    obtain ⟨w, hstep, rfl⟩ := Option.map_eq_some_iff.mp hrun
    rcases hspec with ⟨w', hstep', hcharged, -, htokens⟩ | ⟨hnone, -⟩
    · obtain rfl := Option.some.inj (hstep.symm.trans hstep')
      have hroom : s.pool b * s.bridge.feeBps < 2 ^ 256 := by
        by_contra hover
        have hquote : s.quote b = none := if_neg hover
        cases hquote.symm.trans hflawless.quoted
      have hsame : ∀ t, (w.tokens t).balanceOf D.bridge.self =
          (s.core.tokens t).balanceOf D.bridge.self := hflawless.unchanged
      rw [htokens, unchanged_iff hw hg] at hsame
      exact ⟨hroom, hsame.2, hsame.1, (charged_iff hs hw hg hlive hroom).mp hcharged⟩
    · cases hstep.symm.trans hnone
  · intro hpay
    have hcharged := (charged_iff hs hw hg hlive hpay.quoted).mpr hpay.charge
    rcases hspec with ⟨w, hstep, -, huncapped, htokens⟩ | ⟨-, hnot⟩
    · obtain ⟨hcollected, hsent⟩ := moves_receipt hw hg hpool hcharged w
      refine ⟨receipt D s b w, by rw [Deployment.finalizeSettle, hstep, Option.map_some], ?_⟩
      constructor
      · exact settled_of_step hstep
      · rw [hcollected]
        exact (quote_eq hg hpay.quoted).1
      · rw [hcollected, hsent]
      · exact huncapped
      · show ∀ t, (w.tokens t).balanceOf D.bridge.self = _
        rw [htokens]
        exact (unchanged_iff hw hg).mpr ⟨hpay.elsewhere, hpay.agent⟩
    · exact absurd hcharged hnot

namespace Sample

def bridge : FeeBridge.Deployment where
  self := .ofNat 30
  admin := .ofNat 40
  self_ne_zero := by decide
  admin_ne_zero := by decide

def deployment : Deployment where
  core := Bilateral.Sample.deployment
  bridge := bridge
  bridge_ne_core := by decide

def start : FeeBridge.World where
  tokens := fun _ => { balanceOf := fun _ => 0, allowance := fun _ _ => 0 }
  moves := []
  credits := []
  events := []

def wiring : List FeeBridge.Act :=
  [.outside (.bridge (.ofNat 40) (.setCore Bilateral.Sample.deployment.self)),
    .outside (.bridge (.ofNat 40) (.setToken Bilateral.Sample.token)),
    .outside (.bridge (.ofNat 40) (.setFeeBps 1000)),
    .outside (.bridge (.ofNat 40)
      (.setDestinations (.ofNat 41) (.ofNat 42) (.ofNat 43) (.ofNat 44)))]

def wired : FeeBridge.World := (steps (FeeBridge.step bridge) wiring start).getD start

theorem reach_wired :
    FeeBridge.Reach bridge (record (FeeBridge.step bridge) wiring start []) wired := by
  have hsome : (steps (FeeBridge.step bridge) wiring start).isSome := by decide +kernel
  have h0 : FeeBridge.Reach bridge [] start := .start ⟨rfl⟩
  exact h0.stateAfter hsome

def submitted : List Bilateral.Act :=
  [.outside (.core Bilateral.Sample.deployment.admin (.setFeeBridge bridge.self)), .tick 1900,
    .call Bilateral.Sample.buyer {} (.settle 1 0#256), .tick 88300]

def state (as : List Bilateral.Act) : State := ⟨Bilateral.Sample.world as, wired.toStorage⟩

def ready : List Bilateral.Act := Bilateral.Sample.opening ++ submitted

def elsewhere : List Bilateral.Act :=
  [.outside (.core Bilateral.Sample.deployment.admin
      (.setTokenAllowed Bilateral.Sample.token true)),
    .outside (.core Bilateral.Sample.deployment.admin (.setTokenAllowed (.ofNat 21) true)),
    .outside (.erc20 Bilateral.Sample.buyer (.ofNat 21)
      (.approve Bilateral.Sample.deployment.self 100)),
    .outside (.erc20 Bilateral.Sample.agent (.ofNat 21)
      (.approve Bilateral.Sample.deployment.self 50)),
    .call Bilateral.Sample.buyer {} (.lock (.ofNat 21) 100),
    .call Bilateral.Sample.agent {} (.lock (.ofNat 21) 50),
    .call Bilateral.Sample.buyer {} (.bind 1 2 0#256)] ++ submitted

end Sample

open Sample

theorem settled_without_flaw_sample : Payable deployment (state ready) 1 ∧
      (state ready).fee 1 = 15 ∧
      ∃ r, deployment.finalizeSettle (state ready) (.ofNat 7) {} 1 = some r ∧
        Flawless deployment (state ready) 1 r := by
  have hpay : Payable deployment (state ready) 1 :=
    ⟨by decide +kernel, by decide +kernel, by decide +kernel, fun _ => ⟨by decide +kernel,
      by decide +kernel, .inl (by decide +kernel), by decide +kernel, by decide +kernel⟩⟩
  have hwired : Wired deployment (state ready) :=
    ⟨by decide +kernel, by decide +kernel, ⟨by decide +kernel, by decide +kernel, by decide +kernel,
      by decide +kernel⟩, by decide +kernel⟩
  refine ⟨hpay, by decide +kernel, ?_⟩
  exact (settled_without_flaw_iff (Bilateral.Sample.reach ready (by decide +kernel))
    reach_wired rfl hwired ⟨by decide +kernel, by decide +kernel, by decide +kernel⟩
    (by decide +kernel) (by decide +kernel) (by decide) (by decide)
    (.inl (by decide +kernel))).mpr hpay

/-- **A binding in a second allowed token is stuck.** -/
theorem second_token_jams : Bilateral.Reach deployment.core (Bilateral.Sample.history elsewhere)
        (state elsewhere).core ∧
      FeeBridge.Reach deployment.bridge (record (FeeBridge.step bridge) wiring start []) wired ∧
      Wired deployment (state elsewhere) ∧
      Due (state elsewhere) 1 ∧
      (state elsewhere).core.tokenAllowed ((state elsewhere).token 1) = true ∧
      (state elsewhere).quote 1 = some 15 ∧
      deployment.finalizeSettle (state elsewhere) (.ofNat 7) {} 1 = none := by
  refine ⟨Bilateral.Sample.reach _ (by decide +kernel), reach_wired,
    ⟨by decide +kernel, by decide +kernel, ⟨by decide +kernel, by decide +kernel, by decide +kernel,
      by decide +kernel⟩, by decide +kernel⟩,
    ⟨by decide +kernel, by decide +kernel, by decide +kernel⟩, by decide +kernel, by decide +kernel,
    ?_⟩
  exact Option.isNone_iff_eq_none.mp (by decide +kernel)

end Karma.Fees
