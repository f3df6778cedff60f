import Karma.Bilateral.System
import Karma.FeeBridge.Effect

/-! # The settlement core and its fee bridge

When `KarmaBilateral` pays a binding out, it asks `KarmaFeeBridge` for a quote, approves the fee in
the token *of the binding*, and lets the bridge collect it in the token *that it is configured
with*. -/

namespace Karma.Fees

open Evm Function
open Bilateral (Env Reply Owes)

structure Deployment where
  core : Bilateral.Deployment
  bridge : FeeBridge.Deployment
  bridge_ne_core : bridge.self ≠ core.self

structure State where
  core : Bilateral.World
  bridge : FeeBridge.Storage

/-! ## What the core asks the bridge for -/

namespace State

variable (s : State) (b : ℕ)

def pool : ℕ := s.core.book.pool (s.core.bindings b)

def token : Address := s.core.book.poolToken (s.core.bindings b)

def buyer : Address := (s.core.bill (s.core.bindings b).buyerBillId).owner

def agent : Address := (s.core.bill (s.core.bindings b).agentBillId).owner

def quote : Option ℕ := s.bridge.quoteFee (s.core.developer b) (s.pool b)

def fee : ℕ :=
  let quoted := (s.quote b).getD 0
  let fee := if s.pool b < quoted then s.pool b else quoted
  let feeCeiling := s.pool b * Bilateral.maxFeeBps / 10000
  if feeCeiling < fee then feeCeiling else fee

def view (tokens : Address → Erc20 Address) : FeeBridge.World where
  toStorage := s.bridge
  tokens := tokens
  moves := []
  credits := []
  events := []

end State

def Deployment.granted (D : Deployment) (s : State) (b : ℕ) : Address → Erc20 Address :=
  if (s.quote b).getD 0 = 0 then s.core.tokens
  else update s.core.tokens (s.token b)
    ((s.core.tokens (s.token b)).allow D.core.self D.bridge.self (s.fee b))

def Deployment.collect (D : Deployment) (s : State) (b : ℕ) : Option FeeBridge.World :=
  match (FeeBridge.collectAndRecord D.bridge {} D.core.self (.ofNat 256 b) (s.buyer b) (s.agent b)
    (s.core.developer b) (s.pool b) (s.fee b) (s.view (D.granted s b))).result with
  | .ok (_, v) => some v
  | .error _ => none

def Deployment.outside (D : Deployment) : FeeBridge.Move → Bilateral.Outside
  | .pulled token owner amount =>
    .erc20 D.bridge.self token (.transferFrom owner D.bridge.self amount)
  | .sent token target amount => .erc20 D.bridge.self token (.transfer target amount)

def Deployment.reply (D : Deployment) (s : State) (b : ℕ) : Reply Unit :=
  match D.collect s b with
  | some v => { acts := v.moves.map D.outside, answer := some () }
  | none => { answer := none }

def Deployment.env (D : Deployment) (s : State) (b : ℕ) (env : Env) : Env :=
  if s.core.feeBridge = D.bridge.self then
    { env with quoteFee := s.quote b, collectAndRecord := D.reply s b }
  else env

structure Receipt where
  core : Bilateral.World
  bridge : FeeBridge.World

def receipt (D : Deployment) (s : State) (b : ℕ) (w : Bilateral.World) : Receipt where
  core := w
  bridge :=
    if s.core.feeBridge = D.bridge.self ∧ s.pool b ≠ 0 then
      { (D.collect s b).getD (s.view w.tokens) with tokens := w.tokens }
    else s.view w.tokens

def Deployment.finalizeSettle (D : Deployment) (s : State) (sender : Address) (env : Env) (b : ℕ) :
    Option Receipt :=
  (Bilateral.step D.core s.core (.call sender (D.env s b env) (.finalizeSettle b))).map
    (receipt D s b)

variable {D : Deployment} {s : State} {b : ℕ}

theorem fee_eq (hg : s.bridge.Sane) :
    s.fee b = (s.quote b).getD 0 ∧ s.fee b ≤ s.pool b * Bilateral.maxFeeBps / 10000 := by
  have hquote : (s.quote b).getD 0 ≤ s.pool b * Bilateral.maxFeeBps / 10000 := by
    rw [State.quote, FeeBridge.Storage.quoteFee]
    split_ifs
    · exact hg.fee_le (s.pool b)
    · exact Nat.zero_le _
  have hceiling : s.pool b * Bilateral.maxFeeBps / 10000 ≤ s.pool b := by
    rw [Bilateral.maxFeeBps]
    omega
  have hfee : s.fee b = (s.quote b).getD 0 := by
    simp only [State.fee, if_neg (not_lt.mpr (hquote.trans hceiling)), if_neg (not_lt.mpr hquote)]
  exact ⟨hfee, hfee ▸ hquote⟩

theorem fee_le_pool (hg : s.bridge.Sane) : s.fee b ≤ s.pool b := by
  have hle := (fee_eq (b := b) hg).2
  rw [Bilateral.maxFeeBps] at hle
  omega

theorem quote_eq (hg : s.bridge.Sane) (hroom : s.pool b * s.bridge.feeBps < 2 ^ 256) :
    s.quote b = some (s.fee b) ∧
      s.fee b = s.pool b * s.bridge.feeBps / FeeBridge.bpsDenominator := by
  have hquote : s.quote b = some (s.pool b * s.bridge.feeBps / FeeBridge.bpsDenominator) :=
    if_pos hroom
  have hfee := (fee_eq (b := b) hg).1
  rw [hquote, Option.getD_some] at hfee
  rw [hfee]
  exact ⟨hquote, rfl⟩

variable {v : Bilateral.World}

theorem run_erc20 {token : Address} {c : Erc20.Call Address} {T : Erc20 Address}
    (hT : (v.tokens token).run D.bridge.self c = some T) :
    Bilateral.Outside.run D.core (.erc20 D.bridge.self token c) v =
      { v with tokens := update v.tokens token T } := by
  have hsender : ¬ (D.bridge.self = D.core.self ∨ D.bridge.self = 0) :=
    not_or.mpr ⟨D.bridge_ne_core, D.bridge.self_ne_zero⟩
  simp only [Bilateral.Outside.run, Bilateral.Outside.attempt, Bilateral.Outside.sender,
    if_neg hsender, hT, Option.map_some, Option.getD_some]

theorem after_sends (token : Address) (ps : List (Address × ℕ)) (v : Bilateral.World)
    (hto : ∀ p ∈ ps, p.1 ≠ 0)
    (hcovered : Erc20.total ps ≤ (v.tokens token).balanceOf D.bridge.self) :
    Tx.after (Bilateral.Outside.run D.core) ((FeeBridge.sends token ps).map D.outside) v = { v with
        tokens := update v.tokens token ((v.tokens token).pay D.bridge.self ps) } := by
  induction ps generalizing v with
  | nil => simp [Tx.after, FeeBridge.sends, Erc20.pay]
  | cons p ps ih =>
    have htotal : Erc20.total (p :: ps) = p.2 + Erc20.total ps := rfl
    rw [htotal] at hcovered
    have hrest : ∀ q ∈ ps, q.1 ≠ 0 := fun q hq => hto q (List.mem_cons_of_mem _ hq)
    by_cases hp : 0 < p.2
    · have hsends : FeeBridge.sends token (p :: ps) =
          .sent token p.1 p.2 :: FeeBridge.sends token ps := by
        simp [FeeBridge.sends, hp]
      have hrun : (v.tokens token).run D.bridge.self (.transfer p.1 p.2) =
          some ((v.tokens token).move D.bridge.self p.1 p.2) :=
        Erc20.transfer_eq_some.mpr ⟨D.bridge.self_ne_zero, hto p List.mem_cons_self, by omega, rfl⟩
      have hleft : Erc20.total ps ≤
          ((v.tokens token).move D.bridge.self p.1 p.2).balanceOf D.bridge.self :=
        Erc20.le_balanceOf_move (by omega)
      rw [hsends, List.map_cons, Tx.after, List.foldl_cons, Deployment.outside, run_erc20 hrun]
      have hnext := ih { v with
          tokens := update v.tokens token
            ((v.tokens token).move D.bridge.self p.1 p.2) } hrest (by simpa using hleft)
      rw [Tx.after] at hnext
      rw [hnext]
      simp [Erc20.pay]
    · have hsends : FeeBridge.sends token (p :: ps) = FeeBridge.sends token ps := by
        simp [FeeBridge.sends, hp]
      have hzero : p.2 = 0 := by omega
      have hpay : (v.tokens token).pay D.bridge.self (p :: ps) =
          (v.tokens token).pay D.bridge.self ps := by
        simp [Erc20.pay, hzero]
      rw [hsends, hpay]
      exact ih v hrest (by omega)

theorem after_moves {amount fee : ℕ} (hg : s.bridge.Sane) (hdest : s.bridge.Addressed)
    (hfee : fee ≠ 0) (hc : FeeBridge.Collects D.bridge (s.view v.tokens) D.core.self amount fee) :
    Tx.after (Bilateral.Outside.run D.core)
        (((s.view v.tokens).distributed D.bridge fee).moves.map D.outside) v =
      { v with tokens := ((s.view v.tokens).distributed D.bridge fee).tokens } := by
  have hcore : D.core.self = s.bridge.core := hc.core
  obtain ⟨-, hcoreNe, hallowed, hcovered⟩ := hc.pull hfee
  have hmoves := FeeBridge.moves_distributed (D := D.bridge) (w := s.view v.tokens) hfee
  have hpull : (v.tokens s.bridge.token).run D.bridge.self
      (.transferFrom s.bridge.core D.bridge.self fee) =
      some (((v.tokens s.bridge.token).spend s.bridge.core D.bridge.self fee).move
        s.bridge.core D.bridge.self fee) :=
    Erc20.transferFrom_eq_some.mpr ⟨hcoreNe, D.bridge.self_ne_zero, hallowed, hcovered, rfl⟩
  have hsplit : ((s.view v.tokens).distributed D.bridge fee).moves.map D.outside =
      D.outside (.pulled s.bridge.token s.bridge.core fee) ::
        (FeeBridge.sends s.bridge.token (s.bridge.shares fee)).map D.outside := by
    rw [hmoves]
    rfl
  rw [hsplit, Tx.after, List.foldl_cons, Deployment.outside, run_erc20 hpull]
  -- the four payments start from what the pull has left
  have hsends := after_sends (D := D) s.bridge.token (s.bridge.shares fee) { v with
      tokens := update v.tokens s.bridge.token
        (((v.tokens s.bridge.token).spend s.bridge.core D.bridge.self fee).move
          s.bridge.core D.bridge.self fee) }
    (hdest.shares fee) (by
      rw [FeeBridge.Storage.total_shares hg]
      exact FeeBridge.le_balanceOf_pull (w := s.view v.tokens) hcovered)
  rw [Tx.after] at hsends
  rw [hsends]
  rw [FeeBridge.World.distributed, if_neg hfee, FeeBridge.foldl_send]
  rfl

/-! ## The fee of a settlement -/

def Charged (D : Deployment) (s : State) (b : ℕ) : Prop :=
  s.fee b ≠ 0 → s.pool b * Bilateral.maxFeeBps < 2 ^ 256 ∧
    FeeBridge.Collects D.bridge (s.view (D.granted s b)) D.core.self (s.pool b) (s.fee b)

def Deployment.charged (D : Deployment) (s : State) (b : ℕ) : Address → Erc20 Address :=
  if s.fee b = 0 then s.core.tokens
  else ((s.view (D.granted s b)).distributed D.bridge (s.fee b)).tokens

theorem collect_spec (hg : s.bridge.Sane) (hdest : s.bridge.Addressed)
    (hpool : s.pool b < 2 ^ 256) :
    (∃ u, D.collect s b = some u ∧
      FeeBridge.Collects D.bridge (s.view (D.granted s b)) D.core.self (s.pool b) (s.fee b) ∧
      FeeBridge.Collected D.bridge (s.view (D.granted s b)) u (s.pool b) (s.fee b)) ∨
    D.collect s b = none ∧
      ¬ FeeBridge.Collects D.bridge (s.view (D.granted s b)) D.core.self (s.pool b) (s.fee b) := by
  have hwp : (FeeBridge.collectAndRecord D.bridge {} D.core.self (.ofNat 256 b) (s.buyer b)
      (s.agent b) (s.core.developer b) (s.pool b) (s.fee b)).wp _ _ _ (s.view (D.granted s b)) :=
    FeeBridge.wp_collectAndRecord hg hdest rfl hpool
  rw [Deployment.collect]
  have hend := hwp.2
  split at hend
  case h_1 u hok =>
    rw [hok]
    exact .inl ⟨_, rfl, hend⟩
  case h_2 e herror =>
    rw [herror]
    exact .inr ⟨rfl, hend⟩

theorem reply_acts_of_fee (hg : s.bridge.Sane) (hdest : s.bridge.Addressed)
    (hpool : s.pool b < 2 ^ 256) (hfee : s.fee b = 0) : (D.reply s b).acts = [] := by
  rw [Deployment.reply]
  rcases collect_spec (D := D) (b := b) hg hdest hpool with ⟨u, hu, -, hcollected⟩ | ⟨hnone, -⟩
  · rw [hu]
    have hmoves := hcollected.moves
    rw [hfee, FeeBridge.World.distributed, if_pos rfl] at hmoves
    simp [hmoves, State.view]
  · rw [hnone]

structure Charge (D : Deployment) (s : State) (b : ℕ) (v : Bilateral.World) (fee : ℕ)
    (u : Bilateral.World) : Prop where
  fee : fee = s.fee b
  charged : Charged D s b
  config : u.toConfig = v.toConfig
  events : u.events = v.events
  tokens : u.tokens = D.charged s b

theorem wp_approveAndCollect_wired {env : Env} {c : Bilateral.OutCall}
    (henv : env.collectAndRecord = D.reply s b) (hg : s.bridge.Sane) (hdest : s.bridge.Addressed)
    (hpool : s.pool b < 2 ^ 256) (htokens : v.tokens = s.core.tokens) (hfee : s.fee b ≠ 0)
    (hroom : s.pool b * Bilateral.maxFeeBps < 2 ^ 256) :
    (Bilateral.approveAndCollect D.core env (s.token b) D.bridge.self (s.fee b) c).wp
      (fun _ => True) (fun _ => ¬ Charged D s b) (fun _ u => Charge D s b v (s.fee b) u) v := by
  have hquoted := (fee_eq (b := b) hg).1
  have hgranted : D.granted s b = update s.core.tokens (s.token b)
      ((s.core.tokens (s.token b)).allow D.core.self D.bridge.self (s.fee b)) :=
    if_neg (hquoted ▸ hfee)
  have happrove : (s.core.tokens (s.token b)).approve D.core.self D.bridge.self (s.fee b) =
      some ((s.core.tokens (s.token b)).allow D.core.self D.bridge.self (s.fee b)) :=
    Erc20.approve_eq_some.mpr ⟨D.core.self_ne_zero, D.bridge.self_ne_zero, rfl⟩
  simp only [Bilateral.approveAndCollect, Bilateral.callOut, Tx.wp_code, Tx.wp_callOut_of_acts,
    htokens, henv, happrove]
  refine ⟨fun hnone => absurd hnone (Option.some_ne_none _), fun T hT => ?_⟩
  cases hT
  rw [← hgranted, Deployment.reply]
  rcases collect_spec (D := D) (b := b) hg hdest hpool with
    ⟨u, hu, hcollects, hcollected⟩ | ⟨hnone, hcollects⟩
  · rw [hu]
    refine ⟨fun hnone => absurd hnone (Option.some_ne_none _), fun _ => ?_⟩
    dsimp only [Option.isSome_some, if_true]
    rw [if_pos rfl, hcollected.moves]
    rw [after_moves (s := s) (v := { v with
        tokens := D.granted s b
        moves := v.moves ++ [.granted (s.token b) D.bridge.self (s.fee b)]
        calls := v.calls ++ [c] }) hg hdest hfee hcollects]
    refine ⟨rfl, fun _ => ⟨hroom, hcollects⟩, rfl, rfl, ?_⟩
    rw [Deployment.charged, if_neg hfee]
  · rw [hnone]
    exact ⟨fun _ hcharged => hcollects (hcharged hfee).2, fun h => absurd rfl h⟩

theorem wp_collectEconomyFee_wired {env : Env} (hbridge : s.core.feeBridge = D.bridge.self)
    (hg : s.bridge.Sane) (hdest : s.bridge.Addressed) (hpool : s.pool b < 2 ^ 256)
    (hconfig : v.toConfig = s.core.toConfig) (htokens : v.tokens = s.core.tokens) :
    (Bilateral.collectEconomyFee D.core (D.env s b env) b (s.token b) (s.buyer b) (s.agent b)
      (s.core.developer b) (s.pool b)).wp (fun _ => True) (fun _ => ¬ Charged D s b)
      (Charge D s b v) v := by
  have henv : (D.env s b env).quoteFee = s.quote b ∧
      (D.env s b env).collectAndRecord = D.reply s b := by
    rw [Deployment.env, if_pos hbridge]
    exact ⟨rfl, rfl⟩
  obtain ⟨hquoted, hceiling⟩ := fee_eq (b := b) hg
  have hle := fee_le_pool (b := b) hg
  have hfeeBridge : v.feeBridge = D.bridge.self := by
    rw [hconfig]
    exact hbridge
  have hfree : ∀ u : Bilateral.World, s.fee b = 0 → u.toConfig = v.toConfig →
      u.events = v.events → u.tokens = v.tokens → Charge D s b v 0 u := by
    intro u hzero huc hue hut
    refine ⟨hzero.symm, fun hne => absurd hzero hne, huc, hue, ?_⟩
    rw [hut, htokens, Deployment.charged, if_pos hzero]
  -- neither the pool nor the ceiling cuts the quote
  have huncut : (if s.pool b < (s.quote b).getD 0 then s.pool b else (s.quote b).getD 0) =
      s.fee b := by
    rw [if_neg (by omega), hquoted]
  simp only [Bilateral.collectEconomyFee, Tx.wp_code, Bilateral.wp_emit, henv.1, huncut,
    if_neg (not_lt.mpr hceiling), hfeeBridge]
  refine ⟨fun hnone => ?_, fun _ => ⟨fun hzero => ?_, fun hpos => ⟨fun hroom => ?_,
    fun hroom => ?_⟩⟩⟩
  · -- an empty pool
    have hempty : s.pool b = 0 := hnone.resolve_left D.bridge.self_ne_zero
    exact hfree v (by omega) rfl rfl rfl
  · -- a quote of nothing: the bridge is only told
    have hfee : s.fee b = 0 := hquoted.trans hzero
    rw [Bilateral.callOut, henv.2, reply_acts_of_fee hg hdest hpool hfee]
    simp only [Tx.wp_code, Tx.wp_callOut_nil, true_and]
    exact hfree _ hfee rfl rfl rfl
  · refine ⟨fun hcap => absurd hcap (not_lt.mpr hceiling), fun _ => ?_⟩
    exact wp_approveAndCollect_wired henv.2 hg hdest hpool htokens (by omega) hroom
  · -- the ceiling overflows
    intro hcharged
    exact hroom (hcharged (by omega)).1

end Karma.Fees
