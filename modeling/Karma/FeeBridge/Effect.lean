import Karma.Evm.Keeps
import Karma.FeeBridge.Code
import Mathlib.Tactic.Ring

/-! # `KarmaFeeBridge` — what a collection does

In every run the rate of the bridge is at most a tenth and its four parts are ten (`Reach.sane`). -/

namespace Karma.FeeBridge

open Evm Function

variable {D : Deployment} {h : History} {w w' : World} {sender : Address} {I : World → Prop}
  {E : Error → Prop} {Q : Unit → World → Prop}

@[simp] theorem wp_emit (e : Event) :
    (emit e).wp I E Q w ↔ Q () { w with events := w.events ++ [e] } := by
  simp [emit]

@[simp] theorem wp_write (f : Storage → Storage) :
    (write f).wp I E Q w ↔ Q () { w with toStorage := f w.toStorage } := by
  simp [write]

/-! ## What the setters check -/

structure Storage.Sane (g : Storage) : Prop where
  rate : g.feeBps ≤ maxFeeBps
  parts : g.treasuryShare + g.verifierShare + g.buybackShare + g.developerShare = 10

theorem wp_openCall (hw : w.Sane) (c : OpenCall) :
    (c.exec D sender).wp I (fun _ => True) (fun _ w' => w'.Sane) w := by
  cases c with
  | setCore =>
    simp only [OpenCall.exec, setCore, onlyAdmin, Tx.post_code, wp_write, wp_emit]
    exact fun _ _ => ⟨hw.rate, hw.parts⟩
  | setToken =>
    simp only [OpenCall.exec, setToken, onlyAdmin, Tx.post_code, wp_write, wp_emit]
    exact fun _ _ => ⟨hw.rate, hw.parts⟩
  | setFeeBps =>
    simp only [OpenCall.exec, setFeeBps, onlyAdmin, Tx.post_code, wp_write, wp_emit]
    exact fun _ hle => ⟨not_lt.mp hle, hw.parts⟩
  | setSplit =>
    simp only [OpenCall.exec, setSplit, onlyAdmin, Tx.post_code, wp_write, wp_emit]
    exact fun _ _ _ _ hten => ⟨hw.rate, not_not.mp hten⟩
  | setDestinations =>
    simp only [OpenCall.exec, setDestinations, onlyAdmin, Tx.post_code, wp_write, wp_emit]
    exact fun _ _ => ⟨hw.rate, hw.parts⟩
  | rescueTokens =>
    simp only [OpenCall.exec, rescueTokens, onlyAdmin, Tx.post_code]
    exact fun _ _ _ _ => ⟨hw.rate, hw.parts⟩

theorem sane_of_attempt {a : Outside} (h : a.attempt D w = some w') (hw : w.Sane) : w'.Sane := by
  unfold Outside.attempt at h
  split_ifs at h with hsender
  cases a with
  | bridge sender c =>
    dsimp only at h
    split at h
    case h_1 u hr =>
      cases h
      exact Tx.wp_ok (wp_openCall (I := fun _ => True) hw c) hr
    case h_2 => cases h
  | erc20 sender token c =>
    obtain ⟨T, -, rfl⟩ := Option.map_eq_some_iff.mp h
    exact ⟨hw.rate, hw.parts⟩

theorem sane_run (a : Outside) (hw : w.Sane) : (a.run D w).Sane := by
  rw [Outside.run]
  cases h : a.attempt D w with
  | none => exact hw
  | some w' => exact sane_of_attempt h hw

def KeepsSane (w w' : World) : Prop := w.Sane → w'.Sane

instance : IsPreorder World KeepsSane where
  refl _ := id
  trans _ _ _ h h' hw := h' (h hw)

variable {target : Address} {amount fee : ℕ} {credit : Credit}

instance : Tx.Keeps KeepsSane (transferOut D target amount) where
  post w := by
    simp only [transferOut, Tx.post_code]
    exact fun _ _ _ hw => ⟨hw.rate, hw.parts⟩

instance {pool : Address} : Tx.Keeps KeepsSane (creditVerifierRewards D credit pool amount) := by
  have hcall : Tx.Keeps KeepsSane (Tx.callOut (Outside.run D) credit.acts credit.answer : M _) :=
    Tx.keeps_callOut fun a _ _ => sane_run a
  have hnote := Tx.keeps_modify (ε := Error) (R := KeepsSane)
    (g := fun w => { w with credits := w.credits ++ [(pool, amount)] }) fun _ => id
  unfold creditVerifierRewards
  infer_instance

instance : Tx.Keeps KeepsSane (payShare D target amount) := by
  unfold payShare
  infer_instance

set_option synthInstance.maxSize 20000 in
instance : Tx.Keeps KeepsSane (distribute D credit fee) := by
  dsimp only [distribute]
  infer_instance

variable {orderId : Bytes32} {buyer seller developer : Address}

instance : Tx.Keeps KeepsSane (recordFee orderId buyer seller developer amount fee) where
  post w := by
    simp only [recordFee, Tx.post_code, wp_write, wp_emit]
    exact fun _ _ hw => ⟨hw.rate, hw.parts⟩

theorem collectAndRecord_sane (hw : w.Sane) :
    (collectAndRecord D credit sender orderId buyer seller developer amount fee).post
      (fun _ w' => w'.Sane) w := by
  simp only [collectAndRecord, Tx.post_code]
  refine fun _ _ _ => ⟨fun _ T _ => ?_, fun _ => ?_⟩
  · refine Tx.Keeps.then (R := KeepsSane) inferInstance fun _ v hv => ?_
    exact Tx.Keeps.then (R := KeepsSane) inferInstance fun _ _ h => h (hv hw)
  · exact Tx.Keeps.then (R := KeepsSane) inferInstance fun _ _ h => h hw

theorem Reach.sane (hr : Reach D h w) : w.Sane := by
  apply hr.safe (P := fun w => w.Sane)
  · intro w hinit
    have hstorage : w.toStorage = {} := hinit.storage
    rw [hstorage]
    exact ⟨by decide, rfl⟩
  · intro w a w' hw hstep
    have hfresh : w.fresh.Sane := hw
    cases a with
    | outside o => exact sane_of_attempt hstep hfresh
    | collectAndRecord credit sender orderId buyer seller developer amount fee =>
      rw [step] at hstep
      split_ifs at hstep
      split at hstep
      case h_1 u hr =>
        cases hstep
        exact Tx.wp_ok (collectAndRecord_sane hfresh) hr
      case h_2 => cases hstep

/-! ## The shares -/

def Storage.shares (g : Storage) (fee : ℕ) : List (Address × ℕ) :=
  let treasuryAmt := fee * g.treasuryShare / 10
  let verifierAmt := fee * g.verifierShare / 10
  let buybackAmt := fee * g.buybackShare / 10
  [(g.treasury, treasuryAmt), (g.verifierPool, verifierAmt), (g.buybackSink, buybackAmt),
    (g.developerDestination, fee - treasuryAmt - verifierAmt - buybackAmt)]

variable {g : Storage}

theorem Storage.Sane.shares_le (hg : g.Sane) (fee : ℕ) :
    fee * g.treasuryShare / 10 + fee * g.verifierShare / 10 + fee * g.buybackShare / 10 ≤ fee := by
  have hparts : fee * g.treasuryShare + fee * g.verifierShare + fee * g.buybackShare +
      fee * g.developerShare = fee * 10 := by
    rw [← hg.parts]
    ring
  omega

theorem Storage.total_shares (hg : g.Sane) (fee : ℕ) :
    Erc20.total (g.shares fee) = fee := by
  have hle := hg.shares_le fee
  simp only [Storage.shares, Erc20.total, List.map_cons, List.map_nil, List.sum_cons, List.sum_nil]
  omega

theorem Storage.Sane.share_le (hg : g.Sane) (fee : ℕ) :
    fee * g.treasuryShare ≤ fee * 10 ∧ fee * g.verifierShare ≤ fee * 10 ∧
      fee * g.buybackShare ≤ fee * 10 := by
  have hparts := hg.parts
  exact ⟨Nat.mul_le_mul_left _ (by omega), Nat.mul_le_mul_left _ (by omega),
    Nat.mul_le_mul_left _ (by omega)⟩

theorem Storage.Sane.fee_le (hg : g.Sane) (amount : ℕ) :
    amount * g.feeBps / bpsDenominator ≤ amount * maxFeeBps / bpsDenominator :=
  Nat.div_le_div_right (Nat.mul_le_mul_left _ hg.rate)

structure Storage.Addressed (g : Storage) : Prop where
  treasury : g.treasury ≠ 0
  verifierPool : g.verifierPool ≠ 0
  buybackSink : g.buybackSink ≠ 0
  developerDestination : g.developerDestination ≠ 0

theorem Storage.Addressed.shares (h : g.Addressed) (fee : ℕ) :
    ∀ p ∈ g.shares fee, p.1 ≠ 0 := by
  simp [Storage.shares, h.treasury, h.verifierPool, h.buybackSink, h.developerDestination]

/-! ## A collection, exactly -/

def World.pull (D : Deployment) (w : World) (n : ℕ) : World :=
  { w with
    tokens := update w.tokens w.token
      (((w.tokens w.token).spend w.core D.self n).move w.core D.self n)
    moves := w.moves ++ [.pulled w.token w.core n] }

def World.send (D : Deployment) (w : World) (p : Address × ℕ) : World :=
  { w with
    tokens := update w.tokens w.token ((w.tokens w.token).move D.self p.1 p.2)
    moves := w.moves ++ if 0 < p.2 then [.sent w.token p.1 p.2] else [] }

def sends (token : Address) (ps : List (Address × ℕ)) : List Move :=
  (ps.filter fun p => 0 < p.2).map fun p => .sent token p.1 p.2

theorem foldl_send (w : World) (ps : List (Address × ℕ)) : ps.foldl (World.send D) w = { w with
      tokens := update w.tokens w.token ((w.tokens w.token).pay D.self ps)
      moves := w.moves ++ sends w.token ps } := by
  induction ps generalizing w with
  | nil => simp [Erc20.pay, sends]
  | cons p ps ih =>
    rw [List.foldl_cons, ih]
    by_cases hp : 0 < p.2
    · simp [World.send, sends, hp, Erc20.pay]
    · simp [World.send, sends, hp, Erc20.pay]

theorem wp_transferOut {n : ℕ} (htoken : w.token ≠ 0) (htarget : target ≠ 0)
    (hn : n ≤ (w.tokens w.token).balanceOf D.self) (hpos : 0 < n)
    (hQ : Q () (w.send D (target, n))) : (transferOut D target n).wp I E Q w := by
  have hrun : w.callToken w.token D.self (.transfer target n) =
      some ((w.tokens w.token).move D.self target n) := by
    rw [World.callToken, if_neg htoken]
    exact Erc20.transfer_eq_some.mpr ⟨D.self_ne_zero, htarget, hn, rfl⟩
  rw [World.send, if_pos hpos] at hQ
  simp only [transferOut, Tx.wp_code, hrun]
  refine ⟨fun hzero => absurd hzero htarget, fun _ =>
    ⟨fun hnone => absurd hnone (Option.some_ne_none _), fun T hT => ?_⟩⟩
  cases hT
  exact hQ

theorem send_zero (w : World) (target : Address) : w.send D (target, 0) = w := by
  simp [World.send]

theorem wp_payShare {n : ℕ} (htoken : w.token ≠ 0) (htarget : target ≠ 0)
    (hn : n ≤ (w.tokens w.token).balanceOf D.self) (hQ : Q () (w.send D (target, n))) :
    (payShare D target n).wp I E Q w := by
  rw [payShare, Tx.wp_ite, Tx.wp_pure]
  refine ⟨fun hpos => wp_transferOut htoken htarget hn hpos hQ, fun hzero => ?_⟩
  obtain rfl : n = 0 := by omega
  rwa [send_zero] at hQ

theorem le_balanceOf_send {m n : ℕ} (target : Address)
    (h : m + n ≤ (w.tokens w.token).balanceOf D.self) :
    m ≤ ((w.send D (target, n)).tokens w.token).balanceOf D.self := by
  have htokens : (w.send D (target, n)).tokens w.token = (w.tokens w.token).move D.self target n :=
    update_self ..
  rw [htokens]
  exact Erc20.le_balanceOf_move h

theorem wp_distribute (hw : w.Sane) (hdest : w.Addressed)
    (hpool : credit.acts = []) (hpos : 0 < fee) (hroom : fee * 10 < 2 ^ 256) (htoken : w.token ≠ 0)
    (hfee : fee ≤ (w.tokens w.token).balanceOf D.self)
    (hQ : ∀ v, v.toStorage = w.toStorage →
      v.tokens = ((w.shares fee).foldl (World.send D) w).tokens →
      v.moves = ((w.shares fee).foldl (World.send D) w).moves → Q () v) :
    (distribute D credit fee).wp (fun _ => True) E Q w := by
  have hparts := hw.parts
  have hshares := hw.shares_le fee
  obtain ⟨htreasury, hverifier, hbuyback⟩ := hw.share_le fee
  simp only [distribute, Tx.wp_code, hparts]
  refine ⟨fun _ => ⟨fun _ => ⟨fun _ => ⟨fun h => ?_, fun _ => ?_⟩, fun h => ?_⟩, fun h => ?_⟩,
    fun h => ?_⟩
  · omega
  · -- the arithmetic cannot fail
    refine ⟨fun _ => ⟨fun _ => ⟨fun _ => ⟨fun _ => ⟨fun _ => ⟨fun _ => ?_, fun h => ?_⟩,
      fun h => ?_⟩, fun h => ?_⟩, fun h => ?_⟩, fun h => ?_⟩, fun h => ?_⟩
    · -- the four payments, and what is left after each of the first three
      have hleft₁ := le_balanceOf_send (D := D) (w := w) w.treasury
        (m := fee - fee * w.treasuryShare / 10) (n := fee * w.treasuryShare / 10) (by omega)
      have hleft₂ := le_balanceOf_send (D := D) (w := w.send D _) w.verifierPool
        (m := fee - fee * w.treasuryShare / 10 - fee * w.verifierShare / 10)
        (n := fee * w.verifierShare / 10) (hleft₁.trans' (by omega))
      have hleft₃ := le_balanceOf_send (D := D) (w := (w.send D _).send D _) w.buybackSink
        (m := fee - fee * w.treasuryShare / 10 - fee * w.verifierShare / 10 -
          fee * w.buybackShare / 10)
        (n := fee * w.buybackShare / 10) (hleft₂.trans' (by omega))
      refine wp_payShare htoken hdest.treasury (by omega) ⟨fun hpos₂ => ?_, fun hzero₂ => ?_⟩
      · refine wp_transferOut htoken hdest.verifierPool (hleft₁.trans' (by omega)) hpos₂ ?_
        simp only [creditVerifierRewards, hpool, Tx.wp_code, Tx.wp_callOut_nil, true_and]
        refine wp_payShare htoken hdest.buybackSink (hleft₂.trans' (by omega)) ?_
        exact wp_payShare htoken hdest.developerDestination hleft₃ (hQ _ rfl rfl rfl)
      · have hnone : fee * w.verifierShare / 10 = 0 := by omega
        rw [hnone, send_zero] at hleft₃ hleft₂
        refine wp_payShare htoken hdest.buybackSink (hleft₂.trans' (by omega)) ?_
        refine wp_payShare htoken hdest.developerDestination (hleft₃.trans' (by omega)) ?_
        have hfour : (w.shares fee).foldl (World.send D) w =
            ((w.send D (w.treasury, fee * w.treasuryShare / 10)).send D
              (w.buybackSink, fee * w.buybackShare / 10)).send D (w.developerDestination,
                fee - fee * w.treasuryShare / 10 - fee * w.verifierShare / 10 -
                  fee * w.buybackShare / 10) := by
          simp only [Storage.shares, List.foldl_cons, List.foldl_nil, hnone, send_zero]
        exact hQ _ rfl (by rw [hfour]; rfl) (by rw [hfour]; rfl)
    · omega
    · omega
    · omega
    · omega
    · omega
    · omega
  · omega
  · omega
  · omega

structure Collects (D : Deployment) (w : World) (sender : Address) (amount fee : ℕ) : Prop where
  core : sender = w.core
  room : amount * w.feeBps < 2 ^ 256
  expected : fee = amount * w.feeBps / bpsDenominator
  pull : fee ≠ 0 → w.token ≠ 0 ∧ w.core ≠ 0 ∧ fee ≤ (w.tokens w.token).allowance w.core D.self ∧
    fee ≤ (w.tokens w.token).balanceOf w.core
  gmv : w.totalGmvRecorded + amount < 2 ^ 256
  fees : w.totalFeesCollected + fee < 2 ^ 256

def World.distributed (D : Deployment) (w : World) (fee : ℕ) : World :=
  if fee = 0 then w else (w.shares fee).foldl (World.send D) (w.pull D fee)

structure Collected (D : Deployment) (w w' : World) (amount fee : ℕ) : Prop where
  storage : w'.toStorage = { w.toStorage with
    totalGmvRecorded := w.totalGmvRecorded + amount
    totalFeesCollected := w.totalFeesCollected + fee }
  tokens : w'.tokens = (w.distributed D fee).tokens
  moves : w'.moves = (w.distributed D fee).moves

theorem le_balanceOf_pull {n : ℕ} (hn : n ≤ (w.tokens w.token).balanceOf w.core) :
    n ≤ ((w.pull D n).tokens w.token).balanceOf D.self := by
  have htokens : (w.pull D n).tokens w.token =
      ((w.tokens w.token).spend w.core D.self n).move w.core D.self n := update_self ..
  rw [htokens]
  by_cases hcore : w.core = D.self
  · rw [hcore] at hn ⊢
    rw [Erc20.move_self (T := (w.tokens w.token).spend D.self D.self n) hn]
    exact hn
  · rw [Erc20.move_balanceOf_target hcore]
    exact Nat.le_add_left ..

theorem wp_recordFee {v : World} {orderId : Bytes32}
    {amount fee : ℕ} (hstorage : v.toStorage = w.toStorage)
    (htokens : v.tokens = (w.distributed D fee).tokens)
    (hmoves : v.moves = (w.distributed D fee).moves)
    (hc : w.totalGmvRecorded + amount < 2 ^ 256 → w.totalFeesCollected + fee < 2 ^ 256 →
      Collects D w sender amount fee) :
    (recordFee orderId buyer seller developer amount fee).wp I
      (fun _ => ¬ Collects D w sender amount fee)
      (fun _ w' => Collects D w sender amount fee ∧ Collected D w w' amount fee) v := by
  simp only [recordFee, Tx.wp_code, wp_write, wp_emit, hstorage]
  refine ⟨fun hgmv => ⟨fun hfees => ⟨hc hgmv hfees, rfl, htokens, hmoves⟩, fun hfees hc => ?_⟩,
    fun hgmv hc => ?_⟩
  · exact hfees hc.fees
  · exact hgmv hc.gmv

theorem wp_collectAndRecord {orderId : Bytes32}
    {amount fee : ℕ} (hw : w.Sane) (hdest : w.Addressed)
    (hpool : credit.acts = []) (hamount : amount < 2 ^ 256) :
    (collectAndRecord D credit sender orderId buyer seller developer amount fee).wp
      (fun _ => True) (fun _ => ¬ Collects D w sender amount fee)
      (fun _ w' => Collects D w sender amount fee ∧ Collected D w w' amount fee) w := by
  simp only [collectAndRecord, Tx.wp_code]
  refine ⟨fun hsender hc => hsender hc.core, fun hsender => ⟨fun hroom => ⟨fun hfee hc => ?_,
    fun hfee => ⟨fun hpos => ⟨fun hnone hc => ?_, fun T hT => ?_⟩, fun hzero => ?_⟩⟩,
    fun hroom hc => hroom hc.room⟩⟩
  · exact hfee hc.expected
  · -- a pull that fails is one that is not covered
    obtain ⟨htoken, hcore, hallowed, hcovered⟩ := hc.pull hpos.ne'
    have hsome := Erc20.transferFrom_eq_some.mpr ⟨hcore, D.self_ne_zero, hallowed, hcovered, rfl⟩
    rw [World.callToken, if_neg htoken] at hnone
    cases hnone.symm.trans hsome
  · have htoken : w.token ≠ 0 := by
      intro hzero
      simp [World.callToken, hzero] at hT
    rw [World.callToken, if_neg htoken] at hT
    obtain ⟨hcore, -, hallowed, hcovered, rfl⟩ := Erc20.transferFrom_eq_some.mp hT
    have hle := hw.fee_le amount
    have hexpected : fee = amount * w.feeBps / bpsDenominator := not_not.mp hfee
    have hten : fee * 10 < 2 ^ 256 := by
      simp only [bpsDenominator, maxFeeBps] at hle hexpected
      omega
    refine wp_distribute (w := w.pull D fee) hw hdest hpool hpos hten htoken
      (le_balanceOf_pull hcovered) fun v hstorage htokens hmoves => ?_
    have hdistributed : w.distributed D fee =
        (w.shares fee).foldl (World.send D) (w.pull D fee) := if_neg hpos.ne'
    refine wp_recordFee hstorage ?_ ?_ fun hgmv hfees => ?_
    · rw [hdistributed]
      exact htokens
    · rw [hdistributed]
      exact hmoves
    · exact ⟨not_not.mp hsender, hroom, hexpected, fun _ => ⟨htoken, hcore, hallowed, hcovered⟩,
        hgmv, hfees⟩
  · obtain rfl : fee = 0 := by omega
    refine wp_recordFee rfl rfl rfl fun hgmv hfees => ?_
    exact ⟨not_not.mp hsender, hroom, not_not.mp hfee, fun hne => absurd rfl hne, hgmv, hfees⟩

/-! ## The books of the bridge -/

/-- What the token calls `ms` bring in. -/
def collected (ms : List Move) : ℕ :=
  (ms.map fun
    | .pulled _ _ n => n
    | .sent _ _ _ => 0).sum

/-- What the token calls `ms` send on. -/
def sentOn (ms : List Move) : ℕ :=
  (ms.map fun
    | .pulled _ _ _ => 0
    | .sent _ _ n => n).sum

theorem sentOn_sends (token : Address) (ps : List (Address × ℕ)) :
    sentOn (sends token ps) = Erc20.total ps ∧ collected (sends token ps) = 0 := by
  induction ps with
  | nil => exact ⟨rfl, rfl⟩
  | cons p ps ih =>
    obtain ⟨hsent, hcollected⟩ := ih
    have htotal : Erc20.total (p :: ps) = p.2 + Erc20.total ps := rfl
    by_cases hp : 0 < p.2
    · have hsends : sends token (p :: ps) = .sent token p.1 p.2 :: sends token ps := by
        simp [sends, hp]
      have hsentOn : sentOn (sends token (p :: ps)) = p.2 + sentOn (sends token ps) := by
        rw [hsends]
        rfl
      have hcollectedOn : collected (sends token (p :: ps)) = 0 + collected (sends token ps) := by
        rw [hsends]
        rfl
      exact ⟨by rw [hsentOn, hsent, htotal], by rw [hcollectedOn, hcollected]⟩
    · have hsends : sends token (p :: ps) = sends token ps := by
        simp [sends, hp]
      rw [hsends, htotal]
      exact ⟨by omega, hcollected⟩

theorem moves_distributed (hfee : fee ≠ 0) : (w.distributed D fee).moves =
      w.moves ++ [.pulled w.token w.core fee] ++ sends w.token (w.shares fee) := by
  rw [World.distributed, if_neg hfee, foldl_send]
  rfl

theorem collected_distributed (hw : w.Sane) (hmoves : w.moves = []) :
    collected (w.distributed D fee).moves = fee ∧ sentOn (w.distributed D fee).moves = fee := by
  by_cases hfee : fee = 0
  · rw [World.distributed, if_pos hfee, hmoves, hfee]
    exact ⟨rfl, rfl⟩
  · obtain ⟨hsent, hcollected⟩ := sentOn_sends w.token (w.shares fee)
    rw [moves_distributed hfee, hmoves]
    constructor
    · show fee + collected (sends w.token (w.shares fee)) = fee
      omega
    · show 0 + sentOn (sends w.token (w.shares fee)) = fee
      rw [hsent, Storage.total_shares hw, Nat.zero_add]

theorem balanceOf_distributed (hw : w.Sane) (hcore : w.core ≠ D.self) (hfee : fee ≠ 0)
    (t : Address) :
    ((w.distributed D fee).tokens t).balanceOf D.self = (w.tokens t).balanceOf D.self +
      if t = w.token then Erc20.due D.self (w.shares fee) else 0 := by
  have htokens : (w.distributed D fee).tokens = update w.tokens w.token
      ((((w.tokens w.token).spend w.core D.self fee).move w.core D.self fee).pay D.self
        (w.shares fee)) := by
    rw [World.distributed, if_neg hfee, foldl_send]
    simp [World.pull]
  rw [htokens]
  by_cases ht : t = w.token
  · subst ht
    rw [update_self, if_pos rfl]
    -- the pull brings the fee, and the shares take as much
    have hpulled := Erc20.move_balanceOf_target (T := (w.tokens w.token).spend w.core D.self fee)
      (n := fee) hcore
    have htotal := Storage.total_shares hw fee
    have hpaid := Erc20.pay_balanceOf_self (a := D.self) (w.shares fee)
      (T := ((w.tokens w.token).spend w.core D.self fee).move w.core D.self fee)
      (by rw [hpulled, htotal]; exact Nat.le_add_left ..)
    rw [hpulled, htotal, Erc20.spend_balanceOf] at hpaid
    omega
  · rw [update_of_ne ht, if_neg ht]
    rfl

end Karma.FeeBridge
