import Karma.Evm.Run
import Karma.VerifierRegistry.Ledger

/-! # `VerifierRegistry` — its transactions

The system of the registry and the tokens. -/

namespace Karma.VerifierRegistry

open Evm Function

/-! ## Transactions -/

inductive Act
  | erc20 (sender token : Address) (c : Erc20.Call Address)
  | call (sender : Address) (c : Call)

def World.fresh (w : World) : World := { w with events := [] }

def step (D : Deployment) (w : World) : Act → Option World
  | .erc20 sender token c =>
    if sender = D.self ∨ sender = 0 ∨ token = 0 then none
    else ((w.tokens token).run sender c).map fun T =>
      { w.fresh with tokens := update w.tokens token T }
  | .call sender c =>
    if sender = D.self ∨ sender = 0 then none
    else
      match (exec D sender c w.fresh).result with
      | .ok (_, w') => some w'
      | .error _ => none

structure Init (D : Deployment) (w : World) : Prop where
  registry : w.toRegistry = D.created
  allowance : ∀ t a, (w.tokens t).allowance D.self a = 0

abbrev History : Type := List (Entry World Act)

abbrev Reach (D : Deployment) : History → World → Prop := Run (Init D) (step D)

/-! ## What a call does -/

def World.pay (D : Deployment) (w : World) (target : Address) (amount : ℕ) : World :=
  if w.stakingToken = 0 then w
  else { w with
    tokens := update w.tokens w.stakingToken ((w.tokens w.stakingToken).move D.self target amount) }

def World.Has (D : Deployment) (w : World) (amount : ℕ) : Prop :=
  w.stakingToken ≠ 0 → amount ≤ (w.tokens w.stakingToken).balanceOf D.self

namespace VerifierInfo

variable (v : VerifierInfo)

def staked (minStake amount : ℕ) : VerifierInfo :=
  { v with
    stakeAmount := v.stakeAmount + amount
    active := v.active || decide (minStake ≤ v.stakeAmount + amount) }

def taken (amount : ℕ) : ℕ := if v.stakeAmount < amount then v.stakeAmount else amount

def slashed (minStake amount : ℕ) : VerifierInfo :=
  { v with
    stakeAmount := v.stakeAmount - v.taken amount
    slashedAmount := v.slashedAmount + v.taken amount
    active := v.active && decide (minStake ≤ v.stakeAmount - v.taken amount) }

def judged (minStake : ℕ) : VerifierInfo :=
  { v with active := v.active && decide (minStake ≤ v.stakeAmount) }

@[simp] theorem judged_judged (minStake : ℕ) :
    (v.judged minStake).judged minStake = v.judged minStake := by
  unfold judged
  by_cases h : minStake ≤ v.stakeAmount
  · simp [h]
  · simp [h]

theorem taken_le (amount : ℕ) : v.taken amount ≤ v.stakeAmount := by
  unfold taken
  split_ifs <;> omega

variable {v} {minStake amount : ℕ}

theorem judged_of_lt (hless : v.stakeAmount < minStake) :
    v.judged minStake = { v with active := false } := by
  simp [judged, not_le.mpr hless]

theorem judged_of_not (hfine : ¬ (v.active = true ∧ v.stakeAmount < minStake)) :
    v.judged minStake = v := by
  have hkept : (v.active && decide (minStake ≤ v.stakeAmount)) = v.active := by
    cases hactive : v.active
    · rfl
    · simpa [hactive] using hfine
  simp only [judged, hkept]

theorem staked_of_le (hle : minStake ≤ v.stakeAmount + amount) : v.staked minStake amount =
      { v with stakeAmount := v.stakeAmount + amount, active := true } := by
  simp [staked, hle]

theorem staked_of_not (hkept : ¬ (v.active = false ∧ minStake ≤ v.stakeAmount + amount)) :
    v.staked minStake amount = { v with stakeAmount := v.stakeAmount + amount } := by
  have hkept : (v.active || decide (minStake ≤ v.stakeAmount + amount)) = v.active := by
    cases hactive : v.active
    · simpa [hactive] using hkept
    · rfl
  simp only [staked, hkept]

theorem slashed_of_lt (hlow : v.stakeAmount - v.taken amount < minStake) :
    v.slashed minStake amount = { v with
        stakeAmount := v.stakeAmount - v.taken amount
        slashedAmount := v.slashedAmount + v.taken amount
        active := false } := by
  simp only [slashed, decide_eq_false (not_le.mpr hlow), Bool.and_false]

theorem slashed_of_not_lt (hhigh : ¬ v.stakeAmount - v.taken amount < minStake) :
    v.slashed minStake amount = { v with
        stakeAmount := v.stakeAmount - v.taken amount
        slashedAmount := v.slashedAmount + v.taken amount } := by
  simp only [slashed, decide_eq_true (not_lt.mp hhigh), Bool.and_true]

end VerifierInfo

/-- The calls that concern neither stakes nor activity. -/
def Call.Aside : Call → Prop
  | .setAuthorizedCaller _ _ | .setSlashRecipient _ | .setScoringEngine _ | .setRewardAllocator _
  | .setThresholds _ _ | .recordAttestation _ _ => True
  | _ => False

/-- Everything that concerns stakes and activity is the same. -/
structure Same (w w' : World) : Prop where
  stakingToken : w'.stakingToken = w.stakingToken
  minStake : w'.minStake = w.minStake
  rewardPool : w'.rewardPool = w.rewardPool
  verifierList : w'.verifierList = w.verifierList
  tokens : w'.tokens = w.tokens
  wallet : ∀ v, (w'.verifiers v).wallet = (w.verifiers v).wallet
  active : ∀ v, (w'.verifiers v).active = (w.verifiers v).active
  stakeAmount : ∀ v, (w'.verifiers v).stakeAmount = (w.verifiers v).stakeAmount

theorem Same.of_verifiers {w w' : World} (hstakingToken : w'.stakingToken = w.stakingToken)
    (hminStake : w'.minStake = w.minStake) (hrewardPool : w'.rewardPool = w.rewardPool)
    (hlist : w'.verifierList = w.verifierList) (htokens : w'.tokens = w.tokens)
    (hverifiers : w'.verifiers = w.verifiers) : Same w w' :=
  ⟨hstakingToken, hminStake, hrewardPool, hlist, htokens, fun _ => by rw [hverifiers],
    fun _ => by rw [hverifiers], fun _ => by rw [hverifiers]⟩

inductive Effect (D : Deployment) (w : World) (sender : Address) : Call → World → Prop
  | aside {c : Call} {w' : World} : c.Aside → Same w w' → Effect D w sender c w'
  | registerVerifier {wallet : Address} {endpointUrl : String} {stakeAmount total : ℕ}
      {evs : List Event} :
      wallet ≠ 0 → (w.verifiers wallet).wallet = 0 →
      Effect D w sender (.registerVerifier wallet endpointUrl stakeAmount) { w with
        verifiers := update w.verifiers wallet
          { wallet, endpointUrl, active := decide (w.minStake = 0) }
        verifierList := w.verifierList ++ [wallet]
        defaultTotalVerifiers := total
        events := evs }
  | removeVerifier {wallet : Address} {evs : List Event} : (w.verifiers wallet).wallet ≠ 0 →
      Effect D w sender (.removeVerifier wallet) { w with
        verifiers := update w.verifiers wallet {}
        verifierList := swapRemove wallet w.verifierList
        events := evs }
  | suspendVerifier {wallet : Address} {evs : List Event} : (w.verifiers wallet).wallet ≠ 0 →
      Effect D w sender (.suspendVerifier wallet) { w with
        verifiers := update w.verifiers wallet { w.verifiers wallet with active := false }
        events := evs }
  | activateVerifier {wallet : Address} {evs : List Event} : (w.verifiers wallet).wallet ≠ 0 →
      Effect D w sender (.activateVerifier wallet) { w with
        verifiers := update w.verifiers wallet { w.verifiers wallet with active := true }
        events := evs }
  | setStakingConfig {token : Address} {minStake reward : ℕ} {evs : List Event} :
      Effect D w sender (.setStakingConfig token minStake reward) { w with
        stakingToken := token
        minStake := minStake
        verificationReward := reward
        verifiers := fun v =>
          if v ∈ w.verifierList then (w.verifiers v).judged minStake else w.verifiers v
        events := evs }
  | creditRewards {amount : ℕ} {evs : List Event} : sender = w.rewardAllocator →
      Effect D w sender (.creditRewards amount)
        { w with rewardPool := w.rewardPool + amount, events := evs }
  | rewardVerifier {verifier : Address} {amount : ℕ} {evs : List Event} :
      (w.verifiers verifier).wallet ≠ 0 → amount ≤ w.rewardPool → w.Has D amount →
      Effect D w sender (.rewardVerifier verifier amount) (World.pay D { w with
        rewardPool := w.rewardPool - amount
        verifiers := update w.verifiers verifier { w.verifiers verifier with
            totalEarnings := (w.verifiers verifier).totalEarnings + amount }
        events := evs } verifier amount)
  | stake {amount : ℕ} {T : Erc20 Address} {evs : List Event} :
      w.stakingToken ≠ 0 → (w.verifiers sender).wallet ≠ 0 →
      (w.tokens w.stakingToken).transferFrom D.self sender D.self amount = some T →
      Effect D w sender (.stake amount) { w with
        tokens := update w.tokens w.stakingToken T
        verifiers := update w.verifiers sender ((w.verifiers sender).staked w.minStake amount)
        events := evs }
  | unstake {amount : ℕ} {evs : List Event} :
      (w.verifiers sender).wallet ≠ 0 → amount + w.minStake ≤ (w.verifiers sender).stakeAmount →
      w.stakingToken ≠ 0 → w.Has D amount →
      Effect D w sender (.unstake amount) (World.pay D { w with
        verifiers := update w.verifiers sender
          { w.verifiers sender with stakeAmount := (w.verifiers sender).stakeAmount - amount }
        events := evs } sender amount)
  | slash {engine : Option Unit} {verifier : Address} {amount : ℕ} {reason : String}
      {evs : List Event} :
      (w.verifiers verifier).wallet ≠ 0 → w.Has D ((w.verifiers verifier).taken amount) →
      Effect D w sender (.slash engine verifier amount reason) (World.pay D { w with
        verifiers := update w.verifiers verifier ((w.verifiers verifier).slashed w.minStake amount)
        events := evs ++ [.verifierSlashed verifier ((w.verifiers verifier).taken amount) reason] }
        w.slashRecipient ((w.verifiers verifier).taken amount))

/-! ## Reading the effects off the code -/

section Rules

variable {D : Deployment} {w w' : World} {sender target wallet : Address} {amount : ℕ}
  {Q : Unit → World → Prop}

@[simp] theorem World.pay_zero : w.pay D target 0 = w := by
  unfold World.pay
  split_ifs with htoken
  · rfl
  · simp

@[simp] theorem World.pay_verifiers : (w.pay D target amount).verifiers = w.verifiers := by
  unfold World.pay
  split_ifs <;> rfl

@[simp] theorem World.pay_minStake : (w.pay D target amount).minStake = w.minStake := by
  unfold World.pay
  split_ifs <;> rfl

@[simp] theorem World.pay_verifierList :
    (w.pay D target amount).verifierList = w.verifierList := by
  unfold World.pay
  split_ifs <;> rfl

@[simp] theorem World.pay_events : (w.pay D target amount).events = w.events := by
  unfold World.pay
  split_ifs <;> rfl

theorem World.pay_with (f : Address → VerifierInfo) (evs : List Event) :
    ({ w.pay D target amount with verifiers := f, events := evs } : World) =
      World.pay D { w with verifiers := f, events := evs } target amount := by
  unfold World.pay
  split_ifs <;> rfl

theorem World.pay_emit (evs : List Event) : ({ w.pay D target amount with events := evs } : World) =
      World.pay D { w with events := evs } target amount := by
  unfold World.pay
  split_ifs <;> rfl

@[simp] theorem post_updateVerifier {f : VerifierInfo → VerifierInfo} :
    (updateVerifier wallet f).post Q w ↔ Q () { w with
        verifiers := update w.verifiers wallet (f (w.verifiers wallet)) } := by
  simp only [updateVerifier, wp_write]

theorem post_transfer
    (hQ : w.stakingToken ≠ 0 → amount ≤ (w.tokens w.stakingToken).balanceOf D.self →
      Q () (w.pay D target amount)) :
    (transfer D target amount).post Q w := by
  simp only [transfer, Tx.post_code]
  intro htoken T hT
  obtain ⟨-, -, hbalance, rfl⟩ := Erc20.transfer_eq_some.mp hT
  have hpaid := hQ htoken hbalance
  rwa [World.pay, if_neg htoken] at hpaid

theorem post_payment {c : Prop} (hc : ¬ c → amount = 0 ∨ w.stakingToken = 0)
    (hQ : w.Has D amount → Q () (w.pay D target amount)) :
    (c → (transfer D target amount).post Q w) ∧ (¬ c → Q () w) := by
  constructor
  · intro _
    exact post_transfer fun _ hbalance => hQ fun _ => hbalance
  · intro hnot
    rcases hc hnot with hzero | hnone
    · subst hzero
      rw [World.pay_zero] at hQ
      exact hQ fun _ => Nat.zero_le _
    · rw [World.pay, if_pos hnone] at hQ
      exact hQ fun htoken => absurd hnone htoken

theorem post_suspendUnderstaked {minStake : ℕ} (wallets : List Address) (hQ : ∀ evs, Q () { w with
      verifiers := fun v =>
        if v ∈ wallets then (w.verifiers v).judged minStake else w.verifiers v
      events := evs }) :
    (suspendUnderstaked minStake wallets).post Q w := by
  induction wallets generalizing w with
  | nil =>
    simp only [suspendUnderstaked, Tx.wp_pure]
    simpa using hQ w.events
  | cons wallet wallets ih =>
    have hverifiers : (fun v => if v ∈ wallets then
          (update w.verifiers wallet ((w.verifiers wallet).judged minStake) v).judged minStake
        else update w.verifiers wallet ((w.verifiers wallet).judged minStake) v) =
        fun v => if v ∈ wallet :: wallets then (w.verifiers v).judged minStake
          else w.verifiers v := by
      funext v
      by_cases hv : v = wallet
      · simp [hv]
      · simp [hv]
    -- the rest of the loop starts with the first verifier judged
    have hrest : ∀ evs, (suspendUnderstaked minStake wallets).post Q { w with
        verifiers := update w.verifiers wallet ((w.verifiers wallet).judged minStake)
        events := evs } := by
      intro evs
      apply ih
      intro evs'
      simp only [hverifiers]
      exact hQ evs'
    simp only [suspendUnderstaked, updateVerifier, Tx.wp_code, wp_write, wp_emit]
    constructor
    · rintro ⟨-, hless⟩
      simp only [VerifierInfo.judged_of_lt hless] at hrest
      exact hrest _
    · intro hfine
      simp only [VerifierInfo.judged_of_not hfine, update_eq_self] at hrest
      exact hrest _

theorem post_registerVerifier {endpointUrl : String} {stakeAmount : ℕ} :
    (registerVerifier D sender wallet endpointUrl stakeAmount).post
      (fun _ w' => Effect D w sender (.registerVerifier wallet endpointUrl stakeAmount) w') w := by
  simp only [registerVerifier, onlyAdmin, Tx.post_code, wp_write, wp_emit]
  intro _ hzero hnew
  exact ⟨fun _ => .registerVerifier hzero (not_not.mp hnew),
    fun _ => .registerVerifier hzero (not_not.mp hnew)⟩

theorem post_rewardVerifier {verifier : Address} : (rewardVerifier D sender verifier amount).post
      (fun _ w' => Effect D w sender (.rewardVerifier verifier amount) w') w := by
  simp only [rewardVerifier, onlyAuthorizedCaller, requireVerifier, Tx.post_code, wp_write,
    post_updateVerifier, wp_emit]
  refine fun _ hwallet hpool => ⟨fun _ _ => ?_, fun hnone => ?_⟩
  · apply post_payment
    · intro hnone
      exact .inr (not_not.mp hnone)
    · intro hhas
      rw [World.pay_emit]
      exact .rewardVerifier hwallet (not_lt.mp hpool) hhas
  · obtain rfl : amount = 0 := Nat.eq_zero_of_not_pos hnone
    have heffect := @Effect.rewardVerifier D w sender verifier 0
      (w.events ++ [.verifierRewarded verifier 0]) hwallet (Nat.zero_le _) fun _ => Nat.zero_le _
    rw [World.pay_zero] at heffect
    simpa using heffect

theorem post_stake :
    (stake D sender amount).post (fun _ w' => Effect D w sender (.stake amount) w') w := by
  simp only [stake, requireVerifier, Tx.post_code, updateVerifier, wp_write, wp_emit,
    update_self, update_idem]
  refine fun htoken hwallet T hT _ => ⟨fun hactive => ?_, fun hactive => ?_⟩
  · rw [← VerifierInfo.staked_of_le hactive.2]
    exact .stake htoken hwallet hT
  · rw [← VerifierInfo.staked_of_not hactive]
    exact .stake htoken hwallet hT

theorem post_unstake :
    (unstake D sender amount).post (fun _ w' => Effect D w sender (.unstake amount) w') w := by
  simp only [unstake, requireVerifier, Tx.post_code, updateVerifier, wp_write]
  intro hwallet _ hle
  apply post_transfer
  intro htoken hbalance
  rw [wp_emit, World.pay_emit]
  exact .unstake hwallet (not_lt.mp hle) htoken fun _ => hbalance

theorem post_slash {engine : Option Unit} {verifier : Address} {reason : String} :
    (slash D engine sender verifier amount reason).post
      (fun _ w' => Effect D w sender (.slash engine verifier amount reason) w') w := by
  simp only [slash, onlyAdmin, requireVerifier, updateVerifier, Tx.post_code, wp_write]
  intro _ hwallet _
  apply post_payment
  · intro hnone
    rw [not_and_or, not_not] at hnone
    exact hnone.imp_left Nat.eq_zero_of_not_pos
  · intro hhas
    -- the transfer comes between the two writes to the record
    have hsuspended : ∀ (first last : VerifierInfo) (evs : List Event),
        last = (w.verifiers verifier).slashed w.minStake amount →
        Effect D w sender (.slash engine verifier amount reason)
          { World.pay D { w with verifiers := update w.verifiers verifier first }
              w.slashRecipient ((w.verifiers verifier).taken amount) with
            verifiers := update w.verifiers verifier last
            events := evs ++
              [.verifierSlashed verifier ((w.verifiers verifier).taken amount) reason] } := by
      intro first last evs hlast
      rw [World.pay_with, hlast]
      exact .slash hwallet hhas
    simp only [wp_emit, World.pay_verifiers, World.pay_events, update_self, update_idem]
    constructor
    · intro hlow
      have hrecord := (VerifierInfo.slashed_of_lt hlow).symm
      exact ⟨fun _ _ _ => hsuspended _ _ _ hrecord, fun _ => hsuspended _ _ _ hrecord⟩
    · intro hhigh
      have hkept : ∀ evs : List Event, Effect D w sender (.slash engine verifier amount reason)
          { World.pay D { w with
              verifiers := update w.verifiers verifier
                ((w.verifiers verifier).slashed w.minStake amount) }
              w.slashRecipient ((w.verifiers verifier).taken amount) with
            events := evs ++
              [.verifierSlashed verifier ((w.verifiers verifier).taken amount) reason] } := by
        intro evs
        rw [World.pay_emit]
        exact .slash hwallet hhas
      rw [VerifierInfo.slashed_of_not_lt hhigh] at hkept
      exact ⟨fun _ _ _ => hkept _, fun _ => hkept _⟩

theorem post_exec (c : Call) : (exec D sender c).post (fun _ w' => Effect D w sender c w') w := by
  cases c with
  | setAuthorizedCaller | setSlashRecipient | setRewardAllocator =>
    simp only [exec, setAuthorizedCaller, setSlashRecipient, setRewardAllocator, onlyAdmin,
      Tx.post_code, wp_write, wp_emit]
    exact fun _ _ => .aside trivial (.of_verifiers rfl rfl rfl rfl rfl rfl)
  | registerVerifier wallet endpointUrl stakeAmount => exact post_registerVerifier
  | removeVerifier wallet =>
    simp only [exec, removeVerifier, onlyAdmin, requireVerifier, Tx.post_code, wp_write, wp_emit]
    exact fun _ hwallet => .removeVerifier hwallet
  | suspendVerifier wallet =>
    simp only [exec, suspendVerifier, onlyAdmin, requireVerifier, updateVerifier, Tx.post_code,
      wp_write, wp_emit]
    exact fun _ hwallet => .suspendVerifier hwallet
  | activateVerifier wallet =>
    simp only [exec, activateVerifier, onlyAdmin, requireVerifier, updateVerifier, Tx.post_code,
      wp_write, wp_emit]
    exact fun _ hwallet => .activateVerifier hwallet
  | setScoringEngine engine =>
    simp only [exec, setScoringEngine, onlyAdmin, Tx.post_code, wp_write, wp_emit]
    exact fun _ => .aside trivial (.of_verifiers rfl rfl rfl rfl rfl rfl)
  | setThresholds threshold totalVerifiers =>
    simp only [exec, setThresholds, onlyAdmin, Tx.post_code, wp_write, wp_emit]
    exact fun _ _ _ => .aside trivial (.of_verifiers rfl rfl rfl rfl rfl rfl)
  | setStakingConfig token minStake reward =>
    simp only [exec, setStakingConfig, onlyAdmin, Tx.post_code, wp_write, wp_emit]
    exact fun _ => post_suspendUnderstaked _ fun _ => .setStakingConfig
  | recordAttestation verifier success =>
    simp only [exec, recordAttestation, onlyAuthorizedCaller, requireVerifier, updateVerifier,
      Tx.post_code, wp_write, wp_emit]
    have hsame : ∀ (v : VerifierInfo) (evs : List Event),
        v.wallet = (w.verifiers verifier).wallet → v.active = (w.verifiers verifier).active →
        v.stakeAmount = (w.verifiers verifier).stakeAmount →
        Effect D w sender (.recordAttestation verifier success) { w with
          verifiers := update w.verifiers verifier v
          events := evs } := by
      intro v evs hwallet hactive hstake
      refine .aside trivial ⟨rfl, rfl, rfl, rfl, rfl, fun x => ?_, fun x => ?_, fun x => ?_⟩
      all_goals
        by_cases hx : x = verifier
        · simp [hx, hwallet, hactive, hstake]
        · simp [hx]
    exact fun _ _ => ⟨fun _ _ => hsame _ _ rfl rfl rfl, fun _ _ => hsame _ _ rfl rfl rfl⟩
  | creditRewards amount =>
    simp only [exec, creditRewards, onlyRewardAllocator, Tx.post_code, wp_write, wp_emit]
    refine fun hsender => ⟨fun hzero => ?_, fun _ _ => .creditRewards (not_not.mp hsender)⟩
    subst hzero
    exact .creditRewards (not_not.mp hsender)
  | rewardVerifier verifier amount => exact post_rewardVerifier
  | stake amount => exact post_stake
  | unstake amount => exact post_unstake
  | slash engine verifier amount reason => exact post_slash

theorem step_erc20 {token : Address} {c : Erc20.Call Address}
    (hs : step D w (.erc20 sender token c) = some w') :
    sender ≠ D.self ∧ token ≠ 0 ∧ ∃ T, (w.tokens token).run sender c = some T ∧
      w' = { w.fresh with tokens := update w.tokens token T } := by
  simp only [step] at hs
  split_ifs at hs with hsender
  push Not at hsender
  obtain ⟨T, hT, rfl⟩ := Option.map_eq_some_iff.mp hs
  exact ⟨hsender.1, hsender.2.2, T, hT, rfl⟩

theorem step_call {c : Call} (hs : step D w (.call sender c) = some w') :
    sender ≠ D.self ∧ sender ≠ 0 ∧ Effect D w.fresh sender c w' := by
  simp only [step] at hs
  split_ifs at hs with hsender
  push Not at hsender
  split at hs
  case h_1 u hr =>
    cases hs
    exact ⟨hsender.1, hsender.2, Tx.wp_ok (post_exec c) hr⟩
  case h_2 => cases hs

end Rules

end Karma.VerifierRegistry
