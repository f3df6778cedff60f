import Karma.VerifierRegistry.System

/-! # `VerifierRegistry` — what it holds for others

For each wallet, what it deposited should be its stake, or have been withdrawn or slashed. -/

namespace Karma.VerifierRegistry

open Evm Function

/-! ## The accounts -/

def stakedIn (wallet : Address) (e : Entry World Act) : ℕ :=
  match e.act with
  | .call sender (.stake amount) => if sender = wallet then amount else 0
  | _ => 0

def unstakedIn (wallet : Address) (e : Entry World Act) : ℕ :=
  match e.act with
  | .call sender (.unstake amount) => if sender = wallet then amount else 0
  | _ => 0

def slashedIn (wallet : Address) (e : Entry World Act) : ℕ :=
  match e.act, e.post.events.getLast? with
  | .call _ (.slash _ _ _ _), some (.verifierSlashed verifier amount _) =>
    if verifier = wallet then amount else 0
  | _, _ => 0

def tally (f : Entry World Act → ℕ) (h : History) : ℕ := (h.map f).sum

@[simp] theorem tally_cons (f : Entry World Act → ℕ) (e : Entry World Act) (h : History) :
    tally f (e :: h) = f e + tally f h := rfl

def World.owed (w : World) : ℕ := ∑ v, (w.verifiers v).stakeAmount + w.rewardPool

def World.heldIn (D : Deployment) (w : World) (token : Address) : ℕ :=
  if token = 0 then 0 else (w.tokens token).balanceOf D.self

structure Custody (D : Deployment) (h : History) (w : World) : Prop where
  kept : ∀ v, tally (stakedIn v) h =
    (w.verifiers v).stakeAmount + tally (unstakedIn v) h + tally (slashedIn v) h
  covered : w.owed ≤ w.heldIn D w.stakingToken

/-- What the reward allocators have transferred in the staking token, and nobody has credited
yet. -/
def uncredited (D : Deployment) : History → ℕ
  | [] => 0
  | e :: h =>
    match e.act with
    | .erc20 sender token c =>
      if token = e.pre.stakingToken ∧ c.payer sender = e.pre.rewardAllocator then
        uncredited D h + c.credits D.self
      else uncredited D h
    | .call _ (.creditRewards amount) => uncredited D h - amount
    | .call _ (.setStakingConfig token _ _) =>
      if token = e.pre.stakingToken then uncredited D h else 0
    | _ => uncredited D h

def Honest (D : Deployment) : History → Prop :=
  Each fun h e =>
    match e.act with
    | .call _ (.creditRewards amount) => amount ≤ uncredited D h
    | _ => True

/-- The step neither deletes a stake nor leaves the stakes and rewards to a token the registry does
not have. -/
def Careful (D : Deployment) (e : Entry World Act) : Prop :=
  match e.act with
  | .call _ (.removeVerifier wallet) => (e.pre.verifiers wallet).stakeAmount = 0
  | .call _ (.setStakingConfig token _ _) => e.pre.owed ≤ e.pre.heldIn D token
  | _ => True

variable {D : Deployment} {h : History} {w w' : World} {sender : Address} {c : Call} {a : Act}

/-! ## Stakes -/

def lostIn (wallet : Address) (e : Entry World Act) : ℕ :=
  match e.act with
  | .call _ (.removeVerifier removed) =>
    if removed = wallet then (e.pre.verifiers wallet).stakeAmount else 0
  | _ => 0

def World.Blank (w : World) : Prop :=
  ∀ v, (w.verifiers v).wallet = 0 → (w.verifiers v).stakeAmount = 0

variable {r : VerifierInfo}

theorem stakeAmount_update {f : Address → VerifierInfo} {v : Address}
    (x : Address) : (update f v r x).stakeAmount =
      if v = x then r.stakeAmount else (f x).stakeAmount := by
  by_cases hx : v = x
  · rw [← hx, update_self, if_pos rfl]
  · rw [update_of_ne (Ne.symm hx), if_neg hx]

theorem Effect.traced (he : Effect D w.fresh sender c w') (hw : w.Blank) (v : Address) :
    (w'.verifiers v).stakeAmount + unstakedIn v ⟨w, .call sender c, w'⟩ +
        slashedIn v ⟨w, .call sender c, w'⟩ + lostIn v ⟨w, .call sender c, w'⟩ =
      (w.verifiers v).stakeAmount + stakedIn v ⟨w, .call sender c, w'⟩ := by
  cases he with
  | aside haside hsame =>
    have hstake : (w'.verifiers v).stakeAmount = (w.verifiers v).stakeAmount :=
      hsame.stakeAmount v
    rw [hstake]
    cases c <;> first | rfl | exact haside.elim
  | @registerVerifier wallet _ _ _ _ _ hnew =>
    simp only [unstakedIn, slashedIn, lostIn, stakedIn, stakeAmount_update, Nat.add_zero]
    split_ifs with hv
    · rw [← hv]
      exact (hw wallet hnew).symm
    · rfl
  | @removeVerifier wallet =>
    simp only [unstakedIn, slashedIn, lostIn, stakedIn, stakeAmount_update, Nat.add_zero]
    split_ifs with hv
    · rw [Nat.zero_add]
    · rfl
  | suspendVerifier | activateVerifier | stake =>
    simp only [unstakedIn, slashedIn, lostIn, stakedIn, stakeAmount_update, Nat.add_zero]
    split_ifs with hv
    · rw [← hv]
      rfl
    · rfl
  | setStakingConfig =>
    simp only [unstakedIn, slashedIn, lostIn, stakedIn, Nat.add_zero]
    split_ifs <;> rfl
  | creditRewards => rfl
  | rewardVerifier =>
    simp only [unstakedIn, slashedIn, lostIn, stakedIn, World.pay_verifiers, stakeAmount_update,
      Nat.add_zero]
    split_ifs with hv
    · rw [← hv]
      rfl
    · rfl
  | @unstake amount _ _ hle =>
    have hle : amount + w.minStake ≤ (w.verifiers sender).stakeAmount := hle
    simp only [unstakedIn, slashedIn, lostIn, stakedIn, World.pay_verifiers, stakeAmount_update,
      Nat.add_zero]
    split_ifs with hv
    · rw [← hv]
      exact Nat.sub_add_cancel (by omega)
    · rfl
  | @slash engine verifier amount =>
    have hle := (w.verifiers verifier).taken_le amount
    simp only [unstakedIn, slashedIn, lostIn, stakedIn, World.pay_verifiers, World.pay_events,
      List.getLast?_append, List.getLast?_singleton, Option.some_or, stakeAmount_update,
      Nat.add_zero]
    split_ifs with hv
    · rw [← hv]
      exact Nat.sub_add_cancel hle
    · rfl

theorem Effect.blank (he : Effect D w sender c w') (hw : w.Blank) : w'.Blank := by
  -- a record that is replaced by one without a wallet has no stake
  have hupdate : ∀ (v : Address) (r : VerifierInfo), (r.wallet = 0 → r.stakeAmount = 0) →
      ∀ x, (update w.verifiers v r x).wallet = 0 →
        (update w.verifiers v r x).stakeAmount = 0 := fun v r hr =>
    (forall_update_iff w.verifiers fun _ r => r.wallet = 0 → r.stakeAmount = 0).mpr
      ⟨hr, fun x _ => hw x⟩
  cases he with
  | aside _ hsame =>
    intro v hv
    rw [hsame.wallet] at hv
    rw [hsame.stakeAmount]
    exact hw v hv
  | registerVerifier | removeVerifier => exact hupdate _ _ fun _ => rfl
  | suspendVerifier hwallet | activateVerifier hwallet | stake _ hwallet =>
    exact hupdate _ _ fun hzero => absurd hzero hwallet
  | setStakingConfig =>
    intro v hv
    dsimp only at hv ⊢
    split_ifs at hv ⊢
    · exact hw v hv
    · exact hw v hv
  | creditRewards => exact hw
  | rewardVerifier hwallet | unstake hwallet | slash hwallet =>
    intro v
    rw [World.pay_verifiers]
    apply hupdate
    intro hzero
    exact absurd hzero hwallet

theorem Reach.blank (hr : Reach D h w) : w.Blank := by
  refine hr.safe (fun w hw v _ => ?_) fun w a w' ih hs => ?_
  · rw [hw.registry]
    rfl
  · cases a with
    | erc20 sender token c =>
      obtain ⟨-, -, T, -, rfl⟩ := step_erc20 hs
      exact ih
    | call sender c =>
      obtain ⟨-, -, he⟩ := step_call hs
      exact he.blank ih

theorem traced_of_step (hr : Reach D h w) (hs : step D w a = some w') (v : Address) :
    (w'.verifiers v).stakeAmount + unstakedIn v ⟨w, a, w'⟩ + slashedIn v ⟨w, a, w'⟩ +
        lostIn v ⟨w, a, w'⟩ = (w.verifiers v).stakeAmount + stakedIn v ⟨w, a, w'⟩ := by
  cases a with
  | erc20 sender token c =>
    obtain ⟨-, -, T, -, rfl⟩ := step_erc20 hs
    rfl
  | call sender c =>
    obtain ⟨-, -, he⟩ := step_call hs
    exact he.traced hr.blank v

/-! ## Balances -/

def World.Mute (D : Deployment) (w : World) : Prop := ∀ t a, (w.tokens t).allowance D.self a = 0

theorem World.Mute.pay {target : Address} {amount : ℕ} (hw : w.Mute D) :
    (w.pay D target amount).Mute D := by
  intro t x
  unfold World.pay
  split_ifs with htoken
  · exact hw t x
  · by_cases ht : t = w.stakingToken
    · simp only [ht, update_self]
      exact hw _ x
    · simp only [update_of_ne ht]
      exact hw t x

theorem Effect.mute (he : Effect D w sender c w') (hself : sender ≠ D.self) (hw : w.Mute D) :
    w'.Mute D := by
  cases he with
  | aside _ hsame =>
    intro t x
    rw [hsame.tokens]
    exact hw t x
  | rewardVerifier | unstake | slash => exact World.Mute.pay hw
  | stake _ _ hT =>
    obtain ⟨-, -, -, -, rfl⟩ := Erc20.transferFrom_eq_some.mp hT
    intro t x
    by_cases ht : t = w.stakingToken
    · simp only [ht, update_self, Erc20.move_allowance]
      simp only [Erc20.spend, Erc20.allow, update_of_ne (Ne.symm hself)]
      exact hw _ x
    · simp only [update_of_ne ht]
      exact hw t x
  | _ => exact hw

theorem Reach.mute (hr : Reach D h w) : w.Mute D := by
  refine hr.safe (fun w hw => hw.allowance) fun w a w' ih hs => ?_
  cases a with
  | erc20 sender token c =>
    obtain ⟨hsender, -, T, hT, rfl⟩ := step_erc20 hs
    intro t x
    by_cases ht : t = token
    · subst ht
      simp only [update_self]
      have hle := Erc20.run_allowance_le (b := x) hsender hT
      rw [ih t x] at hle
      exact Nat.le_zero.mp hle
    · simp only [update_of_ne ht]
      exact ih t x
  | call sender c =>
    obtain ⟨hself, -, he⟩ := step_call hs
    exact he.mute hself ih

theorem owed_update {v : Address}
    (hverifiers : w'.verifiers = update w.verifiers v r) :
    w'.owed + (w.verifiers v).stakeAmount + w.rewardPool =
      w.owed + r.stakeAmount + w'.rewardPool := by
  have hsum := sum_field_update_add w.verifiers VerifierInfo.stakeAmount v r
  rw [World.owed, World.owed, hverifiers]
  omega

theorem owed_congr (hstake : ∀ v, (w'.verifiers v).stakeAmount = (w.verifiers v).stakeAmount)
    (hpool : w'.rewardPool = w.rewardPool) : w'.owed = w.owed := by
  simp only [World.owed, hstake, hpool]

theorem Effect.reconfigured {token : Address} {minStake reward : ℕ}
    (he : Effect D w sender (.setStakingConfig token minStake reward) w') :
    w'.stakingToken = token ∧ w'.tokens = w.tokens ∧ w'.owed = w.owed := by
  cases he with
  | aside haside => exact haside.elim
  | setStakingConfig =>
    refine ⟨rfl, rfl, owed_congr (fun v => ?_) rfl⟩
    dsimp only
    split_ifs <;> rfl

theorem covered_congr {token : Address} {n : ℕ} (howed : w'.owed = w.owed)
    (htokens : w'.tokens = w.tokens) (htoken : w'.stakingToken = token)
    (hw : w.owed + n ≤ w.heldIn D token) : w'.owed + n ≤ w'.heldIn D w'.stakingToken := by
  have hheld : w'.heldIn D token = w.heldIn D token := by
    rw [World.heldIn, World.heldIn, htokens]
  rw [howed, htoken, hheld]
  exact hw

theorem covered_update {v : Address} {n : ℕ}
    (hverifiers : w'.verifiers = update w.verifiers v r)
    (hle : r.stakeAmount ≤ (w.verifiers v).stakeAmount) (hpool : w'.rewardPool = w.rewardPool)
    (htokens : w'.tokens = w.tokens) (htoken : w'.stakingToken = w.stakingToken)
    (hw : w.owed + n ≤ w.heldIn D w.stakingToken) : w'.owed + n ≤ w'.heldIn D w'.stakingToken := by
  have howed := owed_update hverifiers
  have hheld : w'.heldIn D w'.stakingToken = w.heldIn D w.stakingToken := by
    rw [World.heldIn, World.heldIn, htokens, htoken]
  rw [hheld]
  omega

theorem stake_le_owed (w : World) (v : Address) : (w.verifiers v).stakeAmount ≤ w.owed := by
  have hsum := Finset.single_le_sum (f := fun x => (w.verifiers x).stakeAmount)
    (fun _ _ => Nat.zero_le _) (Finset.mem_univ v)
  rw [World.owed]
  omega

theorem heldIn_of_ne {token : Address} (htoken : token ≠ 0) :
    w.heldIn D token = (w.tokens token).balanceOf D.self := if_neg htoken

theorem heldIn_pay {target : Address} {amount n : ℕ} (hn : n + amount ≤ w.heldIn D w.stakingToken) :
    n ≤ (w.pay D target amount).heldIn D (w.pay D target amount).stakingToken := by
  unfold World.pay
  split_ifs with htoken
  · omega
  · rw [heldIn_of_ne htoken] at hn
    rw [heldIn_of_ne htoken]
    simp only [update_self]
    exact Erc20.le_balanceOf_move hn

theorem World.owed_pay {target : Address} {amount : ℕ} : (w.pay D target amount).owed = w.owed := by
  unfold World.pay
  split_ifs <;> rfl

theorem covered_pay {v target : Address} {amount n : ℕ}
    (hverifiers : w'.verifiers = update w.verifiers v r) (htokens : w'.tokens = w.tokens)
    (htoken : w'.stakingToken = w.stakingToken)
    (hpaid : r.stakeAmount + w'.rewardPool + amount ≤ (w.verifiers v).stakeAmount + w.rewardPool)
    (hw : w.owed + n ≤ w.heldIn D w.stakingToken) :
    (w'.pay D target amount).owed + n ≤
      (w'.pay D target amount).heldIn D (w'.pay D target amount).stakingToken := by
  have howed := owed_update hverifiers
  rw [World.owed_pay]
  apply heldIn_pay
  have hheld : w'.heldIn D w'.stakingToken = w.heldIn D w.stakingToken := by
    rw [World.heldIn, World.heldIn, htokens, htoken]
  rw [hheld]
  omega

theorem covered_stake {v : Address} {amount n : ℕ} (hverifiers : w'.verifiers =
      update w.verifiers v ((w.verifiers v).staked w.minStake amount))
    (htokens : w'.tokens = update w.tokens w.stakingToken
      (((w.tokens w.stakingToken).spend v D.self amount).move v D.self amount))
    (htoken : w'.stakingToken = w.stakingToken) (hset : w.stakingToken ≠ 0)
    (hpool : w'.rewardPool = w.rewardPool) (hself : v ≠ D.self)
    (hw : w.owed + n ≤ w.heldIn D w.stakingToken) : w'.owed + n ≤ w'.heldIn D w'.stakingToken := by
  have howed := owed_update hverifiers
  have hstaked : ((w.verifiers v).staked w.minStake amount).stakeAmount =
      (w.verifiers v).stakeAmount + amount := rfl
  rw [heldIn_of_ne hset] at hw
  rw [htoken, heldIn_of_ne hset, htokens, update_self, Erc20.move_balanceOf_target hself,
    Erc20.spend_balanceOf]
  omega

theorem Effect.covered (he : Effect D w.fresh sender c w') (hself : sender ≠ D.self)
    (hcareful : Careful D ⟨w, .call sender c, w'⟩)
    (hhonest : Honest D (⟨w, .call sender c, w'⟩ :: h))
    (hw : w.owed + uncredited D h ≤ w.heldIn D w.stakingToken) :
    w'.owed + uncredited D (⟨w, .call sender c, w'⟩ :: h) ≤ w'.heldIn D w'.stakingToken := by
  have heffect := he
  cases he with
  | aside haside hsame =>
    have hcredited : uncredited D (⟨w, .call sender c, w'⟩ :: h) = uncredited D h := by
      cases c <;> first | rfl | exact haside.elim
    rw [hcredited]
    exact covered_congr (owed_congr hsame.stakeAmount hsame.rewardPool) hsame.tokens
      hsame.stakingToken hw
  | registerVerifier | removeVerifier => exact covered_update rfl (Nat.zero_le _) rfl rfl rfl hw
  | suspendVerifier | activateVerifier => exact covered_update rfl le_rfl rfl rfl rfl hw
  | @setStakingConfig token =>
    have hcareful : w.owed ≤ w.heldIn D token := hcareful
    obtain ⟨-, -, howed⟩ := heffect.reconfigured
    refine covered_congr (w := w) howed rfl rfl ?_
    simp only [uncredited]
    split_ifs with htoken
    · rw [htoken]
      exact hw
    · rw [Nat.add_zero]
      exact hcareful
  | @creditRewards amount =>
    have hcredit : amount ≤ uncredited D h := hhonest.1
    simp only [uncredited]
    change ∑ v, (w.verifiers v).stakeAmount + (w.rewardPool + amount) + _ ≤
      w.heldIn D w.stakingToken
    simp only [World.owed] at hw
    omega
  | @rewardVerifier verifier amount evs _ hpool =>
    have hpool : amount ≤ w.rewardPool := hpool
    refine covered_pay rfl rfl rfl ?_ hw
    change (w.verifiers verifier).stakeAmount + (w.rewardPool - amount) + amount ≤
      (w.verifiers verifier).stakeAmount + w.rewardPool
    omega
  | @stake amount T evs htoken _ hT =>
    obtain ⟨-, -, -, -, rfl⟩ := Erc20.transferFrom_eq_some.mp hT
    exact covered_stake rfl rfl rfl htoken rfl hself hw
  | @unstake amount evs _ hle =>
    have hle : amount + w.minStake ≤ (w.verifiers sender).stakeAmount := hle
    refine covered_pay rfl rfl rfl ?_ hw
    change (w.verifiers sender).stakeAmount - amount + w.rewardPool + amount ≤
      (w.verifiers sender).stakeAmount + w.rewardPool
    omega
  | @slash engine verifier amount =>
    have hle := (w.verifiers verifier).taken_le amount
    refine covered_pay rfl rfl rfl ?_ hw
    change (w.verifiers verifier).stakeAmount - (w.verifiers verifier).taken amount +
      w.rewardPool + (w.verifiers verifier).taken amount ≤
        (w.verifiers verifier).stakeAmount + w.rewardPool
    omega

theorem covered_of_step (hr : Reach D h w) (hs : step D w a = some w')
    (hcareful : Careful D ⟨w, a, w'⟩) (hhonest : Honest D (⟨w, a, w'⟩ :: h))
    (hw : w.owed + uncredited D h ≤ w.heldIn D w.stakingToken) :
    w'.owed + uncredited D (⟨w, a, w'⟩ :: h) ≤ w'.heldIn D w'.stakingToken := by
  cases a with
  | call sender c =>
    obtain ⟨hself, -, he⟩ := step_call hs
    exact he.covered hself hcareful hhonest hw
  | erc20 sender token c =>
    obtain ⟨hself, hnonzero, T, hT, rfl⟩ := step_erc20 hs
    have hgain := Erc20.le_run_balanceOf hself (hr.mute token) hT
    change w.owed + _ ≤ World.heldIn D { w with tokens := update w.tokens token T } w.stakingToken
    simp only [uncredited]
    by_cases htoken : token = w.stakingToken
    · subst htoken
      rw [heldIn_of_ne hnonzero] at hw
      rw [heldIn_of_ne hnonzero]
      simp only [update_self]
      split_ifs <;> omega
    · rw [if_neg fun hcase => htoken hcase.1]
      have hheld : World.heldIn D { w with tokens := update w.tokens token T }
          w.stakingToken = w.heldIn D w.stakingToken := by
        simp only [World.heldIn, update_of_ne (Ne.symm htoken)]
      rw [hheld]
      exact hw

/-! ## Custody -/

structure Sound (D : Deployment) (h : History) (w : World) : Prop where
  kept : ∀ v, tally (stakedIn v) h =
    (w.verifiers v).stakeAmount + tally (unstakedIn v) h + tally (slashedIn v) h
  covered : w.owed + uncredited D h ≤ w.heldIn D w.stakingToken

theorem Init.owed (hw : Init D w) : w.owed = 0 := by
  have hverifiers : w.verifiers = fun _ => {} := by rw [hw.registry]; rfl
  have hpool : w.rewardPool = 0 := by rw [hw.registry]; rfl
  simp only [World.owed, hverifiers, hpool, Finset.sum_const_zero]

theorem Init.sound (hw : Init D w) : Sound D [] w := by
  refine ⟨fun v => ?_, ?_⟩
  · rw [hw.registry]
    rfl
  · rw [hw.owed]
    exact Nat.zero_le _

theorem lostIn_of_careful (hcareful : Careful D ⟨w, a, w'⟩) (v : Address) :
    lostIn v ⟨w, a, w'⟩ = 0 := by
  unfold lostIn
  split
  case h_1 sender removed hact =>
    obtain rfl : a = .call sender (.removeVerifier removed) := hact
    split_ifs with hv
    · rw [← hv]
      exact hcareful
    · rfl
  case h_2 => rfl

theorem Sound.next (hr : Reach D h w) (hw : Sound D h w) (hs : step D w a = some w')
    (hcareful : Careful D ⟨w, a, w'⟩) (hhonest : Honest D (⟨w, a, w'⟩ :: h)) :
    Sound D (⟨w, a, w'⟩ :: h) w' := by
  refine ⟨fun v => ?_, covered_of_step hr hs hcareful hhonest hw.covered⟩
  have htrace := traced_of_step hr hs v
  have hkept := hw.kept v
  rw [lostIn_of_careful hcareful] at htrace
  simp only [tally_cons]
  omega

theorem careful_of_custody (hr : Reach D h w) (hw : Custody D h w) (hs : step D w a = some w')
    (hw' : Custody D (⟨w, a, w'⟩ :: h) w') : Careful D ⟨w, a, w'⟩ := by
  unfold Careful
  split
  case h_1 sender wallet hact =>
    obtain rfl : a = .call sender (.removeVerifier wallet) := hact
    have htrace := traced_of_step hr hs wallet
    have hkept := hw.kept wallet
    have hkept' := hw'.kept wallet
    simp only [tally_cons] at hkept'
    have hlost : lostIn wallet ⟨w, .call sender (.removeVerifier wallet), w'⟩ =
        (w.verifiers wallet).stakeAmount := if_pos rfl
    dsimp only
    omega
  case h_2 sender token minStake reward hact =>
    obtain rfl : a = .call sender (.setStakingConfig token minStake reward) := hact
    obtain ⟨-, -, he⟩ := step_call hs
    obtain ⟨htoken, htokens, howed⟩ := he.reconfigured
    have hcovered := hw'.covered
    rw [htoken, howed, World.heldIn, htokens] at hcovered
    exact hcovered
  case h_3 => trivial

/-- **Custody throughout a run**. -/
theorem custody_iff (hr : Reach D h w) (hhonest : Honest D h) :
    Throughout (Custody D) h w ↔ ∀ e ∈ h, Careful D e := by
  rw [← each_iff]
  refine hr.throughout_iff (J := Sound D) (H := Honest D) (fun e h hh => hh.2)
    (fun w hw => hw.sound) ?_ ?_ ?_ hhonest
  · intro h w a w' hr hh hw hs hcareful
    exact hw.next hr hs hcareful hh
  · intro h w hw
    exact ⟨hw.kept, le_of_add_le_left hw.covered⟩
  · intro h w a w' hr hw hs hw'
    exact careful_of_custody hr hw hs hw'

namespace Sample

def deployment : Deployment where
  self := .ofNat 70
  admin := .ofNat 71
  self_ne_zero := by decide
  admin_ne_zero := by decide

def token : Address := .ofNat 72

def allocator : Address := .ofNat 73

def verifier : Address := .ofNat 74

def initial : World where
  toRegistry := deployment.created
  tokens _ :=
    { balanceOf := fun a => if a = verifier ∨ a = allocator then 1000 else 0
      allowance := fun a s => if a = verifier ∧ s = deployment.self then 1000 else 0 }

theorem init : Init deployment initial where
  registry := rfl
  allowance t a := by
    change (if deployment.self = verifier ∧ a = deployment.self then 1000 else 0) = 0
    exact if_neg fun h => absurd h.1 (by decide)

def world (as : List Act) : World := (steps (step deployment) as initial).getD initial

def history (as : List Act) : History := record (step deployment) as initial []

theorem reach (as : List Act)
    (hsome : (steps (step deployment) as initial).isSome := by decide +kernel) :
    Reach deployment (history as) (world as) :=
  (Run.start init).stateAfter hsome

def staking : List Act :=
  [.call deployment.admin (.setStakingConfig token 50 1),
    .call deployment.admin (.registerVerifier verifier "" 0), .call verifier (.stake 100)]

def rewarding : List Act :=
  staking ++ [.call deployment.admin (.setRewardAllocator allocator),
      .erc20 allocator token (.transfer deployment.self 30),
      .call allocator (.creditRewards 20),
      .call deployment.admin (.slash none verifier 10 "")]

end Sample

open Sample

theorem custody_sample : ((world rewarding).verifiers verifier).stakeAmount = 90 ∧
      Custody deployment (history rewarding) (world rewarding) := by
  have hhonest : Honest deployment (history rewarding) :=
    ⟨trivial, (by decide +kernel : 20 ≤ _), trivial, trivial, trivial, trivial, trivial, trivial⟩
  have hfirst : initial.owed ≤ initial.heldIn deployment token := by
    rw [init.owed]
    exact Nat.zero_le _
  have hcareful : ∀ e ∈ history rewarding, Careful deployment e :=
    each_iff.mp ⟨trivial, trivial, trivial, trivial, trivial, trivial, hfirst, trivial⟩
  exact ⟨by decide +kernel, ((custody_iff (reach rewarding) hhonest).mpr hcareful).last⟩

namespace Sample

def removing : List Act := staking ++ [.call deployment.admin (.removeVerifier verifier)]

def switching : List Act :=
  staking ++ [.call deployment.admin (.setStakingConfig (.ofNat 75) 50 1)]

end Sample

/-- **Two ways to lose custody.** After `removeVerifier` the verifier's deposit of 100 is neither
staked nor withdrawn nor slashed. -/
theorem custody_lost : (Reach deployment (history removing) (world removing) ∧
      tally (stakedIn verifier) (history removing) = 100 ∧
      ((world removing).verifiers verifier).stakeAmount = 0 ∧
      tally (unstakedIn verifier) (history removing) = 0 ∧
      tally (slashedIn verifier) (history removing) = 0) ∧
    Reach deployment (history switching) (world switching) ∧ 100 ≤ (world switching).owed ∧
      (world switching).heldIn deployment (world switching).stakingToken = 0 := by
  refine ⟨⟨reach _, by decide +kernel⟩, reach _, ?_, by decide +kernel⟩
  have hstake : ((world switching).verifiers verifier).stakeAmount = 100 := by
    decide +kernel
  rw [← hstake]
  exact stake_le_owed _ _

end Karma.VerifierRegistry
