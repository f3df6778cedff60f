import Karma.VerifierBond.Code

/-! # `KarmaVerifierBond` — what a call does

`Effect D w sender c w'` says what a successful call is. -/

namespace Karma.VerifierBond

open Evm Function

/-! ## Bonds -/

namespace Bond

variable (b : Bond)

def staked (minBond amount : ℕ) : Bond :=
  { b with
    registered := true
    amount := b.amount + amount
    active := b.active || decide (minBond ≤ b.amount + amount) }

def requested (amount time : ℕ) : Bond :=
  { b with unbondAmount := amount, unbondRequestedAt := time }

/-- The bond less `amount`, deactivated when that leaves less than the minimum. -/
def cut (minBond amount : ℕ) : Bond :=
  { b with
    amount := b.amount - amount
    active := b.active && decide (minBond ≤ b.amount - amount) }

/-- What a withdrawal pays: what was requested, as far as it is still there. -/
def unbonding : ℕ := if b.amount < b.unbondAmount then b.amount else b.unbondAmount

def withdrawn (minBond : ℕ) : Bond := (b.cut minBond b.unbonding).requested 0 0

def taken (amount : ℕ) : ℕ := if b.amount < amount then b.amount else amount

def pendingAfter (amount : ℕ) : ℕ :=
  if b.unbondRequestedAt ≠ 0 ∧ b.amount - b.taken amount < b.unbondAmount then
    b.amount - b.taken amount
  else b.unbondAmount

def slashed (minBond amount : ℕ) : Bond :=
  { b.cut minBond (b.taken amount) with
    slashedTotal := b.slashedTotal + b.taken amount
    unbondAmount := b.pendingAfter amount }

theorem unbonding_le : b.unbonding ≤ b.amount := by
  unfold unbonding
  split_ifs <;> omega

theorem taken_le (amount : ℕ) : b.taken amount ≤ b.amount := by
  unfold taken
  split_ifs <;> omega

end Bond

/-! ## Payments -/

def payout (target : Address) (amount : ℕ) : List (Address × ℕ) :=
  if 0 < amount then [(target, amount)] else []

def payouts (per remainder : ℕ) : List Address → List (Address × ℕ)
  | [] => []
  | winner :: winners =>
    payout winner (if winners = [] then per + remainder else per) ++ payouts per remainder winners

def World.pay (D : Deployment) (w : World) (ps : List (Address × ℕ)) : World :=
  { w with
    tokens := update w.tokens w.token ((w.tokens w.token).pay D.self ps)
    paid := w.paid ++ ps }

def Covers (D : Deployment) (w : World) (target : Address) (amount : ℕ) : Prop :=
  0 < amount → w.token ≠ 0 ∧ target ≠ 0 ∧ amount ≤ (w.tokens w.token).balanceOf D.self

theorem total_payout (target : Address) (amount : ℕ) :
    Erc20.total (payout target amount) = amount := by
  unfold payout
  split_ifs with h
  · simp [Erc20.total]
  · simp only [Erc20.total, List.map_nil, List.sum_nil]
    omega

theorem total_append (ps qs : List (Address × ℕ)) :
    Erc20.total (ps ++ qs) = Erc20.total ps + Erc20.total qs := by
  simp [Erc20.total]

variable {winners : List Address}

theorem total_payouts (per remainder : ℕ) (h : winners ≠ []) :
    Erc20.total (payouts per remainder winners) = per * winners.length + remainder := by
  induction winners with
  | nil => exact absurd rfl h
  | cons winner winners ih =>
    rw [payouts, total_append, total_payout]
    by_cases hlast : winners = []
    · subst hlast
      simp [payouts, Erc20.total]
    · rw [if_neg hlast, ih hlast, List.length_cons, Nat.mul_add_one]
      omega

theorem eq_of_mem_payout {target : Address} {amount : ℕ} {p : Address × ℕ}
    (hp : p ∈ payout target amount) : p.1 = target := by
  unfold payout at hp
  split_ifs at hp
  · rw [List.mem_singleton.mp hp]
  · exact absurd hp List.not_mem_nil

theorem mem_winners_of_mem_payouts {per remainder : ℕ}
    {p : Address × ℕ} (hp : p ∈ payouts per remainder winners) : p.1 ∈ winners := by
  induction winners with
  | nil => exact absurd hp List.not_mem_nil
  | cons winner winners ih =>
    rw [payouts] at hp
    rcases List.mem_append.mp hp with hp | hp
    · rw [eq_of_mem_payout hp]
      exact List.mem_cons_self
    · exact List.mem_cons_of_mem _ (ih hp)

variable {D : Deployment} {w w' : World} {sender target verifier : Address} {I : World → Prop}
  {E : Error → Prop} {Q : Unit → World → Prop} {amount : ℕ}

@[simp] theorem World.pay_nil : w.pay D [] = w := by
  simp [World.pay, Erc20.pay]

theorem World.pay_append (ps qs : List (Address × ℕ)) :
    w.pay D (ps ++ qs) = (w.pay D ps).pay D qs := by
  simp [World.pay, Erc20.pay]

/-! ## Rules for the parts of the calls -/

@[simp] theorem wp_emit (e : Event) :
    (emit e).wp I E Q w ↔ Q () { w with events := w.events ++ [e] } := by
  simp only [emit, Tx.wp_modify]

@[simp] theorem wp_writeConfig (f : Config → Config) :
    (writeConfig f).wp I E Q w ↔ Q () { w with toConfig := f w.toConfig } := by
  simp only [writeConfig, Tx.wp_modify]

@[simp] theorem wp_writeVault (f : Vault → Vault) :
    (writeVault f).wp I E Q w ↔ Q () { w with toVault := f w.toVault } := by
  simp only [writeVault, Tx.wp_modify]

@[simp] theorem wp_updateBond (f : Bond → Bond) :
    (updateBond verifier f).wp I E Q w ↔
      Q () { w with bonds := update w.bonds verifier (f (w.bonds verifier)) } := by
  simp only [updateBond, wp_writeVault]

theorem wp_updateBond_ite (c : Prop) [Decidable c] (f : Bond → Bond) (hQ : Q () { w with
      bonds := update w.bonds verifier (if c then f (w.bonds verifier) else w.bonds verifier) }) :
    (if c then updateBond verifier f else pure ()).wp I E Q w := by
  rw [Tx.wp_ite, wp_updateBond, Tx.wp_pure]
  constructor
  · intro hc
    rwa [if_pos hc] at hQ
  · intro hc
    rwa [if_neg hc, update_eq_self] at hQ

@[simp] theorem wp_nonReentrant {α : Type} {Q : α → World → Prop} (body : M α) :
    (nonReentrant body).wp I E Q w ↔ (w.entered = true → E .reentrancy) ∧
        (¬ w.entered = true → body.wp I E (fun r v => Q r { v with entered := false })
          { w with entered := true }) := by
  simp only [nonReentrant, Tx.wp_code]

theorem post_nonReentrant {α : Type} {Q : α → World → Prop} (body : M α) :
    (nonReentrant body).wp I (fun _ => True) Q w ↔
      (¬ w.entered = true → body.wp I (fun _ => True) (fun r v => Q r { v with entered := false })
        { w with entered := true }) := by
  simp

theorem wp_transferNonzero (hE : ¬ Covers D w target amount → ∀ e, E e)
    (hQ : Covers D w target amount → Q () (w.pay D (payout target amount))) :
    (transferNonzero D target amount).wp I E Q w := by
  rw [transferNonzero, Tx.wp_ite, Tx.wp_pure]
  constructor
  · intro hpos
    simp only [transfer, Tx.wp_code, payout, if_pos hpos] at hQ ⊢
    refine ⟨fun hzero => hE (fun hc => (hc hpos).1 hzero) _, fun htoken => ⟨fun hnone => ?_, ?_⟩⟩
    · refine hE (fun hc => ?_) _
      obtain ⟨-, htarget, hbalance⟩ := hc hpos
      have hsome := Erc20.transfer_eq_some.mpr ⟨D.self_ne_zero, htarget, hbalance, rfl⟩
      rw [hnone] at hsome
      cases hsome
    · intro T hT
      obtain ⟨-, htarget, hbalance, rfl⟩ := Erc20.transfer_eq_some.mp hT
      exact hQ fun _ => ⟨htoken, htarget, hbalance⟩
  · intro hzero
    have hkept := hQ fun hpos => absurd hpos hzero
    rwa [payout, if_neg hzero, World.pay_nil] at hkept

theorem wp_deactivateBelow (hQ : ∀ evs, Q () { w with
      bonds := update w.bonds verifier ((w.bonds verifier).cut w.minBond 0)
      events := evs }) :
    (deactivateBelow verifier).wp I E Q w := by
  simp only [deactivateBelow, Tx.wp_code, wp_updateBond, wp_emit]
  constructor
  · rintro ⟨hactive, hless⟩
    have hcut : (w.bonds verifier).cut w.minBond 0 = { w.bonds verifier with active := false } := by
      simp [Bond.cut, not_le.mpr hless]
    rw [← hcut]
    exact hQ _
  · intro hkept
    have hcut : (w.bonds verifier).cut w.minBond 0 = w.bonds verifier := by
      have hactive : ((w.bonds verifier).active && decide (w.minBond ≤ (w.bonds verifier).amount))
          = (w.bonds verifier).active := by
        by_cases h : (w.bonds verifier).active = true
        · have hle : w.minBond ≤ (w.bonds verifier).amount := not_lt.mp fun hlt => hkept ⟨h, hlt⟩
          simp [hle]
        · simp [h]
      simp only [Bond.cut, Nat.sub_zero, hactive]
    have hsame := hQ w.events
    rwa [hcut, update_eq_self] at hsame

theorem wp_payWinners {per remainder : ℕ} (winners : List Address)
    (hQ : Q () (w.pay D (payouts per remainder winners))) :
    (payWinners D per remainder winners).wp I (fun _ => True) Q w := by
  induction winners generalizing w with
  | nil =>
    rw [payouts, World.pay_nil] at hQ
    rw [payWinners, Tx.wp_pure]
    exact hQ
  | cons winner winners ih =>
    rw [payouts, World.pay_append] at hQ
    simp only [payWinners, Tx.post_code]
    constructor
    · intro hlast
      rw [if_pos hlast] at hQ
      intro _
      exact wp_transferNonzero (fun _ _ => trivial) fun _ => ih hQ
    · intro hmore
      rw [if_neg hmore] at hQ
      exact wp_transferNonzero (fun _ _ => trivial) fun _ => ih hQ

/-! ## The calls -/

def Vault.enroll (v : Vault) (verifier : Address) : Vault :=
  if (v.bonds verifier).registered = false ∧ v.member verifier = false then
    { v with
      member := update v.member verifier true
      members := v.members ++ [verifier] }
  else v

def Config.victimAmount (c : Config) (victim : Address) (taken : ℕ) : ℕ :=
  if victim = 0 then 0 else taken * c.victimShareBps / bpsDenominator

inductive Effect (D : Deployment) (w : World) (sender : Address) : Call → World → Prop
  | setSlasher {slasher : Address} {evs : List Event} :
      Effect D w sender (.setSlasher slasher) { w with slasher := slasher, events := evs }
  | setToken {token : Address} {evs : List Event} :
      token ≠ 0 → w.totalBonded = 0 → w.slashPool = 0 →
      Effect D w sender (.setToken token) { w with token := token, events := evs }
  | setStakeConfig {minBond unbondCooldown minPoolPayout : ℕ} {evs : List Event} :
      Effect D w sender (.setStakeConfig minBond unbondCooldown minPoolPayout) { w with
        minBond := minBond
        unbondCooldown := unbondCooldown
        minPoolPayout := minPoolPayout
        events := evs }
  | setSlashSplit {victimShareBps : ℕ} {evs : List Event} : victimShareBps ≤ bpsDenominator →
      Effect D w sender (.setSlashSplit victimShareBps)
        { w with victimShareBps := victimShareBps, events := evs }
  | stake {amount : ℕ} {T : Erc20 Address} {evs : List Event} : w.token ≠ 0 → 0 < amount →
      (w.tokens w.token).transferFrom D.self sender D.self amount = some T →
      Effect D w sender (.stake amount) { w with
        tokens := update w.tokens w.token T
        members := (w.enroll sender).members
        member := (w.enroll sender).member
        bonds := update w.bonds sender ((w.bonds sender).staked w.minBond amount)
        totalBonded := w.totalBonded + amount
        entered := false
        events := evs }
  | requestUnstake {amount : ℕ} {evs : List Event} :
      (w.bonds sender).registered = true → 0 < amount → amount ≤ (w.bonds sender).amount →
      Effect D w sender (.requestUnstake amount) { w with
        bonds := update w.bonds sender ((w.bonds sender).requested amount w.now)
        events := evs }
  | withdrawUnstake {evs : List Event} : (w.bonds sender).unbondRequestedAt ≠ 0 →
      (w.bonds sender).unbondRequestedAt + w.unbondCooldown < 2 ^ 256 →
      (w.bonds sender).unbondRequestedAt + w.unbondCooldown ≤ w.now →
      Effect D w sender .withdrawUnstake (World.pay D { w with
        bonds := update w.bonds sender ((w.bonds sender).withdrawn w.minBond)
        totalBonded := w.totalBonded - (w.bonds sender).unbonding
        entered := false
        events := evs } (payout sender (w.bonds sender).unbonding))
  | slash {verifier victim : Address} {amount : ℕ} {reason : Bytes32} {evs : List Event} :
      (w.bonds verifier).registered = true →
      w.victimAmount victim ((w.bonds verifier).taken amount) ≤ (w.bonds verifier).taken amount →
      Effect D w sender (.slash verifier victim amount reason) (World.pay D { w with
        bonds := update w.bonds verifier ((w.bonds verifier).slashed w.minBond amount)
        totalBonded := w.totalBonded - (w.bonds verifier).taken amount
        slashPool := w.slashPool + ((w.bonds verifier).taken amount -
          w.victimAmount victim ((w.bonds verifier).taken amount))
        entered := false
        events := evs } (payout victim (w.victimAmount victim ((w.bonds verifier).taken amount))))
  | distributePool {winners : List Address} {amount : ℕ} {evs : List Event} :
      winners ≠ [] → amount ≤ w.slashPool →
      Effect D w sender (.distributePool winners amount) (World.pay D { w with
        slashPool := w.slashPool - amount
        entered := false
        events := evs } (payouts (amount / winners.length)
          (amount - amount / winners.length * winners.length) winners))

theorem wp_scaled {Q : ℕ → World → Prop} {c : Config} {victim : Address} {taken : ℕ}
    (hQ : ∀ scaled, scaled / bpsDenominator = c.victimAmount victim taken → Q scaled w) :
    Tx.wp (if victim = 0 then pure 0 else Tx.checkedMul Error.overflow taken c.victimShareBps) I
      (fun _ => True) Q w := by
  simp only [Tx.post_code]
  constructor
  · intro hzero
    exact hQ 0 (by rw [Config.victimAmount, if_pos hzero, Nat.zero_div])
  · intro hzero _
    exact hQ _ (by rw [Config.victimAmount, if_neg hzero])

theorem wp_register (hQ : Q () { w with
      bonds := update w.bonds verifier { w.bonds verifier with registered := true }
      members := (w.enroll verifier).members
      member := (w.enroll verifier).member }) :
    (register verifier).wp I E Q w := by
  simp only [register, Tx.wp_code, wp_updateBond, wp_writeVault]
  constructor
  · intro hnew
    constructor
    · intro hmember
      rw [Vault.enroll, if_pos ⟨hnew, hmember⟩] at hQ
      exact hQ
    · intro hmember
      rw [Vault.enroll, if_neg fun h => hmember h.2] at hQ
      exact hQ
  · intro hold
    have hsame : { w.bonds verifier with registered := true } = w.bonds verifier := by
      rw [Bool.not_eq_false] at hold
      rw [← hold]
    rw [Vault.enroll, if_neg fun h => hold h.1, hsame, update_eq_self] at hQ
    exact hQ

theorem post_stake :
    (stake D sender amount).post (fun _ w' => Effect D w sender (.stake amount) w') w := by
  simp only [stake, post_nonReentrant, Tx.post_code]
  intro _ htoken hpos T hT
  apply wp_register
  simp only [wp_updateBond, wp_writeVault, wp_emit, update_self, update_idem]
  refine fun _ _ => ⟨fun hactive => ?_, fun hactive => ?_⟩
  · have hbond : (w.bonds sender).staked w.minBond amount = { w.bonds sender with
        registered := true, amount := (w.bonds sender).amount + amount, active := true } := by
      simp [Bond.staked, hactive.2]
    rw [← hbond]
    exact .stake htoken (Nat.pos_of_ne_zero hpos) hT
  · have hbond : (w.bonds sender).staked w.minBond amount = { w.bonds sender with
        registered := true, amount := (w.bonds sender).amount + amount } := by
      have hkept : ((w.bonds sender).active ||
          decide (w.minBond ≤ (w.bonds sender).amount + amount)) = (w.bonds sender).active := by
        by_cases h : (w.bonds sender).active = true
        · simp [h]
        · have hlow : ¬ w.minBond ≤ (w.bonds sender).amount + amount :=
            fun hle => hactive ⟨Bool.not_eq_true _ ▸ h, hle⟩
          simp [hlow]
      simp only [Bond.staked, hkept]
    rw [← hbond]
    exact .stake htoken (Nat.pos_of_ne_zero hpos) hT

theorem post_requestUnstake : (requestUnstake sender amount).post
      (fun _ w' => Effect D w sender (.requestUnstake amount) w') w := by
  simp only [requestUnstake, Tx.post_code, wp_updateBond, wp_emit]
  intro hregistered hamount _
  push Not at hamount
  exact .requestUnstake (Bool.not_eq_false _ ▸ hregistered) (Nat.pos_of_ne_zero hamount.1) hamount.2

theorem post_withdrawUnstake :
    (withdrawUnstake D sender).post (fun _ w' => Effect D w sender .withdrawUnstake w') w := by
  simp only [withdrawUnstake, post_nonReentrant, Tx.post_code, wp_updateBond, wp_writeVault]
  intro _ hrequested hword hready _ _
  apply wp_deactivateBelow
  intro evs
  apply wp_transferNonzero (fun _ _ => trivial)
  intro _
  rw [wp_emit]
  simp only [update_self, update_idem]
  exact .withdrawUnstake hrequested hword (not_lt.mp hready)

theorem post_slash {victim : Address} {reason : Bytes32} :
    (slash D sender verifier victim amount reason).post (fun r w' =>
      Effect D w sender (.slash verifier victim amount reason) w' ∧
        r = (w.victimAmount victim ((w.bonds verifier).taken amount),
          (w.bonds verifier).taken amount -
            w.victimAmount victim ((w.bonds verifier).taken amount))) w := by
  simp only [slash, post_nonReentrant, Tx.wp_bind, Tx.wp_get, Tx.wp_revertIf, Tx.wp_checkedSub,
    Tx.wp_checkedAdd, implies_true, true_and, and_true, wp_updateBond, wp_writeVault]
  intro _ _ hregistered _ _ _ _ _
  apply wp_updateBond_ite
  apply wp_deactivateBelow
  intro evs
  refine wp_scaled (c := w.toConfig) fun scaled hscaled => ?_
  rw [hscaled]
  intro hle
  apply wp_transferNonzero (fun _ _ => trivial)
  intro _
  have hbond : ∀ b : Bond, b.slashed w.minBond amount = (if b.unbondRequestedAt ≠ 0 ∧
      b.amount - b.taken amount < b.unbondAmount then
        { b with
          amount := b.amount - b.taken amount
          slashedTotal := b.slashedTotal + b.taken amount
          unbondAmount := b.amount - b.taken amount }
      else
        { b with
          amount := b.amount - b.taken amount
          slashedTotal := b.slashedTotal + b.taken amount }).cut w.minBond 0 := by
    intro b
    simp only [Bond.slashed, Bond.pendingAfter]
    split_ifs <;> rfl
  have heffect := fun evs => @Effect.slash D w sender verifier victim amount reason evs
    (Bool.not_eq_false _ ▸ hregistered) hle
  simp only [hbond] at heffect
  simp only [wp_emit, Tx.wp_ite, Tx.wp_pure, update_self, update_idem]
  exact fun _ => ⟨fun _ => ⟨heffect _, rfl⟩, fun _ => ⟨heffect _, rfl⟩⟩

theorem post_distributePool : (distributePool D sender winners amount).post
      (fun _ w' => Effect D w sender (.distributePool winners amount) w') w := by
  simp only [distributePool, post_nonReentrant, onlyAdmin, Tx.post_code, wp_writeVault]
  intro _ _ hsome _ hpool _ _ _ _
  apply wp_payWinners
  rw [wp_emit]
  exact .distributePool hsome (not_lt.mp hpool)

theorem post_exec (c : Call) : (c.exec D sender).post (fun _ w' => Effect D w sender c w') w := by
  cases c with
  | setSlasher slasher =>
    simp only [Call.exec, setSlasher, onlyAdmin, Tx.post_code, wp_writeConfig, wp_emit]
    exact fun _ => .setSlasher
  | setToken token =>
    simp only [Call.exec, setToken, onlyAdmin, Tx.post_code, wp_writeConfig, wp_emit]
    intro _ htoken hempty
    push Not at hempty
    exact .setToken htoken hempty.1 hempty.2
  | setStakeConfig minBond unbondCooldown minPoolPayout =>
    simp only [Call.exec, setStakeConfig, onlyAdmin, Tx.post_code, wp_writeConfig, wp_emit]
    exact fun _ => .setStakeConfig
  | setSlashSplit victimShareBps =>
    simp only [Call.exec, setSlashSplit, onlyAdmin, Tx.post_code, wp_writeConfig, wp_emit]
    exact fun _ hle => .setSlashSplit (not_lt.mp hle)
  | stake amount => exact post_stake
  | requestUnstake amount => exact post_requestUnstake
  | withdrawUnstake => exact post_withdrawUnstake
  | slash verifier victim amount reason =>
    simp only [Call.exec, Tx.wp_code]
    exact Tx.wp_mono post_slash fun _ _ h => h.1
  | distributePool winners amount => exact post_distributePool

theorem step_tick {time : ℕ} (hs : step D w (.tick time) = some w') :
    w.now ≤ time ∧ w' = { w.fresh with now := time } := by
  simp only [step] at hs
  split_ifs at hs with hle
  exact ⟨hle, (Option.some.inj hs).symm⟩

theorem step_erc20 {token : Address} {c : Erc20.Call Address}
    (hs : step D w (.erc20 sender token c) = some w') :
    sender ≠ D.self ∧ ∃ T, (w.tokens token).run sender c = some T ∧
      w' = { w.fresh with tokens := update w.tokens token T } := by
  simp only [step] at hs
  split_ifs at hs with hsender
  push Not at hsender
  obtain ⟨T, hT, rfl⟩ := Option.map_eq_some_iff.mp hs
  exact ⟨hsender.1, T, hT, rfl⟩

theorem step_call {c : Call} (hs : step D w (.call sender c) = some w') :
    sender ≠ D.self ∧ sender ≠ 0 ∧ Effect D w.fresh sender c w' := by
  simp only [step] at hs
  split_ifs at hs with hsender
  push Not at hsender
  split at hs
  case h_1 u hr =>
    cases hs
    exact ⟨hsender.1, hsender.2, Tx.wp_ok (post_exec c) hr⟩
  case h_2 => cases hs

end Karma.VerifierBond
