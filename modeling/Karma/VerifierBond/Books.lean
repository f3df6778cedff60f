import Karma.VerifierBond.Effect

/-! # `KarmaVerifierBond` — the books balance

Four invariants of every run: no bond has more pending than it holds (`World.Tidy`); the total is
the sum of the bonds, and the vault's balance covers it with the pool (`Solvent`); the list of
members names every registered verifier exactly once (`Roster`); what a verifier ever staked is what
it still has, was slashed, or took out (`Traced`). -/

namespace Karma.VerifierBond

open Evm Function

variable {D : Deployment} {h : History} {w w' : World} {sender : Address} {c : Call} {a : Act}

/-! ## Bonds -/

structure Bond.Tidy (b : Bond) : Prop where
  pending : b.unbondAmount ≤ b.amount
  idle : b.unbondRequestedAt = 0 → b.unbondAmount = 0
  asked : b.unbondRequestedAt ≠ 0 → b.registered = true
  known : b.active = true → b.registered = true

namespace Bond.Tidy

variable {b : Bond} {minBond amount : ℕ}

theorem staked (hb : b.Tidy) : (b.staked minBond amount).Tidy where
  pending := Nat.le_add_right_of_le hb.pending
  idle := hb.idle
  asked _ := rfl
  known _ := rfl

theorem requested {time : ℕ} (hregistered : b.registered = true) (hle : amount ≤ b.amount)
    (htime : 0 < time) : (b.requested amount time).Tidy where
  pending := hle
  idle hzero := absurd hzero htime.ne'
  asked _ := hregistered
  known _ := hregistered

theorem withdrawn (hb : b.Tidy) : (b.withdrawn minBond).Tidy where
  pending := Nat.zero_le _
  idle _ := rfl
  asked hne := absurd rfl hne
  known hactive := hb.known (Bool.and_elim_left hactive)

theorem slashed (hb : b.Tidy) : (b.slashed minBond amount).Tidy where
  pending := by
    change b.pendingAfter amount ≤ b.amount - b.taken amount
    unfold Bond.pendingAfter
    by_cases hrequested : b.unbondRequestedAt = 0
    · rw [if_neg fun hcap => hcap.1 hrequested, hb.idle hrequested]
      exact Nat.zero_le _
    · split_ifs with hcap
      · exact le_rfl
      · exact not_lt.mp fun hlt => hcap ⟨hrequested, hlt⟩
  idle hzero := by
    change b.pendingAfter amount = 0
    rw [Bond.pendingAfter, if_neg fun hcap => hcap.1 hzero]
    exact hb.idle hzero
  asked := hb.asked
  known hactive := hb.known (Bool.and_elim_left hactive)

end Bond.Tidy

structure World.Tidy (w : World) : Prop where
  bonds : ∀ v, (w.bonds v).Tidy
  now : 0 < w.now
  entered : w.entered = false

variable {f : Address → Bond}

theorem tidy_update {v : Address} {b : Bond} (hf : ∀ v, (f v).Tidy)
    (hb : b.Tidy) : ∀ x, (update f v b x).Tidy :=
  (forall_update_iff f fun _ b => b.Tidy).mpr ⟨hb, fun x _ => hf x⟩

theorem Effect.tidy (he : Effect D w sender c w') (hw : w.Tidy) : w'.Tidy := by
  cases he with
  | setSlasher | setToken | setStakeConfig | setSlashSplit => exact ⟨hw.bonds, hw.now, hw.entered⟩
  | stake => exact ⟨tidy_update hw.bonds (hw.bonds sender).staked, hw.now, rfl⟩
  | requestUnstake hregistered _ hle =>
    exact ⟨tidy_update hw.bonds (.requested hregistered hle hw.now), hw.now, hw.entered⟩
  | withdrawUnstake => exact ⟨tidy_update hw.bonds (hw.bonds sender).withdrawn, hw.now, rfl⟩
  | slash => exact ⟨tidy_update hw.bonds (hw.bonds _).slashed, hw.now, rfl⟩
  | distributePool => exact ⟨hw.bonds, hw.now, rfl⟩

theorem Reach.tidy (hr : Reach D h w) : w.Tidy := by
  refine hr.safe (fun w hw => ?_) fun w a w' ih hs => ?_
  · have hbonds : w.bonds = fun _ => {} := congrArg Vault.bonds hw.vault
    refine ⟨fun v => ?_, hw.now, hw.entered⟩
    rw [hbonds]
    exact ⟨le_rfl, fun _ => rfl, fun hne => absurd rfl hne, fun hactive => hactive⟩
  · cases a with
    | tick time =>
      obtain ⟨hle, rfl⟩ := step_tick hs
      exact ⟨ih.bonds, ih.now.trans_le hle, ih.entered⟩
    | erc20 sender token c =>
      obtain ⟨-, T, -, rfl⟩ := step_erc20 hs
      exact ⟨ih.bonds, ih.now, ih.entered⟩
    | call sender c =>
      obtain ⟨-, -, he⟩ := step_call hs
      exact he.tidy ⟨ih.bonds, ih.now, ih.entered⟩

/-! ## Totals and balances -/

structure Solvent (D : Deployment) (w : World) : Prop where
  bonded : w.totalBonded = ∑ v, (w.bonds v).amount
  backed : ∀ t, (w.tokens t).Backs D.self (if t = w.token then w.totalBonded + w.slashPool else 0)
  token : w.token = 0 → w.totalBonded = 0 ∧ w.slashPool = 0

theorem Solvent.amount_le (hw : Solvent D w) (v : Address) :
    (w.bonds v).amount ≤ w.totalBonded := by
  rw [hw.bonded]
  exact Finset.single_le_sum (f := fun v => (w.bonds v).amount) (fun _ _ => Nat.zero_le _)
    (Finset.mem_univ v)

theorem bonded_update {total : ℕ} (hf : total = ∑ v, (f v).amount)
    (v : Address) (b : Bond) :
    total + b.amount = ∑ x, (update f v b x).amount + (f v).amount := by
  rw [sum_field_update_add f Bond.amount v b, hf]

theorem Solvent.pay {ps : List (Address × ℕ)} (hbonded : w.totalBonded = ∑ v, (w.bonds v).amount)
    (hbacked : ∀ t, (w.tokens t).Backs D.self
      (if t = w.token then w.totalBonded + w.slashPool + Erc20.total ps else 0))
    (htoken : w.token = 0 → w.totalBonded = 0 ∧ w.slashPool = 0) : Solvent D (w.pay D ps) := by
  refine ⟨hbonded, fun t => ?_, htoken⟩
  have ht := hbacked t
  change (update w.tokens w.token ((w.tokens w.token).pay D.self ps) t).Backs D.self
    (if t = w.token then w.totalBonded + w.slashPool else 0)
  by_cases hcase : t = w.token
  · subst hcase
    rw [if_pos rfl] at ht ⊢
    rw [update_self]
    exact ht.pay
  · rw [if_neg hcase] at ht ⊢
    rw [update_of_ne hcase]
    exact ht

theorem Effect.solvent (he : Effect D w sender c w') (hw : Solvent D w) : Solvent D w' := by
  cases he with
  | setSlasher | setStakeConfig | setSlashSplit => exact ⟨hw.bonded, hw.backed, hw.token⟩
  | setToken _ htotal hpool =>
    refine ⟨hw.bonded, fun t => ?_, fun _ => ⟨htotal, hpool⟩⟩
    have ht := hw.backed t
    simp only [htotal, hpool, Nat.add_zero, ite_self] at ht ⊢
    exact ht
  | @stake amount T evs htoken _ hT =>
    refine ⟨?_, fun t => ?_, fun hzero => absurd hzero htoken⟩
    · have hsum := bonded_update hw.bonded sender ((w.bonds sender).staked w.minBond amount)
      simp only [Bond.staked] at hsum ⊢
      omega
    · have ht := hw.backed t
      by_cases hcase : t = w.token
      · subst hcase
        rw [if_pos rfl] at ht
        simp only [update_self, if_true]
        apply (ht.pull hT).mono
        omega
      · simp only [update_of_ne hcase, if_neg hcase] at ht ⊢
        exact ht
  | @requestUnstake amount =>
    refine ⟨?_, hw.backed, hw.token⟩
    have hsum := bonded_update hw.bonded sender ((w.bonds sender).requested amount w.now)
    simp only [Bond.requested] at hsum ⊢
    omega
  | withdrawUnstake =>
    have hle := hw.amount_le sender
    have hcut := (w.bonds sender).unbonding_le
    apply Solvent.pay
    · have hsum := bonded_update hw.bonded sender ((w.bonds sender).withdrawn w.minBond)
      simp only [Bond.withdrawn, Bond.cut, Bond.requested] at hsum ⊢
      omega
    · intro t
      apply (hw.backed t).mono
      rw [total_payout]
      dsimp only
      split_ifs <;> omega
    · intro hzero
      obtain ⟨htotal, hpool⟩ := hw.token hzero
      exact ⟨by rw [htotal, Nat.zero_sub], hpool⟩
  | @slash verifier victim amount _ _ _ hvictim =>
    have hle := hw.amount_le verifier
    have hcut := (w.bonds verifier).taken_le amount
    apply Solvent.pay
    · have hsum := bonded_update hw.bonded verifier ((w.bonds verifier).slashed w.minBond amount)
      simp only [Bond.slashed, Bond.cut] at hsum ⊢
      omega
    · intro t
      apply (hw.backed t).mono
      rw [total_payout]
      dsimp only
      split_ifs <;> omega
    · intro hzero
      obtain ⟨htotal, hpool⟩ := hw.token hzero
      dsimp only
      constructor <;> omega
  | @distributePool winners amount _ hsome hle =>
    have hdiv := Nat.div_mul_le_self amount winners.length
    apply Solvent.pay
    · exact hw.bonded
    · intro t
      apply (hw.backed t).mono
      rw [total_payouts _ _ hsome]
      dsimp only
      split_ifs <;> omega
    · intro hzero
      obtain ⟨htotal, hpool⟩ := hw.token hzero
      exact ⟨htotal, by rw [hpool, Nat.zero_sub]⟩

theorem Reach.solvent (hr : Reach D h w) : Solvent D w := by
  refine hr.safe (fun w hw => ?_) fun w a w' ih hs => ?_
  · have hvault := hw.vault
    have hbonds : w.bonds = fun _ => {} := congrArg Vault.bonds hvault
    have htotal : w.totalBonded = 0 := congrArg Vault.totalBonded hvault
    have hpool : w.slashPool = 0 := congrArg Vault.slashPool hvault
    refine ⟨?_, fun t => ?_, fun _ => ⟨htotal, hpool⟩⟩
    · rw [htotal, hbonds]
      exact Finset.sum_const_zero.symm
    · have hgranted : (w.tokens t).granted D.self = 0 := by
        simp only [Erc20.granted, hw.allowance]
        exact Finset.sum_const_zero
      simp only [htotal, hpool, Nat.add_zero, ite_self, Erc20.Backs, hgranted]
      exact Nat.zero_le _
  · cases a with
    | tick time =>
      obtain ⟨-, rfl⟩ := step_tick hs
      exact ⟨ih.bonded, ih.backed, ih.token⟩
    | erc20 sender token c =>
      obtain ⟨hsender, T, hT, rfl⟩ := step_erc20 hs
      refine ⟨ih.bonded, fun t => ?_, ih.token⟩
      have ht := ih.backed t
      by_cases hcase : t = token
      · subst hcase
        simp only [update_self]
        exact ht.run hsender hT
      · simp only [update_of_ne hcase]
        exact ht
    | call sender c =>
      obtain ⟨-, -, he⟩ := step_call hs
      exact he.solvent ⟨ih.bonded, ih.backed, ih.token⟩

/-! ## Members -/

structure Roster (D : Deployment) (w : World) : Prop where
  nodup : w.members.Nodup
  listed : ∀ v, v ∈ w.members ↔ (w.bonds v).registered = true
  flagged : ∀ v, w.member v = true ↔ (w.bonds v).registered = true
  person : ∀ v, (w.bonds v).registered = true → v ≠ D.self ∧ v ≠ 0

theorem Roster.of_registered (hw : Roster D w) (hmembers : w'.members = w.members)
    (hmember : w'.member = w.member)
    (hbonds : ∀ v, (w'.bonds v).registered = (w.bonds v).registered) : Roster D w' where
  nodup := by rw [hmembers]; exact hw.nodup
  listed v := by rw [hmembers, hbonds]; exact hw.listed v
  flagged v := by rw [hmember, hbonds]; exact hw.flagged v
  person v := by rw [hbonds]; exact hw.person v

theorem registered_update {v : Address} {b : Bond}
    (hb : b.registered = (f v).registered) (x : Address) :
    (update f v b x).registered = (f x).registered := by
  by_cases hx : x = v
  · rw [hx, update_self, hb]
  · rw [update_of_ne hx]

theorem Roster.enroll (hw : Roster D w) (hself : sender ≠ D.self) (hzero : sender ≠ 0)
    (hmembers : w'.members = (w.enroll sender).members)
    (hmember : w'.member = (w.enroll sender).member)
    (hbonds : ∀ v, (w'.bonds v).registered = true ↔ v = sender ∨ (w.bonds v).registered = true) :
    Roster D w' := by
  by_cases hnew : (w.bonds sender).registered = false
  · have hflag : w.member sender = false := by
      rw [← Bool.not_eq_true, hw.flagged, hnew]
      exact Bool.false_ne_true
    have hfresh : sender ∉ w.members := by
      rw [hw.listed, hnew]
      exact Bool.false_ne_true
    rw [Vault.enroll, if_pos ⟨hnew, hflag⟩] at hmembers hmember
    refine ⟨?_, fun v => ?_, fun v => ?_, fun v hv => ?_⟩
    · rw [hmembers, List.nodup_append]
      refine ⟨hw.nodup, List.nodup_singleton _, fun x hx y hy => ?_⟩
      rw [List.mem_singleton.mp hy]
      intro hxy
      exact hfresh (hxy ▸ hx)
    · rw [hmembers, hbonds, List.mem_append, List.mem_singleton, hw.listed, or_comm]
    · rw [hmember, hbonds]
      by_cases hv : v = sender
      · simp [hv]
      · simp [hv, hw.flagged]
    · rcases (hbonds v).mp hv with rfl | hv
      · exact ⟨hself, hzero⟩
      · exact hw.person v hv
  · rw [Vault.enroll, if_neg fun hcase => hnew hcase.1] at hmembers hmember
    apply hw.of_registered hmembers hmember
    intro v
    rw [Bool.eq_iff_iff, hbonds]
    constructor
    · rintro (rfl | hv)
      · exact Bool.not_eq_false _ ▸ hnew
      · exact hv
    · exact Or.inr

theorem Effect.roster (he : Effect D w sender c w') (hself : sender ≠ D.self) (hzero : sender ≠ 0)
    (hw : Roster D w) : Roster D w' := by
  cases he with
  | setSlasher | setToken | setStakeConfig | setSlashSplit | distributePool =>
    exact hw.of_registered rfl rfl fun _ => rfl
  | stake =>
    apply hw.enroll hself hzero rfl rfl
    intro v
    by_cases hv : v = sender
    · simp [hv, Bond.staked]
    · simp [hv]
  | requestUnstake | withdrawUnstake | slash =>
    exact hw.of_registered rfl rfl (registered_update rfl)

theorem Reach.roster (hr : Reach D h w) : Roster D w := by
  refine hr.safe (fun w hw => ?_) fun w a w' ih hs => ?_
  · have hbonds : w.bonds = fun _ => {} := congrArg Vault.bonds hw.vault
    have hmembers : w.members = [] := congrArg Vault.members hw.vault
    have hmember : w.member = fun _ => false := congrArg Vault.member hw.vault
    refine ⟨?_, fun v => ?_, fun v => ?_, fun v hv => ?_⟩
    · rw [hmembers]
      exact List.nodup_nil
    · rw [hmembers, hbonds]
      simp
    · rw [hmember, hbonds]
    · rw [hbonds] at hv
      cases hv
  · cases a with
    | tick time =>
      obtain ⟨-, rfl⟩ := step_tick hs
      exact ih.of_registered rfl rfl fun _ => rfl
    | erc20 sender token c =>
      obtain ⟨-, T, -, rfl⟩ := step_erc20 hs
      exact ih.of_registered rfl rfl fun _ => rfl
    | call sender c =>
      obtain ⟨hself, hzero, he⟩ := step_call hs
      exact he.roster hself hzero (ih.of_registered rfl rfl fun _ => rfl)

/-! ## Where a verifier's stakes went -/

def stakedIn (verifier : Address) (e : Entry World Act) : ℕ :=
  match e.act with
  | .call sender (.stake amount) => if sender = verifier then amount else 0
  | _ => 0

def withdrawnIn (verifier : Address) (e : Entry World Act) : ℕ :=
  match e.act with
  | .call sender .withdrawUnstake => if sender = verifier then Erc20.total e.post.paid else 0
  | _ => 0

def totalStaked (verifier : Address) (h : History) : ℕ := (h.map (stakedIn verifier)).sum

def totalWithdrawn (verifier : Address) (h : History) : ℕ := (h.map (withdrawnIn verifier)).sum

theorem Effect.traced (he : Effect D w.fresh sender c w') (v : Address) :
    (w'.bonds v).amount + (w'.bonds v).slashedTotal + withdrawnIn v ⟨w, .call sender c, w'⟩ =
      (w.bonds v).amount + (w.bonds v).slashedTotal + stakedIn v ⟨w, .call sender c, w'⟩ := by
  cases he with
  | setSlasher => rfl
  | setToken => rfl
  | setStakeConfig => rfl
  | setSlashSplit => rfl
  | @stake amount =>
    simp only [withdrawnIn, stakedIn, Nat.add_zero]
    by_cases hv : v = sender
    · rw [hv, if_pos rfl, update_self]
      change (w.bonds sender).amount + amount + (w.bonds sender).slashedTotal = _
      omega
    · rw [update_of_ne hv, if_neg (Ne.symm hv)]
      rfl
  | requestUnstake =>
    simp only [withdrawnIn, stakedIn, Nat.add_zero]
    by_cases hv : v = sender
    · rw [hv, update_self]
      rfl
    · rw [update_of_ne hv]
      rfl
  | withdrawUnstake =>
    have hpaid := total_payout sender (w.bonds sender).unbonding
    have hle := (w.bonds sender).unbonding_le
    simp only [withdrawnIn, stakedIn, World.pay, World.fresh, List.nil_append, Nat.add_zero]
    by_cases hv : v = sender
    · rw [hv, if_pos rfl, update_self, hpaid]
      simp only [Bond.withdrawn, Bond.cut, Bond.requested]
      omega
    · rw [update_of_ne hv, if_neg (Ne.symm hv), Nat.add_zero]
  | @slash verifier victim amount =>
    have hle := (w.bonds verifier).taken_le amount
    simp only [withdrawnIn, stakedIn, World.pay, World.fresh, Nat.add_zero]
    by_cases hv : v = verifier
    · rw [hv, update_self]
      simp only [Bond.slashed, Bond.cut]
      omega
    · rw [update_of_ne hv]
  | distributePool => rfl

theorem Reach.traced (hr : Reach D h w) (v : Address) :
    totalStaked v h = (w.bonds v).amount + (w.bonds v).slashedTotal + totalWithdrawn v h := by
  refine hr.invariant (P := fun h w => totalStaked v h =
    (w.bonds v).amount + (w.bonds v).slashedTotal + totalWithdrawn v h) (fun w hw => ?_)
    fun h w a w' _ ih hs => ?_
  · have hbonds : w.bonds = fun _ => {} := congrArg Vault.bonds hw.vault
    rw [hbonds]
    rfl
  · have hstaked : totalStaked v (⟨w, a, w'⟩ :: h) = stakedIn v ⟨w, a, w'⟩ + totalStaked v h := rfl
    have hout : totalWithdrawn v (⟨w, a, w'⟩ :: h) =
        withdrawnIn v ⟨w, a, w'⟩ + totalWithdrawn v h := rfl
    rw [hstaked, hout]
    cases a with
    | tick time =>
      obtain ⟨-, rfl⟩ := step_tick hs
      simp only [stakedIn, withdrawnIn, Nat.zero_add]
      exact ih
    | erc20 sender token c =>
      obtain ⟨-, T, -, rfl⟩ := step_erc20 hs
      simp only [stakedIn, withdrawnIn, Nat.zero_add]
      exact ih
    | call sender c =>
      obtain ⟨-, -, he⟩ := step_call hs
      have htrace := he.traced v
      omega

/-! ## Conservation -/

/-- What a single slash and a single distribution move. -/
def Exact (D : Deployment) (e : Entry World Act) : Prop :=
  match e.act with
  | .call sender (.slash verifier victim amount reason) =>
    ∃ victimAmount poolAmount, (slash D sender verifier victim amount reason e.pre.fresh).result =
        .ok ((victimAmount, poolAmount), e.post) ∧
      (e.pre.bonds verifier).amount = (e.post.bonds verifier).amount + (victimAmount + poolAmount) ∧
      (∀ v ≠ verifier, (e.post.bonds v).amount = (e.pre.bonds v).amount) ∧
      Erc20.total e.post.paid = victimAmount ∧ (∀ p ∈ e.post.paid, p.1 = victim) ∧
      e.post.slashPool = e.pre.slashPool + poolAmount
  | .call _ (.distributePool winners amount) =>
    Erc20.total e.post.paid = amount ∧ (∀ p ∈ e.post.paid, p.1 ∈ winners) ∧
      e.post.slashPool + amount = e.pre.slashPool
  | _ => True

theorem slash_result {verifier victim : Address} {amount : ℕ} {reason : Bytes32}
    (hs : step D w (.call sender (.slash verifier victim amount reason)) = some w') :
    ∃ r, (slash D sender verifier victim amount reason w.fresh).result = .ok (r, w') ∧
      Effect D w.fresh sender (.slash verifier victim amount reason) w' ∧
      r = (w.victimAmount victim ((w.bonds verifier).taken amount),
        (w.bonds verifier).taken amount -
          w.victimAmount victim ((w.bonds verifier).taken amount)) := by
  have hpost : (Call.exec D sender (.slash verifier victim amount reason)).post (fun _ w' =>
      ∃ r, (slash D sender verifier victim amount reason w.fresh).result = .ok (r, w') ∧
        Effect D w.fresh sender (.slash verifier victim amount reason) w' ∧
        r = (w.victimAmount victim ((w.bonds verifier).taken amount),
          (w.bonds verifier).taken amount -
            w.victimAmount victim ((w.bonds verifier).taken amount))) w.fresh := by
    simp only [Call.exec, Tx.wp_code]
    exact Tx.wp_both post_slash (Tx.post_result _ _) (fun _ _ _ => trivial) (fun _ _ _ => trivial)
      fun r _ heffect hresult => ⟨r, hresult, heffect.1, heffect.2⟩
  simp only [step] at hs
  split_ifs at hs
  split at hs
  case h_1 u hr =>
    cases hs
    exact Tx.wp_ok hpost hr
  case h_2 => cases hs

theorem exact_slash {verifier victim : Address} {amount : ℕ} {reason : Bytes32}
    (hs : step D w (.call sender (.slash verifier victim amount reason)) = some w') :
    Exact D ⟨w, .call sender (.slash verifier victim amount reason), w'⟩ := by
  obtain ⟨r, hresult, he, rfl⟩ := slash_result hs
  refine ⟨_, _, hresult, ?_⟩
  cases he with
  | slash _ hvictim =>
    have hle := (w.bonds verifier).taken_le amount
    have hpaid := total_payout victim (w.victimAmount victim ((w.bonds verifier).taken amount))
    have hvictim : w.victimAmount victim ((w.bonds verifier).taken amount) ≤
      (w.bonds verifier).taken amount := hvictim
    simp only [World.pay, World.fresh, List.nil_append, update_self]
    refine ⟨?_, fun v hv => ?_, hpaid, fun p hp => eq_of_mem_payout hp, trivial⟩
    · simp only [Bond.slashed, Bond.cut]
      omega
    · rw [update_of_ne hv]

theorem exact_distributePool {winners : List Address} {amount : ℕ}
    (hs : step D w (.call sender (.distributePool winners amount)) = some w') :
    Exact D ⟨w, .call sender (.distributePool winners amount), w'⟩ := by
  obtain ⟨-, -, he⟩ := step_call hs
  cases he with
  | distributePool hsome hle =>
    have hdiv := Nat.div_mul_le_self amount winners.length
    have hle : amount ≤ w.slashPool := hle
    simp only [Exact, World.pay, World.fresh, List.nil_append]
    refine ⟨?_, fun p hp => mem_winners_of_mem_payouts hp, Nat.sub_add_cancel hle⟩
    rw [total_payouts _ _ hsome]
    omega

theorem exact_of_step (hs : step D w a = some w') : Exact D ⟨w, a, w'⟩ := by
  unfold Exact
  dsimp only
  split
  · exact exact_slash hs
  · exact exact_distributePool hs
  · trivial

namespace Sample

def deployment : Deployment where
  self := .ofNat 80
  admin := .ofNat 81
  self_ne_zero := by decide
  admin_ne_zero := by decide

def slasher : Address := .ofNat 63

def verifier : Address := .ofNat 64

def victim : Address := .ofNat 65

def initial : World where
  token := .ofNat 62
  minBond := 50
  tokens _ :=
    { balanceOf := fun a => if a = verifier then 1000 else 0
      allowance := fun a s => if a = verifier ∧ s = deployment.self then 1000 else 0 }
  now := 1
  entered := false
  paid := []
  events := []

theorem init : Init deployment initial where
  config := rfl
  vault := rfl
  now := by decide
  entered := rfl
  allowance t a := by
    change (if deployment.self = verifier ∧ a = deployment.self then 1000 else 0) = 0
    exact if_neg fun h => absurd h.1 (by decide)

def world (as : List Act) : World := (steps (step deployment) as initial).getD initial

def history (as : List Act) : History := record (step deployment) as initial []

theorem reach (as : List Act)
    (hsome : (steps (step deployment) as initial).isSome := by decide +kernel) :
    Reach deployment (history as) (world as) :=
  (Run.start init).stateAfter hsome

def slashing : List Act :=
  [.call verifier (.stake 100), .call deployment.admin (.setSlasher slasher),
    .call slasher (.slash verifier victim 40 0), .call verifier (.requestUnstake 10),
    .tick 259201, .call verifier .withdrawUnstake,
    .call deployment.admin (.distributePool [victim, slasher, victim] 8)]

end Sample

/-- **The vault's books balance in every run.** -/
theorem bonds_are_conserved (hr : Reach D h w) : w.totalBonded = ∑ v, (w.bonds v).amount ∧
      w.totalBonded + w.slashPool ≤ (w.tokens w.token).balanceOf D.self ∧
      ((w.tokens w.token).balanceOf D.self < 2 ^ 256 → w.solvencyGap D = some 0) ∧
      (∀ v, totalStaked v h = (w.bonds v).amount + (w.bonds v).slashedTotal + totalWithdrawn v h) ∧
      (∀ v, (w.bonds v).unbondAmount ≤ (w.bonds v).amount) ∧
      (∀ e ∈ h, Exact D e) ∧
      w.members.Nodup ∧ ∀ v, v ∈ w.members ↔ (w.bonds v).registered = true := by
  have hbalance : w.totalBonded + w.slashPool ≤ (w.tokens w.token).balanceOf D.self := by
    have hbacks := hr.solvent.backed w.token
    rw [if_pos rfl, Erc20.Backs] at hbacks
    omega
  refine ⟨hr.solvent.bonded, hbalance, fun hword => ?_, hr.traced,
    fun v => (hr.tidy.bonds v).pending, fun e he => ?_, hr.roster.nodup, hr.roster.listed⟩
  · unfold World.solvencyGap
    by_cases htoken : w.token = 0
    · rw [if_pos htoken]
    · rw [if_neg htoken, if_pos (hbalance.trans_lt hword)]
      exact congrArg some (if_pos hbalance)
  · obtain ⟨-, -, hs⟩ := hr.of_mem he
    exact exact_of_step hs

open Sample

theorem bonds_are_conserved_sample : (world slashing).totalBonded = 50 ∧
      (world slashing).solvencyGap deployment = some 0 ∧
      totalStaked verifier (history slashing) = ((world slashing).bonds verifier).amount +
          ((world slashing).bonds verifier).slashedTotal +
          totalWithdrawn verifier (history slashing) := by
  obtain ⟨-, -, hgap, htrace, -⟩ :=
    bonds_are_conserved (reach slashing)
  exact ⟨by decide +kernel, hgap (by decide +kernel), htrace verifier⟩

end Karma.VerifierBond
