import Karma.VerifierRegistry.Custody

/-! # `VerifierRegistry` — who is active

One flag of a verifier's record says two things: that the stake is sufficient, and that the admin
has not suspended the verifier. -/

namespace Karma.VerifierRegistry

open Evm

def suspended (verifier : Address) : History → Bool
  | [] => false
  | e :: h =>
    match e.act with
    | .call _ (.suspendVerifier wallet) => decide (wallet = verifier) || suspended verifier h
    | .call _ (.activateVerifier wallet) => decide (wallet ≠ verifier) && suspended verifier h
    | .call _ (.removeVerifier wallet) => decide (wallet ≠ verifier) && suspended verifier h
    | _ => suspended verifier h

structure Discipline (h : History) (w : World) : Prop where
  funded : ∀ v, w.isActiveVerifier v = true → w.minStake ≤ (w.verifiers v).stakeAmount
  idle : ∀ v, suspended v h = true → w.isActiveVerifier v = false

def Orderly (h : History) (e : Entry World Act) : Prop :=
  match e.act with
  | .call _ (.activateVerifier wallet) =>
    e.pre.minStake ≤ (e.pre.verifiers wallet).stakeAmount
  | .call sender (.stake amount) => suspended sender h = true →
      (e.pre.verifiers sender).stakeAmount + amount < e.pre.minStake
  | _ => True

variable {D : Deployment} {h : History} {w w' : World} {sender v : Address} {c : Call} {a : Act}

theorem isActiveVerifier_iff :
    w.isActiveVerifier v = true ↔ (w.verifiers v).wallet ≠ 0 ∧ (w.verifiers v).active = true := by
  simp [Registry.isActiveVerifier]

/-! ## What an orderly run keeps -/

/-- The discipline, with what it takes to keep it. -/
structure Kept (h : History) (w : World) : Prop where
  funded : ∀ v, (w.verifiers v).wallet ≠ 0 → (w.verifiers v).active = true →
    w.minStake ≤ (w.verifiers v).stakeAmount
  idle : ∀ v, suspended v h = true → (w.verifiers v).wallet ≠ 0 ∧ (w.verifiers v).active = false
  listed : ∀ v, (w.verifiers v).wallet ≠ 0 → v ∈ w.verifierList

variable {e : Entry World Act}

theorem Kept.update {r : VerifierInfo} (hw : Kept h w)
    (hverifiers : w'.verifiers = Function.update w.verifiers v r)
    (hminStake : w'.minStake = w.minStake)
    (hlist : ∀ x, x ≠ v → x ∈ w.verifierList → x ∈ w'.verifierList)
    (hothers : ∀ x, x ≠ v → suspended x (e :: h) = suspended x h)
    (hfunded : r.wallet ≠ 0 → r.active = true → w.minStake ≤ r.stakeAmount)
    (hidle : suspended v (e :: h) = true → r.wallet ≠ 0 ∧ r.active = false)
    (hlisted : r.wallet ≠ 0 → v ∈ w'.verifierList) : Kept (e :: h) w' := by
  have hself : w'.verifiers v = r := by rw [hverifiers, Function.update_self]
  have hne : ∀ x, x ≠ v → w'.verifiers x = w.verifiers x := fun x hx => by
    rw [hverifiers, Function.update_of_ne hx]
  refine ⟨fun x => ?_, fun x => ?_, fun x => ?_⟩ <;> rcases eq_or_ne x v with rfl | hx
  · rwa [hself, hminStake]
  · rw [hne x hx, hminStake]
    exact hw.funded x
  · rwa [hself]
  · rw [hne x hx, hothers x hx]
    exact hw.idle x
  · rwa [hself]
  · rw [hne x hx]
    exact fun hwallet => hlist x hx (hw.listed x hwallet)

theorem Kept.revise {r : VerifierInfo} (hw : Kept h w)
    (hverifiers : w'.verifiers = Function.update w.verifiers v r)
    (hminStake : w'.minStake = w.minStake) (hlist : w'.verifierList = w.verifierList)
    (hsame : ∀ x, suspended x (e :: h) = suspended x h)
    (hwallet : r.wallet = (w.verifiers v).wallet)
    (hfunded : r.wallet ≠ 0 → r.active = true → w.minStake ≤ r.stakeAmount)
    (hidle : suspended v h = true → r.active = false) : Kept (e :: h) w' := by
  refine hw.update hverifiers hminStake (fun x _ hmem => hlist ▸ hmem) (fun x _ => hsame x) hfunded
    ?_ ?_
  · rw [hsame, hwallet]
    exact fun hsuspended => ⟨(hw.idle v hsuspended).1, hidle hsuspended⟩
  · rw [hlist, hwallet]
    exact hw.listed v

theorem Kept.congr (hw : Kept h w) (hminStake : w'.minStake = w.minStake)
    (hlist : w'.verifierList = w.verifierList)
    (hwallet : ∀ x, (w'.verifiers x).wallet = (w.verifiers x).wallet)
    (hactive : ∀ x, (w'.verifiers x).active = (w.verifiers x).active)
    (hstake : ∀ x, (w'.verifiers x).stakeAmount = (w.verifiers x).stakeAmount)
    (hsame : ∀ x, suspended x (e :: h) = suspended x h) : Kept (e :: h) w' := by
  refine ⟨fun x => ?_, fun x => ?_, fun x => ?_⟩
  · rw [hwallet, hactive, hstake, hminStake]
    exact hw.funded x
  · rw [hwallet, hactive, hsame]
    exact hw.idle x
  · rw [hwallet, hlist]
    exact hw.listed x

theorem Kept.judge {n : ℕ} (hw : Kept h w) (hminStake : w'.minStake = n)
    (hlist : w'.verifierList = w.verifierList)
    (hverifiers : ∀ x, w'.verifiers x =
      if x ∈ w.verifierList then (w.verifiers x).judged n else w.verifiers x)
    (hsame : ∀ x, suspended x (e :: h) = suspended x h) : Kept (e :: h) w' := by
  -- a registered verifier is in the list, so that the loop judges it
  have hjudged : ∀ x, (w.verifiers x).wallet ≠ 0 →
      w'.verifiers x = (w.verifiers x).judged n := fun x hx => by
    rw [hverifiers, if_pos (hw.listed x hx)]
  have hwallet : ∀ x, (w'.verifiers x).wallet = (w.verifiers x).wallet := fun x => by
    rw [hverifiers]
    split_ifs <;> rfl
  refine ⟨fun x hx hactive => ?_, fun x hsuspended => ?_, fun x hx => ?_⟩
  · rw [hjudged x (hwallet x ▸ hx)] at hactive ⊢
    rw [hminStake]
    exact of_decide_eq_true (Bool.and_eq_true_iff.mp hactive).2
  · obtain ⟨hx, hactive⟩ := hw.idle x (hsame x ▸ hsuspended)
    refine ⟨(hwallet x).symm ▸ hx, ?_⟩
    rw [hjudged x hx, VerifierInfo.judged, hactive, Bool.false_and]
  · exact hlist ▸ hw.listed x (hwallet x ▸ hx)

theorem mem_swapRemove {wallets : List Address} {wallet x : Address} (hx : x ≠ wallet)
    (hmem : x ∈ wallets) : x ∈ swapRemove wallet wallets := by
  unfold swapRemove
  split
  case h_2 => exact hmem
  case h_1 i hi =>
    obtain ⟨hlt, hwallet, -⟩ := List.findIdx?_eq_some_iff_getElem.mp hi
    have hwallet : wallets[i] = wallet := by simpa using hwallet
    obtain ⟨j, hj, rfl⟩ := List.getElem_of_mem hmem
    have hij : i ≠ j := by
      rintro rfl
      exact hx hwallet
    have hlast : wallets.getLastD wallet = wallets[wallets.length - 1] := by
      rw [List.getLastD_eq_getLast?, List.getLast?_eq_getElem?, List.getElem?_eq_getElem (by omega)]
      rfl
    rw [List.mem_iff_getElem]
    by_cases hend : j = wallets.length - 1
    · -- the last entry moves to the place of the removed one
      refine ⟨i, by simp; omega, ?_⟩
      simp only [List.getElem_dropLast, List.getElem_set_self, hlast, hend]
    · refine ⟨j, by simp; omega, ?_⟩
      simp only [List.getElem_dropLast, List.getElem_set_ne hij]

theorem Effect.kept (he : Effect D w.fresh sender c w')
    (horderly : Orderly h ⟨w, .call sender c, w'⟩) (hw : Kept h w) :
    Kept (⟨w, .call sender c, w'⟩ :: h) w' := by
  cases he with
  | aside haside hsame =>
    apply hw.congr hsame.minStake hsame.verifierList hsame.wallet hsame.active hsame.stakeAmount
    intro x
    cases c <;> first | rfl | exact haside.elim
  | @registerVerifier wallet _ _ _ _ _ hnew =>
    refine hw.update rfl rfl (fun x _ hx => List.mem_append_left _ hx) (fun _ _ => rfl) ?_ ?_ ?_
    · intro _ hactive
      have hzero : w.minStake = 0 := of_decide_eq_true hactive
      exact hzero.le
    · -- a verifier under suspension is registered already
      intro hsuspended
      exact absurd hnew (hw.idle wallet hsuspended).1
    · intro _
      exact List.mem_append_right _ List.mem_cons_self
  | @removeVerifier wallet =>
    refine hw.update rfl rfl (fun x hx hmem => mem_swapRemove hx hmem) (fun x hx => ?_) ?_ ?_ ?_
    · simp [suspended, Ne.symm hx]
    · exact fun hwallet => absurd rfl hwallet
    · intro hsuspended
      simp [suspended] at hsuspended
    · exact fun hwallet => absurd rfl hwallet
  | @suspendVerifier wallet evs hwallet =>
    refine hw.update rfl rfl (fun _ _ hmem => hmem) (fun x hx => ?_) ?_ ?_ ?_
    · simp [suspended, Ne.symm hx]
    · intro _ hactive
      cases hactive
    · exact fun _ => ⟨hwallet, rfl⟩
    · exact hw.listed wallet
  | @activateVerifier wallet =>
    refine hw.update rfl rfl (fun _ _ hmem => hmem) (fun x hx => ?_) ?_ ?_ ?_
    · simp [suspended, Ne.symm hx]
    · exact fun _ _ => horderly
    · intro hsuspended
      simp [suspended] at hsuspended
    · exact hw.listed wallet
  | @setStakingConfig token minStake =>
    exact hw.judge rfl rfl (fun _ => rfl) fun _ => rfl
  | creditRewards =>
    exact hw.congr rfl rfl (fun _ => rfl) (fun _ => rfl) (fun _ => rfl) fun _ => rfl
  | @rewardVerifier verifier =>
    refine hw.revise World.pay_verifiers World.pay_minStake World.pay_verifierList (fun _ => rfl)
      rfl (hw.funded verifier) ?_
    exact fun hsuspended => (hw.idle verifier hsuspended).2
  | @stake amount =>
    refine hw.revise rfl rfl rfl (fun _ => rfl) rfl ?_ ?_
    · intro hwallet hactive
      rcases Bool.or_eq_true_iff.mp hactive with hactive | hle
      · exact Nat.le_add_right_of_le (hw.funded sender hwallet hactive)
      · exact of_decide_eq_true hle
    · intro hsuspended
      have hless : (w.verifiers sender).stakeAmount + amount < w.minStake := horderly hsuspended
      change ((w.verifiers sender).active ||
        decide (w.minStake ≤ (w.verifiers sender).stakeAmount + amount)) = false
      rw [(hw.idle sender hsuspended).2, decide_eq_false (not_le.mpr hless), Bool.or_false]
  | @unstake amount _ _ hle =>
    have hle : amount + w.minStake ≤ (w.verifiers sender).stakeAmount := hle
    refine hw.revise World.pay_verifiers World.pay_minStake World.pay_verifierList (fun _ => rfl)
      rfl ?_ ?_
    · intro _ _
      change w.minStake ≤ (w.verifiers sender).stakeAmount - amount
      omega
    · exact fun hsuspended => (hw.idle sender hsuspended).2
  | @slash engine verifier amount =>
    refine hw.revise World.pay_verifiers World.pay_minStake World.pay_verifierList (fun _ => rfl)
      rfl ?_ ?_
    · intro _ hactive
      exact of_decide_eq_true (Bool.and_eq_true_iff.mp hactive).2
    · intro hsuspended
      change ((w.verifiers verifier).active && _) = false
      rw [(hw.idle verifier hsuspended).2, Bool.false_and]

theorem Init.kept (hw : Init D w) : Kept [] w := by
  have hverifiers : w.verifiers = fun _ => {} := by rw [hw.registry]; rfl
  refine ⟨fun v hwallet => ?_, fun v hsuspended => ?_, fun v hwallet => ?_⟩
  · rw [hverifiers] at hwallet
    exact absurd rfl hwallet
  · cases hsuspended
  · rw [hverifiers] at hwallet
    exact absurd rfl hwallet

theorem kept_of_step (hs : step D w a = some w') (horderly : Orderly h ⟨w, a, w'⟩)
    (hw : Kept h w) : Kept (⟨w, a, w'⟩ :: h) w' := by
  cases a with
  | erc20 sender token c =>
    obtain ⟨-, -, T, -, rfl⟩ := step_erc20 hs
    exact hw.congr rfl rfl (fun _ => rfl) (fun _ => rfl) (fun _ => rfl) fun _ => rfl
  | call sender c =>
    obtain ⟨-, -, he⟩ := step_call hs
    exact he.kept horderly hw

theorem Kept.discipline (hw : Kept h w) : Discipline h w := by
  refine ⟨fun v hactive => ?_, fun v hsuspended => ?_⟩
  · obtain ⟨hwallet, hflag⟩ := isActiveVerifier_iff.mp hactive
    exact hw.funded v hwallet hflag
  · rw [← Bool.not_eq_true, isActiveVerifier_iff]
    rintro ⟨-, hflag⟩
    rw [(hw.idle v hsuspended).2] at hflag
    cases hflag

theorem orderly_of_discipline (hs : step D w a = some w')
    (hw' : Discipline (⟨w, a, w'⟩ :: h) w') : Orderly h ⟨w, a, w'⟩ := by
  unfold Orderly
  split
  case h_1 sender wallet hact =>
    obtain rfl : a = .call sender (.activateVerifier wallet) := hact
    obtain ⟨-, -, he⟩ := step_call hs
    cases he with
    | aside haside => exact haside.elim
    | activateVerifier hwallet =>
      have hfunded := hw'.funded wallet (isActiveVerifier_iff.mpr (by
        simp only [Function.update_self]
        exact ⟨hwallet, trivial⟩))
      simp only [Function.update_self] at hfunded
      exact hfunded
  case h_2 sender amount hact =>
    obtain rfl : a = .call sender (.stake amount) := hact
    intro hsuspended
    obtain ⟨-, -, he⟩ := step_call hs
    have hidle := hw'.idle sender hsuspended
    rw [← Bool.not_eq_true, isActiveVerifier_iff] at hidle
    by_contra hle
    apply hidle
    cases he with
    | aside haside => exact haside.elim
    | stake _ hwallet =>
      simp only [Function.update_self]
      refine ⟨hwallet, ?_⟩
      change ((w.verifiers sender).active ||
        decide (w.minStake ≤ (w.verifiers sender).stakeAmount + amount)) = true
      rw [decide_eq_true (not_lt.mp hle), Bool.or_true]
  case h_3 => trivial

/-- **Discipline throughout a run**: it holds in every state exactly when every step is orderly. -/
theorem discipline_iff (hr : Reach D h w) : Throughout Discipline h w ↔ Each Orderly h := by
  refine hr.throughout_iff (J := Kept) (H := fun _ => True) (fun _ _ _ => trivial)
    (fun w hw => hw.kept) ?_ ?_ ?_ trivial
  · intro h w a w' _ _ hw hs horderly
    exact kept_of_step hs horderly hw
  · intro h w hw
    exact hw.discipline
  · intro h w a w' _ _ hs hw'
    exact orderly_of_discipline hs hw'

theorem discipline_sample : (Sample.world Sample.staking).isActiveVerifier Sample.verifier = true ∧
      Discipline (Sample.history Sample.staking) (Sample.world Sample.staking) := by
  have horderly : Each Orderly (Sample.history Sample.staking) :=
    ⟨fun hsuspended => absurd hsuspended Bool.false_ne_true, trivial, trivial, trivial⟩
  exact ⟨by decide +kernel, ((discipline_iff (Sample.reach Sample.staking)).mpr horderly).last⟩

namespace Sample

def activating : List Act :=
  [.call deployment.admin (.setStakingConfig token 50 1),
    .call deployment.admin (.registerVerifier verifier "" 0),
    .call deployment.admin (.activateVerifier verifier)]

def returning : List Act :=
  staking ++ [.call deployment.admin (.suspendVerifier verifier), .call verifier (.stake 0)]

end Sample

/-- **Two ways around the discipline.** -/
theorem discipline_broken : (Reach Sample.deployment (Sample.history Sample.activating)
        (Sample.world Sample.activating) ∧
      (Sample.world Sample.activating).isActiveVerifier Sample.verifier = true ∧
      ((Sample.world Sample.activating).verifiers Sample.verifier).stakeAmount = 0 ∧
      (Sample.world Sample.activating).minStake = 50) ∧
    Reach Sample.deployment (Sample.history Sample.returning) (Sample.world Sample.returning) ∧
      suspended Sample.verifier (Sample.history Sample.returning) = true ∧
      (Sample.world Sample.returning).isActiveVerifier Sample.verifier = true :=
  ⟨⟨Sample.reach _, by decide +kernel⟩, Sample.reach _,
    by decide +kernel⟩

end Karma.VerifierRegistry
