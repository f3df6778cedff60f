import Karma.IdentityRegistry.Envelope
import Mathlib.Algebra.Order.BigOperators.Group.List
import Mathlib.Algebra.Order.Group.Nat
import Mathlib.Algebra.Ring.Nat

/-! # `KarmaIdentityRegistry` — the allowances of a master together

`Registry.granted R m` is the sum that `setSubAgentBounds` compares with the free balance of the
master `m`. -/

namespace Karma.IdentityRegistry

open Evm Function

variable {R R' : Registry} {ctx : Ctx} {sender s bilateral m : Address} {id : Bytes32}
  {I : Registry → Prop}

def SubAgent.share (sa : SubAgent) : ℕ := if sa.status = .active then sa.allowance else 0

def Registry.granted (R : Registry) (m : Address) : ℕ :=
  ((R.masterSubAgentIds m).map fun id => (R.subAgentById id).share).sum

theorem granted_le (hids : R'.masterSubAgentIds m = R.masterSubAgentIds m)
    (hshare : ∀ id ∈ R.masterSubAgentIds m,
      (R'.subAgentById id).share ≤ (R.subAgentById id).share) :
    R'.granted m ≤ R.granted m := by
  rw [Registry.granted, Registry.granted, hids]
  exact List.sum_le_sum hshare

theorem granted_setSubAgent_le {sa : SubAgent} (hsa : sa.share ≤ (R.subAgentById id).share) :
    (R.setSubAgent id sa).granted m ≤ R.granted m := by
  refine granted_le rfl fun k _ => ?_
  rw [setSubAgent_subAgentById]
  rcases eq_or_ne k id with rfl | hne
  · rw [update_self]
    exact hsa
  · rw [update_of_ne hne]

theorem wp_totalAllowance_eq {Q : ℕ → Registry → Prop} (ids : List Bytes32) (acc : ℕ)
    (hQ : Q (acc + (ids.map fun id => (R'.subAgentById id).share).sum) R) :
    (totalAllowance R' ids acc).wp I (fun _ => True) Q R := by
  induction ids generalizing acc with
  | nil =>
    rw [totalAllowance, Tx.wp_pure]
    exact hQ
  | cons id ids ih =>
    simp only [totalAllowance, Tx.post_code]
    rw [List.map_cons, List.sum_cons, ← Nat.add_assoc] at hQ
    refine ⟨fun hactive _ => ih _ ?_, fun hinactive => ih _ ?_⟩
    · rwa [SubAgent.share, if_pos hactive] at hQ
    · rwa [SubAgent.share, if_neg hinactive, Nat.add_zero] at hQ

theorem post_setSubAgentBounds {subWallet : Address} {allowance perTxLimit expiresAt : ℕ} :
    (setSubAgentBounds ctx sender subWallet allowance perTxLimit expiresAt).post
      (fun _ R' => R'.granted sender ≤ ctx.freeBalance sender) R := by
  simp only [setSubAgentBounds, requireIdentity, findActiveSubAgentId, Tx.post_code, wp_emit]
  intro _ id _ _ _
  apply wp_totalAllowance_eq
  rw [Nat.zero_add]
  exact fun hle => not_lt.mp hle

theorem Registry.Sound.listed_ne {m' : Address} (hs : R.Sound) (hid : id ∈ R.masterSubAgentIds m)
    (hne : m' ≠ m) : id ∉ R.masterSubAgentIds m' := by
  intro hid'
  exact hne ((hs.listed m' id hid').2.symm.trans (hs.listed m id hid).2)

theorem Effect.granted_le {c : Call} (he : Effect ctx sender R c R') (hs : R.Sound)
    (hbounds : ∀ subWallet allowance perTxLimit expiresAt,
      c = .setSubAgentBounds subWallet allowance perTxLimit expiresAt → m ≠ sender) :
    R'.granted m ≤ R.granted m := by
  cases he with
  | registerIdentity => exact le_rfl
  | @addSubAgent subWallet id _ hnew =>
    -- the record was not listed anywhere, and counts for nothing where it is listed now
    have hfresh : ∀ k ∈ R.masterSubAgentIds m, k ≠ id := by
      rintro k hk rfl
      exact (hs.listed m k hk).1 hnew
    have hold : ((R.masterSubAgentIds m).map fun k => (update R.subAgentById id
        { subWallet, subAgentId := id, master := sender, status := .active,
          addedAt := ctx.now } k).share) =
        (R.masterSubAgentIds m).map fun k => (R.subAgentById k).share := by
      apply List.map_congr_left
      intro k hk
      rw [update_of_ne (hfresh k hk)]
    simp only [Registry.granted]
    rcases eq_or_ne m sender with rfl | hne
    · rw [update_self, List.map_append, hold, List.sum_append]
      simp [SubAgent.share]
    · rw [update_of_ne hne, hold]
  | @removeSubAgent _ id =>
    have hnone : (SubAgent.share { R.subAgentById id with
        status := .inactive, allowance := 0, perTxLimit := 0, expiresAt := 0,
        removedAt := ctx.now }) ≤ (R.subAgentById id).share := Nat.zero_le _
    exact granted_setSubAgent_le hnone
  | @setSubAgentBounds subWallet id allowance perTxLimit expiresAt hid =>
    have hne := hbounds subWallet allowance perTxLimit expiresAt rfl
    refine IdentityRegistry.granted_le rfl fun k hk => ?_
    have hother : k ≠ id := by
      rintro rfl
      exact hs.listed_ne (activeId_eq_some hid).1 hne hk
    simp [hother]

theorem post_exec_granted (hs : R.Sound) (hnow : 0 < ctx.now) (hzero : sender ≠ 0)
    (hsender : sender ≠ bilateral) (c : Call) :
    (exec bilateral ctx sender c).post (fun _ R' => R'.Sound ∧
      ∀ m, R.granted m ≤ ctx.freeBalance m → R'.granted m ≤ ctx.freeBalance m) R := by
  have heffect : (exec bilateral ctx sender c).post (fun _ R' => Effect ctx sender R c R') R :=
    wp_exec hsender c
  by_cases hbounds : ∃ subWallet allowance perTxLimit expiresAt,
      c = .setSubAgentBounds subWallet allowance perTxLimit expiresAt
  · obtain ⟨subWallet, allowance, perTxLimit, expiresAt, rfl⟩ := hbounds
    refine Tx.wp_both heffect post_setSubAgentBounds (fun _ _ _ => trivial)
      (fun _ _ _ => trivial) ?_
    intro _ R' he hsum
    refine ⟨he.sound hs hnow hzero, fun m hle => ?_⟩
    by_cases hm : m = sender
    · rw [hm]
      exact hsum
    · exact (he.granted_le hs fun _ _ _ _ _ => hm).trans hle
  · apply Tx.wp_mono heffect
    intro _ R' he
    refine ⟨he.sound hs hnow hzero, fun m hle => (he.granted_le hs ?_).trans hle⟩
    intro _ _ _ _ hc
    exact absurd ⟨_, _, _, _, hc⟩ hbounds

theorem post_consumeAuthorization {now amount : ℕ} (hs : R.Sound) :
    (consumeAuthorization bilateral now sender s amount).post
      (fun _ R' => R'.Sound ∧ ∀ m, R'.granted m ≤ R.granted m) R := by
  simp only [consumeAuthorization, Tx.post_code]
  refine fun _ => ⟨fun _ => ⟨hs, fun _ => le_rfl⟩, fun _ => ?_⟩
  cases R.activeId (R.subAgentMaster s) s with
  | none =>
    rw [Tx.wp_pure]
    exact ⟨hs, fun _ => le_rfl⟩
  | some id =>
    simp only [Tx.wp_code]
    refine ⟨fun _ => ⟨?_, fun m => granted_setSubAgent_le ?_⟩, fun _ => ⟨hs, fun _ => le_rfl⟩⟩
    · exact hs.rewrite rfl rfl (setSubAgent_revises ⟨rfl, rfl, rfl⟩)
    · unfold SubAgent.share
      split_ifs
      · exact Nat.sub_le _ _
      · exact le_rfl

end Karma.IdentityRegistry
