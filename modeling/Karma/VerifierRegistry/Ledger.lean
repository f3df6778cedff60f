import Karma.VerifierRegistry.Code

/-! # `VerifierRegistry` — what its calls do to the token ledgers

The registry moves tokens only under its own name: it pulls stakes in and pays stakes, slashes and
rewards out. -/

namespace Karma.VerifierRegistry

open Evm

/-- Every account but the registry's still holds what it held beyond its approvals. -/
def Keeps (D : Deployment) (T T' : Address → Erc20 Address) : Prop :=
  ∀ a, a ≠ D.self → ∀ t n, (T t).Backs a n → (T' t).Backs a n

variable {D : Deployment} {w : World} {sender : Address} {I : World → Prop}

@[simp] theorem Keeps.refl (T : Address → Erc20 Address) : Keeps D T T := fun _ _ _ _ => id

theorem Keeps.run {T : Address → Erc20 Address} {T' : Erc20 Address} {token : Address}
    {c : Erc20.Call Address} (h : (T token).run D.self c = some T') :
    Keeps D T (Function.update T token T') := by
  intro a ha t n hb
  rcases eq_or_ne t token with rfl | hne
  · simpa using hb.run ha.symm h
  · simpa [hne] using hb

/-! ## The functions of the registry -/

section Rules

variable {E : Error → Prop}

@[simp] theorem wp_emit (e : Event) (Q : Unit → World → Prop) :
    (emit e).wp I E Q w ↔ Q () { w with events := w.events ++ [e] } := by
  simp [emit]

@[simp] theorem wp_write (f : Registry → Registry) (Q : Unit → World → Prop) :
    (write f).wp I E Q w ↔ Q () { w with toRegistry := f w.toRegistry } := by
  simp [write]

end Rules

abbrev Holds (D : Deployment) (T : Address → Erc20 Address) (_ : Unit) (v : World) : Prop :=
  Keeps D T v.tokens

variable {amount : ℕ}

theorem wp_transfer {target : Address} {Q : Unit → World → Prop}
    (hQ : ∀ v, Keeps D w.tokens v.tokens → Q () v) :
    (transfer D target amount).wp I (fun _ => True) Q w := by
  simp only [transfer, Tx.post_code]
  refine fun _ T hT => hQ _ ?_
  exact Keeps.run (c := .transfer target amount) hT

theorem wp_suspendUnderstaked {minStake : ℕ} {T : Address → Erc20 Address}
    (wallets : List Address) (h : Keeps D T w.tokens) :
    (suspendUnderstaked minStake wallets).wp I (fun _ => True) (Holds D T) w := by
  induction wallets generalizing w with
  | nil =>
    rw [suspendUnderstaked, Tx.wp_pure]
    exact h
  | cons wallet wallets ih =>
    simp only [suspendUnderstaked, updateVerifier, Tx.wp_code, wp_write, wp_emit]
    -- suspending one verifier moves no tokens
    exact ⟨fun _ => ih h, fun _ => ih h⟩

theorem wp_rewardVerifier {verifier : Address} :
    (rewardVerifier D sender verifier amount).wp I (fun _ => True) (Holds D w.tokens) w := by
  simp only [rewardVerifier, onlyAuthorizedCaller, requireVerifier, updateVerifier, Tx.post_code,
    wp_write, wp_emit]
  refine fun _ _ _ => ⟨fun _ _ => ⟨fun _ => ?_, fun _ => .refl _⟩, fun _ => .refl _⟩
  exact wp_transfer fun v hv => hv

theorem wp_stake :
    (stake D sender amount).wp I (fun _ => True) (Holds D w.tokens) w := by
  simp only [stake, requireVerifier, updateVerifier, Tx.post_code, wp_write, wp_emit]
  refine fun _ _ T hT _ => ⟨fun _ => ?_, fun _ => ?_⟩
  all_goals exact Keeps.run (c := .transferFrom sender D.self amount) hT

theorem wp_unstake :
    (unstake D sender amount).wp I (fun _ => True) (Holds D w.tokens) w := by
  simp only [unstake, requireVerifier, updateVerifier, Tx.post_code, wp_write]
  intro _ _ _
  refine wp_transfer fun v hv => ?_
  rw [wp_emit]
  exact hv

theorem wp_slash {engine : Option Unit} {verifier : Address} {reason : String} :
    (slash D engine sender verifier amount reason).wp I (fun _ => True) (Holds D w.tokens) w := by
  simp only [slash, onlyAdmin, requireVerifier, updateVerifier, Tx.post_code, wp_write]
  intro _ _ _
  -- after the transfer, if there is one, only storage and events change
  refine ⟨fun _ => wp_transfer fun v hv => ?_, fun _ => ?_⟩
  · simp only [wp_emit]
    exact ⟨fun _ => ⟨fun _ _ _ => hv, fun _ => hv⟩, fun _ => ⟨fun _ _ _ => hv, fun _ => hv⟩⟩
  · simp only [wp_emit, Holds, Keeps.refl, implies_true, and_self]

theorem wp_exec (c : Call) : (exec D sender c).wp I (fun _ => True) (Holds D w.tokens) w := by
  cases c with
  | rewardVerifier => exact wp_rewardVerifier
  | stake => exact wp_stake
  | unstake => exact wp_unstake
  | slash => exact wp_slash
  | setStakingConfig =>
    simp only [exec, setStakingConfig, onlyAdmin, Tx.post_code, wp_write, wp_emit]
    exact fun _ => wp_suspendUnderstaked _ (.refl _)
  | _ =>
    simp only [exec, setAuthorizedCaller, registerVerifier, removeVerifier, suspendVerifier,
      activateVerifier, setSlashRecipient, setScoringEngine, setRewardAllocator, setThresholds,
      recordAttestation, creditRewards, onlyAdmin, onlyAuthorizedCaller, onlyRewardAllocator,
      requireVerifier, updateVerifier, Tx.post_code, wp_write, wp_emit, Holds, Keeps.refl,
      implies_true, and_self]

theorem keeps_of_exec {c : Call} {w' : World} (h : (exec D sender c w).result = .ok ((), w')) :
    Keeps D w.tokens w'.tokens := by
  have hrun : (exec D sender c).wp (fun _ => True) (fun _ => True) (Holds D w.tokens) w := wp_exec c
  exact Tx.wp_ok hrun h

end Karma.VerifierRegistry
