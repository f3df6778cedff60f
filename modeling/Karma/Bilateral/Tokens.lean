import Karma.Bilateral.Payments

/-! # `KarmaBilateral` — bills and the table of tokens -/

namespace Karma.Bilateral

open Evm Function

variable {D : Deployment} {w w' : World}

/-- A call of `setTokenAllowed`. -/
structure Allowing where
  sender : Address
  token : Address
  allowed : Bool

def Allowing.step (D : Deployment) (w : World) (a : Allowing) : Option World :=
  (Outside.core a.sender (.setTokenAllowed a.token a.allowed)).attempt D w

theorem Allowing.sets {a : Allowing} (hs : a.step D w = some w') :
    Sets D a.sender (.setTokenAllowed a.token a.allowed) w w' := by
  rw [Allowing.step, Outside.attempt] at hs
  split_ifs at hs
  split at hs
  case h_1 u hr =>
    cases hs
    exact Tx.wp_ok (post_openCall _) hr
  case h_2 => cases hs

/-- The numbers up to the counter are all given, and the tokens allowed in `h` have one. -/
structure Config.Inverse (c : Config) (h : List (Entry World Allowing)) : Prop where
  listed : c.Listed
  given : ∀ k, k ≠ 0 → k.toNat ≤ c.tokenCounter.toNat → ∃ t, c.tokenIds t = k
  allowed : ∀ e ∈ h, e.act.allowed = true → c.tokenIds e.act.token ≠ 0

theorem Config.Inverse.next {h : List (Entry World Allowing)} {a : Allowing}
    (hi : w.toConfig.Inverse h) (hs : a.step D w = some w') :
    w'.toConfig.Inverse (⟨w, a, w'⟩ :: h) := by
  obtain ⟨e, -, -, hgrows, rfl⟩ := Allowing.sets hs
  have hlisted := hgrows.listed hi.listed
  have hcounter := hgrows.counter
  dsimp only [OpenCall.rewrite] at hlisted hcounter ⊢
  split_ifs at hlisted hcounter ⊢ with hnew
  · -- the next number goes to a token that had none
    dsimp only at hcounter
    have hne : w.tokenCounter + 1 ≠ 0 := by bv_omega
    refine ⟨hlisted, fun k hk hle => ?_, List.forall_mem_cons.mpr ⟨fun _ => ?_, fun e he ht => ?_⟩⟩
    · dsimp only at hle ⊢
      rcases eq_or_ne k (w.tokenCounter + 1) with rfl | hother
      · exact ⟨a.token, update_self ..⟩
      · obtain ⟨t, rfl⟩ := hi.given k hk (by bv_omega)
        exact ⟨t, update_of_ne (by rintro rfl; exact hk hnew.2) _ _⟩
    · simpa using hne
    · dsimp only
      rcases eq_or_ne e.act.token a.token with heq | hother
      · simpa [heq] using hne
      · rw [update_of_ne hother]
        exact hi.allowed e he ht
  · exact ⟨hlisted, hi.given,
      List.forall_mem_cons.mpr ⟨fun ht hzero => hnew ⟨ht, hzero⟩, hi.allowed⟩⟩

/-- **The packed bills are faithful**: what is packed is read back, a change of the state keeps the
rest, the table of tokens is one-to-one, and the token of a bill is that of the call that locked
it. -/
theorem packed_bills_faithful (D : Deployment) :
    (∀ owner tokenId state, billOwner (packBill owner tokenId state) = owner ∧
      billTokenId (packBill owner tokenId state) = tokenId ∧
      billState (packBill owner tokenId state) = some state) ∧
    (∀ b state, billOwner (setBillState b state) = billOwner b ∧
      billTokenId (setBillState b state) = billTokenId b) ∧
    (∀ h w, Run (Init D) (Allowing.step D) h w →
      (∀ e ∈ h, e.act.allowed = true → w.tokenIds e.act.token ≠ 0 ∧
        w.idToToken (w.tokenIds e.act.token) = e.act.token) ∧
      ∀ k, k ≠ 0 → k.toNat ≤ w.tokenCounter.toNat → w.tokenIds (w.idToToken k) = k) ∧
    ∀ h w, Reach D h w → ∀ i, billOwner (w.bills i) ≠ 0 → ∃ e ∈ h, ∃ sender env c amount,
      e.act = .call sender env c ∧ e.pre.billCounter + 1 = i ∧
      c.mints sender = some (billOwner (w.bills i), w.billToken (w.bills i), amount) := by
  refine ⟨by simp, by simp, fun h w hr => ?_, fun h w hr i hi => ?_⟩
  · have hi : w.toConfig.Inverse h := by
      refine hr.invariant (P := fun h w => w.toConfig.Inverse h) (fun w hw => ?_)
        fun _ _ _ _ _ hi hs => hi.next hs
      rw [hw.config]
      refine ⟨fun t ht => absurd rfl ht, fun k hk hle => ?_, by simp⟩
      exact absurd (BitVec.eq_of_toNat_eq (Nat.le_zero.mp hle)) hk
    refine ⟨fun e he ht => ⟨hi.allowed e he ht, (hi.listed _ (hi.allowed e he ht)).2⟩, ?_⟩
    intro k hk hle
    obtain ⟨t, rfl⟩ := hi.given k hk hle
    rw [(hi.listed t hk).2]
  · obtain ⟨e, he, sender, env, c, hact, hc, hcount, -⟩ := Reach.recorded hr i hi
    exact ⟨e, he, sender, env, c, _, hact, hcount, hc⟩

end Karma.Bilateral
