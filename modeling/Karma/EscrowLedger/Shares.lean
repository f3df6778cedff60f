import Mathlib.Algebra.Order.BigOperators.Group.List
import Mathlib.Tactic.Linarith

/-! # `allocate_allowance` — one allowance for many bills

Amounts are micro-units, so that no rounding takes place; a live amount may be negative. -/

namespace Karma.EscrowLedger.Shares

variable {ι : Type} {bills : List (ι × ℤ)} {r r' : ℤ} {f : ι → ℤ}

/-- The loop of `allocate_allowance`. -/
def share : List (ι × ℤ) → ℤ → List (ι × ℤ)
  | [], _ => []
  | (billId, live) :: bills, remaining =>
    let take := min (max 0 live) remaining
    (billId, take) :: share bills (remaining - take)

/-- `allocate_allowance`; the bills have different numbers, so that the dictionary is this list. -/
def allocateAllowance (billsOldestFirst : List (ι × ℤ)) (allowance : ℤ) : List (ι × ℤ) :=
  share billsOldestFirst (max 0 allowance)

/-- The assignment that a list of shares stands for. -/
def Assigns (bills : List (ι × ℤ)) (f : ι → ℤ) (shares : List (ι × ℤ)) : Prop :=
  shares = bills.map fun b => (b.1, f b.1)

def positiveTotal (bills : List (ι × ℤ)) : ℤ := (bills.map fun b => max 0 b.2).sum

/-- **A split oldest first, without loss.** -/
structure Fair (bills : List (ι × ℤ)) (r : ℤ) (f : ι → ℤ) : Prop where
  nonneg : ∀ b ∈ bills, 0 ≤ f b.1
  le_live : ∀ b ∈ bills, f b.1 ≤ max 0 b.2
  total : (bills.map fun b => f b.1).sum = min r (positiveTotal bills)
  oldest : bills.Pairwise fun a b => 0 < f b.1 → f a.1 = max 0 a.2

theorem positiveTotal_nonneg (bills : List (ι × ℤ)) : 0 ≤ positiveTotal bills :=
  List.sum_nonneg (List.forall_mem_map.mpr fun _ _ => le_max_left _ _)

theorem fair_cons {b : ι × ℤ} (hr : 0 ≤ r) : Fair (b :: bills) r f ↔
      f b.1 = min (max 0 b.2) r ∧ Fair bills (r - min (max 0 b.2) r) f := by
  have hrest := positiveTotal_nonneg bills
  have htotal : positiveTotal (b :: bills) = max 0 b.2 + positiveTotal bills := by
    simp [positiveTotal]
  constructor
  · rintro ⟨hn, hl, ht, ho⟩
    rw [List.pairwise_cons] at ho
    simp only [List.forall_mem_cons] at hn hl
    rw [List.map_cons, List.sum_cons, htotal] at ht
    -- A bill that is not fully covered leaves nothing for those after it.
    have hfull : f b.1 = max 0 b.2 ∨ (bills.map fun b => f b.1).sum = 0 := by
      by_cases hb : f b.1 = max 0 b.2
      · exact .inl hb
      · refine .inr (List.sum_eq_zero fun x hx => ?_)
        obtain ⟨c, hc, rfl⟩ := List.mem_map.mp hx
        exact le_antisymm (not_lt.mp fun hpos => hb (ho.1 c hc hpos)) (hn.2 c hc)
    have hsum : 0 ≤ (bills.map fun b => f b.1).sum :=
      List.sum_nonneg (List.forall_mem_map.mpr hn.2)
    have hhead : f b.1 = min (max 0 b.2) r := by omega
    exact ⟨hhead, hn.2, hl.2, by omega, ho.2⟩
  · rintro ⟨hhead, hn, hl, ht, ho⟩
    have hshares : ∀ x ∈ bills.map fun b => f b.1, 0 ≤ x := List.forall_mem_map.mpr hn
    have hsum := List.sum_nonneg hshares
    refine ⟨?_, ?_, ?_, List.pairwise_cons.mpr ⟨fun c hc hpos => ?_, ho⟩⟩
    · simpa only [List.forall_mem_cons] using ⟨by omega, hn⟩
    · simpa only [List.forall_mem_cons] using ⟨by omega, hl⟩
    · rw [List.map_cons, List.sum_cons, htotal]
      omega
    · -- The share of a later bill comes out of what the first one leaves.
      have hle : f c.1 ≤ (bills.map fun b => f b.1).sum :=
        List.single_le_sum hshares _ (List.mem_map_of_mem hc)
      omega

theorem assigns_share_iff (hr : 0 ≤ r) : Assigns bills f (share bills r) ↔ Fair bills r f := by
  induction bills generalizing r with
  | nil => exact iff_of_true rfl ⟨by simp, by simp, by simp [positiveTotal, hr], .nil⟩
  | cons b bills ih =>
    rw [fair_cons hr, ← ih (by omega)]
    simp [Assigns, share, eq_comm]

theorem share_append (newer : List (ι × ℤ)) : share bills r <+: share (bills ++ newer) r := by
  induction bills generalizing r with
  | nil => exact List.nil_prefix
  | cons b bills ih => exact (List.prefix_cons_inj _).mpr ih

theorem share_mono (h : r ≤ r') :
    List.Forall₂ (fun x y => x.1 = y.1 ∧ x.2 ≤ y.2) (share bills r) (share bills r') := by
  induction bills generalizing r r' with
  | nil => exact .nil
  | cons b bills ih => exact .cons ⟨rfl, by dsimp only; omega⟩ (ih (by omega))

theorem exists_assigns (hids : (bills.map Prod.fst).Nodup) :
    ∃ f, Assigns bills f (share bills r) := by
  classical
  induction bills generalizing r with
  | nil => exact ⟨fun _ => 0, rfl⟩
  | cons b bills ih =>
    obtain ⟨hnew, hids⟩ := List.nodup_cons.mp hids
    obtain ⟨f, hf⟩ := @ih (r - min (max 0 b.2) r) hids
    refine ⟨Function.update f b.1 (min (max 0 b.2) r), ?_⟩
    rw [Assigns, share, hf, List.map_cons, Function.update_self]
    refine congrArg _ (List.map_congr_left fun c hc => ?_)
    have hne : c.1 ≠ b.1 := fun h => hnew (h ▸ List.mem_map_of_mem hc)
    rw [Function.update_of_ne hne]

/-- **Oldest first, without loss.** The shares are a fair split, the only one, and neither newer
bills nor a larger allowance lower the share of a bill. -/
theorem allowance_split_oldest_first (hids : (bills.map Prod.fst).Nodup) (a : ℤ) :
    (∃ f, Assigns bills f (allocateAllowance bills a) ∧ Fair bills (max 0 a) f) ∧
      (∀ f, Fair bills (max 0 a) f → Assigns bills f (allocateAllowance bills a)) ∧
      (∀ newer, allocateAllowance bills a <+: allocateAllowance (bills ++ newer) a) ∧
      ∀ a', a ≤ a' → List.Forall₂ (fun x y => x.1 = y.1 ∧ x.2 ≤ y.2) (allocateAllowance bills a)
        (allocateAllowance bills a') := by
  have hr : 0 ≤ max 0 a := le_max_left _ _
  obtain ⟨f, hf⟩ := exists_assigns (r := max 0 a) hids
  exact ⟨⟨f, hf, (assigns_share_iff hr).mp hf⟩, fun f => (assigns_share_iff hr).mpr,
    fun newer => share_append newer, fun a' h => share_mono (by omega)⟩

/-- An allowance of 5 for bills of 3, -1 and 4. -/
theorem five_for_three_bills : ∃ f, Assigns [(1, 3), (2, -1), (3, 4)] f [(1, 3), (2, 0), (3, 2)] ∧
      Fair [(1, 3), (2, -1), (3, 4)] 5 f :=
  (allowance_split_oldest_first (by decide) 5).1

end Karma.EscrowLedger.Shares
