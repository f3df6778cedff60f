import Mathlib.Tactic.Linarith

/-! # Who sits on a panel

`assign_arbitrators` of `api/routes/arbitration.py` takes the first qualified members of the pool
that are not on the list of `conflicted_identity_ids`. -/

namespace Karma.Arbitration

variable {K : Type} [DecidableEq K]

/-- The tables that say who belongs to whom, each as pairs of an identity and its owner. -/
structure Owners (K : Type) where
  subIdentities : List (K × K)
  profiles : List (K × K)
  agents : List (K × K)

namespace Owners

variable (T : Owners K)

def conflictedIdentityIds (parties : List K) : List K :=
  let seeds := parties
  seeds ++ (T.subIdentities.filter (·.2 ∈ seeds)).map (·.1) ++
    (T.subIdentities.filter (·.1 ∈ seeds)).map (·.2) ++
    (T.profiles.filter (·.2 ∈ seeds)).map (·.1) ++ (T.profiles.filter (·.1 ∈ seeds)).map (·.2)

/-- One row says that the first belongs to the second. -/
def Owned (x y : K) : Prop := (x, y) ∈ T.subIdentities ++ T.profiles ++ T.agents

def Main (x m : K) : Prop := Relation.ReflTransGen T.Owned x m ∧ ∀ y, ¬ T.Owned m y

def Related (x y : K) : Prop := ∃ m, T.Main x m ∧ T.Main y m

end Owners

structure Member (K : Type) where
  arbitratorIdentityId : K
  active : Bool
  stakeAmount : ℚ

structure Assignment (K : Type) where
  minStake : ℚ
  multiple : ℚ
  caseValue : ℚ
  required : ℕ
  existing : List K
  count : ℕ

def epsilon : ℚ := 1 / 10 ^ 9

def stakeCoversCase (multiple stake caseValue : ℚ) : Bool :=
  if caseValue ≤ 0 then 0 < stake else caseValue * multiple + epsilon < stake

variable (T : Owners K) (c : Assignment K) (parties : List K) (pool : List (Member K))

def filterQualifiedMembers : List (Member K) :=
  pool.filter fun m =>
    m.arbitratorIdentityId ∉ c.existing &&
      m.arbitratorIdentityId ∉ T.conflictedIdentityIds parties && m.active &&
      0 < m.stakeAmount && c.minStake ≤ m.stakeAmount + epsilon &&
      stakeCoversCase c.multiple m.stakeAmount c.caseValue

def assignArbitrators : List K :=
  ((filterQualifiedMembers T c parties pool).take
    (min c.count (c.required - c.existing.length))).map (·.arbitratorIdentityId)

variable {T c parties pool}

theorem mem_conflictedIdentityIds {x : K} : x ∈ T.conflictedIdentityIds parties ↔
    x ∈ parties ∨ ∃ p ∈ parties, (x, p) ∈ T.subIdentities ++ T.profiles ∨
      (p, x) ∈ T.subIdentities ++ T.profiles := by
  simp only [Owners.conflictedIdentityIds, List.mem_append, List.mem_map, List.mem_filter,
    Prod.exists, decide_eq_true_eq]
  grind

theorem not_conflicted_of_assigned {x : K} (hx : x ∈ assignArbitrators T c parties pool) :
    x ∉ T.conflictedIdentityIds parties := by
  obtain ⟨m, hm, rfl⟩ := List.mem_map.mp hx
  have hq := (List.mem_filter.mp (List.mem_of_mem_take hm)).2
  simp only [Bool.and_eq_true, decide_eq_true_eq] at hq
  exact hq.1.1.1.1.2

theorem assigned_of_not_conflicted {x : K} (hx : x ∉ T.conflictedIdentityIds parties) :
    x ∈ assignArbitrators T ⟨0, 1, 0, 1, [], 1⟩ parties [⟨x, true, 1⟩] := by
  have hq : filterQualifiedMembers T ⟨0, 1, 0, 1, [], 1⟩ parties [⟨x, true, 1⟩] = [⟨x, true, 1⟩] :=
    List.filter_eq_self.mpr (by simp [hx, stakeCoversCase]; norm_num [epsilon])
  simp [assignArbitrators, hq]

/-- **Recusal and ownership.** Whatever the pool and the case, nobody is assigned who has a main
identity in common with a party, exactly if everybody who has is a party or one row of the
sub-identities or the profiles away from one. -/
theorem recusal_closed_iff (T : Owners K) (parties : List K) :
    (∀ (c : Assignment K) (pool : List (Member K)), ∀ x ∈ assignArbitrators T c parties pool,
      ∀ p ∈ parties, ¬ T.Related x p) ↔
    ∀ x, ∀ p ∈ parties, T.Related x p → x ∈ parties ∨ ∃ p' ∈ parties,
      (x, p') ∈ T.subIdentities ++ T.profiles ∨ (p', x) ∈ T.subIdentities ++ T.profiles := by
  constructor
  · intro h x p hp hrel
    rw [← mem_conflictedIdentityIds]
    by_contra hx
    exact h _ _ x (assigned_of_not_conflicted hx) p hp hrel
  · intro h c pool x hx p hp hrel
    exact not_conflicted_of_assigned hx (mem_conflictedIdentityIds.mpr (h x p hp hrel))

namespace Sample

def family : Owners ℕ := ⟨[(1, 0), (2, 0)], [], [(3, 0)]⟩

theorem main_family {x : ℕ} (hx : (x, 0) ∈ [(1, 0), (2, 0), (3, 0)]) : family.Main x 0 :=
  ⟨.single hx, fun y hy => by simp [Owners.Owned, family] at hy⟩

end Sample

open Sample

/-- A sub-identity judges the case of its sibling, and a main identity that of its own agent. -/
theorem sibling_assigned :
    (2 ∈ assignArbitrators family ⟨0, 1, 5, 1, [], 1⟩ [1] [⟨2, true, 10⟩] ∧ family.Related 2 1) ∧
    0 ∈ assignArbitrators family ⟨0, 1, 5, 1, [], 1⟩ [3] [⟨0, true, 10⟩] ∧ family.Related 0 3 :=
  ⟨⟨by decide +kernel, 0, main_family (by simp), main_family (by simp)⟩, by decide +kernel, 0,
    ⟨.refl, fun y hy => by simp [Owners.Owned, family] at hy⟩, main_family (by simp)⟩

end Karma.Arbitration
