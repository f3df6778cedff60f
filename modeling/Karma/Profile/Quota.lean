import Karma.Arith.Round
import Karma.Evm.Run

/-! # `profile_capacity` — the quota of the profiles of an identity

Every update is guarded: an allocation by the five columns that it has read, a spend by the
available credits, a release by the credits in progress. -/

namespace Karma.Profile

open Evm Arith Function

/-- `ProfileCapacityModel`. -/
structure Row where
  allocated : ℚ := 0
  available : ℚ := 0
  inProgress : ℚ := 0
  pendingSettlement : ℚ := 0
  disputed : ℚ := 0
  released : ℚ := 0
  deriving DecidableEq

/-- The `1e-9` that every comparison forgives. -/
def slack : ℚ := 1 / 10 ^ 9

namespace Row

def inUse (r : Row) : ℚ := r.inProgress + r.pendingSettlement + r.disputed

def allocate (r : Row) (amount : ℚ) : Option Row :=
  if amount < 0 ∨ amount + slack < r.inUse then none
  else some { r with allocated := amount, available := amount - r.inUse }

def spend (r : Row) (amount : ℚ) : Option Row :=
  if r.available + slack < amount then none
  else some { r with
    available := r.available - amount
    inProgress := r.inProgress + amount }

def parts (r : Row) (settled refunded : ℚ) : ℚ × ℚ × ℚ :=
  let settled := max 0 settled
  let refunded := max 0 refunded
  let total := settled + refunded
  if r.inProgress + slack < total then
    if r.inProgress ≤ 0 then (0, 0, 0)
    else
      let scale := r.inProgress / total
      (r.inProgress, roundTo 8 (settled * scale), roundTo 8 (refunded * scale))
  else (total, settled, refunded)

def release (r : Row) (settled refunded : ℚ) : Row :=
  let (total, settled, refunded) := r.parts settled refunded
  { r with
    inProgress := r.inProgress - total
    released := r.released + settled
    available := if 0 < refunded then r.available + refunded else r.available }

end Row

inductive Act
  | allocate (amount : ℚ)
  | spend (amount : ℚ)
  | release (settled refunded : ℚ)

def Row.step (r : Row) : Act → Option Row
  | .allocate amount => r.allocate amount
  | .spend amount => r.spend amount
  | .release settled refunded => some (r.release settled refunded)

/-! ## Spent quota -/

structure Row.Balanced (r : Row) : Prop where
  balance : r.allocated = r.available + r.inUse + r.released
  available : 0 ≤ r.available
  inProgress : 0 ≤ r.inProgress
  pendingSettlement : 0 ≤ r.pendingSettlement
  disputed : 0 ≤ r.disputed
  released : 0 ≤ r.released

/-- What keeps the balance: no allocation once anything was settled, nothing taken beyond what is
there to the last digit, and a release whose parts still are the whole after rounding. -/
def Keeps (r : Row) : Act → Prop
  | .allocate amount => r.released = 0 ∧ r.inUse ≤ amount
  | .spend amount => -r.inProgress ≤ amount ∧ amount ≤ r.available
  | .release settled refunded =>
    let p := r.parts settled refunded
    p.1 ≤ r.inProgress ∧ p.1 = p.2.1 + p.2.2

variable {r r' : Row} {a : Act}

theorem Row.parts_nonneg (settled refunded : ℚ) :
    0 ≤ (r.parts settled refunded).2.1 ∧ 0 ≤ (r.parts settled refunded).2.2 := by
  have hs := le_max_left 0 settled
  have hf := le_max_left 0 refunded
  unfold parts
  dsimp only
  split_ifs with hover hempty
  · exact ⟨le_rfl, le_rfl⟩
  · have hscale : 0 ≤ r.inProgress / (max 0 settled + max 0 refunded) :=
      div_nonneg (not_le.mp hempty).le (add_nonneg hs hf)
    exact ⟨roundTo_nonneg 8 (mul_nonneg hs hscale), roundTo_nonneg 8 (mul_nonneg hf hscale)⟩
  · exact ⟨hs, hf⟩

theorem Row.release_eq (settled refunded : ℚ) : r.release settled refunded =
    let p := r.parts settled refunded
    { r with
      inProgress := r.inProgress - p.1
      released := r.released + p.2.1
      available := r.available + p.2.2 } := by
  have hf := (r.parts_nonneg settled refunded).2
  simp only [release]
  split_ifs with hpos
  · rfl
  · rw [le_antisymm (not_lt.mp hpos) hf, add_zero]

theorem Row.Balanced.step_iff (hb : r.Balanced) (h : r.step a = some r') :
    r'.Balanced ↔ Keeps r a := by
  obtain ⟨hbal, hav, hin, hpe, hdi, hre⟩ := hb
  cases a with
  | allocate amount =>
    simp only [step, allocate, Option.ite_none_left_eq_some, Option.some.injEq] at h
    obtain ⟨-, rfl⟩ := h
    refine ⟨fun h => ⟨?_, ?_⟩, fun ⟨h0, hle⟩ => ⟨?_, ?_, hin, hpe, hdi, hre⟩⟩
    · have := h.balance
      simp only [inUse] at this
      linarith
    · have := h.available
      simp only at this
      linarith
    · simp only [inUse, h0]
      ring
    · simp only
      linarith
  | spend amount =>
    simp only [step, spend, Option.ite_none_left_eq_some, Option.some.injEq] at h
    obtain ⟨-, rfl⟩ := h
    refine ⟨fun h => ⟨?_, sub_nonneg.mp h.available⟩, fun ⟨hge, hle⟩ =>
      ⟨?_, sub_nonneg.mpr hle, neg_le_iff_add_nonneg'.mp hge, hpe, hdi, hre⟩⟩
    · exact neg_le_iff_add_nonneg'.mpr h.inProgress
    · simp only [inUse] at hbal ⊢
      linarith
  | release settled refunded =>
    simp only [step, release_eq, Option.some.injEq] at h
    subst h
    have hs := (r.parts_nonneg settled refunded).1
    have hf := (r.parts_nonneg settled refunded).2
    refine ⟨fun h => ⟨?_, ?_⟩, fun ⟨hle, hsum⟩ => ⟨?_, ?_, ?_, hpe, hdi, ?_⟩⟩
    · have := h.inProgress
      simp only at this
      linarith
    · have := h.balance
      simp only [inUse] at this hbal
      linarith
    · simp only [inUse] at hbal ⊢
      linarith
    · exact add_nonneg hav hf
    · exact sub_nonneg.mpr hle
    · exact add_nonneg hre hs

theorem Row.init_balanced : Row.Balanced {} := by
  constructor <;> simp [Row.inUse]

theorem Row.Balanced.allocate_same (hb : r.Balanced) (h : r.step (.allocate r.allocated) = some r')
    (hk : Keeps r (.allocate r.allocated)) : r' = r := by
  simp only [step, allocate, Option.ite_none_left_eq_some, Option.some.injEq] at h
  obtain ⟨-, rfl⟩ := h
  have hbal := hb.balance
  rw [hk.1] at hbal
  have hsame : r.allocated - r.inUse = r.available := by linarith
  rw [hsame]

/-- **Spent quota stays spent**: every committed row is in balance, and an allocation that is
submitted again changes nothing, if and only if every step does what keeps the balance. -/
theorem spent_stays_spent_iff {h : List (Entry Row Act)} (hr : Run (· = {}) Row.step h r) :
    (Throughout (fun _ r => r.Balanced) h r ∧
      ∀ e ∈ h, e.act = .allocate e.pre.allocated → e.post = e.pre) ↔
      ∀ e ∈ h, Keeps e.pre e.act := by
  have hiff : Throughout (fun _ r => r.Balanced) h r ↔ ∀ e ∈ h, Keeps e.pre e.act :=
    hr.throughout_iff_sound (J := Row.Balanced) (by rintro _ rfl; exact Row.init_balanced)
      (fun _ _ _ hb hs => (hb.step_iff hs).mpr) (fun _ hb => hb)
      (fun _ _ _ hb hs => (hb.step_iff hs).mp)
  refine ⟨fun h => hiff.mp h.1, fun hk => ⟨hiff.mpr hk, fun e he hsame => ?_⟩⟩
  have hb := (throughout_iff_pre.mp (hiff.mpr hk)).2 e he
  obtain ⟨-, -, hs⟩ := hr.of_mem he
  have hkeep := hk e he
  rw [hsame] at hs hkeep
  exact hb.allocate_same hs hkeep

namespace Sample

def again : List Act := [.allocate 10, .spend 10, .release 10 0, .allocate 10]

def rowAfter (as : List Act) : Row := stateAfter Row.step as {}

theorem again_unbalanced : ¬ (rowAfter again).Balanced :=
  fun hb => absurd hb.balance (by decide +kernel)

end Sample

open Sample

theorem again_not_kept : ¬ ∀ e ∈ record Row.step again {} [], Keeps e.pre e.act :=
  fun hk => again_unbalanced ((spent_stays_spent_iff (.stateAfter (.start rfl))).mpr hk).1.last

/-- Ten credits were allocated and spent for good, and ten are available. -/
theorem settled_quota_minted_back : ∃ h r, Run (· = {}) Row.step h r ∧
    r = ⟨10, 10, 0, 0, 0, 10⟩ ∧ ¬ r.Balanced :=
  ⟨_, _, .stateAfter (.start rfl), by decide +kernel, again_unbalanced⟩

/-! ## The ceiling -/

/-- What `ceiling_breakdown` reads. -/
structure Funds where
  totalLocked : Option ℚ
  commits : List (ℚ × Bool)

def Funds.ceiling (f : Funds) : ℚ :=
  let committed := roundTo 6 ((f.commits.filter (·.2)).map (·.1)).sum
  roundTo 6 (max (f.totalLocked.getD 0) committed)

variable {P : Type} [DecidableEq P] (mine : Finset P)

structure Request (P : Type) where
  funds : Funds
  allocations : List (P × ℚ)
  distinct : (allocations.map (·.1)).Nodup

/-- `allocate` for one profile of the request, which is one of the identity's. -/
def allocateOne (rows : P → Row) (item : P × ℚ) : Option (P → Row) :=
  if item.1 ∈ mine then ((rows item.1).allocate item.2).map (update rows item.1) else none

def allocate (rows : P → Row) (q : Request P) : Option (P → Row) :=
  if q.allocations.any (·.2 < 0) ∨ q.funds.ceiling ≤ 0 ∨
      q.funds.ceiling + slack < (q.allocations.map (·.2)).sum then none
  else q.allocations.foldlM (allocateOne mine) rows

variable {mine} {rows rows' : P → Row}

theorem foldlM_allocateOne {items : List (P × ℚ)} (hnodup : (items.map (·.1)).Nodup)
    (h : items.foldlM (allocateOne mine) rows = some rows') :
    ∑ p ∈ mine, (rows' p).allocated = (items.map (·.2)).sum +
      ∑ p ∈ mine with p ∉ items.map (·.1), (rows p).allocated := by
  induction items generalizing rows with
  | nil =>
    obtain rfl := Option.some.inj h
    simp
  | cons item items ih =>
    rw [List.foldlM_cons, Option.bind_eq_bind, Option.bind_eq_some_iff] at h
    obtain ⟨rows₁, hone, hrest⟩ := h
    rw [List.map_cons, List.nodup_cons] at hnodup
    simp only [allocateOne, Option.ite_none_right_eq_some, Option.map_eq_some_iff] at hone
    obtain ⟨hmine, r, hr, rfl⟩ := hone
    have hset : r.allocated = item.2 := by
      simp only [Row.allocate, Option.ite_none_left_eq_some, Option.some.injEq] at hr
      rw [← hr.2]
    -- The profile is not named again, so it is one of those that the rest leaves.
    have hmem : item.1 ∈ mine.filter fun p => p ∉ items.map (·.1) :=
      Finset.mem_filter.mpr ⟨hmine, hnodup.1⟩
    rw [ih hnodup.2 hrest, ← Finset.add_sum_erase _ _ hmem, update_self, hset,
      List.map_cons, List.sum_cons, List.map_cons]
    have hother : ∑ p ∈ (mine.filter fun p => p ∉ items.map (·.1)).erase item.1,
        (update rows item.1 r p).allocated =
        ∑ p ∈ mine with p ∉ item.1 :: items.map (·.1), (rows p).allocated := by
      refine Finset.sum_congr ?_ fun p hp => ?_
      · ext p
        simp only [Finset.mem_erase, Finset.mem_filter, List.mem_cons, not_or]
        tauto
      · rw [update_of_ne]
        rintro rfl
        simp at hp
    rw [hother]
    ring

/-- **The allocations stay within the ceiling** if and only if every request leaves room for the
profiles that it does not name. -/
theorem allocations_within_ceiling_iff {h : List (Entry (P → Row) (Request P))}
    (hr : Run (· = fun _ => {}) (allocate mine) h rows) :
    (∀ e ∈ h, ∑ p ∈ mine, (e.post p).allocated ≤ e.act.funds.ceiling) ↔
      ∀ e ∈ h, (e.act.allocations.map (·.2)).sum +
        ∑ p ∈ mine with p ∉ e.act.allocations.map (·.1), (e.pre p).allocated
          ≤ e.act.funds.ceiling := by
  refine forall₂_congr fun e he => ?_
  obtain ⟨-, -, hs⟩ := hr.of_mem he
  rw [allocate, Option.ite_none_left_eq_some] at hs
  rw [foldlM_allocateOne e.act.distinct hs.2]

namespace Sample

def request (p : Bool) : Request Bool := ⟨⟨some 10, []⟩, [(p, 10)], by simp⟩

def both : List (Request Bool) := [request true, request false]

theorem both_over : ∃ e ∈ record (allocate Finset.univ) both (fun _ => {}) [],
    e.act.funds.ceiling < ∑ p ∈ Finset.univ, (e.post p).allocated := by decide +kernel

end Sample

theorem both_leave_no_room : ¬ ∀ e ∈ record (allocate Finset.univ) both (fun _ => {}) [],
    (e.act.allocations.map (·.2)).sum +
      ∑ p ∈ Finset.univ with p ∉ e.act.allocations.map (·.1), (e.pre p).allocated
        ≤ e.act.funds.ceiling := by
  intro hroom
  obtain ⟨e, he, hover⟩ := both_over
  have hwithin := (allocations_within_ceiling_iff (.stateAfter (.start rfl))).mpr hroom
  exact (hwithin e he).not_gt hover

/-- Two requests, each within the ceiling of ten, allocate twenty. -/
theorem split_requests_exceed_ceiling : ∃ h rows, Run (· = fun _ => {})
    (allocate (Finset.univ : Finset Bool)) h rows ∧
    ∃ e ∈ h, e.act.funds.ceiling < ∑ p ∈ Finset.univ, (e.post p).allocated :=
  ⟨_, _, .stateAfter (.start rfl), both_over⟩

end Karma.Profile
