import Karma.Spending.Grant

/-! # `record_usage` — whose call it is

The table of charges has one row for each skill and request id (`uq_usage_charge_skill_request`), so
it is a function of the two. -/

namespace Karma.Usage

open Evm Function
open Spending (Text strip)

/-- The row that `charge_view` shows. -/
structure Receipt where
  payer : Text
  provider : Text
  units : ℕ
  unitPrice : ℕ
  amount : ℕ
  deriving DecidableEq

/-- The arguments of `record_usage`, with the price of the skill, and whether the meter of the payer
allows the amount. -/
structure Call where
  skill : Text
  payer : Text
  requestId : Text
  units : ℕ
  provider : Text
  unitPrice : ℕ
  allowed : Bool

abbrev Charges := Text × Text → Option Receipt

def normalizeRequestId (raw : Text) : Option Text :=
  if (strip raw).isEmpty ∨ 80 < (strip raw).length then none else some (strip raw)

def Call.key (c : Call) : Text × Text := (c.skill, strip c.requestId)

def Call.receipt (c : Call) : Receipt :=
  ⟨c.payer, strip c.provider, c.units, c.unitPrice, c.units * c.unitPrice⟩

def recordUsage (t : Charges) (c : Call) : Option (Receipt × Charges) := do
  let rid ← normalizeRequestId c.requestId
  guard (¬ (strip c.provider).isEmpty ∧ strip c.provider ≠ c.payer)
  match t (c.skill, rid) with
  | some existing => pure (existing, t)
  | none =>
    guard (0 < c.units ∧ c.units ≤ 1000000 ∧ c.allowed)
    pure (c.receipt, update t (c.skill, rid) (some c.receipt))

def Charges.step (t : Charges) (c : Call) : Option Charges := (recordUsage t c).map (·.2)

abbrev Charges.Reach : List (Entry Charges Call) → Charges → Prop := Run (· = fun _ => none) step

variable {t t' : Charges} {c : Call} {h : List (Entry Charges Call)}

def Own (e : Entry Charges Call) : Prop :=
  ∃ r, recordUsage e.pre e.act = some (r, e.post) ∧ r.payer = e.act.payer ∧
    e.post e.act.key = some r ∧
    (e.pre e.act.key = none → r = e.act.receipt) ∧ (e.pre e.act.key ≠ none → e.post = e.pre)

theorem recordUsage_cases {r : Receipt} (h : recordUsage t c = some (r, t')) :
    t c.key = some r ∧ t' = t ∨
      t c.key = none ∧ r = c.receipt ∧ t' = update t c.key (some c.receipt) := by
  simp only [recordUsage, normalizeRequestId, Option.bind_eq_bind] at h
  split at h
  · cases h
  simp only [Option.bind_some, Option.bind_eq_some_iff] at h
  obtain ⟨-, -, h⟩ := h
  change (match t c.key with | some _ => _ | none => _) = _ at h
  split at h
  next existing hfound =>
    obtain ⟨rfl, rfl⟩ := Prod.mk.inj (Option.some.inj h)
    exact .inl ⟨hfound, rfl⟩
  next hnone =>
    obtain ⟨-, -, h⟩ := Option.bind_eq_some_iff.mp h
    obtain ⟨rfl, rfl⟩ := Prod.mk.inj (Option.some.inj h)
    exact .inr ⟨hnone, rfl, rfl⟩

theorem Charges.step_cases (h : t.step c = some t') :
    t' = t ∧ (∃ r, t c.key = some r ∧ recordUsage t c = some (r, t)) ∨
      t c.key = none ∧ t' = update t c.key (some c.receipt) ∧
        recordUsage t c = some (c.receipt, t') := by
  obtain ⟨⟨r, _⟩, hrec, rfl⟩ := Option.map_eq_some_iff.mp h
  obtain ⟨hfound, rfl⟩ | ⟨hnone, rfl, rfl⟩ := recordUsage_cases hrec
  · exact .inl ⟨rfl, r, hfound, hrec⟩
  · exact .inr ⟨hnone, rfl, hrec⟩

theorem Charges.keeps (h : t.step c = some t') {k : Text × Text} {r : Receipt}
    (hk : t k = some r) : t' k = some r := by
  obtain ⟨rfl, -⟩ | ⟨hnone, rfl, -⟩ := step_cases h
  · exact hk
  · rw [update_of_ne, hk]
    rintro rfl
    simp [hnone] at hk

theorem Charges.caller (hr : Reach h t) {k : Text × Text} {r : Receipt} (hk : t k = some r) :
    ∃ e ∈ h, e.act.key = k ∧ e.act.payer = r.payer := by
  induction hr with
  | start hi => simp [hi] at hk
  | @next _ _ _ c _ hs ih =>
    obtain ⟨rfl, -⟩ | ⟨-, rfl, -⟩ := step_cases hs
    · obtain ⟨e, he, hek⟩ := ih hk
      exact ⟨e, .tail _ he, hek⟩
    · by_cases hkey : k = c.key
      · subst hkey
        rw [update_self] at hk
        obtain rfl := Option.some.inj hk
        exact ⟨_, .head _, rfl, rfl⟩
      · rw [update_of_ne hkey] at hk
        obtain ⟨e, he, hek⟩ := ih hk
        exact ⟨e, .tail _ he, hek⟩

theorem Charges.shown (hr : Reach h t) {e : Entry Charges Call} (he : e ∈ h) {r : Receipt}
    (hs : e.post e.act.key = some r) : t e.act.key = some r := by
  obtain ⟨later, before, rfl⟩ := List.append_of_mem he
  exact (hr.since (P := fun t => t e.act.key = some r) hs fun _ _ _ _ h hk => keeps h hk).1

/-- **Every accepted call is charged to its own payer, once,** if and only if no two payers use one
request id for one skill. -/
theorem charged_own_iff (hr : Charges.Reach h t) : (∀ e ∈ h, Own e) ↔
      ∀ e ∈ h, ∀ e' ∈ h, e.act.key = e'.act.key → e.act.payer = e'.act.payer := by
  constructor
  · intro hown e he e' he' hkey
    obtain ⟨r, -, hpayer, hpost, -⟩ := hown e he
    obtain ⟨r', -, hpayer', hpost', -⟩ := hown e' he'
    have hr₁ := Charges.shown hr he hpost
    rw [hkey, Charges.shown hr he' hpost'] at hr₁
    rw [← hpayer, ← hpayer', Option.some.inj hr₁]
  · intro hkeys e he
    obtain ⟨later, before, rfl⟩ := List.append_of_mem he
    obtain ⟨hpre, hs⟩ := hr.of_append
    obtain ⟨hpost, r, hfound, hrec⟩ | ⟨hnone, hpost, hrec⟩ := Charges.step_cases hs
    · -- The receipt that is found is of a call with this request id, so of this payer.
      obtain ⟨e', he', hkey, hpayer⟩ := Charges.caller hpre hfound
      have hsame := hkeys e he e' (by simp [he']) hkey.symm
      refine ⟨r, by rw [hpost, hrec], by rw [← hpayer, hsame], by rw [hpost, hfound], ?_, ?_⟩
      · simp [hfound]
      · exact fun _ => hpost
    · exact ⟨_, hrec, rfl, by rw [hpost, update_self], fun _ => rfl, fun h => absurd hnone h⟩

namespace Sample

def call (payer : Char) : Call := ⟨['s'], [payer], ['r'], 1, ['o'], 5, true⟩

def first : Charges := update (fun _ => none) (call 'a').key (some (call 'a').receipt)

theorem reach_first : Charges.Reach [⟨fun _ => none, call 'a', first⟩] first :=
  .next (.start rfl) rfl

theorem reach_second :
    Charges.Reach [⟨first, call 'b', first⟩, ⟨fun _ => none, call 'a', first⟩] first :=
  reach_first.next rfl

end Sample

open Sample

theorem first_own : Own ⟨fun _ => none, call 'a', first⟩ :=
  (charged_own_iff reach_first).mpr (by simp) _ (.head _)

/-- The second payer is shown the charge of the first, and pays nothing. -/
theorem shared_request_free : ∃ h t, Charges.Reach h t ∧ ∃ e ∈ h,
    recordUsage e.pre e.act = some ((call 'a').receipt, e.pre) ∧ e.act.payer = ['b'] ∧ ¬ Own e := by
  refine ⟨_, _, reach_second, _, .head _, rfl, rfl, ?_⟩
  rintro ⟨r, hrec, hpayer, -⟩
  cases hrec
  cases hpayer

end Karma.Usage
