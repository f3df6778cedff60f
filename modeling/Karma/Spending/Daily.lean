import Karma.Spending.Grant
import Mathlib.Data.Rat.BigOperators

/-! # The daily limit of a runtime key

`services/runtime_daily_spend.py` with persistence on, for one key. Every statement works on the row
of the day that its call has taken from the clock; the row is locked until the transaction ends, so
what is committed is one statement after another. -/

namespace Karma.Spending

open Evm Function

section

variable {Day : Type}

/-- The rows by day, and the reservations that have not been released, each with its day. -/
structure Daily (Day : Type) where
  used : Day → Option ℚ
  reserved : List (Day × ℚ)

inductive Daily.Act (Day : Type)
  | reserve (day : Day) (amount : ℚ)
  | record (day : Day) (amount : ℚ)
  | release (r : Day × ℚ) (today : Day)

/-- `try_reserve_daily_spend` on the row of the day: the `UPDATE`, or the `INSERT`. -/
def tryReserveDailySpend (limit : ℚ) (row : Option ℚ) (amount : ℚ) : Option ℚ :=
  match row with
  | some used => if used + amount ≤ limit + eps then some (used + amount) else none
  | none => if limit + eps < amount then none else some amount

/-- `_add_amount`. -/
def addAmount (row : Option ℚ) (amount : ℚ) : ℚ := row.elim amount (· + amount)

/-- `release_daily_spend`. -/
def releaseDailySpend (row : Option ℚ) (amount : ℚ) : Option ℚ :=
  row.map fun used => if 0 < amount ∧ amount - eps ≤ used then used - amount else used

/-- What is reserved for the day `d` and not released. -/
def outstanding [DecidableEq Day] (l : List (Day × ℚ)) (d : Day) : ℚ :=
  (l.map fun r => if r.1 = d then r.2 else 0).sum

end

variable {Day : Type} [DecidableEq Day] {limit : ℚ≥0}

/-- The amounts of the routes are positive. -/
def Daily.step (limit : ℚ≥0) (s : Daily Day) : Daily.Act Day → Option (Daily Day)
  | .reserve day amount =>
    if 0 < amount then
      (tryReserveDailySpend limit (s.used day) amount).map fun used =>
        ⟨update s.used day (some used), (day, amount) :: s.reserved⟩
    else none
  | .record day amount =>
    if 0 < amount then
      some { s with used := update s.used day (some (addAmount (s.used day) amount)) }
    else none
  | .release r today =>
    if r ∈ s.reserved then
      some ⟨update s.used today (releaseDailySpend (s.used today) r.2), s.reserved.erase r⟩
    else none

def Daily.start : Daily Day := ⟨fun _ => none, []⟩

/-- A release takes nothing off the row of another day. -/
def Daily.OwnDay (e : Entry (Daily Day) (Daily.Act Day)) : Prop :=
  match e.act with
  | .release r today => today = r.1 ∨ ∀ used ∈ e.pre.used today, used < r.2 - eps
  | _ => True

theorem outstanding_erase {l : List (Day × ℚ)} {r : Day × ℚ} (h : r ∈ l) (d : Day) :
    outstanding l d = (if r.1 = d then r.2 else 0) + outstanding (l.erase r) d := by
  rw [outstanding, ((List.perm_cons_erase h).map _).sum_eq, List.map_cons, List.sum_cons]
  rfl

theorem tryReserve_some {row : Option ℚ} {amount used : ℚ}
    (h : tryReserveDailySpend limit row amount = some used) :
    used = row.getD 0 + amount ∧ used ≤ limit + eps := by
  cases row with
  | none =>
    simp only [tryReserveDailySpend] at h
    split_ifs at h with hlimit
    cases h
    exact ⟨(zero_add _).symm, not_lt.mp hlimit⟩
  | some u =>
    obtain ⟨hlimit, rfl⟩ := guarded_iff.mp h
    exact ⟨rfl, hlimit⟩

/-- What is outstanding is positive, within the limit, and counted in the row. -/
structure Daily.Sound (limit : ℚ≥0) (s : Daily Day) : Prop where
  pos : ∀ r ∈ s.reserved, 0 < r.2
  counted : ∀ d, outstanding s.reserved d ≤ (s.used d).getD 0
  limited : ∀ d, outstanding s.reserved d ≤ limit + eps

theorem le_releaseDailySpend (row : Option ℚ) {amount : ℚ} (h : 0 ≤ amount) :
    row.getD 0 - amount ≤ (releaseDailySpend row amount).getD 0 := by
  cases row with
  | none => simpa [releaseDailySpend] using h
  | some used =>
    simp only [releaseDailySpend, Option.map_some, Option.getD_some]
    split
    · exact le_rfl
    · linarith

theorem releaseDailySpend_eq {row : Option ℚ} {amount : ℚ} (h : ∀ used ∈ row, used < amount - eps) :
    releaseDailySpend row amount = row := by
  cases row with
  | none => rfl
  | some used =>
    have hlt := h used rfl
    simp only [releaseDailySpend, Option.map_some, if_neg fun hif : _ ∧ _ => not_le.mpr hlt hif.2]

theorem Daily.Sound.step {s s' : Daily Day} {a : Daily.Act Day} (hs : s.Sound limit)
    (h : s.step limit a = some s') (hown : Daily.OwnDay ⟨s, a, s'⟩) : s'.Sound limit := by
  cases a with
  | reserve day amount =>
    simp only [Daily.step, Option.ite_none_right_eq_some, Option.map_eq_some_iff] at h
    obtain ⟨hpos, used, hused, rfl⟩ := h
    obtain ⟨rfl, hlimit⟩ := tryReserve_some hused
    have hnew : ∀ d, outstanding ((day, amount) :: s.reserved) d =
        (if day = d then amount else 0) + outstanding s.reserved d := fun d => List.sum_cons
    refine ⟨List.forall_mem_cons.mpr ⟨hpos, hs.pos⟩, fun d => ?_, fun d => ?_⟩
    · rcases eq_or_ne d day with rfl | hne
      · have := hs.counted d
        simp only [hnew, if_true, update_self, Option.getD_some]
        linarith
      · simpa [hnew, hne, hne.symm] using hs.counted d
    · rcases eq_or_ne d day with rfl | hne
      · have := hs.counted d
        rw [hnew, if_pos rfl]
        linarith
      · simpa [hnew, hne.symm] using hs.limited d
  | record day amount =>
    obtain ⟨hpos, rfl⟩ := guarded_iff.mp h
    refine ⟨hs.pos, fun d => (hs.counted d).trans ?_, hs.limited⟩
    rcases eq_or_ne d day with rfl | hne
    · cases s.used d <;> simp [addAmount, hpos.le]
    · simp [hne]
  | release r today =>
    obtain ⟨hr, rfl⟩ := guarded_iff.mp h
    have hpos := hs.pos r hr
    have hle : ∀ d, outstanding (s.reserved.erase r) d ≤ outstanding s.reserved d := fun d => by
      rw [outstanding_erase hr d]
      split <;> linarith
    refine ⟨fun r' hr' => hs.pos r' (List.mem_of_mem_erase hr'), fun d => ?_,
      fun d => (hle d).trans (hs.limited d)⟩
    dsimp only
    rcases hown with rfl | hfew
    · rcases eq_or_ne d r.1 with rfl | hne
      · rw [update_self]
        refine le_trans ?_ (le_releaseDailySpend _ hpos.le)
        have hout := outstanding_erase hr r.1
        rw [if_pos rfl] at hout
        have := hs.counted r.1
        linarith
      · rw [update_of_ne hne]
        exact (hle d).trans (hs.counted d)
    · rw [releaseDailySpend_eq hfew, update_eq_self]
      exact (hle d).trans (hs.counted d)

/-- **The daily limit holds on every day as long as nothing is released on the row of another
day.** -/
theorem daily_limit_kept {h : List (Entry (Daily Day) (Daily.Act Day))} {s : Daily Day}
    (hr : Run (· = Daily.start) (Daily.step limit) h s) (hown : ∀ e ∈ h, Daily.OwnDay e) :
    Throughout (fun _ s => ∀ d, outstanding s.reserved d ≤ limit + eps) h s ∧
      ∀ e ∈ h, ∀ r today, e.act = .release r today → ∀ d ≠ r.1, e.post.used d = e.pre.used d := by
  constructor
  · refine hr.throughout_of (J := Daily.Sound limit) ?_ (fun _ _ _ hs h => hs.step h)
      (fun _ hs => hs.limited) hown
    rintro _ rfl
    refine ⟨by simp [Daily.start], fun d => le_rfl, fun d => ?_⟩
    exact add_nonneg limit.2 (by norm_num [eps])
  · rintro ⟨pre, a, post⟩ he r today rfl d hd
    obtain ⟨-, -, hstep⟩ := hr.of_mem he
    obtain ⟨-, hpost⟩ := guarded_iff.mp hstep
    dsimp only at hpost
    rw [← hpost]
    dsimp only
    rcases hown _ he with rfl | hfew
    · rw [update_of_ne hd]
    · rw [releaseDailySpend_eq hfew, update_eq_self]

namespace Sample

def dailyAfter (as : List (Daily.Act ℕ)) : Daily ℕ := stateAfter (Daily.step 10) as Daily.start

def dailyHistory (as : List (Daily.Act ℕ)) : List (Entry (Daily ℕ) (Daily.Act ℕ)) :=
  record (Daily.step 10) as Daily.start []

def inTime : List (Daily.Act ℕ) := [.reserve 1 7, .release (1, 7) 1, .reserve 1 10, .record 1 3]

/-- The reservation of the first day is released on the second one. -/
def overnight : List (Daily.Act ℕ) :=
  [.reserve 1 10, .reserve 2 10, .release (1, 10) 2, .reserve 2 10]

end Sample

open Spending.Sample

theorem in_time_limited : outstanding (dailyAfter inTime).reserved 1 ≤ 10 + eps := by
  have hown : ∀ e ∈ dailyHistory inTime, Daily.OwnDay e := by
    refine record_forall (by simp) ?_
    rintro a ha s s'
    simp only [inTime, List.mem_cons, List.not_mem_nil, or_false] at ha
    rcases ha with rfl | rfl | rfl | rfl <;> first | trivial | exact .inl rfl
  exact (daily_limit_kept (.stateAfter (.start rfl)) hown).1.last 1

theorem released_overnight :
    Run (· = Daily.start) (Daily.step 10) (dailyHistory overnight) (dailyAfter overnight) ∧
      ¬ outstanding (dailyAfter overnight).reserved 2 ≤ 10 + eps :=
  ⟨.stateAfter (.start rfl), by decide +kernel⟩

end Karma.Spending
