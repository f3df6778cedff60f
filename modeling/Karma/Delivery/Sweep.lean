import Karma.Delivery.Session
import Mathlib.Algebra.Order.Ring.Nat

/-! # The sweep over the silent buyers -/

namespace Karma.Delivery

/-- The sessions by creation, each with what the comparison of its fields says. -/
abbrev Sessions : Type := List (Session × Bool)

def due (now : ℕ) (x : Session × Bool) : Bool := x.1.lapsed now

/-- `apply_silent_buyer_default`. -/
def applyDefault (now : ℕ) (x : Session × Bool) : Session × Bool := (x.1.sweep now x.2, x.2)

/-- The loop of `expire_silent_buyers`, with what is left of the limit. -/
def sweepUpTo (now : ℕ) : ℕ → Sessions → Sessions
  | _, [] => []
  | 0, xs => xs
  | n + 1, x :: xs =>
    applyDefault now x :: sweepUpTo now (if due now x then n else n + 1) xs

/-- `expire_silent_buyers`: only the first `limit * 2` sessions are looked at. -/
def expireSilentBuyers (now limit : ℕ) (xs : Sessions) : Sessions :=
  sweepUpTo now limit (xs.take (limit * 2)) ++ xs.drop (limit * 2)

variable {now n limit : ℕ} {xs : Sessions} {x : Session × Bool}

@[simp] theorem due_applyDefault : due now (applyDefault now x) = false := by
  unfold due applyDefault Session.sweep
  split_ifs with hlapsed
  · unfold Session.tryVerify Session.judged
    grind [Session.lapsed, Session.coverFields]
  · simpa using hlapsed

@[simp] theorem length_sweepUpTo : (sweepUpTo now n xs).length = xs.length := by
  induction xs generalizing n with
  | nil => cases n <;> rfl
  | cons x xs ih =>
    cases n with
    | zero => rfl
    | succ n => simp [sweepUpTo, ih]

/-- A session is reached while the limit lasts. -/
theorem getElem?_sweepUpTo (i : ℕ) : (sweepUpTo now n xs)[i]? =
    xs[i]?.map fun x => if (xs.take i).countP (due now) < n then applyDefault now x else x := by
  induction xs generalizing n i with
  | nil => cases n <;> simp [sweepUpTo]
  | cons x xs ih =>
    cases n with
    | zero => simp [sweepUpTo]
    | succ n =>
      cases i with
      | zero => simp [sweepUpTo]
      | succ i =>
        rw [sweepUpTo, List.getElem?_cons_succ, ih, List.getElem?_cons_succ, List.take_succ_cons,
          List.countP_cons]
        cases due now x <;> simp

/-- A round takes the limit off what is due. -/
theorem countP_sweepUpTo : (sweepUpTo now n xs).countP (due now) = xs.countP (due now) - n := by
  induction xs generalizing n with
  | nil => cases n <;> simp [sweepUpTo]
  | cons x xs ih =>
    cases n with
    | zero => simp [sweepUpTo]
    | succ n =>
      rw [sweepUpTo, List.countP_cons, ih, due_applyDefault, List.countP_cons]
      cases due now x <;> simp

theorem iterate_expire (k : ℕ) : (expireSilentBuyers now limit)^[k] xs =
    (sweepUpTo now limit)^[k] (xs.take (limit * 2)) ++ xs.drop (limit * 2) := by
  induction k with
  | zero => simp
  | succ k ih =>
    have hlen : ∀ ys : Sessions, ((sweepUpTo now limit)^[k] ys).length = ys.length := by
      intro ys
      exact Function.Iterate.rec (fun zs : Sessions => zs.length = ys.length) rfl
        (fun zs hzs => length_sweepUpTo.trans hzs) k
    rw [Function.iterate_succ_apply', ih, Function.iterate_succ_apply', expireSilentBuyers]
    rcases le_total (limit * 2) xs.length with hle | hle
    · have hl : ((sweepUpTo now limit)^[k] (xs.take (limit * 2))).length = limit * 2 := by
        rw [hlen, List.length_take, min_eq_left hle]
      rw [List.take_left' hl, List.drop_left' hl]
    · rw [List.drop_eq_nil_of_le hle, List.append_nil, List.take_of_length_le,
        List.drop_eq_nil_of_le]
      all_goals simp [hlen]

theorem countP_iterate (now n : ℕ) (xs : Sessions) (k : ℕ) :
    ((sweepUpTo now n)^[k] xs).countP (due now) = xs.countP (due now) - k * n := by
  induction k with
  | zero => simp
  | succ k ih => rw [Function.iterate_succ_apply', countP_sweepUpTo, ih, Nat.succ_mul, Nat.sub_sub]

/-- **The sweep reaches the due sessions among the first `limit * 2`**, and that of the gate the
first 50 due ones among the first 100. -/
theorem silent_sweep_iff (now limit : ℕ) (hlimit : 0 < limit) (xs : Sessions) :
    ((∀ k ≥ xs.length, ∀ x ∈ (expireSilentBuyers now limit)^[k] xs, due now x = false) ↔
      ∀ x ∈ xs.drop (limit * 2), due now x = false) ∧
    ∀ i x, xs[i]? = some x → due now x →
      ((expireSilentBuyers now 50 xs)[i]? = some (applyDefault now x) ↔
        i < 100 ∧ (xs.take i).countP (due now) < 50) := by
  refine ⟨⟨fun h x hx => ?_, fun h k hk x hx => ?_⟩, fun i x hi hx => ?_⟩
  · refine h _ le_rfl x ?_
    rw [iterate_expire]
    exact List.mem_append_right _ hx
  · rw [iterate_expire] at hx
    rcases List.mem_append.mp hx with hx | hx
    · have hcount := countP_iterate now limit (xs.take (limit * 2)) k
      have hle : (xs.take (limit * 2)).countP (due now) ≤ k * limit :=
        calc (xs.take (limit * 2)).countP (due now)
          _ ≤ (xs.take (limit * 2)).length := List.countP_le_length
          _ ≤ k := (List.length_take_le' _ _).trans hk
          _ ≤ k * limit := Nat.le_mul_of_pos_right k hlimit
      rw [Nat.sub_eq_zero_of_le hle] at hcount
      simpa using List.countP_eq_zero.mp hcount x hx
    · exact h x hx
  · have hchanged : x ≠ applyDefault now x := fun heq => by
      rw [heq, due_applyDefault] at hx
      cases hx
    rw [expireSilentBuyers]
    rcases lt_or_ge i 100 with hlt | hge
    · have hlen : i < (sweepUpTo now 50 (xs.take (50 * 2))).length := by
        rw [length_sweepUpTo, List.length_take]
        exact lt_min hlt (List.getElem?_eq_some_iff.mp hi).1
      rw [List.getElem?_append_left hlen, getElem?_sweepUpTo, List.getElem?_take_of_lt hlt, hi,
        List.take_take, min_eq_left hlt.le, Option.map_some, Option.some.injEq]
      split_ifs with hcount
      · exact ⟨fun _ => ⟨hlt, hcount⟩, fun _ => rfl⟩
      · exact ⟨fun heq => absurd heq hchanged, fun h => absurd h.2 hcount⟩
    · have hlen : (sweepUpTo now 50 (xs.take (50 * 2))).length = 100 := by
        rw [length_sweepUpTo, List.length_take]
        exact min_eq_left (hge.trans (List.getElem?_eq_some_iff.mp hi).1.le)
      rw [List.getElem?_append_right (hlen.trans_le hge), hlen, List.getElem?_drop,
        Nat.add_sub_cancel' hge, hi, Option.some.injEq]
      exact ⟨fun heq => absurd heq hchanged, fun h => absurd h.1 (not_lt.mpr hge)⟩

namespace Sample

def lapsing : Session × Bool :=
  ({ sessionAfter (delivered "delivery_photo_tagged") with deadline := some 100 }, true)

end Sample

open Sample

theorem silent_sweep_sample :
    (expireSilentBuyers 200 50 [lapsing])[0]? = some (applyDefault 200 lapsing) :=
  ((silent_sweep_iff 200 50 (by decide) [lapsing]).2 0 lapsing rfl (by decide +kernel)).mpr
    ⟨by decide, by decide⟩

/-- **Finished sessions crowd out a due one**: behind two of them, a limit of one never meets it. -/
theorem sweep_starved : ¬ ∃ k, ∀ x ∈ (expireSilentBuyers 200 1)^[k]
    [applyDefault 200 lapsing, applyDefault 200 lapsing, lapsing], due 200 x = false := by
  rintro ⟨k, hk⟩
  rw [iterate_expire] at hk
  have hnot := hk lapsing (List.mem_append_right _ (by simp))
  exact absurd hnot (by decide +kernel)

end Karma.Delivery
