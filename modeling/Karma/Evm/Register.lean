import Mathlib.Algebra.BigOperators.Intervals
import Mathlib.Algebra.Order.BigOperators.Group.Finset

/-! # Totals over a numbered register

Contracts number the records they create `1, 2, …, n` and keep running totals of some weight of
theirs. -/

namespace Karma.Evm

open Function

variable {α : Type}

theorem forall_update_update {f : ℕ → α} {i j : ℕ} {x y : α} (p : ℕ → α → Prop) (hx : p i x)
    (hy : p j y) (h : ∀ k, p k (f k)) (k : ℕ) :
    p k (update (update f i x) j y k) := by
  refine (forall_update_iff _ p).mpr ⟨hy, fun k _ => ?_⟩ k
  exact (forall_update_iff f p).mpr ⟨hx, fun k _ => h k⟩ k

section Balances

variable {A : Type} [DecidableEq A]

def credit (f : A → ℕ) (a : A) (n : ℕ) : A → ℕ := update f a (f a + n)

def debit (f : A → ℕ) (a : A) (n : ℕ) : A → ℕ := update f a (f a - n)

variable {f : A → ℕ} {a c : A} {n m : ℕ}

theorem credit_apply (x : A) : credit f a n x = f x + if a = x then n else 0 := by
  rcases eq_or_ne a x with rfl | hne
  · simp [credit]
  · simp [credit, hne, hne.symm]

theorem debit_apply (h : n ≤ f a) (x : A) : debit f a n x + (if a = x then n else 0) = f x := by
  rcases eq_or_ne a x with rfl | hne
  · simp [debit, h]
  · simp [debit, hne, hne.symm]

theorem debit_of_ne {x : A} (h : x ≠ a) : debit f a n x = f x := update_of_ne h _ _

theorem debit_debit_self : debit (debit f a n) a m = debit f a (n + m) := by
  simp [debit, Nat.sub_sub]

theorem debit_debit_apply (hac : a ≠ c) (hn : n ≤ f a) (hm : m ≤ f c) (x : A) :
    debit (debit f a n) c m x + (if a = x then n else 0) + (if c = x then m else 0) = f x := by
  have hfst := debit_apply hn x
  have hsnd := debit_apply (f := debit f a n) (a := c) (n := m) (by rwa [debit_of_ne hac.symm]) x
  omega

end Balances

def total (n : ℕ) (g : ℕ → α → ℕ) (f : ℕ → α) : ℕ := ∑ i ∈ Finset.Icc 1 n, g i (f i)

@[simp] theorem total_zero (g : ℕ → α → ℕ) (f : ℕ → α) : total 0 g f = 0 := by
  simp [total]

theorem total_congr {n : ℕ} {g g' : ℕ → α → ℕ} {f f' : ℕ → α}
    (h : ∀ i, 1 ≤ i → i ≤ n → g i (f i) = g' i (f' i)) : total n g f = total n g' f' :=
  Finset.sum_congr rfl fun i hi => h i (Finset.mem_Icc.mp hi).1 (Finset.mem_Icc.mp hi).2

theorem total_update {n i : ℕ} (g : ℕ → α → ℕ) (f : ℕ → α) (h1 : 1 ≤ i) (hn : i ≤ n) (v : α) :
    total n g (update f i v) + g i (f i) = total n g f + g i v := by
  have hi : i ∈ Finset.Icc 1 n := Finset.mem_Icc.mpr ⟨h1, hn⟩
  have hrest : ∑ j ∈ (Finset.Icc 1 n).erase i, g j (update f i v j)
      = ∑ j ∈ (Finset.Icc 1 n).erase i, g j (f j) :=
    Finset.sum_congr rfl fun j hj => by
      rw [update_of_ne (Finset.ne_of_mem_erase hj)]
  rw [total, total, ← Finset.add_sum_erase _ _ hi, ← Finset.add_sum_erase _ _ hi, hrest,
    update_self]
  omega

theorem total_push {n : ℕ} (g : ℕ → α → ℕ) (f : ℕ → α) (v : α) :
    total (n + 1) g (update f (n + 1) v) = total n g f + g (n + 1) v := by
  have hold : total n g (update f (n + 1) v) = total n g f :=
    total_congr fun i _ hi => by rw [update_of_ne (by omega)]
  rw [← hold, total, total, Finset.sum_Icc_succ_top (by omega), update_self]

theorem total_add {n : ℕ} {g g' g'' : ℕ → α → ℕ} {f f' f'' : ℕ → α}
    (h : ∀ i, 1 ≤ i → i ≤ n → g i (f i) + g' i (f' i) = g'' i (f'' i)) :
    total n g f + total n g' f' = total n g'' f'' := by
  rw [total, total, ← Finset.sum_add_distrib]
  exact total_congr (g := fun i x => g i (f i) + g' i (f' i)) (f := f) h

theorem total_of_le {n n' : ℕ} {g : ℕ → α → ℕ} {f : ℕ → α} (h : n ≤ n')
    (hblank : ∀ i, n < i → g i (f i) = 0) : total n' g f = total n g f := by
  have hsub : Finset.Icc 1 n ⊆ Finset.Icc 1 n' := Finset.Icc_subset_Icc_right h
  refine (Finset.sum_subset hsub fun i hi hout => hblank i ?_).symm
  rw [Finset.mem_Icc] at hi hout
  omega

theorem le_total {n i : ℕ} (g : ℕ → α → ℕ) (f : ℕ → α) (h1 : 1 ≤ i) (hn : i ≤ n) :
    g i (f i) ≤ total n g f :=
  Finset.single_le_sum (f := fun i => g i (f i)) (fun _ _ => Nat.zero_le _)
    (Finset.mem_Icc.mpr ⟨h1, hn⟩)

theorem add_le_total {n i j : ℕ} (g : ℕ → α → ℕ) (f : ℕ → α) (hij : i ≠ j) (hi1 : 1 ≤ i)
    (hin : i ≤ n) (hj1 : 1 ≤ j) (hjn : j ≤ n) : g i (f i) + g j (f j) ≤ total n g f := by
  rw [total, ← Finset.add_sum_erase _ _ (Finset.mem_Icc.mpr ⟨hi1, hin⟩)]
  refine Nat.add_le_add_left ?_ _
  exact Finset.single_le_sum (f := fun i => g i (f i)) (fun _ _ => Nat.zero_le _)
    (Finset.mem_erase.mpr ⟨hij.symm, Finset.mem_Icc.mpr ⟨hj1, hjn⟩⟩)

end Karma.Evm
