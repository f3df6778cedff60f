import Mathlib.Data.Rat.Floor
import Mathlib.Tactic.Positivity

/-! # Rounding half to even

`halfEven` is the nearest integer, the even one of two that are equally near, and `roundTo d` rounds
to `d` decimal places with it. -/

namespace Karma.Arith

/-- **The nearest integer**, at a midpoint the even one. -/
def halfEven (y : ℚ) : ℤ :=
  let n : ℤ := ⌊y⌋
  let up := if y - n < 1 / 2 then false else if 1 / 2 < y - n then true else n % 2 != 0
  if up then n + 1 else n

def roundTo (d : ℕ) (x : ℚ) : ℚ := (halfEven (x * 10 ^ d) : ℚ) / 10 ^ d

def Nearest (y : ℚ) (n : ℤ) : Prop := |y - n| < 1 / 2 ∨ |y - n| = 1 / 2 ∧ Even n

variable {x y : ℚ} {m n : ℤ}

theorem nearest_halfEven (y : ℚ) : Nearest y (halfEven y) := by
  have hlow := Int.floor_le y
  have hhigh := Int.lt_floor_add_one y
  unfold Nearest halfEven
  dsimp only
  rcases lt_trichotomy (y - (⌊y⌋ : ℤ)) (1 / 2) with hlt | heq | hgt
  · rw [if_pos hlt, if_neg (by decide)]
    exact .inl (abs_lt.mpr ⟨by linarith, hlt⟩)
  · -- at the midpoint the parity of the lower integer decides
    rw [if_neg heq.not_lt, if_neg heq.symm.not_lt]
    by_cases heven : ⌊y⌋ % 2 = 0
    · rw [if_neg (by simp [heven])]
      exact .inr ⟨by rw [heq]; norm_num, Int.even_iff.mpr heven⟩
    · rw [if_pos (by simp [heven])]
      refine .inr ⟨?_, Int.even_iff.mpr (by omega)⟩
      have hdist : y - ((⌊y⌋ + 1 : ℤ) : ℚ) = -(1 / 2) := by
        push_cast
        linarith
      rw [hdist]
      norm_num
  · rw [if_neg hgt.not_gt, if_pos hgt, if_pos rfl]
    push_cast
    exact .inl (abs_lt.mpr ⟨by linarith, by linarith⟩)

theorem Nearest.unique (hm : Nearest y m) (hn : Nearest y n) : m = n := by
  have hdist : |(m : ℚ) - n| ≤ |y - n| + |y - m| := by
    have htri := abs_add_le (y - n) (-(y - m))
    rw [abs_neg] at htri
    calc |(m : ℚ) - n| = |y - n + -(y - m)| := by congr 1; ring
      _ ≤ |y - n| + |y - m| := htri
  have hcast : ((|m - n| : ℤ) : ℚ) = |(m : ℚ) - n| := by push_cast; rfl
  rcases hm with hm | ⟨hm, hem⟩
  · have hlt : ((|m - n| : ℤ) : ℚ) < 1 := by
      rcases hn with hn | ⟨hn, -⟩ <;> rw [hcast] <;> linarith
    have hlt' : |m - n| < 1 := by exact_mod_cast hlt
    have hzero := Int.abs_lt_one_iff.mp hlt'
    omega
  · rcases hn with hn | ⟨hn, hen⟩
    · have hlt : ((|m - n| : ℤ) : ℚ) < 1 := by rw [hcast]; linarith
      have hlt' : |m - n| < 1 := by exact_mod_cast hlt
      have hzero := Int.abs_lt_one_iff.mp hlt'
      omega
    · -- two even integers that are at most one apart
      have hle : ((|m - n| : ℤ) : ℚ) ≤ 1 := by rw [hcast]; linarith
      have hle' : |m - n| ≤ 1 := by exact_mod_cast hle
      obtain ⟨hlow, hhigh⟩ := abs_le.mp hle'
      obtain ⟨a, rfl⟩ := hem
      obtain ⟨b, rfl⟩ := hen
      omega

theorem halfEven_eq_iff : halfEven y = n ↔ Nearest y n := by
  constructor
  · rintro rfl
    exact nearest_halfEven y
  · exact fun hn => (nearest_halfEven y).unique hn

theorem abs_sub_halfEven_le (y : ℚ) : |y - halfEven y| ≤ 1 / 2 := by
  rcases nearest_halfEven y with h | ⟨h, -⟩
  · exact h.le
  · exact h.le

@[simp] theorem halfEven_intCast (n : ℤ) : halfEven (n : ℚ) = n :=
  halfEven_eq_iff.mpr (.inl (by simp))

theorem halfEven_nonneg (hy : 0 ≤ y) : 0 ≤ halfEven y := by
  by_contra hneg
  have hle : ((halfEven y : ℤ) : ℚ) ≤ -1 := by
    exact_mod_cast Int.le_sub_one_of_lt (not_le.mp hneg)
  linarith [(abs_le.mp (abs_sub_halfEven_le y)).2]

theorem halfEven_eq_zero (hy : |y| ≤ 1 / 2) : halfEven y = 0 := by
  refine halfEven_eq_iff.mpr ?_
  rcases hy.lt_or_eq with hlt | heq
  · exact .inl (by simpa using hlt)
  · exact .inr ⟨by simpa using heq, Even.zero⟩

variable (d : ℕ)

theorem roundTo_of_int (hx : x * 10 ^ d = n) : roundTo d x = x := by
  have hpos : (0 : ℚ) < 10 ^ d := by positivity
  rw [roundTo, hx, halfEven_intCast, ← hx]
  field_simp

theorem roundTo_nonneg (hx : 0 ≤ x) : 0 ≤ roundTo d x := by
  have hscaled : (0 : ℚ) ≤ halfEven (x * 10 ^ d) := by
    exact_mod_cast halfEven_nonneg (by positivity)
  unfold roundTo
  positivity

theorem roundTo_eq_zero (hx : |x| ≤ 1 / 2 / 10 ^ d) : roundTo d x = 0 := by
  have hpos : (0 : ℚ) < 10 ^ d := by positivity
  have hscaled : |x * 10 ^ d| ≤ 1 / 2 := by
    rw [abs_mul, abs_of_pos hpos]
    exact (le_div_iff₀ hpos).mp hx
  rw [roundTo, halfEven_eq_zero hscaled]
  simp

theorem roundTo_eq_zero_of_lt (hx : |roundTo d x| < 1 / 10 ^ d) : roundTo d x = 0 := by
  have hpos : (0 : ℚ) < 10 ^ d := by positivity
  have hlt : |(halfEven (x * 10 ^ d) : ℚ)| < 1 := by
    rw [roundTo, abs_div, abs_of_pos hpos] at hx
    exact (div_lt_div_iff_of_pos_right hpos).mp hx
  have hlt' : |halfEven (x * 10 ^ d)| < 1 := by exact_mod_cast hlt
  rw [roundTo, Int.abs_lt_one_iff.mp hlt']
  simp

end Karma.Arith
