import Mathlib.Data.List.Sort
import Mathlib.Tactic.Linarith

/-! # `progress_curve` — the ceiling of the claimed value

Percentages are exact rationals, and the points of a specification are given as pairs. -/

namespace Karma.Progress

abbrev Point := ℚ × ℚ

/-- The value on the segment from `a` to `b`. -/
def piece (x : ℚ) (a b : Point) : ℚ :=
  if |b.1 - a.1| < 1 / 10 ^ 12 then max a.2 b.2
  else a.2 + (x - a.1) / (b.1 - a.1) * (b.2 - a.2)

/-- The loop over the sorted points, and what is returned behind it. -/
def segment (x : ℚ) : List Point → ℚ
  | a :: b :: rest =>
    if a.1 ≤ x ∧ x ≤ b.1 ∨ rest.isEmpty ∧ |x - b.1| < 1 / 10 ^ 9 then piece x a b
    else segment x (b :: rest)
  | [a] => a.2
  | [] => 0

/-- `points.sort(key=lambda t: t[0])`, which is stable. -/
def sortPoints (points : List Point) : List Point := points.insertionSort fun a b => a.1 ≤ b.1

def ceiling (points : List Point) (progress : ℚ) : ℚ :=
  segment (max 0 (min 100 progress)) (sortPoints points)

/-- The values do not decrease with progress. -/
def Ascending (points : List Point) : Prop := ∀ a ∈ points, ∀ b ∈ points, a.1 < b.1 → a.2 ≤ b.2

/-- **No tolerance is used**: the points reach from 0 to 100, and two breakpoints are either the
same, with the same value, or apart. -/
structure Regular (points : List Point) : Prop where
  start : ∃ a ∈ points, a.1 ≤ 0
  finish : ∃ b ∈ points, 100 ≤ b.1
  same : ∀ a ∈ points, ∀ b ∈ points, a.1 = b.1 → a.2 = b.2
  apart : ∀ a ∈ points, ∀ b ∈ points, a.1 < b.1 → 1 / 10 ^ 12 ≤ b.1 - a.1

/-! ## One segment -/

section Piece

variable {x y : ℚ} {a b : Point}

end Piece

/-! ## A list of points -/

variable {x y : ℚ} {points : List Point}

/-- Neither breakpoints nor values decrease along the list. -/
abbrev Chain (l : List Point) : Prop := l.Pairwise fun a b => a.1 ≤ b.1 ∧ a.2 ≤ b.2

variable {rest : List Point}

theorem sortPoints_perm (points : List Point) : (sortPoints points).Perm points :=
  List.perm_insertionSort _ points

theorem sortPoints_sorted (points : List Point) :
    (sortPoints points).Pairwise fun a b => a.1 ≤ b.1 :=
  List.pairwise_insertionSort _ points

theorem mem_sortPoints {a : Point} : a ∈ sortPoints points ↔ a ∈ points :=
  (sortPoints_perm points).mem_iff

theorem Regular.chain (hr : Regular points) (ha : Ascending points) :
    Chain (sortPoints points) := by
  refine (sortPoints_sorted points).imp_of_mem fun hm hm' hle => ⟨hle, ?_⟩
  rcases hle.lt_or_eq with hlt | heq
  · exact ha _ (mem_sortPoints.mp hm) _ (mem_sortPoints.mp hm') hlt
  · exact (hr.same _ (mem_sortPoints.mp hm) _ (mem_sortPoints.mp hm') heq).le

namespace Sample

def late : List Point := [(1 / (2 * 10 ^ 9), 0), (100, 100)]

end Sample

open Sample

end Karma.Progress
