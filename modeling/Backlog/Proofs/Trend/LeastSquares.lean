import Backlog.Proofs.Trend.Regression
import Mathlib.Tactic.FieldSimp
import Mathlib.Tactic.LinearCombination

/-!
# The line of least squares

A line through some points is as good as the squares of the distances that it leaves, added up
(`squaredError`).  The best lines are those that satisfy the normal equations (`IsBalanced`):
any other line leaves more, by the squares of the distances between the two lines
(`IsBalanced.squaredError_eq`).

The line of a regression satisfies them.  Where the spread of the times is zero, the times are all
the same (`crossMoment_self_eq_zero_iff`), so the equation that the slope would be divided by
vanishes on both sides and slope zero is as good as any.  Elsewhere two points of different
times tell any two lines apart, and the best line is the only one (`IsBalanced.eq_of_le`).

A regression in exact arithmetic has the sums over its window, so all this is said of its line and
the points in the window (`Regression.least_squares`).
-/

namespace Backlog

/-! ## Lines through points -/

/-- The squares of the distances in height of points from a line, added up. -/
def squaredError (points : List (ℚ × ℚ)) (slope intercept : ℚ) : ℚ :=
  (points.map fun p => (p.2 - (slope * p.1 + intercept)) ^ 2).sum

/-- The squares of the heights of a line at the times of points, added up. -/
def squaredHeights (points : List (ℚ × ℚ)) (slope intercept : ℚ) : ℚ :=
  (points.map fun p => (slope * p.1 + intercept) ^ 2).sum

theorem squaredError_expand (points : List (ℚ × ℚ)) (slope intercept : ℚ) :
    squaredError points slope intercept =
      (points.map fun p => p.2 * p.2).sum - 2 * slope * (points.map fun p => p.1 * p.2).sum
        - 2 * intercept * (points.map (·.2)).sum + squaredHeights points slope intercept := by
  unfold squaredError squaredHeights
  induction points with
  | nil => simp
  | cons p rest ih =>
      simp only [List.map_cons, List.sum_cons, ih]
      ring

theorem squaredHeights_expand (points : List (ℚ × ℚ)) (slope intercept : ℚ) :
    squaredHeights points slope intercept =
      slope ^ 2 * (points.map fun p => p.1 * p.1).sum
        + 2 * slope * intercept * (points.map (·.1)).sum + intercept ^ 2 * points.length := by
  unfold squaredHeights
  induction points with
  | nil => simp
  | cons p rest ih =>
      simp only [List.map_cons, List.sum_cons, ih, List.length_cons]
      push_cast
      ring

/-- Squares that add up to nothing are nothing. -/
theorem eq_zero_of_sum_sq {β : Type} {f : β → ℚ} {l : List β}
    (h : (l.map fun b => f b ^ 2).sum ≤ 0) : ∀ b ∈ l, f b = 0 := by
  have hnonneg : ∀ x ∈ l.map fun b => f b ^ 2, 0 ≤ x :=
    List.forall_mem_map.2 fun b _ => sq_nonneg (f b)
  have hsum := le_antisymm h (List.sum_nonneg hnonneg)
  intro b hmem
  have hzero := List.all_zero_of_le_zero_le_of_sum_eq_zero hnonneg hsum
    (List.mem_map_of_mem hmem)
  exact pow_eq_zero_iff two_ne_zero |>.1 hzero

theorem squaredHeights_nonneg (points : List (ℚ × ℚ)) (slope intercept : ℚ) :
    0 ≤ squaredHeights points slope intercept :=
  List.sum_nonneg (List.forall_mem_map.2 fun _ _ => sq_nonneg _)

theorem squaredError_of_line {points : List (ℚ × ℚ)} {slope intercept : ℚ}
    (hline : ∀ p ∈ points, p.2 = slope * p.1 + intercept) :
    squaredError points slope intercept = 0 := by
  apply List.sum_eq_zero
  intro x hx
  obtain ⟨p, hp, rfl⟩ := List.mem_map.1 hx
  rw [hline p hp, sub_self, zero_pow two_ne_zero]

theorem squaredError_nonneg (points : List (ℚ × ℚ)) (slope intercept : ℚ) :
    0 ≤ squaredError points slope intercept :=
  List.sum_nonneg (List.forall_mem_map.2 fun _ _ => sq_nonneg _)

/-! ## Balanced lines -/

/-- A line for which the normal equations hold: the distances of the points from it add up to
nothing, and so do their moments. -/
structure IsBalanced (points : List (ℚ × ℚ)) (slope intercept : ℚ) : Prop where
  level : (points.map (·.2)).sum = slope * (points.map (·.1)).sum + intercept * points.length
  moment : (points.map fun p => p.1 * p.2).sum =
    slope * (points.map fun p => p.1 * p.1).sum + intercept * (points.map (·.1)).sum

namespace IsBalanced

variable {points : List (ℚ × ℚ)} {slope intercept : ℚ}

/-- Another line leaves more by as much as it is away from the balanced one. -/
theorem squaredError_eq (h : IsBalanced points slope intercept) (a b : ℚ) :
    squaredError points a b =
      squaredError points slope intercept + squaredHeights points (a - slope) (b - intercept) := by
  simp only [squaredError_expand, squaredHeights_expand]
  linear_combination -2 * (a - slope) * h.moment - 2 * (b - intercept) * h.level

theorem squaredError_le (h : IsBalanced points slope intercept) (a b : ℚ) :
    squaredError points slope intercept ≤ squaredError points a b := by
  rw [h.squaredError_eq a b]
  exact le_add_of_nonneg_right (squaredHeights_nonneg _ _ _)

/-- Where two points have different times, no other line leaves as little. -/
theorem eq_of_le (h : IsBalanced points slope intercept) {p q : ℚ × ℚ} (hp : p ∈ points)
    (hq : q ∈ points) (hne : p.1 ≠ q.1) {a b : ℚ}
    (hle : squaredError points a b ≤ squaredError points slope intercept) :
    a = slope ∧ b = intercept := by
  rw [h.squaredError_eq a b] at hle
  have hzero := eq_zero_of_sum_sq (add_le_iff_nonpos_right _ |>.1 hle)
  have hboth : (a - slope) * (p.1 - q.1) = 0 := by linear_combination hzero p hp - hzero q hq
  have hslope : a - slope = 0 := (mul_eq_zero.1 hboth).resolve_right (sub_ne_zero.2 hne)
  have hintercept : b - intercept = 0 := by
    have := hzero p hp
    rwa [hslope, zero_mul, zero_add] at this
  exact ⟨sub_eq_zero.1 hslope, sub_eq_zero.1 hintercept⟩

end IsBalanced

/-! ## The line of a row of points -/

theorem crossMoment_self_eq_zero_iff {β : Type} {f : β → ℚ} {l : List β} :
    crossMoment f f l = 0 ↔ ∀ b ∈ l, ∀ c ∈ l, f b = f c := by
  constructor
  · intro h
    cases l with
    | nil => exact fun _ hmem => absurd hmem List.not_mem_nil
    | cons first rest =>
        -- the first point adds squares to what the others have, which is not negative
        have hrest := crossMoment_self_nonneg f rest
        simp only [crossMoment_cons, ← pow_two] at h
        have hzero := eq_zero_of_sum_sq (f := fun c => f first - f c) (l := rest) (by linarith)
        have hfirst : ∀ b ∈ first :: rest, f b = f first := List.forall_mem_cons.2
          ⟨rfl, fun c hc => (sub_eq_zero.1 (hzero c hc)).symm⟩
        exact fun b hb c hc => (hfirst b hb).trans (hfirst c hc).symm
  · intro h
    cases l with
    | nil => simp [crossMoment]
    | cons b rest =>
        exact crossMoment_eq_zero_of_const fun c hc => h c hc b List.mem_cons_self

theorem crossMoment_comm {β : Type} (f g : β → ℚ) (l : List β) :
    crossMoment f g l = crossMoment g f l := by
  unfold crossMoment
  simp only [mul_comm (f _), mul_comm (l.map f).sum]

namespace PointSums

/-- Whether sums have no slope of their own: for fewer than two points, and where the slope would
be divided by zero or by no number at all. -/
def isDegenerate {α : Type} [Scalar α] (s : PointSums α) : Bool :=
  let spread := Scalar.fma (Scalar.ofInt s.n) s.xx (-(s.x * s.x))
  decide (s.n < 2) || (Scalar.eq spread Scalar.zero || !(Scalar.isFinite spread))

/-- The two branches of a slope. -/
theorem slope_eq {α : Type} [Scalar α] (s : PointSums α) :
    s.slope = if s.isDegenerate then Scalar.zero
      else Scalar.fma (Scalar.ofInt s.n) s.xy (-(s.x * s.y)) /
        Scalar.fma (Scalar.ofInt s.n) s.xx (-(s.x * s.x)) := by
  unfold slope isDegenerate
  by_cases htwo : s.n < 2
  · simp [htwo]
  · simp [htwo]

variable {points : List (ℚ × ℚ)}

theorem isDegenerate_ofPoints :
    (ofPoints points).isDegenerate = true ↔
      points.length < 2 ∨ ∀ p ∈ points, ∀ q ∈ points, p.1 = q.1 := by
  rw [← crossMoment_self_eq_zero_iff]
  simp [isDegenerate, ofPoints_eq, crossMoment, sub_eq_add_neg]

theorem slope_mul_spread (points : List (ℚ × ℚ)) :
    (ofPoints points).slope * crossMoment Prod.fst Prod.fst points =
      crossMoment Prod.fst Prod.snd points := by
  rw [slope_ofPoints]
  by_cases hspread : crossMoment Prod.fst Prod.fst points = 0
  · -- all times are the same, and then no height makes a moment
    have hsame := crossMoment_self_eq_zero_iff.1 hspread
    rw [hspread, mul_zero, crossMoment_comm]
    cases points with
    | nil => simp [crossMoment]
    | cons p rest =>
        exact (crossMoment_eq_zero_of_const fun q hq => hsame q hq p List.mem_cons_self).symm
  · exact div_mul_cancel₀ _ hspread

theorem intercept_mul_length (h : points ≠ []) :
    (ofPoints points).intercept * points.length =
      (points.map (·.2)).sum - (ofPoints points).slope * (points.map (·.1)).sum := by
  have hlength : (points.length : ℚ) ≠ 0 := by simpa using h
  have hcount : ¬(ofPoints points).n = 0 := by simpa [ofPoints_eq] using h
  rw [intercept, if_neg hcount]
  generalize (ofPoints points).slope = slope
  simp only [ofPoints_eq, Scalar.fma_rat, Scalar.ofInt_rat]
  push_cast
  field_simp
  ring

/-- The line of some points is balanced. -/
theorem isBalanced_ofPoints (h : points ≠ []) :
    IsBalanced points (ofPoints points).slope (ofPoints points).intercept := by
  have hlength : (points.length : ℚ) ≠ 0 := by simpa using h
  have hspread := slope_mul_spread points
  have hintercept := intercept_mul_length h
  simp only [crossMoment] at hspread
  refine ⟨by linear_combination -hintercept, mul_left_cancel₀ hlength ?_⟩
  linear_combination -hspread - (points.map Prod.fst).sum * hintercept

/-- Points on a line have the slope of the line: it leaves nothing, and no other line does. -/
theorem slope_of_line {slope intercept : ℚ} (hline : ∀ p ∈ points, p.2 = slope * p.1 + intercept)
    {p q : ℚ × ℚ} (hp : p ∈ points) (hq : q ∈ points) (hne : p.1 ≠ q.1) :
    (ofPoints points).slope = slope := by
  have hbalanced := isBalanced_ofPoints (List.ne_nil_of_mem hp)
  have hbest : squaredError points slope intercept ≤
      squaredError points (ofPoints points).slope (ofPoints points).intercept := by
    rw [squaredError_of_line hline]
    exact squaredError_nonneg points _ _
  exact (hbalanced.eq_of_le hp hq hne hbest).1.symm
end PointSums

/-! ## The line of a window -/

namespace Regression

theorem start_eq_ok_iff {α : Type} [Scalar α] {capacity : ℕ} {r : Regression α} :
    start capacity = .ok r ↔ 2 ≤ capacity ∧ r = ⟨.empty, .empty capacity⟩ := by
  unfold start
  by_cases hcapacity : capacity < 2
  · have hno : ¬2 ≤ capacity := by omega
    simp [hcapacity, hno]
  · simp [hcapacity, Nat.not_lt.1 hcapacity, eq_comm]

variable {capacity : ℕ} {r : Regression ℚ}

theorem toList_of_start (h : start capacity = .ok r) (points : List (ℚ × ℚ)) :
    (r.pushAll points).points.toList = points.rtake capacity := by
  obtain ⟨hcapacity, rfl⟩ := start_eq_ok_iff.1 h
  rw [points_pushAll, Ring.toList_pushAll, max_eq_left (by omega)]

theorem sums_of_start (h : start capacity = .ok r) (points : List (ℚ × ℚ)) :
    (r.pushAll points).sums = .ofPoints (points.rtake capacity) := by
  rw [← toList_of_start h]
  obtain ⟨-, rfl⟩ := start_eq_ok_iff.1 h
  have hempty : IsExact ⟨.empty, .empty capacity⟩ := rfl
  exact hempty.pushAll points

/-- **A regression is least squares over its window**, for any capacity of two or more and any row
of points.  The window holds the last of the points, as many as there is room for, and the sums are
those over the window.  No line leaves smaller squares than the line of the regression.  The slope
is degenerate, and zero, exactly for fewer than two points and for points of one time; else no
other line leaves squares as small.  Two regressions with the same window have the same line. -/
theorem least_squares {capacity : ℕ} (h : 2 ≤ capacity) :
    ∃ fresh : Regression ℚ, start capacity = .ok fresh ∧ ∀ points : List (ℚ × ℚ),
      let r := fresh.pushAll points
      let window := points.rtake capacity
      (r.points.toList = window ∧ window.length = min points.length capacity) ∧
      (r.sums.n = window.length ∧ r.sums.x = (window.map (·.1)).sum ∧
        r.sums.y = (window.map (·.2)).sum ∧ r.sums.xy = (window.map fun p => p.1 * p.2).sum ∧
        r.sums.xx = (window.map fun p => p.1 * p.1).sum) ∧
      (window ≠ [] →
        ∀ a b, squaredError window r.slope r.intercept ≤ squaredError window a b) ∧
      (r.sums.isDegenerate = true ↔
        window.length < 2 ∨ ∀ p ∈ window, ∀ q ∈ window, p.1 = q.1) ∧
      (r.sums.isDegenerate = true → r.slope = 0) ∧
      (r.sums.isDegenerate = false → ∀ a b,
        squaredError window a b ≤ squaredError window r.slope r.intercept →
          a = r.slope ∧ b = r.intercept) ∧
      ∀ (capacity' : ℕ) (fresh' : Regression ℚ) (points' : List (ℚ × ℚ)),
        start capacity' = .ok fresh' → points'.rtake capacity' = window →
          (fresh'.pushAll points').slope = r.slope ∧
            (fresh'.pushAll points').intercept = r.intercept := by
  have hstart : start capacity = .ok (⟨.empty, .empty capacity⟩ : Regression ℚ) :=
    start_eq_ok_iff.2 ⟨h, rfl⟩
  refine ⟨_, hstart, fun points => ?_⟩
  intro r window
  have hsums : r.sums = .ofPoints window := sums_of_start hstart points
  have hslope : r.slope = (PointSums.ofPoints window).slope := congrArg PointSums.slope hsums
  have hintercept : r.intercept = (PointSums.ofPoints window).intercept :=
    congrArg PointSums.intercept hsums
  have hlength : window.length = min points.length capacity := by
    simp only [window, List.rtake, List.length_drop]
    omega
  have hbalanced (hne : window ≠ []) : IsBalanced window r.slope r.intercept := by
    rw [hslope, hintercept]
    exact PointSums.isBalanced_ofPoints hne
  have hdegenerate : r.sums.isDegenerate = true ↔
      window.length < 2 ∨ ∀ p ∈ window, ∀ q ∈ window, p.1 = q.1 := by
    rw [hsums]
    exact PointSums.isDegenerate_ofPoints
  refine ⟨⟨toList_of_start hstart points, hlength⟩, ?_, fun hne => (hbalanced hne).squaredError_le,
    hdegenerate, fun hbranch => ?_, fun hbranch a b hle => ?_, ?_⟩
  · rw [hsums, PointSums.ofPoints_eq]
    exact ⟨rfl, rfl, rfl, rfl, rfl⟩
  · exact (PointSums.slope_eq r.sums).trans (if_pos hbranch)
  · have hspread : ¬∀ p ∈ window, ∀ q ∈ window, p.1 = q.1 := fun hsame => by
      rw [hdegenerate.2 (.inr hsame)] at hbranch
      cases hbranch
    push Not at hspread
    obtain ⟨p, hp, q, hq, hne⟩ := hspread
    exact (hbalanced (List.ne_nil_of_mem hp)).eq_of_le hp hq hne hle
  · intro capacity' fresh' points' hstart' hwindow
    have hsums' : (fresh'.pushAll points').sums = r.sums := by
      rw [sums_of_start hstart' points', hwindow, hsums]
    exact ⟨congrArg PointSums.slope hsums', congrArg PointSums.intercept hsums'⟩

/-- Of five points the last three have the line `5/14 · x + 1/7`, and no other line is as good. -/
theorem least_squares_of_five :
    2 ≤ 3 ∧ ∃ fresh : Regression ℚ, start 3 = .ok fresh ∧
      let r := fresh.pushAll [(0, 9), (1, 0), (2, 1), (3, 1), (5, 2)]
      r.points.toList = [(2, 1), (3, 1), (5, 2)] ∧ r.slope = 5 / 14 ∧ r.intercept = 1 / 7 ∧
        ∀ a b, squaredError [(2, 1), (3, 1), (5, 2)] a b ≤
          squaredError [(2, 1), (3, 1), (5, 2)] (5 / 14) (1 / 7) → a = 5 / 14 ∧ b = 1 / 7 := by
  obtain ⟨fresh, hstart, hline⟩ := least_squares (show 2 ≤ 3 by decide)
  obtain ⟨⟨hwindow, -⟩, -, -, -, -, hunique, -⟩ :=
    hline [(0, 9), (1, 0), (2, 1), (3, 1), (5, 2)]
  obtain ⟨-, rfl⟩ := start_eq_ok_iff.1 hstart
  refine ⟨by decide, _, hstart, ?_⟩
  intro r
  have hslope : r.slope = 5 / 14 := by decide +kernel
  have hintercept : r.intercept = 1 / 7 := by decide +kernel
  have hbranch : r.sums.isDegenerate = false := by decide +kernel
  have hbest := hunique hbranch
  rw [hslope, hintercept] at hbest
  exact ⟨hwindow, hslope, hintercept, hbest⟩

end Regression

end Backlog
