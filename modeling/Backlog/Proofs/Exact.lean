import Backlog.Proofs.Accepted
import Mathlib.Algebra.Order.Field.Rat
import Mathlib.Data.Rat.Floor
import Mathlib.Tactic.Linarith

/-!
# Exact arithmetic

Over rationals every `Scalar` operation is the exact one.  This file says so once, so that
the statistics can be reasoned about with the usual operations.  A slope is reported to two
decimals (`GrowthPolicy.roundsTo_scale`), in the only way there is (`RoundsTo.unique`).  The growth
rule needs two more facts about it: scaling and rounding do not make a slope that is not positive
positive (`GrowthPolicy.scale_nonpos`), and zero stays zero (`GrowthPolicy.scale_zero`).
-/

namespace Backlog

namespace Scalar

/-! ## The operations -/

@[simp] theorem ofInt_rat (i : Int) : (ofInt i : ℚ) = i := rfl

@[simp] theorem zero_rat : (zero : ℚ) = 0 := Int.cast_zero

@[simp] theorem one_rat : (one : ℚ) = 1 := Int.cast_one

@[simp] theorem fma_rat (a b c : ℚ) : fma a b c = a * b + c := rfl

@[simp] theorem isFinite_rat (a : ℚ) : isFinite a = true := rfl

@[simp] theorem lt_rat (a b : ℚ) : lt a b = decide (a < b) := rfl

@[simp] theorem le_rat (a b : ℚ) : le a b = decide (a ≤ b) := rfl

@[simp] theorem eq_rat (a b : ℚ) : eq a b = decide (a = b) := rfl

theorem isUnit_rat_iff {a : ℚ} : isUnit a = true ↔ 0 ≤ a ∧ a ≤ 1 := by
  simp [isUnit]

/-! ## Rounding -/

end Scalar

/-- Of the multiples of `unit` the value `y` is the closest to `x`, and of two as close the one
farther from zero. -/
structure RoundsTo (unit x y : ℚ) : Prop where
  multiple : ∃ i : ℤ, y = i * unit
  close : |y - x| ≤ unit / 2
  away : |y - x| = unit / 2 → |x| < |y|

namespace RoundsTo

variable {unit x y z : ℚ}

theorem neg (h : RoundsTo unit x y) : RoundsTo unit (-x) (-y) := by
  have hdistance : |-y - -x| = |y - x| := by rw [neg_sub_neg, abs_sub_comm]
  obtain ⟨i, hi⟩ := h.multiple
  refine ⟨⟨-i, by rw [hi, Int.cast_neg, neg_mul]⟩, ?_, ?_⟩
  · rw [hdistance]
    exact h.close
  · rw [hdistance, abs_neg, abs_neg]
    exact h.away

theorem mul_right (h : RoundsTo unit x y) {c : ℚ} (hc : 0 < c) :
    RoundsTo (unit * c) (x * c) (y * c) := by
  have hdistance : |y * c - x * c| = |y - x| * c := by rw [← sub_mul, abs_mul, abs_of_pos hc]
  have hhalf : unit * c / 2 = unit / 2 * c := by ring
  obtain ⟨i, hi⟩ := h.multiple
  refine ⟨⟨i, by rw [hi, mul_assoc]⟩, ?_, ?_⟩
  · rw [hdistance, hhalf]
    exact mul_le_mul_of_nonneg_right h.close hc.le
  · rw [hdistance, hhalf, abs_mul, abs_mul, abs_of_pos hc]
    intro htie
    exact mul_lt_mul_of_pos_right (h.away (mul_right_cancel₀ hc.ne' htie)) hc

/-- Between two different roundings `x` would be half way, but only one of them is farther from zero
than `x`. -/
theorem le (hy : RoundsTo unit x y) (hz : RoundsTo unit x z) (hunit : 0 < unit) : z ≤ y := by
  by_contra! hlt
  obtain ⟨i, rfl⟩ := hy.multiple
  obtain ⟨j, rfl⟩ := hz.multiple
  have hij : i + 1 ≤ j := by exact_mod_cast lt_of_mul_lt_mul_right hlt hunit.le
  have hgap : (i + 1) * unit ≤ j * unit :=
    mul_le_mul_of_nonneg_right (by exact_mod_cast hij) hunit.le
  have hlow := (abs_le.1 hy.close).1
  have hhigh := (abs_le.1 hz.close).2
  have hmiddle : x = i * unit + unit / 2 := by linarith
  have hnext : j * unit = x + unit / 2 := by linarith
  have hbelow : |i * unit - x| = unit / 2 := by
    rw [hmiddle, sub_add_cancel_left, abs_neg, abs_of_pos (half_pos hunit)]
  have habove : |j * unit - x| = unit / 2 := by
    rw [hnext, add_sub_cancel_left, abs_of_pos (half_pos hunit)]
  rcases le_or_gt 0 i with hi | hi
  · have hsign : 0 ≤ i * unit := mul_nonneg (by exact_mod_cast hi) hunit.le
    have haway := hy.away hbelow
    rw [abs_of_nonneg hsign, abs_of_nonneg (by linarith)] at haway
    linarith
  · have hnext_nonpos : (i : ℚ) + 1 ≤ 0 := by exact_mod_cast hi
    have hsign : (i + 1) * unit ≤ 0 := mul_nonpos_of_nonpos_of_nonneg hnext_nonpos hunit.le
    have haway := hz.away habove
    rw [abs_of_nonpos (by linarith : (j : ℚ) * unit ≤ 0), abs_of_nonpos (by linarith)] at haway
    linarith

theorem unique (hy : RoundsTo unit x y) (hz : RoundsTo unit x z) (hunit : 0 < unit) : y = z :=
  le_antisymm (hz.le hy hunit) (hy.le hz hunit)

end RoundsTo

namespace Scalar

/-- The floor lies at most half below, and where it lies half above it is the larger. -/
theorem roundsTo_floor {a : ℚ} (h : 0 ≤ a) : RoundsTo 1 a ((a + 1 / 2).floor : ℚ) := by
  have hlow : ((a + 1 / 2).floor : ℚ) ≤ a + 1 / 2 := Rat.floor_le _
  have hhigh : a + 1 / 2 < (a + 1 / 2).floor + 1 := by
    exact_mod_cast Rat.lt_floor_add_one (a + 1 / 2)
  refine ⟨⟨_, (mul_one _).symm⟩, abs_le.2 ⟨by linarith, by linarith⟩, fun htie => ?_⟩
  rcases (abs_eq (by norm_num)).1 htie with habove | hbelow
  · rw [abs_of_nonneg h, abs_of_nonneg (by linarith)]
    linarith
  · linarith

theorem roundsTo_round (a : ℚ) : RoundsTo 1 a (round a) := by
  by_cases hneg : a < 0
  · have hround : round a = -((-a + 1 / 2).floor : ℚ) := if_pos hneg
    have hfloor := (roundsTo_floor (neg_nonneg.2 hneg.le)).neg
    rw [neg_neg] at hfloor
    rwa [hround]
  · have hround : round a = ((a + 1 / 2).floor : ℚ) := if_neg hneg
    rw [hround]
    exact roundsTo_floor (not_lt.1 hneg)

theorem round_zero : round (0 : ℚ) = 0 := by decide +kernel

theorem round_nonpos {a : ℚ} (h : a ≤ 0) : round a ≤ 0 := by
  rcases h.lt_or_eq with hneg | rfl
  · have hfloor : (0 : ℤ) ≤ (-a + 1 / 2).floor := Rat.le_floor_iff.2 (by push_cast; linarith)
    have hround : round a = -(((-a + 1 / 2).floor : ℤ) : ℚ) := if_pos hneg
    rw [hround, neg_nonpos]
    exact_mod_cast hfloor
  · exact round_zero.le

end Scalar

namespace GrowthPolicy

/-! ## Reported slopes -/

theorem validate_rat_iff {p : GrowthPolicy ℚ} :
    p.validate = .ok () ↔ 0 ≤ p.threshold ∧ 0 < p.slopeScale := by
  simp [validate_eq_ok_iff]

theorem scale_rat (p : GrowthPolicy ℚ) (slope : ℚ) :
    p.scale slope = Scalar.round (slope * p.slopeScale * 100) / 100 := rfl

/-- A slope is reported in multiples of the scale, to two decimals. -/
theorem roundsTo_scale (p : GrowthPolicy ℚ) (slope : ℚ) :
    RoundsTo (1 / 100) (slope * p.slopeScale) (p.scale slope) := by
  have hunit : (0 : ℚ) < 1 / 100 := by norm_num
  have hround := (Scalar.roundsTo_round (slope * p.slopeScale * 100)).mul_right hunit
  rw [one_mul, mul_assoc _ (100 : ℚ), mul_one_div_cancel (by norm_num), mul_one] at hround
  rwa [scale_rat, div_eq_mul_one_div (Scalar.round _)]

theorem scale_nonpos {p : GrowthPolicy ℚ} (hp : 0 < p.slopeScale) {slope : ℚ} (h : slope ≤ 0) :
    p.scale slope ≤ 0 := by
  rw [scale_rat]
  refine div_nonpos_of_nonpos_of_nonneg (Scalar.round_nonpos ?_) (by norm_num)
  exact mul_nonpos_of_nonpos_of_nonneg (mul_nonpos_of_nonpos_of_nonneg h hp.le) (by norm_num)

theorem scale_zero (p : GrowthPolicy ℚ) : p.scale 0 = 0 := by
  rw [scale_rat, zero_mul, zero_mul, Scalar.round_zero, zero_div]

end GrowthPolicy

/-- A slope that is not positive is no growth under a threshold that is not negative. -/
theorem QueueTrend.isGrowing_eq_false {t : QueueTrend ℚ} (hthreshold : 0 ≤ t.policy.threshold)
    (h : t.currentSlope ≤ 0) : t.isGrowing = false := by
  rw [isGrowing, Scalar.lt_rat, decide_eq_false_iff_not, not_lt]
  exact h.trans hthreshold

end Backlog
