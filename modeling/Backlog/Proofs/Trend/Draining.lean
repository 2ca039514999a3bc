import Backlog.Proofs.Trend.Run
import Mathlib.Tactic.NormNum

/-!
# Draining queues

Under simple smoothing a queue that drains or stands still raises no alarm.  The levels of
a backlog that never rises never rise, so over times that never go back the slope of the
regression is not positive, and neither scaling nor rounding can change its sign.
-/

namespace Backlog

namespace QueueTrend

theorem pairwise_rawValues {samples : List Sample}
    (h : samples.Pairwise fun a b => b.ready ≤ a.ready) :
    (rawValues samples : List ℚ).Pairwise (· ≥ ·) :=
  h.map _ fun _ _ hle => Int.cast_le.2 (Int64.le_iff_toInt_le.1 hle)

/-- In exact arithmetic simple smoothing never reports a backlog that does not rise as
growing, whichever damping, window and policy are accepted. -/
theorem draining_not_growing {alpha : ℚ} (h0 : 0 ≤ alpha) (h1 : alpha ≤ 1) {windowSize : ℕ}
    (hwindow : 2 ≤ windowSize) {policy : GrowthPolicy ℚ} (hthreshold : 0 ≤ policy.threshold)
    (hscale : 0 < policy.slopeScale) (queue : String) :
    ∃ smoother t, Smoother.simple alpha = .ok smoother ∧
      start queue windowSize smoother policy = .ok t ∧
      ∀ samples : List Sample, InOrder samples →
        (samples.Pairwise fun a b => b.ready ≤ a.ready) → ∀ n,
          (t.recordAll (samples.take n)).currentSlope ≤ 0 ∧
            (t.recordAll (samples.take n)).isGrowing = false := by
  have hunit : Scalar.isUnit alpha = true := Scalar.isUnit_rat_iff.2 ⟨h0, h1⟩
  have hpolicy : policy.validate = .ok () := GrowthPolicy.validate_rat_iff.2 ⟨hthreshold, hscale⟩
  have hsmoother : Smoother.simple alpha = .ok (.start (.simple alpha)) := by
    rw [Smoother.simple, check_bind_eq_ok, Smoother.checkDamping_eq_ok_iff]
    exact ⟨hunit, rfl⟩
  refine ⟨_, _, hsmoother, start_eq_ok_iff.2 ⟨hpolicy, hwindow, rfl⟩, ?_⟩
  intro samples horder hready n
  have hprefix : (samples.take n).Sublist samples := List.take_sublist n samples
  have hlevels := Smoother.levels_pairwise_of_simple h0 h1
    (pairwise_rawValues (hready.sublist hprefix))
  have hslope : ((fresh queue windowSize (.start (.simple alpha)) policy).recordAll
      (samples.take n)).currentSlope ≤ 0 :=
    currentSlope_nonpos (by omega) hscale (horder.sublist hprefix) hlevels
  refine ⟨hslope, isGrowing_eq_false ?_ hslope⟩
  rw [recordAll_policy]
  exact hthreshold

theorem draining_not_growing_within_minutes :
    ∃ smoother t, Smoother.simple (1 / 2 : ℚ) = .ok smoother ∧
      start "bills" 2 smoother ⟨0, 100⟩ = .ok t ∧
      (t.recordAll [⟨0, 9⟩, ⟨0, 4⟩, ⟨60000, 4⟩, ⟨120000, 1⟩]).currentSlope ≤ 0 ∧
      (t.recordAll [⟨0, 9⟩, ⟨0, 4⟩, ⟨60000, 4⟩, ⟨120000, 1⟩]).isGrowing = false := by
  have hthreshold : 0 ≤ (⟨0, 100⟩ : GrowthPolicy ℚ).threshold := le_rfl
  have hscale : 0 < (⟨0, 100⟩ : GrowthPolicy ℚ).slopeScale := by norm_num
  obtain ⟨smoother, t, hsmoother, hstart, hrun⟩ :=
    draining_not_growing (by norm_num : (0 : ℚ) ≤ 1 / 2) (by norm_num) (le_refl 2) hthreshold
      hscale "bills"
  exact ⟨smoother, t, hsmoother, hstart,
    hrun [⟨0, 9⟩, ⟨0, 4⟩, ⟨60000, 4⟩, ⟨120000, 1⟩] (by decide) (by decide) 4⟩

end QueueTrend

end Backlog
