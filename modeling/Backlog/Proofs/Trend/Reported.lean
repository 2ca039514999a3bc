import Backlog.Proofs.Trend.Intake

/-!
# The reported slope

The slope that a trend reports is kept from one call to the next.  Only a sample that is taken in
while the window is full renews it, so between two such samples it goes by the policy of the first
of them, whatever policy is set meanwhile; the threshold, on the other hand, is always that of the
policy set last.  This much is in the intake (`Reports.waiting`, `Reports.scaled`).

What a policy makes of a slope is a finite double in any case: where the product overflows, or the
slope was none, it is zero (`GrowthPolicy.isFinite_scale`).
-/

namespace Backlog

section Doubles

open Float.Model

theorem unpacked_lt_zero_eq_false {x : UnpackedFloat} (h : UnpackedFloat.le (.zero .positive) x) :
    x.lt (.zero .positive) = false := by
  cases x with
  | notANumber => rfl
  | zero sign => rfl
  | infinity sign =>
      cases sign with
      | positive => rfl
      | negative => exact (Bool.false_ne_true h).elim
  | finite sign =>
      cases sign with
      | positive => rfl
      | negative => exact (Bool.false_ne_true h).elim

/-- A double that is zero or above is not below zero. -/
theorem Scalar.lt_zero_eq_false {x : Float} (h : Scalar.le Scalar.zero x = true) :
    Scalar.lt x Scalar.zero = false := by
  have hzero : (Scalar.zero : Float).toModel.unpack = .zero .positive := rfl
  have hle : (Scalar.zero : Float).toModel.unpack.le x.toModel.unpack = true :=
    of_decide_eq_true (of_decide_eq_true h)
  have hlt : x.toModel.unpack.lt (Scalar.zero : Float).toModel.unpack = false := by
    rw [hzero] at hle ⊢
    exact unpacked_lt_zero_eq_false hle
  apply decide_eq_false
  intro hbelow
  exact Bool.false_ne_true (hlt.symm.trans (of_decide_eq_true hbelow))

end Doubles

theorem GrowthPolicy.isFinite_scale {α : Type} [Scalar α]
    (hzero : Scalar.isFinite (Scalar.zero : α) = true) (p : GrowthPolicy α) (slope : α) :
    Scalar.isFinite (p.scale slope) = true := by
  simp only [scale]
  split
  · assumption
  · exact hzero

namespace QueueTrend

/-- The slope is zero while the window is not full, and then one that a policy has scaled. -/
theorem Reports.isFinite_currentSlope {α : Type} [Scalar α] {queue : String} {w : ℕ}
    {initial : Smoother α} {i : TrendIntake α} {t : QueueTrend α} (h : Reports queue w initial i t)
    (hw : 0 < w) (hzero : Scalar.isFinite (Scalar.zero : α) = true) :
    Scalar.isFinite t.currentSlope = true := by
  by_cases hfull : w ≤ i.taken.length
  · have hne : i.taken ≠ [] := List.ne_nil_of_length_pos (by omega)
    rw [h.scaled hfull _ (List.getLast?_eq_some_getLast hne)]
    exact GrowthPolicy.isFinite_scale hzero _ _
  · rw [h.waiting (by omega)]
    exact hzero

/-- **The reported slope is that of the last sample taken in.**  After any row of samples and
policies it is zero while fewer samples have been accepted than the window holds, so that no
threshold that is zero or above is passed; from then on it is the slope of the regression, scaled
by the policy that was in force when the last sample was accepted.  It is finite in any case. -/
theorem slope_of_last_accepted {queue : String} {w : ℕ} {smoother : Smoother Float}
    {policy : GrowthPolicy Float} {t : QueueTrend Float}
    (hstart : start queue w smoother policy = .ok t) (calls : List (TrendCall Float)) :
    let now := t.run calls
    let intake := TrendIntake.ofCalls policy calls
    (∀ s : Sample, (now.record s.timestamp s.ready).1 = .accepted ↔
      (intake.after (.record s)).taken = intake.taken ++ [(s, now.policy)]) ∧
    (intake.taken.length < w → now.currentSlope = Scalar.zero ∧
      (Scalar.le Scalar.zero now.policy.threshold = true → now.isGrowing = false)) ∧
    (w ≤ intake.taken.length → ∃ last ∈ intake.taken.getLast?,
      now.currentSlope = last.2.scale now.regression.slope) ∧
    Scalar.isFinite now.currentSlope = true := by
  obtain ⟨-, hwindow, rfl⟩ := start_eq_ok_iff.1 hstart
  intro now intake
  have hreports : Reports queue w smoother intake now := reports_run calls
  refine ⟨fun s => ?_, fun hshort => ?_, fun hfull => ?_, ?_⟩
  · rw [hreports.accepts_iff, hreports.policy]
    by_cases hlate : intake.IsLate s
    · simp [hlate, TrendIntake.after_of_late]
    · simp [hlate, TrendIntake.after_of_not_late]
  · have hslope := hreports.waiting hshort
    refine ⟨hslope, fun hthreshold => ?_⟩
    rw [isGrowing, hslope]
    exact Scalar.lt_zero_eq_false hthreshold
  · have hne : intake.taken ≠ [] := List.ne_nil_of_length_pos (by omega)
    have hlast := List.getLast?_eq_some_getLast hne
    exact ⟨_, hlast, hreports.scaled hfull _ hlast⟩
  · exact hreports.isFinite_currentSlope (by omega) (by decide +kernel)

/-- A slope of a million in a scale of `1e308` overflows and is reported as zero.  With the usual
policy from then on it stays so, until the next sample is taken in: the slope is then half a million
in hundredths. -/
theorem slope_of_last_accepted_after_overflow :
    ∃ t, start "orders" 2 (.start (.simple 1.0)) ⟨0.1, 1e308⟩ = .ok t ∧
      let full := t.run [.record ⟨0, 0⟩, .record ⟨1, 1000000⟩]
      let switched := t.run [.record ⟨0, 0⟩, .record ⟨1, 1000000⟩, .setPolicy .standard]
      let renewed := t.run [.record ⟨0, 0⟩, .record ⟨1, 1000000⟩, .setPolicy .standard,
        .record ⟨0, 0⟩, .record ⟨3, 2000000⟩]
      Scalar.isFinite (full.regression.slope * full.policy.slopeScale) = false ∧
        Scalar.isFinite full.currentSlope = true ∧
        switched.currentSlope = GrowthPolicy.scale ⟨0.1, 1e308⟩ switched.regression.slope ∧
        renewed.currentSlope = GrowthPolicy.standard.scale renewed.regression.slope ∧
        renewed.currentSlope = 50000000.0 := by
  have hpolicy : (⟨0.1, 1e308⟩ : GrowthPolicy Float).validate = .ok () :=
    GrowthPolicy.validate_eq_ok_iff.2 (by decide +kernel)
  have hstart : start "orders" 2 (.start (.simple 1.0)) ⟨0.1, 1e308⟩ =
      .ok (fresh "orders" 2 (.start (.simple 1.0)) ⟨0.1, 1e308⟩) :=
    start_eq_ok_iff.2 ⟨hpolicy, le_rfl, rfl⟩
  refine ⟨_, hstart, by decide +kernel, ?_, ?_, ?_, by decide +kernel⟩
  · exact (slope_of_last_accepted hstart [.record ⟨0, 0⟩, .record ⟨1, 1000000⟩]).2.2.2
  · obtain ⟨-, -, hslope, -⟩ := slope_of_last_accepted hstart
      [.record ⟨0, 0⟩, .record ⟨1, 1000000⟩, .setPolicy .standard]
    obtain ⟨last, hlast, hscaled⟩ := hslope le_rfl
    obtain rfl := Option.some.inj hlast
    exact hscaled
  · obtain ⟨-, -, hslope, -⟩ := slope_of_last_accepted hstart
      [.record ⟨0, 0⟩, .record ⟨1, 1000000⟩, .setPolicy .standard, .record ⟨0, 0⟩,
        .record ⟨3, 2000000⟩]
    obtain ⟨last, hlast, hscaled⟩ := hslope (by decide)
    obtain rfl := Option.some.inj hlast
    exact hscaled

end QueueTrend

end Backlog
