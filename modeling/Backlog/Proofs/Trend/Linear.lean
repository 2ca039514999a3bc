import Backlog.Proofs.Trend.LeastSquares
import Backlog.Proofs.Trend.Windows

/-!
# Linear growth

A backlog that goes up by the same amount from each sample to the next, over times that do so too,
is a line, and in exact arithmetic a trend measures it as it is.  Double smoothing takes such a
backlog as it comes (`Smoother.levels_line`), whatever its damping, and so the points of the
regression lie on the line (`QueueTrend.points_of_onLine`).  A window of two points or more tells
its slope, and only scaling and rounding change what is reported
(`QueueTrend.linear_growth_is_exact`).
-/

namespace Backlog

theorem mem_rtake_range {n w i : ℕ} : i ∈ (List.range n).rtake w ↔ n - w ≤ i ∧ i < n := by
  rw [List.rtake, List.length_range, List.range_eq_range', List.drop_range', List.mem_range'_1]
  omega

/-- The times and the sizes of the samples each lie on a line, and the time since the first sample
is a number of 64 bits throughout. -/
structure Sample.OnLine (first step size rise : ℤ) (samples : List Sample) : Prop where
  times : samples.map (·.timestamp.toInt) = line first step samples.length
  sizes : samples.map (·.ready.toInt) = line size rise samples.length
  span : ∀ x ∈ line 0 step samples.length, x ≤ Int64.maxValue.toInt

namespace Sample.OnLine

variable {first step size rise : ℤ} {samples : List Sample}

theorem take (h : OnLine first step size rise samples) (n : ℕ) :
    OnLine first step size rise (samples.take n) where
  times := by rw [List.map_take, h.times, take_line, List.length_take]
  sizes := by rw [List.map_take, h.sizes, take_line, List.length_take]
  span := by
    rw [List.length_take, ← take_line]
    exact fun x hx => h.span x (List.mem_of_mem_take hx)

theorem inOrder (h : OnLine first step size rise samples) (hstep : 0 < step) :
    QueueTrend.InOrder samples := by
  have hline : (line first step samples.length).Pairwise (· ≤ ·) := by
    refine List.pairwise_lt_range.map _ fun i j hij => ?_
    have hcast : (i : ℤ) ≤ j := by exact_mod_cast hij.le
    exact Int.add_le_add_left (Int.mul_le_mul_of_nonneg_left hcast hstep.le) first
  rw [← h.times, List.pairwise_map] at hline
  exact hline.imp Int64.le_iff_toInt_le.2

theorem offsets_eq (h : OnLine first step size rise samples) (hstep : 0 < step) :
    offsets samples = line 0 step samples.length := by
  cases samples with
  | nil => rfl
  | cons s rest =>
      have hfirst : s.timestamp.toInt = first := by
        have hhead := congrArg List.head? h.times
        simpa [line, List.range_succ_eq_map] using hhead
      have hmap : offsets (s :: rest) = ((s :: rest).map (·.timestamp.toInt)).map fun time =>
          clamp (-(twoTo 63)) (twoTo 63 - 1) (time - first) := by
        rw [offsets, List.map_map, ← hfirst]
        rfl
      rw [hmap, h.times, line, List.map_map]
      apply List.map_congr_left
      intro i hi
      -- no time since the first sample is negative, so only the upper end could be passed
      have hlow : 0 ≤ step * i := Int.mul_nonneg hstep.le (Int.natCast_nonneg i)
      have hhigh : 0 + step * i ≤ Int64.maxValue.toInt := h.span _ (List.mem_map_of_mem hi)
      show clamp _ _ (first + step * i - first) = 0 + step * i
      have hmax : Int64.maxValue.toInt = twoTo 63 - 1 := by decide
      unfold clamp
      omega

theorem rawValues_eq (h : OnLine first step size rise samples) :
    (QueueTrend.rawValues samples : List ℚ) = line (size : ℚ) rise samples.length := by
  rw [← map_cast_line, ← h.sizes, List.map_map]
  rfl

end Sample.OnLine

namespace QueueTrend

variable {first step size rise : ℤ} {samples : List Sample} {d : Damping ℚ}

theorem levels_of_onLine (h : Sample.OnLine first step size rise samples) (hkeep : d.KeepsLines) :
    (Smoother.start d).levels (rawValues samples) = rawValues samples := by
  rw [h.rawValues_eq, Smoother.levels_line hkeep]

theorem points_of_onLine (h : Sample.OnLine first step size rise samples) (hstep : 0 < step)
    (hkeep : d.KeepsLines) :
    points (.start d) samples =
      (List.range samples.length).map fun i : ℕ => ((step * i : ℚ), (size + rise * i : ℚ)) := by
  have htimes : (Sample.offsets samples).map (Scalar.ofInt : ℤ → ℚ) =
      (List.range samples.length).map fun i : ℕ => (step * i : ℚ) := by
    rw [h.offsets_eq hstep, line, List.map_map]
    simp
  rw [points, htimes, levels_of_onLine h hkeep, h.rawValues_eq, line, List.zip_map']

/-- A full window of two or more points on the line tells its slope. -/
theorem slope_of_onLine (h : Sample.OnLine first step size rise samples) (hstep : 0 < step)
    (hkeep : d.KeepsLines) {w : ℕ} (hw : 2 ≤ w) (hfull : w ≤ samples.length) :
    (PointSums.ofPoints ((points (.start d) samples).rtake w)).slope = rise / step := by
  have hstep0 : (step : ℚ) ≠ 0 := by exact_mod_cast hstep.ne'
  have hpoints : (points (.start d) samples).rtake w =
      ((List.range samples.length).rtake w).map fun i : ℕ =>
        ((step * i : ℚ), (size + rise * i : ℚ)) := by
    rw [points_of_onLine h hstep hkeep, Ring.rtake_map]
  have hline : ∀ p ∈ (points (.start d) samples).rtake w, p.2 = rise / step * p.1 + size := by
    rw [hpoints]
    intro p hp
    obtain ⟨i, -, rfl⟩ := List.mem_map.1 hp
    field_simp
    ring
  -- the last two points are in the window
  obtain ⟨n, hn⟩ : ∃ n, samples.length = n + 2 := ⟨samples.length - 2, by omega⟩
  have hmem (i : ℕ) (hi : n ≤ i ∧ i ≤ n + 1) :
      ((step * i : ℚ), (size + rise * i : ℚ)) ∈ (points (.start d) samples).rtake w := by
    rw [hpoints]
    exact List.mem_map_of_mem (mem_rtake_range.2 (by omega))
  apply PointSums.slope_of_line hline (hmem n (by omega)) (hmem (n + 1) (by omega))
  simp [hstep0]

variable {queue : String} {w : ℕ} {policy : GrowthPolicy ℚ} {t : QueueTrend ℚ}

/-- The last size, raw and smoothed, is that of the line. -/
theorem Reports.last_of_onLine
    (hreports : Reports queue w (.start d) ⟨samples.map (·, policy), policy⟩ t)
    (h : Sample.OnLine first step size rise samples) (hkeep : d.KeepsLines) {n : ℕ}
    (hn : samples.length = n + 1) :
    t.lastRaw.toInt = size + rise * n ∧ t.lastSmoothed = t.lastRaw.toInt := by
  obtain ⟨last, hlast, hready⟩ : ∃ last, samples.getLast? = some last ∧
      last.ready.toInt = size + rise * n := by
    rw [← Option.map_eq_some_iff, ← List.getLast?_map, h.sizes, hn, line_succ, List.getLast?_concat]
  have hraw : t.lastRaw = last.ready := hreports.lastRaw_eq (by rwa [TrendIntake.samples_map])
  refine ⟨by rw [hraw, hready], ?_⟩
  rw [hreports.lastSmoothed, TrendIntake.samples_map, levels_of_onLine h hkeep, rawValues,
    List.getLast?_map, hlast, hraw]
  rfl

/-- In the windows too each size is smoothed to itself. -/
theorem Follows.smoothedSizes_of_onLine (hfollows : Follows w (.start d) samples t) (hw : 0 < w)
    (h : Sample.OnLine first step size rise samples) (hkeep : d.KeepsLines) :
    t.smoothedSizes.toList = t.rawSizes.toList.map fun raw => (raw.toInt : ℚ) := by
  rw [hfollows.toList_smoothedSizes hw, hfollows.toList_rawSizes hw, levels_of_onLine h hkeep,
    rawValues, Ring.rtake_map, List.map_map]
  rfl

/-- **Linear growth is measured exactly.**  In exact arithmetic a trend under double smoothing, or
under simple smoothing with `alpha = 1`, is given samples whose times go up by `step` and whose
sizes go up, or down, by `rise`.  After each of them every size is smoothed to itself.  From the one
on that fills the window the reported slope is `rise / step` in the scale of the policy, to two
decimals, and the queue counts as growing exactly if this is above the threshold. -/
theorem linear_growth_is_exact {s : SmoothingSettings ℚ} (hvalid : s.damping.IsValid)
    (hkeep : s.damping.KeepsLines) {w : ℕ} (hw : 2 ≤ w) {policy : GrowthPolicy ℚ}
    (hpolicy : policy.validate = .ok ()) {first step size rise : ℤ} (hstep : 0 < step)
    (queue : String) :
    ∃ smoother t, Smoother.ofSettings s = .ok smoother ∧
      start queue w smoother policy = .ok t ∧
      ∀ samples, Sample.OnLine first step size rise samples → ∀ n < samples.length,
        let now := t.recordAll (samples.take (n + 1))
        (now.lastRaw.toInt = size + rise * n ∧ now.lastSmoothed = now.lastRaw.toInt) ∧
        now.smoothedSizes.toList = now.rawSizes.toList.map (fun raw => (raw.toInt : ℚ)) ∧
        (w ≤ n + 1 →
          RoundsTo (1 / 100) (rise / step * policy.slopeScale) now.currentSlope ∧
            (now.isGrowing = true ↔ policy.threshold < now.currentSlope)) := by
  refine ⟨_, _, Smoother.ofSettings_eq_ok_iff.2 ⟨hvalid, rfl⟩,
    start_eq_ok_iff.2 ⟨hpolicy, hw, rfl⟩, ?_⟩
  intro samples hline n hn now
  have htaken := hline.take (n + 1)
  have hlength : (samples.take (n + 1)).length = n + 1 := by
    rw [List.length_take]
    omega
  have horder := htaken.inOrder hstep
  have hreports : Reports queue w (.start s.damping) _ now := reports_recordAll horder
  have hfollows : Follows w (.start s.damping) (samples.take (n + 1)) now :=
    follows_recordAll horder
  refine ⟨hreports.last_of_onLine htaken hkeep hlength,
    hfollows.smoothedSizes_of_onLine (by omega) htaken hkeep, fun hfull => ⟨?_, ?_⟩⟩
  · have hslope := slope_of_onLine htaken hstep hkeep hw (by omega)
    rw [currentSlope_recordAll_rat (by omega) horder, if_pos (by omega), hslope]
    exact policy.roundsTo_scale (rise / step)
  · rw [isGrowing, recordAll_policy, Scalar.lt_rat, decide_eq_true_iff]
    rfl

/-- One more in eight milliseconds is `0.125`, half way between two hundredths, and is reported as
`0.13`. -/
theorem linear_growth_is_exact_half_way :
    ∃ smoother t, Smoother.ofSettings (⟨.double, 1 / 3, 1 / 7, 0, 1⟩ : SmoothingSettings ℚ) =
        .ok smoother ∧
      start "orders" 2 smoother ⟨1 / 8, 1⟩ = .ok t ∧
      let now := t.recordAll [⟨100, 5⟩, ⟨108, 6⟩, ⟨116, 7⟩]
      now.lastSmoothed = 7 ∧ now.currentSlope = 13 / 100 ∧ now.isGrowing = true := by
  have halpha : Scalar.isUnit (1 / 3 : ℚ) = true := Scalar.isUnit_rat_iff.2 (by norm_num)
  have hbeta : Scalar.isUnit (1 / 7 : ℚ) = true := Scalar.isUnit_rat_iff.2 (by norm_num)
  have hpolicy : GrowthPolicy.validate (⟨1 / 8, 1⟩ : GrowthPolicy ℚ) = .ok () :=
    GrowthPolicy.validate_rat_iff.2 (by norm_num)
  have hline : Sample.OnLine 100 8 5 1 [⟨100, 5⟩, ⟨108, 6⟩, ⟨116, 7⟩] :=
    ⟨by decide, by decide, by decide⟩
  obtain ⟨smoother, t, hsmoother, hstart, hrun⟩ :=
    linear_growth_is_exact (s := ⟨.double, 1 / 3, 1 / 7, 0, 1⟩) ⟨halpha, hbeta⟩ trivial
      (le_refl 2) hpolicy (by decide : (0 : ℤ) < 8) "orders"
  obtain ⟨⟨hraw, hsmoothed⟩, -, hfull⟩ := hrun _ hline 2 (by decide)
  obtain ⟨hslope, hgrowing⟩ := hfull (by decide)
  have hhalf : RoundsTo (1 / 100) ((1 : ℤ) / (8 : ℤ) * 1) (13 / 100) :=
    ⟨⟨13, by norm_num⟩, by norm_num [abs_le], by norm_num [abs_lt]⟩
  have hreported := hslope.unique hhalf (by norm_num)
  refine ⟨smoother, t, hsmoother, hstart, ?_, hreported, ?_⟩
  · rw [hraw] at hsmoothed
    exact hsmoothed.trans (by norm_num)
  · apply hgrowing.2
    rw [hreported]
    norm_num

end QueueTrend

end Backlog
