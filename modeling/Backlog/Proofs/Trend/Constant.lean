import Backlog.Proofs.Trend.Run
import Mathlib.Tactic.NormNum

/-!
# Constant backlogs

A backlog that stays at `c` is smoothed to `c` as long as `Damping.KeepsLevel` says so, and
then its slope is zero (`QueueTrend.steady_of_keepsLevel`).

The condition cannot be dropped.  Once the first season of triple smoothing is complete, the
level leaves `c`, and as soon as the window holds both levels there is a row of time stamps
that shows: all samples up to some point at one time and all others a millisecond later
(`QueueTrend.exists_slope_ne_zero`).  So `QueueTrend.constant_steady_iff` is exact: it gives
the number of samples for which a constant backlog is reported with slope zero.
-/

namespace Backlog

/-- Some policy reports a slope that is not zero as such. -/
theorem GrowthPolicy.exists_scale_ne_zero {slope : ℚ} (h : slope ≠ 0) :
    ∃ p : GrowthPolicy ℚ, p.validate = .ok () ∧ p.scale slope ≠ 0 := by
  have hpos : 0 < |slope|⁻¹ := inv_pos.2 (abs_pos.2 h)
  refine ⟨⟨0, |slope|⁻¹⟩, validate_rat_iff.2 ⟨le_rfl, hpos⟩, ?_⟩
  rw [scale_rat]
  rcases lt_or_gt_of_ne h with hneg | hgt
  · have hunit : slope * |slope|⁻¹ = -1 := by
      rw [abs_of_neg hneg, inv_neg, mul_neg, mul_inv_cancel₀ h]
    rw [hunit]
    decide +kernel
  · have hunit : slope * |slope|⁻¹ = 1 := by
      rw [abs_of_pos hgt, mul_inv_cancel₀ h]
    rw [hunit]
    decide +kernel

namespace QueueTrend

/-! ## Samples that jump -/

/-- Samples of one size, the first `m` at time zero and `k` more a millisecond later. -/
def jumpSamples (c : Int64) (m k : ℕ) : List Sample := .replicate m ⟨0, c⟩ ++ .replicate k ⟨1, c⟩

theorem inOrder_jumpSamples (c : Int64) (m k : ℕ) : InOrder (jumpSamples c m k) := by
  refine List.pairwise_append.2 ⟨?_, ?_, ?_⟩
  · exact List.pairwise_replicate.2 (.inr (Int64.le_refl 0))
  · exact List.pairwise_replicate.2 (.inr (Int64.le_refl 1))
  · intro a ha b hb
    rw [List.eq_of_mem_replicate ha, List.eq_of_mem_replicate hb]
    exact (by decide : (0 : Int64) ≤ 1)

theorem ready_jumpSamples {c : Int64} {m k : ℕ} : ∀ s ∈ jumpSamples c m k, s.ready = c := by
  intro s hs
  rcases List.mem_append.1 hs with hs | hs
  · rw [List.eq_of_mem_replicate hs]
  · rw [List.eq_of_mem_replicate hs]

@[simp] theorem length_jumpSamples (c : Int64) (m k : ℕ) :
    (jumpSamples c m k).length = m + k := by
  simp [jumpSamples]

theorem offsets_jumpSamples (c : Int64) {m : ℕ} (hm : 0 < m) (k : ℕ) :
    Sample.offsets (jumpSamples c m k) = .replicate m 0 ++ .replicate k 1 := by
  obtain ⟨j, rfl⟩ : ∃ j, m = j + 1 := ⟨m - 1, by omega⟩
  have hzero : saturatingSub 0 0 = 0 := by decide
  have hone : saturatingSub 1 0 = 1 := by decide
  rw [jumpSamples, List.replicate_succ, List.cons_append]
  simp [Sample.offsets, hzero, hone, List.replicate_succ]

theorem rawValues_of_ready {c : Int64} {samples : List Sample} (h : ∀ s ∈ samples, s.ready = c) :
    (rawValues samples : List ℚ) = .replicate samples.length (c.toInt : ℚ) := by
  refine List.eq_replicate_iff.2 ⟨length_rawValues samples, fun v hv => ?_⟩
  obtain ⟨s, hs, rfl⟩ := List.mem_map.1 hv
  rw [h s hs, Scalar.ofInt_rat]

theorem zip_replicate_left {β γ : Type} (x : β) (ys : List γ) :
    (List.replicate ys.length x).zip ys = ys.map (x, ·) := by
  induction ys with
  | nil => rfl
  | cons y ys ih =>
      rw [List.length_cons, List.replicate_succ, List.zip_cons_cons, ih, List.map_cons]

/-- The window over such samples: the levels `as` at zero and the levels `bs` at one. -/
theorem rtake_points_jumpSamples {initial : Smoother ℚ} {c : Int64} {n : ℕ}
    {before as bs : List ℚ} (has : as ≠ [])
    (hlevels : initial.levels (.replicate n (c.toInt : ℚ)) = before ++ (as ++ bs)) :
    (points initial (jumpSamples c (before.length + as.length) bs.length)).rtake
      (as.length + bs.length) = jump as bs := by
  have hn : n = before.length + as.length + bs.length := by
    simpa [Nat.add_assoc] using congrArg List.length hlevels
  have hpos : 0 < before.length + as.length :=
    Nat.add_pos_right _ (List.length_pos_iff.2 has)
  have hpoints : points initial (jumpSamples c (before.length + as.length) bs.length) =
      before.map (0, ·) ++ jump as bs := by
    rw [points, offsets_jumpSamples c hpos, rawValues_of_ready ready_jumpSamples,
      length_jumpSamples, ← hn, hlevels, ← List.append_assoc, List.map_append, List.map_replicate,
      List.map_replicate, List.zip_append (by simp), ← List.length_append, zip_replicate_left,
      zip_replicate_left]
    simp [jump]
  rw [hpoints, List.rtake]
  simp

/-! ## How long a constant backlog is steady -/

/-- The shortest run that fills the window and has the first level that leaves `c` in it: the
window holds this level and a level `c`. -/
theorem exists_uneven_window {alpha beta gamma c : ℚ} {period w : ℕ}
    (hvalid : (Damping.triple alpha beta gamma period).IsValid) (hw : 2 ≤ w) :
    ∃ k ys, k + w = max w (period + 1) ∧ c ∈ ys ∧ (1 - alpha) * c ∈ ys ∧
      (Smoother.start (.triple alpha beta gamma period)).levels (.replicate (k + w) c) =
        .replicate k c ++ ys := by
  have hpos : 0 < period := hvalid.2.2.2
  obtain ⟨k, hk⟩ : ∃ k, k + w = max w (period + 1) := ⟨max w (period + 1) - w, by omega⟩
  obtain ⟨m, hm⟩ : ∃ m, period = k + (m + 1) := ⟨period - k - 1, by omega⟩
  obtain ⟨rest, hseason⟩ := Smoother.levels_of_season (c := c) (n := k + w) hvalid (by omega)
  refine ⟨k, .replicate (m + 1) c ++ (1 - alpha) * c :: rest, hk, ?_, ?_, ?_⟩
  · exact List.mem_append_left _ List.mem_cons_self
  · exact List.mem_append_right _ List.mem_cons_self
  · rw [hseason, ← List.append_assoc, ← List.replicate_add, ← hm]

/-- Where the level leaves `c`, some policy and some time stamps show it. -/
theorem exists_slope_ne_zero {alpha beta gamma : ℚ} {period w n : ℕ} {c : Int64}
    (hvalid : (Damping.triple alpha beta gamma period).IsValid) (halpha : alpha ≠ 0)
    (hc : (c.toInt : ℚ) ≠ 0) (hw : 2 ≤ w) (hwn : w ≤ n) (hperiod : period < n) (queue : String) :
    ∃ policy samples, policy.validate = .ok () ∧ InOrder samples ∧ samples.length ≤ n ∧
      (∀ s ∈ samples, s.ready = c) ∧
      ((fresh queue w (.start (.triple alpha beta gamma period)) policy).recordAll
        samples).currentSlope ≠ 0 := by
  obtain ⟨k, ys, hk, hstay, hleft, hlevels⟩ := exists_uneven_window (c := c.toInt) hvalid hw
  have hne : (c.toInt : ℚ) ≠ (1 - alpha) * c.toInt := by
    intro heq
    have hzero : alpha * (c.toInt : ℚ) = 0 := by linarith
    exact mul_ne_zero halpha hc hzero
  obtain ⟨as, bs, has, rfl, hslope⟩ := exists_jump hstay hleft hne
  obtain ⟨policy, hpolicy, hscale⟩ := GrowthPolicy.exists_scale_ne_zero hslope
  have hlength : w = as.length + bs.length := by
    have hsum : k + w = k + (as.length + bs.length) := by
      simpa using congrArg List.length hlevels
    omega
  have hwindow := rtake_points_jumpSamples has hlevels
  rw [List.length_replicate, ← hlength] at hwindow
  refine ⟨policy, jumpSamples c (k + as.length) bs.length, hpolicy, inOrder_jumpSamples _ _ _, ?_,
    ready_jumpSamples, ?_⟩
  · rw [length_jumpSamples]
    omega
  · rw [currentSlope_recordAll_rat (by omega) (inOrder_jumpSamples _ _ _), length_jumpSamples,
      if_pos (by omega), hwindow]
    exact hscale

theorem exists_slope_of_not_keepsLevel {d : Damping ℚ} {w n : ℕ} {c : Int64}
    (hvalid : d.IsValid) (hleaves : ¬d.KeepsLevel c.toInt n) (hw : 2 ≤ w) (hwn : w ≤ n)
    (queue : String) :
    ∃ policy samples, policy.validate = .ok () ∧ InOrder samples ∧ samples.length ≤ n ∧
      (∀ s ∈ samples, s.ready = c) ∧
      ((fresh queue w (.start d) policy).recordAll samples).currentSlope ≠ 0 := by
  cases d with
  | simple alpha => exact absurd trivial hleaves
  | double alpha beta => exact absurd trivial hleaves
  | triple alpha beta gamma period =>
      obtain ⟨halpha, hrest⟩ := not_or.1 hleaves
      obtain ⟨hc, hperiod⟩ := not_or.1 hrest
      exact exists_slope_ne_zero hvalid halpha hc hw hwn (Nat.not_le.1 hperiod) queue

/-- Up to `n` samples of the size `c`, in the order of time, are reported with slope zero and
not as growth, whichever queue they are of. -/
def SteadyUnder (settings : MonitorSettings ℚ) (c : Int64) (n : ℕ) : Prop :=
  ∀ queue, ∃ t, ofSettings queue settings = .ok t ∧
    ∀ samples : List Sample, InOrder samples → samples.length ≤ n →
      (∀ s ∈ samples, s.ready = c) →
        (t.recordAll samples).currentSlope = 0 ∧ (t.recordAll samples).isGrowing = false

/-- A window of two samples and a season of one. -/
def seasonalSettings : MonitorSettings ℚ :=
  ⟨2, 0, 1, 60000, true, ⟨.triple, 7 / 8, 1, 0, 1⟩⟩

theorem seasonalSettings_isAccepted : seasonalSettings.IsAccepted where
  damping := by
    have halpha : Scalar.isUnit (7 / 8 : ℚ) = true := Scalar.isUnit_rat_iff.2 (by norm_num)
    have hbeta : Scalar.isUnit (1 : ℚ) = true := Scalar.isUnit_rat_iff.2 (by norm_num)
    have hgamma : Scalar.isUnit (0 : ℚ) = true := Scalar.isUnit_rat_iff.2 (by norm_num)
    exact ⟨halpha, hbeta, hgamma, Nat.one_pos⟩
  policy := GrowthPolicy.validate_rat_iff.2 ⟨le_rfl, one_pos⟩
  window := le_rfl

/-- The fourth of four samples of one size is reported as growth: the levels are
`64, 8, -6, -5/2`. -/
theorem not_steady_under_all_settings :
    ¬∀ settings m, Monitor.start settings = .ok m → ∀ c n, SteadyUnder settings c n := by
  intro hall
  have hstart := Monitor.start_eq_ok_iff.2 ⟨seasonalSettings_isAccepted, rfl⟩
  obtain ⟨t, ht, hrun⟩ := hall seasonalSettings _ hstart 64 4 "bills"
  obtain ⟨-, rfl⟩ := ofSettings_eq_ok_iff.1 ht
  have hquiet := (hrun [⟨0, 64⟩, ⟨1, 64⟩, ⟨2, 64⟩, ⟨3, 64⟩] (by decide) le_rfl (by decide)).2
  have hgrowing : ((seasonalSettings.freshTrend "bills").recordAll
      [⟨0, 64⟩, ⟨1, 64⟩, ⟨2, 64⟩, ⟨3, 64⟩]).isGrowing = true := by decide +kernel
  exact Bool.false_ne_true (hquiet.symm.trans hgrowing)

theorem steady_of_slope {settings : MonitorSettings ℚ} {c : Int64} {n : ℕ}
    (haccepted : settings.IsAccepted)
    (hslope : ∀ queue (samples : List Sample), InOrder samples → samples.length ≤ n →
      (∀ s ∈ samples, s.ready = c) →
        ((settings.freshTrend queue).recordAll samples).currentSlope = 0) :
    SteadyUnder settings c n := by
  intro queue
  refine ⟨_, ofSettings_eq_ok_iff.2 ⟨haccepted, rfl⟩, ?_⟩
  intro samples horder hlength hready
  have hzero := hslope queue samples horder hlength hready
  refine ⟨hzero, isGrowing_eq_false ?_ hzero.le⟩
  rw [recordAll_policy]
  exact (GrowthPolicy.validate_rat_iff.1 haccepted.policy).1

theorem steady_of_lt_window {settings : MonitorSettings ℚ} (haccepted : settings.IsAccepted)
    (c : Int64) {n : ℕ} (hn : n < settings.windowSize) : SteadyUnder settings c n := by
  refine steady_of_slope haccepted fun queue samples horder hlength _ => ?_
  rw [MonitorSettings.freshTrend, currentSlope_recordAll_rat (by omega) horder, if_neg (by omega)]

theorem steady_of_keepsLevel {settings : MonitorSettings ℚ} (haccepted : settings.IsAccepted)
    {c : Int64} {n : ℕ} (hkeep : settings.smoothing.damping.KeepsLevel c.toInt n) :
    SteadyUnder settings c n := by
  have hwindow := haccepted.window
  refine steady_of_slope haccepted fun queue samples horder hlength hready => ?_
  refine currentSlope_eq_zero (c := c.toInt) (by omega) horder fun l hl => ?_
  rw [rawValues_of_ready hready,
    Smoother.levels_replicate haccepted.damping (hkeep.mono hlength)] at hl
  exact List.eq_of_mem_replicate hl

/-- In exact arithmetic a constant backlog `c` has slope zero and does not grow through `n`
samples, whatever the policy and the time stamps, exactly if these do not fill the window or
the smoothing keeps `c`: in simple and double mode always, and in triple mode for `α = 0`,
for `c = 0`, or until the first season is complete. -/
theorem constant_steady_iff {s : SmoothingSettings ℚ} (hvalid : s.damping.IsValid) {w : ℕ}
    (hw : 2 ≤ w) (c : Int64) (n : ℕ) :
    (∀ settings m, Monitor.start settings = .ok m → settings.smoothing = s →
      settings.windowSize = w → SteadyUnder settings c n) ↔
      n < w ∨ s.damping.KeepsLevel c.toInt n := by
  constructor
  · intro hall
    by_contra hno
    obtain ⟨hfull, hleaves⟩ := not_or.1 hno
    obtain ⟨policy, samples, hpolicy, horder, hlength, hready, hslope⟩ :=
      exists_slope_of_not_keepsLevel hvalid hleaves hw (Nat.not_lt.1 hfull) ""
    -- the smoothing and the window are given, but the policy is one that shows the slope
    have haccepted : MonitorSettings.IsAccepted
        ⟨w, policy.threshold, policy.slopeScale, 1, false, s⟩ := ⟨hvalid, hpolicy, hw⟩
    have hstart := Monitor.start_eq_ok_iff.2 ⟨haccepted, rfl⟩
    obtain ⟨t, ht, hrun⟩ := hall _ _ hstart rfl rfl ""
    obtain ⟨-, rfl⟩ := ofSettings_eq_ok_iff.1 ht
    exact hslope (hrun samples horder hlength hready).1
  · intro hsteady settings m hstart hsmoothing hwindow
    have haccepted := (Monitor.start_eq_ok_iff.1 hstart).1
    subst hsmoothing hwindow
    rcases hsteady with hn | hkeep
    · exact steady_of_lt_window haccepted c hn
    · exact steady_of_keepsLevel haccepted hkeep

theorem constant_steady_under_double :
    SteadyUnder { seasonalSettings with smoothing := ⟨.double, 7 / 8, 1, 0, 1⟩ } 64 4 := by
  have halpha : Scalar.isUnit (7 / 8 : ℚ) = true := Scalar.isUnit_rat_iff.2 (by norm_num)
  have hbeta : Scalar.isUnit (1 : ℚ) = true := Scalar.isUnit_rat_iff.2 (by norm_num)
  have hvalid : (⟨.double, 7 / 8, 1, 0, 1⟩ : SmoothingSettings ℚ).damping.IsValid := ⟨halpha, hbeta⟩
  have haccepted : MonitorSettings.IsAccepted
      { seasonalSettings with smoothing := ⟨.double, 7 / 8, 1, 0, 1⟩ } :=
    ⟨hvalid, seasonalSettings_isAccepted.policy, seasonalSettings_isAccepted.window⟩
  have hstart := Monitor.start_eq_ok_iff.2 ⟨haccepted, rfl⟩
  exact (constant_steady_iff hvalid (le_refl 2) 64 4).2 (.inr trivial) _ _ hstart rfl rfl

end QueueTrend

end Backlog
