import Backlog.Proofs.Trend.Intake

/-!
# Runs of a trend

What a trend is after a row of samples.  Where the time stamps never go back every sample comes in
time, so the intake of the row is the row itself (`QueueTrend.taken_ofCalls`), and the reported
slope is that of the regression as soon as the window is full
(`QueueTrend.currentSlope_recordAll`).  In exact arithmetic this is the slope of the points in the
window.
-/

namespace Backlog

theorem pairwise_zip {β γ : Type} {R : β → β → Prop} {S : γ → γ → Prop} {xs : List β} {ys : List γ}
    (hxs : xs.Pairwise R) (hys : ys.Pairwise S) :
    (xs.zip ys).Pairwise fun p q => R p.1 q.1 ∧ S p.2 q.2 := by
  induction xs generalizing ys with
  | nil => exact List.Pairwise.nil
  | cons x xs ih =>
      cases ys with
      | nil => exact List.Pairwise.nil
      | cons y ys =>
          obtain ⟨hx, hxs⟩ := List.pairwise_cons.1 hxs
          obtain ⟨hy, hys⟩ := List.pairwise_cons.1 hys
          refine List.pairwise_cons.2 ⟨fun q hq => ?_, ih hxs hys⟩
          obtain ⟨hqx, hqy⟩ := List.of_mem_zip hq
          exact ⟨hx _ hqx, hy _ hqy⟩

theorem saturatingSub_le_saturatingSub {a b : Int64} (h : a ≤ b) (origin : Int64) :
    saturatingSub a origin ≤ saturatingSub b origin := by
  have hle : a.toInt ≤ b.toInt := Int64.le_iff_toInt_le.1 h
  unfold saturatingSub clamp
  omega

namespace QueueTrend

variable {α : Type} [Scalar α]

/-! ## Samples in the order of time -/

/-- The trend after a row of samples, each of which it takes in or refuses. -/
def recordAll (t : QueueTrend α) (samples : List Sample) : QueueTrend α :=
  samples.foldl (fun t s => (t.record s.timestamp s.ready).2) t

theorem recordAll_concat (t : QueueTrend α) (samples : List Sample) (s : Sample) :
    t.recordAll (samples ++ [s]) = ((t.recordAll samples).record s.timestamp s.ready).2 := by
  rw [recordAll, List.foldl_concat]
  rfl

/-- The time stamps of the samples never go back. -/
def InOrder (samples : List Sample) : Prop :=
  samples.Pairwise fun a b => a.timestamp ≤ b.timestamp

instance (samples : List Sample) : Decidable (InOrder samples) :=
  inferInstanceAs (Decidable (samples.Pairwise fun a b => a.timestamp ≤ b.timestamp))

theorem InOrder.concat {samples : List Sample} {s : Sample} (h : InOrder (samples ++ [s])) :
    InOrder samples ∧ ∀ a ∈ samples, a.timestamp ≤ s.timestamp := by
  obtain ⟨hsamples, -, hlast⟩ := List.pairwise_append.1 h
  exact ⟨hsamples, fun a ha => hlast a ha s (List.mem_singleton.2 rfl)⟩

theorem InOrder.pairwise_offsets {samples : List Sample} (h : InOrder samples) :
    (Sample.offsets samples).Pairwise (· ≤ ·) := by
  cases samples with
  | nil => exact List.Pairwise.nil
  | cons first rest => exact h.map _ fun _ _ hle => saturatingSub_le_saturatingSub hle _

variable {queue : String} {w : ℕ} {initial : Smoother α} {policy : GrowthPolicy α}
  {samples : List Sample}

omit [Scalar α] in
/-- Of samples in the order of time none is late. -/
theorem taken_ofCalls (horder : InOrder samples) :
    (TrendIntake.ofCalls policy (samples.map .record)).taken = samples.map (·, policy) ∧
      (TrendIntake.ofCalls policy (samples.map .record)).policy = policy := by
  induction samples using List.reverseRecOn with
  | nil => exact ⟨rfl, rfl⟩
  | append_singleton samples s ih =>
      obtain ⟨hsamples, hlast⟩ := horder.concat
      obtain ⟨htaken, hpolicy⟩ := ih hsamples
      have hlate : ¬(TrendIntake.ofCalls policy (samples.map .record)).IsLate s := by
        rintro ⟨last, hlast', hlt⟩
        have hmem : last ∈ samples := by
          simpa [TrendIntake.samples, htaken] using List.mem_of_getLast? hlast'
        exact Int64.not_lt.2 (hlast last hmem) hlt
      rw [List.map_append, List.map_singleton, TrendIntake.ofCalls_concat,
        TrendIntake.after_of_not_late hlate, htaken, hpolicy]
      simp

theorem recordAll_eq_run (t : QueueTrend α) (samples : List Sample) :
    t.recordAll samples = t.run (samples.map .record) := by
  rw [recordAll, run, List.foldl_map]
  rfl

theorem reports_recordAll (horder : InOrder samples) :
    Reports queue w initial ⟨samples.map (·, policy), policy⟩
      ((fresh queue w initial policy).recordAll samples) := by
  obtain ⟨htaken, hpolicy⟩ :
      (TrendIntake.ofCalls policy (samples.map .record)).taken = _ ∧ _ = policy :=
    taken_ofCalls horder
  have hreports : Reports queue w initial (.ofCalls policy (samples.map .record)) _ :=
    reports_run (samples.map .record)
  rw [recordAll_eq_run, ← htaken]
  nth_rewrite 2 [← hpolicy]
  exact hreports

theorem follows_recordAll (horder : InOrder samples) :
    Follows w initial samples ((fresh queue w initial policy).recordAll samples) := by
  have hreports : Reports queue w initial ⟨samples.map (·, policy), policy⟩ _ :=
    reports_recordAll horder
  have hfollows := hreports.toFollows
  rwa [TrendIntake.samples_map] at hfollows

@[simp] theorem record_policy (t : QueueTrend α) (timestamp raw : Int64) :
    (t.record timestamp raw).2.policy = t.policy := by
  unfold record
  split
  · rfl
  · split <;> rfl

@[simp] theorem recordAll_policy (t : QueueTrend α) (samples : List Sample) :
    (t.recordAll samples).policy = t.policy := by
  induction samples using List.reverseRecOn with
  | nil => rfl
  | append_singleton samples s ih => rw [recordAll_concat, record_policy, ih]

/-- The reported slope is zero until the window is full, and from then on the scaled slope of
the regression. -/
theorem currentSlope_recordAll (hw : 0 < w) (horder : InOrder samples) :
    ((fresh queue w initial policy).recordAll samples).currentSlope =
      if w ≤ samples.length then
        policy.scale (Regression.pushAll ⟨.empty, .empty w⟩ (points initial samples)).slope
      else Scalar.zero := by
  have hreports : Reports queue w initial ⟨samples.map (·, policy), policy⟩ _ :=
    reports_recordAll horder
  by_cases hfull : w ≤ samples.length
  · have hne : samples ≠ [] := List.ne_nil_of_length_pos (by omega)
    have hslope := hreports.scaled (by simpa using hfull) (samples.getLast hne, policy)
      (by simp [List.getLast?_eq_some_getLast hne])
    rw [hslope, hreports.regression, TrendIntake.samples_map, if_pos hfull]
  · rw [if_neg hfull]
    exact hreports.waiting (by simpa using hfull)

/-! ## Reported slopes in exact arithmetic -/

section Exact

variable {w : ℕ} {initial : Smoother ℚ} {policy : GrowthPolicy ℚ}

/-- The slope of the regression is that of the last points. -/
theorem currentSlope_recordAll_rat (hw : 0 < w) (horder : InOrder samples) :
    ((fresh queue w initial policy).recordAll samples).currentSlope =
      if w ≤ samples.length then
        policy.scale (PointSums.ofPoints ((points initial samples).rtake w)).slope
      else 0 := by
  rw [currentSlope_recordAll hw horder, Regression.slope_pushAll, Nat.max_eq_left hw,
    Scalar.zero_rat]

theorem currentSlope_nonpos (hw : 0 < w) (hscale : 0 < policy.slopeScale) (horder : InOrder samples)
    (hlevels : (initial.levels (rawValues samples)).Pairwise (· ≥ ·)) :
    ((fresh queue w initial policy).recordAll samples).currentSlope ≤ 0 := by
  have hpoints : (points initial samples).Pairwise fun p q => p.1 ≤ q.1 ∧ q.2 ≤ p.2 :=
    pairwise_zip (horder.pairwise_offsets.map _ fun _ _ h => Int.cast_le.2 h) hlevels
  rw [currentSlope_recordAll_rat hw horder]
  split
  · exact GrowthPolicy.scale_nonpos hscale
      (PointSums.slope_ofPoints_nonpos (hpoints.sublist (List.drop_sublist _ _)))
  · exact le_rfl

theorem currentSlope_eq_zero (hw : 0 < w) (horder : InOrder samples) {c : ℚ}
    (hlevels : ∀ l ∈ initial.levels (rawValues samples), l = c) :
    ((fresh queue w initial policy).recordAll samples).currentSlope = 0 := by
  have hpoints : ∀ p ∈ (points initial samples).rtake w, p.2 = c := fun p hp =>
    hlevels _ (List.of_mem_zip (List.mem_of_mem_drop hp)).2
  rw [currentSlope_recordAll_rat hw horder, PointSums.slope_ofPoints_eq_zero hpoints,
    GrowthPolicy.scale_zero, ite_self]

end Exact

end QueueTrend

end Backlog
