import Backlog.Proofs.Trend.Run

/-!
# The windows of a trend

A trend keeps four rows of what it has taken in: time stamps, raw sizes, smoothed sizes, and the
points of its regression.  They are four rings that are pushed one after the other, so that they
hold the same samples rests on two facts: a late sample is refused before any of them is touched,
and as windows over rows of one length they cut off the same front (`Ring.rtake_zip`).

Whether a sample is late is judged by the newest time stamp in the ring.  This is the last one
that was taken in, so the samples taken in are in the order of time (`inOrder_ofCalls`).
-/

namespace Backlog

namespace QueueTrend

/-- A row in the order of time stays so with a sample that is not older than its last. -/
theorem InOrder.append {samples : List Sample} {s : Sample} (h : InOrder samples)
    (hlast : ∀ last ∈ samples.getLast?, last.timestamp ≤ s.timestamp) :
    InOrder (samples ++ [s]) := by
  apply List.pairwise_append.2
  refine ⟨h, List.pairwise_singleton _ _, ?_⟩
  intro a ha b hb
  rw [List.mem_singleton.1 hb]
  induction samples using List.reverseRecOn with
  | nil => simp at ha
  | append_singleton front last _ =>
      have hle : last.timestamp ≤ s.timestamp := hlast last (by simp)
      rcases List.mem_append.1 ha with ha | ha
      · exact Int64.le_trans (h.concat.2 a ha) hle
      · rw [List.mem_singleton.1 ha]
        exact hle

theorem inOrder_ofCalls {α : Type} (policy : GrowthPolicy α) (calls : List (TrendCall α)) :
    InOrder (TrendIntake.ofCalls policy calls).samples := by
  induction calls using List.reverseRecOn with
  | nil => exact List.Pairwise.nil
  | append_singleton calls call ih =>
      rw [TrendIntake.ofCalls_concat]
      cases call with
      | setPolicy => exact ih
      | record s =>
          by_cases hlate : (TrendIntake.ofCalls policy calls).IsLate s
          · rw [TrendIntake.after_of_late hlate]
            exact ih
          · rw [TrendIntake.samples_after_of_not_late hlate]
            apply ih.append
            intro last hlast
            exact Int64.not_lt.1 fun hlt => hlate ⟨last, hlast, hlt⟩

variable {α : Type} [Scalar α]

namespace Follows

variable {w : ℕ} {initial : Smoother α} {samples : List Sample} {t : QueueTrend α}

theorem toList_timestamps (h : Follows w initial samples t) (hw : 0 < w) :
    t.timestamps.toList = (samples.rtake w).map (·.timestamp) := by
  rw [h.timestamps, Ring.toList_pushAll, Nat.max_eq_left hw, Ring.rtake_map]

theorem toList_rawSizes (h : Follows w initial samples t) (hw : 0 < w) :
    t.rawSizes.toList = (samples.rtake w).map (·.ready) := by
  rw [h.rawSizes, Ring.toList_pushAll, Nat.max_eq_left hw, Ring.rtake_map]

theorem toList_smoothedSizes (h : Follows w initial samples t) (hw : 0 < w) :
    t.smoothedSizes.toList = (initial.levels (rawValues samples)).rtake w := by
  rw [h.smoothedSizes, Ring.toList_pushAll, Nat.max_eq_left hw]

theorem toList_points (h : Follows w initial samples t) (hw : 0 < w) :
    t.regression.points.toList =
      (((Sample.offsets samples).rtake w).map Scalar.ofInt).zip t.smoothedSizes.toList := by
  have hlength : ((Sample.offsets samples).map (Scalar.ofInt : Int → α)).length =
      (initial.levels (rawValues samples)).length := by simp
  rw [h.toList_smoothedSizes hw, h.regression, Regression.points_pushAll, Ring.toList_pushAll,
    Nat.max_eq_left hw, points, Ring.rtake_zip hlength, Ring.rtake_map]

end Follows

namespace Reports

variable {queue : String} {w : ℕ} {initial : Smoother α} {i : TrendIntake α} {t : QueueTrend α}

theorem lastRaw_eq (h : Reports queue w initial i t) {last : Sample}
    (hlast : last ∈ i.samples.getLast?) : t.lastRaw = last.ready := by
  rw [h.lastRaw, hlast]
  rfl

/-- There is a level for each sample taken in, and the last one is kept. -/
theorem getLast?_levels (h : Reports queue w initial i t) (hne : i.samples ≠ []) :
    (initial.levels (rawValues i.samples)).getLast? = some t.lastSmoothed := by
  have hlevels : initial.levels (rawValues i.samples) ≠ [] := by
    apply List.ne_nil_of_length_pos
    simpa using List.length_pos_iff.2 hne
  rw [h.lastSmoothed, List.getLast?_eq_some_getLast hlevels]
  rfl

end Reports

/-- **The four windows of a trend are in step.**  After any row of calls a sample is refused exactly
if it is older than the last one taken in, and then nothing is changed; else it is taken in.  The
time stamps, the raw sizes, the smoothed sizes and the points are those of the last samples taken
in, as many as the window holds, in the order of time.  The smoothed sizes are the levels that the
smoother gave to the raw sizes taken in, and the points stand at the time since the first of
them. -/
theorem windows_in_step {queue : String} {w : ℕ} {smoother : Smoother α} {policy : GrowthPolicy α}
    {t : QueueTrend α} (hstart : start queue w smoother policy = .ok t)
    (calls : List (TrendCall α)) :
    let now := t.run calls
    let taken := (TrendIntake.ofCalls policy calls).samples
    let window := taken.rtake w
    (∀ s : Sample,
      (∀ last ∈ taken.getLast?, s.timestamp < last.timestamp →
        now.record s.timestamp s.ready = (.outOfOrder last.timestamp s.timestamp, now) ∧
          (TrendIntake.ofCalls policy (calls ++ [.record s])).samples = taken) ∧
      ((∀ last ∈ taken.getLast?, last.timestamp ≤ s.timestamp) →
        (now.record s.timestamp s.ready).1 = .accepted ∧
          (TrendIntake.ofCalls policy (calls ++ [.record s])).samples = taken ++ [s])) ∧
    (window.length = min taken.length w ∧ InOrder taken) ∧
    (now.timestamps.toList = window.map (·.timestamp) ∧
      now.rawSizes.toList = window.map (·.ready) ∧
      now.smoothedSizes.toList = (smoother.levels (rawValues taken)).rtake w ∧
      now.regression.points.toList =
        (((Sample.offsets taken).rtake w).map Scalar.ofInt).zip now.smoothedSizes.toList) ∧
    ∀ last ∈ taken.getLast?, now.lastRaw = last.ready ∧
      (smoother.levels (rawValues taken)).getLast? = some now.lastSmoothed := by
  obtain ⟨-, hwindow, rfl⟩ := start_eq_ok_iff.1 hstart
  have hw : 0 < w := by omega
  intro now taken window
  have hreports : Reports queue w smoother (.ofCalls policy calls) now := reports_run calls
  refine ⟨fun s => ⟨?_, ?_⟩, ⟨Ring.length_rtake taken w, inOrder_ofCalls policy calls⟩, ?_, ?_⟩
  · intro last hlast hlt
    refine ⟨hreports.record_of_late hlast hlt, ?_⟩
    rw [TrendIntake.ofCalls_concat, TrendIntake.after_of_late ⟨last, hlast, hlt⟩]
  · intro hnewest
    have hlate : ¬(TrendIntake.ofCalls policy calls).IsLate s := by
      rintro ⟨last, hlast, hlt⟩
      exact Int64.not_lt.2 (hnewest last hlast) hlt
    refine ⟨(hreports.accepts_iff s).2 hlate, ?_⟩
    rw [TrendIntake.ofCalls_concat, TrendIntake.samples_after_of_not_late hlate]
  · exact ⟨hreports.toList_timestamps hw, hreports.toList_rawSizes hw,
      hreports.toList_smoothedSizes hw, hreports.toList_points hw⟩
  · intro last hlast
    have hne : taken ≠ [] := List.ne_nil_of_mem (List.mem_of_getLast? hlast)
    exact ⟨hreports.lastRaw_eq hlast, hreports.getLast?_levels hne⟩

/-- Four samples, the second of them late, under a window of two: the late one changes nothing, and
the window is that of the last two others. -/
theorem windows_in_step_of_late :
    start "orders" 2 (.start (.simple 1.0)) .standard = .ok briskTrend ∧
      (briskTrend.run [.record ⟨100, 5⟩]).record 50 500 =
        (.outOfOrder 100 50, briskTrend.run [.record ⟨100, 5⟩]) ∧
      let now := briskTrend.run
        [.record ⟨100, 5⟩, .record ⟨50, 500⟩, .record ⟨100, 7⟩, .record ⟨160, 6⟩]
      now.timestamps.toList = [100, 160] ∧ now.rawSizes.toList = [7, 6] ∧ now.lastRaw = 6 := by
  refine ⟨start_briskTrend, ?_, ?_⟩
  · obtain ⟨hnext, -⟩ := windows_in_step start_briskTrend [.record ⟨100, 5⟩]
    exact ((hnext ⟨50, 500⟩).1 ⟨100, 5⟩ rfl (by decide)).1
  · obtain ⟨-, -, ⟨htimes, hraw, -⟩, hlast⟩ := windows_in_step start_briskTrend
      [.record ⟨100, 5⟩, .record ⟨50, 500⟩, .record ⟨100, 7⟩, .record ⟨160, 6⟩]
    exact ⟨htimes, hraw, (hlast ⟨160, 6⟩ rfl).1⟩

end QueueTrend

end Backlog
