import Backlog.Proofs.Trend.Intake

/-!
# Samples at another time

A trend looks at times only through their differences: whether a sample is late, and how long it is
since the first one.  The second is held at the ends of the 64-bit range, but it is so as a whole
number, before any rounding, and from the difference alone (`saturatingSub_shift`).  So a row of
samples that all come by the same time earlier or later has the same points, however far apart
they are (`points_shift`), and the intake of such a row is that of the other one at the other time
(`TrendIntake.ofCalls_shift`).  All that a trend publishes is a function of the raw sizes and the
points.
-/

namespace Backlog

/-! ## Shifted times -/

/-- A time stamp `d` later. -/
def shiftTime (d : ℤ) (timestamp : Int64) : Int64 := .ofInt (timestamp.toInt + d)

/-- The sample `d` later. -/
def Sample.shift (d : ℤ) (s : Sample) : Sample := ⟨shiftTime d s.timestamp, s.ready⟩

/-- The time stamp is one also `d` later. -/
def Sample.CanShift (d : ℤ) (s : Sample) : Prop :=
  Int64.minValue.toInt ≤ s.timestamp.toInt + d ∧ s.timestamp.toInt + d ≤ Int64.maxValue.toInt

instance (d : ℤ) (s : Sample) : Decidable (s.CanShift d) :=
  inferInstanceAs (Decidable (_ ∧ _))

/-- What becomes of the sample that comes `d` later. -/
def Recording.shift (d : ℤ) : Recording → Recording
  | .accepted => .accepted
  | .outOfOrder previous received => .outOfOrder (shiftTime d previous) (shiftTime d received)

/-- The call `d` later. -/
def TrendCall.shift {α : Type} (d : ℤ) : TrendCall α → TrendCall α
  | .record s => .record (s.shift d)
  | .setPolicy policy => .setPolicy policy

/-- The intake `d` later. -/
def TrendIntake.shift {α : Type} (d : ℤ) (i : TrendIntake α) : TrendIntake α :=
  { i with taken := i.taken.map fun entry => (entry.1.shift d, entry.2) }

section Sample

variable {d : ℤ} {a b : Sample}

theorem Sample.CanShift.toInt_shift (h : a.CanShift d) :
    (a.shift d).timestamp.toInt = a.timestamp.toInt + d := by
  obtain ⟨hlow, hhigh⟩ := h
  apply Int64.toInt_ofInt_of_le
  · simpa using hlow
  · exact Int.lt_of_le_sub_one hhigh

theorem Sample.CanShift.shift_lt_iff (ha : a.CanShift d) (hb : b.CanShift d) :
    (a.shift d).timestamp < (b.shift d).timestamp ↔ a.timestamp < b.timestamp := by
  rw [Int64.lt_iff_toInt_lt, Int64.lt_iff_toInt_lt, ha.toInt_shift, hb.toInt_shift]
  omega

theorem saturatingSub_shift (ha : a.CanShift d) (hb : b.CanShift d) :
    saturatingSub (a.shift d).timestamp (b.shift d).timestamp =
      saturatingSub a.timestamp b.timestamp := by
  rw [saturatingSub, saturatingSub, ha.toInt_shift, hb.toInt_shift, add_sub_add_right_eq_sub]

theorem Sample.offsets_shift {samples : List Sample} (h : ∀ s ∈ samples, s.CanShift d) :
    offsets (samples.map (·.shift d)) = offsets samples := by
  cases samples with
  | nil => rfl
  | cons first rest =>
      have hfirst := h first List.mem_cons_self
      show (first.shift d :: rest.map (·.shift d)).map
          (fun s => saturatingSub s.timestamp (first.shift d).timestamp) =
        (first :: rest).map fun s => saturatingSub s.timestamp first.timestamp
      rw [← List.map_cons, List.map_map]
      apply List.map_congr_left
      intro s hs
      exact saturatingSub_shift (h s hs) hfirst

end Sample

/-! ## Shifted intakes -/

namespace TrendIntake

variable {α : Type} {d : ℤ} {i : TrendIntake α} {s : Sample}

@[simp] theorem samples_shift (i : TrendIntake α) (d : ℤ) :
    (i.shift d).samples = i.samples.map (·.shift d) := by
  simp [shift, samples, Function.comp_def]

theorem isLate_shift (hi : ∀ a ∈ i.samples, a.CanShift d) (hs : s.CanShift d) :
    (i.shift d).IsLate (s.shift d) ↔ i.IsLate s := by
  have hmember : ∀ last ∈ i.samples.getLast?,
      ((s.shift d).timestamp < (last.shift d).timestamp ↔ s.timestamp < last.timestamp) :=
    fun last hlast => hs.shift_lt_iff (hi last (List.mem_of_getLast? hlast))
  unfold IsLate
  rw [samples_shift, List.getLast?_map]
  constructor
  · rintro ⟨_, hshifted, hlt⟩
    obtain ⟨last, hlast, rfl⟩ := Option.map_eq_some_iff.1 hshifted
    exact ⟨last, hlast, (hmember last hlast).1 hlt⟩
  · rintro ⟨last, hlast, hlt⟩
    exact ⟨last.shift d, Option.map_eq_some_iff.2 ⟨last, hlast, rfl⟩, (hmember last hlast).2 hlt⟩

theorem after_shift (hi : ∀ a ∈ i.samples, a.CanShift d) {call : TrendCall α}
    (hcall : ∀ s, call = .record s → s.CanShift d) :
    (i.shift d).after (call.shift d) = (i.after call).shift d := by
  cases call with
  | setPolicy policy => rfl
  | record s =>
      have hiff := isLate_shift hi (hcall s rfl)
      by_cases hlate : i.IsLate s
      · rw [after_of_late hlate]
        exact after_of_late (hiff.2 hlate)
      · rw [after_of_not_late hlate]
        refine (after_of_not_late (mt hiff.1 hlate)).trans ?_
        simp [shift]

theorem ofCalls_shift {policy : GrowthPolicy α} {calls : List (TrendCall α)}
    (h : ∀ s, .record s ∈ calls → s.CanShift d) :
    ofCalls policy (calls.map (·.shift d)) = (ofCalls policy calls).shift d := by
  induction calls using List.reverseRecOn with
  | nil => rfl
  | append_singleton calls call ih =>
      have hcalls : ∀ s, .record s ∈ calls → s.CanShift d :=
        fun s hs => h s (List.mem_append_left _ hs)
      have hcall : ∀ s, call = .record s → s.CanShift d :=
        fun s hs => h s (by simp [hs])
      rw [List.map_append, List.map_singleton, ofCalls_concat, ofCalls_concat, ih hcalls]
      exact after_shift (fun a ha => hcalls a (mem_of_mem_samples ha)) hcall

end TrendIntake

/-! ## Shifted runs -/

namespace QueueTrend

variable {α : Type} [Scalar α] {d : ℤ}

@[simp] theorem rawValues_shift (samples : List Sample) (d : ℤ) :
    (rawValues (samples.map (·.shift d)) : List α) = rawValues samples := by
  simp [rawValues, Sample.shift, Function.comp_def]

theorem points_shift (smoother : Smoother α) {samples : List Sample}
    (h : ∀ s ∈ samples, s.CanShift d) :
    points smoother (samples.map (·.shift d)) = points smoother samples := by
  rw [points, points, Sample.offsets_shift h, rawValues_shift]

section Reports

variable {queue : String} {w : ℕ} {initial : Smoother α} {i : TrendIntake α} {t t' : QueueTrend α}

/-- What becomes of the next sample. -/
theorem Reports.record_shift (h : Reports queue w initial i t)
    (h' : Reports queue w initial (i.shift d) t') (hi : ∀ a ∈ i.samples, a.CanShift d)
    {s : Sample} (hs : s.CanShift d) :
    (t'.record (s.shift d).timestamp (s.shift d).ready).1 =
      (t.record s.timestamp s.ready).1.shift d := by
  have hiff := TrendIntake.isLate_shift hi hs
  by_cases hlate : i.IsLate s
  · obtain ⟨last, hlast, hlt⟩ := hlate
    have hlast' : last.shift d ∈ (i.shift d).samples.getLast? := by
      rw [TrendIntake.samples_shift, List.getLast?_map]
      exact Option.map_eq_some_iff.2 ⟨last, hlast, rfl⟩
    have hlt' := (hs.shift_lt_iff (hi last (List.mem_of_getLast? hlast))).2 hlt
    rw [h.record_of_late hlast hlt, h'.record_of_late hlast' hlt']
    rfl
  · rw [h.record_of_not_late hlate, h'.record_of_not_late (mt hiff.1 hlate)]
    rfl

theorem Reports.regression_shift (h : Reports queue w initial i t)
    (h' : Reports queue w initial (i.shift d) t') (hi : ∀ a ∈ i.samples, a.CanShift d) :
    t'.regression = t.regression := by
  rw [h.regression, h'.regression, TrendIntake.samples_shift, points_shift initial hi]

theorem Reports.currentSlope_shift (h : Reports queue w initial i t)
    (h' : Reports queue w initial (i.shift d) t') (hw : 0 < w)
    (hi : ∀ a ∈ i.samples, a.CanShift d) : t'.currentSlope = t.currentSlope := by
  have hlength : (i.shift d).taken.length = i.taken.length := List.length_map _
  by_cases hfull : w ≤ i.taken.length
  · have hne : i.taken ≠ [] := List.ne_nil_of_length_pos (by omega)
    have hlast := List.getLast?_eq_some_getLast hne
    -- the policy of the last sample comes with it
    have hlast' : ((i.taken.getLast hne).1.shift d, (i.taken.getLast hne).2) ∈
        (i.shift d).taken.getLast? := by
      rw [TrendIntake.shift, List.getLast?_map, hlast]
      rfl
    rw [h.scaled hfull _ hlast, h'.scaled (by omega) _ hlast', h.regression_shift h' hi]
  · rw [h.waiting (by omega), h'.waiting (by omega)]

theorem Reports.snapshot_shift (h : Reports queue w initial i t)
    (h' : Reports queue w initial (i.shift d) t') (hslope : t'.currentSlope = t.currentSlope) :
    t'.snapshot = t.snapshot := by
  have hraw : t'.lastRaw = t.lastRaw := by
    rw [h.lastRaw, h'.lastRaw, TrendIntake.samples_shift, List.getLast?_map, Option.map_map]
    rfl
  have hsmoothed : t'.lastSmoothed = t.lastSmoothed := by
    rw [h.lastSmoothed, h'.lastSmoothed, TrendIntake.samples_shift, rawValues_shift]
  simp only [snapshot, h.queue, h'.queue, hraw, hsmoothed, hslope]

end Reports

/-- **A trend does not see when its samples come**, only how long after one another.  Where all
samples come by `d` later, and the time stamps still are time stamps, each is accepted or refused
as before, a refusal names the shifted times, and after every call the trend publishes the same. -/
theorem published_at_any_time {queue : String} {w : ℕ} {smoother : Smoother α}
    {policy : GrowthPolicy α} {t : QueueTrend α}
    (hstart : start queue w smoother policy = .ok t) (d : ℤ) (calls : List (TrendCall α))
    (hcalls : ∀ s, .record s ∈ calls → s.CanShift d) :
    let now := t.run calls
    let later := t.run (calls.map (·.shift d))
    (∀ s : Sample, s.CanShift d →
      (later.record (s.shift d).timestamp (s.shift d).ready).1 =
        (now.record s.timestamp s.ready).1.shift d) ∧
    later.snapshot = now.snapshot ∧ later.isGrowing = now.isGrowing ∧
    later.windowCount = now.windowCount ∧ later.deviation = now.deviation := by
  obtain ⟨-, hwindow, rfl⟩ := start_eq_ok_iff.1 hstart
  intro now later
  have hnow : Reports queue w smoother (.ofCalls policy calls) now := reports_run calls
  have hlater : Reports queue w smoother ((TrendIntake.ofCalls policy calls).shift d) later := by
    rw [← TrendIntake.ofCalls_shift hcalls]
    exact reports_run _
  have hsamples : ∀ a ∈ (TrendIntake.ofCalls policy calls).samples, a.CanShift d :=
    fun a ha => hcalls a (TrendIntake.mem_of_mem_samples ha)
  have hpolicy : later.policy = now.policy := hlater.policy.trans hnow.policy.symm
  have hslope : later.currentSlope = now.currentSlope :=
    hnow.currentSlope_shift hlater (by omega) hsamples
  have hsmoother : later.smoother = now.smoother := by
    rw [hnow.smoother, hlater.smoother, TrendIntake.samples_shift, rawValues_shift]
  refine ⟨?_, hnow.snapshot_shift hlater hslope, ?_, ?_, ?_⟩
  · intro s hs
    exact hnow.record_shift hlater hsamples hs
  · rw [isGrowing, isGrowing, hpolicy, hslope]
  · rw [windowCount, windowCount, hnow.regression_shift hlater hsamples]
  · rw [deviation, deviation, hsmoother]

/-- Two samples at the ends of the 64-bit range, so far apart that the time between them is held at
the end of the range too, and a late one: five milliseconds later all is the same. -/
theorem published_at_any_time_over_whole_range :
    start "orders" 2 (.start (.simple 1.0)) .standard = .ok briskTrend ∧
      let calls := [.record ⟨-9223372036854775808, 1⟩, .record ⟨9223372036854775802, 5⟩]
      let later := briskTrend.run
        [.record ⟨-9223372036854775803, 1⟩, .record ⟨9223372036854775807, 5⟩]
      later.snapshot = (briskTrend.run calls).snapshot ∧
        (later.record 5 9).1 = .outOfOrder 9223372036854775807 5 := by
  have hcalls : ∀ s, TrendCall.record s ∈ ([.record ⟨-9223372036854775808, 1⟩,
      .record ⟨9223372036854775802, 5⟩] : List (TrendCall Float)) → s.CanShift 5 := by
    intro s hs
    simp only [List.mem_cons, TrendCall.record.injEq, List.not_mem_nil, or_false] at hs
    rcases hs with rfl | rfl <;> decide
  obtain ⟨hanswer, hsnapshot, -⟩ := published_at_any_time start_briskTrend 5 _ hcalls
  have hlate := hanswer ⟨0, 9⟩ (by decide)
  exact ⟨start_briskTrend, hsnapshot, hlate⟩

end QueueTrend

end Backlog
