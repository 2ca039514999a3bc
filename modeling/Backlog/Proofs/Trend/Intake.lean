import Backlog.Proofs.Trend.Regression
import Backlog.Proofs.Trend.Smoothing

/-!
# What a trend has taken in

A trend is called with samples, some of which come late, and with policies.  What there is to know
about a row of calls is its `TrendIntake`: the samples that came in time, each with the policy that
was in force when it came, and the policy in force now.  An intake is read off the calls alone; it
knows nothing of windows, smoothers and sums.

A trend is a function of the intake (`QueueTrend.Reports`).  Without the policies (`Follows`):

* the smoother has taken in the raw sizes;
* the three rings are windows of the time stamps, the raw sizes and the levels;
* the regression has been pushed the levels over the time since the first sample
  (`QueueTrend.points`).

The reported slope is zero until the window is full, and from then on that of the regression,
scaled by the policy of the last sample.  One lemma for each call says that a trend goes on
reporting its intake, and `QueueTrend.reports_run` says so of every row of calls.
-/

namespace Backlog

/-- The time from the first sample to each sample of a row. -/
def Sample.offsets : List Sample → List Int
  | [] => []
  | first :: rest => (first :: rest).map fun s => saturatingSub s.timestamp first.timestamp

theorem Sample.offsets_concat (samples : List Sample) (s : Sample) :
    offsets (samples ++ [s]) = offsets samples ++
      [saturatingSub s.timestamp ((samples.head?.map (·.timestamp)).getD s.timestamp)] := by
  cases samples with
  | nil => rfl
  | cons first rest => simp [offsets]

@[simp] theorem Sample.length_offsets (samples : List Sample) :
    (offsets samples).length = samples.length := by
  cases samples <;> simp [offsets]

namespace QueueTrend

variable {α : Type} [Scalar α]

/-! ## One sample -/

@[simp] theorem accept_policy (t : QueueTrend α) (timestamp raw : Int64) :
    (t.accept timestamp raw).policy = t.policy := rfl

theorem currentSlope_accept (t : QueueTrend α) (timestamp raw : Int64) :
    (t.accept timestamp raw).currentSlope =
      if (t.accept timestamp raw).windowSize ≤ (t.accept timestamp raw).regression.points.size then
        t.policy.scale (t.accept timestamp raw).regression.slope
      else t.currentSlope := rfl

theorem record_of_lt {t : QueueTrend α} {timestamp previous raw : Int64}
    (hlatest : t.timestamps.latest? = some previous) (hlt : timestamp < previous) :
    t.record timestamp raw = (.outOfOrder previous timestamp, t) := by
  simp only [record, hlatest, if_pos hlt]

theorem record_of_not_lt {t : QueueTrend α} {timestamp raw : Int64}
    (h : ∀ previous, t.timestamps.latest? = some previous → ¬timestamp < previous) :
    t.record timestamp raw = (.accepted, t.accept timestamp raw) := by
  unfold record
  cases hlatest : t.timestamps.latest? with
  | none => rfl
  | some previous => exact if_neg (h previous hlatest)

/-! ## The samples that were taken in -/

/-- The raw sizes as numbers. -/
def rawValues (samples : List Sample) : List α :=
  samples.map fun s => Scalar.ofInt s.ready.toInt

/-- The smoothed sizes over the time since the first sample. -/
def points (smoother : Smoother α) (samples : List Sample) : List (α × α) :=
  ((Sample.offsets samples).map Scalar.ofInt).zip (smoother.levels (rawValues samples))

@[simp] theorem rawValues_concat (samples : List Sample) (s : Sample) :
    (rawValues (samples ++ [s]) : List α) = rawValues samples ++ [Scalar.ofInt s.ready.toInt] := by
  rw [rawValues, List.map_append]
  rfl

@[simp] theorem length_rawValues (samples : List Sample) :
    (rawValues samples : List α).length = samples.length := List.length_map _

@[simp] theorem length_points (smoother : Smoother α) (samples : List Sample) :
    (points smoother samples).length = samples.length := by
  simp [points]

theorem points_concat (smoother : Smoother α) (samples : List Sample) (s : Sample) :
    points smoother (samples ++ [s]) = points smoother samples ++
      [(Scalar.ofInt
          (saturatingSub s.timestamp ((samples.head?.map (·.timestamp)).getD s.timestamp)),
        (smoother.addAll (rawValues (samples ++ [s]))).level)] := by
  have hlength : ((Sample.offsets samples).map (Scalar.ofInt : Int → α)).length =
      (smoother.levels (rawValues samples)).length := by simp
  rw [points, Sample.offsets_concat, rawValues_concat, Smoother.levels_concat, List.map_append,
    List.zip_append hlength]
  rfl

/-- The trend has taken in these samples, and nothing else, since it was fresh. -/
structure Follows (w : ℕ) (initial : Smoother α) (samples : List Sample) (t : QueueTrend α) :
    Prop where
  windowSize : t.windowSize = w
  smoother : t.smoother = initial.addAll (rawValues samples)
  origin : t.origin = samples.head?.map (·.timestamp)
  timestamps : t.timestamps = (Ring.empty w).pushAll (samples.map (·.timestamp))
  rawSizes : t.rawSizes = (Ring.empty w).pushAll (samples.map (·.ready))
  smoothedSizes : t.smoothedSizes = (Ring.empty w).pushAll (initial.levels (rawValues samples))
  regression : t.regression = Regression.pushAll ⟨.empty, .empty w⟩ (points initial samples)

namespace Follows

variable {w : ℕ} {initial : Smoother α} {samples : List Sample} {t : QueueTrend α}

theorem fresh (queue : String) (w : ℕ) (initial : Smoother α) (policy : GrowthPolicy α) :
    Follows w initial [] (.fresh queue w initial policy) :=
  ⟨rfl, rfl, rfl, rfl, rfl, rfl, rfl⟩

theorem accept (h : Follows w initial samples t) (s : Sample) :
    Follows w initial (samples ++ [s]) (t.accept s.timestamp s.ready) := by
  have hsmoother : t.smoother.add (Scalar.ofInt s.ready.toInt) =
      initial.addAll (rawValues (samples ++ [s])) := by
    rw [h.smoother, rawValues_concat, Smoother.addAll_concat]
  have hlevels : initial.levels (rawValues (samples ++ [s])) = initial.levels (rawValues samples) ++
      [(initial.addAll (rawValues (samples ++ [s]))).level] := by
    rw [rawValues_concat, Smoother.levels_concat]
  constructor
  case windowSize => exact h.windowSize
  case smoother => exact hsmoother
  case origin =>
    show some (t.origin.getD s.timestamp) = _
    rw [h.origin]
    cases samples <;> rfl
  case timestamps =>
    rw [List.map_append, List.map_singleton, Ring.pushAll_concat, ← h.timestamps]
    rfl
  case rawSizes =>
    rw [List.map_append, List.map_singleton, Ring.pushAll_concat, ← h.rawSizes]
    rfl
  case smoothedSizes =>
    rw [hlevels, Ring.pushAll_concat, ← h.smoothedSizes, ← hsmoother]
    rfl
  case regression =>
    rw [points_concat, Regression.pushAll_concat, ← h.regression, ← hsmoother, ← h.origin]
    rfl

theorem latest?_timestamps (h : Follows w initial samples t) :
    t.timestamps.latest? = samples.getLast?.map (·.timestamp) := by
  rw [h.timestamps, Ring.latest?_pushAll, List.getLast?_map]

theorem windowSize_le_iff (h : Follows w initial samples t) :
    t.windowSize ≤ t.regression.points.size ↔ w ≤ samples.length := by
  rw [h.windowSize, h.regression, Regression.points_pushAll, Ring.size_pushAll, length_points]
  omega

end Follows

/-! ## Calls -/

end QueueTrend

/-- What a trend can be called with. -/
inductive TrendCall (α : Type) where
  | record (sample : Sample)
  | setPolicy (policy : GrowthPolicy α)

/-- What became of a row of calls: the samples that came in time, each with the policy in force
when it came, and the policy in force now. -/
structure TrendIntake (α : Type) where
  taken : List (Sample × GrowthPolicy α)
  policy : GrowthPolicy α

namespace TrendIntake

variable {α : Type}

/-- The samples that came in time. -/
def samples (i : TrendIntake α) : List Sample := i.taken.map Prod.fst

/-- A sample is late if it is older than the last one that came in time. -/
def IsLate (i : TrendIntake α) (s : Sample) : Prop :=
  ∃ last ∈ i.samples.getLast?, s.timestamp < last.timestamp

instance (i : TrendIntake α) (s : Sample) : Decidable (i.IsLate s) :=
  inferInstanceAs (Decidable (∃ last ∈ i.samples.getLast?, s.timestamp < last.timestamp))

/-- One more call. -/
def after (i : TrendIntake α) : TrendCall α → TrendIntake α
  | .record s => if i.IsLate s then i else { i with taken := i.taken ++ [(s, i.policy)] }
  | .setPolicy policy => { i with policy }

/-- The intake of a row of calls that begins under a policy. -/
def ofCalls (policy : GrowthPolicy α) (calls : List (TrendCall α)) : TrendIntake α :=
  calls.foldl after ⟨[], policy⟩

theorem ofCalls_concat (policy : GrowthPolicy α) (calls : List (TrendCall α))
    (call : TrendCall α) :
    ofCalls policy (calls ++ [call]) = (ofCalls policy calls).after call := by
  simp [ofCalls]

variable {i : TrendIntake α} {s : Sample}

theorem after_of_late (h : i.IsLate s) : i.after (.record s) = i := if_pos h

theorem after_of_not_late (h : ¬i.IsLate s) :
    i.after (.record s) = { i with taken := i.taken ++ [(s, i.policy)] } := if_neg h

theorem samples_after_of_not_late (h : ¬i.IsLate s) :
    (i.after (.record s)).samples = i.samples ++ [s] := by
  simp [after_of_not_late h, samples]

@[simp] theorem samples_map (samples : List Sample) (policy : GrowthPolicy α) :
    TrendIntake.samples ⟨samples.map (·, policy), policy⟩ = samples := by
  simp [TrendIntake.samples, Function.comp_def]

@[simp] theorem length_samples (i : TrendIntake α) : i.samples.length = i.taken.length :=
  List.length_map _

/-- What is taken in was called for. -/
theorem mem_of_mem_samples {policy : GrowthPolicy α} {calls : List (TrendCall α)}
    (h : s ∈ (ofCalls policy calls).samples) : .record s ∈ calls := by
  induction calls using List.reverseRecOn with
  | nil => simp [ofCalls, samples] at h
  | append_singleton calls call ih =>
      rw [ofCalls_concat] at h
      apply List.mem_append.2
      cases call with
      | setPolicy => exact .inl (ih h)
      | record s' =>
          by_cases hlate : (ofCalls policy calls).IsLate s'
          · rw [after_of_late hlate] at h
            exact .inl (ih h)
          · rw [samples_after_of_not_late hlate] at h
            rcases List.mem_append.1 h with h | h
            · exact .inl (ih h)
            · simp [List.mem_singleton.1 h]

end TrendIntake

namespace QueueTrend

variable {α : Type} [Scalar α]

/-- The trend after a call. -/
def after (t : QueueTrend α) : TrendCall α → QueueTrend α
  | .record s => (t.record s.timestamp s.ready).2
  | .setPolicy policy => t.withPolicy policy

/-- The trend after a row of calls. -/
def run (t : QueueTrend α) (calls : List (TrendCall α)) : QueueTrend α :=
  calls.foldl after t

theorem run_concat (t : QueueTrend α) (calls : List (TrendCall α)) (call : TrendCall α) :
    t.run (calls ++ [call]) = (t.run calls).after call := by
  simp [run]

/-- The trend is what the intake makes of a fresh one. -/
structure Reports (queue : String) (w : ℕ) (initial : Smoother α) (i : TrendIntake α)
    (t : QueueTrend α) : Prop extends Follows w initial i.samples t where
  queue : t.queue = queue
  policy : t.policy = i.policy
  lastRaw : t.lastRaw = (i.samples.getLast?.map (·.ready)).getD 0
  lastSmoothed : t.lastSmoothed =
    (initial.levels (rawValues i.samples)).getLast?.getD Scalar.zero
  waiting : i.taken.length < w → t.currentSlope = Scalar.zero
  scaled : w ≤ i.taken.length → ∀ last ∈ i.taken.getLast?,
    t.currentSlope = last.2.scale t.regression.slope

namespace Reports

variable {queue : String} {w : ℕ} {initial : Smoother α} {i : TrendIntake α} {t : QueueTrend α}

theorem fresh (queue : String) (w : ℕ) (initial : Smoother α) (policy : GrowthPolicy α) :
    Reports queue w initial (.ofCalls policy []) (.fresh queue w initial policy) where
  toFollows := .fresh queue w initial policy
  queue := rfl
  policy := rfl
  lastRaw := rfl
  lastSmoothed := rfl
  waiting := fun _ => rfl
  scaled := fun _ _ hlast => by simp [TrendIntake.ofCalls] at hlast

theorem withPolicy (h : Reports queue w initial i t) (policy : GrowthPolicy α) :
    Reports queue w initial (i.after (.setPolicy policy)) (t.withPolicy policy) where
  toFollows := ⟨h.windowSize, h.smoother, h.origin, h.timestamps, h.rawSizes, h.smoothedSizes,
    h.regression⟩
  queue := h.queue
  policy := rfl
  lastRaw := h.lastRaw
  lastSmoothed := h.lastSmoothed
  waiting := h.waiting
  scaled := h.scaled

/-- A late sample is refused and leaves no trace. -/
theorem record_of_late (h : Reports queue w initial i t) {s last : Sample}
    (hlast : last ∈ i.samples.getLast?) (hlt : s.timestamp < last.timestamp) :
    t.record s.timestamp s.ready = (.outOfOrder last.timestamp s.timestamp, t) := by
  apply record_of_lt _ hlt
  rw [h.latest?_timestamps, hlast]
  rfl

theorem record_of_not_late (h : Reports queue w initial i t) {s : Sample} (hlate : ¬i.IsLate s) :
    t.record s.timestamp s.ready = (.accepted, t.accept s.timestamp s.ready) := by
  apply record_of_not_lt
  intro previous hlatest hlt
  rw [h.latest?_timestamps] at hlatest
  obtain ⟨last, hlast, rfl⟩ := Option.map_eq_some_iff.1 hlatest
  exact hlate ⟨last, hlast, hlt⟩

theorem accepts_iff (h : Reports queue w initial i t) (s : Sample) :
    (t.record s.timestamp s.ready).1 = .accepted ↔ ¬i.IsLate s := by
  constructor
  · rintro haccepted ⟨last, hlast, hlt⟩
    rw [h.record_of_late hlast hlt] at haccepted
    cases haccepted
  · intro hlate
    rw [h.record_of_not_late hlate]

theorem accept (h : Reports queue w initial i t) {s : Sample} (hlate : ¬i.IsLate s) :
    Reports queue w initial (i.after (.record s)) (t.accept s.timestamp s.ready) := by
  have hsamples := TrendIntake.samples_after_of_not_late hlate
  have hfollows : Follows w initial (i.after (.record s)).samples
      (t.accept s.timestamp s.ready) := by
    rw [hsamples]
    exact h.toFollows.accept s
  have hfull := hfollows.windowSize_le_iff
  have hlength : (i.after (.record s)).taken.length = i.taken.length + 1 := by
    simp [TrendIntake.after_of_not_late hlate]
  rw [TrendIntake.length_samples, hlength] at hfull
  constructor
  case toFollows => exact hfollows
  case queue => exact h.queue
  case policy =>
    rw [TrendIntake.after_of_not_late hlate]
    exact h.policy
  case lastRaw =>
    rw [hsamples, List.getLast?_concat]
    rfl
  case lastSmoothed =>
    rw [hsamples, rawValues_concat, Smoother.levels_concat, List.getLast?_concat,
      ← rawValues_concat, ← hsamples, ← hfollows.smoother]
    rfl
  case waiting =>
    intro hshort
    rw [hlength] at hshort
    rw [currentSlope_accept, if_neg (mt hfull.1 (by omega))]
    exact h.waiting (by omega)
  case scaled =>
    intro hlong last hlast
    rw [hlength] at hlong
    rw [TrendIntake.after_of_not_late hlate, List.getLast?_concat] at hlast
    obtain rfl := Option.some.inj hlast
    rw [currentSlope_accept, if_pos (hfull.2 hlong), h.policy]

theorem after (h : Reports queue w initial i t) (call : TrendCall α) :
    Reports queue w initial (i.after call) (t.after call) := by
  cases call with
  | setPolicy policy => exact h.withPolicy policy
  | record s =>
      by_cases hlate : i.IsLate s
      · obtain ⟨last, hlast, hlt⟩ := hlate
        rw [TrendIntake.after_of_late ⟨last, hlast, hlt⟩, QueueTrend.after,
          h.record_of_late hlast hlt]
        exact h
      · rw [QueueTrend.after, h.record_of_not_late hlate]
        exact h.accept hlate

end Reports

/-- After any row of calls a trend reports the intake of this row. -/
theorem reports_run {queue : String} {w : ℕ} {initial : Smoother α} {policy : GrowthPolicy α}
    (calls : List (TrendCall α)) :
    Reports queue w initial (.ofCalls policy calls)
      ((QueueTrend.fresh queue w initial policy).run calls) := by
  induction calls using List.reverseRecOn with
  | nil => exact .fresh queue w initial policy
  | append_singleton calls call ih =>
      rw [run_concat, TrendIntake.ofCalls_concat]
      exact ih.after call

end QueueTrend

end Backlog
