import Backlog.Proofs.Table
import Backlog.Proofs.Trend.Run

/-!
# The readings of a round

`Round.take` can do one of four things with a reading, and `Round.Taken` lists them with
the conditions under which each of them happens.  Every fact about rounds is read off this
list once for a single reading and carried through a round by induction on its readings:

* `Round.Sound`: the trends stand under their own ids and go by the policy of the settings,
  so the verdict on each recorded queue is the comparison of its published slope with the
  threshold of the settings;
* `Round.recorded_queues`: the queues with a new sample are among the queues that were
  read, in their order.
-/

namespace Backlog

variable {α : Type} [Scalar α]

/-! ## Trends under another policy -/

namespace QueueTrend

omit [Scalar α] in
@[simp] theorem withPolicy_queue (t : QueueTrend α) (policy : GrowthPolicy α) :
    (t.withPolicy policy).queue = t.queue := rfl

omit [Scalar α] in
@[simp] theorem withPolicy_policy (t : QueueTrend α) (policy : GrowthPolicy α) :
    (t.withPolicy policy).policy = policy := rfl

end QueueTrend

/-! ## Trends that go by one policy -/

/-- Each trend of a table stands under its own id, and all go by one policy. -/
structure TrendsUnder (policy : GrowthPolicy α) (queues : Table (QueueTrend α)) : Prop where
  queue_eq : ∀ {queue trend}, queues.find? queue = some trend → trend.queue = queue
  policy_eq : ∀ {queue trend}, queues.find? queue = some trend → trend.policy = policy

namespace TrendsUnder

variable {policy : GrowthPolicy α} {queues : Table (QueueTrend α)}

omit [Scalar α] in
theorem empty : TrendsUnder policy (.empty : Table (QueueTrend α)) where
  queue_eq h := absurd h (Option.some_ne_none _).symm
  policy_eq h := absurd h (Option.some_ne_none _).symm

omit [Scalar α] in
theorem insert (h : TrendsUnder policy queues) {queue : String} {trend : QueueTrend α}
    (hqueue : trend.queue = queue) (hpolicy : trend.policy = policy) :
    TrendsUnder policy (queues.insert queue trend) := by
  constructor <;> intro q t hfind <;> rw [Table.find?_insert] at hfind <;> split at hfind
  · next heq => rw [← Option.some.inj hfind, hqueue, heq]
  · exact h.queue_eq hfind
  · rw [← Option.some.inj hfind, hpolicy]
  · exact h.policy_eq hfind

omit [Scalar α] in
theorem withPolicy (h : TrendsUnder policy queues) (policy' : GrowthPolicy α) :
    TrendsUnder policy' (queues.map (·.withPolicy policy')) := by
  constructor <;> intro q t hfind <;> rw [Table.find?_map] at hfind <;>
    obtain ⟨old, hold, rfl⟩ := Option.map_eq_some_iff.1 hfind
  · exact (old.withPolicy_queue policy').trans (h.queue_eq hold)
  · exact old.withPolicy_policy policy'

/-- A trend that is looked up in a round, or begun there, is the queue's own. -/
theorem of_trend {settings : MonitorSettings α} {r : Round α}
    (h : TrendsUnder settings.growthPolicy r.queues) {queue : String} {trend : QueueTrend α}
    (htrend : r.trend settings queue = .ok trend) :
    trend.queue = queue ∧ trend.policy = settings.growthPolicy := by
  unfold Round.trend at htrend
  cases hfind : r.queues.find? queue with
  | some known =>
      rw [hfind] at htrend
      cases htrend
      exact ⟨h.queue_eq hfind, h.policy_eq hfind⟩
  | none =>
      rw [hfind] at htrend
      obtain ⟨_, rfl⟩ := QueueTrend.ofSettings_eq_ok_iff.1 htrend
      exact ⟨rfl, rfl⟩

end TrendsUnder

namespace Round

/-! ## One reading -/

/-- What a round makes of a reading, and when. -/
inductive Taken (settings : MonitorSettings α) (r : Round α) (reading : Reading) :
    Round α → Prop
  /-- The source has no sample. -/
  | unread {fault : SourceFault} (houtcome : reading.outcome = .error fault) :
      Taken settings r reading (r.skip reading.queue fault.reason)
  /-- The queue is new, and the settings do not allow to follow it. -/
  | refused {sample : Sample} {cause : SettingFault} (houtcome : reading.outcome = .ok sample)
      (htrend : r.trend settings reading.queue = .error cause) :
      Taken settings r reading (r.skip reading.queue (Fault.invalidConfig cause).message)
  /-- The sample is older than the last one. -/
  | late {sample : Sample} {trend : QueueTrend α} {previous : Int64}
      (houtcome : reading.outcome = .ok sample)
      (htrend : r.trend settings reading.queue = .ok trend)
      (hlatest : trend.timestamps.latest? = some previous)
      (hlt : sample.timestamp < previous) :
      Taken settings r reading
        (skip { r with queues := r.queues.insert reading.queue trend } reading.queue
          ("timestamp " ++ decimalText sample.timestamp.toInt ++ " precedes previous sample "
            ++ decimalText previous.toInt))
  /-- The sample is recorded. -/
  | recorded {sample : Sample} {trend : QueueTrend α} (houtcome : reading.outcome = .ok sample)
      (htrend : r.trend settings reading.queue = .ok trend)
      (hnot : ∀ previous, trend.timestamps.latest? = some previous →
        ¬sample.timestamp < previous) :
      Taken settings r reading
        { r with
          queues := r.queues.insert reading.queue (trend.accept sample.timestamp sample.ready)
          recorded := r.recorded ++ [((trend.accept sample.timestamp sample.ready).snapshot,
            (trend.accept sample.timestamp sample.ready).isGrowing)] }

theorem taken (settings : MonitorSettings α) (r : Round α) (reading : Reading) :
    Taken settings r reading (r.take settings reading) := by
  unfold take
  cases houtcome : reading.outcome with
  | error fault => exact .unread houtcome
  | ok sample =>
      cases htrend : r.trend settings reading.queue with
      | error cause => exact .refused houtcome htrend
      | ok trend =>
          by_cases hlate : ∃ previous, trend.timestamps.latest? = some previous ∧
              sample.timestamp < previous
          · obtain ⟨previous, hlatest, hlt⟩ := hlate
            simp only [record, QueueTrend.record_of_lt hlatest hlt]
            exact .late houtcome htrend hlatest hlt
          · have hnot : ∀ previous, trend.timestamps.latest? = some previous →
                ¬sample.timestamp < previous :=
              fun previous hlatest hlt => hlate ⟨previous, hlatest, hlt⟩
            simp only [record, QueueTrend.record_of_not_lt hnot]
            exact .recorded houtcome htrend hnot

/-! ## A round under the policy of its settings -/

/-- The trends of a round go by the policy of the settings, and so do its verdicts. -/
structure Sound (settings : MonitorSettings α) (r : Round α) : Prop where
  trends : TrendsUnder settings.growthPolicy r.queues
  verdict : ∀ {s : QueueSnapshot α} {isGrowing : Bool}, (s, isGrowing) ∈ r.recorded →
    isGrowing = Scalar.lt settings.growthThreshold s.currentSlope

theorem Sound.take {settings : MonitorSettings α} {r : Round α} (h : r.Sound settings)
    (reading : Reading) : (r.take settings reading).Sound settings := by
  have htaken := r.taken settings reading
  generalize r.take settings reading = r' at htaken ⊢
  cases htaken with
  | unread => exact ⟨h.trends, h.verdict⟩
  | refused => exact ⟨h.trends, h.verdict⟩
  | late _ htrend =>
      obtain ⟨hqueue, hpolicy⟩ := h.trends.of_trend htrend
      exact ⟨h.trends.insert hqueue hpolicy, h.verdict⟩
  | @recorded sample trend _ htrend =>
      obtain ⟨hqueue, hpolicy⟩ := h.trends.of_trend htrend
      refine ⟨h.trends.insert hqueue hpolicy, fun hmem => ?_⟩
      rcases List.mem_append.1 hmem with hold | hnew
      · exact h.verdict hold
      · cases List.mem_singleton.1 hnew
        rw [QueueTrend.isGrowing, QueueTrend.accept_policy, hpolicy]
        rfl

theorem Sound.foldl {settings : MonitorSettings α} (readings : List Reading) {r : Round α}
    (h : r.Sound settings) : (readings.foldl (Round.take settings) r).Sound settings := by
  induction readings generalizing r with
  | nil => exact h
  | cons reading rest ih => exact ih (h.take reading)

/-! ## The queues with a new sample -/

theorem recorded_queues {settings : MonitorSettings α} (readings : List Reading) {r : Round α}
    (h : r.Sound settings) :
    ∃ ids, ids.Sublist (readings.map (·.queue)) ∧
      (readings.foldl (Round.take settings) r).recorded.map (·.1.queue) =
        r.recorded.map (·.1.queue) ++ ids := by
  induction readings generalizing r with
  | nil => exact ⟨[], .refl _, (List.append_nil _).symm⟩
  | cons reading rest ih =>
      obtain ⟨ids, hsub, heq⟩ := ih (h.take reading)
      have htaken := r.taken settings reading
      rw [List.foldl_cons, heq, List.map_cons]
      generalize r.take settings reading = r' at htaken
      cases htaken with
      | unread => exact ⟨ids, hsub.cons _, rfl⟩
      | refused => exact ⟨ids, hsub.cons _, rfl⟩
      | late => exact ⟨ids, hsub.cons _, rfl⟩
      | @recorded sample trend _ htrend =>
          refine ⟨reading.queue :: ids, hsub.cons_cons _, ?_⟩
          have hqueue : (trend.accept sample.timestamp sample.ready).snapshot.queue =
              reading.queue := (h.trends.of_trend htrend).1
          rw [List.map_append, List.append_assoc, List.map_singleton, hqueue]
          rfl

end Round

end Backlog
