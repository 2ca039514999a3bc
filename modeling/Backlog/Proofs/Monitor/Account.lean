import Backlog.Proofs.Monitor.InForce
import Backlog.Proofs.Monitor.Isolation
import Mathlib.Data.List.Nodup

/-!
# What becomes of the readings of a round

A round is accounted for queue by queue.  What is said about a queue depends on its own samples
alone, and its trend answers each of them in turn (`QueueTrend.answers`): the queue is in the
details if one of them was accepted, it is left out if its source failed or one of them came too
late, and its trend is the one that has taken in those that were accepted
(`Monitor.Accounted`).  A new queue accepts its first sample, so there is no trend without an
accepted sample.

The induction is on the readings from the back; a reading of another queue changes nothing about
the queue, which is what `Round.agreeOn_take_other` says.
-/

namespace Backlog

variable {α : Type} [Scalar α]

/-- The samples that a row of readings has of a queue. -/
def Reading.samplesOf (queue : String) (readings : List Reading) : List Sample :=
  readings.filterMap fun reading =>
    if reading.queue = queue then reading.outcome.toOption else none

namespace Reading

variable {queue : String} {readings : List Reading}

theorem mem_samplesOf {sample : Sample} :
    sample ∈ samplesOf queue readings ↔ ⟨queue, .ok sample⟩ ∈ readings := by
  rw [samplesOf, List.mem_filterMap]
  constructor
  · rintro ⟨⟨id, fault | sample⟩, hmem, heq⟩
    · exact absurd (Option.ite_none_right_eq_some.1 heq).2 nofun
    · obtain ⟨rfl, hsample⟩ := Option.ite_none_right_eq_some.1 heq
      cases hsample
      exact hmem
  · exact fun hmem => ⟨_, hmem, if_pos rfl⟩

theorem samplesOf_ne_nil_iff :
    samplesOf queue readings ≠ [] ↔ ∃ sample, ⟨queue, .ok sample⟩ ∈ readings := by
  simp only [ne_eq, List.eq_nil_iff_forall_not_mem, mem_samplesOf, not_forall, not_not]

/-- A queue is read from with a fault or with a sample. -/
theorem mem_queues_iff :
    queue ∈ readings.map (·.queue) ↔
      (∃ fault, ⟨queue, .error fault⟩ ∈ readings) ∨ samplesOf queue readings ≠ [] := by
  rw [List.mem_map, samplesOf_ne_nil_iff]
  constructor
  · rintro ⟨⟨id, fault | sample⟩, hmem, rfl⟩
    · exact .inl ⟨fault, hmem⟩
    · exact .inr ⟨sample, hmem⟩
  · rintro (⟨fault, hmem⟩ | ⟨sample, hmem⟩)
    · exact ⟨_, hmem, rfl⟩
    · exact ⟨_, hmem, rfl⟩

/-- A queue that is read from once has what was read as its only sample. -/
theorem samplesOf_of_nodup (hnodup : (readings.map (·.queue)).Nodup)
    {outcome : Except SourceFault Sample} (hmem : ⟨queue, outcome⟩ ∈ readings) :
    samplesOf queue readings = outcome.toOption.toList := by
  obtain ⟨front, back, rfl⟩ := List.append_of_mem hmem
  rw [List.map_append, List.map_cons, List.nodup_middle, List.nodup_cons, List.mem_append,
    not_or] at hnodup
  obtain ⟨⟨hfront, hback⟩, -⟩ := hnodup
  have hnone : ∀ others : List Reading, queue ∉ others.map (·.queue) →
      samplesOf queue others = [] :=
    fun others hnot => by_contra fun hne => hnot (mem_queues_iff.2 (.inr hne))
  rw [samplesOf, List.filterMap_append, List.filterMap_cons, if_pos rfl]
  have hfront := hnone front hfront
  have hback := hnone back hback
  rw [samplesOf] at hfront hback
  rw [hfront, hback]
  cases outcome with
  | _ => rfl

end Reading

/-! ## A row of samples and its answers -/

namespace QueueTrend

/-- What becomes of each sample of a row. -/
def answers (t : QueueTrend α) : List Sample → List Recording
  | [] => []
  | s :: rest =>
    (t.record s.timestamp s.ready).1 :: (t.record s.timestamp s.ready).2.answers rest

theorem answers_concat (t : QueueTrend α) (samples : List Sample) (s : Sample) :
    t.answers (samples ++ [s]) =
      t.answers samples ++ [((t.recordAll samples).record s.timestamp s.ready).1] := by
  induction samples generalizing t with
  | nil => rfl
  | cons first rest ih => exact congrArg (_ :: ·) (ih _)

theorem answers_eq_nil_iff {t : QueueTrend α} {samples : List Sample} :
    t.answers samples = [] ↔ samples = [] := by
  cases samples <;> simp [answers]

/-- A sample that is not accepted leaves no trace. -/
theorem record_of_ne_accepted {t : QueueTrend α} {timestamp raw : Int64}
    (h : (t.record timestamp raw).1 ≠ .accepted) : (t.record timestamp raw).2 = t := by
  by_cases hlate : ∃ previous, t.timestamps.latest? = some previous ∧ timestamp < previous
  · obtain ⟨previous, hlatest, hlt⟩ := hlate
    rw [record_of_lt hlatest hlt]
  · rw [record_of_not_lt fun previous hlatest hlt => hlate ⟨previous, hlatest, hlt⟩] at h
    exact absurd rfl h

theorem recordAll_of_notMem_answers {t : QueueTrend α} {samples : List Sample}
    (h : .accepted ∉ t.answers samples) : t.recordAll samples = t := by
  induction samples with
  | nil => rfl
  | cons s rest ih =>
      rw [answers, List.mem_cons, not_or] at h
      obtain ⟨hfirst, hrest⟩ := h
      have hsame := record_of_ne_accepted (Ne.symm hfirst)
      rw [hsame] at hrest
      exact (congrArg (recordAll · rest) hsame).trans (ih hrest)

/-- Of a new queue the first sample is accepted. -/
theorem accepted_mem_answers_fresh {settings : MonitorSettings α} {queue : String}
    {samples : List Sample} (h : samples ≠ []) :
    .accepted ∈ (settings.freshTrend queue).answers samples := by
  cases samples with
  | nil => exact absurd rfl h
  | cons s rest => exact List.mem_cons_self

end QueueTrend

/-! ## A round, queue by queue -/

omit [Scalar α] in
theorem Round.AgreeOn.mem_recorded {queue : String} {r r' : Round α} (h : AgreeOn queue r r') :
    queue ∈ r.recorded.map (·.1.queue) ↔ queue ∈ r'.recorded.map (·.1.queue) := by
  have hmem : ∀ r : Round α, queue ∈ r.recorded.map (·.1.queue) ↔
      queue ∈ (r.recorded.filter (·.1.queue == queue)).map (·.1.queue) := by
    intro r
    simp only [List.mem_map, List.mem_filter, beq_iff_eq]
    constructor
    · rintro ⟨entry, hentry, heq⟩
      exact ⟨entry, ⟨hentry, heq⟩, heq⟩
    · rintro ⟨entry, ⟨hentry, -⟩, heq⟩
      exact ⟨entry, hentry, heq⟩
  rw [hmem, hmem, h.recorded]

namespace Monitor

/-- The trend of a queue as it is, or as it would begin. -/
def trendOf (m : Monitor α) (queue : String) : QueueTrend α :=
  (m.queues.find? queue).getD (m.settings.freshTrend queue)

/-- What is said about a queue in a round of a monitor that has taken in some readings. -/
structure Accounted (m : Monitor α) (readings : List Reading) (queue : String) (r : Round α) :
    Prop where
  trend : r.queues.find? queue =
    if Reading.samplesOf queue readings = [] then m.queues.find? queue
    else some ((m.trendOf queue).recordAll (Reading.samplesOf queue readings))
  recorded : queue ∈ r.recorded.map (·.1.queue) ↔
    .accepted ∈ (m.trendOf queue).answers (Reading.samplesOf queue readings)
  skipped : r.skipped.contains queue = true ↔
    (∃ fault, ⟨queue, .error fault⟩ ∈ readings) ∨
      ∃ answer ∈ (m.trendOf queue).answers (Reading.samplesOf queue readings), answer ≠ .accepted

namespace Accounted

variable {m : Monitor α} {readings : List Reading} {queue : String} {r : Round α}

theorem nil (m : Monitor α) (queue : String) : m.Accounted [] queue ⟨m.queues, [], .empty⟩ where
  trend := rfl
  recorded := by simp [Reading.samplesOf, QueueTrend.answers]
  skipped := by simp [Reading.samplesOf, QueueTrend.answers, Table.contains]

/-- The trend that the next sample meets. -/
theorem current (h : m.Accounted readings queue r) :
    (r.queues.find? queue).getD (m.settings.freshTrend queue) =
      (m.trendOf queue).recordAll (Reading.samplesOf queue readings) := by
  rw [h.trend]
  split
  · next hnone =>
      rw [hnone]
      rfl
  · rfl

theorem other (h : m.Accounted readings queue r) (hsound : r.Sound m.settings) {reading : Reading}
    (hqueue : reading.queue ≠ queue) :
    m.Accounted (readings ++ [reading]) queue (r.take m.settings reading) := by
  have hagree := Round.agreeOn_take_other hsound hqueue
  have hsamples : Reading.samplesOf queue (readings ++ [reading]) =
      Reading.samplesOf queue readings := by
    simp [Reading.samplesOf, List.filterMap_append, hqueue]
  constructor
  case trend => rw [hsamples, hagree.trend, h.trend]
  case recorded => rw [hsamples, hagree.mem_recorded, h.recorded]
  case skipped =>
    have hfault : ∀ fault, (⟨queue, .error fault⟩ : Reading) ≠ reading := by
      rintro fault rfl
      exact hqueue rfl
    rw [hsamples, Table.contains, hagree.skipped, ← Table.contains, h.skipped]
    simp only [List.mem_append, List.mem_singleton, hfault, or_false]

theorem failed (h : m.Accounted readings queue r) (fault : SourceFault) :
    m.Accounted (readings ++ [⟨queue, .error fault⟩]) queue
      (r.take m.settings ⟨queue, .error fault⟩) := by
  have hsamples : Reading.samplesOf queue (readings ++ [⟨queue, .error fault⟩]) =
      Reading.samplesOf queue readings := by
    simp [Reading.samplesOf, List.filterMap_append, Except.toOption]
  constructor
  case trend => rw [hsamples, ← h.trend]; rfl
  case recorded => rw [hsamples, ← h.recorded]; rfl
  case skipped =>
    rw [hsamples]
    constructor
    · exact fun _ => .inl ⟨fault, List.mem_append_right _ List.mem_cons_self⟩
    · intro _
      exact (Table.contains_insert ..).trans (by simp)

/-- A sample of the queue meets the trend that its earlier samples made. -/
theorem trend_eq (h : m.Accounted readings queue r) (haccepted : m.settings.IsAccepted) :
    r.trend m.settings queue =
      .ok ((m.trendOf queue).recordAll (Reading.samplesOf queue readings)) := by
  rw [Round.trend_eq haccepted, h.current]

theorem sampled (h : m.Accounted readings queue r) (haccepted : m.settings.IsAccepted)
    (hsound : r.Sound m.settings) (sample : Sample) :
    m.Accounted (readings ++ [⟨queue, .ok sample⟩]) queue
      (r.take m.settings ⟨queue, .ok sample⟩) := by
  have hsamples : Reading.samplesOf queue (readings ++ [⟨queue, .ok sample⟩]) =
      Reading.samplesOf queue readings ++ [sample] := by
    simp [Reading.samplesOf, List.filterMap_append, Except.toOption]
  have hne : Reading.samplesOf queue readings ++ [sample] ≠ [] := List.concat_ne_nil _ _
  have hfault : ∀ fault, (⟨queue, .error fault⟩ : Reading) ∈ readings ++ [⟨queue, .ok sample⟩] ↔
      (⟨queue, .error fault⟩ : Reading) ∈ readings := by
    intro fault
    simp
  have htaken := r.taken m.settings ⟨queue, .ok sample⟩
  generalize r.take m.settings ⟨queue, .ok sample⟩ = after at htaken ⊢
  cases htaken with
  | unread houtcome => cases houtcome
  | refused _ htrend =>
      rw [h.trend_eq haccepted] at htrend
      cases htrend
  | @late _ trend previous houtcome htrend hlatest hlt =>
      cases houtcome
      have heq := Except.ok.inj ((h.trend_eq haccepted).symm.trans htrend)
      have hrecord : trend.record sample.timestamp sample.ready =
          (.outOfOrder previous sample.timestamp, trend) := QueueTrend.record_of_lt hlatest hlt
      rw [← heq] at hrecord
      constructor
      case trend =>
        rw [hsamples, if_neg hne, QueueTrend.recordAll_concat, hrecord, ← heq]
        exact (Table.find?_insert ..).trans (if_pos rfl)
      case recorded =>
        rw [hsamples, QueueTrend.answers_concat, hrecord, List.mem_append, List.mem_singleton,
          or_iff_left (by nofun)]
        exact h.recorded
      case skipped =>
        rw [hsamples, QueueTrend.answers_concat, hrecord]
        constructor
        · exact fun _ => .inr ⟨_, List.mem_append_right _ List.mem_cons_self, nofun⟩
        · exact fun _ => (Table.contains_insert ..).trans (by simp)
  | @recorded _ trend houtcome htrend hnot =>
      cases houtcome
      have heq := Except.ok.inj ((h.trend_eq haccepted).symm.trans htrend)
      have hrecord : trend.record sample.timestamp sample.ready =
          (.accepted, trend.accept sample.timestamp sample.ready) :=
        QueueTrend.record_of_not_lt hnot
      rw [← heq] at hrecord
      constructor
      case trend =>
        rw [hsamples, if_neg hne, QueueTrend.recordAll_concat, hrecord, ← heq]
        exact (Table.find?_insert ..).trans (if_pos rfl)
      case recorded =>
        rw [hsamples, QueueTrend.answers_concat, hrecord, List.map_append, List.mem_append]
        have hqueue : (trend.accept sample.timestamp sample.ready).snapshot.queue = queue :=
          (hsound.trends.of_trend htrend).1
        constructor
        · exact fun _ => List.mem_append_right _ List.mem_cons_self
        · exact fun _ => .inr (List.mem_singleton.2 hqueue.symm)
      case skipped =>
        rw [hsamples, QueueTrend.answers_concat, hrecord]
        simp only [hfault, List.mem_append, List.mem_singleton, or_and_right, exists_or,
          exists_eq_left, ne_eq, not_true_eq_false, or_false]
        exact h.skipped

end Accounted

theorem accounted {m : Monitor α} (haccepted : m.settings.IsAccepted) (hforce : m.PolicyInForce)
    (readings : List Reading) (queue : String) :
    m.Accounted readings queue (m.round readings) := by
  induction readings using List.reverseRecOn with
  | nil => exact .nil m queue
  | append_singleton readings reading ih =>
      have hround : m.round (readings ++ [reading]) = (m.round readings).take m.settings reading :=
        List.foldl_append
      have hsound := hforce.round readings
      rw [hround]
      obtain ⟨id, outcome⟩ := reading
      by_cases hid : id = queue
      · subst hid
        cases outcome with
        | error fault => exact ih.failed fault
        | ok sample => exact ih.sampled haccepted hsound sample
      · exact ih.other hsound hid

/-! ## The result of a round -/

/-- The monitor accepts a sample that these readings have of a queue. -/
def AcceptsFrom (m : Monitor α) (readings : List Reading) (queue : String) : Prop :=
  .accepted ∈ (m.trendOf queue).answers (Reading.samplesOf queue readings)

theorem mem_details_iff (m : Monitor α) (readings : List Reading) (queue : String) :
    queue ∈ (m.check readings).latest.details.keys ↔
      queue ∈ (m.round readings).recorded.map (·.1.queue) := by
  rw [Table.mem_keys_iff]
  refine Table.contains_ofList.trans ?_
  rw [List.map_map]
  rfl

namespace Accounted

variable {m : Monitor α} {readings : List Reading} {queue : String} {r : Round α}

/-- A queue is in the details or left out exactly if it was read from. -/
theorem mem_queues_iff (h : m.Accounted readings queue r) :
    queue ∈ r.recorded.map (·.1.queue) ∨ r.skipped.contains queue = true ↔
      queue ∈ readings.map (·.queue) := by
  have hanswers : Reading.samplesOf queue readings ≠ [] ↔
      ∃ answer, answer ∈ (m.trendOf queue).answers (Reading.samplesOf queue readings) := by
    rw [ne_eq, ← QueueTrend.answers_eq_nil_iff (t := m.trendOf queue),
      List.eq_nil_iff_forall_not_mem, not_forall_not]
  rw [h.recorded, h.skipped, Reading.mem_queues_iff, hanswers]
  constructor
  · rintro (haccepted | hfault | ⟨answer, hanswer, -⟩)
    · exact .inr ⟨_, haccepted⟩
    · exact .inl hfault
    · exact .inr ⟨answer, hanswer⟩
  · rintro (hfault | ⟨answer, hanswer⟩)
    · exact .inr (.inl hfault)
    · by_cases haccepted : answer = .accepted
      · exact .inl (haccepted ▸ hanswer)
      · exact .inr (.inr ⟨answer, hanswer, haccepted⟩)

/-- A queue that was read from once is in the details or left out, not both. -/
theorem recorded_iff_not_skipped (h : m.Accounted readings queue r)
    (hnodup : (readings.map (·.queue)).Nodup) (hqueue : queue ∈ readings.map (·.queue)) :
    queue ∈ r.recorded.map (·.1.queue) ↔ ¬r.skipped.contains queue = true := by
  obtain ⟨⟨id, fault | sample⟩, hmem, rfl⟩ := List.mem_map.1 hqueue
  · have hnone := Reading.samplesOf_of_nodup hnodup hmem
    rw [h.recorded, h.skipped, hnone]
    exact iff_of_false List.not_mem_nil fun hnot => hnot (.inl ⟨fault, hmem⟩)
  · have hone := Reading.samplesOf_of_nodup hnodup hmem
    have hnofault : ¬∃ fault, (⟨id, .error fault⟩ : Reading) ∈ readings := by
      rintro ⟨fault, hfault⟩
      exact absurd (hone.symm.trans (Reading.samplesOf_of_nodup hnodup hfault)) nofun
    rw [h.recorded, h.skipped, hone, or_iff_right hnofault]
    simp [Except.toOption, QueueTrend.answers, eq_comm]

theorem contains_iff (h : m.Accounted readings queue r) :
    r.queues.contains queue = true ↔
      m.queues.contains queue = true ∨ Reading.samplesOf queue readings ≠ [] := by
  rw [Table.contains, h.trend]
  split
  · next hnone => simp [hnone, Table.contains]
  · next hne => simp [hne]

/-- A queue of which no sample is accepted is as it was. -/
theorem find?_of_not_acceptsFrom (h : m.Accounted readings queue r)
    (hnot : ¬m.AcceptsFrom readings queue) : r.queues.find? queue = m.queues.find? queue := by
  rw [h.trend]
  split
  · rfl
  · next hne =>
      rw [AcceptsFrom, trendOf] at hnot
      cases hfind : m.queues.find? queue with
      | some known =>
          rw [hfind] at hnot
          rw [trendOf, hfind]
          exact congrArg some (QueueTrend.recordAll_of_notMem_answers hnot)
      | none =>
          rw [hfind] at hnot
          exact absurd (QueueTrend.accepted_mem_answers_fresh hne) hnot

end Accounted

/-- **The account of a round.**  The queues in the details and those left out are the queues that
were read from, and a queue that was read from once is in one of the two only.  The queues that
are known are those that were known and those of which there was a sample.  In the details are the
queues of which a sample was accepted, and of any other queue nothing is changed. -/
theorem check_accounts {settings : MonitorSettings α} {m : Monitor α}
    (hstart : start settings = .ok m) (calls : List (MonitorCall α)) (readings : List Reading) :
    let before := m.run calls
    let after := before.check readings
    (∀ queue, queue ∈ after.latest.details.keys ∨ queue ∈ after.latest.skipped.keys ↔
        queue ∈ readings.map (·.queue)) ∧
      ((readings.map (·.queue)).Nodup → ∀ queue ∈ readings.map (·.queue),
        (queue ∈ after.latest.details.keys ↔ queue ∉ after.latest.skipped.keys)) ∧
      (∀ queue, queue ∈ after.trackedQueues ↔
        queue ∈ before.trackedQueues ∨ ∃ sample, ⟨queue, .ok sample⟩ ∈ readings) ∧
      (∀ queue, queue ∈ after.latest.details.keys ↔ before.AcceptsFrom readings queue) ∧
      ∀ queue, ¬before.AcceptsFrom readings queue →
        after.queues.find? queue = before.queues.find? queue := by
  intro before after
  have haccounted : ∀ queue, before.Accounted readings queue (before.round readings) :=
    before.accounted (isAccepted_run hstart calls)
      ((PolicyInForce.of_start hstart).run calls) readings
  have hskipped : ∀ queue, queue ∈ after.latest.skipped.keys ↔
      (before.round readings).skipped.contains queue = true := fun _ => Table.mem_keys_iff
  refine ⟨fun queue => ?_, fun hnodup queue hqueue => ?_, fun queue => ?_, fun queue => ?_,
    fun queue hnot => ?_⟩
  · rw [mem_details_iff, hskipped, (haccounted queue).mem_queues_iff]
  · rw [mem_details_iff, hskipped, (haccounted queue).recorded_iff_not_skipped hnodup hqueue]
  · rw [trackedQueues, trackedQueues, Table.mem_keys_iff, Table.mem_keys_iff,
      ← Reading.samplesOf_ne_nil_iff]
    exact (haccounted queue).contains_iff
  · rw [mem_details_iff, (haccounted queue).recorded, AcceptsFrom]
  · exact (haccounted queue).find?_of_not_acceptsFrom hnot

/-- A late sample of a known queue, a queue that fails, and a new queue that is read from twice:
the first keeps its trend and is left out, the last is known afterwards. -/
theorem check_accounts_of_late :
    let before := briskMonitor.run [.check [⟨"orders", .ok ⟨5, 1⟩⟩]]
    let after := before.check [⟨"orders", .ok ⟨3, 1⟩⟩, ⟨"bills", .error .unsupported⟩,
      ⟨"mail", .ok ⟨0, 1⟩⟩, ⟨"mail", .ok ⟨0, 2⟩⟩]
    start briskSettings = .ok briskMonitor ∧
      after.queues.find? "orders" = before.queues.find? "orders" ∧
      "orders" ∉ after.latest.details.keys ∧ "mail" ∈ after.trackedQueues := by
  intro before after
  obtain ⟨-, -, htracked, hdetails, hunchanged⟩ :=
    check_accounts start_briskSettings [.check [⟨"orders", .ok ⟨5, 1⟩⟩]] _
  have hlate : ¬before.AcceptsFrom [⟨"orders", .ok ⟨3, 1⟩⟩, ⟨"bills", .error .unsupported⟩,
      ⟨"mail", .ok ⟨0, 1⟩⟩, ⟨"mail", .ok ⟨0, 2⟩⟩] "orders" := by
    unfold AcceptsFrom
    decide +kernel
  exact ⟨start_briskSettings, hunchanged "orders" hlate, mt (hdetails "orders").1 hlate,
    (htracked "mail").2 (.inr ⟨⟨0, 1⟩, by simp⟩)⟩

end Monitor

end Backlog
