import Backlog.Proofs.Monitor.Run
import Mathlib.Data.List.Forall2

/-!
# Queues do not influence each other

Two runs of a monitor are compared that differ only in what their rounds read from queues
other than one queue `q`.  What the monitor knows and publishes about `q` is the same in
both after every call.

Inside a round the comparison is with the readings of `q` alone: leaving out a reading of
another queue changes nothing about `q` (`Round.agreeOn_take_other`), and a reading of `q`
does the same to two rounds that agree on `q` (`Round.AgreeOn.take`).  So a round over any
readings agrees on `q` with the round over the readings of `q` (`Round.AgreeOn.foldl`),
which is the same in both runs.  `Monitor.AgreeOn` is then an invariant of the two runs.
-/

namespace Backlog

variable {α : Type} [Scalar α] {queue : String}

/-! ## Inside a round -/

namespace Round

/-- Two rounds in which one queue stands the same. -/
structure AgreeOn (queue : String) (r r' : Round α) : Prop where
  trend : r.queues.find? queue = r'.queues.find? queue
  recorded : r.recorded.filter (·.1.queue == queue) = r'.recorded.filter (·.1.queue == queue)
  skipped : r.skipped.find? queue = r'.skipped.find? queue

namespace AgreeOn

variable {r r' r'' : Round α}

omit [Scalar α] in
theorem refl (queue : String) (r : Round α) : AgreeOn queue r r := ⟨rfl, rfl, rfl⟩

omit [Scalar α] in
theorem symm (h : AgreeOn queue r r') : AgreeOn queue r' r :=
  ⟨h.trend.symm, h.recorded.symm, h.skipped.symm⟩

omit [Scalar α] in
theorem trans (h : AgreeOn queue r r') (h' : AgreeOn queue r' r'') : AgreeOn queue r r'' :=
  ⟨h.trend.trans h'.trend, h.recorded.trans h'.recorded, h.skipped.trans h'.skipped⟩

omit [Scalar α] in
theorem skip (h : AgreeOn queue r r') (q reason : String) :
    AgreeOn queue (r.skip q reason) (r'.skip q reason) where
  trend := h.trend
  recorded := h.recorded
  skipped := by simp only [Round.skip, Table.find?_insert, h.skipped]

theorem record (h : AgreeOn queue r r') (q : String) (trend : QueueTrend α) (sample : Sample) :
    AgreeOn queue (r.record q trend sample) (r'.record q trend sample) := by
  unfold Round.record
  obtain ⟨outcome, after⟩ := trend.record sample.timestamp sample.ready
  have hinsert : AgreeOn queue { r with queues := r.queues.insert q after }
      { r' with queues := r'.queues.insert q after } :=
    ⟨by simp only [Table.find?_insert, h.trend], h.recorded, h.skipped⟩
  cases outcome with
  | accepted =>
      exact ⟨hinsert.trend, by simp only [List.filter_append, h.recorded], h.skipped⟩
  | outOfOrder => exact hinsert.skip _ _

/-- A reading of the queue does the same to rounds that agree on the queue. -/
theorem take (h : AgreeOn queue r r') (settings : MonitorSettings α) {reading : Reading}
    (hqueue : reading.queue = queue) :
    AgreeOn queue (r.take settings reading) (r'.take settings reading) := by
  have htrend : r.trend settings reading.queue = r'.trend settings reading.queue := by
    simp only [Round.trend, hqueue, h.trend]
  unfold Round.take
  rw [htrend]
  cases reading.outcome with
  | error => exact h.skip _ _
  | ok sample =>
      cases r'.trend settings reading.queue with
      | error => exact h.skip _ _
      | ok known => exact h.record _ _ _

end AgreeOn

/-- A reading of another queue changes nothing about the queue. -/
theorem agreeOn_take_other {settings : MonitorSettings α} {r : Round α} (hsound : r.Sound settings)
    {reading : Reading} (hqueue : reading.queue ≠ queue) :
    AgreeOn queue (r.take settings reading) r := by
  have htaken := r.taken settings reading
  have hskip : ∀ (r : Round α) reason, (r.skip reading.queue reason).skipped.find? queue =
      r.skipped.find? queue := fun r reason => by
    rw [Round.skip, Table.find?_insert, if_neg hqueue]
  have hinsert : ∀ trend : QueueTrend α, (r.queues.insert reading.queue trend).find? queue =
      r.queues.find? queue := fun trend => by
    rw [Table.find?_insert, if_neg hqueue]
  generalize r.take settings reading = after at htaken ⊢
  cases htaken with
  | unread => exact ⟨rfl, rfl, hskip _ _⟩
  | refused => exact ⟨rfl, rfl, hskip _ _⟩
  | late => exact ⟨hinsert _, rfl, hskip _ _⟩
  | @recorded sample trend _ htrend =>
      refine ⟨hinsert _, ?_, rfl⟩
      have hother : (trend.accept sample.timestamp sample.ready).snapshot.queue ≠ queue :=
        fun heq => hqueue ((hsound.trends.of_trend htrend).1.symm.trans heq)
      simp [List.filter_append, hother]

/-- On one queue a round agrees with the round over the readings of that queue. -/
theorem AgreeOn.foldl {settings : MonitorSettings α} (readings : List Reading) {r r' : Round α}
    (h : AgreeOn queue r r') (hsound : r.Sound settings) :
    AgreeOn queue (readings.foldl (Round.take settings) r)
      ((readings.filter (·.queue == queue)).foldl (Round.take settings) r') := by
  induction readings generalizing r r' with
  | nil => exact h
  | cons reading rest ih =>
      by_cases hqueue : reading.queue = queue
      · rw [List.filter_cons_of_pos (by simpa using hqueue)]
        exact ih (h.take settings hqueue) (hsound.take reading)
      · rw [List.filter_cons_of_neg (by simpa using hqueue)]
        exact ih ((agreeOn_take_other hsound hqueue).trans h) (hsound.take reading)

/-- Rounds that agree on a queue publish the same about it. -/
theorem AgreeOn.details {r r' : Round α} (h : AgreeOn queue r r') (active : Bool) :
    (r.result active).details.find? queue = (r'.result active).details.find? queue := by
  have hentries : ∀ r : Round α,
      (r.recorded.map fun x => (x.1.queue, x.1.detail)).filter (·.1 == queue) =
        (r.recorded.filter (·.1.queue == queue)).map fun x => (x.1.queue, x.1.detail) :=
    fun r => List.filter_map ..
  simp only [result, Table.find?_ofList, hentries, h.recorded]

end Round

/-! ## Over a run -/

/-- Two calls that are the same to one queue: rounds that read the same from it, and
otherwise the same call. -/
inductive MonitorCall.SameFor (queue : String) : MonitorCall α → MonitorCall α → Prop
  | check {readings readings' : List Reading}
      (h : readings.filter (·.queue == queue) = readings'.filter (·.queue == queue)) :
      SameFor queue (.check readings) (.check readings')
  | refl (call : MonitorCall α) : SameFor queue call call

namespace Monitor

/-- Two monitors that are set the same, and that know and publish the same about one
queue. -/
structure AgreeOn (queue : String) (m m' : Monitor α) : Prop where
  active : m.active = m'.active
  settings : m.settings = m'.settings
  trend : m.queues.find? queue = m'.queues.find? queue
  details : m.latest.details.find? queue = m'.latest.details.find? queue
  skipped : m.latest.skipped.find? queue = m'.latest.skipped.find? queue

namespace AgreeOn

variable {m m' : Monitor α}

omit [Scalar α] in
theorem refl (m : Monitor α) : AgreeOn queue m m := ⟨rfl, rfl, rfl, rfl, rfl⟩

omit [Scalar α] in
theorem adopt (h : AgreeOn queue m m') (settings : MonitorSettings α) :
    AgreeOn queue (m.adopt settings) (m'.adopt settings) :=
  ⟨h.active, rfl, by simp only [Monitor.adopt, Table.find?_map, h.trend], h.details, h.skipped⟩

theorem check (h : AgreeOn queue m m') (hforce : m.PolicyInForce) (hforce' : m'.PolicyInForce)
    {readings readings' : List Reading}
    (hsame : readings.filter (·.queue == queue) = readings'.filter (·.queue == queue)) :
    AgreeOn queue (m.check readings) (m'.check readings') := by
  -- both rounds agree with the round over the readings of the queue
  have hround : Round.AgreeOn queue (m.round readings) (m'.round readings') := by
    have hbegin : Round.AgreeOn queue ⟨m.queues, [], .empty⟩ ⟨m'.queues, [], .empty⟩ :=
      ⟨h.trend, rfl, rfl⟩
    have hleft := hbegin.foldl readings hforce.round_nil
    have hright := (Round.AgreeOn.refl queue _).foldl readings' hforce'.round_nil
    rw [← hsame, ← h.settings] at hright
    rw [Monitor.round, Monitor.round, ← h.settings]
    exact hleft.trans hright.symm
  refine ⟨h.active, h.settings, hround.trend, ?_, hround.skipped⟩
  simp only [Monitor.check, h.active]
  exact hround.details m'.active

theorem after (h : AgreeOn queue m m') (hforce : m.PolicyInForce) (hforce' : m'.PolicyInForce)
    {call call' : MonitorCall α} (hsame : call.SameFor queue call') :
    AgreeOn queue (m.after call) (m'.after call') := by
  cases hsame with
  | check hreadings => exact h.check hforce hforce' hreadings
  | refl =>
      cases call with
      | check readings => exact h.check hforce hforce' rfl
      | activate => exact ⟨rfl, h.settings, h.trend, h.details, h.skipped⟩
      | deactivate => exact ⟨rfl, h.settings, h.trend, h.details, h.skipped⟩
      | setGrowthPolicy policy =>
          rw [after_setGrowthPolicy, after_setGrowthPolicy, h.settings]
          cases policy.validate with
          | ok => exact h.adopt _
          | error => exact h
      | reconfigure settings =>
          rw [after_reconfigure, after_reconfigure]
          cases accepts settings with
          | ok => exact h.adopt _
          | error => exact h

theorem run (h : AgreeOn queue m m') (hforce : m.PolicyInForce) (hforce' : m'.PolicyInForce)
    {calls calls' : List (MonitorCall α)}
    (hsame : List.Forall₂ (MonitorCall.SameFor queue) calls calls') :
    AgreeOn queue (m.run calls) (m'.run calls') := by
  induction hsame generalizing m m' with
  | nil => exact h
  | cons hcall _ ih =>
      exact ih (h.after hforce hforce' hcall) (hforce.after _) (hforce'.after _)

end AgreeOn

/-- **Isolation.**  Two runs from one start that are the same to a queue, whatever their
rounds read elsewhere, know and publish the same about the queue after every call. -/
theorem run_isolated {settings : MonitorSettings α} {m : Monitor α}
    (hstart : start settings = .ok m) (queue : String) {calls calls' : List (MonitorCall α)}
    (hsame : List.Forall₂ (MonitorCall.SameFor queue) calls calls') (n : Nat) :
    let left := m.run (calls.take n)
    let right := m.run (calls'.take n)
    left.snapshot? queue = right.snapshot? queue ∧
      left.latest.details.find? queue = right.latest.details.find? queue ∧
      left.latest.skipped.find? queue = right.latest.skipped.find? queue := by
  intro left right
  have hforce := PolicyInForce.of_start hstart
  have hagree : AgreeOn queue left right :=
    (AgreeOn.refl m).run hforce hforce (List.forall₂_take n hsame)
  refine ⟨?_, hagree.details, hagree.skipped⟩
  rw [snapshot?, snapshot?, hagree.trend]

/-- A queue is not disturbed by one that is late in one run and fails in the other. -/
theorem run_isolated_from_bills :
    ∃ m : Monitor Float, start briskSettings = .ok m ∧
      (m.run [.check [⟨"bills", .ok ⟨7, 3⟩⟩, ⟨"orders", .ok ⟨0, 1⟩⟩],
          .check [⟨"orders", .ok ⟨1, 9⟩⟩, ⟨"bills", .ok ⟨2, 5⟩⟩]]).snapshot? "orders" =
        (m.run [.check [⟨"orders", .ok ⟨0, 1⟩⟩],
          .check [⟨"bills", .error .unsupported⟩, ⟨"orders", .ok ⟨1, 9⟩⟩]]).snapshot? "orders" := by
  have hstart : start briskSettings = .ok ⟨true, briskSettings, .empty, .pending true⟩ :=
    start_eq_ok_iff.2 ⟨briskSettings_isAccepted, rfl⟩
  have hsame : List.Forall₂ (MonitorCall.SameFor (α := Float) "orders")
      [.check [⟨"bills", .ok ⟨7, 3⟩⟩, ⟨"orders", .ok ⟨0, 1⟩⟩],
        .check [⟨"orders", .ok ⟨1, 9⟩⟩, ⟨"bills", .ok ⟨2, 5⟩⟩]]
      [.check [⟨"orders", .ok ⟨0, 1⟩⟩],
        .check [⟨"bills", .error .unsupported⟩, ⟨"orders", .ok ⟨1, 9⟩⟩]] :=
    .cons (.check rfl) (.cons (.check rfl) .nil)
  exact ⟨_, hstart, (run_isolated hstart "orders" hsame 2).1⟩

end Monitor

end Backlog
