import Backlog.Proofs.Monitor.Run
import Backlog.Proofs.Service.Transitions

/-!
# One verdict, reached three times

Whether a queue grows is decided three times: in the round, where the trend of the queue
compares its slope with its own copy of the policy; by readers of the result, who compare
the published slope with the threshold of the monitor; and by the activity log, which
compares the two once more.  In a round over distinct queues the three agree.

The copy of the policy is the policy of the monitor (`Monitor.PolicyInForce`), so every
recorded verdict is the comparison that readers make.  The rest is about rows of queues:
the growing queues of the round, sorted by id, are the entries of the result above the
threshold (`Round.growing_eq`), because both rows ascend strictly and hold the same queues.
-/

namespace Backlog

variable {α : Type} [Scalar α]

namespace MonitorResult

/-- The published entries whose slope is above a threshold, in order. -/
def growing (r : MonitorResult α) (threshold : α) : List (String × QueueDetail α) :=
  r.details.entries.filter fun e => Scalar.lt threshold e.2.slopePercent

/-- How a message names a published entry. -/
def mention (entry : String × QueueDetail α) : String :=
  entry.1 ++ " (slope " ++ Scalar.twoPlaces entry.2.slopePercent ++ ")"

theorem growingQueues_eq (r : MonitorResult α) (threshold : α) :
    r.growingQueues threshold = (r.growing threshold).map (·.1) := rfl

/-- The growing queues are named in order. -/
theorem growing_ascending (r : MonitorResult α) (threshold : α) :
    (r.growing threshold).Pairwise fun a b => a.1 < b.1 :=
  r.details.ascending.filter _

theorem growingQueues_nodup (r : MonitorResult α) (threshold : α) :
    (r.growingQueues threshold).Nodup :=
  List.Pairwise.map _ (fun _ _ h => String.ne_of_lt h) (r.growing_ascending threshold)

theorem mem_growingQueues_iff {r : MonitorResult α} {threshold : α} {queue : String} :
    queue ∈ r.growingQueues threshold ↔
      ∃ detail, r.details.find? queue = some detail ∧
        Scalar.lt threshold detail.slopePercent = true := by
  simp only [growingQueues_eq, growing, List.mem_map, List.mem_filter, Table.find?_eq_some_iff]
  constructor
  · rintro ⟨⟨q, detail⟩, ⟨hmem, hlt⟩, rfl⟩
    exact ⟨detail, hmem, hlt⟩
  · rintro ⟨detail, hmem, hlt⟩
    exact ⟨(queue, detail), ⟨hmem, hlt⟩, rfl⟩

end MonitorResult

namespace Round

variable {settings : MonitorSettings α} {r : Round α}

/-- The entry that a recorded queue gets in the result. -/
def published (recorded : QueueSnapshot α × Bool) : String × QueueDetail α :=
  (recorded.1.queue, recorded.1.detail)

/-- Of distinct queues every one that was recorded is published. -/
theorem details_perm (hdistinct : (r.recorded.map (·.1.queue)).Nodup) (active : Bool) :
    (r.result active).details.entries.Perm (r.recorded.map published) := by
  refine Table.ofList_perm ?_
  rwa [List.map_map]

omit [Scalar α] in
/-- The growing queues of a round stand in the order of their ids. -/
theorem growing_ascending (hdistinct : (r.recorded.map (·.1.queue)).Nodup) :
    r.growing.Pairwise fun a b => a.queue < b.queue := by
  have hperm := List.mergeSort_perm ((r.recorded.filter (·.2)).map (·.1))
    fun a b => decide (a.queue ≤ b.queue)
  have hnodup : (r.growing.map (·.queue)).Nodup := by
    refine (hperm.map (·.queue)).nodup_iff.2 ?_
    rw [List.map_map]
    exact (List.filter_sublist.map _).nodup hdistinct
  have hsorted := @List.pairwise_mergeSort _ (fun a b : QueueSnapshot α => a.queue ≤ b.queue)
    (fun a b c hab hbc => by simpa using String.le_trans (by simpa using hab) (by simpa using hbc))
    (fun a b => by simpa using String.le_total a.queue b.queue)
    ((r.recorded.filter (·.2)).map (·.1))
  simp only [decide_eq_true_eq] at hsorted
  refine hsorted.imp₂ (fun a b hle hne => ?_) (List.pairwise_map.1 hnodup)
  exact String.not_le.1 fun hge => hne (String.le_antisymm hle hge)

/-- The growing queues of a round are the published entries above the threshold. -/
theorem growing_eq (hsound : r.Sound settings) (hdistinct : (r.recorded.map (·.1.queue)).Nodup)
    (active : Bool) :
    r.growing.map (fun s => (s.queue, s.detail)) =
      (r.result active).growing settings.growthThreshold := by
  -- the verdicts of the round pick the entries that a reader picks
  have hpicked : ((r.recorded.filter (·.2)).map (·.1)).map (fun s => (s.queue, s.detail)) =
      (r.recorded.map published).filter
        fun e => Scalar.lt settings.growthThreshold e.2.slopePercent := by
    rw [List.map_map, List.filter_map]
    exact congrArg _ (List.filter_congr fun e he => hsound.verdict he)
  have hperm : (r.growing.map fun s => (s.queue, s.detail)).Perm
      ((r.result active).growing settings.growthThreshold) := by
    refine ((List.mergeSort_perm _ _).map _).trans ?_
    rw [hpicked]
    exact ((details_perm hdistinct active).filter _).symm
  refine List.Perm.eq_of_pairwise (fun a b _ _ hab hba => ?_)
    (List.pairwise_map.2 (growing_ascending hdistinct)) (MonitorResult.growing_ascending _ _) hperm
  exact absurd (String.lt_trans hab hba) (String.lt_irrefl _)

/-- A queue is recorded as growing exactly if readers find its slope above the threshold. -/
theorem verdict_iff (hsound : r.Sound settings) (hdistinct : (r.recorded.map (·.1.queue)).Nodup)
    (active : Bool) {s : QueueSnapshot α} {isGrowing : Bool} (hmem : (s, isGrowing) ∈ r.recorded) :
    isGrowing = true ↔ s.queue ∈ (r.result active).growingQueues settings.growthThreshold := by
  have hfind : (r.result active).details.find? s.queue = some s.detail := by
    rw [Table.find?_eq_some_iff, (details_perm hdistinct active).mem_iff]
    exact List.mem_map_of_mem hmem
  rw [MonitorResult.mem_growingQueues_iff, hfind, hsound.verdict hmem]
  simp [QueueSnapshot.detail]

/-- No queue of the round grows exactly if readers find no slope above the threshold. -/
theorem growing_isEmpty_iff (hsound : r.Sound settings)
    (hdistinct : (r.recorded.map (·.1.queue)).Nodup) (active : Bool) :
    r.growing.isEmpty = true ↔
      (r.result active).growingQueues settings.growthThreshold = [] := by
  rw [MonitorResult.growingQueues_eq, ← growing_eq hsound hdistinct, List.isEmpty_iff]
  simp only [List.map_eq_nil_iff]

theorem healthy_iff (hsound : r.Sound settings)
    (hdistinct : (r.recorded.map (·.1.queue)).Nodup) (active : Bool) :
    (r.result active).healthy = true ↔
      active = false ∨ (r.result active).growingQueues settings.growthThreshold = [] := by
  rw [← growing_isEmpty_iff hsound hdistinct, result, Bool.or_eq_true, Bool.not_eq_true']

/-- An unhealthy result names the entries above the threshold. -/
theorem message_eq (hsound : r.Sound settings)
    (hdistinct : (r.recorded.map (·.1.queue)).Nodup) {active : Bool}
    (hunhealthy : (r.result active).healthy = false) :
    (r.result active).message = "growing queues: " ++ ", ".intercalate
      (((r.result active).growing settings.growthThreshold).map MonitorResult.mention) := by
  obtain ⟨hactive, hsome⟩ : active = true ∧ r.growing.isEmpty = false := by
    simpa only [result, Bool.or_eq_false_iff, Bool.not_eq_false'] using hunhealthy
  have hwords : (r.result active).message =
      "growing queues: " ++ ", ".intercalate (r.growing.map mention) := by
    simp only [result, message, hactive, hsome, Bool.not_true, Bool.false_eq_true, if_false]
  rw [hwords, ← growing_eq hsound hdistinct active, List.map_map]
  rfl

end Round

/-! ## Every check of every run -/

namespace Monitor

variable {m : Monitor α}

/-- The queues that a check records are distinct if the queues that were read are. -/
theorem PolicyInForce.recorded_nodup (h : m.PolicyInForce) {readings : List Reading}
    (hdistinct : (readings.map (·.queue)).Nodup) :
    ((m.round readings).recorded.map (·.1.queue)).Nodup := by
  obtain ⟨ids, hsub, heq⟩ := Round.recorded_queues readings h.round_nil
  rw [Monitor.round, heq]
  exact hsub.nodup hdistinct

/-- After any run, a check over distinct queues publishes one verdict: the result is
unhealthy exactly if the check is active and some published slope is above the threshold
in force, its message then names these queues in order, and what the round recorded and
what the activity log will remember is the same for every queue with a new sample. -/
theorem verdicts_agree {settings : MonitorSettings Float} {m : Monitor Float}
    (hstart : start settings = .ok m) (calls : List (MonitorCall Float))
    {readings : List Reading} (hdistinct : (readings.map (·.queue)).Nodup) :
    let round := (m.run calls).round readings
    let checked := (m.run calls).check readings
    let r := round.result (m.run calls).active
    let threshold := checked.growthPolicy.threshold
    checked.latest = r ∧
      (r.healthy = true ↔ r.active = false ∨ r.growingQueues threshold = []) ∧
      (r.active = true → r.healthy = false → r.message = "growing queues: " ++
        ", ".intercalate ((r.growing threshold).map MonitorResult.mention)) ∧
      (r.growing threshold).map (·.1) = r.growingQueues threshold ∧
      (r.growingQueues threshold).Nodup ∧
      (∀ s isGrowing, (s, isGrowing) ∈ round.recorded →
        (isGrowing = true ↔ s.queue ∈ r.growingQueues threshold)) ∧
      ∀ told : Transitions, r.active = true → ∀ queue, r.details.contains queue = true →
        ((told.step threshold r).2.growing.contains queue = true ↔
          queue ∈ r.growingQueues threshold) := by
  intro round checked r threshold
  have hforce : (m.run calls).PolicyInForce := (PolicyInForce.of_start hstart).run calls
  have hsound : round.Sound (m.run calls).settings := hforce.round readings
  have hnodup := hforce.recorded_nodup hdistinct
  refine ⟨rfl, Round.healthy_iff hsound hnodup _, fun _ => Round.message_eq hsound hnodup, rfl,
    MonitorResult.growingQueues_nodup _ _,
    fun _ _ hmem => Round.verdict_iff hsound hnodup _ hmem, ?_⟩
  intro told hactive queue hcontains
  obtain ⟨detail, hfind⟩ := Option.isSome_iff_exists.1 hcontains
  rw [Transitions.step_growing_contains told hactive, MonitorResult.mem_growingQueues_iff, hfind]
  simp

/-- A queue that grew between two checks, next to one that cannot be read. -/
theorem verdicts_agree_on_growth :
    ∃ m : Monitor Float, start briskSettings = .ok m ∧
      let checked := (m.run [.check [⟨"orders", .ok ⟨0, 1⟩⟩]]).check
        [⟨"orders", .ok ⟨1, 9⟩⟩, ⟨"bills", .error .unsupported⟩]
      checked.latest.growingQueues checked.growthPolicy.threshold = ["orders"] ∧
        checked.latest.healthy = false := by
  have hstart : start briskSettings = .ok ⟨true, briskSettings, .empty, .pending true⟩ :=
    start_eq_ok_iff.2 ⟨briskSettings_isAccepted, rfl⟩
  refine ⟨_, hstart, by decide +kernel, ?_⟩
  have hdistinct : (([⟨"orders", .ok ⟨1, 9⟩⟩, ⟨"bills", .error .unsupported⟩] :
      List Reading).map (·.queue)).Nodup := by decide
  obtain ⟨hlatest, hhealthy, _⟩ :=
    verdicts_agree hstart [.check [⟨"orders", .ok ⟨0, 1⟩⟩]] hdistinct
  rw [hlatest, ← Bool.not_eq_true, hhealthy]
  decide +kernel

end Monitor

end Backlog
