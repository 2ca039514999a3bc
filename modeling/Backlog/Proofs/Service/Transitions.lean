import Backlog.Proofs.Table
import Backlog.Service.Transitions

/-!
# What transitions remember

`Transitions.growing` holds the queues that were told to grow.  One entry of a result sets
the flag of its own queue to the comparison of its slope with the threshold and leaves the
other flags alone (`growthStep_contains`), so after a result with an active check the flag
of a queue is that comparison if the queue is in the details, and the old flag if it is not
(`step_growing_contains`).
-/

namespace Backlog.Transitions

theorem growthStep_contains (threshold : Float) (told : List Event × Table Unit)
    (entry : String × QueueDetail Float) (queue : String) :
    (growthStep threshold told entry).2.contains queue =
      if entry.1 = queue then Scalar.lt threshold entry.2.slopePercent
      else told.2.contains queue := by
  obtain ⟨events, growing⟩ := told
  obtain ⟨q, detail⟩ := entry
  -- where nothing is told, the flag of the queue is the comparison already
  have hkept : ∀ flag, growing.contains q = flag →
      growing.contains queue = if q = queue then flag else growing.contains queue := by
    rintro flag rfl
    split
    · rename_i hq
      rw [hq]
    · rfl
  simp only [growthStep]
  cases Scalar.lt threshold detail.slopePercent with
  | true =>
      cases htold : growing.contains q with
      | true => exact hkept true htold
      | false =>
          show (growing.insert q ()).contains queue = _
          rw [Table.contains_insert]
          by_cases hq : q = queue <;> simp [hq]
  | false =>
      cases htold : growing.contains q with
      | true =>
          show (growing.erase q).contains queue = _
          rw [Table.contains_erase]
          by_cases hq : q = queue <;> simp [hq]
      | false => exact hkept false htold

/-- The flags after a row of entries: the last entry of a queue decides its flag. -/
theorem foldl_growthStep_contains (threshold : Float) {entries : List (String × QueueDetail Float)}
    (hascending : entries.Pairwise fun a b => a.1 < b.1) (told : List Event × Table Unit)
    (queue : String) :
    (entries.foldl (growthStep threshold) told).2.contains queue =
      match (entries.find? (·.1 == queue)).map (·.2) with
      | some detail => Scalar.lt threshold detail.slopePercent
      | none => told.2.contains queue := by
  induction entries generalizing told with
  | nil => rfl
  | cons entry rest ih =>
      obtain ⟨hfirst, hrest⟩ := List.pairwise_cons.1 hascending
      rw [List.foldl_cons, ih hrest, growthStep_contains]
      by_cases hq : entry.1 = queue
      · have hnone : rest.find? (·.1 == queue) = none := by
          rw [List.find?_eq_none]
          intro e he heq
          exact String.ne_of_lt (hfirst e he) (hq.trans (beq_iff_eq.1 heq).symm)
        simp [hnone, hq]
      · simp [hq]

/-- The flag of a queue after a result of an active check. -/
theorem step_growing_contains (t : Transitions) {threshold : Float} {r : MonitorResult Float}
    (hactive : r.active = true) (queue : String) :
    (t.step threshold r).2.growing.contains queue =
      match r.details.find? queue with
      | some detail => Scalar.lt threshold detail.slopePercent
      | none => t.growing.contains queue := by
  simp only [step, growthEvents, if_pos hactive]
  exact foldl_growthStep_contains threshold r.details.ascending ([], t.growing) queue

end Backlog.Transitions
