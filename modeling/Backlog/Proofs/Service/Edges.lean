import Backlog.Proofs.Service.Transitions
import Backlog.Proofs.Table
import Mathlib.Data.List.Basic

/-!
# What there is to tell about a row of rounds

The activity log tells the edges of a row of rounds, and this file says what the edges are
without any memory, from the rounds themselves.  Rounds stand with the latest first, so a
round is compared with the row of the rounds before it:

* `healthEdges`: the health, unless it is that of the round before;
* `growthEdges`: each queue of an active round whose flag `isGrowing` is not what it was;
* `skipEdges`: each queue left out for a reason that the round before did not give.

`Transitions` reaches the same with three memories, one for each kind (`Remembers.step`).  From
the definition of the flag alone it follows that within a stretch of active rounds the
events of growth and of recovery of each queue take turns (`alternate`).
-/

namespace Backlog

/-- What a round was: the threshold in force in it, and its result. -/
structure Observation where
  threshold : Float
  result : MonitorResult Float

namespace Observation

/-- Whether a queue counts as growing after some rounds, the latest first. -/
def isGrowing (queue : String) : List Observation → Bool
  | [] => false
  | now :: earlier =>
    if now.result.active then
      match now.result.details.find? queue with
      | some detail => Scalar.lt now.threshold detail.slopePercent
      | none => isGrowing queue earlier
    else false

/-- The health is told in the first round, and whenever it changed. -/
def healthEdges (earlier : List Observation) (now : Observation) : List Event :=
  if earlier.head?.map (·.result.healthy) = some now.result.healthy then []
  else [.healthChanged now.result.healthy now.result.message]

/-- A queue with a new sample is told if its flag rises or falls. -/
def growthEdge (earlier : List Observation) (now : Observation)
    (entry : String × QueueDetail Float) : Option Event :=
  match isGrowing entry.1 earlier, isGrowing entry.1 (now :: earlier) with
  | false, true => some (.growthDetected entry.1 entry.2)
  | true, false => some (.recovered entry.1 entry.2)
  | _, _ => none

/-- What is told about growing queues, in the order of their ids; nothing while the check is
not active. -/
def growthEdges (earlier : List Observation) (now : Observation) : List Event :=
  if now.result.active then now.result.details.entries.filterMap (growthEdge earlier now) else []

/-- The reason for which a queue was left out of the round before, if it was. -/
def lastReason (earlier : List Observation) (queue : String) : Option String :=
  earlier.head?.bind fun before => before.result.skipped.find? queue

/-- A queue that is left out is told unless the round before left it out for the same
reason. -/
def skipEdges (earlier : List Observation) (now : Observation) : List Event :=
  now.result.skipped.entries.filterMap fun (queue, reason) =>
    if lastReason earlier queue = some reason then none else some (.skipped queue reason)

/-- All that is told about a round. -/
def edges (earlier : List Observation) (now : Observation) : List Event :=
  healthEdges earlier now ++ growthEdges earlier now ++ skipEdges earlier now

/-- All that is told about a row of rounds that follow on earlier ones, in the order in
which it is told. -/
def edgesAfter (earlier : List Observation) : List Observation → List Event
  | [] => []
  | now :: before => edgesAfter earlier before ++ edges (before ++ earlier) now

end Observation

/-! ## The memory of the log -/

namespace Transitions

/-- What the log remembers is what the rounds say. -/
structure Remembers (t : Transitions) (earlier : List Observation) : Prop where
  health : t.lastHealthy = earlier.head?.map (·.result.healthy)
  growing : ∀ queue, t.growing.contains queue = Observation.isGrowing queue earlier
  skipped : ∀ queue, t.lastSkipped.find? queue = Observation.lastReason earlier queue

theorem remembers_start : start.Remembers [] where
  health := rfl
  growing _ := rfl
  skipped _ := rfl

/-- The event about one entry, with the growing queues before. -/
def growthEvent (threshold : Float) (growing : Table Unit)
    (entry : String × QueueDetail Float) : Option Event :=
  match growing.contains entry.1, Scalar.lt threshold entry.2.slopePercent with
  | false, true => some (.growthDetected entry.1 entry.2)
  | true, false => some (.recovered entry.1 entry.2)
  | _, _ => none

theorem growthStep_events (threshold : Float) (told : List Event × Table Unit)
    (entry : String × QueueDetail Float) :
    (growthStep threshold told entry).1 =
      told.1 ++ (growthEvent threshold told.2 entry).toList := by
  obtain ⟨events, growing⟩ := told
  simp only [growthStep, growthEvent]
  cases growing.contains entry.1 <;> cases Scalar.lt threshold entry.2.slopePercent <;> simp

/-- Each entry is told by the flag of its own queue, which no other entry touches. -/
theorem foldl_growthStep_events (threshold : Float)
    {entries : List (String × QueueDetail Float)}
    (hascending : entries.Pairwise fun a b => a.1 < b.1) (told : List Event × Table Unit) :
    (entries.foldl (growthStep threshold) told).1 =
      told.1 ++ entries.filterMap (growthEvent threshold told.2) := by
  induction entries generalizing told with
  | nil => simp
  | cons entry rest ih =>
      obtain ⟨hfirst, hrest⟩ := List.pairwise_cons.1 hascending
      have hkeep : rest.filterMap (growthEvent threshold (growthStep threshold told entry).2) =
          rest.filterMap (growthEvent threshold told.2) := by
        refine List.filterMap_congr fun e he => ?_
        have hne : entry.1 ≠ e.1 := String.ne_of_lt (hfirst e he)
        simp only [growthEvent, growthStep_contains, if_neg hne]
      rw [List.foldl_cons, ih hrest, growthStep_events, hkeep, List.append_assoc,
        List.filterMap_cons]
      cases growthEvent threshold told.2 entry <;> rfl

theorem growthEvents_eq (t : Transitions) {earlier : List Observation}
    (hgrowing : ∀ queue, t.growing.contains queue = Observation.isGrowing queue earlier)
    (now : Observation) :
    (t.growthEvents now.threshold now.result).1 = Observation.growthEdges earlier now := by
  unfold growthEvents Observation.growthEdges
  split
  · next hactive =>
    rw [foldl_growthStep_events now.threshold now.result.details.ascending, List.nil_append]
    refine List.filterMap_congr fun entry hentry => ?_
    have hfind : now.result.details.find? entry.1 = some entry.2 :=
      Table.find?_eq_some_iff.2 hentry
    have hflag : Observation.isGrowing entry.1 (now :: earlier) =
        Scalar.lt now.threshold entry.2.slopePercent := by
      rw [Observation.isGrowing, if_pos hactive, hfind]
    rw [growthEvent, Observation.growthEdge, hgrowing, hflag]
  · rfl

theorem step_growing_eq (t : Transitions) {earlier : List Observation}
    (hgrowing : ∀ queue, t.growing.contains queue = Observation.isGrowing queue earlier)
    (now : Observation) (queue : String) :
    (t.step now.threshold now.result).2.growing.contains queue =
      Observation.isGrowing queue (now :: earlier) := by
  rw [Observation.isGrowing]
  split
  · next hactive =>
    rw [step_growing_contains t hactive]
    cases now.result.details.find? queue with
    | some detail => rfl
    | none => exact hgrowing queue
  · next hactive =>
    simp only [step, growthEvents, if_neg hactive]
    rfl

/-- A round is told by its edges, and is remembered. -/
theorem Remembers.step {t : Transitions} {earlier : List Observation} (h : t.Remembers earlier)
    (now : Observation) :
    (t.step now.threshold now.result).1 = Observation.edges earlier now ∧
      (t.step now.threshold now.result).2.Remembers (now :: earlier) := by
  refine ⟨?_, rfl, t.step_growing_eq h.growing now, fun _ => rfl⟩
  have hhealth : t.healthEvents now.result = Observation.healthEdges earlier now := by
    rw [healthEvents, Observation.healthEdges, h.health]
  have hskip : t.skipEvents now.result = Observation.skipEdges earlier now := by
    simp only [skipEvents, Observation.skipEdges, h.skipped]
  rw [Observation.edges, ← hhealth, ← t.growthEvents_eq h.growing now, ← hskip]
  rfl

end Transitions

/-! ## Rows that take turns -/

/-- A row in which two values take turns. -/
def Alternates {α : Type} (first second : α) : List α → Prop
  | [] => True
  | a :: rest => a = first ∧ Alternates second first rest

/-- A row is continued with the value that was not the last; before the first value of the
row the second one counts as the last. -/
theorem Alternates.concat {α : Type} {first second a : α} (hne : first ≠ second) {row : List α}
    (h : Alternates first second row)
    (ha : row.getLast?.getD second = second ∧ a = first ∨
      row.getLast?.getD second = first ∧ a = second) :
    Alternates first second (row ++ [a]) := by
  induction row generalizing first second with
  | nil =>
      rcases ha with ⟨_, rfl⟩ | ⟨heq, _⟩
      · exact ⟨rfl, trivial⟩
      · exact absurd heq.symm hne
  | cons b rest ih =>
      obtain ⟨rfl, hrest⟩ := h
      rw [List.getLast?_cons, Option.getD_some] at ha
      exact ⟨rfl, ih hne.symm hrest ha.symm⟩

/-- Whether an event says that a queue began to grow, or ceased to. -/
def Event.growth? (queue : String) : Event → Option Bool
  | .growthDetected q _ => if q = queue then some true else none
  | .recovered q _ => if q = queue then some false else none
  | _ => none

namespace Observation

variable {queue : String}

/-- A round without an active check takes down all flags. -/
theorem isGrowing_of_inactive {earlier : List Observation}
    (h : ∀ o ∈ earlier.head?, o.result.active = false) : isGrowing queue earlier = false := by
  cases earlier with
  | nil => rfl
  | cons now before => rw [isGrowing, h now rfl, if_neg Bool.false_ne_true]

theorem growth?_healthEdges (earlier : List Observation) (now : Observation) :
    (healthEdges earlier now).filterMap (Event.growth? queue) = [] := by
  unfold healthEdges
  split <;> rfl

theorem growth?_skipEdges (earlier : List Observation) (now : Observation) :
    (skipEdges earlier now).filterMap (Event.growth? queue) = [] := by
  rw [skipEdges, List.filterMap_filterMap, List.filterMap_eq_nil_iff]
  rintro ⟨q, reason⟩ -
  dsimp only
  split <;> rfl

/-- What the edge of one entry says about a queue. -/
theorem growth?_growthEdge (earlier : List Observation) (now : Observation)
    (entry : String × QueueDetail Float) :
    (growthEdge earlier now entry).bind (Event.growth? queue) =
      if entry.1 = queue ∧ isGrowing queue (now :: earlier) ≠ isGrowing queue earlier then
        some (isGrowing queue (now :: earlier))
      else none := by
  by_cases hq : entry.1 = queue
  · subst hq
    unfold growthEdge
    cases isGrowing entry.1 earlier <;> cases isGrowing entry.1 (now :: earlier) <;>
      simp [Event.growth?]
  · rw [if_neg fun h => hq h.1]
    unfold growthEdge
    cases isGrowing entry.1 earlier <;> cases isGrowing entry.1 (now :: earlier) <;>
      simp [Event.growth?, hq]

/-- A queue is told of a round at most once, and exactly if its flag changed while the check
was active. -/
theorem growth?_edges (queue : String) (earlier : List Observation) {now : Observation}
    (hactive : now.result.active = true) :
    (edges earlier now).filterMap (Event.growth? queue) =
      if isGrowing queue (now :: earlier) = isGrowing queue earlier then []
      else [isGrowing queue (now :: earlier)] := by
  have hgrowth : (edges earlier now).filterMap (Event.growth? queue) =
      now.result.details.entries.filterMap fun entry =>
        (growthEdge earlier now entry).bind (Event.growth? queue) := by
    rw [edges, List.filterMap_append, List.filterMap_append, growth?_healthEdges,
      growth?_skipEdges, List.nil_append, List.append_nil, growthEdges, if_pos hactive,
      List.filterMap_filterMap]
  rw [hgrowth]
  simp only [growth?_growthEdge]
  split
  · next hsame => simp [hsame]
  · next hchanged =>
    -- a flag that changed is that of a queue with a new sample
    have hcontains : now.result.details.contains queue = true := by
      rw [Table.contains, Option.isSome_iff_ne_none]
      intro hnone
      exact hchanged (by rw [isGrowing, if_pos hactive, hnone])
    simp only [ne_eq, hchanged, not_false_eq_true, and_true]
    rw [Table.filterMap_key, if_pos hcontains]

/-- **The events of growth and recovery of a queue take turns, beginning with growth**, as
long as the check is active; and the last of them is the flag of the queue. -/
theorem alternate (queue : String) {earlier : List Observation}
    (hbegin : isGrowing queue earlier = false) {later : List Observation}
    (hactive : ∀ o ∈ later, o.result.active = true) :
    let told := (edgesAfter earlier later).filterMap (Event.growth? queue)
    Alternates true false told ∧ told.getLast?.getD false = isGrowing queue (later ++ earlier) := by
  induction later with
  | nil => exact ⟨trivial, hbegin.symm⟩
  | cons now before ih =>
      obtain ⟨halternates, hlast⟩ := ih fun o ho => hactive o (List.mem_cons_of_mem _ ho)
      have hnow := growth?_edges queue (before ++ earlier) (hactive now List.mem_cons_self)
      intro told
      have htold : told = (edgesAfter earlier before).filterMap (Event.growth? queue) ++
          (edges (before ++ earlier) now).filterMap (Event.growth? queue) := by
        rw [← List.filterMap_append]
        rfl
      rw [htold, hnow]
      split
      · next hsame =>
        rw [List.append_nil, List.cons_append, hsame]
        exact ⟨halternates, hlast⟩
      · next hchanged =>
        refine ⟨halternates.concat (by decide) ?_, by simp⟩
        rw [hlast]
        revert hchanged
        cases isGrowing queue (before ++ earlier) <;>
          cases isGrowing queue (now :: (before ++ earlier)) <;> simp

end Observation

/-! ## The health -/

/-- What an event says about the health of the whole. -/
def Event.health? : Event → Option Bool
  | .healthChanged healthy _ => some healthy
  | _ => none

namespace Observation

theorem health?_growthEdges (earlier : List Observation) (now : Observation) :
    (growthEdges earlier now).filterMap Event.health? = [] := by
  unfold growthEdges
  split
  · rw [List.filterMap_filterMap, List.filterMap_eq_nil_iff]
    intro entry _
    unfold growthEdge
    cases isGrowing entry.1 earlier <;> cases isGrowing entry.1 (now :: earlier) <;> rfl
  · rfl

theorem health?_skipEdges (earlier : List Observation) (now : Observation) :
    (skipEdges earlier now).filterMap Event.health? = [] := by
  rw [skipEdges, List.filterMap_filterMap, List.filterMap_eq_nil_iff]
  rintro ⟨q, reason⟩ -
  dsimp only
  split <;> rfl

theorem health?_edges (earlier : List Observation) (now : Observation) :
    (edges earlier now).filterMap Event.health? =
      if earlier.head?.map (·.result.healthy) = some now.result.healthy then []
      else [now.result.healthy] := by
  rw [edges, List.filterMap_append, List.filterMap_append, health?_growthEdges,
    health?_skipEdges, List.append_nil, List.append_nil, healthEdges]
  split <;> rfl

/-- What was last told about the health is the health of the last round. -/
theorem health_edgesAfter (rounds : List Observation) :
    ((edgesAfter [] rounds).filterMap Event.health?).getLast? =
      rounds.head?.map (·.result.healthy) := by
  induction rounds with
  | nil => rfl
  | cons now before ih =>
      rw [edgesAfter, List.append_nil, List.filterMap_append, health?_edges]
      split
      · next hsame => rw [List.append_nil, ih, hsame, List.head?_cons, Option.map_some]
      · rw [List.getLast?_concat, List.head?_cons, Option.map_some]

end Observation

end Backlog
