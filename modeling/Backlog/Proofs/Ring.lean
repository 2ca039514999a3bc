import Backlog.Ring
import Mathlib.Data.List.DropRight

/-!
# Rings as windows

A ring that starts empty holds the last values that were pushed, as many as its capacity
admits: it shows a window of the row of all of them (`Ring.Shows`).  One step lemma carries
everything, `Ring.Shows.push`: a further push takes away the front of the window exactly when as
many values as the capacity have been pushed before.

A clear begins the row anew, so after pushes and clears in any order it is the row since the last
clear (`Ring.shows_run`, `Ring.is_bounded_list`).  With pushes alone it is that of all pushed values
(`Ring.toList_pushAll`).
-/

namespace Backlog

namespace Ring

variable {α : Type}

@[simp] theorem capacity_push (r : Ring α) (a : α) : (r.push a).2.capacity = r.capacity := by
  unfold push
  split <;> rfl

theorem isFull_iff_size {r : Ring α} : r.isFull = true ↔ r.size = r.capacity := by
  rw [isFull, decide_eq_true_eq, size]

theorem isEmpty_iff_size {r : Ring α} : r.isEmpty = true ↔ r.size = 0 :=
  Array.isEmpty_iff_size_eq_zero

theorem isEmpty_eq_false_iff {r : Ring α} : r.isEmpty = false ↔ 0 < r.size := by
  rw [← Bool.not_eq_true, isEmpty_iff_size, Nat.pos_iff_ne_zero]

theorem size_pos_of_isFull {r : Ring α} (h : r.isFull = true) : 0 < r.size := by
  rw [isFull_iff_size.1 h]
  exact Nat.zero_lt_of_lt r.head_lt

theorem toList_ne_nil_of_isFull {r : Ring α} (h : r.isFull = true) : r.toList ≠ [] := by
  apply List.ne_nil_of_length_pos
  rw [length_toList]
  exact size_pos_of_isFull h

/-- A push makes the view longer, or its front goes and is given up. -/
theorem push_cases (r : Ring α) (a : α) :
    ((r.push a).1 = none ∧ (r.push a).2.toList = r.toList ++ [a]) ∨
      ∃ oldest rest, r.toList = oldest :: rest ∧ (r.push a).1 = some oldest ∧
        (r.push a).2.toList = rest ++ [a] := by
  rw [push_fst, toList_push]
  cases hfull : r.isFull with
  | false => exact .inl ⟨rfl, rfl⟩
  | true =>
      obtain ⟨oldest, rest, hview⟩ := List.exists_cons_of_ne_nil (toList_ne_nil_of_isFull hfull)
      rw [hview]
      exact .inr ⟨oldest, rest, rfl, rfl, rfl⟩

/-- Nothing gets lost by a push: what it gives up stands in front of what is shown afterwards. -/
theorem push_toList_append (r : Ring α) (a : α) :
    (r.push a).1.toList ++ (r.push a).2.toList = r.toList ++ [a] := by
  obtain ⟨hnone, hnext⟩ | ⟨oldest, rest, hview, hsome, hnext⟩ := push_cases r a
  · rw [hnone, hnext]
    rfl
  · rw [hsome, hnext, hview]
    rfl

/-- One more value enters a window at the back and takes away the front of a full one. -/
theorem rtake_concat (values : List α) (a : α) {n : ℕ} (hn : 0 < n) :
    (values ++ [a]).rtake n =
      (if n ≤ values.length then (values.rtake n).tail else values.rtake n) ++ [a] := by
  obtain ⟨m, rfl⟩ : ∃ m, n = m + 1 := ⟨n - 1, by omega⟩
  rw [List.rtake_concat_succ]
  congr 1
  split
  · rename_i hfull
    rw [List.rtake, List.rtake, List.tail_drop]
    congr 1
    omega
  · rename_i hroom
    have hlong : values.length - m = 0 := by omega
    have hlonger : values.length - (m + 1) = 0 := by omega
    rw [List.rtake, List.rtake, hlong, hlonger]

theorem length_rtake (values : List α) (n : ℕ) :
    (values.rtake n).length = min values.length n := by
  rw [List.rtake, List.length_drop]
  omega

theorem rtake_map {β : Type} (f : α → β) (values : List α) (n : ℕ) :
    (values.map f).rtake n = (values.rtake n).map f := by
  simp [List.rtake]

/-- Windows over two rows of one length cut off the same front. -/
theorem rtake_zip {β : Type} {values : List α} {others : List β}
    (h : values.length = others.length) (n : ℕ) :
    (values.zip others).rtake n = (values.rtake n).zip (others.rtake n) := by
  have hlength : (values.zip others).length = values.length := by simp [h]
  simp only [List.rtake, hlength, ← h]
  exact List.drop_zipWith

/-- The ring shows the last values of a row, as many as it has room for. -/
def Shows (r : Ring α) (values : List α) : Prop := r.toList = values.rtake r.capacity

namespace Shows

variable {r : Ring α} {values : List α}

theorem isFull_iff (h : r.Shows values) : r.isFull = true ↔ r.capacity ≤ values.length := by
  -- the view is as long as the window, so its length tells whether the ring is full
  rw [isFull_iff_size, ← length_toList, h, length_rtake]
  omega

theorem push (h : r.Shows values) (a : α) : (r.push a).2.Shows (values ++ [a]) := by
  have hpos : 0 < r.capacity := Nat.zero_lt_of_lt r.head_lt
  rw [Shows, capacity_push, toList_push, rtake_concat _ _ hpos, h]
  simp only [h.isFull_iff]

end Shows

theorem shows_empty (capacity : ℕ) : (empty capacity : Ring α).Shows [] := by
  simp [Shows]

theorem shows_clear (r : Ring α) : r.clear.Shows [] := by
  simp [Shows]

end Ring

/-! ## Rows of pushes and clears -/

/-- What can be done to a ring. -/
inductive RingCall (α : Type) where
  | push (a : α)
  | clear

namespace RingCall

variable {α : Type}

/-- The values pushed since the last clear, one more call after a row of them. -/
def keep (values : List α) : RingCall α → List α
  | push a => values ++ [a]
  | clear => []

/-- The values that a row of calls pushes after its last clear. -/
def sinceClear (calls : List (RingCall α)) : List α := calls.foldl keep []

theorem sinceClear_concat (calls : List (RingCall α)) (call : RingCall α) :
    sinceClear (calls ++ [call]) = keep (sinceClear calls) call := by
  rw [sinceClear, List.foldl_concat]
  rfl

theorem sinceClear_map_push (values : List α) : sinceClear (values.map push) = values := by
  induction values using List.reverseRecOn with
  | nil => rfl
  | append_singleton values a ih =>
      rw [List.map_append, List.map_singleton, sinceClear_concat, ih]
      rfl

end RingCall

namespace Ring

variable {α : Type}

/-- The ring after a call. -/
def after (r : Ring α) : RingCall α → Ring α
  | .push a => (r.push a).2
  | .clear => r.clear

/-- The ring after a row of calls. -/
def run (r : Ring α) (calls : List (RingCall α)) : Ring α := calls.foldl after r

theorem run_concat (r : Ring α) (calls : List (RingCall α)) (call : RingCall α) :
    r.run (calls ++ [call]) = (r.run calls).after call := by
  rw [run, List.foldl_concat]
  rfl

@[simp] theorem capacity_after (r : Ring α) (call : RingCall α) :
    (r.after call).capacity = r.capacity := by
  cases call with
  | push a => exact capacity_push r a
  | clear => rfl

@[simp] theorem capacity_run (r : Ring α) (calls : List (RingCall α)) :
    (r.run calls).capacity = r.capacity := by
  induction calls using List.reverseRecOn with
  | nil => rfl
  | append_singleton calls call ih => rw [run_concat, capacity_after, ih]

theorem Shows.after {r : Ring α} {values : List α} (h : r.Shows values) (call : RingCall α) :
    (r.after call).Shows (call.keep values) := by
  cases call with
  | push a => exact h.push a
  | clear => exact shows_clear r

theorem shows_run (capacity : ℕ) (calls : List (RingCall α)) :
    ((empty capacity).run calls).Shows (RingCall.sinceClear calls) := by
  induction calls using List.reverseRecOn with
  | nil => exact shows_empty capacity
  | append_singleton calls call ih =>
      rw [run_concat, RingCall.sinceClear_concat]
      exact ih.after call

/-! ## Rows of pushes -/

/-- Push a row of values, one after the other. -/
def pushAll (r : Ring α) (values : List α) : Ring α :=
  values.foldl (fun r a => (r.push a).2) r

theorem pushAll_concat (r : Ring α) (values : List α) (a : α) :
    r.pushAll (values ++ [a]) = ((r.pushAll values).push a).2 := by
  rw [pushAll, List.foldl_concat]
  rfl

theorem pushAll_eq_run (r : Ring α) (values : List α) :
    r.pushAll values = r.run (values.map .push) := by
  rw [run, List.foldl_map]
  rfl

@[simp] theorem capacity_pushAll (r : Ring α) (values : List α) :
    (r.pushAll values).capacity = r.capacity := by
  rw [pushAll_eq_run, capacity_run]

theorem shows_pushAll (capacity : ℕ) (values : List α) :
    ((empty capacity).pushAll values).Shows values := by
  have hshows := shows_run capacity (values.map .push)
  rwa [← pushAll_eq_run, RingCall.sinceClear_map_push] at hshows

theorem toList_pushAll (capacity : ℕ) (values : List α) :
    ((empty capacity).pushAll values).toList = values.rtake (max capacity 1) := by
  rw [shows_pushAll, capacity_pushAll]
  rfl

theorem latest?_pushAll (capacity : ℕ) (values : List α) :
    ((empty capacity).pushAll values).latest? = values.getLast? := by
  rw [latest?_eq_getLast?, toList_pushAll, List.rtake, List.getLast?_drop]
  split
  · rename_i hle
    have hnil : values = [] := List.length_eq_zero_iff.1 (by omega)
    rw [hnil]
    rfl
  · rfl

theorem size_pushAll (capacity : ℕ) (values : List α) :
    ((empty capacity).pushAll values).size = min values.length (max capacity 1) := by
  rw [← length_toList, toList_pushAll, length_rtake]

/-! ## What is read off the view -/

theorem isEmpty_eq (r : Ring α) : r.isEmpty = r.toList.isEmpty := by
  rw [Bool.eq_iff_iff, isEmpty_iff_size, List.isEmpty_iff_length_eq_zero, length_toList]

theorem isFull_eq (r : Ring α) : r.isFull = decide (r.toList.length = r.capacity) := by
  rw [length_toList]
  rfl

/-! ## The places that are looked at -/

theorem head_le_size (r : Ring α) : r.head ≤ r.slots.size := by
  have hlt := r.head_lt
  have hzero := r.head_eq_zero
  omega

theorem head_lt_size_of_pos {r : Ring α} (hpos : 0 < r.size) : r.head < r.slots.size := by
  have hlt := r.head_lt
  have hzero := r.head_eq_zero
  unfold size at hpos
  omega

theorem latestIndex_lt_size {r : Ring α} (hpos : 0 < r.size) : r.latestIndex < r.slots.size := by
  unfold latestIndex
  split
  · rename_i hfull
    have hsize : r.slots.size = r.capacity := isFull_iff_size.1 hfull
    rw [hsize]
    exact Nat.mod_lt _ (Nat.zero_lt_of_lt r.head_lt)
  · exact Nat.sub_one_lt_of_lt hpos

/-- **A ring is a bounded list.**  Take any row of pushes and clears, and of the values pushed since
the last clear the last ones, as many as the capacity says.  A capacity of zero counts as one.

* The view of the ring is this window, and so are its oldest and its latest value, its size, and
  whether it is empty or full.
* A push gives up a value exactly if this value leaves the front of the window, and nothing exactly
  if the window only grows.
* Wherever the ring looks for a value there is a slot: the view is cut at a place that is not
  behind the slots, a push overwrites a slot, and the oldest and the latest value stand in one. -/
theorem is_bounded_list (capacity : ℕ) (calls : List (RingCall α)) :
    let r := (empty capacity).run calls
    let pushed := RingCall.sinceClear calls
    let window := pushed.rtake (max capacity 1)
    (window <:+ pushed ∧ window.length = min pushed.length (max capacity 1)) ∧
    (r.toList = window ∧ r.oldest? = window.head? ∧ r.latest? = window.getLast? ∧
      r.size = window.length ∧ r.isEmpty = window.isEmpty ∧
      r.isFull = decide (window.length = max capacity 1)) ∧
    (∀ a,
      let next := (pushed ++ [a]).rtake (max capacity 1)
      (r.push a).2.toList = next ∧
        ((r.push a).1 = none ↔ next = window ++ [a]) ∧
        ∀ oldest, (r.push a).1 = some oldest ↔ oldest :: next = window ++ [a]) ∧
    r.head ≤ r.slots.size ∧ (r.isFull = true → r.head < r.slots.size) ∧
      (r.isEmpty = false → r.head < r.slots.size ∧ r.latestIndex < r.slots.size) := by
  intro r pushed window
  have hcapacity : r.capacity = max capacity 1 := capacity_run _ calls
  have hshows : r.Shows pushed := shows_run capacity calls
  have hview : r.toList = window := by rw [hshows, hcapacity]
  refine ⟨⟨List.drop_suffix _ _, length_rtake pushed _⟩, ⟨hview, ?_, ?_, ?_, ?_, ?_⟩, ?_, ?_⟩
  · rw [oldest?_eq_head?, hview]
  · rw [latest?_eq_getLast?, hview]
  · rw [← length_toList, hview]
  · rw [isEmpty_eq, hview]
  · rw [isFull_eq, hview, hcapacity]
  · intro a next
    have hnext : (r.push a).2.toList = next := by
      rw [hshows.push a, capacity_push, hcapacity]
    have hrow := push_toList_append r a
    rw [hnext, hview] at hrow
    refine ⟨hnext, ?_, fun oldest => ?_⟩
    · rw [← hrow, List.self_eq_append_left, Option.toList_eq_nil_iff]
    · rw [← hrow, ← List.singleton_append, List.append_left_inj, eq_comm (a := [oldest]),
        Option.toList_eq_singleton_iff]
  · refine ⟨head_le_size r, fun hfull => ?_, fun hne => ?_⟩
    · exact head_lt_size_of_pos (size_pos_of_isFull hfull)
    · have hpos := isEmpty_eq_false_iff.1 hne
      exact ⟨head_lt_size_of_pos hpos, latestIndex_lt_size hpos⟩

end Ring

end Backlog
