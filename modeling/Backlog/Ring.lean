/-!
# Rings

A ring keeps the last values that were pushed, up to a fixed capacity.  It grows
to its capacity and from then on each push overwrites the oldest value in place.
Its view is `toList`, oldest value first: a push appends to the view (`toList_push`),
and what it gives up is the front of a full one (`push_fst`).
-/

namespace Backlog

/-- The last values pushed, at most `capacity` many.  Once the ring is full, `head`
is the place of the oldest value; before that the values start at place zero. -/
structure Ring (α : Type) where
  slots : Array α
  capacity : Nat
  head : Nat
  head_lt : head < capacity
  size_le : slots.size ≤ capacity
  head_eq_zero : slots.size < capacity → head = 0

namespace Ring

variable {α : Type}

/-- The ring without values.  A capacity of zero counts as one. -/
def empty (capacity : Nat) : Ring α where
  slots := #[]
  capacity := max capacity 1
  head := 0
  head_lt := by omega
  size_le := by simp
  head_eq_zero := fun _ => rfl

/-- The number of values held. -/
def size (r : Ring α) : Nat := r.slots.size

/-- Whether there is no value. -/
def isEmpty (r : Ring α) : Bool := r.slots.isEmpty

/-- Whether the next push overwrites a value. -/
def isFull (r : Ring α) : Bool := decide (r.slots.size = r.capacity)

/-- The values held, oldest first. -/
def toList (r : Ring α) : List α :=
  r.slots.toList.drop r.head ++ r.slots.toList.take r.head

/-- A place in a full ring is a slot. -/
theorem head_lt_size {r : Ring α} (h : ¬r.slots.size < r.capacity) : r.head < r.slots.size := by
  have := r.head_lt
  omega

/-- Append a value.  A full ring gives up its oldest value, which is returned. -/
def push (r : Ring α) (a : α) : Option α × Ring α :=
  if h : r.slots.size < r.capacity then
    (none,
      { r with
        slots := r.slots.push a
        size_le := by simp only [Array.size_push]; omega
        head_eq_zero := fun _ => r.head_eq_zero h })
  else
    have hlt : r.head < r.slots.size := head_lt_size h
    (some r.slots[r.head],
      { r with
        slots := r.slots.set r.head a hlt
        head := (r.head + 1) % r.capacity
        head_lt := Nat.mod_lt _ (Nat.lt_of_le_of_lt (Nat.zero_le _) r.head_lt)
        size_le := by simp only [Array.size_set]; exact r.size_le
        head_eq_zero := fun hlt => by simp only [Array.size_set] at hlt; exact absurd hlt h })

/-- The oldest value held. -/
def oldest? (r : Ring α) : Option α := r.slots[r.head]?

/-- The place of the value pushed last, in a ring that is not empty. -/
def latestIndex (r : Ring α) : Nat :=
  if r.isFull then (r.head + r.capacity - 1) % r.capacity else r.slots.size - 1

/-- The value pushed last. -/
def latest? (r : Ring α) : Option α :=
  if r.slots.isEmpty then none else r.slots[r.latestIndex]?

/-- Drop all values; the capacity stays. -/
def clear (r : Ring α) : Ring α :=
  { r with
    slots := #[]
    head := 0
    head_lt := Nat.lt_of_le_of_lt (Nat.zero_le _) r.head_lt
    size_le := Nat.zero_le _
    head_eq_zero := fun _ => rfl }

/-! ### The view of each operation -/

@[simp] theorem toList_empty (capacity : Nat) : (empty capacity : Ring α).toList = [] := rfl

@[simp] theorem toList_clear (r : Ring α) : r.clear.toList = [] := rfl

/-- Before a ring is full its slots are its view. -/
theorem toList_of_lt {r : Ring α} (h : r.slots.size < r.capacity) : r.toList = r.slots.toList := by
  simp [toList, r.head_eq_zero h]

/-- The view holds as many values as the ring. -/
@[simp] theorem length_toList (r : Ring α) : r.toList.length = r.size := by
  have hlt := r.head_lt
  have hle := r.size_le
  have hzero := r.head_eq_zero
  simp only [toList, size, List.length_append, List.length_drop, List.length_take,
    Array.length_toList]
  omega

/-- A ring is full or has a free place. -/
theorem isFull_eq_false_iff {r : Ring α} : r.isFull = false ↔ r.slots.size < r.capacity := by
  have hle := r.size_le
  simp only [isFull, decide_eq_false_iff_not]
  omega

/-- The oldest value stands at the front of the view. -/
theorem oldest?_eq_head? (r : Ring α) : r.oldest? = r.toList.head? := by
  by_cases h : r.slots.size < r.capacity
  · simp [oldest?, toList_of_lt h, r.head_eq_zero h, List.head?_eq_getElem?]
  · have hlt := head_lt_size h
    have hne : ¬r.slots.size ≤ r.head := by omega
    simp [oldest?, toList, List.head?_append, hlt]

/-- A push appends to the view, and takes away its front once the ring is full. -/
theorem toList_push (r : Ring α) (a : α) :
    (r.push a).2.toList = (if r.isFull then r.toList.tail else r.toList) ++ [a] := by
  by_cases h : r.slots.size < r.capacity
  · have hfull := isFull_eq_false_iff.2 h
    simp [push, h, hfull, toList, r.head_eq_zero h]
  · have hlt := head_lt_size h
    have hsize : r.slots.size = r.capacity := Nat.le_antisymm r.size_le (Nat.not_lt.1 h)
    have hfull : r.isFull = true := by simp [isFull, hsize]
    have hlen : r.head < r.slots.toList.length := by simpa using hlt
    have htail :
        r.toList.tail = r.slots.toList.drop (r.head + 1) ++ r.slots.toList.take r.head := by
      rw [toList, List.drop_eq_getElem_cons hlen]; rfl
    rw [hfull, if_pos rfl, htail]
    simp only [push, dif_neg h, toList, Array.toList_set]
    by_cases hwrap : r.head + 1 < r.capacity
    · rw [Nat.mod_eq_of_lt hwrap, List.drop_set_of_lt (by omega), List.take_add_one]
      simp [List.take_set_of_le, hlt, List.append_assoc]
    · have hlast : r.head + 1 = r.capacity := by have := r.head_lt; omega
      have hdrop : r.slots.toList.drop (r.head + 1) = [] := by
        simp only [List.drop_eq_nil_iff, Array.length_toList]; omega
      rw [hlast, Nat.mod_self, ← hlast, hdrop]
      simp [List.set_eq_take_append_cons_drop, hlt, hdrop]

/-- What a push gives up is the front of the view of a full ring. -/
theorem push_fst (r : Ring α) (a : α) :
    (r.push a).1 = if r.isFull then r.toList.head? else none := by
  by_cases h : r.slots.size < r.capacity
  · simp [push, h, isFull_eq_false_iff.2 h]
  · have hlt := head_lt_size h
    have hfull : r.isFull = true := by
      cases hf : r.isFull with
      | true => rfl
      | false => exact absurd (isFull_eq_false_iff.1 hf) h
    rw [hfull, if_pos rfl, ← oldest?_eq_head?]
    simp [push, h, oldest?, hlt]

/-- The value pushed last stands at the end of the view. -/
theorem latest?_eq_getLast? (r : Ring α) : r.latest? = r.toList.getLast? := by
  by_cases h : r.slots.size < r.capacity
  · by_cases hz : r.slots = #[]
    · simp [latest?, toList_of_lt h, hz]
    · simp [latest?, latestIndex, toList_of_lt h, isFull_eq_false_iff.2 h,
        List.getLast?_eq_getElem?, hz]
  · have hlt := head_lt_size h
    have hsize : r.slots.size = r.capacity := Nat.le_antisymm r.size_le (Nat.not_lt.1 h)
    have hfull : r.isFull = true := by simp [isFull, hsize]
    have hne : r.slots ≠ #[] := fun he => by simp [he] at hlt
    simp only [latest?, Array.isEmpty_iff, hne, if_false, latestIndex, hfull, if_true, toList]
    by_cases hz : r.head = 0
    · have : (r.head + r.capacity - 1) % r.capacity = r.capacity - 1 := by
        rw [hz, Nat.zero_add]; exact Nat.mod_eq_of_lt (by have := r.head_lt; omega)
      rw [this]
      simp [hz, List.getLast?_eq_getElem?, hsize]
    · have : (r.head + r.capacity - 1) % r.capacity = r.head - 1 := by
        have : r.head + r.capacity - 1 = r.head - 1 + r.capacity := by omega
        rw [this, Nat.add_mod_right]; exact Nat.mod_eq_of_lt (by have := r.head_lt; omega)
      rw [this, List.getLast?_append, List.getLast?_take]
      have hin : r.head - 1 < r.slots.size := by omega
      simp [hz, hin]

end Ring

end Backlog
