/-!
# Tables keyed by text

A table holds at most one value for each key and lists its keys in code point
order.  Its entries are a strictly ascending list, so two tables with the same
values are equal.  Its view is `find?`: an insertion and an erasure change it under
their key only (`find?_insert`, `find?_erase`).
-/

namespace Backlog

/-- Values under distinct keys, in the order of the keys. -/
structure Table (α : Type) where
  entries : List (String × α)
  ascending : entries.Pairwise (fun a b => a.1 < b.1)

namespace Table

variable {α β : Type}

/-- Two tables with the same entries are the same. -/
theorem ext_entries {s t : Table α} (h : s.entries = t.entries) : s = t := by
  cases s; cases t; cases h; rfl

instance [DecidableEq α] : DecidableEq (Table α) := fun s t =>
  if h : s.entries = t.entries then .isTrue (ext_entries h)
  else .isFalse fun e => h (e ▸ rfl)

/-- The table without entries. -/
def empty : Table α := ⟨[], .nil⟩

instance : Inhabited (Table α) := ⟨empty⟩

/-- Put a value into its place; a value under the same key gives way. -/
def insertEntry (key : String) (value : α) : List (String × α) → List (String × α)
  | [] => [(key, value)]
  | (k, v) :: rest =>
    if key < k then (key, value) :: (k, v) :: rest
    else if key = k then (key, value) :: rest
    else (k, v) :: insertEntry key value rest

theorem mem_insertEntry {key : String} {value : α} {entries : List (String × α)}
    {e : String × α} (h : e ∈ insertEntry key value entries) :
    e = (key, value) ∨ e ∈ entries := by
  induction entries with
  | nil => exact .inl (by simpa [insertEntry] using h)
  | cons head rest ih =>
    obtain ⟨k, v⟩ := head
    simp only [insertEntry] at h
    split at h
    · rcases List.mem_cons.1 h with h | h
      · exact .inl h
      · exact .inr h
    · split at h
      · rcases List.mem_cons.1 h with h | h
        · exact .inl h
        · exact .inr (List.mem_cons_of_mem _ h)
      · rcases List.mem_cons.1 h with h | h
        · exact .inr (h ▸ List.mem_cons_self)
        · rcases ih h with h | h
          · exact .inl h
          · exact .inr (List.mem_cons_of_mem _ h)

/-- Of two different keys the one that is not smaller is larger. -/
theorem lt_of_not_lt_of_ne {a b : String} (h : ¬a < b) (hne : a ≠ b) : b < a :=
  String.not_le.1 fun hle => hne (String.le_antisymm hle (String.not_lt.1 h))

theorem ascending_insertEntry (key : String) (value : α) {entries : List (String × α)}
    (h : entries.Pairwise (fun a b => a.1 < b.1)) :
    (insertEntry key value entries).Pairwise (fun a b => a.1 < b.1) := by
  induction entries with
  | nil => exact List.pairwise_singleton _ _
  | cons head rest ih =>
    obtain ⟨k, v⟩ := head
    have hrest := List.pairwise_cons.1 h
    simp only [insertEntry]
    split
    · rename_i hlt
      refine List.pairwise_cons.2 ⟨fun e he => ?_, h⟩
      rcases List.mem_cons.1 he with rfl | he
      · exact hlt
      · exact String.lt_trans hlt (hrest.1 e he)
    · split
      · rename_i heq
        subst heq
        exact List.pairwise_cons.2 ⟨hrest.1, hrest.2⟩
      · rename_i hnlt hne
        refine List.pairwise_cons.2 ⟨fun e he => ?_, ih hrest.2⟩
        rcases mem_insertEntry he with rfl | he
        · exact lt_of_not_lt_of_ne hnlt hne
        · exact hrest.1 e he

/-- Put a value under a key, in place of the one that was there. -/
def insert (t : Table α) (key : String) (value : α) : Table α :=
  ⟨insertEntry key value t.entries, ascending_insertEntry key value t.ascending⟩

/-- The entries that satisfy a condition. -/
def filter (keep : String → α → Bool) (t : Table α) : Table α :=
  ⟨t.entries.filter fun e => keep e.1 e.2, t.ascending.filter _⟩

/-- Take out the value under a key. -/
def erase (t : Table α) (key : String) : Table α := t.filter fun k _ => k != key

/-- The value under a key. -/
def find? (t : Table α) (key : String) : Option α :=
  (t.entries.find? (·.1 == key)).map (·.2)

/-- Whether there is a value under a key. -/
def contains (t : Table α) (key : String) : Bool := (t.find? key).isSome

/-- The keys in order. -/
def keys (t : Table α) : List String := t.entries.map (·.1)

/-- Apply a function to every value. -/
def map (f : α → β) (t : Table α) : Table β :=
  ⟨t.entries.map fun e => (e.1, f e.2), List.pairwise_map.2 t.ascending⟩

/-- The table of a row of entries; of two values under one key the later one stays. -/
def ofList (entries : List (String × α)) : Table α :=
  entries.foldl (fun t e => t.insert e.1 e.2) empty

/-! ### What can be found after each operation -/

@[simp] theorem find?_empty (key : String) : (empty : Table α).find? key = none := rfl

/-- What can be found in a row of entries after one was put into its place. -/
theorem lookup_insertEntry (key k : String) (value : α) {entries : List (String × α)}
    (h : entries.Pairwise (fun a b => a.1 < b.1)) :
    ((insertEntry key value entries).find? (·.1 == k)).map (·.2)
      = if key = k then some value else (entries.find? (·.1 == k)).map (·.2) := by
  induction entries with
  | nil => by_cases hk : key = k <;> simp [insertEntry, hk]
  | cons head rest ih =>
    obtain ⟨k', v⟩ := head
    have ih := ih (List.pairwise_cons.1 h).2
    simp only [insertEntry]
    split
    · by_cases hk : key = k <;> simp [hk]
    · split
      · rename_i heq
        subst heq
        by_cases hk : key = k <;> simp [hk]
      · rename_i hne
        by_cases hk' : k' = k
        · have : key ≠ k := fun e => hne (e.trans hk'.symm)
          simp [hk', this]
        · simpa [List.find?_cons, hk'] using ih

/-- Under the key of an insertion stands its value; nothing else changes. -/
theorem find?_insert (t : Table α) (key k : String) (value : α) :
    (t.insert key value).find? k = if key = k then some value else t.find? k :=
  lookup_insertEntry key k value t.ascending

/-- Under an erased key stands nothing; nothing else changes. -/
theorem find?_erase (t : Table α) (key k : String) :
    (t.erase key).find? k = if key = k then none else t.find? k := by
  simp only [find?, erase, filter, List.find?_filter]
  by_cases hk : key = k
  · subst hk
    simp
  · rw [if_neg hk]
    congr 2
    funext e
    by_cases he : e.1 = k
    · simp [he, Ne.symm hk]
    · simp [he]

/-- A function on all values is a function on the one that is found. -/
theorem find?_map (f : α → β) (t : Table α) (key : String) :
    (t.map f).find? key = (t.find? key).map f := by
  simp [find?, map, List.find?_map, Function.comp_def]

end Table

end Backlog
