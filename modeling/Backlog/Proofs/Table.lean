import Backlog.Table

/-!
# Tables as rows of entries

`find?` is the view of a table under one key.  This file adds the view of the whole
table: what can be found is what stands in the row of entries (`find?_eq_some_iff`), and
a table built from a row of entries

* holds under each key the last entry of the row with that key (`find?_ofList`);
* is, for distinct keys, the row itself in another order (`ofList_perm`).

Since the entries of a table ascend strictly, the second point determines them.
-/

namespace Backlog.Table

variable {α : Type}

/-! ## Keys -/

theorem find?_eq_some_iff {t : Table α} {key : String} {value : α} :
    t.find? key = some value ↔ (key, value) ∈ t.entries := by
  obtain ⟨entries, ascending⟩ := t
  simp only [find?]
  induction entries with
  | nil => simp
  | cons head rest ih =>
      obtain ⟨k, v⟩ := head
      have hrest := List.pairwise_cons.1 ascending
      by_cases hk : k = key
      · subst hk
        have hnot : (k, value) ∉ rest := fun hmem =>
          absurd (hrest.1 _ hmem) (String.lt_irrefl k)
        simp [hnot, eq_comm]
      · have hk' : ¬key = k := fun h => hk h.symm
        rw [List.find?_cons_of_neg (by simpa using hk), ih hrest.2]
        simp [hk']

theorem mem_keys_iff {t : Table α} {key : String} : key ∈ t.keys ↔ t.contains key = true := by
  rw [contains, Option.isSome_iff_exists]
  simp only [find?_eq_some_iff, keys, List.mem_map]
  constructor
  · rintro ⟨⟨k, value⟩, hmem, rfl⟩
    exact ⟨value, hmem⟩
  · rintro ⟨value, hmem⟩
    exact ⟨(key, value), hmem, rfl⟩

theorem contains_insert (t : Table α) (key k : String) (value : α) :
    (t.insert key value).contains k = (decide (key = k) || t.contains k) := by
  rw [contains, contains, find?_insert]
  by_cases h : key = k <;> simp [h]

theorem contains_erase (t : Table α) (key k : String) :
    (t.erase key).contains k = (!decide (key = k) && t.contains k) := by
  rw [contains, contains, find?_erase]
  by_cases h : key = k <;> simp [h]

/-- A table is what can be found in it. -/
theorem ext_find? {s t : Table α} (h : ∀ key, s.find? key = t.find? key) : s = t := by
  have hmem : ∀ e, e ∈ s.entries ↔ e ∈ t.entries := fun (key, value) => by
    rw [← find?_eq_some_iff, ← find?_eq_some_iff, h key]
  have hnodup (r : Table α) : r.entries.Nodup :=
    r.ascending.imp fun hlt heq => String.ne_of_lt hlt (congrArg Prod.fst heq)
  have hperm : s.entries.Perm t.entries :=
    (List.perm_ext_iff_of_nodup (hnodup s) (hnodup t)).2 hmem
  refine ext_entries (hperm.eq_of_pairwise (fun a b _ _ hlt hgt => ?_) s.ascending t.ascending)
  exact absurd hgt (String.lt_asymm hlt)

/-- Only one entry stands under a key. -/
theorem filterMap_key {β : Type} (t : Table α) (key : String) (b : β) :
    (t.entries.filterMap fun e => if e.1 = key then some b else none) =
      if t.contains key then [b] else [] := by
  obtain ⟨entries, ascending⟩ := t
  simp only [contains, find?, Option.isSome_map]
  induction entries with
  | nil => rfl
  | cons head rest ih =>
      obtain ⟨hfirst, hrest⟩ := List.pairwise_cons.1 ascending
      by_cases hk : head.1 = key
      · have hnone : (rest.filterMap fun e => if e.1 = key then some b else none) = [] := by
          rw [List.filterMap_eq_nil_iff]
          intro e he
          exact if_neg fun heq => String.ne_of_lt (hfirst e he) (hk.trans heq.symm)
        simp [hk, hnone]
      · rw [List.filterMap_cons, if_neg hk, List.find?_cons_of_neg (by simpa using hk)]
        exact ih hrest

/-! ## The table of a row of entries -/

/-- An entry under a new key joins the entries. -/
theorem insertEntry_perm {key : String} {value : α} {entries : List (String × α)}
    (h : ∀ e ∈ entries, e.1 ≠ key) :
    (insertEntry key value entries).Perm ((key, value) :: entries) := by
  induction entries with
  | nil => exact .refl _
  | cons head rest ih =>
      obtain ⟨k, v⟩ := head
      have hk : key ≠ k := fun heq => h (k, v) List.mem_cons_self heq.symm
      have hrest := ih fun e he => h e (List.mem_cons_of_mem _ he)
      by_cases hlt : key < k
      · rw [insertEntry, if_pos hlt]
      · rw [insertEntry, if_neg hlt, if_neg hk]
        exact (hrest.cons _).trans (.swap _ _ _)

/-- The row of entries, put into a table that holds none of their keys. -/
private theorem foldl_insert_perm {entries : List (String × α)} {t : Table α}
    (hnodup : (entries.map (·.1)).Nodup) (hnew : ∀ e ∈ entries, e.1 ∉ t.keys) :
    (entries.foldl (fun t e => t.insert e.1 e.2) t).entries.Perm (entries ++ t.entries) := by
  induction entries generalizing t with
  | nil => exact .refl _
  | cons head rest ih =>
      obtain ⟨key, value⟩ := head
      rw [List.map_cons, List.nodup_cons] at hnodup
      have hperm : (t.insert key value).entries.Perm ((key, value) :: t.entries) := by
        refine insertEntry_perm fun e he heq => hnew (key, value) List.mem_cons_self ?_
        exact List.mem_map.2 ⟨e, he, heq⟩
      have hkeep : ∀ e ∈ rest, e.1 ∉ (t.insert key value).keys := by
        intro e he hmem
        rcases List.mem_cons.1 ((hperm.map (·.1)).mem_iff.1 hmem) with heq | hold
        · exact hnodup.1 (List.mem_map.2 ⟨e, he, heq⟩)
        · exact hnew e (List.mem_cons_of_mem _ he) hold
      refine (ih hnodup.2 hkeep).trans ((hperm.append_left rest).trans ?_)
      exact List.perm_middle

/-- Under distinct keys nothing of a row is lost. -/
theorem ofList_perm {entries : List (String × α)} (h : (entries.map (·.1)).Nodup) :
    (ofList entries).entries.Perm entries := by
  have := foldl_insert_perm (t := empty) h fun _ _ => List.not_mem_nil
  rwa [show (empty : Table α).entries = [] from rfl, List.append_nil] at this

/-- A function on all values leaves a table as it is if it leaves each value as it is. -/
theorem map_eq_self_iff {f : α → α} {t : Table α} :
    t.map f = t ↔ ∀ e ∈ t.entries, f e.2 = e.2 := by
  constructor
  · intro h e hmem
    have hentries : t.entries.map (fun e => (e.1, f e.2)) = t.entries.map id :=
      (congrArg entries h).trans (List.map_id _).symm
    exact congrArg Prod.snd (List.map_inj_left.1 hentries e hmem)
  · intro h
    refine ext_entries ((List.map_congr_left fun e hmem => ?_).trans (List.map_id t.entries))
    exact Prod.ext rfl (h e hmem)

/-- A row of entries in the order of their keys is a table as it is. -/
theorem entries_ofList_of_ascending {entries : List (String × α)}
    (h : entries.Pairwise fun a b => a.1 < b.1) : (ofList entries).entries = entries := by
  have hnodup : (entries.map (·.1)).Nodup :=
    List.pairwise_map.2 (h.imp fun hlt heq => String.ne_of_lt hlt heq)
  refine (ofList_perm hnodup).eq_of_pairwise (fun a b _ _ hlt hgt => ?_)
    (ofList entries).ascending h
  exact absurd hgt (String.lt_asymm hlt)

/-- Of the entries under one key the last one stays. -/
theorem find?_ofList (entries : List (String × α)) (key : String) :
    (ofList entries).find? key =
      ((entries.filter (·.1 == key)).getLast?).map (·.2) := by
  -- the table that the row is put into keeps what it has under a key the row lacks
  suffices ∀ t : Table α, (entries.foldl (fun t e => t.insert e.1 e.2) t).find? key =
      (((entries.filter (·.1 == key)).getLast?).map (·.2)).or (t.find? key) by
    rw [ofList, this, find?_empty, Option.or_none]
  induction entries with
  | nil => intro t; rfl
  | cons head rest ih =>
      intro t
      obtain ⟨k, v⟩ := head
      rw [List.foldl_cons, ih, find?_insert, List.filter_cons]
      by_cases hk : k = key
      · cases hlast : (rest.filter (·.1 == key)).getLast? <;>
          simp [hk, hlast, List.getLast?_cons]
      · simp [hk]

/-- The keys of a table are those of the row of entries it was built from. -/
theorem contains_ofList {entries : List (String × α)} {key : String} :
    (ofList entries).contains key = true ↔ key ∈ entries.map (·.1) := by
  rw [contains, find?_ofList, Option.isSome_map, List.getLast?_isSome, ne_eq,
    List.filter_eq_nil_iff]
  simp

end Backlog.Table
