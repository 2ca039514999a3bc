import Backlog.Proofs.Toml.Values
import Backlog.Toml.Document

/-!
# Documents that were written

A document is written line by line and read line by line (`readStatements_lines`).  A line is
the header of a table or a key with its value, and the keys need no quotes (`IsBareKey`).  What
stands under the keys of a table is then put together again (`foldlM_entries`).
-/

namespace Backlog.Toml

variable {c : Char} {cs rest text line : List Char} {fuel : Nat} {v : Toml}

/-! ## Keys -/

/-- A key that needs no quotes. -/
structure IsBareKey (key : String) : Prop where
  filled : key.toList ≠ []
  bare : ∀ c ∈ key.toList, isBare c = true

instance : DecidablePred IsBareKey := fun key =>
  decidable_of_iff (key.toList ≠ [] ∧ key.toList.all isBare = true)
    ⟨fun h => ⟨h.1, List.all_eq_true.1 h.2⟩, fun h => ⟨h.filled, List.all_eq_true.2 h.bare⟩⟩

/-- What can stand behind a key. -/
def EndsKey (rest : List Char) : Prop := ∀ c ∈ rest.head?, isBare c = false

theorem ne_of_isBare {c d : Char} (h : isBare c = true) (hd : isBare d = false) : c ≠ d := by
  rintro rfl
  exact Bool.false_ne_true (hd.symm.trans h)

theorem starts_bare (h : isBare c = true) : Starts c := by
  refine ⟨?_, ne_of_isBare h rfl, ne_of_isBare h rfl, ne_of_isBare h rfl⟩
  simp [isWs, ne_of_isBare h (d := ' ') rfl, ne_of_isBare h (d := '\t') rfl]

theorem IsBareKey.exists_cons {key : String} (h : IsBareKey key) :
    ∃ c more, key.toList = c :: more ∧ isBare c = true := by
  obtain ⟨c, more, hsplit⟩ := List.exists_cons_of_ne_nil h.filled
  exact ⟨c, more, hsplit, h.bare c (hsplit ▸ List.mem_cons_self)⟩

theorem readSimpleKey_append (fuel : Nat) {key : String} (h : IsBareKey key)
    (hrest : EndsKey rest) :
    readSimpleKey fuel (key.toList ++ rest) = some (key, rest) := by
  have htake : (key.toList ++ rest).takeWhile isBare = key.toList := by
    rw [List.takeWhile_append_of_pos h.bare]
    cases rest with
    | nil => simp
    | cons d rest => simp [hrest d rfl]
  have hdrop : (key.toList ++ rest).dropWhile isBare = rest := by
    rw [List.dropWhile_append_of_pos h.bare]
    cases rest with
    | nil => rfl
    | cons d rest => simp [hrest d rfl]
  obtain ⟨c, more, hsplit, hc⟩ := h.exists_cons
  have hkey : String.ofList (c :: more) = key := by rw [← hsplit, String.ofList_toList]
  rw [hsplit] at htake hdrop
  rw [hsplit, readSimpleKey, htake, hdrop]
  · exact congrArg (fun k => some (k, rest)) hkey
  · exact fun _ heq => ne_of_isBare hc (d := '\x22') rfl (List.cons.inj heq).1
  · exact fun _ heq => ne_of_isBare hc (d := '\x27') rfl (List.cons.inj heq).1

/-- Keys with points between them. -/
def dotted : List String → List Char
  | [] => []
  | [key] => key.toList
  | key :: more => key.toList ++ '.' :: dotted more

theorem readKeyParts_key {key : String} (h : IsBareKey key) (hrest : EndsKey rest) :
    readKeyParts (fuel + 1) (key.toList ++ rest) =
      match skipWs rest with
      | '.' :: rest => do
        let (parts, rest) ← readKeyParts fuel rest
        return (key :: parts, rest)
      | rest => return ([key], rest) := by
  have hread := readSimpleKey_append (fuel + 1) h hrest
  obtain ⟨c, more, hsplit, hc⟩ := h.exists_cons
  rw [hsplit, List.cons_append] at hread ⊢
  rw [readKeyParts, (starts_bare hc).skipWs, hread]
  rfl

theorem readKeyParts_dotted {path : List String} (h : ∀ key ∈ path, IsBareKey key)
    (hne : path ≠ []) (hrest : EndsKey rest) (hpoint : (skipWs rest).head? ≠ some '.')
    (hfuel : path.length ≤ fuel) :
    readKeyParts fuel (dotted path ++ rest) = some (path, skipWs rest) := by
  induction path generalizing fuel with
  | nil => exact absurd rfl hne
  | cons key more ih =>
      obtain ⟨hkey, hmore⟩ := List.forall_mem_cons.1 h
      rw [List.length_cons] at hfuel
      obtain ⟨fuel, rfl⟩ : ∃ less, fuel = less + 1 := ⟨fuel - 1, by omega⟩
      cases more with
      | nil =>
          rw [dotted, readKeyParts_key hkey hrest]
          split
          · rename_i heq
            rw [heq] at hpoint
            exact absurd rfl hpoint
          · rfl
      | cons next more =>
          have hread : readKeyParts fuel (dotted (next :: more) ++ rest) =
              some (next :: more, skipWs rest) :=
            ih hmore (List.cons_ne_nil _ _) (by omega)
          rw [dotted, List.append_assoc, readKeyParts_key hkey (by rintro _ ⟨⟩; rfl)]
          · change (readKeyParts fuel (dotted (next :: more) ++ rest)).bind _ = _
            rw [hread]
            rfl
          · exact nofun

theorem readKey_dotted {path : List String} (h : ∀ key ∈ path, IsBareKey key)
    (hne : path ≠ []) (hlimit : path.length < limit) (hrest : EndsKey rest)
    (hpoint : (skipWs rest).head? ≠ some '.') (hfuel : path.length ≤ fuel) :
    readKey fuel (dotted path ++ rest) = some (path, skipWs rest) := by
  rw [readKey, readKeyParts_dotted h hne hrest hpoint hfuel]
  exact if_pos hlimit

theorem exists_dotted {path : List String} (h : ∀ key ∈ path, IsBareKey key) (hne : path ≠ []) :
    ∃ c more, dotted path = c :: more ∧ isBare c = true := by
  obtain ⟨key, keys, rfl⟩ := List.exists_cons_of_ne_nil hne
  obtain ⟨c, more, hsplit, hc⟩ := (h key List.mem_cons_self).exists_cons
  cases keys with
  | nil => exact ⟨c, more, hsplit, hc⟩
  | cons next keys => exact ⟨c, more ++ '.' :: dotted (next :: keys), congrArg (· ++ _) hsplit, hc⟩

theorem length_le_dotted {path : List String} (h : ∀ key ∈ path, IsBareKey key) :
    path.length ≤ (dotted path).length := by
  induction path with
  | nil => exact Nat.le_refl 0
  | cons key more ih =>
      obtain ⟨hkey, hmore⟩ := List.forall_mem_cons.1 h
      have hfilled := List.length_pos_iff.2 hkey.filled
      have hrest := ih hmore
      cases more with
      | nil => exact hfilled
      | cons next more =>
          simp only [dotted, List.length_append, List.length_cons] at hrest ⊢
          omega

/-! ## Lines -/

/-- A line that is read as a statement. -/
structure IsLine (line : List Char) (statement : Statement) : Prop where
  start : ∃ c more, line = c :: more ∧ Starts c
  reads : ∀ fuel rest, line.length < fuel →
    readStatement fuel (line ++ '\n' :: rest) = some (statement, rest)

/-- The header of a table. -/
theorem isLine_header {path : List String} (h : ∀ key ∈ path, IsBareKey key) (hne : path ≠ [])
    (hlimit : path.length < limit) :
    IsLine ('[' :: (dotted path ++ [']'])) (.header path) := by
  refine ⟨⟨'[', _, rfl, rfl, by decide, by decide, by decide⟩, fun fuel rest hfuel => ?_⟩
  have hlength := length_le_dotted h
  rw [List.length_cons, List.length_append] at hfuel
  have hread : readKey fuel (dotted path ++ ']' :: '\n' :: rest) =
      some (path, ']' :: '\n' :: rest) :=
    readKey_dotted h hne hlimit (by rintro _ ⟨⟩; rfl) (by simp [skipWs, isWs]) (by omega)
  obtain ⟨c, more, hsplit, hc⟩ := exists_dotted h hne
  rw [List.cons_append, List.append_assoc]
  rw [hsplit] at hread ⊢
  rw [List.cons_append] at hread ⊢
  rw [readStatement]
  · change (readKey fuel (c :: (more ++ (']' :: '\n' :: rest)))).bind _ = _
    rw [hread]
    rfl
  · exact fun _ heq => ne_of_isBare hc (d := '[') rfl (List.cons.inj heq).1

/-- A key with its value. -/
theorem isLine_entry {key : String} (h : IsBareKey key) (hvalue : Denotes text v) :
    IsLine (key.toList ++ ' ' :: '=' :: ' ' :: text) (.entry [key] v) := by
  obtain ⟨c, more, hsplit, hc⟩ := h.exists_cons
  refine ⟨⟨c, _, by rw [hsplit]; rfl, starts_bare hc⟩, fun fuel rest hfuel => ?_⟩
  rw [List.length_append] at hfuel
  simp only [List.length_cons] at hfuel
  have hread : readKey fuel (dotted [key] ++ ' ' :: '=' :: ' ' :: (text ++ '\n' :: rest)) =
      some ([key], '=' :: ' ' :: (text ++ '\n' :: rest)) :=
    readKey_dotted (by simpa using h) (List.cons_ne_nil _ _)
      (by rw [List.length_singleton, limit]; omega) (by rintro _ ⟨⟩; rfl)
      (by simp [skipWs, isWs]) (by rw [List.length_singleton]; omega)
  have hskip : skipWs (' ' :: (text ++ '\n' :: rest)) = text ++ '\n' :: rest :=
    hvalue.solid ('\n' :: rest)
  have hvalue := hvalue.reads fuel rest (by omega)
  rw [List.append_assoc]
  rw [dotted, hsplit] at hread
  rw [hsplit]
  rw [List.cons_append] at hread ⊢
  rw [readStatement]
  · change (readKey fuel (c :: (more ++ ' ' :: '=' :: ' ' :: (text ++ '\n' :: rest)))).bind _ = _
    rw [hread]
    change (readValue fuel 0 (skipWs (' ' :: (text ++ '\n' :: rest)))).bind _ = _
    rw [hskip, hvalue]
    rfl
  · exact fun _ heq => ne_of_isBare hc (d := '[') rfl (List.cons.inj heq).1
  · exact fun _ heq => ne_of_isBare hc (d := '[') rfl (List.cons.inj heq).1

/-- A line break, or a line with its statement. -/
def lineChars : Option (List Char × Statement) → List Char
  | none => ['\n']
  | some (line, _) => line ++ ['\n']

theorem readStatements_line {statement : Statement} (h : IsLine line statement)
    (hfuel : line.length ≤ fuel) (rest : List Char) :
    readStatements (fuel + 1) (line ++ '\n' :: rest) =
      (readStatements fuel rest).map (statement :: ·) := by
  have hread := h.reads (fuel + 1) rest (by omega)
  obtain ⟨c, more, rfl, hc⟩ := h.start
  have hskip := hc.skipWs (more ++ '\n' :: rest)
  obtain ⟨-, hcomment, hfeed, hreturn⟩ := hc
  rw [List.cons_append] at hread ⊢
  rw [readStatements, hskip]
  split
  · rename_i heq
    cases heq
  · rename_i heq
    exact absurd (List.cons.inj heq).1 hcomment
  · rename_i heq
    exact absurd (List.cons.inj heq).1 hfeed
  · rename_i heq
    exact absurd (List.cons.inj heq).1 hreturn
  · rw [hread]
    change (readStatements fuel rest).bind _ = _
    cases readStatements fuel rest <;> rfl

/-- The statements of a document are those of its lines. -/
theorem readStatements_lines {lines : List (Option (List Char × Statement))}
    (h : ∀ l ∈ lines, ∀ p ∈ l, IsLine p.1 p.2)
    (hfuel : (lines.flatMap lineChars).length < fuel) :
    readStatements fuel (lines.flatMap lineChars) =
      some (lines.filterMap fun l => l.map Prod.snd) := by
  induction lines generalizing fuel with
  | nil =>
      obtain ⟨fuel, rfl⟩ := Nat.exists_eq_add_of_lt hfuel
      rfl
  | cons l lines ih =>
      obtain ⟨hl, hlines⟩ := List.forall_mem_cons.1 h
      rw [List.flatMap_cons, List.length_append] at hfuel
      obtain ⟨fuel, rfl⟩ : ∃ less, fuel = less + 1 := ⟨fuel - 1, by omega⟩
      cases l with
      | none =>
          rw [lineChars, List.length_singleton] at hfuel
          exact ih hlines (by omega)
      | some p =>
          obtain ⟨line, statement⟩ := p
          rw [lineChars, List.length_append, List.length_singleton] at hfuel
          have hshort : line.length ≤ fuel := by omega
          have hread := readStatements_line (hl _ rfl) hshort (lines.flatMap lineChars)
          rw [ih hlines (by omega)] at hread
          rw [List.flatMap_cons, lineChars, List.append_assoc]
          exact hread

/-! ## Tables -/

theorem step_entry {d : Draft} {key : String} (hfree : d.entries.find? key = none) :
    d.step (.entry [key] v) = some { d with entries := d.entries ++ [(key, .value v)] } := by
  have hassign : assign d.entries [key] v = some (d.entries ++ [(key, .value v)]) := by
    change (if (Entries.find? d.entries key).isSome then none
      else some ((), d.entries ++ [(key, .value v)])).bind _ = _
    rw [hfree]
    rfl
  rw [Draft.step, hassign]
  rfl

theorem find?_append_ne {entries : Entries} {key other : String} {node : Node}
    (h : entries.find? key = none) (hne : other ≠ key) :
    Entries.find? (entries ++ [(other, node)]) key = none := by
  unfold Entries.find? at h ⊢
  rw [Option.map_eq_none_iff] at h ⊢
  rw [List.find?_append, h]
  simp [hne]

/-- Finished values under their keys. -/
def valueNodes (entries : List (String × Toml)) : Entries := entries.map fun e => (e.1, .value e.2)

theorem entriesToml_valueNodes (entries : List (String × Toml)) :
    entriesToml (valueNodes entries) = entries := by
  induction entries with
  | nil => rfl
  | cons e entries ih =>
      rw [valueNodes, List.map_cons, entriesToml, Node.toToml, ← valueNodes, ih]

theorem entriesToml_append (entries more : Entries) :
    entriesToml (entries ++ more) = entriesToml entries ++ entriesToml more := by
  induction entries with
  | nil => rfl
  | cons e entries ih => rw [List.cons_append, entriesToml, ih, entriesToml, List.cons_append]

/-- A table whose keys are all different holds its entries. -/
theorem foldlM_entries {d : Draft} {entries : List (String × Toml)}
    (hnodup : (entries.map Prod.fst).Nodup)
    (hfree : ∀ e ∈ entries, d.entries.find? e.1 = none) :
    (entries.map fun e => Statement.entry [e.1] e.2).foldlM Draft.step d =
      some { d with entries := d.entries ++ valueNodes entries } := by
  induction entries generalizing d with
  | nil =>
      rw [List.map_nil, valueNodes, List.map_nil, List.append_nil]
      rfl
  | cons e entries ih =>
      obtain ⟨he, hentries⟩ := List.forall_mem_cons.1 hfree
      rw [List.map_cons, List.nodup_cons] at hnodup
      obtain ⟨hfresh, hnodup⟩ := hnodup
      rw [List.map_cons, List.foldlM_cons, step_entry he]
      refine (ih hnodup fun other hother => ?_).trans ?_
      · refine find?_append_ne (hentries other hother) ?_
        rintro heq
        exact hfresh (heq ▸ List.mem_map_of_mem hother)
      · rw [List.append_assoc]
        rfl

/-- The statements of a table: its header and its entries. -/
def tableStatements (path : List String) (entries : List (String × Toml)) : List Statement :=
  .header path :: entries.map fun e => .entry [e.1] e.2

/-- A table is opened when the one before it is closed, and then holds its entries. -/
theorem foldlM_table {d : Draft} {root opened : Entries} {path : List String} {key : String}
    {entries : List (String × Toml)} (hclose : d.close = some root)
    (hpath : path.getLast? = some key)
    (htake : descend false (Draft.takeTable key) path.dropLast false root = some ([], opened))
    (hnodup : (entries.map Prod.fst).Nodup) :
    (tableStatements path entries).foldlM Draft.step d =
      some ⟨opened, path, false, valueNodes entries⟩ := by
  have hstep : d.step (.header path) = some ⟨opened, path, false, []⟩ := by
    rw [Draft.step, hclose]
    simp only [Option.bind_eq_bind, Option.bind_some, hpath, htake]
    rfl
  rw [tableStatements, List.foldlM_cons, hstep]
  exact foldlM_entries hnodup fun _ _ => rfl

end Backlog.Toml
