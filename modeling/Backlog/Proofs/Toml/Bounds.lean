import Backlog.Toml.Document

/-!
# Whole numbers of a document

No document holds a whole number from `2 ^ 63` on (`isBounded_of_ofText?`).  The readers of
numbers let no larger one through, and what is read is only moved about while the document is put
together: one lemma for each way to change a table (`Keeps`), and one for walking to it
(`Keeps.descend`).
-/

namespace Backlog.Toml

/-- Every whole number in a value is below `2 ^ 63`. -/
inductive IsBounded : Toml → Prop
  | string (s : String) : IsBounded (.string s)
  | integer {i : Int} (h : i < twoTo 63) : IsBounded (.integer i)
  | float (x : Float) : IsBounded (.float x)
  | boolean (b : Bool) : IsBounded (.boolean b)
  | dateTime : IsBounded .dateTime
  | array {elements : List Toml} (h : ∀ v ∈ elements, IsBounded v) : IsBounded (.array elements)
  | table {entries : List (String × Toml)} (h : ∀ e ∈ entries, IsBounded e.2) :
      IsBounded (.table entries)

namespace Node

/-- Every whole number under a key is below `2 ^ 63`. -/
inductive IsBounded : Node → Prop
  | value {v : Toml} (h : v.IsBounded) : IsBounded (.value v)
  | table {isImplicit isDotted : Bool} {entries : List (String × Node)}
      (h : ∀ e ∈ entries, IsBounded e.2) : IsBounded (.table isImplicit isDotted entries)
  | tables {elements : List (List (String × Node))}
      (h : ∀ entries ∈ elements, ∀ e ∈ entries, IsBounded e.2) : IsBounded (.tables elements)

end Node

/-- Every whole number in a table under construction is below `2 ^ 63`. -/
def Entries.IsBounded (entries : Entries) : Prop := ∀ e ∈ entries, Node.IsBounded e.2

/-! ## Finished values -/

theorem entriesToml_eq (entries : List (String × Node)) :
    entriesToml entries = entries.map fun e => (e.1, e.2.toToml) := by
  induction entries with
  | nil => rfl
  | cons e rest ih => rw [entriesToml, ih, List.map_cons]

theorem tablesToml_eq (elements : List (List (String × Node))) :
    tablesToml elements = elements.map fun entries => .table (entriesToml entries) := by
  induction elements with
  | nil => rfl
  | cons entries rest ih => rw [tablesToml, ih, List.map_cons]

theorem Node.IsBounded.toToml {node : Node} (h : node.IsBounded) : node.toToml.IsBounded := by
  induction h with
  | value h =>
      rw [Node.toToml]
      exact h
  | table h ih =>
      rw [Node.toToml, entriesToml_eq]
      exact .table (List.forall_mem_map.2 ih)
  | tables h ih =>
      rw [Node.toToml, tablesToml_eq]
      refine .array fun v hv => ?_
      obtain ⟨entries, hentries, rfl⟩ := List.mem_map.1 (List.mem_reverse.1 hv)
      rw [entriesToml_eq]
      exact .table (List.forall_mem_map.2 (ih entries hentries))

theorem Entries.IsBounded.table {entries : Entries} (h : entries.IsBounded) :
    (Toml.table (entriesToml entries)).IsBounded := by
  rw [entriesToml_eq]
  exact .table (List.forall_mem_map.2 fun e he => (h e he).toToml)

/-! ## Changes of tables -/

theorem Entries.IsBounded.nil : Entries.IsBounded [] := nofun

section

variable {entries : Entries} {key : String} {node : Node}

theorem Entries.IsBounded.find? (h : entries.IsBounded) (hfind : entries.find? key = some node) :
    node.IsBounded := by
  obtain ⟨e, he, rfl⟩ := Option.map_eq_some_iff.1 hfind
  exact h e (List.mem_of_find?_eq_some he)

theorem Entries.IsBounded.concat (h : entries.IsBounded) (hnode : node.IsBounded) :
    Entries.IsBounded (entries ++ [(key, node)]) :=
  List.forall_mem_append.2 ⟨h, List.forall_mem_singleton.2 hnode⟩

theorem Entries.IsBounded.replace (h : entries.IsBounded) (hnode : node.IsBounded) :
    (entries.replace key node).IsBounded := by
  refine List.forall_mem_map.2 fun e he => ?_
  split
  · exact hnode
  · exact h e he

theorem Entries.IsBounded.erase (h : entries.IsBounded) : (entries.erase key).IsBounded :=
  fun e he => h e (List.mem_filter.1 he).1

end

/-- A change of a table that brings in no larger number, and whose result has some property. -/
def Keeps {β : Type} (p : β → Prop) (change : Bool → Entries → Option (β × Entries)) : Prop :=
  ∀ (isDotted : Bool) (entries : Entries) (b : β) (entries' : Entries), entries.IsBounded →
    change isDotted entries = some (b, entries') → p b ∧ entries'.IsBounded

theorem Keeps.descend {β : Type} {p : β → Prop} {change : Bool → Entries → Option (β × Entries)}
    (h : Keeps p change) (isDottedKey : Bool) (path : List String) :
    Keeps p (descend isDottedKey change path) := by
  induction path with
  | nil => exact h
  | cons key rest ih =>
      intro isDotted entries b entries' hentries hdescend
      rw [Toml.descend] at hdescend
      split at hdescend
      · obtain ⟨⟨b, new⟩, hnew, heq⟩ := Option.bind_eq_some_iff.1 hdescend
        cases heq
        obtain ⟨hb, hbounded⟩ := ih _ _ _ _ .nil hnew
        exact ⟨hb, hentries.concat (.table hbounded)⟩
      · cases hdescend
      · rename_i hfind
        split at hdescend
        · cases hdescend
        · obtain ⟨⟨b, new⟩, hnew, heq⟩ := Option.bind_eq_some_iff.1 hdescend
          cases heq
          cases hentries.find? hfind with
          | table hinner =>
              obtain ⟨hb, hbounded⟩ := ih _ _ _ _ hinner hnew
              exact ⟨hb, hentries.replace (.table hbounded)⟩
      · cases hdescend
      · rename_i hfind
        obtain ⟨⟨b, new⟩, hnew, heq⟩ := Option.bind_eq_some_iff.1 hdescend
        cases heq
        cases hentries.find? hfind with
        | tables helements =>
            obtain ⟨hlast, hbefore⟩ := List.forall_mem_cons.1 helements
            obtain ⟨hb, hbounded⟩ := ih _ _ _ _ hlast hnew
            exact ⟨hb, hentries.replace (.tables (List.forall_mem_cons.2 ⟨hbounded, hbefore⟩))⟩

section

variable {key : String} {v : Toml} {table : Entries}

theorem keeps_place (isThroughDots : Bool) (key : String) (h : v.IsBounded) :
    Keeps (fun _ => True) (place isThroughDots key v) := by
  intro isDotted entries b entries' hentries hplace
  unfold place at hplace
  split at hplace
  · cases hplace
  · split at hplace
    · cases hplace
    · cases hplace
      exact ⟨trivial, hentries.concat (.value h)⟩

theorem keeps_putTable (key : String) (h : table.IsBounded) :
    Keeps (fun _ => True) (Draft.putTable key table) := by
  intro isDotted entries b entries' hentries hput
  cases hput
  exact ⟨trivial, hentries.concat (.table h)⟩

theorem keeps_putElement (key : String) (h : table.IsBounded) :
    Keeps (fun _ => True) (Draft.putElement key table) := by
  intro isDotted entries b entries' hentries hput
  unfold Draft.putElement at hput
  split at hput
  · rename_i hfind
    cases hput
    cases hentries.find? hfind with
    | tables helements =>
        exact ⟨trivial, hentries.replace (.tables (List.forall_mem_cons.2 ⟨h, helements⟩))⟩
  · cases hput
    exact ⟨trivial, hentries.concat (.tables (List.forall_mem_singleton.2 h))⟩
  · cases hput

theorem keeps_takeTable (key : String) : Keeps Entries.IsBounded (Draft.takeTable key) := by
  intro isDotted entries b entries' hentries htake
  unfold Draft.takeTable at htake
  split at htake
  · cases htake
    exact ⟨.nil, hentries⟩
  · rename_i hfind
    cases htake
    cases hentries.find? hfind with
    | table hinner => exact ⟨hinner, hentries.erase⟩
  · cases htake

theorem keeps_checkElement (key : String) : Keeps (fun _ => True) (Draft.checkElement key) := by
  intro isDotted entries b entries' hentries hcheck
  unfold Draft.checkElement at hcheck
  split at hcheck
  · cases hcheck
    exact ⟨trivial, hentries.concat (.tables nofun)⟩
  · cases hcheck
    exact ⟨trivial, hentries⟩
  · cases hcheck

end

theorem Entries.IsBounded.assign {entries entries' : Entries} {path : List String} {v : Toml}
    (h : entries.IsBounded) (hv : v.IsBounded) (hassign : assign entries path v = some entries') :
    entries'.IsBounded := by
  obtain ⟨key, -, hbelow⟩ := Option.bind_eq_some_iff.1 hassign
  obtain ⟨⟨⟨⟩, new⟩, hnew, heq⟩ := Option.bind_eq_some_iff.1 hbelow
  cases heq
  exact ((keeps_place _ key hv).descend true path.dropLast _ _ _ _ h hnew).2

/-! ## Statements -/

/-- Every whole number in a statement is below `2 ^ 63`. -/
def Statement.IsBounded : Statement → Prop
  | .entry _ v => v.IsBounded
  | _ => True

namespace Draft

/-- Every whole number in a document under construction is below `2 ^ 63`. -/
structure IsBounded (d : Draft) : Prop where
  root : d.root.IsBounded
  entries : d.entries.IsBounded

variable {d d' : Draft} {root : Entries}

theorem IsBounded.close (h : d.IsBounded) (hclose : d.close = some root) : root.IsBounded := by
  unfold Draft.close at hclose
  split at hclose
  · cases hclose
    exact h.entries
  · rename_i key _
    obtain ⟨⟨⟨⟩, new⟩, hnew, heq⟩ := Option.bind_eq_some_iff.1 hclose
    cases heq
    have hput : Keeps (fun _ => True)
        (if d.isElement then putElement key d.entries else putTable key d.entries) := by
      split
      · exact keeps_putElement key h.entries
      · exact keeps_putTable key h.entries
    exact (hput.descend false d.path.dropLast _ _ _ _ h.root hnew).2

theorem IsBounded.step {statement : Statement} (h : d.IsBounded)
    (hstatement : statement.IsBounded) (hstep : d.step statement = some d') : d'.IsBounded := by
  cases statement with
  | entry path v =>
      obtain ⟨entries, hassign, heq⟩ := Option.bind_eq_some_iff.1 hstep
      cases heq
      exact ⟨h.root, h.entries.assign hstatement hassign⟩
  | header path =>
      obtain ⟨closed, hclose, hbelow⟩ := Option.bind_eq_some_iff.1 hstep
      obtain ⟨key, -, hbelow⟩ := Option.bind_eq_some_iff.1 hbelow
      obtain ⟨⟨entries, root⟩, hopen, heq⟩ := Option.bind_eq_some_iff.1 hbelow
      cases heq
      obtain ⟨hentries, hroot⟩ :=
        (keeps_takeTable key).descend false path.dropLast _ _ _ _ (h.close hclose) hopen
      exact ⟨hroot, hentries⟩
  | element path =>
      obtain ⟨closed, hclose, hbelow⟩ := Option.bind_eq_some_iff.1 hstep
      obtain ⟨key, -, hbelow⟩ := Option.bind_eq_some_iff.1 hbelow
      obtain ⟨⟨⟨⟩, root⟩, hopen, heq⟩ := Option.bind_eq_some_iff.1 hbelow
      cases heq
      obtain ⟨-, hroot⟩ :=
        (keeps_checkElement key).descend false path.dropLast _ _ _ _ (h.close hclose) hopen
      exact ⟨hroot, .nil⟩

theorem IsBounded.foldlM {statements : List Statement} (h : d.IsBounded)
    (hstatements : ∀ statement ∈ statements, statement.IsBounded)
    (hrun : statements.foldlM Draft.step d = some d') : d'.IsBounded := by
  induction statements generalizing d with
  | nil =>
      cases hrun
      exact h
  | cons statement rest ih =>
      obtain ⟨hfirst, hrest⟩ := List.forall_mem_cons.1 hstatements
      rw [List.foldlM_cons] at hrun
      obtain ⟨next, hstep, hrun⟩ := Option.bind_eq_some_iff.1 hrun
      exact ih (h.step hfirst hstep) hrest hrun

end Draft

theorem isBounded_of_ofStatements? {statements : List Statement} {v : Toml}
    (h : ∀ statement ∈ statements, statement.IsBounded) (hv : ofStatements? statements = some v) :
    v.IsBounded := by
  obtain ⟨d, hrun, hbelow⟩ := Option.bind_eq_some_iff.1 hv
  obtain ⟨root, hclose, heq⟩ := Option.bind_eq_some_iff.1 hbelow
  cases heq
  have hstart : Draft.start.IsBounded := ⟨.nil, .nil⟩
  exact ((hstart.foldlM h hrun).close hclose).table

/-! ## Numbers -/

section

variable {cs rest : List Char} {v : Toml} {fuel depth : Nat}

theorem le_of_intWithin? {n : Numeral} {low high i : Int} (h : n.intWithin? low high = some i) :
    i ≤ high := by
  unfold Numeral.intWithin? at h
  obtain ⟨hwithin, heq⟩ := Option.ite_none_right_eq_some.1 h
  cases heq
  exact hwithin.2

/-- The value of a numeral whose characters were read. -/
theorem isBounded_numeral {n : Numeral} {isTooLarge : Bool} {after : List Char}
    (h : (if n.isInteger = true then
        (n.intWithin? (-(twoTo 63)) (twoTo 63 - 1)).bind fun i => some (.integer i, after)
      else if isTooLarge = true then none else some (.float n.toFloat, after)) = some (v, rest)) :
    v.IsBounded := by
  split at h
  · obtain ⟨i, hwithin, heq⟩ := Option.bind_eq_some_iff.1 h
    cases heq
    have hle := le_of_intWithin? hwithin
    exact .integer (by omega)
  · split at h
    · cases h
    · cases h
      exact .float _

theorem isBounded_readDecimal {negative : Bool}
    (h : readDecimal negative cs = some (v, rest)) : v.IsBounded := by
  unfold readDecimal at h
  obtain ⟨⟨whole, afterWhole⟩, -, h⟩ := Option.bind_eq_some_iff.1 h
  dsimp only at h
  split at h
  all_goals
    obtain ⟨⟨fraction, afterFraction⟩, -, h⟩ := Option.bind_eq_some_iff.1 h
    obtain ⟨⟨exponent, afterExponent⟩, -, h⟩ := Option.bind_eq_some_iff.1 h
    exact isBounded_numeral h

theorem isBounded_readRadix {radix : Nat} (h : readRadix radix cs = some (v, rest)) :
    v.IsBounded := by
  unfold readRadix at h
  obtain ⟨⟨digits, afterDigits⟩, -, h⟩ := Option.bind_eq_some_iff.1 h
  obtain ⟨hlt, heq⟩ := Option.ite_none_right_eq_some.1 h
  cases heq
  exact .integer (by exact_mod_cast hlt)

theorem isBounded_readNumber (h : readNumber cs = some (v, rest)) : v.IsBounded := by
  unfold readNumber at h
  split at h
  · cases h
    exact .dateTime
  · split at h
    · exact isBounded_readRadix h
    · exact isBounded_readRadix h
    · exact isBounded_readRadix h
    · dsimp only at h
      split at h
      · cases h
        exact .float _
      · cases h
        exact .float _
      · exact isBounded_readDecimal h

/-! ## Values -/

/-- Readers with so much fuel read no larger number. -/
structure ReadsBounded (fuel : Nat) : Prop where
  value : ∀ depth cs v rest, readValue fuel depth cs = some (v, rest) → v.IsBounded
  elements : ∀ depth cs vs rest, readElements fuel depth cs = some (vs, rest) →
    ∀ v ∈ vs, v.IsBounded
  entries : ∀ depth (entries : Entries) cs entries' rest, entries.IsBounded →
    readEntries fuel depth entries cs = some (entries', rest) → entries'.IsBounded

theorem ReadsBounded.zero : ReadsBounded 0 where
  value depth cs v rest h := by
    rw [readValue] at h
    cases h
  elements depth cs vs rest h := by
    rw [readElements] at h
    cases h
  entries depth entries cs entries' rest _ h := by
    rw [readEntries] at h
    cases h

theorem ReadsBounded.value_succ (h : ReadsBounded fuel)
    (hread : readValue (fuel + 1) depth cs = some (v, rest)) : v.IsBounded := by
  unfold readValue at hread
  split at hread
  · cases hread
    exact .boolean _
  · cases hread
    exact .boolean _
  · split at hread
    · cases hread
    · obtain ⟨⟨elements, afterElements⟩, helements, heq⟩ := Option.bind_eq_some_iff.1 hread
      cases heq
      exact .array (h.elements _ _ _ _ helements)
  · split at hread
    · cases hread
    · split at hread
      · cases hread
        exact .table nofun
      · obtain ⟨⟨entries, afterEntries⟩, hentries, heq⟩ := Option.bind_eq_some_iff.1 hread
        cases heq
        exact (h.entries _ _ _ _ _ .nil hentries).table
  · split at hread
    · obtain ⟨⟨s, afterString⟩, -, heq⟩ := Option.map_eq_some_iff.1 hread
      cases heq
      exact .string s
    · exact isBounded_readNumber hread
  · cases hread

theorem ReadsBounded.elements_succ {vs : List Toml} (h : ReadsBounded fuel)
    (hread : readElements (fuel + 1) depth cs = some (vs, rest)) : ∀ v ∈ vs, v.IsBounded := by
  unfold readElements at hread
  obtain ⟨start, -, hread⟩ := Option.bind_eq_some_iff.1 hread
  split at hread
  · cases hread
    exact nofun
  · obtain ⟨⟨v, afterValue⟩, hvalue, hread⟩ := Option.bind_eq_some_iff.1 hread
    have hv := h.value _ _ _ _ hvalue
    obtain ⟨next, -, hread⟩ := Option.bind_eq_some_iff.1 hread
    split at hread
    · cases hread
      exact List.forall_mem_singleton.2 hv
    · obtain ⟨⟨more, afterMore⟩, hmore, heq⟩ := Option.bind_eq_some_iff.1 hread
      cases heq
      exact List.forall_mem_cons.2 ⟨hv, h.elements _ _ _ _ hmore⟩
    · cases hread

theorem ReadsBounded.entries_succ {entries entries' : Entries} (h : ReadsBounded fuel)
    (hentries : entries.IsBounded)
    (hread : readEntries (fuel + 1) depth entries cs = some (entries', rest)) :
    entries'.IsBounded := by
  unfold readEntries at hread
  obtain ⟨⟨path, afterKey⟩, -, hread⟩ := Option.bind_eq_some_iff.1 hread
  dsimp only at hread
  split at hread
  · obtain ⟨⟨v, afterValue⟩, hvalue, hread⟩ := Option.bind_eq_some_iff.1 hread
    obtain ⟨assigned, hassign, hread⟩ := Option.bind_eq_some_iff.1 hread
    have hassigned := hentries.assign (h.value _ _ _ _ hvalue) hassign
    split at hread
    · cases hread
      exact hassigned
    · exact h.entries _ _ _ _ _ hassigned hread
    · cases hread
  · cases hread

theorem readsBounded (fuel : Nat) : ReadsBounded fuel := by
  induction fuel with
  | zero => exact .zero
  | succ fuel ih =>
      exact {
        value := fun _ _ _ _ => ih.value_succ
        elements := fun _ _ _ _ => ih.elements_succ
        entries := fun _ _ _ _ _ => ih.entries_succ }

/-! ## Documents -/

theorem isBounded_readStatement {statement : Statement}
    (h : readStatement fuel cs = some (statement, rest)) : statement.IsBounded := by
  unfold readStatement at h
  split at h
  all_goals
    obtain ⟨⟨path, afterKey⟩, -, h⟩ := Option.bind_eq_some_iff.1 h
    dsimp only at h
    split at h
  · obtain ⟨afterLine, -, heq⟩ := Option.bind_eq_some_iff.1 h
    cases heq
    trivial
  · cases h
  · obtain ⟨afterLine, -, heq⟩ := Option.bind_eq_some_iff.1 h
    cases heq
    trivial
  · cases h
  · obtain ⟨⟨v, afterValue⟩, hvalue, h⟩ := Option.bind_eq_some_iff.1 h
    obtain ⟨afterLine, -, heq⟩ := Option.bind_eq_some_iff.1 h
    cases heq
    exact (readsBounded fuel).value _ _ _ _ hvalue
  · cases h

theorem isBounded_readStatements {statements : List Statement}
    (h : readStatements fuel cs = some statements) :
    ∀ statement ∈ statements, statement.IsBounded := by
  induction fuel generalizing cs statements with
  | zero =>
      rw [readStatements] at h
      cases h
  | succ fuel ih =>
      unfold readStatements at h
      split at h
      · cases h
        exact nofun
      · obtain ⟨afterComment, -, h⟩ := Option.bind_eq_some_iff.1 h
        exact ih h
      · exact ih h
      · obtain ⟨afterBreak, -, h⟩ := Option.bind_eq_some_iff.1 h
        exact ih h
      · obtain ⟨⟨statement, afterStatement⟩, hstatement, h⟩ := Option.bind_eq_some_iff.1 h
        obtain ⟨more, hmore, heq⟩ := Option.bind_eq_some_iff.1 h
        cases heq
        exact List.forall_mem_cons.2 ⟨isBounded_readStatement hstatement, ih hmore⟩

/-- No document holds a whole number from `2 ^ 63` on. -/
theorem isBounded_of_ofText? {text : String} (h : ofText? text = some v) : v.IsBounded := by
  obtain ⟨statements, hstatements, hv⟩ := Option.bind_eq_some_iff.1 h
  exact isBounded_of_ofStatements? (isBounded_readStatements hstatements) hv

end

end Backlog.Toml
