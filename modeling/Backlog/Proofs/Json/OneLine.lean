import Backlog.Proofs.Json.Reading

/-!
# Values on one line

Inside a string every control character is written as an escape, and no other part of a value has
one.  So a value on one line is on one line: whatever its strings are, no character of it is below
the blank (`Json.Printed`).
-/

namespace Backlog.Json

/-- A row of characters without control characters. -/
def Printed (cs : List Char) : Prop := ∀ c ∈ cs, 0x20 ≤ c.toNat

variable {cs more : List Char} {c : Char}

theorem Printed.nil : Printed [] := List.forall_mem_nil _

theorem printed_of_all (h : cs.all (fun c => decide (0x20 ≤ c.toNat)) = true) : Printed cs := by
  intro c hmem
  exact of_decide_eq_true (List.all_eq_true.1 h c hmem)

theorem Printed.append (h : Printed cs) (hmore : Printed more) : Printed (cs ++ more) := by
  intro c hmem
  rcases List.mem_append.1 hmem with hmem | hmem
  · exact h c hmem
  · exact hmore c hmem

theorem Printed.cons (hc : 0x20 ≤ c.toNat) (h : Printed cs) : Printed (c :: cs) :=
  List.forall_mem_cons.2 ⟨hc, h⟩

theorem Printed.ne (h : Printed cs) (hc : c.toNat < 0x20) : c ∉ cs :=
  fun hmem => Nat.not_lt_of_le (h c hmem) hc

theorem printed_of_isDigits (h : IsDigits cs) : Printed cs := by
  intro c hmem
  have hdigit := h c hmem
  simp only [Char.isDigit, Bool.and_eq_true, decide_eq_true_eq] at hdigit
  exact Nat.le_trans (by decide) hdigit.1

theorem printed_number {n : Numeral} (h : n.WellFormed) : Printed n.chars := by
  have hfraction : Printed (fractionChars n) := by
    unfold fractionChars
    split
    · exact .nil
    · exact .cons (by decide) (printed_of_isDigits h.fraction)
  have hexponent : Printed (exponentChars n) := by
    unfold exponentChars
    split
    · exact .nil
    · rename_i negative digits heq
      refine .cons (by decide) (.cons ?_ (printed_of_isDigits (h.exponent _ _ heq).2))
      cases negative <;> decide
  have hsign : Printed (if n.negative then ['-'] else []) := by
    cases n.negative
    · exact .nil
    · exact printed_of_all rfl
  have hchars := chars_append n []
  simp only [List.append_nil] at hchars
  rw [hchars]
  exact hsign.append ((printed_of_isDigits h.whole.1).append (hfraction.append hexponent))

theorem hexDigit_le : ∀ n < 16, 0x20 ≤ (hexDigit n).toNat := by
  decide

theorem printed_charChars (c : Char) : Printed (charChars c) := by
  unfold charChars
  iterate 7
    split
    · exact printed_of_all rfl
  split
  · rename_i hcontrol
    have hfront : Printed ['\\', 'u', '0', '0'] := printed_of_all rfl
    exact hfront.append (.cons (hexDigit_le _ (by omega)) (.cons (hexDigit_le _ (by omega)) .nil))
  · exact .cons (by omega) .nil

theorem printed_stringChars (s : String) : Printed (stringChars s) := by
  have hinside : Printed (s.toList.flatMap charChars) := by
    intro c hmem
    obtain ⟨d, -, hc⟩ := List.mem_flatMap.1 hmem
    exact printed_charChars d c hc
  exact .cons (by decide) (hinside.append (printed_of_all rfl))

mutual

theorem printed_chars {v : Json} (h : v.Readable) : Printed v.chars := by
  match v, h with
  | .null, _ | .bool true, _ | .bool false, _ | .array [], _ | .object [], _ =>
      exact printed_of_all rfl
  | .number _, .number hn => exact printed_number hn
  | .string s, _ => exact printed_stringChars s
  | .array (v :: vs), .array hvs =>
      obtain ⟨hv, hvs⟩ := List.forall_mem_cons.1 hvs
      exact .cons (by decide) ((printed_chars hv).append (printed_elementsChars hvs))
  | .object ((k, v) :: ms), .object hms =>
      obtain ⟨hv, hms⟩ : v.Readable ∧ ∀ m ∈ ms, Readable m.2 := List.forall_mem_cons.1 hms
      refine .cons (by decide) ((printed_stringChars k).append (.cons (by decide) ?_))
      exact (printed_chars hv).append (printed_membersChars hms)

theorem printed_elementsChars {vs : List Json} (h : ∀ v ∈ vs, Readable v) :
    Printed (elementsChars vs) := by
  match vs, h with
  | [], _ => exact printed_of_all rfl
  | v :: vs, h =>
      obtain ⟨hv, hvs⟩ := List.forall_mem_cons.1 h
      exact .cons (by decide) ((printed_chars hv).append (printed_elementsChars hvs))

theorem printed_membersChars {ms : List (String × Json)} (h : ∀ m ∈ ms, Readable m.2) :
    Printed (membersChars ms) := by
  match ms, h with
  | [], _ => exact printed_of_all rfl
  | (k, v) :: ms, h =>
      obtain ⟨hv, hms⟩ : v.Readable ∧ ∀ m ∈ ms, Readable m.2 := List.forall_mem_cons.1 h
      refine .cons (by decide) ((printed_stringChars k).append (.cons (by decide) ?_))
      exact (printed_chars hv).append (printed_membersChars hms)

end

theorem exists_membersChars (ms : List (String × Json)) :
    ∃ inside, membersChars ms = inside ++ ['\x7d'] := by
  induction ms with
  | nil => exact ⟨[], rfl⟩
  | cons m ms ih =>
      obtain ⟨inside, hinside⟩ := ih
      exact ⟨',' :: (stringChars m.1 ++ ':' :: (m.2.chars ++ inside)),
        by simp [membersChars, hinside]⟩

/-- An object with members stands between its braces. -/
theorem exists_chars_object (m : String × Json) (ms : List (String × Json)) :
    ∃ inside, (Json.object (m :: ms)).chars = '\x7b' :: (inside ++ ['\x7d']) := by
  obtain ⟨inside, hinside⟩ := exists_membersChars ms
  exact ⟨stringChars m.1 ++ ':' :: (m.2.chars ++ inside), by simp [chars, hinside]⟩

/-- The value of the first member stands between its name and the other members. -/
theorem chars_object_cons (k : String) (v : Json) (ms : List (String × Json)) :
    (Json.object ((k, v) :: ms)).chars =
      '\x7b' :: (stringChars k ++ [':']) ++ v.chars ++ membersChars ms := by
  simp [chars]

end Backlog.Json
