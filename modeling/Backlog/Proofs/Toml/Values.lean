import Backlog.Proofs.Toml.Numbers
import Backlog.Proofs.Toml.Strings

/-!
# Values that were written

The texts under the keys of a document: what is written for a value is read as that value, with
the end of the line behind it (`Denotes`).  A row of strings is written over several lines, and
the reader skips the line breaks before each string and before the bracket at the end.
-/

namespace Backlog

namespace Toml

variable {c : Char} {cs rest after : List Char} {fuel depth : Nat} {s : String}

/-! ## Blanks and line breaks -/

/-- A character that starts something: no blank, no line break and no comment. -/
def Starts (c : Char) : Prop := isWs c = false ∧ c ≠ '#' ∧ c ≠ '\n' ∧ c ≠ '\r'

theorem Starts.skipWs (h : Starts c) (cs : List Char) : skipWs (c :: cs) = c :: cs :=
  List.dropWhile_cons_of_neg (by simp [h.1])

theorem Starts.skipLines (h : Starts c) : skipLines (fuel + 1) (c :: cs) = some (c :: cs) := by
  have hskip := h.skipWs cs
  obtain ⟨-, hcomment, hfeed, hreturn⟩ := h
  rw [Toml.skipLines, hskip]
  split
  · rename_i heq
    exact absurd (List.cons.inj heq).1 hcomment
  · rename_i heq
    exact absurd (List.cons.inj heq).1 hfeed
  · rename_i heq
    exact absurd (List.cons.inj heq).1 hreturn
  · rfl

theorem skipLines_blank : skipLines (fuel + 1) (' ' :: cs) = skipLines (fuel + 1) cs := rfl

theorem skipLines_break : skipLines (fuel + 1) ('\n' :: cs) = skipLines fuel cs := rfl

/-! ## Strings -/

theorem length_le_escaped (isLong : Bool) (allowed q : Nat) (cs : List Char) :
    cs.length ≤ (escaped isLong allowed q cs).length := by
  induction cs generalizing q with
  | nil => exact Nat.zero_le _
  | cons c cs ih =>
      by_cases hquote : c = '\x22'
      · subst hquote
        have hnext := ih (q + 1)
        have hafter := ih 0
        rw [escaped, if_pos rfl]
        split <;> simp only [List.length_cons] <;> omega
      · have hafter := ih 0
        have hwritten := isWritten_written isLong c
        rw [escaped_cons hquote]
        generalize written isLong c = chars at hwritten ⊢
        cases hwritten <;> simp only [List.length_append, List.length_cons] <;> omega

theorem length_lt_stringChars (s : String) : s.toList.length < (stringChars s).length := by
  have hshort := length_le_escaped false 0 0 s.toList
  have hlong := length_le_escaped true 2 0 s.toList
  unfold stringChars
  simp only [triple]
  repeat' split
  all_goals
    simp only [List.length_append, List.length_cons, List.length_nil]
    omega

/-- A string starts with a quote. -/
theorem exists_stringChars (s : String) :
    ∃ c cs, stringChars s = c :: cs ∧ (c = '\x22' ∨ c = '\x27') := by
  unfold stringChars
  simp only [triple]
  repeat' split
  all_goals exact ⟨_, _, rfl, by decide⟩

theorem starts_quote (h : c = '\x22' ∨ c = '\x27') : Starts c := by
  rcases h with rfl | rfl <;> exact ⟨rfl, by decide, by decide, by decide⟩

/-- A text that cannot go on with a quote. -/
def Unquoted (rest : List Char) : Prop := rest.head? ≠ some '\x22' ∧ rest.head? ≠ some '\x27'

theorem readValue_quote (h : c = '\x22' ∨ c = '\x27') :
    readValue (fuel + 1) depth (c :: cs) =
      (readString (fuel + 1) (c :: cs)).map fun read => (.string read.1, read.2) := by
  rcases h with rfl | rfl <;> rfl

/-- A string is read as itself, whatever it is in. -/
theorem readValue_string (depth : Nat) (hfuel : s.toList.length < fuel) (hrest : Unquoted rest) :
    readValue fuel depth (stringChars s ++ rest) = some (.string s, rest) := by
  obtain ⟨fuel, rfl⟩ := Nat.exists_eq_add_of_lt hfuel
  have hread := readString_append s hfuel hrest.1 hrest.2
  obtain ⟨c, cs, hsplit, hc⟩ := exists_stringChars s
  rw [hsplit, List.cons_append] at hread ⊢
  rw [readValue_quote hc, hread]
  rfl

/-! ## Rows of strings -/

theorem starts_bracket : Starts ']' := ⟨rfl, by decide, by decide, by decide⟩

theorem unquoted_cons (h : c ≠ '\x22' ∧ c ≠ '\x27') : Unquoted (c :: cs) :=
  ⟨by simpa using h.1, by simpa using h.2⟩

/-- The end of a row. -/
theorem readElements_nil (h : skipLines (fuel + 1) cs = some (']' :: rest)) :
    readElements (fuel + 1) depth cs = some ([], rest) := by
  rw [readElements, h]
  rfl

/-- What is left of a row behind one of its values. -/
def following (fuel depth : Nat) (v : Toml) : List Char → Option (List Toml × List Char)
  | ']' :: rest => some ([v], rest)
  | ',' :: rest => do
    let (vs, rest) ← readElements fuel depth rest
    return (v :: vs, rest)
  | _ => none

theorem readElements_string (h : skipLines (fuel + 1) cs = some (stringChars s ++ after))
    (hfuel : s.toList.length < fuel) (hafter : Unquoted after) :
    readElements (fuel + 1) depth cs =
      (skipLines (fuel + 1) after).bind (following fuel depth (.string s)) := by
  have hread := readValue_string depth hfuel hafter
  obtain ⟨c, cs, hsplit, hc⟩ := exists_stringChars s
  rw [hsplit, List.cons_append] at h hread
  rw [readElements, h]
  simp only [Option.bind_eq_bind, Option.bind_some]
  split
  · rename_i heq
    rcases hc with rfl | rfl <;> exact absurd (List.cons.inj heq).1 (by decide)
  · rw [hread]
    rfl

/-- The last string of a row. -/
theorem readElements_last (h : skipLines (fuel + 1) cs = some (stringChars s ++ ']' :: rest))
    (hfuel : s.toList.length < fuel) :
    readElements (fuel + 1) depth cs = some ([.string s], rest) := by
  rw [readElements_string h hfuel (unquoted_cons (by decide)), starts_bracket.skipLines]
  rfl

/-- A string of a row, with a comma behind it. -/
theorem readElements_cons (h : skipLines (fuel + 1) cs = some (stringChars s ++ ',' :: after))
    (hfuel : s.toList.length < fuel) {vs : List Toml}
    (hafter : readElements fuel depth after = some (vs, rest)) :
    readElements (fuel + 1) depth cs = some (.string s :: vs, rest) := by
  have hcomma : Starts ',' := ⟨rfl, by decide, by decide, by decide⟩
  rw [readElements_string h hfuel (unquoted_cons (by decide)), hcomma.skipLines]
  change (readElements fuel depth after).bind _ = _
  rw [hafter]
  rfl

/-- Strings as they are written one to a line. -/
def rowsChars (ss : List String) : List Char :=
  ss.flatMap fun s => '\n' :: ' ' :: ' ' :: ' ' :: ' ' :: (stringChars s ++ [','])

theorem readElements_rows {ss : List String} (hfuel : (rowsChars ss).length + 1 < fuel) :
    readElements fuel depth (rowsChars ss ++ '\n' :: ']' :: rest) =
      some (ss.map .string, rest) := by
  induction ss generalizing fuel with
  | nil =>
      obtain ⟨fuel, rfl⟩ : ∃ less, fuel = less + 2 := ⟨fuel - 2, by omega⟩
      exact readElements_nil (by rw [rowsChars, List.flatMap_nil, List.nil_append, skipLines_break,
        starts_bracket.skipLines])
  | cons s ss ih =>
      have hshort := length_lt_stringChars s
      rw [rowsChars, List.flatMap_cons, ← rowsChars] at hfuel ⊢
      simp only [List.length_append, List.length_cons, List.length_nil] at hfuel
      obtain ⟨fuel, rfl⟩ : ∃ less, fuel = less + 2 := ⟨fuel - 2, by omega⟩
      obtain ⟨c, cs, hsplit, hc⟩ := exists_stringChars s
      refine readElements_cons ?_ (by omega) (ih (by omega))
      simp only [List.cons_append, List.append_assoc, List.nil_append, skipLines_break,
        skipLines_blank, hsplit, (starts_quote hc).skipLines]

/-! ## Values at the end of a line -/

/-- A text that is read as a value where its line ends. -/
structure Denotes (text : List Char) (v : Toml) : Prop where
  /-- It has a character at its front, and no blank. -/
  solid : ∀ rest, skipWs (text ++ rest) = text ++ rest
  reads : ∀ fuel rest, text.length < fuel →
    readValue fuel 0 (text ++ '\n' :: rest) = some (v, '\n' :: rest)

theorem denotes_boolean (b : Bool) :
    Denotes (if b then "true" else "false").toList (.boolean b) := by
  cases b
  all_goals
    refine ⟨fun rest => rfl, fun fuel rest hfuel => ?_⟩
    obtain ⟨fuel, rfl⟩ := Nat.exists_eq_add_of_lt hfuel
    rfl

theorem denotes_string (s : String) : Denotes (stringChars s) (.string s) := by
  refine ⟨fun rest => ?_, fun fuel rest hfuel => ?_⟩
  · obtain ⟨c, cs, hsplit, hc⟩ := exists_stringChars s
    rw [hsplit, List.cons_append, (starts_quote hc).skipWs]
  · exact readValue_string 0 (Nat.lt_trans (length_lt_stringChars s) hfuel)
      (unquoted_cons (by decide))

/-- A character with which a number starts. -/
def StartsNumber (c : Char) : Prop := c.isDigit = true ∨ c = '-'

theorem StartsNumber.ne {d : Char} (h : StartsNumber c) (hdigit : d.isDigit = false)
    (hd : d ≠ '-') : c ≠ d := by
  rintro rfl
  rcases h with h | h
  · exact Bool.false_ne_true (hdigit.symm.trans h)
  · exact hd h

theorem StartsNumber.starts (h : StartsNumber c) : Starts c := by
  refine ⟨?_, h.ne rfl (by decide), h.ne rfl (by decide), h.ne rfl (by decide)⟩
  simp [isWs, h.ne (d := ' ') rfl (by decide), h.ne (d := '\t') rfl (by decide)]

theorem readValue_number (h : StartsNumber c) :
    readValue (fuel + 1) depth (c :: cs) = readNumber (c :: cs) := by
  rw [readValue]
  · refine if_neg (not_or.2 ⟨?_, ?_⟩)
    · exact h.ne rfl (by decide)
    · exact h.ne rfl (by decide)
  · exact fun _ heq _ => h.ne rfl (by decide) heq
  · exact fun _ heq _ => h.ne rfl (by decide) heq
  · exact h.ne rfl (by decide)
  · exact h.ne rfl (by decide)

theorem denotes_number {v : Toml} (hstart : ∃ c more, cs = c :: more ∧ StartsNumber c)
    (h : ∀ rest, readNumber (cs ++ '\n' :: rest) = some (v, '\n' :: rest)) : Denotes cs v := by
  obtain ⟨c, more, rfl, hc⟩ := hstart
  refine ⟨fun rest => hc.starts.skipWs _, fun fuel rest hfuel => ?_⟩
  obtain ⟨fuel, rfl⟩ := Nat.exists_eq_add_of_lt hfuel
  rw [List.cons_append, readValue_number hc, ← List.cons_append, h]

theorem denotes_whole {n : Nat} (h : n < twoTo 63) :
    Denotes (decimalDigits n) (.integer n) := by
  refine denotes_number ?_ fun rest => readNumber_whole h
  obtain ⟨c, more, hsplit⟩ := List.exists_cons_of_ne_nil (isWhole_decimalDigits n).ne_nil
  exact ⟨c, more, hsplit, .inl (isDigits_decimalDigits n c (hsplit ▸ List.mem_cons_self))⟩

theorem denotes_numeral {n : Numeral} (h : n.WellFormed) (hfraction : n.fraction ≠ [])
    (hexponent : n.exponent = none)
    (hfinite : n.negative = false → Binary64.isFinite n.toFloat = true) :
    Denotes n.chars (.float n.toFloat) := by
  refine denotes_number ?_ fun rest => readNumber_numeral h hfraction hexponent hfinite
  rw [chars_eq hfraction hexponent]
  cases n.negative with
  | true => exact ⟨_, _, rfl, .inr rfl⟩
  | false =>
      obtain ⟨c, more, hsplit⟩ := List.exists_cons_of_ne_nil h.whole.ne_nil
      rw [hsplit]
      exact ⟨_, _, rfl, .inl (h.whole.1 c (hsplit ▸ List.mem_cons_self))⟩

/-- A row is read with what its elements are read as. -/
theorem denotes_row {vs : List Toml}
    (h : ∀ fuel rest, cs.length < fuel →
      readElements fuel 1 (cs ++ rest) = some (vs, rest)) :
    Denotes ('[' :: cs) (.array vs) := by
  refine ⟨fun rest => rfl, fun fuel rest hfuel => ?_⟩
  rw [List.length_cons] at hfuel
  obtain ⟨fuel, rfl⟩ : ∃ less, fuel = less + 1 := ⟨fuel - 1, by omega⟩
  have hread := h fuel ('\n' :: rest) (by omega)
  change (readElements fuel 1 (cs ++ '\n' :: rest)).bind _ = _
  rw [hread]
  rfl

theorem denotes_nil : Denotes ['[', ']'] (.array []) := by
  refine denotes_row fun fuel rest hfuel => ?_
  obtain ⟨fuel, rfl⟩ := Nat.exists_eq_add_of_lt hfuel
  exact readElements_nil starts_bracket.skipLines

theorem denotes_single (s : String) :
    Denotes ('[' :: (stringChars s ++ [']'])) (.array [.string s]) := by
  refine denotes_row fun fuel rest hfuel => ?_
  have hshort := length_lt_stringChars s
  rw [List.length_append, List.length_singleton] at hfuel
  obtain ⟨fuel, rfl⟩ : ∃ less, fuel = less + 1 := ⟨fuel - 1, by omega⟩
  obtain ⟨c, more, hsplit, hc⟩ := exists_stringChars s
  refine readElements_last ?_ (by omega)
  rw [hsplit, List.append_assoc, List.cons_append, (starts_quote hc).skipLines]
  rfl

theorem denotes_rows (ss : List String) :
    Denotes ('[' :: (rowsChars ss ++ ['\n', ']'])) (.array (ss.map .string)) := by
  refine denotes_row fun fuel rest hfuel => ?_
  rw [List.length_append] at hfuel
  rw [List.append_assoc]
  exact readElements_rows (by simpa using Nat.lt_of_succ_lt hfuel)

end Toml

end Backlog
