import Backlog.Proofs.Number.Shortest
import Mathlib.Data.List.Nodup

/-!
# Reading what was written

A value that was written over several lines or on one is read as itself (`ofText?_pretty`,
`ofText?_compact`), whatever its strings are, if its numerals are well-formed and no string in it
lacks a value.  The two writers put the same parts down and differ in the space between them only
(`Spacing`).  Each part of the reader undoes one part of the writer and leaves what stands behind
it.  A number is the only part without an end of its own, so the text behind a value must not
continue one (`Stops`).
-/

namespace Backlog.Json

variable {c : Char} {cs rest : List Char}

/-! ## Numbers -/

/-- No number goes on with this text. -/
def Stops : List Char → Prop
  | [] => True
  | c :: _ => c.isDigit = false ∧ c ≠ '.' ∧ c ≠ 'e' ∧ c ≠ 'E'

theorem spanDigits_append {digits : List Char} (h : IsDigits digits)
    (hrest : ∀ c, rest.head? = some c → c.isDigit = false) :
    spanDigits (digits ++ rest) = (digits, rest) := by
  rw [spanDigits, List.takeWhile_append_of_pos h, List.dropWhile_append_of_pos h]
  cases rest with
  | nil => rw [List.takeWhile_nil, List.dropWhile_nil, List.append_nil]
  | cons c more =>
      have hc : ¬c.isDigit = true := by simp [hrest c rfl]
      rw [List.takeWhile_cons_of_neg hc, List.dropWhile_cons_of_neg hc, List.append_nil]

theorem Stops.head (h : Stops rest) : ∀ c, rest.head? = some c → c.isDigit = false := by
  intro c hc
  cases rest with
  | nil => cases hc
  | cons other more =>
      cases hc
      exact h.1

theorem readWholePart_append {digits : List Char} (h : IsWhole digits)
    (hrest : ∀ c, rest.head? = some c → c.isDigit = false) :
    readWholePart (digits ++ rest) = some (digits, rest) := by
  unfold readWholePart
  rw [spanDigits_append h.1 hrest]
  rcases h.2 with rfl | ⟨c, more, rfl, hc⟩
  · rfl
  · split
    · rename_i heq
      cases heq
    · rename_i heq
      cases heq
      exact absurd rfl hc
    · rename_i heq
      cases heq
      rfl

/-- The part of a numeral behind its whole digits. -/
def fractionChars (n : Numeral) : List Char :=
  if n.fraction.isEmpty then [] else '.' :: n.fraction

/-- The part of a numeral behind its fraction. -/
def exponentChars (n : Numeral) : List Char :=
  match n.exponent with
  | none => []
  | some (negative, digits) => 'e' :: (if negative then '-' else '+') :: digits

theorem readExponentPart_append {n : Numeral} (h : n.WellFormed) (hrest : Stops rest) :
    readExponentPart (exponentChars n ++ rest) = some (n.exponent, rest) := by
  unfold exponentChars
  cases hexponent : n.exponent with
  | none =>
      cases rest with
      | nil => rfl
      | cons c more =>
          have hc : ¬(c = 'e' ∨ c = 'E') := by simp [hrest.2.2.1, hrest.2.2.2]
          exact if_neg hc
  | some exponent =>
      obtain ⟨negative, digits⟩ := exponent
      obtain ⟨hne, hdigits⟩ := h.exponent _ _ hexponent
      have hspan := spanDigits_append hdigits hrest.head
      have hread : readExponentDigits negative (digits ++ rest) =
          some (some (negative, digits), rest) := by
        rw [readExponentDigits, hspan]
        cases digits with
        | nil => exact absurd rfl hne
        | cons c more => rfl
      cases negative with
      | true => exact hread
      | false => exact hread

theorem head?_exponentChars (n : Numeral) (hrest : Stops rest) :
    ∀ c, (exponentChars n ++ rest).head? = some c → c.isDigit = false ∧ c ≠ '.' := by
  intro c hc
  unfold exponentChars at hc
  cases hexponent : n.exponent with
  | none =>
      rw [hexponent] at hc
      cases rest with
      | nil => cases hc
      | cons other more =>
          cases hc
          exact ⟨hrest.1, hrest.2.1⟩
  | some exponent =>
      rw [hexponent] at hc
      cases hc
      decide

theorem readFraction_append {n : Numeral} (h : n.WellFormed) {more : List Char}
    (hmore : ∀ c, more.head? = some c → c.isDigit = false ∧ c ≠ '.') :
    readFraction (fractionChars n ++ more) = some (n.fraction, more) := by
  unfold fractionChars
  cases hfraction : n.fraction with
  | nil =>
      cases more with
      | nil => rfl
      | cons c rest =>
          have hc := (hmore c rfl).2
          simp only [List.isEmpty_nil, if_true, List.nil_append]
          unfold readFraction
          split
          · rename_i heq
            cases heq
            exact absurd rfl hc
          · rfl
  | cons c digits =>
      have hspan := spanDigits_append (hfraction ▸ h.fraction) fun c hc => (hmore c hc).1
      simp only [List.isEmpty_cons, Bool.false_eq_true, if_false, List.cons_append]
      rw [readFraction, ← List.cons_append, hspan]

theorem head?_fractionChars (n : Numeral) (hrest : Stops rest) :
    ∀ c, (fractionChars n ++ (exponentChars n ++ rest)).head? = some c → c.isDigit = false := by
  intro c hc
  unfold fractionChars at hc
  split at hc
  · exact (head?_exponentChars n hrest c hc).1
  · cases hc
    rfl

theorem readNumber_append {n : Numeral} (h : n.WellFormed) (hrest : Stops rest) :
    readNumber n.negative (n.whole ++ (fractionChars n ++ (exponentChars n ++ rest))) =
      some (n, rest) := by
  simp only [readNumber, readWholePart_append h.whole (head?_fractionChars n hrest),
    readFraction_append h (head?_exponentChars n hrest), readExponentPart_append h hrest,
    Option.bind_eq_bind, Option.bind_some]
  rfl

theorem chars_append (n : Numeral) (rest : List Char) :
    n.chars ++ rest = (if n.negative then ['-'] else []) ++
      (n.whole ++ (fractionChars n ++ (exponentChars n ++ rest))) := by
  calc n.chars ++ rest = (if n.negative then ['-'] else []) ++ n.whole ++ fractionChars n
        ++ exponentChars n ++ rest := rfl
    _ = _ := by simp only [List.append_assoc]

/-! ## Strings -/

theorem hexValue?_hexDigit : ∀ n < 16, hexValue? (hexDigit n) = some n := by
  decide

theorem readPieces_escaped {letter : Char} (hletter : letter ≠ 'u')
    (hescape : escaped? letter = some c) :
    readPieces ('\\' :: letter :: rest) =
      (readPieces rest).map fun read => (.char c :: read.1, read.2) := by
  rw [readPieces.eq_def]
  split
  · rename_i heq
    cases heq
  · rename_i heq
    cases heq
    exact absurd rfl hletter
  · rename_i heq
    cases heq
    rw [hescape]
    cases readPieces rest <;> rfl
  · rename_i hno heq
    cases heq
    exact absurd rfl (hno _ _ rfl)

theorem readPieces_control (h : c.toNat < 0x20) :
    readPieces ('\\' :: 'u' :: '0' :: '0' :: hexDigit (c.toNat / 16) :: hexDigit (c.toNat % 16) ::
        rest) =
      (readPieces rest).map fun read => (.char c :: read.1, read.2) := by
  have hhigh := hexValue?_hexDigit (c.toNat / 16) (by omega)
  have hlow := hexValue?_hexDigit (c.toNat % 16) (by omega)
  have hquad : hexQuad? '0' '0' (hexDigit (c.toNat / 16)) (hexDigit (c.toNat % 16)) =
      some c.toNat := by
    have hzero : hexValue? '0' = some 0 := rfl
    simp only [hexQuad?, hzero, hhigh, hlow, Option.bind_eq_bind, Option.bind_some]
    exact congrArg some (by omega)
  have hpiece : Piece.ofUnit c.toNat = .char c := by
    rw [Piece.ofUnit, if_neg (by omega), Char.ofNat_toNat]
  rw [readPieces, hquad, Option.bind_eq_bind, Option.bind_some, hpiece]
  cases readPieces rest <;> rfl

theorem readPieces_plain (hquote : c ≠ '\x22') (hslash : c ≠ '\\') (hcontrol : ¬c.toNat < 0x20) :
    readPieces (c :: rest) =
      (readPieces rest).map fun read => (.char c :: read.1, read.2) := by
  rw [readPieces.eq_def]
  split
  · rename_i heq
    cases heq
  · rename_i heq
    cases heq
    exact absurd rfl hslash
  · rename_i heq
    cases heq
    exact absurd rfl hslash
  · rename_i heq
    cases heq
    rw [if_neg hquote, if_neg (by simp [hslash]; omega)]
    cases readPieces rest <;> rfl

/-- A character in a string is read as itself. -/
theorem readPieces_charChars (c : Char) (rest : List Char) :
    readPieces (charChars c ++ rest) =
      (readPieces rest).map fun read => (.char c :: read.1, read.2) := by
  unfold charChars
  -- the letters that have an escape of their own come first
  iterate 7
    split
    · subst c
      exact readPieces_escaped (by decide) rfl
  split
  · rename_i hcontrol
    exact readPieces_control hcontrol
  · rename_i hquote hslash _ _ _ _ _ hcontrol
    exact readPieces_plain hquote hslash hcontrol

theorem readPieces_flatMap (cs rest : List Char) :
    readPieces (cs.flatMap charChars ++ '\x22' :: rest) = some (cs.map .char, rest) := by
  induction cs with
  | nil => rfl
  | cons c cs ih =>
      rw [List.flatMap_cons, List.append_assoc, readPieces_charChars, ih]
      rfl

theorem joinPieces_map_char (cs : List Char) : joinPieces (cs.map .char) = some cs := by
  induction cs with
  | nil => rfl
  | cons c cs ih =>
      rw [List.map_cons, joinPieces, ih]
      rfl

theorem readString_append (s : String) (rest : List Char) :
    readString (s.toList.flatMap charChars ++ '\x22' :: rest) = some (some s, rest) := by
  rw [readString, readPieces_flatMap, Option.bind_eq_bind, Option.bind_some]
  simp [joinPieces_map_char]

theorem stringChars_append (s : String) (rest : List Char) :
    stringChars s ++ rest = '\x22' :: (s.toList.flatMap charChars ++ '\x22' :: rest) := by
  simp [stringChars]

/-! ## Values -/

/-- A value that can be read: its numerals are well-formed, and all its strings have values. -/
inductive Readable : Json → Prop
  | null : Readable .null
  | bool (b : Bool) : Readable (.bool b)
  | number {n : Numeral} (h : n.WellFormed) : Readable (.number n)
  | string (s : String) : Readable (.string s)
  | array {vs : List Json} (h : ∀ v ∈ vs, Readable v) : Readable (.array vs)
  | object {ms : List (String × Json)} (h : ∀ m ∈ ms, Readable m.2) : Readable (.object ms)

theorem readable_int (i : Int) : Readable (int i) := .number (Numeral.wellFormed_ofInt i)

theorem readable_double (x : Float) : (double x).Readable := by
  unfold double
  cases hnumeral : layout.numeral? x with
  | none => exact .null
  | some n => exact .number (Layout.wellFormed_numeral? hnumeral)

/-- Where a writer leaves space: before each member and element and before the end behind them,
by the number of values around, and behind a colon. -/
structure Spacing where
  gap : Nat → List Char
  behind : List Char
  isSpace_gap : ∀ level, ∀ c ∈ gap level, isSpace c = true
  isSpace_behind : ∀ c ∈ behind, isSpace c = true

/-- The spacing with one member or element to a line. -/
def Spacing.lines : Spacing where
  gap := newLine
  behind := [' ']
  isSpace_gap := by
    intro level c hmem
    rcases List.mem_cons.1 hmem with rfl | hmem
    · rfl
    · rw [List.eq_of_mem_replicate hmem]
      rfl
  isSpace_behind := List.forall_mem_singleton.2 rfl

/-- No space at all. -/
def Spacing.tight : Spacing where
  gap := fun _ => []
  behind := []
  isSpace_gap := fun _ _ hmem => absurd hmem List.not_mem_nil
  isSpace_behind := fun _ hmem => absurd hmem List.not_mem_nil

mutual

/-- A value with space between its parts, inside `level` others. -/
def spaced (p : Spacing) (level : Nat) : Json → List Char
  | .array (v :: vs) =>
    '[' :: (p.gap (level + 1) ++ (v.spaced p (level + 1) ++ spacedElements p level vs))
  | .object ((k, v) :: ms) =>
    '\x7b' :: (p.gap (level + 1) ++ (stringChars k ++ ':' ::
      (p.behind ++ v.spaced p (level + 1)) ++ spacedMembers p level ms))
  | v => v.chars

/-- The further elements of an array and its end. -/
def spacedElements (p : Spacing) (level : Nat) : List Json → List Char
  | [] => p.gap level ++ [']']
  | v :: vs => ',' :: (p.gap (level + 1) ++ (v.spaced p (level + 1) ++ spacedElements p level vs))

/-- The further members of an object and its end. -/
def spacedMembers (p : Spacing) (level : Nat) : List (String × Json) → List Char
  | [] => p.gap level ++ ['\x7d']
  | (k, v) :: ms =>
    ',' :: (p.gap (level + 1) ++ (stringChars k ++ ':' ::
      (p.behind ++ v.spaced p (level + 1)) ++ spacedMembers p level ms))

end

mutual

theorem indented_eq_spaced (level : Nat) : (v : Json) → v.indented level = v.spaced .lines level
  | .null | .bool _ | .number _ | .string _ | .halfCharacter | .array [] | .object [] => rfl
  | .array (v :: vs) => by
      simp [indented, spaced, Spacing.lines, indented_eq_spaced (level + 1) v,
        indentedElements_eq_spaced level vs]
  | .object ((k, v) :: ms) => by
      simp [indented, spaced, Spacing.lines, indented_eq_spaced (level + 1) v,
        indentedMembers_eq_spaced level ms]

theorem indentedElements_eq_spaced (level : Nat) :
    (vs : List Json) → indentedElements level vs = spacedElements .lines level vs
  | [] => rfl
  | v :: vs => by
      simp [indentedElements, spacedElements, Spacing.lines, indented_eq_spaced (level + 1) v,
        indentedElements_eq_spaced level vs]

theorem indentedMembers_eq_spaced (level : Nat) :
    (ms : List (String × Json)) → indentedMembers level ms = spacedMembers .lines level ms
  | [] => rfl
  | (k, v) :: ms => by
      simp [indentedMembers, spacedMembers, Spacing.lines, indented_eq_spaced (level + 1) v,
        indentedMembers_eq_spaced level ms]

end

mutual

theorem chars_eq_spaced (level : Nat) : (v : Json) → v.chars = v.spaced .tight level
  | .null | .bool _ | .number _ | .string _ | .halfCharacter | .array [] | .object [] => rfl
  | .array (v :: vs) => by
      simp [chars, spaced, Spacing.tight, chars_eq_spaced (level + 1) v,
        elementsChars_eq_spaced level vs]
  | .object ((k, v) :: ms) => by
      simp [chars, spaced, Spacing.tight, chars_eq_spaced (level + 1) v,
        membersChars_eq_spaced level ms]

theorem elementsChars_eq_spaced (level : Nat) :
    (vs : List Json) → elementsChars vs = spacedElements .tight level vs
  | [] => rfl
  | v :: vs => by
      simp [elementsChars, spacedElements, Spacing.tight, chars_eq_spaced (level + 1) v,
        elementsChars_eq_spaced level vs]

theorem membersChars_eq_spaced (level : Nat) :
    (ms : List (String × Json)) → membersChars ms = spacedMembers .tight level ms
  | [] => rfl
  | (k, v) :: ms => by
      simp [membersChars, spacedMembers, Spacing.tight, chars_eq_spaced (level + 1) v,
        membersChars_eq_spaced level ms]

end

variable {p : Spacing}

theorem skipSpace_append {space : List Char} (h : ∀ c ∈ space, isSpace c = true)
    (cs : List Char) : skipSpace (space ++ cs) = skipSpace cs :=
  List.dropWhile_append_of_pos h

theorem skipSpace_cons (h : isSpace c = false) : skipSpace (c :: rest) = c :: rest :=
  List.dropWhile_cons_of_neg (by simp [h])

/-- Space does not continue a number. -/
theorem stops_append {space : List Char} (h : ∀ c ∈ space, isSpace c = true)
    (hrest : Stops rest) : Stops (space ++ rest) := by
  cases space with
  | nil => exact hrest
  | cons c more =>
      have hc := h c List.mem_cons_self
      simp only [isSpace, Bool.or_eq_true, beq_iff_eq, or_assoc] at hc
      rcases hc with rfl | rfl | rfl | rfl <;> exact by simp [Stops]

/-- What stands behind a member or an element does not continue a number. -/
theorem stops_spacedElements (level : Nat) (vs : List Json) (rest : List Char) :
    Stops (spacedElements p level vs ++ rest) := by
  cases vs with
  | nil =>
      rw [spacedElements, List.append_assoc]
      exact stops_append (p.isSpace_gap level) (by simp [Stops])
  | cons v vs => simp [Stops, spacedElements]

theorem stops_spacedMembers (level : Nat) (ms : List (String × Json)) (rest : List Char) :
    Stops (spacedMembers p level ms ++ rest) := by
  cases ms with
  | nil =>
      rw [spacedMembers, List.append_assoc]
      exact stops_append (p.isSpace_gap level) (by simp [Stops])
  | cons m ms => simp [Stops, spacedMembers]

/-- A digit begins no other value than a number. -/
theorem readValue_digit (h : c.isDigit = true) (fuel : Nat) (rest : List Char) :
    readValue (fuel + 1) (c :: rest) =
      (readNumber false (c :: rest)).map fun read => (.number read.1, read.2) := by
  rw [readValue]
  all_goals
    intro more heq
    exact ne_of_isDigit h rfl (List.cons.inj heq).1

theorem readValue_chars {n : Numeral} (h : n.WellFormed) (hrest : Stops rest) (fuel : Nat) :
    readValue (fuel + 1) (n.chars ++ rest) = some (.number n, rest) := by
  have hread := readNumber_append h hrest
  rw [chars_append]
  cases hnegative : n.negative with
  | true =>
      rw [hnegative] at hread
      simp only [if_true, List.cons_append, List.nil_append]
      rw [readValue, hread]
      rfl
  | false =>
      rw [hnegative] at hread
      obtain ⟨c, digits, hwhole⟩ := List.exists_cons_of_ne_nil h.whole.ne_nil
      have hdigit : c.isDigit = true := h.whole.1 c (hwhole ▸ List.mem_cons_self)
      rw [hwhole, List.cons_append] at hread ⊢
      simp only [Bool.false_eq_true, if_false, List.nil_append]
      rw [readValue_digit hdigit, hread]
      rfl

/-- A value begins with neither space nor the end of an array. -/
theorem exists_spaced {v : Json} (h : v.Readable) (level : Nat) :
    ∃ c cs, v.spaced p level = c :: cs ∧ isSpace c = false ∧ c ≠ ']' := by
  cases h with
  | null => exact ⟨_, _, rfl, rfl, by decide⟩
  | bool b => cases b <;> exact ⟨_, _, rfl, rfl, by decide⟩
  | string s => exact ⟨_, _, rfl, rfl, by decide⟩
  | array h =>
      rename_i vs
      cases vs <;> exact ⟨_, _, rfl, rfl, by decide⟩
  | object h =>
      rename_i ms
      cases ms <;> exact ⟨_, _, rfl, rfl, by decide⟩
  | number h =>
      rename_i n
      have hchars := chars_append n []
      rw [List.append_nil] at hchars
      rw [spaced, chars, hchars]
      · cases n.negative with
        | true => exact ⟨'-', _, rfl, rfl, by decide⟩
        | false =>
            obtain ⟨c, digits, hwhole⟩ := List.exists_cons_of_ne_nil h.whole.ne_nil
            have hdigit : c.isDigit = true := h.whole.1 c (hwhole ▸ List.mem_cons_self)
            refine ⟨c, _, by rw [hwhole]; rfl, ?_, ?_⟩
            · simp [isSpace, ne_of_isDigit hdigit]
            · exact ne_of_isDigit hdigit rfl
      · intro v vs heq
        cases heq
      · intro k v ms heq
        cases heq

/-- Members that all have a name. -/
theorem mapM_named (ms : List (String × Json)) :
    (ms.map fun m => (some m.1, m.2)).mapM (fun (name, v) =>
      name.map fun name => (name, v)) = some ms := by
  induction ms with
  | nil => rfl
  | cons m ms ih => simp [List.mapM_cons, ih]

theorem ofMembers_map (ms : List (String × Json)) :
    ofMembers (ms.map fun m => (some m.1, m.2)) = .object ms := by
  rw [ofMembers, mapM_named]

theorem readValue_array {fuel : Nat} {v : Json} {vs : List Json} {more : List Char}
    (hclose : ∀ after, skipSpace cs ≠ ']' :: after)
    (hfirst : readValue fuel (skipSpace cs) = some (v, more))
    (hothers : readElements fuel (skipSpace more) = some (vs, rest)) :
    readValue (fuel + 1) ('[' :: cs) = some (.array (v :: vs), rest) := by
  rw [readValue]
  split
  · rename_i after heq
    exact absurd heq (hclose after)
  · simp only [hfirst, hothers, Option.bind_eq_bind, Option.bind_some]
    rfl

theorem readValue_object {fuel : Nat} {k : String} {v : Json} {ms : List (String × Json)}
    {more : List Char} (hclose : ∀ after, skipSpace cs ≠ '\x7d' :: after)
    (hfirst : readMember fuel (skipSpace cs) = some ((some k, v), more))
    (hothers : readMembers fuel (skipSpace more) =
      some (ms.map fun m => (some m.1, m.2), rest)) :
    readValue (fuel + 1) ('\x7b' :: cs) = some (.object ((k, v) :: ms), rest) := by
  rw [readValue]
  split
  · rename_i after heq
    exact absurd heq (hclose after)
  · simp only [hfirst, hothers, Option.bind_eq_bind, Option.bind_some]
    exact congrArg (fun value => some (value, rest)) (ofMembers_map ((k, v) :: ms))

/-- The characters of a member. -/
def memberChars (p : Spacing) (level : Nat) (k : String) (v : Json) : List Char :=
  stringChars k ++ ':' :: (p.behind ++ v.spaced p level)

theorem spaced_array_append (level : Nat) (v : Json) (vs : List Json) (rest : List Char) :
    (Json.array (v :: vs)).spaced p level ++ rest = '[' :: (p.gap (level + 1) ++
      (v.spaced p (level + 1) ++ (spacedElements p level vs ++ rest))) := by
  simp only [spaced, List.append_assoc, List.cons_append]

theorem spacedElements_cons_append (level : Nat) (v : Json) (vs : List Json)
    (rest : List Char) :
    spacedElements p level (v :: vs) ++ rest = ',' :: (p.gap (level + 1) ++
      (v.spaced p (level + 1) ++ (spacedElements p level vs ++ rest))) := by
  simp only [spacedElements, List.append_assoc, List.cons_append]

theorem spaced_object_append (level : Nat) (k : String) (v : Json)
    (ms : List (String × Json)) (rest : List Char) :
    (Json.object ((k, v) :: ms)).spaced p level ++ rest = '\x7b' :: (p.gap (level + 1) ++
      (memberChars p (level + 1) k v ++ (spacedMembers p level ms ++ rest))) := by
  simp only [spaced, memberChars, List.append_assoc, List.cons_append]

theorem spacedMembers_cons_append (level : Nat) (k : String) (v : Json)
    (ms : List (String × Json)) (rest : List Char) :
    spacedMembers p level ((k, v) :: ms) ++ rest = ',' :: (p.gap (level + 1) ++
      (memberChars p (level + 1) k v ++ (spacedMembers p level ms ++ rest))) := by
  simp only [spacedMembers, memberChars, List.append_assoc, List.cons_append]

theorem skipSpace_spaced {v : Json} (h : v.Readable) (level : Nat) (rest : List Char) :
    skipSpace (v.spaced p level ++ rest) = v.spaced p level ++ rest := by
  obtain ⟨c, cs, hv, hspace, -⟩ := exists_spaced h level
  rw [hv, List.cons_append, skipSpace_cons hspace]

theorem skipSpace_memberChars (level : Nat) (k : String) (v : Json) (rest : List Char) :
    skipSpace (memberChars p level k v ++ rest) = memberChars p level k v ++ rest :=
  skipSpace_cons rfl

theorem readMember_memberChars {fuel level : Nat} {v : Json} (k : String)
    (hskip : skipSpace (v.spaced p level ++ rest) = v.spaced p level ++ rest)
    (hread : readValue fuel (v.spaced p level ++ rest) = some (v, rest)) :
    readMember (fuel + 1) (memberChars p level k v ++ rest) = some ((some k, v), rest) := by
  have hcolon (more : List Char) : skipSpace (':' :: more) = ':' :: more := skipSpace_cons rfl
  rw [memberChars, List.append_assoc, stringChars_append, readMember, readString_append,
    Option.bind_eq_bind, Option.bind_some]
  simp only [List.cons_append, List.append_assoc, hcolon, skipSpace_append p.isSpace_behind, hskip,
    hread, Option.bind_eq_bind, Option.bind_some]
  rfl

mutual

/-- Enough fuel is as much as the text is long, since each part is shorter than the whole. -/
theorem readValue_spaced {v : Json} (h : v.Readable) (level fuel : Nat) (rest : List Char)
    (hrest : Stops rest) (hfuel : (v.spaced p level).length ≤ fuel) :
    readValue fuel (v.spaced p level ++ rest) = some (v, rest) := by
  obtain ⟨_, _, hfirst, -, -⟩ := exists_spaced (p := p) h level
  obtain ⟨fuel, rfl⟩ : ∃ less, fuel = less + 1 := by
    rw [hfirst, List.length_cons] at hfuel
    exact ⟨fuel - 1, by omega⟩
  match v, h with
  | .null, _ => rfl
  | .bool true, _ => rfl
  | .bool false, _ => rfl
  | .number n, .number hn => exact readValue_chars hn hrest fuel
  | .string s, _ =>
      have hchars : (Json.string s).spaced p level = stringChars s := rfl
      rw [hchars, stringChars_append, readValue, readString_append]
      rfl
  | .array [], _ => rfl
  | .array (v :: vs), .array hvs =>
      obtain ⟨hv, hvs⟩ := List.forall_mem_cons.1 hvs
      have hskip := (skipSpace_append (p.isSpace_gap (level + 1)) _).trans
        (skipSpace_spaced (p := p) hv (level + 1) (spacedElements p level vs ++ rest))
      simp only [spaced, List.length_cons, List.length_append] at hfuel
      rw [spaced_array_append]
      refine readValue_array ?_ ?_ (readElements_spaced hvs level fuel rest (by omega))
      · -- the array does not end here: no value starts like the end of an array
        intro after heq
        obtain ⟨c, cs, hfirst, -, hclose⟩ := exists_spaced (p := p) hv (level + 1)
        rw [hskip, hfirst] at heq
        exact hclose (List.cons.inj heq).1
      · rw [hskip]
        exact readValue_spaced hv (level + 1) fuel _ (stops_spacedElements level vs rest)
          (by omega)
  | .object [], _ => rfl
  | .object ((k, v) :: ms), .object hms =>
      obtain ⟨hv, hms⟩ : v.Readable ∧ ∀ m ∈ ms, Readable m.2 := List.forall_mem_cons.1 hms
      have hskip := (skipSpace_append (p.isSpace_gap (level + 1)) _).trans
        (skipSpace_memberChars (p := p) (level + 1) k v (spacedMembers p level ms ++ rest))
      simp only [spaced, List.length_cons, List.length_append] at hfuel
      obtain ⟨fuel, rfl⟩ : ∃ less, fuel = less + 1 := ⟨fuel - 1, by omega⟩
      have hread := readValue_spaced hv (level + 1) fuel (spacedMembers p level ms ++ rest)
        (stops_spacedMembers level ms rest) (by omega)
      rw [spaced_object_append]
      refine readValue_object ?_ ?_ (readMembers_spaced hms level (fuel + 1) rest (by omega))
      · intro after heq
        rw [hskip] at heq
        cases heq
      · rw [hskip]
        exact readMember_memberChars k (skipSpace_spaced hv _ _) hread

theorem readElements_spaced {vs : List Json} (h : ∀ v ∈ vs, Readable v) (level fuel : Nat)
    (rest : List Char) (hfuel : (spacedElements p level vs).length ≤ fuel) :
    readElements fuel (skipSpace (spacedElements p level vs ++ rest)) = some (vs, rest) := by
  obtain ⟨fuel, rfl⟩ : ∃ less, fuel = less + 1 := by
    cases vs <;> simp [spacedElements] at hfuel <;> exact ⟨fuel - 1, by omega⟩
  match vs, h with
  | [], _ =>
      rw [spacedElements, List.append_assoc, skipSpace_append (p.isSpace_gap level)]
      rfl
  | v :: vs, h =>
      obtain ⟨hv, hvs⟩ := List.forall_mem_cons.1 h
      simp only [spacedElements, List.length_cons, List.length_append] at hfuel
      have hread := readValue_spaced hv (level + 1) fuel (spacedElements p level vs ++ rest)
        (stops_spacedElements level vs rest) (by omega)
      have hothers := readElements_spaced hvs level fuel rest (by omega)
      rw [spacedElements_cons_append, skipSpace_cons rfl, readElements,
        skipSpace_append (p.isSpace_gap (level + 1)), skipSpace_spaced hv]
      simp only [hread, hothers, Option.bind_eq_bind, Option.bind_some]
      rfl

theorem readMembers_spaced {ms : List (String × Json)} (h : ∀ m ∈ ms, Readable m.2)
    (level fuel : Nat) (rest : List Char)
    (hfuel : (spacedMembers p level ms).length ≤ fuel) :
    readMembers fuel (skipSpace (spacedMembers p level ms ++ rest)) =
      some (ms.map fun m => (some m.1, m.2), rest) := by
  obtain ⟨fuel, rfl⟩ : ∃ less, fuel = less + 1 := by
    cases ms <;> simp [spacedMembers] at hfuel <;> exact ⟨fuel - 1, by omega⟩
  match ms, h with
  | [], _ =>
      rw [spacedMembers, List.append_assoc, skipSpace_append (p.isSpace_gap level)]
      rfl
  | (k, v) :: ms, h =>
      obtain ⟨hv, hms⟩ : v.Readable ∧ ∀ m ∈ ms, Readable m.2 := List.forall_mem_cons.1 h
      simp only [spacedMembers, List.length_cons, List.length_append] at hfuel
      obtain ⟨fuel, rfl⟩ : ∃ less, fuel = less + 1 := ⟨fuel - 1, by omega⟩
      have hread := readValue_spaced hv (level + 1) fuel (spacedMembers p level ms ++ rest)
        (stops_spacedMembers level ms rest) (by omega)
      have hmember := readMember_memberChars k (skipSpace_spaced hv _ _) hread
      have hothers := readMembers_spaced hms level (fuel + 1) rest (by omega)
      rw [spacedMembers_cons_append, skipSpace_cons rfl, readMembers,
        skipSpace_append (p.isSpace_gap (level + 1)), skipSpace_memberChars]
      simp only [hmember, hothers, Option.bind_eq_bind, Option.bind_some]
      rfl

end

theorem ofChars?_spaced {v : Json} (h : v.Readable) : ofChars? (v.spaced p 0) = some v := by
  have hread := readValue_spaced (p := p) h 0 ((v.spaced p 0).length + 1) [] trivial (by omega)
  have hskip := skipSpace_spaced (p := p) h 0 []
  rw [List.append_nil] at hread hskip
  rw [ofChars?, hskip, hread]
  rfl

/-- A value written over several lines is read as itself. -/
theorem ofText?_pretty {v : Json} (h : v.Readable) : ofText? v.pretty = some v := by
  rw [ofText?, pretty, String.toList_ofList, indented_eq_spaced, ofChars?_spaced h]

/-- A value written on one line is read as itself. -/
theorem ofText?_compact {v : Json} (h : v.Readable) : ofText? v.compact = some v := by
  rw [ofText?, compact, String.toList_ofList, chars_eq_spaced 0, ofChars?_spaced h]

/-! ## Records -/

/-- Every member has the name of a member. -/
theorem filter_known (members : List (String × Json)) :
    (members.filter fun (name, _) => (members.map (·.1)).contains name) = members := by
  rw [List.filter_eq_self]
  intro m hmem
  simpa using ⟨m.2, hmem⟩

/-- All members of an object are fields if they have the names of the fields. -/
theorem asFields_object {members : List (String × Json)} {names : List String}
    (hnames : members.map (·.1) = names) (hnodup : names.Nodup) :
    (Json.object members).asFields names = some ⟨false, members⟩ := by
  subst hnames
  have honce : ((members.map (·.1)).any fun name =>
      1 < (members.filter fun e => e.1 == name).length) = false := by
    rw [List.any_eq_false]
    intro name hmem
    have hcount := List.nodup_iff_count_le_one.1 hnodup name
    rw [List.count, List.countP_map, List.countP_eq_length_filter] at hcount
    simpa [Function.comp_def] using hcount
  simp only [asFields, filter_known, honce]
  rfl

end Backlog.Json
