import Backlog.Proofs.Number.Digits
import Backlog.Toml.Reader

/-!
# Numbers that were written

A number on a line of its own is read as itself: a whole number (`readNumber_whole`), and a numeral
with a point, as the double that it stands for (`readNumber_numeral`).  The reader first looks for
a date or a time.  These need a hyphen or a colon behind two or four digits, and there is none
before the end of the line (`Unmarked`).
-/

namespace Backlog.Toml

variable {cs rest : List Char}

/-! ## No dates and no times -/

/-- A line in which no mark of a date or a time is left. -/
def Unmarked (cs : List Char) : Prop :=
  ∃ line rest, cs = line ++ '\n' :: rest ∧ ∀ c ∈ line, c ≠ '-' ∧ c ≠ ':'

theorem Unmarked.tail {c : Char} (h : Unmarked (c :: cs)) (hc : c ≠ '\n') : Unmarked cs := by
  obtain ⟨line, rest, heq, hline⟩ := h
  cases line with
  | nil => exact absurd (List.cons.inj heq).1 hc
  | cons d line =>
      obtain ⟨rfl, rfl⟩ := List.cons.inj heq
      exact ⟨line, rest, rfl, (List.forall_mem_cons.1 hline).2⟩

theorem Unmarked.readChar_eq_none (h : Unmarked cs) (mark : Char)
    (hmark : mark = '-' ∨ mark = ':') : Calendar.readChar mark cs = none := by
  obtain ⟨line, rest, rfl, hline⟩ := h
  cases line with
  | nil =>
      refine if_neg ?_
      rcases hmark with rfl | rfl <;> decide
  | cons c line =>
      obtain ⟨hhyphen, hcolon⟩ := (List.forall_mem_cons.1 hline).1
      refine if_neg ?_
      rcases hmark with rfl | rfl
      · exact hhyphen
      · exact hcolon

theorem Unmarked.of_readTwo {n : Nat} (h : Unmarked cs)
    (hread : Calendar.readTwo cs = some (n, rest)) : Unmarked rest := by
  unfold Calendar.readTwo at hread
  split at hread
  · rename_i a b more
    split at hread
    · rename_i hdigits
      cases hread
      rw [Bool.and_eq_true] at hdigits
      refine (h.tail ?_).tail ?_
      · rintro rfl
        exact absurd hdigits.1 (by decide)
      · rintro rfl
        exact absurd hdigits.2 (by decide)
    · cases hread
  · cases hread

theorem Unmarked.skipTime_eq_none (h : Unmarked cs) : skipTime cs = none := by
  rw [skipTime]
  cases hread : Calendar.readTwo cs with
  | none => rfl
  | some read =>
      have hchar := (h.of_readTwo hread).readChar_eq_none ':' (.inr rfl)
      simp only [Option.bind_eq_bind, Option.bind_some, hchar, Option.bind_none]

theorem Unmarked.date_eq_none (h : Unmarked cs) : skipDateTime.date cs = none := by
  rw [skipDateTime.date]
  cases hread : Calendar.readTwo cs with
  | none => rfl
  | some read =>
      simp only [Option.bind_eq_bind, Option.bind_some]
      have hrest := h.of_readTwo hread
      cases hmore : Calendar.readTwo read.2 with
      | none => rfl
      | some more =>
          have hchar := (hrest.of_readTwo hmore).readChar_eq_none '-' (.inl rfl)
          simp only [Option.bind_some, hchar, Option.bind_none]

theorem Unmarked.skipDateTime_eq_none (h : Unmarked cs) : skipDateTime cs = none := by
  rw [skipDateTime, h.date_eq_none]
  exact h.skipTime_eq_none

/-- No date and no time starts with a sign. -/
theorem skipDateTime_sign (cs : List Char) : skipDateTime ('-' :: cs) = none := by
  have hread : Calendar.readTwo ('-' :: cs) = none := by
    cases cs <;> rfl
  rw [skipDateTime, skipDateTime.date, skipTime, hread]
  rfl

/-! ## Digits -/

/-- Digits do not go on with this text. -/
def Ends (rest : List Char) : Prop := ∀ c, rest.head? = some c → c.isDigit = false ∧ c ≠ '_'

theorem ends_cons {c : Char} (hdigit : c.isDigit = false) (hc : c ≠ '_') : Ends (c :: rest) := by
  intro d hd
  cases hd
  exact ⟨hdigit, hc⟩

theorem ne_underscore {c : Char} (h : c.isDigit = true) : c ≠ '_' := by
  rintro rfl
  cases h

theorem readMoreDigits_append {digits : List Char} (h : IsDigits digits) (hrest : Ends rest) :
    readMoreDigits Char.isDigit (digits ++ rest) = some (digits, rest) := by
  induction digits with
  | nil =>
      cases rest with
      | nil => rfl
      | cons c more =>
          obtain ⟨hdigit, hc⟩ := hrest c rfl
          rw [List.nil_append, readMoreDigits]
          · rw [hdigit, if_neg Bool.false_ne_true, if_neg hc]
          · exact fun _ _ heq _ => hc heq
  | cons c digits ih =>
      obtain ⟨hc, hdigits⟩ := List.forall_mem_cons.1 h
      rw [List.cons_append, readMoreDigits]
      · rw [if_pos hc, ih hdigits]
        rfl
      · exact fun _ _ heq _ => ne_underscore hc heq

theorem readDigits_append {digits : List Char} (h : IsDigits digits) (hne : digits ≠ [])
    (hrest : Ends rest) : readDigits Char.isDigit (digits ++ rest) = some (digits, rest) := by
  obtain ⟨c, digits, rfl⟩ := List.exists_cons_of_ne_nil hne
  obtain ⟨hc, hdigits⟩ := List.forall_mem_cons.1 h
  rw [List.cons_append, readDigits, if_pos hc, readMoreDigits_append hdigits hrest]
  rfl

theorem readWhole_append {digits : List Char} (h : IsWhole digits) (hrest : Ends rest) :
    readWhole (digits ++ rest) = some (digits, rest) := by
  obtain ⟨hdigits, rfl | ⟨c, more, rfl, hc⟩⟩ := h
  · rfl
  · rw [List.cons_append, readWhole, ← List.cons_append]
    · exact readDigits_append hdigits (List.cons_ne_nil c more) hrest
    · exact fun _ heq => hc (List.cons.inj heq).1

/-! ## Numbers on a line -/

theorem ends_newline : Ends ('\n' :: rest) := ends_cons rfl (by decide)

theorem readExponent_newline : readExponent ('\n' :: rest) = some (none, '\n' :: rest) := rfl

theorem readSign_digit {c : Char} (hdigit : c.isDigit = true) :
    readSign (c :: cs) = (false, c :: cs) := by
  rw [readSign]
  · exact fun _ heq => ne_of_isDigit hdigit rfl (List.cons.inj heq).1
  · exact fun _ heq => ne_of_isDigit hdigit rfl (List.cons.inj heq).1

/-- No number with digits is infinite or none by its name. -/
theorem readNamed_digit {c : Char} (hdigit : c.isDigit = true) (negative : Bool) :
    (match c :: cs with
      | 'i' :: 'n' :: 'f' :: rest => some (.float (Binary64.infinity negative), rest)
      | 'n' :: 'a' :: 'n' :: rest => some (.float Binary64.nan, rest)
      | rest => readDecimal negative rest) = readDecimal negative (c :: cs) := by
  split
  · rename_i heq
    exact absurd (List.cons.inj heq).1 (ne_of_isDigit hdigit rfl)
  · rename_i heq
    exact absurd (List.cons.inj heq).1 (ne_of_isDigit hdigit rfl)
  · rfl

/-- A number without a sign is read as one, unless it is in another system. -/
theorem readNumber_digit {c : Char} (h : skipDateTime (c :: cs) = none)
    (hdigit : c.isDigit = true) (hother : ∀ d ∈ cs.head?, d ≠ 'x' ∧ d ≠ 'o' ∧ d ≠ 'b') :
    readNumber (c :: cs) = readDecimal false (c :: cs) := by
  unfold readNumber
  simp only [h]
  split
  case h_4 =>
    simp only [readSign_digit hdigit]
    exact readNamed_digit hdigit false
  all_goals
    rename_i heq
    obtain ⟨-, rfl⟩ := List.cons.inj heq
    have hd := hother _ rfl
    simp at hd

theorem readNumber_minus {c : Char} (hdigit : c.isDigit = true) :
    readNumber ('-' :: c :: cs) = readDecimal true (c :: cs) := by
  unfold readNumber
  simp only [skipDateTime_sign]
  exact readNamed_digit hdigit true

theorem unmarked_line {line : List Char} (h : ∀ c ∈ line, c.isDigit = true ∨ c = '.')
    (rest : List Char) :
    Unmarked (line ++ '\n' :: rest) := by
  refine ⟨line, rest, rfl, fun c hc => ?_⟩
  rcases h c hc with hdigit | rfl
  · exact ⟨ne_of_isDigit hdigit rfl, ne_of_isDigit hdigit rfl⟩
  · decide

/-- What stands behind the first digit on such a line does not name another system. -/
theorem decimal_of_line {line : List Char} (h : ∀ c ∈ line, c.isDigit = true ∨ c = '.') :
    ∀ d ∈ (line ++ '\n' :: rest).head?, d ≠ 'x' ∧ d ≠ 'o' ∧ d ≠ 'b' := by
  intro d hd
  cases line with
  | nil =>
      cases hd
      decide
  | cons c line =>
      cases hd
      rcases h _ List.mem_cons_self with hdigit | rfl
      · exact ⟨ne_of_isDigit hdigit rfl, ne_of_isDigit hdigit rfl, ne_of_isDigit hdigit rfl⟩
      · decide

theorem readDecimal_whole {n : Nat} (h : n < twoTo 63) (rest : List Char) :
    readDecimal false (decimalDigits n ++ '\n' :: rest) =
      some (.integer n, '\n' :: rest) := by
  have hwithin : (Numeral.ofInt n).intWithin? (-(twoTo 63)) (twoTo 63 - 1) = some (n : Int) :=
    Numeral.intWithin?_ofInt (by omega) (by omega)
  have hnumeral : (⟨false, decimalDigits n, [], none⟩ : Numeral) = Numeral.ofInt n := by
    rw [Numeral.ofInt, Int.natAbs_natCast, decide_eq_false (by omega)]
  rw [readDecimal, readWhole_append (isWhole_decimalDigits n) ends_newline]
  simp only [Option.bind_eq_bind, Option.bind_some]
  split
  · rename_i heq
    exact absurd (List.cons.inj heq).1 (by decide)
  · simp only [readExponent_newline, Option.bind_some, hnumeral, hwithin]
    rfl

/-- A whole number is read as itself. -/
theorem readNumber_whole {n : Nat} (h : n < twoTo 63) :
    readNumber (decimalDigits n ++ '\n' :: rest) = some (.integer n, '\n' :: rest) := by
  have hdigits := isDigits_decimalDigits n
  have hread := readDecimal_whole h rest
  obtain ⟨c, digits, hsplit⟩ := List.exists_cons_of_ne_nil (isWhole_decimalDigits n).ne_nil
  rw [hsplit] at hdigits hread ⊢
  obtain ⟨hc, htail⟩ := List.forall_mem_cons.1 hdigits
  rw [List.cons_append] at hread ⊢
  rw [readNumber_digit _ hc (decimal_of_line fun d hd => .inl (htail d hd)), hread]
  exact (unmarked_line (fun d hd => .inl (hdigits d hd)) rest).skipDateTime_eq_none

/-- The characters of a numeral with a point and without an exponent. -/
theorem chars_eq {n : Numeral} (hfraction : n.fraction ≠ []) (hexponent : n.exponent = none) :
    n.chars = (if n.negative then ['-'] else []) ++ (n.whole ++ '.' :: n.fraction) := by
  have hfilled : n.fraction.isEmpty = false := by simpa using hfraction
  rw [Numeral.chars, hfilled, hexponent]
  simp only [Bool.false_eq_true, if_false, List.append_nil, List.append_assoc]

theorem readDecimal_numeral {n : Numeral} (h : n.WellFormed) (hfraction : n.fraction ≠ [])
    (hexponent : n.exponent = none)
    (hfinite : n.negative = false → Binary64.isFinite n.toFloat = true) (rest : List Char) :
    readDecimal n.negative (n.whole ++ '.' :: n.fraction ++ '\n' :: rest) =
      some (.float n.toFloat, '\n' :: rest) := by
  have hends : Ends ('.' :: (n.fraction ++ '\n' :: rest)) := ends_cons rfl (by decide)
  have hnumeral : (⟨n.negative, n.whole, n.fraction, none⟩ : Numeral) = n := by
    rw [← hexponent]
  have hdouble : n.isInteger = false := by
    rw [Numeral.isInteger, Bool.and_eq_false_iff]
    exact .inl (by simpa using hfraction)
  rw [List.append_assoc, List.cons_append, readDecimal, readWhole_append h.whole hends]
  simp only [Option.bind_eq_bind, Option.bind_some,
    readDigits_append h.fraction hfraction ends_newline, readExponent_newline, hnumeral, hdouble,
    Bool.false_eq_true, if_false]
  rw [if_neg]
  · rfl
  · cases hnegative : n.negative with
    | true => simp
    | false => simp [hfinite hnegative]

/-- A numeral with a point is read as the double that it stands for. -/
theorem readNumber_numeral {n : Numeral} (h : n.WellFormed) (hfraction : n.fraction ≠ [])
    (hexponent : n.exponent = none)
    (hfinite : n.negative = false → Binary64.isFinite n.toFloat = true) :
    readNumber (n.chars ++ '\n' :: rest) = some (.float n.toFloat, '\n' :: rest) := by
  have hread := readDecimal_numeral h hfraction hexponent hfinite rest
  have hdigits : ∀ c ∈ n.whole ++ '.' :: n.fraction, c.isDigit = true ∨ c = '.' := by
    intro c hc
    rcases List.mem_append.1 hc with hc | hc
    · exact .inl (h.whole.1 c hc)
    · rcases List.mem_cons.1 hc with rfl | hc
      · exact .inr rfl
      · exact .inl (h.fraction c hc)
  have hdate := (unmarked_line hdigits rest).skipDateTime_eq_none
  rw [chars_eq hfraction hexponent]
  obtain ⟨c, digits, hsplit⟩ := List.exists_cons_of_ne_nil h.whole.ne_nil
  have hc : c.isDigit = true := h.whole.1 c (hsplit ▸ List.mem_cons_self)
  rw [hsplit, List.cons_append] at hread hdigits hdate ⊢
  rw [List.cons_append] at hread hdate
  cases hnegative : n.negative with
  | true =>
      rw [hnegative] at hread
      rw [if_pos rfl, ← hread]
      exact readNumber_minus hc
  | false =>
      rw [hnegative] at hread
      rw [if_neg Bool.false_ne_true, List.nil_append, List.cons_append, ← hread]
      exact readNumber_digit hdate hc
        (decimal_of_line fun d hd => hdigits d (List.mem_cons_of_mem _ hd))

end Backlog.Toml
