import Backlog.Json.Decode

/-!
# Digits and numerals

The digits of a number stand for the number (`digitsValue_decimalDigits`), and do not start with a
zero unless the number is zero (`isWhole_decimalDigits`).  A numeral made of such rows of digits is
well-formed, and the numeral of an integer is read as that integer (`asInt_int`).
-/

namespace Backlog

/-- A row of decimal digits. -/
def IsDigits (digits : List Char) : Prop := ∀ c ∈ digits, c.isDigit = true

/-- A row of digits that a number may start with: a zero alone, or no zero in front. -/
def IsWhole (digits : List Char) : Prop :=
  IsDigits digits ∧ (digits = ['0'] ∨ ∃ c rest, digits = c :: rest ∧ c ≠ '0')

theorem ne_of_isDigit {c other : Char} (h : c.isDigit = true) (hother : other.isDigit = false) :
    c ≠ other := by
  rintro rfl
  rw [h] at hother
  cases hother

section

variable {digits more : List Char} {n : Nat}

theorem IsDigits.append (h : IsDigits digits) (hmore : IsDigits more) :
    IsDigits (digits ++ more) := by
  intro c hmem
  rcases List.mem_append.1 hmem with hmem | hmem
  · exact h c hmem
  · exact hmore c hmem

theorem IsDigits.take (h : IsDigits digits) (n : Nat) : IsDigits (digits.take n) :=
  fun c hmem => h c (List.mem_of_mem_take hmem)

theorem IsDigits.drop (h : IsDigits digits) (n : Nat) : IsDigits (digits.drop n) :=
  fun c hmem => h c (List.mem_of_mem_drop hmem)

theorem isDigits_replicate_zero (n : Nat) : IsDigits (List.replicate n '0') := by
  intro c hmem
  rw [List.eq_of_mem_replicate hmem]
  rfl

theorem isWhole_zero : IsWhole ['0'] :=
  ⟨isDigits_replicate_zero 1, .inl rfl⟩

theorem IsWhole.ne_nil (h : IsWhole digits) : digits ≠ [] := by
  rcases h.2 with rfl | ⟨c, rest, rfl, -⟩ <;> exact List.cons_ne_nil _ _

theorem isDigits_decimalDigits (n : Nat) : IsDigits (decimalDigits n) :=
  fun _ hmem => Nat.isDigit_of_mem_toDigits (by omega) (by omega) hmem

theorem exists_decimalDigits_of_pos (h : 0 < n) :
    ∃ c rest, decimalDigits n = c :: rest ∧ c ≠ '0' := by
  induction n using Nat.strongRecOn with
  | ind n ih =>
    rw [decimalDigits, Nat.toDigits_eq_if (by omega)]
    by_cases hlt : n < 10
    · have hdigit : n.digitChar ≠ '0' := by
        rw [Ne, Nat.digitChar_eq_zero]
        omega
      exact ⟨n.digitChar, [], if_pos hlt, hdigit⟩
    · obtain ⟨c, rest, hrest, hc⟩ := ih (n / 10) (by omega) (by omega)
      rw [decimalDigits] at hrest
      exact ⟨c, rest ++ [(n % 10).digitChar], by rw [if_neg hlt, hrest]; rfl, hc⟩

theorem isWhole_decimalDigits (n : Nat) : IsWhole (decimalDigits n) := by
  refine ⟨isDigits_decimalDigits n, ?_⟩
  rcases Nat.eq_zero_or_pos n with rfl | hpos
  · exact .inl rfl
  · exact .inr (exists_decimalDigits_of_pos hpos)

theorem digitsValue_decimalDigits (n : Nat) : digitsValue (decimalDigits n) = n :=
  Nat.ofDigitChars_ten_toDigits

end

namespace Numeral

/-- A numeral as a number is written: its point stands between digits, and an exponent has some. -/
structure WellFormed (n : Numeral) : Prop where
  whole : IsWhole n.whole
  fraction : IsDigits n.fraction
  exponent : ∀ negative digits, n.exponent = some (negative, digits) →
    digits ≠ [] ∧ IsDigits digits

theorem wellFormed_ofInt (i : Int) : (ofInt i).WellFormed where
  whole := isWhole_decimalDigits _
  fraction := by
    intro c hmem
    cases hmem
  exponent := by
    intro negative digits h
    cases h

theorem signed_natAbs (i : Int) : Binary64.signed (decide (i < 0)) i.natAbs = i := by
  unfold Binary64.signed
  by_cases h : i < 0
  · rw [decide_eq_true h, if_pos rfl]
    omega
  · rw [decide_eq_false h, if_neg Bool.false_ne_true]
    omega

theorem intWithin?_ofInt {low high i : Int} (hlow : low ≤ i) (hhigh : i ≤ high) :
    (ofInt i).intWithin? low high = some i := by
  have hdigits : digitsBelow (max low.natAbs high.natAbs + 1) (decimalDigits i.natAbs) =
      i.natAbs := by
    rw [digitsBelow_of_lt, digitsValue_decimalDigits]
    rw [digitsValue_decimalDigits]
    omega
  simp only [intWithin?, ofInt, hdigits, signed_natAbs]
  exact if_pos ⟨hlow, hhigh⟩

end Numeral

namespace Json

/-- An integer is read as it was written. -/
theorem asInt_int {low high i : Int} (hlow : low ≤ i) (hhigh : i ≤ high) :
    (int i).asInt low high = some i := by
  have hsign : ¬((Numeral.ofInt i).negative = true ∧ i = 0) := by
    rintro ⟨hnegative, rfl⟩
    simp [Numeral.ofInt] at hnegative
  rw [int, asInt, Numeral.intWithin?_ofInt hlow hhigh]
  exact if_pos ⟨rfl, hsign⟩

theorem asUInt32_int (n : UInt32) : (int n.toNat).asUInt32 = some n := by
  have hlt := n.toNat_lt
  have htop : twoTo 32 = 4294967296 := rfl
  rw [asUInt32, asInt_int (by omega) (by omega)]
  simp

theorem asUInt64_int (n : UInt64) : (int n.toNat).asUInt64 = some n := by
  have hlt := n.toNat_lt
  have htop : twoTo 64 = 18446744073709551616 := rfl
  rw [asUInt64, asInt_int (by omega) (by omega)]
  simp

theorem asInt64_int (i : Int64) : (int i.toInt).asInt64 = some i := by
  have hle := i.le_toInt
  have hlt := i.toInt_lt
  have htop : twoTo 63 = 9223372036854775808 := rfl
  rw [asInt64, asInt_int (by omega) (by omega)]
  simp

end Json

end Backlog
