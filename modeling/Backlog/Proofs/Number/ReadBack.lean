import Backlog.Proofs.Number.Nearest
import Backlog.Number.Layout

/-!
# Reading doubles back

The digits of a double that the search finds stand for a number in the reach of the double
(`Shortest.digits_ofParts`).  However a layout places the point among them and fills up with zeros,
the numeral stands for that number still (`Layout.shows_place`), and so it is read as the double
that it was made of (`Layout.toFloat_numeral?`).
-/

namespace Backlog

theorem ten_zpow_pos (k : Int) : (0 : ℚ) < 10 ^ k := zpow_pos (by norm_num) k

/-! ## Shortest digits -/

namespace Shortest

open Binary64

variable {tie : Tie} {i : Interval} {d : Nat}

theorem roundQuotient_le (tie : Tie) (num den : Nat) :
    roundQuotient tie num den ≤ num / den + 1 := by
  unfold roundQuotient
  simp only
  generalize num / den = quotient
  split
  · exact Nat.le_succ _
  · exact Nat.le_refl _
  · cases tie with
    | even =>
        dsimp only
        omega
    | up => exact Nat.le_refl _

/-- What is picked lies in the interval. -/
theorem holds_of_pick (h : i.pick tie = some d) : i.holds d = true := by
  unfold Interval.pick at h
  simp only at h
  split at h
  · rename_i hbelow habove
    cases h
    rw [Bool.and_eq_true] at hbelow
    have hge := div_le_roundQuotient tie (i.center * i.scaleNum) i.scaleDen
    have hle := roundQuotient_le tie (i.center * i.scaleNum) i.scaleDen
    obtain heq | heq : roundQuotient tie (i.center * i.scaleNum) i.scaleDen =
        i.center * i.scaleNum / i.scaleDen ∨
      roundQuotient tie (i.center * i.scaleNum) i.scaleDen =
        i.center * i.scaleNum / i.scaleDen + 1 := by omega
    · rw [heq]
      exact hbelow.2
    · rw [heq]
      exact habove
  · rename_i hbelow _
    cases h
    rw [Bool.and_eq_true] at hbelow
    exact hbelow.2
  · rename_i _ habove
    cases h
    exact habove
  · cases h

/-- What the search finds lies in the interval, on a grid that is not far below the first. -/
theorem holds_of_search {steps : Nat} {power p : Int} (h : search tie i steps power = (d, p))
    (hpos : 0 < d) : (i.inTens p).holds d = true ∧ power - steps < p ∧ p ≤ power := by
  induction steps generalizing power with
  | zero =>
      cases h
      exact absurd hpos (Nat.lt_irrefl 0)
  | succ steps ih =>
      rw [search] at h
      split at h
      · rename_i found hpick
        cases h
        exact ⟨holds_of_pick hpick, by omega, Int.le_refl _⟩
      · obtain ⟨hholds, hlow, hhigh⟩ := ih h
        exact ⟨hholds, by omega, by omega⟩

theorem twoTo_toNat_div (k : Int) :
    ((twoTo k.toNat : Nat) : ℚ) / (twoTo (-k).toNat : Nat) = 2 ^ k := by
  rw [cast_twoTo, cast_twoTo, ← zpow_sub₀ (by norm_num)]
  congr 1
  omega

theorem tenTo_toNat_div (k : Int) :
    ((tenTo k.toNat : Nat) : ℚ) / (tenTo (-k).toNat : Nat) = 10 ^ k := by
  rw [cast_tenTo, cast_tenTo, ← zpow_sub₀ (by norm_num)]
  congr 1
  omega

theorem inTens_bounds (i : Interval) (power : Int) :
    (i.inTens power).low = i.low ∧ (i.inTens power).high = i.high ∧
      (i.inTens power).closed = i.closed := by
  unfold Interval.inTens
  split <;> exact ⟨rfl, rfl, rfl⟩

theorem bounds_of_holds (h : i.holds d = true) :
    (i.low * i.scaleNum ≤ d * i.scaleDen ∧ d * i.scaleDen ≤ i.high * i.scaleNum) ∧
      (i.closed = false →
        i.low * i.scaleNum < d * i.scaleDen ∧ d * i.scaleDen < i.high * i.scaleNum) := by
  unfold Interval.holds at h
  simp only at h
  split at h
  · rename_i hclosed
    rw [Bool.and_eq_true, decide_eq_true_eq, decide_eq_true_eq] at h
    exact ⟨h, fun hopen => absurd (hclosed.symm.trans hopen) (by decide)⟩
  · rw [Bool.and_eq_true, decide_eq_true_eq, decide_eq_true_eq] at h
    exact ⟨⟨h.1.le, h.2.le⟩, fun _ => h⟩

/-- On a grid the bounds of the interval of a double and the multiples of the power of ten are
brought to one scale. -/
theorem exists_scale (mantissa : Nat) (exponent power : Int) :
    ∃ r : ℚ, 0 < r ∧ ∀ k : Nat,
      ((k * ((interval mantissa exponent).inTens power).scaleNum : Nat) : ℚ) =
        k * 2 ^ (exponent - 2) * r ∧
      ((k * ((interval mantissa exponent).inTens power).scaleDen : Nat) : ℚ) =
        k * 10 ^ power * r := by
  obtain ⟨hden, hnum⟩ := scale_interval mantissa exponent
  have htwo := twoTo_toNat_div (exponent - 2)
  have hten := tenTo_toNat_div power
  have htwopos : (0 : ℚ) < (twoTo (2 - exponent).toNat : Nat) := by exact_mod_cast twoTo_pos _
  have htenpos : (0 : ℚ) < (tenTo (-power).toNat : Nat) := by exact_mod_cast tenTo_pos _
  rw [neg_sub, div_eq_iff htwopos.ne'] at htwo
  rw [div_eq_iff htenpos.ne'] at hten
  refine ⟨(twoTo (2 - exponent).toNat : Nat) * (tenTo (-power).toNat : Nat),
    mul_pos htwopos htenpos, fun k => ⟨?_, ?_⟩⟩
  · rw [scaleNum_inTens, hnum, Nat.cast_mul, Nat.cast_mul, htwo]
    ring
  · rw [scaleDen_inTens, hden, Nat.cast_mul, Nat.cast_mul, hten]
    ring

/-- The lower bound of the interval of a double, from below. -/
theorem le_low (mantissa : Nat) (exponent : Int) :
    (4 * mantissa - 2 : ℚ) ≤ (interval mantissa exponent).low ∧
      (mantissa = twoTo 52 → minExponent < exponent →
        (4 * mantissa - 1 : ℚ) ≤ (interval mantissa exponent).low) := by
  refine ⟨?_, fun hmantissa hexponent => ?_⟩
  · have hle : 4 * mantissa ≤ (interval mantissa exponent).low + 2 := by
      simp only [interval]
      split <;> omega
    have hle' : (4 * mantissa : ℚ) ≤ (interval mantissa exponent).low + 2 := by exact_mod_cast hle
    linarith
  · have hle : 4 * mantissa ≤ (interval mantissa exponent).low + 1 := by
      simp only [interval]
      rw [if_pos ⟨hmantissa, hexponent⟩]
      omega
    have hle' : (4 * mantissa : ℚ) ≤ (interval mantissa exponent).low + 1 := by exact_mod_cast hle
    linarith

/-- A number in the interval of a double is in the reach of the double. -/
theorem reach_of_holds {mantissa : Nat} {exponent power : Int}
    (h : ((interval mantissa exponent).inTens power).holds d = true) :
    Reach mantissa exponent (d * 10 ^ power) := by
  obtain ⟨hlow, hhigh, hclosed⟩ := inTens_bounds (interval mantissa exponent) power
  obtain ⟨⟨hle, hge⟩, hopen⟩ := bounds_of_holds h
  obtain ⟨r, hr, hscale⟩ := exists_scale mantissa exponent power
  rw [hlow] at hle hopen
  rw [hhigh] at hge hopen
  rw [hclosed] at hopen
  simp only [← Nat.cast_le (α := ℚ), ← Nat.cast_lt (α := ℚ), (hscale _).1, (hscale _).2,
    mul_le_mul_iff_left₀ hr, mul_lt_mul_iff_left₀ hr] at hle hge hopen
  have hceiling : ((interval mantissa exponent).high : ℚ) = 4 * mantissa + 2 := by
    simp only [interval]
    push_cast
    rfl
  have hquarter : (2 : ℚ) ^ exponent = 4 * 2 ^ (exponent - 2) := by
    rw [zpow_sub₀ (by norm_num)]
    norm_num
    ring
  have hpos := two_zpow_pos (exponent - 2)
  obtain ⟨hfloor, hpower⟩ := le_low mantissa exponent
  rw [hceiling] at hge hopen
  refine ⟨?_, fun hmantissa hexponent => ?_, ?_, fun hodd => ?_⟩
  · have hmul := mul_le_mul_of_nonneg_right hfloor hpos.le
    rw [hquarter]
    linarith
  · have hmul := mul_le_mul_of_nonneg_right (hpower hmantissa hexponent) hpos.le
    rw [hquarter]
    linarith
  · rw [hquarter]
    linarith
  · have hmul := mul_le_mul_of_nonneg_right hfloor hpos.le
    have hopen := hopen (by simp only [interval]; rw [hodd]; rfl)
    rw [hquarter]
    exact ⟨by linarith, by linarith⟩

/-! ## How far the digits reach -/

/-- The power of ten from which the search starts is not far below the double. -/
theorem le_startPower (mantissa : Nat) {exponent : Int} (hmin : minExponent ≤ exponent) :
    -323 ≤ startPower mantissa exponent := by
  have hmin' : -1074 ≤ exponent := hmin
  unfold startPower
  omega

/-- The numbers that the digits of a double stand for. -/
structure Digits (mantissa : Nat) (exponent : Int) (significand : Nat) (power : Int) : Prop where
  pos : 0 < significand
  reach : Reach mantissa exponent (significand * 10 ^ power)
  low : -362 ≤ power

theorem digits_ofParts (tie : Tie) {mantissa : Nat} {exponent : Int} (hpos : 0 < mantissa)
    (h : IsParts mantissa exponent) :
    Digits mantissa exponent (ofParts tie mantissa exponent).1
      (ofParts tie mantissa exponent).2 := by
  have hfound : 0 < (ofParts tie mantissa exponent).1 :=
    ofParts_pos hpos h.mantissa_lt h.min_le h.le_max
  have hstart := le_startPower mantissa h.min_le
  have heq : ofParts tie mantissa exponent =
      ((ofParts tie mantissa exponent).1, (ofParts tie mantissa exponent).2) := rfl
  obtain ⟨hholds, hlow, -⟩ := holds_of_search heq hfound
  exact ⟨hfound, reach_of_holds hholds, by omega⟩

end Shortest

/-! ## Sizes -/

theorem length_add_le {n : Nat} {p k : Int} (hpos : 0 < n) (h : (n * 10 ^ p : ℚ) < 10 ^ k) :
    (decimalDigits n).length + p ≤ k := by
  have hten : (1 : ℚ) < 10 := by norm_num
  have hone : (1 : ℚ) ≤ n := by exact_mod_cast hpos
  have hlt : p < k := by
    refine (zpow_lt_zpow_iff_right₀ hten).1 (lt_of_le_of_lt ?_ h)
    exact le_mul_of_one_le_left (ten_zpow_pos p).le hone
  obtain ⟨j, hj⟩ : ∃ j : Nat, (j : Int) = k - p := ⟨(k - p).toNat, by omega⟩
  have hsmall : n < 10 ^ j := by
    have hlt' : (n : ℚ) < 10 ^ (k - p) := by
      rwa [zpow_sub₀ (by norm_num), lt_div_iff₀ (ten_zpow_pos p)]
    rw [← hj, zpow_natCast] at hlt'
    exact_mod_cast hlt'
  have hlength := (Nat.length_toDigits_le_iff (b := 10) (by omega) (by omega)).2 hsmall
  rw [decimalDigits]
  omega

theorem lt_length_add {n : Nat} {p k : Int} (h : (10 ^ k : ℚ) < n * 10 ^ p) :
    k < (decimalDigits n).length + p := by
  have hsmall : n < 10 ^ (decimalDigits n).length :=
    (Nat.length_toDigits_le_iff (by omega) Nat.length_toDigits_pos).1 (Nat.le_refl _)
  have hsmall' : (n : ℚ) < 10 ^ ((decimalDigits n).length : Int) := by
    rw [zpow_natCast]
    exact_mod_cast hsmall
  refine (zpow_lt_zpow_iff_right₀ (by norm_num : (1 : ℚ) < 10)).1 (h.trans ?_)
  rw [zpow_add₀ (by norm_num)]
  exact mul_lt_mul_of_pos_right hsmall' (ten_zpow_pos p)

theorem two_zpow_lt_ten_zpow {k j : Nat} (h : twoTo k < tenTo j) :
    (2 : ℚ) ^ (k : Int) < 10 ^ (j : Int) := by
  rw [← cast_twoTo, ← cast_tenTo]
  exact_mod_cast h

namespace Binary64

variable {mantissa : Nat} {exponent : Int} {v : ℚ}

/-- No double reaches far beyond `2^1024`. -/
theorem Reach.lt (hparts : IsParts mantissa exponent) (h : Reach mantissa exponent v) :
    v < 10 ^ (309 : Int) := by
  have hmax := hparts.le_max
  calc v < 2 ^ (exponent + 53) := h.lt_power hparts
    _ ≤ 2 ^ (1024 : Int) := zpow_le_zpow_right₀ (by norm_num) (by omega)
    _ < 10 ^ (309 : Int) := two_zpow_lt_ten_zpow (by decide +kernel : twoTo 1024 < tenTo 309)

/-- No positive double reaches far below `2^(-1074)`. -/
theorem Reach.gt (hpos : 0 < mantissa) (hparts : IsParts mantissa exponent)
    (h : Reach mantissa exponent v) : 10 ^ (-325 : Int) < v := by
  have hone : (1 : ℚ) ≤ mantissa := by exact_mod_cast hpos
  have hsmall : (2 : ℚ) ^ (1075 : Int) < 10 ^ (325 : Int) :=
    two_zpow_lt_ten_zpow (by decide +kernel : twoTo 1075 < tenTo 325)
  calc (10 : ℚ) ^ (-325 : Int) < 2 ^ (-1075 : Int) := by
        rw [zpow_neg, zpow_neg]
        exact inv_strictAnti₀ (two_zpow_pos _) hsmall
    _ = 1 / 2 * 2 ^ (-1074 : Int) := by
        rw [one_div, ← zpow_neg_one, ← zpow_add₀ (by norm_num)]
        rfl
    _ ≤ (mantissa - 1 / 2) * 2 ^ exponent := by
        refine mul_le_mul (by linarith) ?_ (two_zpow_pos _).le (by linarith)
        exact zpow_le_zpow_right₀ (by norm_num) hparts.min_le
    _ ≤ v := h.low

end Binary64

/-! ## Numerals -/

theorem digitsValue_append_zeros (digits : List Char) (zeros : Nat) :
    digitsValue (digits ++ List.replicate zeros '0') = digitsValue digits * 10 ^ zeros := by
  induction zeros with
  | zero => simp
  | succ zeros ih =>
      have hzero : digitValue '0' = 0 := rfl
      rw [List.replicate_succ', ← List.append_assoc, digitsValue, List.foldl_append,
        ← digitsValue, ih, List.foldl_cons, List.foldl_nil, hzero]
      ring

namespace Numeral

/-- A numeral with few digits and of a moderate size is the double nearest to its value. -/
theorem toFloat_eq_nearest {n : Numeral} {digits : List Char} {power : Int}
    (hdigits : (n.whole ++ n.fraction).dropWhile (· == '0') = digits) (hne : digits ≠ [])
    (hlength : digits.length ≤ keptDigits) (hpower : n.tens - n.fraction.length = power)
    (hlow : -330 ≤ digits.length + power) (hhigh : digits.length + power ≤ 310) :
    ∃ num den : Nat, 0 < den ∧ (num / den : ℚ) = digitsValue digits * 10 ^ power ∧
      n.toFloat = Binary64.nearest n.negative num den := by
  have hkept : digits.take keptDigits = digits := List.take_of_length_le hlength
  have hrest : digits.drop keptDigits = [] := List.drop_of_length_le hlength
  have hsize : (digits.length : Int) + n.tens - n.fraction.length = digits.length + power := by
    omega
  have hfilled : digits.isEmpty = false := by simpa using hne
  have hplaces : (digits.length : Int) + power - digits.length = power := by omega
  unfold toFloat
  simp only [hdigits, hfilled, hsize, hkept, hrest, List.all_nil, if_true, hplaces]
  rw [if_neg Bool.false_ne_true, if_neg (by omega), if_neg (by omega)]
  by_cases hpos : 0 ≤ power
  · refine ⟨digitsValue digits * tenTo power.toNat, 1, Nat.one_pos, ?_, if_pos hpos⟩
    rw [Nat.cast_mul, cast_tenTo, Int.toNat_of_nonneg hpos, Nat.cast_one, div_one]
  · refine ⟨digitsValue digits, tenTo (-power).toNat, tenTo_pos _, ?_, if_neg hpos⟩
    rw [cast_tenTo, Int.toNat_of_nonneg (by omega), zpow_neg, div_inv_eq_mul]

end Numeral

namespace Layout

theorem dropWhile_zeros {digits : List Char} (hfirst : ∃ c rest, digits = c :: rest ∧ c ≠ '0')
    (before after : Nat) :
    (List.replicate before '0' ++ (digits ++ List.replicate after '0')).dropWhile (· == '0') =
      digits ++ List.replicate after '0' := by
  obtain ⟨c, rest, rfl, hc⟩ := hfirst
  rw [List.dropWhile_append_of_pos fun d hd => by rw [List.eq_of_mem_replicate hd]; rfl]
  exact List.dropWhile_cons_of_neg (by simpa using hc)

/-- A numeral shows `0.DIGITS · 10^point`, with some zeros behind the digits. -/
structure Shows (digits : List Char) (point : Int) (zeros : Nat) (n : Numeral) : Prop where
  shown : (n.whole ++ n.fraction).dropWhile (· == '0') = digits ++ List.replicate zeros '0'
  power : n.tens - n.fraction.length = point - digits.length - zeros
  few : zeros = 0 ∨ (digits.length + zeros : Int) ≤ point + 1

variable {digits : List Char} {point : Int}

/-- The point stands before the digits. -/
theorem shows_before (hfirst : ∃ c rest, digits = c :: rest ∧ c ≠ '0') (hpoint : point ≤ 0)
    (negative : Bool) :
    Shows digits point 0
      ⟨negative, ['0'], List.replicate (-point).toNat '0' ++ digits, none⟩ := by
  have hdrop := dropWhile_zeros hfirst ((-point).toNat + 1) 0
  rw [List.replicate_succ, List.replicate_zero, List.append_nil] at hdrop
  refine ⟨?_, ?_, .inl rfl⟩
  · rw [List.replicate_zero, List.append_nil]
    exact hdrop
  · simp only [Numeral.tens, List.length_append, List.length_replicate]
    omega

/-- The point stands among the digits, or behind them. -/
theorem shows_after (hfirst : ∃ c rest, digits = c :: rest ∧ c ≠ '0') (hpoint : 0 < point)
    (negative : Bool) {noFraction : List Char} (h : noFraction = ['0'] ∨ noFraction = []) :
    ∃ zeros, Shows digits point zeros ⟨negative,
      digits.take point.toNat ++ List.replicate (point.toNat - digits.length) '0',
      if (digits.drop point.toNat).isEmpty then noFraction else digits.drop point.toNat,
      none⟩ := by
  have hdrop : ∀ zeros, (digits ++ List.replicate zeros '0').dropWhile (· == '0') =
      digits ++ List.replicate zeros '0' := dropWhile_zeros hfirst 0
  rcases Nat.lt_or_ge point.toNat digits.length with hamong | hbehind
  · have hfraction : ¬(digits.drop point.toNat).isEmpty = true := by simpa using hamong
    have hzeros : point.toNat - digits.length = 0 := by omega
    rw [if_neg hfraction, hzeros, List.replicate_zero, List.append_nil]
    refine ⟨0, ?_, ?_, .inl rfl⟩
    · rw [List.take_append_drop]
      simpa using hdrop 0
    · simp only [Numeral.tens, List.length_drop]
      omega
  · have hfraction : (digits.drop point.toNat).isEmpty = true := by simpa using hbehind
    rw [if_pos hfraction, List.take_of_length_le hbehind]
    rcases h with rfl | rfl
    · refine ⟨point.toNat - digits.length + 1, ?_, ?_, .inr (by omega)⟩
      · rw [List.append_assoc, ← List.replicate_succ', hdrop]
      · simp only [Numeral.tens, List.length_singleton]
        omega
    · refine ⟨point.toNat - digits.length, ?_, ?_, .inr (by omega)⟩
      · rw [List.append_nil, hdrop]
      · simp only [Numeral.tens, List.length_nil]
        omega

/-- The point stands after the first digit, and an exponent makes up for it. -/
theorem shows_exponent (hfirst : ∃ c rest, digits = c :: rest ∧ c ≠ '0')
    (hpoint : point.natAbs < 1000) (negative : Bool) :
    Shows digits point 0 ⟨negative, digits.take 1, digits.drop 1,
      some (decide (point - 1 < 0), decimalDigits (point - 1).natAbs)⟩ := by
  have hdrop := dropWhile_zeros hfirst 0 0
  have hlimit : Numeral.exponentLimit = 65536 := rfl
  have hpos : 0 < digits.length := by
    obtain ⟨c, rest, rfl, -⟩ := hfirst
    exact Nat.succ_pos _
  have htens : (Numeral.mk negative (digits.take 1) (digits.drop 1)
      (some (decide (point - 1 < 0), decimalDigits (point - 1).natAbs))).tens = point - 1 := by
    rw [Numeral.tens]
    dsimp only
    rw [digitsBelow_of_lt, digitsValue_decimalDigits, Numeral.signed_natAbs]
    rw [digitsValue_decimalDigits]
    omega
  refine ⟨?_, ?_, .inl rfl⟩
  · rw [List.take_append_drop]
    simpa using hdrop
  · rw [htens, List.length_drop]
    omega

theorem shows_place (layout : Layout) (negative : Bool)
    (hfirst : ∃ c rest, digits = c :: rest ∧ c ≠ '0') (hpoint : point.natAbs < 1000) :
    ∃ zeros, Shows digits point zeros (layout.place negative digits point) := by
  unfold place
  refine iteInduction (motive := fun n => ∃ zeros, Shows digits point zeros n) (fun _ => ?_)
    (fun _ => ⟨0, shows_exponent hfirst hpoint negative⟩)
  refine iteInduction (motive := fun n => ∃ zeros, Shows digits point zeros n)
    (fun h => ⟨0, shows_before hfirst h negative⟩)
    (fun h => shows_after hfirst (Int.not_le.1 h) negative ?_)
  cases layout.keepsFraction
  · exact .inr rfl
  · exact .inl rfl

theorem negative_place (layout : Layout) (negative : Bool) (digits : List Char) (point : Int) :
    (layout.place negative digits point).negative = negative := by
  unfold place
  refine iteInduction (motive := fun n : Numeral => n.negative = negative) (fun _ => ?_)
    (fun _ => rfl)
  exact iteInduction (motive := fun n : Numeral => n.negative = negative) (fun _ => rfl)
    (fun _ => rfl)

/-- A numeral that shows the digits of a double is read as the double. -/
theorem toFloat_of_shows {mantissa significand zeros : Nat} {exponent power : Int} {n : Numeral}
    (hpos : 0 < mantissa) (hparts : Binary64.IsParts mantissa exponent)
    (hdigits : Shortest.Digits mantissa exponent significand power)
    (h : Shows (decimalDigits significand) ((decimalDigits significand).length + power) zeros n) :
    n.toFloat = Binary64.ofMagnitude n.negative (Binary64.magnitude mantissa exponent) := by
  have hfew := h.few
  have hlow := hdigits.low
  have hsmall := length_add_le hdigits.pos (hdigits.reach.lt hparts)
  have hlarge := lt_length_add (hdigits.reach.gt hpos hparts)
  have hlength : (decimalDigits significand ++ List.replicate zeros '0').length =
      (decimalDigits significand).length + zeros := by
    rw [List.length_append, List.length_replicate]
  have hkept : Numeral.keptDigits = 800 := rfl
  obtain ⟨num, den, hden, hvalue, hnearest⟩ := Numeral.toFloat_eq_nearest h.shown
    (by simp [(isWhole_decimalDigits significand).ne_nil]) (by omega) h.power (by omega) (by omega)
  have hreach := hdigits.reach
  have hsame : (significand * 10 ^ power : ℚ) = num / den := by
    rw [hvalue, digitsValue_append_zeros, digitsValue_decimalDigits, Nat.cast_mul, Nat.cast_pow,
      mul_assoc, Nat.cast_ofNat, ← zpow_natCast, ← zpow_add₀ (by norm_num)]
    congr 2
    omega
  rw [hsame] at hreach
  rw [hnearest, Binary64.nearest_of_reach hparts hpos hden hreach]

/-- **The numeral of a double is read as that double**, in any layout. -/
theorem toFloat_numeral? {layout : Layout} {x : Float} {n : Numeral}
    (h : layout.numeral? x = some n) : n.toFloat = x := by
  unfold numeral? at h
  split at h
  · rename_i negative mantissa exponent hview
    obtain ⟨hparts, hx⟩ := Binary64.ofMagnitude_of_view hview
    split at h
    · rename_i hzero
      subst hzero
      have hleast : exponent = Binary64.minExponent := by
        exact hparts.normal.resolve_left (by decide)
      have hbits : Binary64.magnitude 0 exponent = 0 := by
        rw [Binary64.magnitude, hleast, sub_self]
        rfl
      rw [hbits] at hx
      cases h
      rw [← hx]
      cases layout.keepsFraction <;> rfl
    · rename_i hnonzero
      have hpos := Nat.pos_of_ne_zero hnonzero
      have hdigits := Shortest.digits_ofParts layout.tie hpos hparts
      generalize Shortest.ofParts layout.tie mantissa exponent = found at h hdigits
      obtain ⟨significand, power⟩ := found
      dsimp only at hdigits
      have hsmall := length_add_le hdigits.pos (hdigits.reach.lt hparts)
      have hlarge := lt_length_add (hdigits.reach.gt hpos hparts)
      have hpoint : ((decimalDigits significand).length + power).natAbs < 1000 := by omega
      obtain ⟨zeros, hshows⟩ := shows_place layout negative
        (exists_decimalDigits_of_pos hdigits.pos) hpoint
      cases h
      rw [toFloat_of_shows hpos hparts hdigits hshows, negative_place, hx]
  · cases h
  · cases h

end Layout

end Backlog
