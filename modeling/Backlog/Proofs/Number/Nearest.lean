import Mathlib
import Backlog.Proofs.Number.Shortest

/-!
# The nearest double

A double takes in all numbers up to halfway to its two neighbours, and the ends of this reach if
its mantissa is even (`Binary64.Reach`).  A quotient in the reach of a double is rounded to that
double (`nearest_of_reach`), whichever exponent the rounding starts from: just below a power of
two it starts one too low, and the mantissa that comes out carries into the exponent.
-/

namespace Backlog

theorem cast_twoTo (n : Nat) : ((twoTo n : Nat) : ℚ) = 2 ^ (n : Int) := by
  rw [zpow_natCast]
  exact Nat.cast_pow 2 n

theorem cast_tenTo (n : Nat) : ((tenTo n : Nat) : ℚ) = 10 ^ (n : Int) := by
  rw [zpow_natCast]
  exact Nat.cast_pow 10 n

/-- A quotient within a half of an even number, or nearer to any number, is rounded to it. -/
theorem roundQuotient_even_eq {num den r : Nat} (hden : 0 < den)
    (hlow : 2 * (r * den) ≤ 2 * num + den) (hhigh : 2 * num ≤ 2 * (r * den) + den)
    (hodd : r % 2 = 1 → 2 * (r * den) < 2 * num + den ∧ 2 * num < 2 * (r * den) + den) :
    roundQuotient .even num den = r := by
  have hdiv := Nat.div_add_mod' num den
  have hmod := Nat.mod_lt num hden
  unfold roundQuotient
  simp only
  generalize num / den = q at hdiv ⊢
  generalize num % den = left at hdiv hmod ⊢
  have hle : q ≤ r := by
    by_contra hlt
    have hmul : (r + 1) * den ≤ q * den := Nat.mul_le_mul_right den (by omega)
    rw [Nat.add_mul, Nat.one_mul] at hmul
    omega
  have hge : r ≤ q + 1 := by
    by_contra hlt
    have hmul : (q + 2) * den ≤ r * den := Nat.mul_le_mul_right den (by omega)
    rw [Nat.add_mul] at hmul
    omega
  obtain rfl | rfl : r = q ∨ r = q + 1 := by omega
  · split
    · rfl
    · rename_i hcompare
      rw [Nat.compare_eq_gt] at hcompare
      omega
    · rename_i hcompare
      rw [Nat.compare_eq_eq] at hcompare
      omega
  · rw [Nat.add_mul, Nat.one_mul] at hlow hhigh hodd
    split
    · rename_i hcompare
      rw [Nat.compare_eq_lt] at hcompare
      omega
    · rfl
    · rename_i hcompare
      rw [Nat.compare_eq_eq] at hcompare
      omega

namespace Binary64

/-! ## Scaling -/

theorem descale_div (exponent : Int) (num den : Nat) :
    ((descale exponent num den).1 : ℚ) / (descale exponent num den).2 =
      num / den / 2 ^ exponent := by
  unfold descale
  by_cases h : 0 ≤ exponent
  · have hexponent : ((exponent.toNat : Nat) : Int) = exponent := Int.toNat_of_nonneg h
    rw [if_pos h, Nat.cast_mul, cast_twoTo, hexponent, div_div]
  · have hexponent : (((-exponent).toNat : Nat) : Int) = -exponent :=
      Int.toNat_of_nonneg (by omega)
    rw [if_neg h, Nat.cast_mul, cast_twoTo, hexponent, zpow_neg, div_eq_mul_inv _ (2 ^ exponent),
      mul_div_right_comm]

theorem descale_den_pos {den : Nat} (exponent : Int) (num : Nat) (h : 0 < den) :
    0 < (descale exponent num den).2 := by
  unfold descale
  split
  · exact Nat.mul_pos h (twoTo_pos _)
  · exact h

theorem two_zpow_pos (k : Int) : (0 : ℚ) < 2 ^ k := zpow_pos (by norm_num) k

theorem two_zpow_log2 {n : Nat} (h : 0 < n) :
    (2 : ℚ) ^ (n.log2 : Int) ≤ n ∧ (n : ℚ) < 2 ^ ((n.log2 : Int) + 1) := by
  have hlow := Nat.log2_self_le (Nat.ne_of_gt h)
  have hhigh := Nat.lt_log2_self (n := n)
  refine ⟨?_, ?_⟩
  · rw [zpow_natCast]
    exact_mod_cast hlow
  · have hsucc : (n.log2 : Int) + 1 = ((n.log2 + 1 : Nat) : Int) := by push_cast; rfl
    rw [hsucc, zpow_natCast]
    exact_mod_cast hhigh

/-- Whether a quotient reaches a power of two can be told from the two numbers it is scaled to. -/
theorem descale_le_iff {den : Nat} (exponent : Int) (num : Nat) (hden : 0 < den) :
    (descale exponent num den).2 ≤ (descale exponent num den).1 ↔
      (2 : ℚ) ^ exponent ≤ num / den := by
  have hpos : (0 : ℚ) < ((descale exponent num den).2 : ℚ) := by
    exact_mod_cast descale_den_pos exponent num hden
  rw [← one_le_div₀ (two_zpow_pos exponent), ← descale_div, one_le_div₀ hpos, Nat.cast_le]

theorem floorLog2_spec {num den : Nat} (hnum : 0 < num) (hden : 0 < den) :
    (2 : ℚ) ^ floorLog2 num den ≤ num / den ∧ (num / den : ℚ) < 2 ^ (floorLog2 num den + 1) := by
  obtain ⟨hnumlow, hnumhigh⟩ := two_zpow_log2 hnum
  obtain ⟨hdenlow, hdenhigh⟩ := two_zpow_log2 hden
  have hpos : (0 : ℚ) < den := by exact_mod_cast hden
  have hiff := descale_le_iff ((num.log2 : Int) - den.log2) num hden
  unfold floorLog2
  simp only
  generalize hguess : (num.log2 : Int) - den.log2 = guess at hiff ⊢
  -- the guess is at most one too high
  have hbelow : (2 : ℚ) ^ (guess - 1) ≤ num / den := by
    rw [le_div_iff₀ hpos]
    calc (2 : ℚ) ^ (guess - 1) * den
        ≤ 2 ^ (guess - 1) * 2 ^ ((den.log2 : Int) + 1) :=
          mul_le_mul_of_nonneg_left hdenhigh.le (two_zpow_pos _).le
      _ = 2 ^ (num.log2 : Int) := by
          rw [← zpow_add₀ (by norm_num)]
          congr 1
          omega
      _ ≤ num := hnumlow
  have habove : (num / den : ℚ) < 2 ^ (guess + 1) := by
    rw [div_lt_iff₀ hpos]
    calc (num : ℚ) < 2 ^ ((num.log2 : Int) + 1) := hnumhigh
      _ = 2 ^ (guess + 1) * 2 ^ (den.log2 : Int) := by
          rw [← zpow_add₀ (by norm_num)]
          congr 1
          omega
      _ ≤ 2 ^ (guess + 1) * den := mul_le_mul_of_nonneg_left hdenlow (two_zpow_pos _).le
  split
  · rename_i hle
    exact ⟨hiff.1 hle, habove⟩
  · rename_i hlt
    rw [sub_add_cancel]
    exact ⟨hbelow, not_le.1 fun hle => hlt (hiff.2 hle)⟩

theorem floorLog2_eq {num den : Nat} {k : Int} (hnum : 0 < num) (hden : 0 < den)
    (hlow : (2 : ℚ) ^ k ≤ num / den) (hhigh : (num / den : ℚ) < 2 ^ (k + 1)) :
    floorLog2 num den = k := by
  obtain ⟨hlow', hhigh'⟩ := floorLog2_spec hnum hden
  have hlt := (zpow_lt_zpow_iff_right₀ (by norm_num : (1 : ℚ) < 2)).1 (hlow'.trans_lt hhigh)
  have hlt' := (zpow_lt_zpow_iff_right₀ (by norm_num : (1 : ℚ) < 2)).1 (hlow.trans_lt hhigh')
  omega

theorem floorLog2_lt {num den : Nat} {k : Int} (hnum : 0 < num) (hden : 0 < den)
    (h : (num / den : ℚ) < 2 ^ k) : floorLog2 num den < k :=
  (zpow_lt_zpow_iff_right₀ (by norm_num : (1 : ℚ) < 2)).1
    ((floorLog2_spec hnum hden).1.trans_lt h)

/-! ## The reach of a double -/

/-- The mantissas and the exponents that doubles have. -/
structure IsParts (mantissa : Nat) (exponent : Int) : Prop where
  mantissa_lt : mantissa < twoTo 53
  normal : twoTo 52 ≤ mantissa ∨ exponent = minExponent
  min_le : minExponent ≤ exponent
  le_max : exponent ≤ 971

/-- A number is at most halfway from `mantissa · 2^exponent` to the next double on its side.
Below a power of two the doubles are half as far apart. -/
structure Reach (mantissa : Nat) (exponent : Int) (v : ℚ) : Prop where
  low : (mantissa - 1 / 2) * 2 ^ exponent ≤ v
  low_of_power : mantissa = twoTo 52 → minExponent < exponent →
    (mantissa - 1 / 4) * 2 ^ exponent ≤ v
  high : v ≤ (mantissa + 1 / 2) * 2 ^ exponent
  odd : mantissa % 2 = 1 →
    (mantissa - 1 / 2) * 2 ^ exponent < v ∧ v < (mantissa + 1 / 2) * 2 ^ exponent

/-- The rounding at an exponent at which the quotient is near to a mantissa. -/
theorem roundQuotient_descale {num den r : Nat} {exponent : Int} (hden : 0 < den)
    (hlow : (r - 1 / 2) * 2 ^ exponent ≤ (num / den : ℚ))
    (hhigh : (num / den : ℚ) ≤ (r + 1 / 2) * 2 ^ exponent)
    (hodd : r % 2 = 1 → (r - 1 / 2) * 2 ^ exponent < (num / den : ℚ) ∧
      (num / den : ℚ) < (r + 1 / 2) * 2 ^ exponent) :
    roundQuotient .even (descale exponent num den).1 (descale exponent num den).2 = r := by
  have hden' := descale_den_pos exponent num hden
  have hpos : (0 : ℚ) < ((descale exponent num den).2 : ℚ) := by exact_mod_cast hden'
  have hscale := two_zpow_pos exponent
  have hvalue := descale_div exponent num den
  generalize descale exponent num den = scaled at hden' hpos hvalue ⊢
  obtain ⟨n, d⟩ := scaled
  dsimp only at hden' hpos hvalue ⊢
  rw [← le_div_iff₀ hscale, ← hvalue, le_div_iff₀ hpos] at hlow
  rw [← div_le_iff₀ hscale, ← hvalue, div_le_iff₀ hpos] at hhigh
  rw [← lt_div_iff₀ hscale, ← div_lt_iff₀ hscale, ← hvalue, lt_div_iff₀ hpos,
    div_lt_iff₀ hpos] at hodd
  refine roundQuotient_even_eq hden' ?_ ?_ fun hr => ⟨?_, ?_⟩
  · have h : (2 * (r * d) : ℚ) ≤ 2 * n + d := by linarith
    exact_mod_cast h
  · have h : (2 * n : ℚ) ≤ 2 * (r * d) + d := by linarith
    exact_mod_cast h
  · have h : (2 * (r * d) : ℚ) < 2 * n + d := by linarith [(hodd hr).1]
    exact_mod_cast h
  · have h : (2 * n : ℚ) < 2 * (r * d) + d := by linarith [(hodd hr).2]
    exact_mod_cast h

/-- The bits of a double below its sign. -/
def magnitude (mantissa : Nat) (exponent : Int) : Nat :=
  (exponent - minExponent).toNat * twoTo 52 + mantissa

theorem nearest_eq_ofMagnitude {negative : Bool} {num den mantissa : Nat} {exponent : Int}
    (hnum : 0 < num) (hexponent : max (floorLog2 num den - 52) minExponent = exponent)
    (hround : roundQuotient .even (descale exponent num den).1 (descale exponent num den).2 =
      mantissa)
    (hfinite : magnitude mantissa exponent < 2047 * twoTo 52) :
    nearest negative num den = ofMagnitude negative (magnitude mantissa exponent) := by
  unfold nearest
  simp only [hexponent, hround]
  rw [if_neg (Nat.ne_of_gt hnum)]
  exact if_neg (Nat.not_le.2 hfinite)

theorem IsParts.magnitude_lt {mantissa : Nat} {exponent : Int} (h : IsParts mantissa exponent) :
    magnitude mantissa exponent < 2047 * twoTo 52 := by
  have hmantissa := h.mantissa_lt
  have hmax := h.le_max
  have hmin : minExponent = -1074 := rfl
  have htop : twoTo 53 = 2 * twoTo 52 := rfl
  have hle : (exponent - minExponent).toNat * twoTo 52 ≤ 2045 * twoTo 52 :=
    Nat.mul_le_mul_right _ (by omega)
  unfold magnitude
  omega

theorem Reach.pos {mantissa : Nat} {exponent : Int} {v : ℚ} (h : Reach mantissa exponent v)
    (hpos : 0 < mantissa) : 0 < v := by
  have hone : (1 : ℚ) ≤ mantissa := by exact_mod_cast hpos
  exact (mul_pos (by linarith) (two_zpow_pos exponent)).trans_le h.low

theorem IsParts.succ_le {mantissa : Nat} {exponent : Int} (h : IsParts mantissa exponent) :
    (mantissa + 1 : ℚ) ≤ 2 ^ (53 : Int) := by
  have hle : ((mantissa + 1 : Nat) : ℚ) ≤ (twoTo 53 : Nat) := by exact_mod_cast h.mantissa_lt
  rwa [cast_twoTo, Nat.cast_succ] at hle

/-- The reach of a double ends below the next power of two. -/
theorem Reach.lt_power {mantissa : Nat} {exponent : Int} {v : ℚ} (h : Reach mantissa exponent v)
    (hparts : IsParts mantissa exponent) : v < 2 ^ (exponent + 53) := by
  have hmantissa := hparts.succ_le
  calc v ≤ (mantissa + 1 / 2) * 2 ^ exponent := h.high
    _ < 2 ^ (53 : Int) * 2 ^ exponent :=
        mul_lt_mul_of_pos_right (by linarith) (two_zpow_pos exponent)
    _ = 2 ^ (exponent + 53) := by rw [← zpow_add₀ (by norm_num), add_comm]

/-- Only the least mantissa reaches below its power of two. -/
theorem Reach.eq_of_below {mantissa : Nat} {exponent : Int} {v : ℚ}
    (h : Reach mantissa exponent v) (hge : twoTo 52 ≤ mantissa) (hbelow : v < 2 ^ (exponent + 52)) :
    mantissa = twoTo 52 := by
  have hceiling : (2 : ℚ) ^ (exponent + 52) = (twoTo 52 : Nat) * 2 ^ exponent := by
    rw [cast_twoTo, ← zpow_add₀ (by norm_num), add_comm]
    rfl
  have hlt : (mantissa - 1 / 2 : ℚ) < (twoTo 52 : Nat) := by
    have hlt := h.low.trans_lt hbelow
    rw [hceiling] at hlt
    exact lt_of_mul_lt_mul_right hlt (two_zpow_pos exponent).le
  have hle : (mantissa : ℚ) < (twoTo 52 + 1 : Nat) := by
    push_cast
    linarith
  have hle' : mantissa < twoTo 52 + 1 := by exact_mod_cast hle
  omega

theorem magnitude_carry {exponent : Int} (h : minExponent < exponent) :
    magnitude (twoTo 53) (exponent - 1) = magnitude (twoTo 52) exponent := by
  have htop : twoTo 53 = 2 * twoTo 52 := rfl
  have hsucc : (exponent - minExponent).toNat = (exponent - 1 - minExponent).toNat + 1 := by omega
  rw [magnitude, magnitude, hsucc, Nat.add_mul]
  omega

/-- Just below a power of two the rounding starts one exponent too low, and carries. -/
theorem nearest_below_power {negative : Bool} {num den : Nat} {exponent : Int}
    (hparts : IsParts (twoTo 52) exponent) (hmin : minExponent < exponent) (hnum : 0 < num)
    (hden : 0 < den) (hlow : (2 ^ 52 - 1 / 4) * 2 ^ exponent ≤ (num / den : ℚ))
    (hhigh : (num / den : ℚ) < 2 ^ (exponent + 52)) :
    nearest negative num den = ofMagnitude negative (magnitude (twoTo 52) exponent) := by
  have hscale := two_zpow_pos (exponent - 1)
  have hhalf : (2 : ℚ) ^ exponent = 2 * 2 ^ (exponent - 1) := by
    rw [← zpow_one_add₀ (by norm_num), add_sub_cancel]
  have hceiling : (2 : ℚ) ^ (exponent + 52) = 2 ^ 53 * 2 ^ (exponent - 1) := by
    rw [← zpow_natCast, ← zpow_add₀ (by norm_num)]
    congr 1
    omega
  have hfloor : (2 : ℚ) ^ (exponent + 51) = 2 ^ 52 * 2 ^ (exponent - 1) := by
    rw [← zpow_natCast, ← zpow_add₀ (by norm_num)]
    congr 1
    omega
  have hmantissa : ((twoTo 53 : Nat) : ℚ) = 2 ^ 53 := cast_twoTo 53
  rw [hhalf] at hlow
  rw [hceiling] at hhigh
  rw [← magnitude_carry hmin]
  refine nearest_eq_ofMagnitude hnum ?_ (roundQuotient_descale hden ?_ ?_ fun hodd => ?_) ?_
  · rw [floorLog2_eq (k := exponent + 51) hnum hden (by rw [hfloor]; linarith)
      (by rw [add_assoc]; exact hceiling ▸ hhigh)]
    omega
  · rw [hmantissa]
    linarith
  · rw [hmantissa]
    linarith
  · exact absurd hodd (by decide)
  · rw [magnitude_carry hmin]
    exact hparts.magnitude_lt

/-- **A quotient in the reach of a double is rounded to it.** -/
theorem nearest_of_reach {negative : Bool} {mantissa num den : Nat} {exponent : Int}
    (hparts : IsParts mantissa exponent) (hpos : 0 < mantissa) (hden : 0 < den)
    (h : Reach mantissa exponent (num / den)) :
    nearest negative num den = ofMagnitude negative (magnitude mantissa exponent) := by
  have hnum : 0 < num := by
    rcases Nat.eq_zero_or_pos num with rfl | hnum
    · simpa using h.pos hpos
    · exact hnum
  have hmin := hparts.min_le
  have habove := h.lt_power hparts
  by_cases hreaches : (2 : ℚ) ^ (exponent + 52) ≤ num / den ∨ exponent = minExponent
  · refine nearest_eq_ofMagnitude hnum ?_ (roundQuotient_descale hden h.low h.high h.odd)
      hparts.magnitude_lt
    rcases hreaches with hreaches | hsmallest
    · rw [floorLog2_eq hnum hden hreaches (by rwa [add_assoc])]
      omega
    · have hlt := floorLog2_lt hnum hden habove
      omega
  · obtain ⟨hbelow, hnormal⟩ := not_or.1 hreaches
    have hlarger : minExponent < exponent := by omega
    obtain rfl := h.eq_of_below (hparts.normal.resolve_right hnormal) (not_le.1 hbelow)
    have hlow := h.low_of_power rfl hlarger
    rw [cast_twoTo] at hlow
    exact nearest_below_power hparts hlarger hnum hden hlow (not_le.1 hbelow)

/-! ## Taking doubles apart -/

theorem ofMagnitude_eq (x : Float) (negative : Bool) (bits : Nat)
    (h : (if negative then twoTo 63 + bits else bits) = x.toBits.toNat) :
    ofMagnitude negative bits = x := by
  rw [ofMagnitude, h, UInt64.ofNat_toNat, Float.ofBits_toBits]

/-- A word is put together again from its sign, its exponent field and its fraction. -/
theorem bits_eq (bits : Nat) (h : bits < twoTo 64) :
    (if decide (twoTo 63 ≤ bits) then
        twoTo 63 + (bits / twoTo 52 % 2048 * twoTo 52 + bits % twoTo 52)
      else bits / twoTo 52 % 2048 * twoTo 52 + bits % twoTo 52) = bits := by
  have hfield : twoTo 63 = 2048 * twoTo 52 := rfl
  have htop : twoTo 64 = twoTo 52 * 4096 := rfl
  have hdiv := Nat.div_add_mod' bits (twoTo 52)
  have hdiv' := Nat.div_add_mod' (bits / twoTo 52) 2048
  have hlt : bits / twoTo 52 < 4096 := Nat.div_lt_of_lt_mul (htop ▸ h)
  have hsign : twoTo 63 ≤ bits ↔ 2048 ≤ bits / twoTo 52 := by
    rw [Nat.le_div_iff_mul_le (twoTo_pos 52), ← hfield]
  generalize bits / twoTo 52 = fields at hdiv hdiv' hlt hsign ⊢
  by_cases hnegative : twoTo 63 ≤ bits
  · obtain ⟨field, rfl⟩ := Nat.exists_eq_add_of_le (hsign.1 hnegative)
    have hmod : (2048 + field) % 2048 = field := by omega
    rw [decide_eq_true hnegative, if_pos rfl, hmod, hfield, ← Nat.add_assoc, ← Nat.add_mul, hdiv]
  · have hmod : fields % 2048 = fields := Nat.mod_eq_of_lt (not_le.1 fun h => hnegative (hsign.2 h))
    rw [decide_eq_false hnegative, if_neg Bool.false_ne_true, hmod, hdiv]

/-- A finite double is made of its sign and of the bits that its parts describe. -/
theorem ofMagnitude_of_view {x : Float} {negative : Bool} {mantissa : Nat} {exponent : Int}
    (h : view x = .finite negative mantissa exponent) :
    IsParts mantissa exponent ∧ ofMagnitude negative (magnitude mantissa exponent) = x := by
  obtain ⟨hlt, hmin, hmax⟩ := view_bounds h
  have hbits := bits_eq x.toBits.toNat x.toBits.toNat_lt
  have hmagnitude := ofMagnitude_eq x negative (magnitude mantissa exponent)
  unfold view at h
  simp only at h
  split at h
  · split at h <;> cases h
  · split at h
    case isTrue hfield =>
      obtain ⟨rfl, rfl, rfl⟩ := View.finite.inj h
      rw [hfield] at hbits
      rw [magnitude, sub_self] at hmagnitude ⊢
      exact ⟨⟨hlt, .inr rfl, hmin, hmax⟩, hmagnitude hbits⟩
    case isFalse hfield =>
      obtain ⟨rfl, rfl, rfl⟩ := View.finite.inj h
      refine ⟨⟨hlt, .inl (Nat.le_add_right _ _), hmin, hmax⟩, hmagnitude ?_⟩
      have hmagnitude : magnitude (twoTo 52 + x.toBits.toNat % twoTo 52)
          (minExponent + ((x.toBits.toNat / twoTo 52 % 2048 - 1 : Nat) : Int)) =
            x.toBits.toNat / twoTo 52 % 2048 * twoTo 52 + x.toBits.toNat % twoTo 52 := by
        obtain ⟨field, hfield⟩ := Nat.exists_eq_succ_of_ne_zero hfield
        rw [magnitude, add_sub_cancel_left, Int.toNat_natCast, hfield, Nat.succ_sub_one,
          Nat.succ_mul, Nat.add_assoc]
      rw [hmagnitude]
      exact hbits

end Binary64

end Backlog
