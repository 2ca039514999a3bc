import Backlog.Proofs.Number.Digits
import Mathlib.Algebra.Order.Ring.Nat

/-!
# Digits of doubles

The search for the shortest digits of a double goes down from a power of ten above the double.
Forty steps below, the multiples of the power are closer together than the decimals that are read
as the double reach, so it has found some digits by then (`ofParts_pos`).  Hence the numeral of a
double is well-formed in any layout (`Layout.wellFormed_numeral?`).
-/

namespace Backlog

/-! ## Powers of two and of ten -/

theorem pow_le_pow_of_ratio {a b s t k j : Nat} (hs : s ≠ 0) (hb : 0 < b)
    (hbase : a ^ s ≤ b ^ t) (h : t * k ≤ s * j) : a ^ k ≤ b ^ j := by
  refine (Nat.pow_le_pow_iff_left hs).1 ?_
  calc (a ^ k) ^ s = (a ^ s) ^ k := by rw [← Nat.pow_mul, ← Nat.pow_mul, Nat.mul_comm]
    _ ≤ (b ^ t) ^ k := Nat.pow_le_pow_left hbase k
    _ = b ^ (t * k) := (Nat.pow_mul b t k).symm
    _ ≤ b ^ (s * j) := Nat.pow_le_pow_right hb h
    _ = (b ^ j) ^ s := by rw [← Nat.pow_mul, Nat.mul_comm]

theorem tenTo_le_twoTo {k j : Nat} (h : 10 * k ≤ 3 * j) : tenTo k ≤ twoTo j :=
  pow_le_pow_of_ratio (by omega) (by omega) (by omega : 10 ^ 3 ≤ 2 ^ 10) h

theorem twoTo_le_tenTo {k j : Nat} (h : 4 * k ≤ 13 * j) : twoTo k ≤ tenTo j :=
  pow_le_pow_of_ratio (by omega) (by omega) (by omega : 2 ^ 13 ≤ 10 ^ 4) h

theorem twoTo_pos (n : Nat) : 0 < twoTo n := Nat.pow_pos (by omega)

theorem tenTo_pos (n : Nat) : 0 < tenTo n := Nat.pow_pos (by omega)

/-! ## The parts of a double -/

namespace Binary64

theorem view_bounds {x : Float} {negative : Bool} {mantissa : Nat} {exponent : Int}
    (h : view x = .finite negative mantissa exponent) :
    mantissa < twoTo 53 ∧ minExponent ≤ exponent ∧ exponent ≤ 971 := by
  have hfraction : x.toBits.toNat % twoTo 52 < twoTo 52 := Nat.mod_lt _ (twoTo_pos 52)
  have hbiased : x.toBits.toNat / twoTo 52 % 2048 < 2048 := Nat.mod_lt _ (by omega)
  have hdouble : twoTo 53 = 2 * twoTo 52 := rfl
  have hpos := twoTo_pos 52
  unfold view at h
  simp only at h
  generalize x.toBits.toNat % twoTo 52 = fraction at h hfraction
  generalize x.toBits.toNat / twoTo 52 % 2048 = biased at h hbiased
  split at h
  · split at h <;> cases h
  · rename_i hinfinite
    split at h
    · obtain ⟨-, rfl, rfl⟩ := View.finite.inj h
      exact ⟨by omega, by omega, by decide⟩
    · obtain ⟨-, rfl, rfl⟩ := View.finite.inj h
      have hmin : minExponent = -1074 := rfl
      exact ⟨by omega, by omega, by omega⟩

end Binary64

/-! ## The search -/

namespace Shortest

variable {tie : Tie} {i : Interval} {d : Nat}

theorem div_le_roundQuotient (tie : Tie) (num den : Nat) :
    num / den ≤ roundQuotient tie num den := by
  unfold roundQuotient
  simp only
  generalize num / den = quotient
  split
  · exact Nat.le_refl _
  · exact Nat.le_succ _
  · cases tie with
    | even => exact Nat.le_add_right _ _
    | up => exact Nat.le_succ _

theorem pos_of_pick (h : i.pick tie = some d) : 0 < d := by
  unfold Interval.pick at h
  simp only at h
  split at h
  · rename_i hbelow _
    cases h
    rw [Bool.and_eq_true, decide_eq_true_eq] at hbelow
    exact Nat.lt_of_lt_of_le hbelow.1 (div_le_roundQuotient tie _ _)
  · rename_i hbelow _
    cases h
    rw [Bool.and_eq_true, decide_eq_true_eq] at hbelow
    exact hbelow.1
  · cases h
    exact Nat.succ_pos _
  · cases h

/-- On a grid that is fine enough the number next below the center is inside. -/
theorem isSome_pick (hden : 0 < i.scaleDen) (hfine : i.scaleDen ≤ i.scaleNum)
    (hlow : i.low < i.center) (hhigh : i.center < i.high) : (i.pick tie).isSome := by
  have hdiv := Nat.div_add_mod' (i.center * i.scaleNum) i.scaleDen
  have hmod := Nat.mod_lt (i.center * i.scaleNum) hden
  have hlow' : (i.low + 1) * i.scaleNum ≤ i.center * i.scaleNum :=
    Nat.mul_le_mul_right _ hlow
  have hhigh' : (i.center + 1) * i.scaleNum ≤ i.high * i.scaleNum :=
    Nat.mul_le_mul_right _ hhigh
  rw [Nat.add_mul, Nat.one_mul] at hlow' hhigh'
  have hbelow : 0 < i.center * i.scaleNum / i.scaleDen := by
    refine Nat.div_pos ?_ hden
    calc i.scaleDen ≤ i.scaleNum := hfine
      _ ≤ i.center * i.scaleNum := Nat.le_mul_of_pos_left _ (by omega)
  have hinside : i.holds (i.center * i.scaleNum / i.scaleDen) = true := by
    unfold Interval.holds
    split
    · rw [Bool.and_eq_true, decide_eq_true_eq, decide_eq_true_eq]
      omega
    · rw [Bool.and_eq_true, decide_eq_true_eq, decide_eq_true_eq]
      omega
  unfold Interval.pick
  simp only [hbelow, hinside, decide_true, Bool.and_self]
  cases i.holds (i.center * i.scaleNum / i.scaleDen + 1) <;> rfl

/-- A hit within the steps of the search is found, and so is a positive number. -/
theorem search_pos {steps j : Nat} {power : Int} (hj : j < steps)
    (hhit : ((i.inTens (power - j)).pick tie).isSome) :
    0 < (search tie i steps power).1 := by
  induction steps generalizing j power with
  | zero => omega
  | succ steps ih =>
      rw [search]
      split
      · rename_i d hpick
        exact pos_of_pick hpick
      · rename_i hmiss
        cases j with
        | zero =>
            rw [Int.natCast_zero, Int.sub_zero, hmiss] at hhit
            cases hhit
        | succ j =>
            have hpower : power - ((j + 1 : Nat) : Int) = power - 1 - (j : Int) := by omega
            rw [hpower] at hhit
            exact ih (by omega) hhit

theorem scaleDen_inTens (i : Interval) (power : Int) :
    (i.inTens power).scaleDen = i.scaleDen * tenTo power.toNat := by
  unfold Interval.inTens
  split
  · rfl
  · have hzero : power.toNat = 0 := Int.toNat_of_nonpos (by omega)
    rw [hzero]
    exact (Nat.mul_one _).symm

theorem scaleNum_inTens (i : Interval) (power : Int) :
    (i.inTens power).scaleNum = i.scaleNum * tenTo (-power).toNat := by
  unfold Interval.inTens
  split
  · have hzero : (-power).toNat = 0 := Int.toNat_of_nonpos (by omega)
    rw [hzero]
    exact (Nat.mul_one _).symm
  · rfl

theorem descale_one (exponent : Int) :
    Binary64.descale exponent 1 1 = (twoTo (-exponent).toNat, twoTo exponent.toNat) := by
  unfold Binary64.descale
  split
  · have hzero : (-exponent).toNat = 0 := Int.toNat_of_nonpos (by omega)
    rw [hzero, Nat.one_mul]
    rfl
  · have hzero : exponent.toNat = 0 := Int.toNat_of_nonpos (by omega)
    rw [hzero, Nat.one_mul]
    rfl

theorem scale_interval (mantissa : Nat) (exponent : Int) :
    (interval mantissa exponent).scaleDen = twoTo (2 - exponent).toNat ∧
      (interval mantissa exponent).scaleNum = twoTo (exponent - 2).toNat := by
  simp only [interval, descale_one, Int.neg_sub, and_self]

theorem center_inTens (mantissa : Nat) (exponent power : Int) (hpos : 0 < mantissa) :
    ((interval mantissa exponent).inTens power).low <
        ((interval mantissa exponent).inTens power).center ∧
      ((interval mantissa exponent).inTens power).center <
        ((interval mantissa exponent).inTens power).high := by
  unfold Interval.inTens interval
  by_cases hpower : 0 ≤ power
  · rw [if_pos hpower]
    simp only
    split <;> omega
  · rw [if_neg hpower]
    simp only
    split <;> omega

theorem startPower_bounds {mantissa : Nat} (hmantissa : mantissa < twoTo 53) (exponent : Int) :
    startPower mantissa exponent ≤ (exponent + 53) * 30103 / 100000 + 1 := by
  have hlog : mantissa.log2 < 53 := by
    rcases Nat.eq_zero_or_pos mantissa with rfl | hpos
    · decide
    · exact (Nat.log2_lt (by omega)).2 hmantissa
  unfold startPower
  omega

/-- Thirty-nine steps below the start the grid is fine enough for any double. -/
theorem inTens_fine {mantissa : Nat} {exponent : Int} (hmantissa : mantissa < twoTo 53)
    (hmin : Binary64.minExponent ≤ exponent) (hmax : exponent ≤ 971) :
    ((interval mantissa exponent).inTens (startPower mantissa exponent - 39)).scaleDen ≤
      ((interval mantissa exponent).inTens (startPower mantissa exponent - 39)).scaleNum := by
  have hstart := startPower_bounds hmantissa exponent
  generalize startPower mantissa exponent = power at hstart ⊢
  rw [scaleDen_inTens, scaleNum_inTens, (scale_interval mantissa exponent).1,
    (scale_interval mantissa exponent).2]
  have hmin' : -1074 ≤ exponent := hmin
  rcases Int.lt_or_le exponent 2 with hsmall | hlarge
  · -- the double is divided by a power of two, and so is the grid by one of ten
    have hten : (power - 39).toNat = 0 := by omega
    have htwo : (exponent - 2).toNat = 0 := by omega
    rw [hten, htwo, Nat.mul_comm (twoTo 0)]
    exact Nat.mul_le_mul_right _ (twoTo_le_tenTo (by omega))
  · have htwo : (2 - exponent).toNat = 0 := by omega
    rw [htwo, Nat.mul_comm (twoTo 0)]
    exact Nat.mul_le_mul (tenTo_le_twoTo (by omega)) (tenTo_pos _)

/-- There are digits of every positive double. -/
theorem ofParts_pos {mantissa : Nat} {exponent : Int} (hpos : 0 < mantissa)
    (hmantissa : mantissa < twoTo 53) (hmin : Binary64.minExponent ≤ exponent)
    (hmax : exponent ≤ 971) : 0 < (ofParts tie mantissa exponent).1 := by
  have hden : 0 < ((interval mantissa exponent).inTens
      (startPower mantissa exponent - 39)).scaleDen := by
    rw [scaleDen_inTens, (scale_interval mantissa exponent).1]
    exact Nat.mul_pos (twoTo_pos _) (tenTo_pos _)
  have hinside := center_inTens mantissa exponent (startPower mantissa exponent - 39) hpos
  exact search_pos (j := 39) (by omega) (isSome_pick hden (inTens_fine hmantissa hmin hmax)
    hinside.1 hinside.2)

end Shortest

/-! ## Layouts -/

namespace Layout

theorem wellFormed_place {digits : List Char} (layout : Layout) (negative : Bool) (point : Int)
    (h : IsDigits digits) (hfirst : ∃ c rest, digits = c :: rest ∧ c ≠ '0') :
    (layout.place negative digits point).WellFormed := by
  obtain ⟨c, rest, rfl, hc⟩ := hfirst
  have hone : IsDigits [c] := by
    intro other hmem
    obtain rfl := List.mem_singleton.1 hmem
    exact h other List.mem_cons_self
  unfold place
  refine iteInduction (motive := Numeral.WellFormed) (fun _ => ?_) (fun _ => ?_)
  · by_cases hpoint : point ≤ 0
    · rw [if_pos hpoint]
      exact ⟨isWhole_zero, (isDigits_replicate_zero _).append h, nofun⟩
    · rw [if_neg hpoint]
      obtain ⟨places, hplaces⟩ : ∃ less, point.toNat = less + 1 := ⟨point.toNat - 1, by omega⟩
      refine ⟨⟨(h.take _).append (isDigits_replicate_zero _), .inr ?_⟩, ?_, nofun⟩
      · rw [hplaces]
        exact ⟨c, _, rfl, hc⟩
      · refine iteInduction (motive := IsDigits) (fun _ => ?_) (fun _ => h.drop _)
        exact iteInduction (motive := IsDigits) (fun _ => isDigits_replicate_zero 1)
          (fun _ => nofun)
  · refine ⟨⟨hone, .inr ⟨c, [], rfl, hc⟩⟩, h.drop 1, ?_⟩
    intro negative digits hexponent
    cases hexponent
    exact ⟨(isWhole_decimalDigits _).ne_nil, isDigits_decimalDigits _⟩

theorem wellFormed_numeral? {layout : Layout} {x : Float} {n : Numeral}
    (h : layout.numeral? x = some n) : n.WellFormed := by
  unfold numeral? at h
  split at h
  · rename_i negative mantissa exponent hview
    obtain ⟨hmantissa, hmin, hmax⟩ := Binary64.view_bounds hview
    split at h
    · cases h
      exact ⟨isWhole_zero, iteInduction (motive := IsDigits)
        (fun _ => isDigits_replicate_zero 1) (fun _ => nofun), nofun⟩
    · rename_i hzero
      cases h
      have hpos : 0 < (Shortest.ofParts layout.tie mantissa exponent).1 :=
        Shortest.ofParts_pos (Nat.pos_of_ne_zero hzero) hmantissa hmin hmax
      exact wellFormed_place layout negative _ (isDigits_decimalDigits _)
        (exists_decimalDigits_of_pos hpos)
  · cases h
  · cases h

end Layout

end Backlog
