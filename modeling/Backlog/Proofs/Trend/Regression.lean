import Backlog.Proofs.Exact
import Backlog.Proofs.Ring
import Mathlib.Algebra.Order.BigOperators.Group.List
import Mathlib.Algebra.BigOperators.Ring.List

/-!
# Exact sliding regression

A regression never looks at its window: it adds the point that comes and subtracts the
point that leaves.  In exact arithmetic nothing is lost by that: the running sums are the
sums over the points in the window (`Regression.IsExact`), and the slope is the quotient

  `(n·Σxy - Σx·Σy) / (n·Σxx - Σx·Σx)`

over these points (`PointSums.slope_ofPoints`, `Regression.slope_pushAll`).  Both parts are
a `crossMoment`, and the signs of these come from one identity: a further point `b` adds
`(f b - f c)·(g b - g c)` for every point `c` there is (`crossMoment_cons`).

The other way round, values that are not all the same have a slope over some times, and
times that jump once from zero to one are enough for that (`exists_jump`).
-/

namespace Backlog

/-! ## Cross moments -/

section CrossMoment

variable {β : Type} (f g : β → ℚ)

/-- The number of points times the sum of the products, less the product of the sums. -/
def crossMoment (l : List β) : ℚ :=
  l.length * (l.map fun b => f b * g b).sum - (l.map f).sum * (l.map g).sum

theorem crossMoment_cons (b : β) (l : List β) :
    crossMoment f g (b :: l) =
      crossMoment f g l + (l.map fun c => (f b - f c) * (g b - g c)).sum := by
  have hsum : (l.map fun c => (f b - f c) * (g b - g c)).sum =
      l.length * (f b * g b) - f b * (l.map g).sum - g b * (l.map f).sum +
        (l.map fun c => f c * g c).sum := by
    induction l with
    | nil => simp
    | cons c rest ih =>
        simp only [List.map_cons, List.sum_cons, ih, List.length_cons]
        push_cast
        ring
  rw [hsum]
  simp only [crossMoment, List.map_cons, List.sum_cons, List.length_cons]
  push_cast
  ring

variable {f g}

theorem crossMoment_nonpos {l : List β}
    (h : l.Pairwise fun b c => (f b - f c) * (g b - g c) ≤ 0) : crossMoment f g l ≤ 0 := by
  induction l with
  | nil => simp [crossMoment]
  | cons b rest ih =>
      obtain ⟨hb, hrest⟩ := List.pairwise_cons.1 h
      have hsum : (rest.map fun c => (f b - f c) * (g b - g c)).sum ≤ 0 := by
        refine (List.sum_le_card_nsmul _ 0 fun x hx => ?_).trans_eq (nsmul_zero _)
        obtain ⟨c, hc, rfl⟩ := List.mem_map.1 hx
        exact hb c hc
      rw [crossMoment_cons]
      exact add_nonpos (ih hrest) hsum

theorem crossMoment_self_nonneg (f : β → ℚ) (l : List β) : 0 ≤ crossMoment f f l := by
  induction l with
  | nil => simp [crossMoment]
  | cons b rest ih =>
      have hsum : 0 ≤ (rest.map fun c => (f b - f c) * (f b - f c)).sum := by
        refine List.sum_nonneg fun x hx => ?_
        obtain ⟨c, _, rfl⟩ := List.mem_map.1 hx
        exact mul_self_nonneg _
      rw [crossMoment_cons]
      exact add_nonneg ih hsum

theorem crossMoment_eq_zero_of_const {l : List β} {y : ℚ} (h : ∀ b ∈ l, g b = y) :
    crossMoment f g l = 0 := by
  induction l with
  | nil => simp [crossMoment]
  | cons b rest ih =>
      have hzero : ∀ c ∈ rest, (f b - f c) * (g b - g c) = 0 := fun c hc => by
        rw [h b List.mem_cons_self, h c (List.mem_cons_of_mem _ hc), sub_self, mul_zero]
      rw [crossMoment_cons, ih fun c hc => h c (List.mem_cons_of_mem _ hc), zero_add]
      rw [List.map_congr_left hzero]
      simp

theorem crossMoment_eq_zero_of_short {l : List β} (h : l.length < 2) : crossMoment f g l = 0 := by
  match l, h with
  | [], _ => simp [crossMoment]
  | [b], _ => simp [crossMoment]

end CrossMoment

/-! ## Running sums -/

namespace PointSums

/-- The sums over a row of points, taken in one after the other. -/
def ofPoints {α : Type} [Scalar α] (points : List (α × α)) : PointSums α :=
  points.foldl (fun s p => s.add p.1 p.2) empty

theorem ofPoints_concat {α : Type} [Scalar α] (points : List (α × α)) (p : α × α) :
    ofPoints (points ++ [p]) = (ofPoints points).add p.1 p.2 := by
  rw [ofPoints, List.foldl_concat]
  rfl

variable (points : List (ℚ × ℚ))

theorem ofPoints_eq :
    ofPoints points = ⟨points.length, (points.map (·.1)).sum, (points.map (·.2)).sum,
      (points.map fun p => p.1 * p.2).sum, (points.map fun p => p.1 * p.1).sum⟩ := by
  induction points using List.reverseRecOn with
  | nil => simp [ofPoints, empty]
  | append_singleton rest p ih =>
      rw [ofPoints_concat, ih]
      simp [add]

/-- What was added first can be taken out again. -/
theorem remove_ofPoints_cons (p : ℚ × ℚ) :
    (ofPoints (p :: points)).remove p.1 p.2 = ofPoints points := by
  -- The last point is not subtracted: the sums are reset with it, and are the empty ones.
  cases points with
  | nil => rfl
  | cons q rest =>
      have hcount : ¬(ofPoints (p :: q :: rest)).n ≤ 1 := by simp [ofPoints_eq]
      rw [remove, if_neg hcount]
      simp [ofPoints_eq]

/-- A slope in exact arithmetic.  Where the quotient is degenerate it is zero, as division
by zero is. -/
theorem slope_ofPoints :
    (ofPoints points).slope =
      crossMoment Prod.fst Prod.snd points / crossMoment Prod.fst Prod.fst points := by
  have hcross : Scalar.fma (Scalar.ofInt (ofPoints points).n) (ofPoints points).xy
      (-((ofPoints points).x * (ofPoints points).y)) = crossMoment Prod.fst Prod.snd points := by
    simp [ofPoints_eq, crossMoment, sub_eq_add_neg]
  have hspread : Scalar.fma (Scalar.ofInt (ofPoints points).n) (ofPoints points).xx
      (-((ofPoints points).x * (ofPoints points).x)) = crossMoment Prod.fst Prod.fst points := by
    simp [ofPoints_eq, crossMoment, sub_eq_add_neg]
  by_cases htwo : (ofPoints points).n < 2
  · have hshort : points.length < 2 := by simpa [ofPoints_eq] using htwo
    rw [slope, if_pos htwo, crossMoment_eq_zero_of_short hshort, zero_div, Scalar.zero_rat]
  · rw [slope, if_neg htwo]
    show (if (Scalar.eq _ Scalar.zero || !Scalar.isFinite _) = true then Scalar.zero
      else _ / _) = _
    rw [hcross, hspread]
    by_cases hspread0 : crossMoment Prod.fst Prod.fst points = 0
    · simp [hspread0]
    · simp [hspread0]

theorem slope_ofPoints_nonpos {points : List (ℚ × ℚ)}
    (h : points.Pairwise fun p q => p.1 ≤ q.1 ∧ q.2 ≤ p.2) : (ofPoints points).slope ≤ 0 := by
  rw [slope_ofPoints]
  refine div_nonpos_of_nonpos_of_nonneg (crossMoment_nonpos ?_) (crossMoment_self_nonneg _ _)
  refine h.imp fun {p q} hpq => ?_
  exact mul_nonpos_of_nonpos_of_nonneg (sub_nonpos.2 hpq.1) (sub_nonneg.2 hpq.2)

theorem slope_ofPoints_eq_zero {points : List (ℚ × ℚ)} {y : ℚ} (h : ∀ p ∈ points, p.2 = y) :
    (ofPoints points).slope = 0 := by
  rw [slope_ofPoints, crossMoment_eq_zero_of_const h, zero_div]

end PointSums

/-! ## Jumps -/

/-- The values of one row at zero and those of another at one. -/
def jump (as bs : List ℚ) : List (ℚ × ℚ) := as.map (0, ·) ++ bs.map (1, ·)

@[simp] theorem length_jump (as bs : List ℚ) :
    (jump as bs).length = as.length + bs.length := by
  simp [jump]

theorem sum_fst_jump (as bs : List ℚ) : ((jump as bs).map Prod.fst).sum = bs.length := by
  simp [jump, Function.comp_def]

theorem crossMoment_jump (as bs : List ℚ) :
    crossMoment Prod.fst Prod.snd (jump as bs) = as.length * bs.sum - bs.length * as.sum := by
  have hsnd : ((jump as bs).map Prod.snd).sum = as.sum + bs.sum := by
    simp [jump, Function.comp_def]
  have hprod : ((jump as bs).map fun p => p.1 * p.2).sum = bs.sum := by
    simp [jump, Function.comp_def]
  rw [crossMoment, length_jump, sum_fst_jump, hsnd, hprod, Nat.cast_add]
  ring

theorem crossMoment_jump_self (as bs : List ℚ) :
    crossMoment Prod.fst Prod.fst (jump as bs) = as.length * bs.length := by
  have hsquare : ((jump as bs).map fun p => p.1 * p.1).sum = bs.length := by
    simp [jump, Function.comp_def]
  rw [crossMoment, length_jump, sum_fst_jump, hsquare, Nat.cast_add]
  ring

/-- If no jump has a slope, each value of the row is the mean. -/
theorem length_mul_eq_sum {ys : List ℚ}
    (hflat : ∀ as bs, ys = as ++ bs → crossMoment Prod.fst Prod.snd (jump as bs) = 0) {y : ℚ}
    (hy : y ∈ ys) : ys.length * y = ys.sum := by
  obtain ⟨as, bs, rfl⟩ := List.append_of_mem hy
  have hbefore := hflat as (y :: bs) rfl
  have hafter := hflat (as ++ [y]) bs (by simp)
  rw [crossMoment_jump] at hbefore hafter
  simp only [List.length_append, List.length_cons, List.length_nil, List.sum_append,
    List.sum_cons, List.sum_nil] at hbefore hafter ⊢
  push_cast at hbefore hafter ⊢
  linarith

/-- Values that are not all the same are told apart by a jump somewhere between them. -/
theorem exists_jump {ys : List ℚ} {a b : ℚ} (ha : a ∈ ys) (hb : b ∈ ys) (hne : a ≠ b) :
    ∃ as bs, as ≠ [] ∧ ys = as ++ bs ∧ (PointSums.ofPoints (jump as bs)).slope ≠ 0 := by
  by_contra! hflat
  have hzero : ∀ as bs, ys = as ++ bs → crossMoment Prod.fst Prod.snd (jump as bs) = 0 := by
    intro as bs heq
    -- a jump before all values has no slope either
    rcases eq_or_ne as [] with rfl | has
    · simp [crossMoment_jump]
    · have hslope := hflat as bs has heq
      rw [PointSums.slope_ofPoints, div_eq_zero_iff, crossMoment_jump_self, mul_eq_zero,
        Nat.cast_eq_zero, Nat.cast_eq_zero, List.length_eq_zero_iff,
        List.length_eq_zero_iff] at hslope
      obtain hcross | hnil | rfl := hslope
      · exact hcross
      · exact absurd hnil has
      · simp [crossMoment_jump]
  have hlength : (ys.length : ℚ) ≠ 0 := by
    have hpos := List.length_pos_of_mem ha
    positivity
  refine hne (mul_left_cancel₀ hlength ?_)
  rw [length_mul_eq_sum hzero ha, length_mul_eq_sum hzero hb]

/-! ## Sliding -/

namespace Regression

section Push

variable {α : Type} [Scalar α]

/-- Push a row of points, one after the other. -/
def pushAll (r : Regression α) (points : List (α × α)) : Regression α :=
  points.foldl (fun r p => r.push p.1 p.2) r

theorem pushAll_concat (r : Regression α) (points : List (α × α)) (p : α × α) :
    r.pushAll (points ++ [p]) = (r.pushAll points).push p.1 p.2 := by
  rw [pushAll, List.foldl_concat]
  rfl

theorem points_push (r : Regression α) (x y : α) :
    (r.push x y).points = (r.points.push (x, y)).2 := by
  unfold push
  split <;> simp_all

theorem sums_push (r : Regression α) (x y : α) :
    (r.push x y).sums =
      match (r.points.push (x, y)).1 with
      | none => r.sums.add x y
      | some p => (r.sums.remove p.1 p.2).add x y := by
  unfold push
  split <;> simp_all

theorem points_pushAll (r : Regression α) (points : List (α × α)) :
    (r.pushAll points).points = r.points.pushAll points := by
  induction points using List.reverseRecOn with
  | nil => rfl
  | append_singleton points p ih => rw [pushAll_concat, points_push, ih, Ring.pushAll_concat]

end Push

/-- The sums are those of the points in the window. -/
def IsExact (r : Regression ℚ) : Prop := r.sums = .ofPoints r.points.toList

theorem IsExact.push {r : Regression ℚ} (h : r.IsExact) (x y : ℚ) : (r.push x y).IsExact := by
  unfold IsExact at h ⊢
  rw [points_push, sums_push]
  obtain ⟨hnone, hnext⟩ | ⟨p, rest, hview, hsome, hnext⟩ := r.points.push_cases (x, y)
  · rw [hnone, hnext, PointSums.ofPoints_concat, h]
  · rw [hsome, hnext, PointSums.ofPoints_concat, h, hview]
    exact congrArg (PointSums.add · x y) (PointSums.remove_ofPoints_cons rest p)

theorem IsExact.pushAll {r : Regression ℚ} (h : r.IsExact) (points : List (ℚ × ℚ)) :
    (r.pushAll points).IsExact := by
  induction points using List.reverseRecOn with
  | nil => exact h
  | append_singleton points p ih =>
      rw [pushAll_concat]
      exact ih.push p.1 p.2

/-- The slope of a regression is that of the points in its window. -/
theorem slope_pushAll (capacity : ℕ) (points : List (ℚ × ℚ)) :
    (pushAll ⟨.empty, .empty capacity⟩ points).slope =
      (PointSums.ofPoints (points.rtake (max capacity 1))).slope := by
  have hempty : IsExact ⟨.empty, .empty capacity⟩ := rfl
  rw [slope, hempty.pushAll points, points_pushAll, Ring.toList_pushAll]

end Regression

end Backlog
