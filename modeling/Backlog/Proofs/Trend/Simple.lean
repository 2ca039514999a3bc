import Backlog.Proofs.Trend.Smoothing

/-!
# Simple smoothing

Under simple smoothing a new level is a mixture of the new value and the level before, with
weights that are not negative.  So it grows with both of them, and of two rows in order the levels
are in order too (`Smoother.Below.levels`).

That levels stay inside what was seen needs no induction of its own.  A row lies between two
constant rows, those of its smallest and of its largest value, and a constant row is smoothed to
itself (`Smoother.levels_replicate`).
-/

namespace Backlog

section Rows

variable {α β : Type} {R : α → β → Prop}

theorem forall₂_replicate_left {a : α} {others : List β} :
    List.Forall₂ R (.replicate others.length a) others ↔ ∀ b ∈ others, R a b := by
  induction others with
  | nil => simp
  | cons b rest ih => simp [List.replicate_succ, ih]

theorem forall₂_replicate_right {values : List α} {b : β} :
    List.Forall₂ R values (.replicate values.length b) ↔ ∀ a ∈ values, R a b := by
  constructor
  · intro h
    exact forall₂_replicate_left.1 (List.Forall₂.flip (R := flip R) h)
  · intro h
    exact (forall₂_replicate_left.2 h).flip

end Rows

namespace Smoother

variable {alpha lo hi v w : ℚ} {s t : Smoother ℚ} {values others : List ℚ}

/-- Two smoothers with the same simple damping have seen the same number of values, and the level
of the first is not above that of the second. -/
structure Below (alpha : ℚ) (s t : Smoother ℚ) : Prop where
  left : s.damping = .simple alpha
  right : t.damping = .simple alpha
  samples : s.samples = t.samples
  level : s.level ≤ t.level

theorem below_start (alpha : ℚ) : Below alpha (start (.simple alpha)) (start (.simple alpha)) :=
  ⟨rfl, rfl, rfl, le_rfl⟩

/-- One more value for each of two smoothers, the lower one for the one below. -/
theorem Below.add (h : Below alpha s t) (h0 : 0 ≤ alpha) (h1 : alpha ≤ 1) (hv : v ≤ w) :
    Below alpha (s.add v) (t.add w) := by
  refine ⟨h.left, h.right, congrArg (· + 1) h.samples, ?_⟩
  -- the first value is the first level, whatever the damping
  by_cases hfirst : s.samples = 0
  · have hother : t.samples = 0 := h.samples ▸ hfirst
    simp only [Smoother.add, follow, h.left, h.right, hfirst, hother, if_pos]
    exact hv
  · have hother : t.samples ≠ 0 := h.samples ▸ hfirst
    rw [level_add_of_simple h.left hfirst, level_add_of_simple h.right hother]
    exact blend_mono h0 h1 hv h.level

theorem Below.levels (h : Below alpha s t) (h0 : 0 ≤ alpha) (h1 : alpha ≤ 1)
    (hvalues : values.Forall₂ (· ≤ ·) others) :
    (s.levels values).Forall₂ (· ≤ ·) (t.levels others) := by
  induction hvalues generalizing s t with
  | nil => exact .nil
  | cons hv hrest ih =>
      have hnext := h.add h0 h1 hv
      exact .cons hnext.level (ih hnext)

/-! ## The range of the levels -/

theorem isValid_simple (h0 : 0 ≤ alpha) (h1 : alpha ≤ 1) : (Damping.simple alpha).IsValid :=
  Scalar.isUnit_rat_iff.2 ⟨h0, h1⟩

theorem le_levels_of_simple (h0 : 0 ≤ alpha) (h1 : alpha ≤ 1) (hlo : ∀ v ∈ values, lo ≤ v) :
    ∀ l ∈ (start (.simple alpha)).levels values, lo ≤ l := by
  have hlevels := (below_start alpha).levels h0 h1 (forall₂_replicate_left.2 hlo)
  rw [levels_replicate (isValid_simple h0 h1) trivial, ← length_levels] at hlevels
  exact forall₂_replicate_left.1 hlevels

theorem levels_le_of_simple (h0 : 0 ≤ alpha) (h1 : alpha ≤ 1) (hhi : ∀ v ∈ values, v ≤ hi) :
    ∀ l ∈ (start (.simple alpha)).levels values, l ≤ hi := by
  have hlevels := (below_start alpha).levels h0 h1 (forall₂_replicate_right.2 hhi)
  rw [levels_replicate (isValid_simple h0 h1) trivial, ← length_levels] at hlevels
  exact forall₂_replicate_right.1 hlevels

/-- The level after a row is the last one of its levels. -/
theorem level_mem_levels (s : Smoother ℚ) (hne : values ≠ []) :
    (s.addAll values).level ∈ s.levels values := by
  obtain ⟨front, v, rfl⟩ := (List.eq_nil_or_concat values).resolve_left hne
  rw [List.concat_eq_append, levels_concat]
  exact List.mem_concat_self

/-- **Simple smoothing stays inside what it has seen, and keeps the order of rows.**  For every
damping in the unit interval there is such a smoother.  After each value of a row its level lies
between the smallest and the largest value so far.  If a row lies nowhere above another one, then
at each step its level is not above the level of the other. -/
theorem simple_stays_in_range (h0 : 0 ≤ alpha) (h1 : alpha ≤ 1) :
    ∃ s : Smoother ℚ, simple alpha = .ok s ∧
      (∀ (values : List ℚ) (hne : values ≠ []),
        values.min hne ≤ (s.addAll values).level ∧ (s.addAll values).level ≤ values.max hne) ∧
      ∀ values others : List ℚ, values.Forall₂ (· ≤ ·) others →
        (s.levels values).Forall₂ (· ≤ ·) (s.levels others) := by
  refine ⟨start (.simple alpha), simple_eq_ok_iff.2 ⟨isValid_simple h0 h1, rfl⟩, ?_, ?_⟩
  · intro values hne
    have hlast := level_mem_levels (start (.simple alpha)) hne
    constructor
    · exact le_levels_of_simple h0 h1 (fun v hv => List.min_le_of_mem hv) _ hlast
    · exact levels_le_of_simple h0 h1 (fun v hv => List.le_max_of_mem hv) _ hlast
  · intro values others hvalues
    exact (below_start alpha).levels h0 h1 hvalues

/-- A row and one above it, with a quarter of each new value. -/
theorem simple_stays_in_range_of_quarter :
    (0 : ℚ) ≤ 1 / 4 ∧ (1 / 4 : ℚ) ≤ 1 ∧
      ∃ s : Smoother ℚ, simple (1 / 4 : ℚ) = .ok s ∧
        (2 ≤ (s.addAll [4, 8, 2]).level ∧ (s.addAll [4, 8, 2]).level ≤ 8) ∧
        (s.levels [4, 8, 2]).Forall₂ (· ≤ ·) (s.levels [5, 8, 3]) := by
  have h0 : (0 : ℚ) ≤ 1 / 4 := by norm_num
  have h1 : (1 / 4 : ℚ) ≤ 1 := by norm_num
  obtain ⟨s, hs, hrange, horder⟩ := simple_stays_in_range h0 h1
  have hvalues : [4, 8, 2].Forall₂ (· ≤ ·) ([5, 8, 3] : List ℚ) :=
    .cons (by norm_num) (.cons le_rfl (.cons (by norm_num) .nil))
  exact ⟨h0, h1, s, hs, hrange [4, 8, 2] (List.cons_ne_nil _ _), horder _ _ hvalues⟩

end Smoother

end Backlog
