import Backlog.Proofs.Exact
import Mathlib.Data.List.Induction
import Mathlib.Tactic.LinearCombination

/-!
# Smoothed series

The levels that a smoother goes through while it takes in a row of values
(`Smoother.levels`), and what exact arithmetic says about three kinds of rows.

* Simple smoothing of a row that never rises never rises either
  (`Smoother.levels_pairwise_of_simple`).  Each level lies between the new value and the
  level before, and so all values to come lie below it.
* A row of equal values `c` is smoothed to itself as long as `Damping.KeepsLevel` says so.
  Simple and double smoothing come to rest at once.  Triple smoothing does so only until its
  first season is complete: the season is made of raw values, so the next level is
  `(1 - α)·c`, except in the two cases where nothing is left to see of that, `α = 0` and
  `c = 0` (`Smoother.levels_replicate`, `Smoother.level_after_season`).
* A row on a line is smoothed to itself by simple smoothing with `α = 1` and by any double
  smoothing (`Smoother.levels_line`): its second value sets the trend to the rise of the line,
  and from then on each value is as forecast.
-/

namespace Backlog

namespace Smoother

/-! ## Rows of values -/

section Rows

variable {α : Type} [Scalar α]

@[simp] theorem damping_add (s : Smoother α) (v : α) : (s.add v).damping = s.damping := rfl

@[simp] theorem samples_add (s : Smoother α) (v : α) : (s.add v).samples = s.samples + 1 := rfl

/-- Take in a row of values, one after the other. -/
def addAll (s : Smoother α) (values : List α) : Smoother α :=
  values.foldl add s

theorem addAll_concat (s : Smoother α) (values : List α) (v : α) :
    s.addAll (values ++ [v]) = (s.addAll values).add v := by
  rw [addAll, List.foldl_concat]
  rfl

@[simp] theorem damping_addAll (s : Smoother α) (values : List α) :
    (s.addAll values).damping = s.damping := by
  induction values using List.reverseRecOn with
  | nil => rfl
  | append_singleton values v ih => rw [addAll_concat, damping_add, ih]

@[simp] theorem samples_addAll (s : Smoother α) (values : List α) :
    (s.addAll values).samples = s.samples + values.length := by
  induction values using List.reverseRecOn with
  | nil => rfl
  | append_singleton values v ih =>
      rw [addAll_concat, samples_add, ih, List.length_append, List.length_singleton, Nat.add_assoc]

/-- The level after each value of a row. -/
def levels (s : Smoother α) : List α → List α
  | [] => []
  | v :: rest => (s.add v).level :: (s.add v).levels rest

@[simp] theorem length_levels (s : Smoother α) (values : List α) :
    (s.levels values).length = values.length := by
  induction values generalizing s with
  | nil => rfl
  | cons v rest ih => rw [levels, List.length_cons, ih, List.length_cons]

theorem levels_append (s : Smoother α) (values more : List α) :
    s.levels (values ++ more) = s.levels values ++ (s.addAll values).levels more := by
  induction values generalizing s with
  | nil => rfl
  | cons v rest ih =>
      rw [List.cons_append, levels, ih, levels]
      rfl

theorem levels_concat (s : Smoother α) (values : List α) (v : α) :
    s.levels (values ++ [v]) = s.levels values ++ [(s.addAll (values ++ [v])).level] := by
  rw [levels_append, addAll_concat]
  rfl

/-! ## Seasons -/

section Season

variable {s : Smoother α} {alpha beta gamma : α} {period : ℕ}

theorem follow_of_warming (hs : s.damping = .triple alpha beta gamma period)
    (hroom : s.seasonal.length < period) (v : α) :
    s.follow v = ((s.followTrend alpha beta v).1, (s.followTrend alpha beta v).2,
      s.seasonal ++ [v]) := by
  rw [follow, hs]
  exact if_pos hroom

theorem follow_of_warm (hs : s.damping = .triple alpha beta gamma period)
    (hfull : period ≤ s.seasonal.length) (v : α) :
    s.follow v =
      let oldest := s.seasonal.headD Scalar.zero
      let level := blend alpha (v - oldest) (s.level + s.slope)
      (level, blend beta (level - s.level) s.slope,
        s.seasonal.tail ++ [blend gamma (v - level) oldest]) := by
  rw [follow, hs]
  exact if_neg (Nat.not_lt.2 hfull)

theorem seasonal_add_of_warming (hs : s.damping = .triple alpha beta gamma period)
    (hroom : s.seasonal.length < period) (v : α) : (s.add v).seasonal = s.seasonal ++ [v] := by
  rw [add, follow_of_warming hs hroom]

/-- A complete season loses its front, which is there, and gains a component at its back. -/
theorem add_of_warm (hs : s.damping = .triple alpha beta gamma period) (hperiod : 0 < period)
    (hfull : period ≤ s.seasonal.length) (v : α) :
    ∃ oldest rest, s.seasonal = oldest :: rest ∧
      (s.add v).level = blend alpha (v - oldest) (s.level + s.slope) ∧
      (s.add v).slope = blend beta ((s.add v).level - s.level) s.slope ∧
      (s.add v).seasonal = rest ++ [blend gamma (v - (s.add v).level) oldest] := by
  have hne : s.seasonal ≠ [] := List.ne_nil_of_length_pos (hperiod.trans_le hfull)
  obtain ⟨oldest, rest, hseason⟩ := List.exists_cons_of_ne_nil hne
  have hfollow := follow_of_warm hs hfull v
  rw [hseason, List.headD_cons, List.tail_cons] at hfollow
  refine ⟨oldest, rest, hseason, ?_, ?_, ?_⟩ <;> rw [add, hfollow]

/-- Until the first season is complete it is made of the raw values. -/
theorem seasonal_addAll {values : List α} (h : values.length ≤ period) :
    ((start (.triple alpha beta gamma period)).addAll values).seasonal = values := by
  induction values using List.reverseRecOn with
  | nil => rfl
  | append_singleton values v ih =>
      rw [List.length_append, List.length_singleton] at h
      have hseason := ih (by omega)
      have hroom : ((start (.triple alpha beta gamma period)).addAll values).seasonal.length
          < period := by rw [hseason]; omega
      rw [addAll_concat, seasonal_add_of_warming (damping_addAll _ values) hroom, hseason]

theorem length_seasonal_add_le (s : Smoother α) (v : α) :
    (s.add v).seasonal.length ≤ s.seasonal.length + 1 := by
  cases hs : s.damping with
  | simple => simp [add, follow, hs]
  | double => simp [add, follow, hs]
  | triple alpha beta gamma period =>
      by_cases hroom : s.seasonal.length < period
      · simp [add, follow_of_warming hs hroom]
      · simp [add, follow_of_warm hs (Nat.not_lt.1 hroom)]

/-- A season has no more components than there were values. -/
theorem length_seasonal_le (d : Damping α) (values : List α) :
    ((start d).addAll values).seasonal.length ≤ values.length := by
  induction values using List.reverseRecOn with
  | nil => exact le_rfl
  | append_singleton values v ih =>
      have hstep := length_seasonal_add_le ((start d).addAll values) v
      rw [addAll_concat, List.length_append, List.length_singleton]
      omega

end Season

end Rows

/-! ## Mixtures -/

section Mixture

variable {weight new new' old old' : ℚ}

theorem blend_rat (weight new old : ℚ) :
    blend weight new old = weight * new + (1 - weight) * old := by
  simp only [blend, Scalar.fma_rat, Scalar.one_rat]

theorem blend_self (weight a : ℚ) : blend weight a a = a := by
  rw [blend_rat]
  ring

/-- A mixture with a weight from the unit interval grows with both of its parts. -/
theorem blend_mono (h0 : 0 ≤ weight) (h1 : weight ≤ 1) (hnew : new ≤ new') (hold : old ≤ old') :
    blend weight new old ≤ blend weight new' old' := by
  rw [blend_rat, blend_rat]
  apply add_le_add
  · exact mul_le_mul_of_nonneg_left hnew h0
  · exact mul_le_mul_of_nonneg_left hold (sub_nonneg.2 h1)

theorem le_blend (h0 : 0 ≤ weight) (h1 : weight ≤ 1) (h : new ≤ old) :
    new ≤ blend weight new old := by
  calc new = blend weight new new := (blend_self weight new).symm
    _ ≤ blend weight new old := blend_mono h0 h1 le_rfl h

theorem blend_le (h0 : 0 ≤ weight) (h1 : weight ≤ 1) (h : new ≤ old) :
    blend weight new old ≤ old := by
  calc blend weight new old ≤ blend weight old old := blend_mono h0 h1 h le_rfl
    _ = old := blend_self weight old

end Mixture

/-! ## Rows that never rise -/

section Draining

variable {s : Smoother ℚ} {alpha : ℚ}

theorem level_add_of_simple (hs : s.damping = .simple alpha) (hsamples : s.samples ≠ 0) (v : ℚ) :
    (s.add v).level = blend alpha v s.level := by
  simp [add, follow, hs, hsamples]

theorem levels_pairwise_from (hs : s.damping = .simple alpha) (hsamples : s.samples ≠ 0)
    (h0 : 0 ≤ alpha) (h1 : alpha ≤ 1) {values : List ℚ} (hbelow : ∀ v ∈ values, v ≤ s.level)
    (hvalues : values.Pairwise (· ≥ ·)) : (s.level :: s.levels values).Pairwise (· ≥ ·) := by
  -- The level before stands at the front, where the next step needs it as a bound.
  induction values generalizing s with
  | nil => exact List.pairwise_singleton _ _
  | cons v rest ih =>
      obtain ⟨hv, hrest⟩ := List.pairwise_cons.1 hvalues
      have hle : v ≤ s.level := hbelow v List.mem_cons_self
      have hlevel := level_add_of_simple hs hsamples v
      have hlow : v ≤ (s.add v).level := by
        rw [hlevel]
        exact le_blend h0 h1 hle
      have hhigh : (s.add v).level ≤ s.level := by
        rw [hlevel]
        exact blend_le h0 h1 hle
      have hnext : ((s.add v).level :: (s.add v).levels rest).Pairwise (· ≥ ·) :=
        ih hs (Nat.succ_ne_zero _) (fun w hw => (hv w hw).trans hlow) hrest
      refine List.pairwise_cons.2 ⟨fun l hl => ?_, hnext⟩
      rcases List.mem_cons.1 hl with rfl | hl
      · exact hhigh
      · exact (List.rel_of_pairwise_cons hnext hl).trans hhigh

/-- Under simple smoothing a row that never rises has levels that never rise. -/
theorem levels_pairwise_of_simple (h0 : 0 ≤ alpha) (h1 : alpha ≤ 1) {values : List ℚ}
    (hvalues : values.Pairwise (· ≥ ·)) :
    ((start (.simple alpha)).levels values).Pairwise (· ≥ ·) := by
  cases values with
  | nil => exact List.Pairwise.nil
  | cons v rest =>
      obtain ⟨hv, hrest⟩ := List.pairwise_cons.1 hvalues
      exact levels_pairwise_from rfl (Nat.succ_ne_zero _) h0 h1 hv hrest

end Draining

/-! ## Rows of equal values -/

end Smoother

/-- Whether `n` equal values `c` are all smoothed to `c`. -/
def Damping.KeepsLevel (c : ℚ) (n : ℕ) : Damping ℚ → Prop
  | .simple _ => True
  | .double _ _ => True
  | .triple alpha _ _ period => alpha = 0 ∨ c = 0 ∨ n ≤ period

theorem Damping.KeepsLevel.mono {c : ℚ} {m n : ℕ} {d : Damping ℚ} (h : d.KeepsLevel c n)
    (hmn : m ≤ n) : d.KeepsLevel c m := by
  cases d with
  | simple => trivial
  | double => trivial
  | triple alpha beta gamma period =>
      obtain halpha | hc | hn := h
      · exact .inl halpha
      · exact .inr (.inl hc)
      · exact .inr (.inr (hmn.trans hn))

namespace Smoother

variable {c : ℚ} {s : Smoother ℚ}

/-- The smoother has seen nothing, or it has come to the level `c`; it has no trend.  At zero
its season has nothing to add either. -/
structure RestsAt (c : ℚ) (s : Smoother ℚ) : Prop where
  level : (s.samples = 0 ∧ s.seasonal = []) ∨ s.level = c
  slope : s.slope = 0
  season : c = 0 → ∀ x ∈ s.seasonal, x = 0

theorem restsAt_start (d : Damping ℚ) : (start d).RestsAt c where
  level := .inl ⟨rfl, rfl⟩
  slope := Scalar.zero_rat
  season := fun _ _ hx => absurd hx List.not_mem_nil

theorem RestsAt.followTrend_eq (h : s.RestsAt c) (alpha beta : ℚ) :
    s.followTrend alpha beta c = (c, 0) := by
  have hslope := h.slope
  unfold followTrend
  split
  · rw [hslope]
  · rename_i hone
    have hlevel : s.level = c := h.level.resolve_left (by omega)
    rw [hlevel, sub_self]
  · rename_i hzero hone
    have hlevel : s.level = c := h.level.resolve_left fun hfresh => hzero hfresh.1
    rw [hlevel, hslope]
    simp only [add_zero, blend_self, sub_self]

theorem restsAt_of_follow {season : List ℚ} (hfollow : s.follow c = (c, 0, season))
    (hseason : c = 0 → ∀ x ∈ season, x = 0) : (s.add c).RestsAt c := by
  have hadd : s.add c = { s.add c with level := c, slope := 0, seasonal := season } := by
    rw [add, hfollow]
  rw [hadd]
  exact ⟨.inr rfl, rfl, hseason⟩

/-- With a complete season the new level is `α·(c - S) + (1 - α)·c`.  This is `c` for `α = 0`,
and also at zero, where the component `S` is zero too. -/
theorem RestsAt.add_of_warm (h : s.RestsAt c) {alpha beta gamma : ℚ} {period : ℕ}
    (hs : s.damping = .triple alpha beta gamma period) (hperiod : 0 < period)
    (hfull : period ≤ s.seasonal.length) (hkeep : alpha = 0 ∨ c = 0) : (s.add c).RestsAt c := by
  obtain ⟨oldest, rest, hseason, hlevel, hslope, hnext⟩ :=
    Smoother.add_of_warm hs hperiod hfull c
  have hbefore : s.level = c := by
    apply h.level.resolve_left
    rintro ⟨-, hnil⟩
    rw [hseason] at hnil
    cases hnil
  have holdest : c = 0 → oldest = 0 := fun hc =>
    h.season hc oldest (hseason ▸ List.mem_cons_self)
  have hafter : (s.add c).level = c := by
    rw [hlevel, hbefore, h.slope, add_zero]
    obtain halpha | hc := hkeep
    · simp [blend, halpha]
    · rw [holdest hc, hc, sub_zero, blend_self]
  refine ⟨.inr hafter, ?_, fun hc x hx => ?_⟩
  · rw [hslope, hafter, hbefore, sub_self, h.slope, blend_self]
  · rw [hnext, hafter, sub_self, holdest hc, blend_self] at hx
    rcases List.mem_append.1 hx with hx | hx
    · exact h.season hc x (hseason ▸ List.mem_cons_of_mem _ hx)
    · exact List.mem_singleton.1 hx

/-- One more `c` leaves a smoother at rest. -/
theorem RestsAt.add (h : s.RestsAt c) (hvalid : s.damping.IsValid)
    (hkeep : s.damping.KeepsLevel c (s.seasonal.length + 1)) : (s.add c).RestsAt c := by
  cases hs : s.damping with
  | simple alpha =>
      refine restsAt_of_follow ?_ h.season
      rw [follow, hs, h.slope]
      by_cases hzero : s.samples = 0
      · simp only [if_pos hzero]
      · have hlevel : s.level = c := h.level.resolve_left fun hfresh => hzero hfresh.1
        simp only [if_neg hzero, hlevel, blend_self]
  | double alpha beta =>
      refine restsAt_of_follow ?_ h.season
      rw [follow, hs]
      simp only [h.followTrend_eq]
  | triple alpha beta gamma period =>
      rw [hs] at hvalid hkeep
      by_cases hroom : s.seasonal.length < period
      · refine restsAt_of_follow (by rw [follow_of_warming hs hroom, h.followTrend_eq]) ?_
        intro hc x hx
        rcases List.mem_append.1 hx with hx | hx
        · exact h.season hc x hx
        · exact (List.mem_singleton.1 hx).trans hc
      · refine h.add_of_warm hs hvalid.2.2.2 (Nat.not_lt.1 hroom) ?_
        obtain halpha | hc | hlong := hkeep
        · exact .inl halpha
        · exact .inr hc
        · exact absurd hlong hroom

theorem restsAt_replicate {d : Damping ℚ} (hvalid : d.IsValid) {n : ℕ} (hkeep : d.KeepsLevel c n) :
    ((start d).addAll (.replicate n c)).RestsAt c := by
  induction n with
  | zero => exact restsAt_start d
  | succ n ih =>
      -- a step looks at the length of the season, the condition at the number of values
      have hlength := length_seasonal_le d (.replicate n c)
      rw [List.length_replicate] at hlength
      rw [List.replicate_succ', addAll_concat]
      refine (ih (hkeep.mono n.le_succ)).add ?_ ?_
      · rw [damping_addAll]
        exact hvalid
      · rw [damping_addAll]
        exact hkeep.mono (Nat.succ_le_succ hlength)

/-- Equal values are smoothed to themselves. -/
theorem levels_replicate {d : Damping ℚ} (hvalid : d.IsValid) {n : ℕ} (hkeep : d.KeepsLevel c n) :
    (start d).levels (.replicate n c) = .replicate n c := by
  induction n with
  | zero => rfl
  | succ n ih =>
      have hrest := (restsAt_replicate hvalid hkeep).level.resolve_left (by simp)
      rw [List.replicate_succ'] at hrest ⊢
      rw [levels_concat, ih (hkeep.mono n.le_succ), hrest]

/-- The season that triple smoothing has made of a row of equal values pulls the next level
away from them. -/
theorem level_after_season {alpha beta gamma : ℚ} {period : ℕ}
    (hvalid : (Damping.triple alpha beta gamma period).IsValid) :
    ((start (.triple alpha beta gamma period)).addAll (.replicate (period + 1) c)).level =
      (1 - alpha) * c := by
  have hperiod : 0 < period := hvalid.2.2.2
  have hrest := restsAt_replicate hvalid (c := c) (n := period) (.inr (.inr le_rfl))
  have hseason : ((start (.triple alpha beta gamma period)).addAll (.replicate period c)).seasonal =
      .replicate period c := seasonal_addAll List.length_replicate.le
  have hfull := (congrArg List.length hseason).trans List.length_replicate
  obtain ⟨oldest, rest, hfront, hlevel, -⟩ :=
    add_of_warm (damping_addAll _ _) hperiod hfull.ge c
  have hbefore := hrest.level.resolve_left fun hfresh => by simp [hfresh.2] at hfront
  have holdest : oldest = c := by
    apply List.eq_of_mem_replicate (n := period)
    rw [← hseason, hfront]
    exact List.mem_cons_self
  rw [List.replicate_succ', addAll_concat, hlevel, holdest, hbefore, hrest.slope, sub_self,
    add_zero, blend_rat, mul_zero, zero_add]

theorem levels_of_season {alpha beta gamma : ℚ} {period n : ℕ}
    (hvalid : (Damping.triple alpha beta gamma period).IsValid) (hn : period < n) :
    ∃ rest, (start (.triple alpha beta gamma period)).levels (.replicate n c) =
      .replicate period c ++ (1 - alpha) * c :: rest := by
  obtain ⟨k, rfl⟩ : ∃ k, n = period + 1 + k := ⟨n - (period + 1), by omega⟩
  have hseason : (start (.triple alpha beta gamma period)).levels (.replicate period c) =
      .replicate period c := levels_replicate hvalid (.inr (.inr le_rfl))
  have hnext := level_after_season (c := c) hvalid
  rw [List.replicate_succ'] at hnext
  rw [List.replicate_add, List.replicate_succ', levels_append, levels_concat, hseason, hnext,
    List.append_assoc]
  exact ⟨_, rfl⟩

end Smoother

/-! ## Rows on a line -/

/-- The `n` values that begin with `first` and go on by `rise` each. -/
def line {R : Type} [CommRing R] (first rise : R) (n : ℕ) : List R :=
  (List.range n).map fun i : ℕ => first + rise * i

theorem line_succ {R : Type} [CommRing R] (first rise : R) (n : ℕ) :
    line first rise (n + 1) = line first rise n ++ [first + rise * n] := by
  rw [line, List.range_succ, List.map_append, List.map_singleton, line]

@[simp] theorem length_line {R : Type} [CommRing R] (first rise : R) (n : ℕ) :
    (line first rise n).length = n := by
  simp [line]

theorem take_line {R : Type} [CommRing R] (first rise : R) (n m : ℕ) :
    (line first rise n).take m = line first rise (min m n) := by
  rw [line, ← List.map_take, List.take_range, line]

theorem map_cast_line (first rise : ℤ) (n : ℕ) :
    (line first rise n).map ((↑) : ℤ → ℚ) = line (first : ℚ) rise n := by
  simp [line]

/-- Whether a line is smoothed to itself, whatever its rise. -/
def Damping.KeepsLines : Damping ℚ → Prop
  | .simple alpha => alpha = 1
  | .double _ _ => True
  | .triple .. => False

namespace Smoother

/-- With `alpha = 1` simple smoothing takes values as they are. -/
theorem levels_of_undamped {s : Smoother ℚ} (hs : s.damping = .simple 1) (values : List ℚ) :
    s.levels values = values := by
  induction values generalizing s with
  | nil => rfl
  | cons v rest ih =>
      have hlevel : (s.add v).level = v := by simp [add, follow, hs, blend]
      rw [levels, hlevel, ih (s := s.add v) hs]

/-- The smoother has seen a row on a line: its level is the last value, and from the second value
on its trend is the rise. -/
structure IsOnLine (first rise : ℚ) (s : Smoother ℚ) : Prop where
  level : ∀ n, s.samples = n + 1 → s.level = first + rise * n
  slope : ∀ n, s.samples = n + 2 → s.slope = rise

section Holt

variable {s : Smoother ℚ} {alpha beta first rise v : ℚ}

/-- A value that is what level and trend forecast confirms both. -/
theorem followTrend_of_forecast (hsamples : 2 ≤ s.samples) (hv : s.level + s.slope = v) :
    s.followTrend alpha beta v = (v, s.slope) := by
  obtain ⟨n, hn⟩ : ∃ n, s.samples = n + 2 := ⟨s.samples - 2, by omega⟩
  have hrise : v - s.level = s.slope := by rw [← hv, add_sub_cancel_left]
  simp only [followTrend, hn, hv, blend_self, hrise]

theorem IsOnLine.followTrend_eq (h : s.IsOnLine first rise) (hv : v = first + rise * s.samples) :
    s.followTrend alpha beta v = (v, if s.samples = 0 then s.slope else rise) := by
  rcases hn : s.samples with _ | _ | n
  · simp only [followTrend, hn, if_pos]
  · have hrise : v - s.level = rise := by
      rw [hv, hn, h.level 0 hn]
      push_cast
      ring
    rw [if_neg (by omega)]
    simp only [followTrend, hn, hrise]
  · have hforecast : s.level + s.slope = v := by
      rw [hv, hn, h.level (n + 1) hn, h.slope n hn]
      push_cast
      ring
    rw [followTrend_of_forecast (by omega) hforecast, h.slope n hn, if_neg (by omega)]

/-- One more value of the line leaves a smoother on it. -/
theorem IsOnLine.add (h : s.IsOnLine first rise) (hs : s.damping = .double alpha beta) :
    (s.add (first + rise * s.samples)).IsOnLine first rise := by
  have hadd : s.add (first + rise * s.samples) =
      { s.add (first + rise * s.samples) with
        level := first + rise * s.samples
        slope := if s.samples = 0 then s.slope else rise } := by
    rw [Smoother.add, follow, hs]
    simp only [h.followTrend_eq rfl]
  rw [hadd]
  constructor
  case level =>
    intro n hn
    obtain rfl : s.samples = n := Nat.succ_injective hn
    rfl
  case slope =>
    intro n hn
    have hsamples : s.samples = n + 1 := Nat.succ_injective hn
    exact if_neg (by omega)

theorem isOnLine_line (alpha beta first rise : ℚ) (n : ℕ) :
    ((start (.double alpha beta)).addAll (line first rise n)).IsOnLine first rise := by
  induction n with
  | zero => exact ⟨nofun, nofun⟩
  | succ n ih =>
      have hstep := ih.add (damping_addAll _ _)
      rw [samples_addAll, length_line] at hstep
      rw [line_succ, addAll_concat]
      simpa [start] using hstep

end Holt

/-- A line is smoothed to itself. -/
theorem levels_line {d : Damping ℚ} (hkeep : d.KeepsLines) (first rise : ℚ) (n : ℕ) :
    (start d).levels (line first rise n) = line first rise n := by
  cases d with
  | simple alpha =>
      obtain rfl : alpha = 1 := hkeep
      exact levels_of_undamped rfl _
  | double alpha beta =>
      induction n with
      | zero => rfl
      | succ n ih =>
          have hlevel := (isOnLine_line alpha beta first rise (n + 1)).level n (by simp [start])
          rw [line_succ] at hlevel ⊢
          rw [levels_concat, ih, hlevel]
  | triple alpha beta gamma period => exact hkeep.elim

end Smoother

end Backlog
