import Backlog.Proofs.Trend.Smoothing

/-!
# The season of triple smoothing

The season of a triple smoother fills up with raw values and then turns: each further value takes
away its front and puts a new component at its back.  Which of the two happens is read off the
length of the season, and a step keeps the length below the period or at it
(`Smoother.length_seasonal_add`).  So the length is that of the row seen so far, cut off at the
period, and a season that turns has a front, however short the period is.

A forecast reads the component at `seasonIndex`, a remainder by the period.  It is a place of every
complete season, and the same one a period later (`Smoother.forecast_add_period`).
-/

namespace Backlog

namespace Smoother

section Turning

variable {α : Type} [Scalar α] {s : Smoother α} {alpha beta gamma : α} {period : ℕ}

theorem length_seasonal_add (hs : s.damping = .triple alpha beta gamma period)
    (hperiod : 0 < period) (hle : s.seasonal.length ≤ period) (v : α) :
    (s.add v).seasonal.length = min (s.seasonal.length + 1) period := by
  rcases hle.lt_or_eq with hroom | hfull
  · rw [seasonal_add_of_warming hs hroom, List.length_append, List.length_singleton]
    omega
  · obtain ⟨oldest, rest, hseason, -, -, hnext⟩ := add_of_warm hs hperiod hfull.ge v
    rw [hseason, List.length_cons] at hfull
    rw [hnext, hseason, List.length_append, List.length_singleton, List.length_cons]
    omega

theorem length_seasonal_addAll (hperiod : 0 < period) (values : List α) :
    ((start (.triple alpha beta gamma period)).addAll values).seasonal.length =
      min values.length period := by
  induction values using List.reverseRecOn with
  | nil => simp [addAll, start]
  | append_singleton values v ih =>
      have hle := ih.trans_le (min_le_right values.length period)
      rw [addAll_concat, length_seasonal_add (damping_addAll _ values) hperiod hle, ih,
        List.length_append, List.length_singleton]
      omega

/-! ## Forecasts -/

theorem seasonIndex_lt (hperiod : 0 < period) (horizon : ℕ) :
    seasonIndex period horizon < period :=
  Nat.mod_lt _ hperiod

theorem seasonIndex_add_period {horizon : ℕ} (h : 1 ≤ horizon) :
    seasonIndex period (horizon + period) = seasonIndex period horizon := by
  have hshift : horizon + period - 1 = horizon - 1 + period := by omega
  rw [seasonIndex, seasonIndex, hshift, Nat.add_mod_right]

theorem forecast_of_triple (hs : s.damping = .triple alpha beta gamma period)
    (hsamples : s.samples ≠ 0) (horizon : ℕ) :
    s.forecast horizon = Scalar.fma (Scalar.ofInt horizon) s.slope s.level +
      s.seasonal.getD (seasonIndex period horizon) Scalar.zero := by
  simp only [forecast, if_neg hsamples, hs]

end Turning

section Periodic

variable {s : Smoother ℚ} {alpha beta gamma : ℚ} {period : ℕ}

/-- A period later the same component is read, and the trend has gone on for a period. -/
theorem forecast_add_period (hs : s.damping = .triple alpha beta gamma period)
    (hsamples : s.samples ≠ 0) {horizon : ℕ} (h : 1 ≤ horizon) :
    s.forecast (horizon + period) = s.forecast horizon + period * s.slope := by
  rw [forecast_of_triple hs hsamples, forecast_of_triple hs hsamples, seasonIndex_add_period h]
  simp only [Scalar.fma_rat, Scalar.ofInt_rat]
  push_cast
  ring

end Periodic

/-- **The season of triple smoothing fills up and then turns.**  Take a smoother with a season and
any row of values.

* The damping stays as it is, and the season has as many components as there were values, at most
  a period of them.  Up to a period of values they are the values themselves.
* From a period of values on a further value takes away the front of the season, which is there,
  and puts one component at its back.  A forecast, however far ahead, reads a component that is
  there.
* In exact arithmetic the forecast of a period later is higher by the trend of a period. -/
theorem season_fills_and_turns :
    (∀ {α : Type} [Scalar α] {alpha beta gamma : α} {period : ℕ} {s : Smoother α},
      triple alpha beta gamma period = .ok s → ∀ values : List α,
        let now := s.addAll values
        now.damping = .triple alpha beta gamma period ∧
        (now.samples = values.length ∧ now.seasonal.length = min now.samples period ∧
          (values.length ≤ period → now.seasonal = values)) ∧
        (period ≤ values.length →
          (∀ v, ∃ oldest rest, now.seasonal = oldest :: rest ∧
            (now.add v).level = blend alpha (v - oldest) (now.level + now.slope) ∧
            (now.add v).seasonal = rest ++ [blend gamma (v - (now.add v).level) oldest]) ∧
          ∀ horizon : ℕ, ∃ hplace : seasonIndex period horizon < now.seasonal.length,
            now.forecast horizon = Scalar.fma (Scalar.ofInt horizon) now.slope now.level +
              now.seasonal[seasonIndex period horizon])) ∧
    ∀ {alpha beta gamma : ℚ} {period : ℕ} {s : Smoother ℚ},
      triple alpha beta gamma period = .ok s → ∀ (values : List ℚ) (horizon : ℕ), 1 ≤ horizon →
        let now := s.addAll values
        now.forecast (horizon + period) = now.forecast horizon + period * now.slope := by
  constructor
  · intro α _ alpha beta gamma period s hs values now
    obtain ⟨⟨-, -, -, hperiod⟩, rfl⟩ := triple_eq_ok_iff.1 hs
    have hdamping : now.damping = .triple alpha beta gamma period := damping_addAll _ values
    have hsamples : now.samples = values.length := by simp [now, start]
    have hlength : now.seasonal.length = min values.length period :=
      length_seasonal_addAll hperiod values
    refine ⟨hdamping, ⟨hsamples, hsamples ▸ hlength, seasonal_addAll⟩, ?_⟩
    intro hlong
    have hfull : now.seasonal.length = period := by rw [hlength, min_eq_right hlong]
    constructor
    · intro v
      obtain ⟨oldest, rest, hseason, hlevel, -, hnext⟩ := add_of_warm hdamping hperiod hfull.ge v
      exact ⟨oldest, rest, hseason, hlevel, hnext⟩
    · intro horizon
      have hplace : seasonIndex period horizon < now.seasonal.length := by
        rw [hfull]
        exact seasonIndex_lt hperiod horizon
      have hsome : now.samples ≠ 0 := by omega
      refine ⟨hplace, ?_⟩
      rw [forecast_of_triple hdamping hsome, List.getD_eq_getElem?_getD,
        List.getElem?_eq_getElem hplace, Option.getD_some]
  · intro alpha beta gamma period s hs values horizon h now
    obtain ⟨-, rfl⟩ := triple_eq_ok_iff.1 hs
    rcases values with _ | ⟨v, rest⟩
    · -- before the first value every forecast is zero, and the trend is too
      have hslope : now.slope = 0 := Scalar.zero_rat
      have hnone (n : ℕ) : now.forecast n = 0 := Scalar.zero_rat
      rw [hnone, hnone, hslope, mul_zero, add_zero]
    · have hsome : now.samples ≠ 0 := by simp [now]
      exact forecast_add_period (damping_addAll _ _) hsome h

/-- A season of a single component, which turns from the second value on.  The forecasts are made
as far ahead as 32 bits can say. -/
theorem season_fills_and_turns_of_one :
    triple (1 / 2 : ℚ) (1 / 2) (1 / 2) 1 = .ok (start (.triple (1 / 2) (1 / 2) (1 / 2) 1)) ∧
      let now := (start (.triple (1 / 2 : ℚ) (1 / 2) (1 / 2) 1)).addAll [5, 9]
      now.seasonal.length = 1 ∧
        (∃ oldest rest, now.seasonal = oldest :: rest ∧
          (now.add 4).level = blend (1 / 2) (4 - oldest) (now.level + now.slope) ∧
          (now.add 4).seasonal = rest ++ [blend (1 / 2) (4 - (now.add 4).level) oldest]) ∧
        seasonIndex 1 4294967295 < now.seasonal.length ∧
        (1 ≤ 4294967294 ∧
          now.forecast (4294967294 + 1) = now.forecast 4294967294 + (1 : ℕ) * now.slope) := by
  have hunit : Scalar.isUnit (1 / 2 : ℚ) = true := Scalar.isUnit_rat_iff.2 (by norm_num)
  have hs : triple (1 / 2 : ℚ) (1 / 2) (1 / 2) 1 =
      .ok (start (.triple (1 / 2) (1 / 2) (1 / 2) 1)) :=
    triple_eq_ok_iff.2 ⟨⟨hunit, hunit, hunit, Nat.one_pos⟩, rfl⟩
  obtain ⟨hturns, hforecast⟩ := season_fills_and_turns
  obtain ⟨-, ⟨-, hlength, -⟩, hwarm⟩ := hturns hs [5, 9]
  obtain ⟨hnext, hplaces⟩ := hwarm (by decide)
  have hone : 1 ≤ 4294967294 := by decide
  exact ⟨hs, hlength, hnext 4, (hplaces 4294967295).1, hone, hforecast hs [5, 9] 4294967294 hone⟩

end Smoother

end Backlog
