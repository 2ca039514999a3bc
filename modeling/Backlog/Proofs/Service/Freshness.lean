import Backlog.Service.HealthState
import Mathlib.Data.Int.Order.Lemmas

/-!
# How old a state is

A state is fresh up to a limit of three rounds, and at least of a second.  Two readers ask about
it: whoever wants to know if the daemon is stalled (`HealthState.isStale`), and whoever wants to
send a signal to its process (`HealthState.signalTarget`).  They agree on every state that says
when it was written; one that does not is not stale, and is no target for a signal.

The product of the interval and the number of rounds is cut off at 64 bits.  No state is old enough
for that to show: a text cannot say a time long before the year zero
(`Calendar.le_nanos_of_readMoment`), and clocks do not get that far.
-/

namespace Backlog

/-! ## Times that texts say -/

namespace Calendar

/-- A day of a year from zero on is at most an era before the days begin to count. -/
theorem le_daysOf {d : Date} (h : 0 ≤ d.year) : -(epoch + 146097) ≤ daysOf d := by
  have hera : -1 ≤ (if d.month ≤ 2 then d.year - 1 else d.year) / 400 := by
    split <;> omega
  simp only [daysOf, epoch]
  omega

theorem readOffset_le {cs rest : List Char} {offset : Int}
    (h : readOffset cs = some (offset, rest)) : offset ≤ 86340 := by
  have hsize : ∀ {cs rest : List Char} {n : Nat}, readOffset.size cs = some (n, rest) →
      n ≤ 86340 := by
    intro cs rest n h
    simp only [readOffset.size, Option.bind_eq_bind, Option.bind_eq_some_iff, Prod.exists] at h
    obtain ⟨hours, _, -, _, -, minutes, _, -, h⟩ := h
    split at h
    · cases h
      omega
    · cases h
  unfold readOffset at h
  split at h
  · cases h
    omega
  · cases h
    omega
  · obtain ⟨⟨n, _⟩, hn, heq⟩ := Option.map_eq_some_iff.1 h
    cases heq
    exact Int.ofNat_le.2 (hsize hn)
  · obtain ⟨⟨n, _⟩, hn, heq⟩ := Option.map_eq_some_iff.1 h
    cases heq
    omega
  · obtain ⟨⟨n, _⟩, hn, heq⟩ := Option.map_eq_some_iff.1 h
    cases heq
    omega
  · cases h

theorem year_nonneg_of_readDate {cs rest : List Char} {d : Date}
    (h : readDate cs = some (d, rest)) : 0 ≤ d.year := by
  obtain ⟨⟨century, _⟩, -, h⟩ := Option.bind_eq_some_iff.1 h
  obtain ⟨⟨year, _⟩, -, h⟩ := Option.bind_eq_some_iff.1 h
  obtain ⟨_, -, h⟩ := Option.bind_eq_some_iff.1 h
  obtain ⟨⟨month, _⟩, -, h⟩ := Option.bind_eq_some_iff.1 h
  obtain ⟨_, -, h⟩ := Option.bind_eq_some_iff.1 h
  obtain ⟨⟨dayOfMonth, _⟩, -, h⟩ := Option.bind_eq_some_iff.1 h
  obtain ⟨-, h⟩ := Option.ite_none_right_eq_some.1 h
  cases h
  exact Int.natCast_nonneg _

/-- No text says a time long before the year zero: no more than an era, and a day for the distance
from UTC. -/
theorem le_nanos_of_readMoment {cs rest : List Char} {m : Moment}
    (h : readMoment cs = some (m, rest)) :
    -((epoch + 146098) * day * second) ≤ m.instant.nanos := by
  obtain ⟨⟨date, _⟩, hdate, h⟩ := Option.bind_eq_some_iff.1 h
  obtain ⟨_, -, h⟩ := Option.bind_eq_some_iff.1 h
  obtain ⟨⟨hours, _⟩, -, h⟩ := Option.bind_eq_some_iff.1 h
  obtain ⟨_, -, h⟩ := Option.bind_eq_some_iff.1 h
  obtain ⟨⟨minutes, _⟩, -, h⟩ := Option.bind_eq_some_iff.1 h
  obtain ⟨_, -, h⟩ := Option.bind_eq_some_iff.1 h
  obtain ⟨⟨seconds, _⟩, -, h⟩ := Option.bind_eq_some_iff.1 h
  obtain ⟨⟨nanos, _⟩, -, h⟩ := Option.bind_eq_some_iff.1 h
  obtain ⟨⟨offset, _⟩, hoffset, h⟩ := Option.bind_eq_some_iff.1 h
  obtain ⟨-, h⟩ := Option.ite_none_right_eq_some.1 h
  cases h
  have hdays := le_daysOf (year_nonneg_of_readDate hdate)
  have hle := readOffset_le hoffset
  unfold second day epoch at *
  dsimp only
  omega

theorem le_nanos_of_moment? {text : String} {m : Moment} (h : moment? text = some m) :
    -((epoch + 146098) * day * second) ≤ m.instant.nanos := by
  unfold moment? at h
  split at h
  · next hread =>
      cases h
      exact le_nanos_of_readMoment hread
  · cases h

/-- On a clock whose milliseconds fit into 64 bits not much more time has passed since a moment
than since 1970. -/
theorem secondsSince_le {now : Instant} {text : String} {m : Moment} (h : moment? text = some m)
    (hclock : millis now < 2 ^ 63) : secondsSince now m ≤ 2 ^ 54 := by
  have hleap : m.leap now ≤ second := by
    unfold Moment.leap
    split <;> decide
  have hearly := le_nanos_of_moment? h
  have htop : now.nanos - m.instant.nanos + m.leap now ≤ 2 ^ 54 * second := by
    unfold millis at hclock
    unfold second day epoch at *
    omega
  refine (Int.tdiv_le_tdiv (by decide) htop).trans ?_
  rw [Int.mul_tdiv_cancel _ (by decide)]

end Calendar

namespace HealthState

/-! ## Fresh states -/

variable {state : HealthState} {now : Instant} {pollIntervalMs : Nat}

theorem isStale_eq_false_iff :
    state.isStale now pollIntervalMs = false ↔
      ∀ age, state.ageSeconds now = some age → age ≤ staleLimit pollIntervalMs := by
  unfold isStale
  cases state.ageSeconds now <;> simp

/-- Signals are sent to a process other than number zero whose state says when it was written,
and was not written too long ago. -/
theorem signalTarget_eq_ok_iff {pid : UInt32} :
    state.signalTarget now pollIntervalMs = .ok pid ↔
      state.pid ≠ 0 ∧ pid = state.pid ∧
        ∃ age, state.ageSeconds now = some age ∧ age ≤ staleLimit pollIntervalMs := by
  have hfresh : ((state.ageSeconds now).isNone || state.isStale now pollIntervalMs) = false ↔
      ∃ age, state.ageSeconds now = some age ∧ age ≤ staleLimit pollIntervalMs := by
    rw [Bool.or_eq_false_iff, isStale_eq_false_iff]
    cases state.ageSeconds now <;> simp
  unfold signalTarget
  by_cases hpid : state.pid = 0
  · rw [if_pos hpid]
    exact iff_of_false nofun fun h => h.1 hpid
  · rw [if_neg hpid]
    cases hrefused : (state.ageSeconds now).isNone || state.isStale now pollIntervalMs with
    | true =>
        exact iff_of_false nofun fun h => Bool.false_ne_true ((hfresh.2 h.2.2).symm.trans hrefused)
    | false =>
        constructor
        · intro h
          cases h
          exact ⟨hpid, rfl, hfresh.1 hrefused⟩
        · rintro ⟨-, rfl, -⟩
          rfl

/-- The limit is three rounds and at least a second: no clock gets to where their product is cut
off. -/
theorem le_staleLimit_iff {age : Int} (hclock : Calendar.millis now < 2 ^ 63)
    (hage : state.ageSeconds now = some age) :
    age ≤ staleLimit pollIntervalMs ↔ age ≤ (max 1 (3 * pollIntervalMs / 1000) : ℕ) := by
  obtain ⟨m, hm, rfl⟩ := Option.map_eq_some_iff.1 hage
  have hle := Calendar.secondsSince_le hm hclock
  have htop : twoTo 64 = 18446744073709551616 := by decide
  unfold staleLimit staleAfterRounds
  omega

end HealthState

end Backlog
