import Backlog.Proofs.Service.Freshness

/-!
# Stale states and the rounds they missed

Whether a state is stale is decided in whole seconds: its age is cut down to them, and so is the
limit of three rounds, which is never less than one second.  Here this is measured against the age
in milliseconds and against three rounds as they are (`HealthState.stale_after_three_rounds`).  A
stale state is older than three rounds, a state that is two seconds older than that is stale, and
what lies between depends on where the seconds end.

Everything comes from one fact: a state is stale from a certain number of milliseconds on
(`HealthState.isStale_iff`).  The limit of very long rounds is too low, but no clock gets to it.
-/

namespace Backlog

namespace Calendar

/-- Milliseconds from a moment to a point in time, with what a leap second adds to it. -/
def millisSince (now : Instant) (m : Moment) : Int :=
  (now.nanos - m.instant.nanos + m.leap now) / 1000000

/-- Seconds are cut toward zero and milliseconds down, but a limit is never negative. -/
theorem lt_secondsSince_iff {now : Instant} {m : Moment} {limit : Nat} :
    limit < secondsSince now m ↔ 1000 * (limit + 1 : ℤ) ≤ millisSince now m := by
  unfold secondsSince millisSince
  generalize now.nanos - m.instant.nanos + m.leap now = nanos
  rcases Int.le_total 0 nanos with hlater | hearlier
  · rw [Int.tdiv_eq_ediv_of_nonneg hlater]
    unfold second
    omega
  · have hnone : nanos.tdiv second ≤ 0 :=
      (Int.tdiv_le_tdiv (by decide) hearlier).trans_eq (Int.zero_tdiv _)
    omega

end Calendar

namespace HealthState

/-- Milliseconds since the state was written, if it says when that was. -/
def ageMillis (s : HealthState) (now : Instant) : Option Int :=
  (Calendar.moment? s.lastUpdated).map (Calendar.millisSince now)

variable {state state' : HealthState} {now now' : Instant} {p p' : Nat} {age age' : Int}

/-- Apart from leap seconds an age is what passed on the clock. -/
theorem ageMillis_of_moment {m : Calendar.Moment}
    (hm : Calendar.moment? state.lastUpdated = some m) (hleap : m.isLeap = false) :
    state.ageMillis now = some ((now.nanos - m.instant.nanos) / 1000000) := by
  rw [ageMillis, hm, Option.map_some, Calendar.millisSince, Calendar.Moment.leap, hleap]
  simp

/-! ## The limit -/

theorem staleLimit_mono (h : p' ≤ p) : staleLimit p' ≤ staleLimit p := by
  unfold staleLimit
  have hrounds : p' * staleAfterRounds ≤ p * staleAfterRounds := Nat.mul_le_mul_right _ h
  omega

theorem staleLimit_lt (p : Nat) : staleLimit p < 2 ^ 63 := by
  have htop : twoTo 64 = 18446744073709551616 := by decide
  unfold staleLimit
  omega

theorem exists_moment (hage : state.ageMillis now = some age) :
    ∃ m, Calendar.moment? state.lastUpdated = some m ∧
      state.ageSeconds now = some (Calendar.secondsSince now m) ∧
      age = Calendar.millisSince now m := by
  obtain ⟨m, hm, rfl⟩ := Option.map_eq_some_iff.1 hage
  exact ⟨m, hm, by rw [ageSeconds, hm]; rfl, rfl⟩

/-- A state is stale from a second after its limit on. -/
theorem isStale_iff (hage : state.ageMillis now = some age) :
    state.isStale now p = true ↔ 1000 * (staleLimit p + 1 : ℤ) ≤ age := by
  obtain ⟨m, -, hseconds, rfl⟩ := exists_moment hage
  rw [isStale, hseconds, ← Calendar.lt_secondsSince_iff]
  exact decide_eq_true_iff

/-! ## Three rounds -/

theorem isStale_of_le (hage : state.ageMillis now = some age) (hlate : 3 * p + 2000 ≤ age) :
    state.isStale now p = true := by
  rw [isStale_iff hage]
  unfold staleLimit staleAfterRounds
  omega

theorem lt_of_isStale (hclock : Calendar.millis now < 2 ^ 63)
    (hage : state.ageMillis now = some age) (hstale : state.isStale now p = true) :
    3 * p < age := by
  obtain ⟨m, -, hseconds, rfl⟩ := exists_moment hage
  have hlimit : ¬Calendar.secondsSince now m ≤ (max 1 (3 * p / 1000) : ℕ) := by
    rw [← le_staleLimit_iff hclock hseconds, not_le, Calendar.lt_secondsSince_iff]
    exact (isStale_iff hage).1 hstale
  rw [not_le, Calendar.lt_secondsSince_iff] at hlimit
  omega

theorem isStale_mono (hage : state.ageMillis now = some age)
    (hage' : state'.ageMillis now' = some age') (holder : age ≤ age') (hshorter : p' ≤ p)
    (hstale : state.isStale now p = true) : state'.isStale now' p' = true := by
  have hlimit := staleLimit_mono hshorter
  rw [isStale_iff hage] at hstale
  rw [isStale_iff hage']
  omega

/-- **A state is stale after three rounds.**  Let a state say in a way that can be read when it was
written, so many milliseconds ago.  That is the time that passed on the clock, unless it says a leap
second.

* If the state is stale, then it is older than three rounds.  The clock is one whose milliseconds
  fit into 64 bits, so it does not get to where the product of interval and rounds is cut off.
* If the state is older than three rounds by two seconds or more, then it is stale.
* An older state is stale as well, and so is one with shorter rounds.

The limit always fits into 63 bits, so that seconds can be compared with it. -/
theorem stale_after_three_rounds :
    (∀ (state : HealthState) (now : Instant) (m : Calendar.Moment),
      Calendar.moment? state.lastUpdated = some m → m.isLeap = false →
        state.ageMillis now = some ((now.nanos - m.instant.nanos) / 1000000)) ∧
    (∀ (state : HealthState) (now : Instant) (age : ℤ) (p : ℕ),
      state.ageMillis now = some age →
        (Calendar.millis now < 2 ^ 63 → state.isStale now p = true → 3 * p < age) ∧
        (3 * p + 2000 ≤ age → state.isStale now p = true)) ∧
    (∀ (state state' : HealthState) (now now' : Instant) (age age' : ℤ) (p p' : ℕ),
      state.ageMillis now = some age → state'.ageMillis now' = some age' → age ≤ age' → p' ≤ p →
        state.isStale now p = true → state'.isStale now' p' = true) ∧
    ∀ p, staleLimit p < 2 ^ 63 :=
  ⟨fun _ _ _ => ageMillis_of_moment,
    fun _ _ _ _ hage => ⟨fun hclock => lt_of_isStale hclock hage, isStale_of_le hage⟩,
    fun _ _ _ _ _ _ _ _ hage hage' => isStale_mono hage hage', staleLimit_lt⟩

/-- A state that was written ten seconds before 1970. -/
def tenSecondState : HealthState :=
  ⟨"0.1.0", 1, "t", "1969-12-31T23:59:50Z", .active, 0, 0, .pending true⟩

/-- After ten seconds a state is stale for rounds of 2666 milliseconds, and for shorter ones. -/
theorem stale_after_three_rounds_of_tenSecondState :
    tenSecondState.ageMillis ⟨0⟩ = some 10000 ∧ (3 * 2666 + 2000 : ℤ) ≤ 10000 ∧
      tenSecondState.isStale ⟨0⟩ 2666 = true ∧ tenSecondState.isStale ⟨0⟩ 1000 = true ∧
      (3 * 1000 : ℤ) < 10000 := by
  obtain ⟨hages, hrounds, hmono, -⟩ := stale_after_three_rounds
  have hage : tenSecondState.ageMillis ⟨0⟩ = some 10000 :=
    hages _ _ ⟨⟨-10000000000⟩, false⟩ (by decide +kernel) rfl
  have hlate : (3 * 2666 + 2000 : ℤ) ≤ 10000 := by decide
  have hclock : Calendar.millis ⟨0⟩ < 2 ^ 63 := by decide
  have hstale : tenSecondState.isStale ⟨0⟩ 2666 = true :=
    (hrounds _ _ _ 2666 hage).2 hlate
  have hshorter : tenSecondState.isStale ⟨0⟩ 1000 = true :=
    hmono _ _ _ _ _ _ _ _ hage hage (Int.le_refl _) (by decide) hstale
  exact ⟨hage, hlate, hstale, hshorter, (hrounds _ _ _ 1000 hage).1 hclock hshorter⟩

end HealthState

end Backlog
