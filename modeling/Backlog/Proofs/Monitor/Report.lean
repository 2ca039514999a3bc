import Backlog.Proofs.Monitor.Replay

/-!
# The report of a replay

A replay goes through the rounds of a log with one monitor, and keeps three figures on the way.
They say no more than the results of the rounds do (`Monitor.results`): how many rounds there were,
how many of them were unhealthy, and when the first of these was.

Put before the monitor in a round is one reading for each queue that has a record there, and it is
that of the last one (`Replay.mem_readings_iff`).
-/

namespace Backlog

variable {α : Type} [Scalar α]

/-- The results of rounds that a monitor goes through one after the other. -/
def Monitor.results (m : Monitor α) : List (List Reading) → List (MonitorResult α)
  | [] => []
  | readings :: rest => (m.check readings).latest :: (m.check readings).results rest

namespace Monitor

variable {m : Monitor α}

theorem length_results (rounds : List (List Reading)) :
    (m.results rounds).length = rounds.length := by
  induction rounds generalizing m with
  | nil => rfl
  | cons readings rest ih => exact congrArg (· + 1) ih

theorem latest_foldl_check (rounds : List (List Reading)) :
    (rounds.foldl check m).latest = (m.results rounds).getLast?.getD m.latest := by
  induction rounds generalizing m with
  | nil => rfl
  | cons readings rest ih => rw [List.foldl_cons, ih, results, List.getLast?_cons, Option.getD_some]

/-- While the check is off every round is healthy. -/
theorem healthy_of_mem_results (hoff : m.active = false) {rounds : List (List Reading)}
    {r : MonitorResult α} (hmem : r ∈ m.results rounds) : r.healthy = true := by
  induction rounds generalizing m with
  | nil => cases hmem
  | cons readings rest ih =>
      rcases List.mem_cons.1 hmem with rfl | hmem
      · simp [check, Round.result, hoff]
      · exact ih (m := m.check readings) hoff hmem

end Monitor

namespace Replay

/-! ## Readings -/

/-- A record behind which its round has no other one of the same queue. -/
def IsLast (row : List SampleRecord) (r : SampleRecord) : Prop :=
  ∃ before after, row = before ++ r :: after ∧ ∀ other ∈ after, other.queue ≠ r.queue

theorem getLast?_filter_eq_some_iff {row : List SampleRecord} {queue : String} {r : SampleRecord} :
    (row.filter (·.queue == queue)).getLast? = some r ↔ IsLast row r ∧ r.queue = queue := by
  constructor
  · intro h
    obtain ⟨before, hsplit⟩ := List.getLast?_eq_some_iff.1 h
    obtain ⟨front, back, rfl, -, hback⟩ := List.filter_eq_append_iff.1 hsplit
    obtain ⟨skipped, after, rfl, -, hqueue, hafter⟩ := List.filter_eq_cons_iff.1 hback
    obtain rfl : r.queue = queue := eq_of_beq hqueue
    refine ⟨⟨front ++ skipped, after, (List.append_assoc _ _ _).symm, ?_⟩, rfl⟩
    intro other hother heq
    exact absurd (beq_iff_eq.2 heq) (List.filter_eq_nil_iff.1 hafter other hother)
  · rintro ⟨⟨before, after, rfl, hafter⟩, rfl⟩
    have hnone : after.filter (·.queue == r.queue) = [] :=
      List.filter_eq_nil_iff.2 fun other hother heq => hafter other hother (eq_of_beq heq)
    simp [List.filter_append, hnone]

theorem mem_entries_iff {row : List SampleRecord} {queue : String} {r : SampleRecord} :
    (queue, r) ∈ (Table.ofList (row.map fun r => (r.queue, r))).entries ↔
      IsLast row r ∧ r.queue = queue := by
  rw [← Table.find?_eq_some_iff, Table.find?_ofList, List.filter_map, ← getLast?_filter_eq_some_iff,
    List.getLast?_map, Option.map_map]
  exact Eq.congr_left Option.map_id'

theorem readingOf_queue (r : SampleRecord) : (readingOf r).queue = r.queue := by
  unfold readingOf
  cases r.ready <;> rfl

theorem readingOf_outcome (r : SampleRecord) :
    (readingOf r).outcome =
      match r.ready with
      | some ready => .ok ⟨r.timestamp, ready⟩
      | none => .error .unsupported := by
  unfold readingOf
  cases r.ready <;> rfl

/-- In a round the last record of each queue is read, and no other one. -/
theorem mem_readings_iff {row : List SampleRecord} {reading : Reading} :
    reading ∈ readings row ↔ ∃ r, IsLast row r ∧ reading = readingOf r := by
  simp only [readings, List.mem_map, Prod.exists, mem_entries_iff]
  constructor
  · rintro ⟨queue, r, ⟨hlast, -⟩, rfl⟩
    exact ⟨r, hlast, rfl⟩
  · rintro ⟨r, hlast, rfl⟩
    exact ⟨r.queue, r, ⟨hlast, rfl⟩, rfl⟩

/-- The readings of a round stand in the order of their queues, one for each. -/
theorem readings_ascending (row : List SampleRecord) :
    (readings row).Pairwise fun a b => a.queue < b.queue := by
  refine List.pairwise_map.2 ?_
  refine (Table.ofList (row.map fun r => (r.queue, r))).ascending.imp_of_mem ?_
  rintro ⟨queue, r⟩ ⟨queue', r'⟩ hr hr' hlt
  rw [readingOf_queue, readingOf_queue, (mem_entries_iff.1 hr).2, (mem_entries_iff.1 hr').2]
  exact hlt

/-! ## Figures -/

/-- The first round with an unhealthy result, and that result. -/
def firstUnhealthy (rows : List (List SampleRecord)) (results : List (MonitorResult α)) :
    Option (List SampleRecord × MonitorResult α) :=
  (rows.zip results).find? fun round => !round.2.healthy

/-- The time of a round. -/
def timeOf (row : List SampleRecord) : Option Int64 := row.head?.map (·.timestamp)

omit [Scalar α] in
theorem firstUnhealthy_cons (row : List SampleRecord) (rows : List (List SampleRecord))
    (r : MonitorResult α) (results : List (MonitorResult α)) :
    firstUnhealthy (row :: rows) (r :: results) =
      if r.healthy then firstUnhealthy rows results else some (row, r) := by
  rw [firstUnhealthy, List.zip_cons_cons, List.find?_cons]
  cases r.healthy <;> rfl

/-- What a replay keeps on its way are figures about the results. -/
theorem foldl_step {rows : List (List SampleRecord)} (h : ∀ row ∈ rows, IsRound row)
    (p : Progress α) :
    let results := p.monitor.results (rows.map readings)
    rows.foldl step p =
      { monitor := (rows.map readings).foldl Monitor.check p.monitor
        rounds := p.rounds + rows.length
        unhealthyRounds := p.unhealthyRounds + results.countP fun r => !r.healthy
        firstUnhealthyAt := p.firstUnhealthyAt.or
          ((firstUnhealthy rows results).bind fun round => timeOf round.1) } := by
  induction rows generalizing p with
  | nil => simp [Monitor.results, firstUnhealthy]
  | cons row rows ih =>
      obtain ⟨hrow, hrows⟩ := List.forall_mem_cons.1 h
      obtain ⟨a, rest, rfl⟩ := List.exists_cons_of_ne_nil hrow.nonempty
      intro results
      rw [List.foldl_cons, ih hrows]
      simp only [results, List.map_cons, Monitor.results, List.foldl_cons, firstUnhealthy_cons,
        List.countP_cons, List.length_cons, step, Progress.mk.injEq, true_and]
      refine ⟨by omega, ?_, ?_⟩
      · cases (p.monitor.check (readings (a :: rest))).latest.healthy
        · simp
          omega
        · simp
      · -- the first time that was kept stays
        cases p.firstUnhealthyAt <;>
          cases (p.monitor.check (readings (a :: rest))).latest.healthy <;> simp [timeOf]

omit [Scalar α] in
theorem firstUnhealthy_eq_none_iff {rows : List (List SampleRecord)}
    {results : List (MonitorResult α)} (hlength : results.length = rows.length) :
    firstUnhealthy rows results = none ↔ results.countP (fun r => !r.healthy) = 0 := by
  have hsecond : (rows.zip results).map Prod.snd = results := List.map_snd_zip hlength.le
  conv_rhs => rw [← hsecond, List.countP_eq_zero, List.forall_mem_map]
  exact List.find?_eq_none

/-- The time of a round is that of each of its records. -/
theorem timeOf_eq_some_iff {row : List SampleRecord} (h : IsRound row) {timestamp : Int64} :
    timeOf row = some timestamp ↔ ∀ r ∈ row, r.timestamp = timestamp := by
  obtain ⟨a, rest, rfl⟩ := List.exists_cons_of_ne_nil h.nonempty
  have htime : timeOf (a :: rest) = some a.timestamp := rfl
  rw [htime, Option.some_inj]
  constructor
  · rintro rfl r hr
    exact h.together r hr a List.mem_cons_self
  · exact fun hall => hall a List.mem_cons_self

/-- How a log is cut into rounds. -/
structure IsCut (records : List SampleRecord) (rows : List (List SampleRecord)) : Prop where
  flatten : rows.flatten = records
  isRound : ∀ row ∈ rows, IsRound row
  apart : rows.IsChain Apart

theorem isCut_iff {records : List SampleRecord} {rows : List (List SampleRecord)} :
    IsCut records rows ↔ rows = rounds records := by
  constructor
  · rintro ⟨rfl, hrounds, hapart⟩
    exact (rounds_flatten hrounds hapart).symm
  · rintro rfl
    exact ⟨List.flatten_splitBy _ _, fun _ => isRound_of_mem_rounds, isChain_apart_rounds records⟩

omit [Scalar α] in
/-- The time of the first unhealthy round. -/
theorem timeOf_firstUnhealthy_eq_some_iff {rows : List (List SampleRecord)}
    (h : ∀ row ∈ rows, IsRound row) {results : List (MonitorResult α)} {timestamp : Int64} :
    ((firstUnhealthy rows results).bind fun round => timeOf round.1) = some timestamp ↔
      ∃ round, firstUnhealthy rows results = some round ∧
        ∀ r ∈ round.1, r.timestamp = timestamp := by
  rw [Option.bind_eq_some_iff]
  refine exists_congr fun round => and_congr_right fun hround => timeOf_eq_some_iff (h _ ?_)
  exact (List.of_mem_zip (List.mem_of_find?_eq_some hround)).1

omit [Scalar α] in
theorem timeOf_firstUnhealthy_eq_none_iff {rows : List (List SampleRecord)}
    (h : ∀ row ∈ rows, IsRound row) {results : List (MonitorResult α)}
    (hlength : results.length = rows.length) :
    ((firstUnhealthy rows results).bind fun round => timeOf round.1) = none ↔
      results.countP (fun r => !r.healthy) = 0 := by
  rw [← firstUnhealthy_eq_none_iff hlength]
  cases hfirst : firstUnhealthy rows results with
  | none => simp
  | some round =>
      have hround := h _ (List.of_mem_zip (List.mem_of_find?_eq_some hfirst)).1
      obtain ⟨a, rest, hrow⟩ := List.exists_cons_of_ne_nil hround.nonempty
      simp [timeOf, hrow]

end Replay

/-- A replay of a log under accepted settings, as figures about the results of its rounds. -/
theorem replay_eq {settings : MonitorSettings α} {fresh : Monitor α}
    (hstart : Monitor.start settings = .ok fresh) (records : List SampleRecord) (active : Bool) :
    let rows := Replay.rounds records
    let results := (if active then fresh.activate else fresh.deactivate).results
      (rows.map Replay.readings)
    replay settings records active = .ok
      { rounds := rows.length
        samples := records.length
        unhealthyRounds := results.countP fun r => !r.healthy
        firstUnhealthyAt :=
          (Replay.firstUnhealthy rows results).bind fun round => Replay.timeOf round.1
        result := results.getLast?.getD (.pending settings.startActive) } := by
  intro rows results
  have hrounds : ∀ row ∈ rows, Replay.IsRound row := fun _ => Replay.isRound_of_mem_rounds
  have hlatest : (if active then fresh.activate else fresh.deactivate).latest =
      .pending settings.startActive := by
    obtain ⟨-, rfl⟩ := Monitor.start_eq_ok_iff.1 hstart
    cases active <;> rfl
  have hfold := Replay.foldl_step hrounds
    ⟨if active then fresh.activate else fresh.deactivate, 0, 0, none⟩
  simp only [Nat.zero_add, Option.none_or] at hfold
  rw [replay, hstart, ← hlatest, ← Monitor.latest_foldl_check]
  simp only [bind, Except.bind, pure, Except.pure, rows, hfold, results]

/-- **A replay reports what the results of its rounds say.**  The rounds of a log are its records
cut where the time stamp changes, and in no other way.  A fresh monitor, switched as was asked, goes
through them; in each round it reads the last record of every queue.  The report counts the rounds,
the records and the unhealthy results, has the time of the first unhealthy round, and the result of
the last round. -/
theorem replay_reports {settings : MonitorSettings α} (haccepted : settings.IsAccepted)
    (records : List SampleRecord) (active : Bool) :
    let rows := Replay.rounds records
    (∀ rows', Replay.IsCut records rows' ↔ rows' = rows) ∧
    (∀ row ∈ rows, ((Replay.readings row).Pairwise fun a b => a.queue < b.queue) ∧
      ∀ reading, reading ∈ Replay.readings row ↔
        ∃ r, Replay.IsLast row r ∧ reading.queue = r.queue ∧ reading.outcome =
          match r.ready with
          | some ready => .ok ⟨r.timestamp, ready⟩
          | none => .error .unsupported) ∧
    ∃ fresh report, Monitor.start settings = .ok fresh ∧
      replay settings records active = .ok report ∧
      let results := (if active then fresh.activate else fresh.deactivate).results
        (rows.map Replay.readings)
      let first := Replay.firstUnhealthy rows results
      results.length = rows.length ∧
      report.rounds = rows.length ∧
      report.samples = records.length ∧
      report.unhealthyRounds = results.countP (fun r => !r.healthy) ∧
      (active = false → report.unhealthyRounds = 0) ∧
      (∀ timestamp, report.firstUnhealthyAt = some timestamp ↔
        ∃ round, first = some round ∧ ∀ r ∈ round.1, r.timestamp = timestamp) ∧
      (report.firstUnhealthyAt = none ↔ report.unhealthyRounds = 0) ∧
      report.result = results.getLast?.getD (.pending settings.startActive) := by
  intro rows
  have hrounds : ∀ row ∈ rows, Replay.IsRound row := fun _ => Replay.isRound_of_mem_rounds
  refine ⟨fun _ => Replay.isCut_iff,
    fun row _ => ⟨Replay.readings_ascending row, fun reading => ?_⟩, ?_⟩
  · rw [Replay.mem_readings_iff]
    refine exists_congr fun r => and_congr_right fun _ => ?_
    rw [← Replay.readingOf_outcome, ← Replay.readingOf_queue r]
    cases reading
    cases Replay.readingOf r
    simp
  have hstart : Monitor.start settings =
      .ok ⟨settings.startActive, settings, .empty, .pending settings.startActive⟩ :=
    Monitor.start_eq_ok_iff.2 ⟨haccepted, rfl⟩
  refine ⟨_, _, hstart, replay_eq hstart records active, ?_⟩
  intro results first
  have hlength : results.length = rows.length := by
    rw [Monitor.length_results, List.length_map]
  refine ⟨hlength, rfl, rfl, rfl, ?_, fun _ => Replay.timeOf_firstUnhealthy_eq_some_iff hrounds,
    Replay.timeOf_firstUnhealthy_eq_none_iff hrounds hlength, rfl⟩
  rintro rfl
  refine List.countP_eq_zero.2 fun r hr => ?_
  rw [Monitor.healthy_of_mem_results rfl hr]
  exact Bool.false_ne_true

theorem replay_reports_of_plainRounds :
    briskSettings.IsAccepted ∧ ∃ fresh report, Monitor.start briskSettings = .ok fresh ∧
      replay briskSettings plainRounds.flatten true = .ok report ∧
      report.rounds = 2 ∧ report.samples = 5 ∧ report.firstUnhealthyAt = some 2 ∧
      (fresh.activate.results ((Replay.rounds plainRounds.flatten).map Replay.readings)).countP
        (fun r => !r.healthy) = 1 := by
  have hfigures : (replay briskSettings plainRounds.flatten true).map
      (fun report => (report.unhealthyRounds, report.firstUnhealthyAt)) = .ok (1, some 2) := by
    decide +kernel
  obtain ⟨-, -, fresh, report, hstart, hreport, -, hlength, hsamples, hcount, -⟩ :=
    replay_reports briskSettings_isAccepted plainRounds.flatten true
  rw [hreport] at hfigures
  obtain ⟨hunhealthy, hfirst⟩ := Prod.ext_iff.1 (Except.ok.inj hfigures)
  have hrounds : (Replay.rounds plainRounds.flatten).length = 2 := by decide
  exact ⟨briskSettings_isAccepted, fresh, report, hstart, hreport, hlength.trans hrounds, hsamples,
    hfirst, hcount.symm.trans hunhealthy⟩

end Backlog
