import Backlog.Proofs.Accepted
import Backlog.Proofs.Table
import Backlog.Replay
import Mathlib.Data.List.Forall2
import Mathlib.Data.List.SplitBy

/-!
# The order of lines in a round

The lines of a sample log that have one time stamp are put before the monitor together, so
their order is of no account as long as the lines of each queue keep theirs
(`Replay.Reordered`).  Three things follow for a round and its reordering:

* the last line of each queue is the same, and so are the readings
  (`Replay.Reordered.readings_eq`);
* there is one time stamp in both (`Replay.IsRound`), so it does not matter which line is the
  first one (`Replay.Reordered.head?_timestamp`);
* the reordered rounds, put one behind the other, make a log that has them as its rounds
  (`Replay.rounds_flatten`).

So a replay of the reordered log goes through the same steps (`replay_reordered`).
-/

namespace Backlog

namespace Replay

/-! ## Rounds -/

/-- The records of a round: there are some, and they all have one time stamp. -/
structure IsRound (row : List SampleRecord) : Prop where
  nonempty : row ≠ []
  together : ∀ a ∈ row, ∀ b ∈ row, a.timestamp = b.timestamp

/-- Two rounds of different times. -/
def Apart (row next : List SampleRecord) : Prop :=
  ∀ a ∈ row, ∀ b ∈ next, a.timestamp ≠ b.timestamp

theorem isRound_of_mem_rounds {records row : List SampleRecord} (h : row ∈ rounds records) :
    IsRound row := by
  have htrans : IsTrans SampleRecord fun a b => a.timestamp = b.timestamp :=
    ⟨fun _ _ _ => Eq.trans⟩
  have hsymm : Std.Symm fun a b : SampleRecord => a.timestamp = b.timestamp :=
    ⟨fun _ _ => Eq.symm⟩
  refine ⟨List.ne_nil_of_mem_splitBy h, fun a ha b hb => ?_⟩
  have hchain : row.IsChain fun a b => a.timestamp = b.timestamp :=
    (List.isChain_of_mem_splitBy h).imp fun _ _ => eq_of_beq
  exact List.Pairwise.forall_of_forall (R := fun a b => a.timestamp = b.timestamp)
    (fun _ _ => rfl) (List.isChain_iff_pairwise.1 hchain) ha hb

theorem isChain_apart_rounds (records : List SampleRecord) :
    (rounds records).IsChain Apart := by
  have hborders := List.isChain_getLast_head_splitBy
    (fun a b : SampleRecord => a.timestamp == b.timestamp) records
  refine hborders.imp_of_mem_imp fun row next hrow hnext hborder a ha b hb heq => ?_
  obtain ⟨hlast, hhead, hdiffer⟩ := hborder
  refine beq_eq_false_iff_ne.1 hdiffer ?_
  calc (row.getLast hlast).timestamp = a.timestamp :=
        (isRound_of_mem_rounds hrow).together _ (List.getLast_mem hlast) a ha
    _ = b.timestamp := heq
    _ = (next.head hhead).timestamp :=
        (isRound_of_mem_rounds hnext).together b hb _ (List.head_mem hhead)

/-- Rounds that are apart are the rounds of the log they make up. -/
theorem rounds_flatten {rows : List (List SampleRecord)} (hrows : ∀ row ∈ rows, IsRound row)
    (hapart : rows.IsChain Apart) : rounds rows.flatten = rows := by
  refine List.splitBy_flatten (fun hnil => (hrows [] hnil).nonempty rfl) (fun row hrow => ?_) ?_
  · refine List.Pairwise.isChain (List.pairwise_of_forall_mem_list fun a ha b hb => ?_)
    exact beq_iff_eq.2 ((hrows row hrow).together a ha b hb)
  · refine hapart.imp_of_mem_imp fun row next hrow hnext hdiffer => ?_
    refine ⟨(hrows row hrow).nonempty, (hrows next hnext).nonempty, ?_⟩
    exact beq_eq_false_iff_ne.2 (hdiffer _ (List.getLast_mem _) _ (List.head_mem _))

/-! ## Reordering -/

/-- The records of a round in another order, those of each queue in the same one. -/
structure Reordered (row row' : List SampleRecord) : Prop where
  perm : row.Perm row'
  order : ∀ queue, row.filter (·.queue == queue) = row'.filter (·.queue == queue)

namespace Reordered

variable {row row' next next' : List SampleRecord}

/-- Two lines of different queues that stand side by side may change places. -/
theorem swap (before after : List SampleRecord) {a b : SampleRecord} (h : a.queue ≠ b.queue) :
    Reordered (before ++ a :: b :: after) (before ++ b :: a :: after) where
  perm := (List.Perm.swap b a after).append_left before
  order := fun queue => by
    have hone : ¬(a.queue = queue ∧ b.queue = queue) := fun ⟨ha, hb⟩ => h (ha.trans hb.symm)
    by_cases ha : a.queue = queue
    · have hb : b.queue ≠ queue := fun hb => hone ⟨ha, hb⟩
      simp [ha, hb]
    · simp [List.filter_cons, ha]

theorem isRound (h : Reordered row row') (hrow : IsRound row) : IsRound row' where
  nonempty := fun hnil => hrow.nonempty (hnil ▸ h.perm).eq_nil
  together := fun a ha b hb =>
    hrow.together a (h.perm.mem_iff.2 ha) b (h.perm.mem_iff.2 hb)

theorem apart (h : Reordered row row') (hnext : Reordered next next') (hapart : Apart row next) :
    Apart row' next' :=
  fun a ha b hb => hapart a (h.perm.mem_iff.2 ha) b (hnext.perm.mem_iff.2 hb)

/-- The time stamp of the first record is that of the round. -/
theorem head?_timestamp (h : Reordered row row') (hrow : IsRound row) :
    row.head?.map (·.timestamp) = row'.head?.map (·.timestamp) := by
  obtain ⟨a, rest, rfl⟩ := List.exists_cons_of_ne_nil hrow.nonempty
  obtain ⟨b, rest', rfl⟩ := List.exists_cons_of_ne_nil (h.isRound hrow).nonempty
  have hb : b ∈ a :: rest := h.perm.mem_iff.2 List.mem_cons_self
  exact congrArg some (hrow.together a List.mem_cons_self b hb)

/-- The last record of each queue is the same, and no other is read. -/
theorem readings_eq (h : Reordered row row') : readings row = readings row' := by
  have htable : Table.ofList (row.map fun r => (r.queue, r)) =
      Table.ofList (row'.map fun r => (r.queue, r)) := by
    refine Table.ext_find? fun queue => ?_
    rw [Table.find?_ofList, Table.find?_ofList, List.filter_map, List.filter_map]
    exact congrArg (fun kept => ((kept.map fun r => (r.queue, r)).getLast?).map Prod.snd)
      (h.order queue)
  rw [readings, readings, htable]

end Reordered

section

variable {rows rows' : List (List SampleRecord)}

theorem isRound_of_reordered (h : List.Forall₂ Reordered rows rows')
    (hrows : ∀ row ∈ rows, IsRound row) : ∀ row ∈ rows', IsRound row := by
  induction h with
  | nil => exact fun _ hmem => absurd hmem List.not_mem_nil
  | cons hfirst _ ih =>
      obtain ⟨hround, hmore⟩ := List.forall_mem_cons.1 hrows
      exact List.forall_mem_cons.2 ⟨hfirst.isRound hround, ih hmore⟩

theorem isChain_apart_of_reordered (h : List.Forall₂ Reordered rows rows')
    (hapart : rows.IsChain Apart) : rows'.IsChain Apart := by
  induction h with
  | nil => exact .nil
  | cons hfirst hrest ih =>
      cases hrest with
      | nil => exact .singleton _
      | cons hsecond _ =>
          obtain ⟨hborder, hmore⟩ := List.isChain_cons_cons.1 hapart
          exact List.isChain_cons_cons.2 ⟨hfirst.apart hsecond hborder, ih hmore⟩

theorem perm_flatten_of_reordered (h : List.Forall₂ Reordered rows rows') :
    rows.flatten.Perm rows'.flatten := by
  induction h with
  | nil => exact .refl _
  | cons hfirst _ ih => exact hfirst.perm.append ih

variable {α : Type} [Scalar α]

/-- A round and its reordering take a replay the same step further. -/
theorem step_of_reordered {row row' : List SampleRecord} (h : Reordered row row')
    (hrow : IsRound row) (p : Progress α) : step p row = step p row' := by
  simp only [step, h.readings_eq, h.head?_timestamp hrow]

theorem foldl_step_of_reordered (h : List.Forall₂ Reordered rows rows')
    (hrows : ∀ row ∈ rows, IsRound row) (p : Progress α) :
    rows.foldl step p = rows'.foldl step p := by
  induction h generalizing p with
  | nil => rfl
  | cons hfirst _ ih =>
      obtain ⟨hround, hmore⟩ := List.forall_mem_cons.1 hrows
      rw [List.foldl_cons, List.foldl_cons, step_of_reordered hfirst hround, ih hmore]

end

end Replay

/-- **The order of lines within the rounds does not matter across queues.**  If the rounds of a
log are reordered, each in a way that keeps the order of the lines of every queue, then the replay
of the reordered log ends in the same way, with the same fault or the same report. -/
theorem replay_reordered {α : Type} [Scalar α] (settings : MonitorSettings α)
    {records : List SampleRecord} {rows : List (List SampleRecord)}
    (h : List.Forall₂ Replay.Reordered (Replay.rounds records) rows) (active : Bool) :
    replay settings rows.flatten active = replay settings records active := by
  have hrows : ∀ row ∈ Replay.rounds records, Replay.IsRound row :=
    fun _ => Replay.isRound_of_mem_rounds
  have hrounds : Replay.rounds rows.flatten = rows :=
    Replay.rounds_flatten (Replay.isRound_of_reordered h hrows)
      (Replay.isChain_apart_of_reordered h (Replay.isChain_apart_rounds records))
  have hlength : rows.flatten.length = records.length := by
    have hperm := Replay.perm_flatten_of_reordered h
    rw [Replay.rounds, List.flatten_splitBy] at hperm
    exact hperm.length_eq.symm
  simp only [replay, hrounds, hlength, Replay.foldl_step_of_reordered h hrows]

/-- Two rounds of a log.  In the first one a queue has two lines, and between them stands that of a
queue that cannot report a count. -/
def plainRounds : List (List SampleRecord) :=
  [[⟨"a", 1, some 5⟩, ⟨"b", 1, none⟩, ⟨"a", 1, some 7⟩], [⟨"a", 2, some 9⟩, ⟨"b", 2, some 4⟩]]

/-- The same rounds, each one with its lines in another order. -/
def shuffledRounds : List (List SampleRecord) :=
  [[⟨"a", 1, some 5⟩, ⟨"a", 1, some 7⟩, ⟨"b", 1, none⟩], [⟨"b", 2, some 4⟩, ⟨"a", 2, some 9⟩]]

theorem replay_reordered_of_plainRounds :
    List.Forall₂ Replay.Reordered (Replay.rounds plainRounds.flatten) shuffledRounds ∧
      shuffledRounds.flatten ≠ plainRounds.flatten ∧
      replay briskSettings shuffledRounds.flatten true =
        replay briskSettings plainRounds.flatten true := by
  have hrounds : Replay.rounds plainRounds.flatten = plainRounds := by decide
  have hreordered : List.Forall₂ Replay.Reordered (Replay.rounds plainRounds.flatten)
      shuffledRounds := by
    rw [hrounds]
    exact .cons (.swap [_] [] (by decide)) (.cons (.swap [] [] (by decide)) .nil)
  exact ⟨hreordered, by decide, replay_reordered briskSettings hreordered true⟩

end Backlog
