import Backlog.Proofs.Settings.Load

/-!
# Sound settings

What the rest of the program takes for granted about its settings.  The ids of the queues come
out of a cutting of blanks, which leaves none at either end (`Text.isTrimmed_trim`), and then
out of a check that none of them stands twice (`validateDistinct_eq_ok_iff`).  The numbers come
out of two checks, of which the first one asks for more (`isAccepted_of_load`).

Settings that were loaded are sound, whatever was in the file and in the variables
(`isSound_of_load`).
-/

namespace Backlog

/-! ## Texts without blanks at their ends -/

namespace Text

/-- Neither the first character of a text is blank nor the last one. -/
def IsTrimmed (s : String) : Prop :=
  (∀ c ∈ s.toList.head?, isBlank c = false) ∧ ∀ c ∈ s.toList.getLast?, isBlank c = false

theorem isBlank_head?_dropWhile (cs : List Char) {c : Char}
    (h : c ∈ (cs.dropWhile isBlank).head?) : isBlank c = false := by
  have hnot := List.head?_dropWhile_not isBlank cs
  rw [Option.mem_def.1 h] at hnot
  simpa using hnot

theorem trimEnd_prefix (cs : List Char) : trimEnd cs <+: cs := by
  have hsuffix := List.dropWhile_suffix isBlank (l := cs.reverse)
  rwa [trimEnd, ← List.reverse_suffix, List.reverse_reverse]

theorem isBlank_getLast?_trimEnd {cs : List Char} {c : Char} (h : c ∈ (trimEnd cs).getLast?) :
    isBlank c = false := by
  rw [trimEnd, List.getLast?_reverse] at h
  exact isBlank_head?_dropWhile _ h

theorem isTrimmed_trim (s : String) : IsTrimmed (trim s) := by
  rw [IsTrimmed, trim, trimChars, String.toList_ofList]
  refine ⟨fun c hc => ?_, fun c hc => isBlank_getLast?_trimEnd hc⟩
  -- the end is cut off a text that has no blank at its front already
  obtain ⟨rest, hrest⟩ := List.head?_eq_some_iff.1 hc
  obtain ⟨cut, hcut⟩ := trimEnd_prefix (s.toList.dropWhile isBlank)
  refine isBlank_head?_dropWhile s.toList ?_
  rw [← hcut, hrest]
  rfl

end Text

namespace Settings

/-! ## The ids of the queues -/

theorem validateDistinct_eq_ok_iff {seen ids : List String} :
    validateDistinct seen ids = .ok () ↔ (∀ id ∈ ids, id ∉ seen) ∧ ids.Nodup := by
  induction ids generalizing seen with
  | nil => simp [validateDistinct]
  | cons id rest ih =>
      rw [validateDistinct, List.nodup_cons, List.forall_mem_cons]
      by_cases hid : id ∈ seen
      · simp [hid]
      · rw [if_neg (by simpa using hid), ih]
        constructor
        · rintro ⟨hseen, hnodup⟩
          exact ⟨⟨hid, fun x hx hmem => hseen x hx (List.mem_cons_of_mem _ hmem)⟩,
            fun hmem => hseen id hmem List.mem_cons_self, hnodup⟩
        · rintro ⟨⟨-, hseen⟩, hnot, hnodup⟩
          refine ⟨fun x hx hmem => ?_, hnodup⟩
          rcases List.mem_cons.1 hmem with rfl | hmem
          · exact hnot hx
          · exact hseen x hx hmem

theorem mem_normalizeQueues {s : Settings} {id : String}
    (h : id ∈ s.normalizeQueues.sources.queues) : id ≠ "" ∧ Text.IsTrimmed id := by
  obtain ⟨hmem, hfilled⟩ := List.mem_filter.1 h
  obtain ⟨written, -, rfl⟩ := List.mem_map.1 hmem
  refine ⟨?_, Text.isTrimmed_trim written⟩
  simpa [String.isEmpty_iff] using hfilled

/-! ## Loaded settings -/

/-- What the check of the settings as a whole establishes. -/
theorem validate_eq_ok_iff {s : Settings} :
    s.validate = .ok () ↔
      2 ≤ s.monitor.windowSize ∧ s.monitor.growthPolicy.validate = .ok () ∧
        0 < s.monitor.pollIntervalMs ∧ Scalar.isUnit s.monitor.smoothing.alpha = true ∧
        Scalar.isUnit s.monitor.smoothing.beta = true ∧
        Scalar.isUnit s.monitor.smoothing.gamma = true ∧ 0 < s.monitor.smoothing.period ∧
        s.sources.queues.Nodup := by
  simp only [validate, guard_bind_eq_ok, check_bind_eq_ok, validateDamping_eq_ok_iff,
    validateDistinct_eq_ok_iff, Nat.not_lt, Nat.pos_iff_ne_zero, List.not_mem_nil,
    not_false_eq_true, implies_true, true_and]

/-- Settings with which a monitor starts and which every monitor takes over, and with which
queues are told apart by ids that are as they should be. -/
structure IsSound (s : Settings) : Prop where
  named : ∀ id ∈ s.sources.queues, id ≠ "" ∧ Text.IsTrimmed id
  distinct : s.sources.queues.Nodup
  polls : 0 < s.monitor.pollIntervalMs
  starts : ∃ m, Monitor.start s.monitor = .ok m
  reconfigures : ∀ m : Monitor Float, ∃ m', m.reconfigure s.monitor = .ok m'

theorem exists_of_complete {path : String} {overrides : List (String × String)}
    {s t : Settings} (h : s.complete path overrides = .ok t) :
    t.validate = .ok () ∧ ∃ u : Settings, t = u.normalizeQueues := by
  obtain ⟨u, -, hvalid, rfl⟩ := complete_eq_ok_iff.1 h
  exact ⟨hvalid, u, rfl⟩

section

variable {σ : Type} [Host (StateM σ)] {path : Option String} {s : σ} {t : Settings}

/-- Loaded settings come out of a completion. -/
theorem exists_complete_of_load (h : (load (m := StateM σ) path s).1 = .ok t) :
    ∃ file overrides read, Settings.complete file overrides read = .ok t := by
  rw [load_eq] at h
  simp only [StateM.bind_apply] at h
  generalize begun (σ := σ) path _ _ = begun at h
  obtain ⟨outcome, s⟩ := begun
  cases outcome with
  | error fault => cases h
  | ok read => exact ⟨_, _, read, h⟩

theorem isSound_of_load (h : (load (m := StateM σ) path s).1 = .ok t) : t.IsSound := by
  have haccepted := isAccepted_of_load h
  obtain ⟨file, overrides, read, hcomplete⟩ := exists_complete_of_load h
  obtain ⟨hvalid, u, hu⟩ := exists_of_complete hcomplete
  obtain ⟨-, -, hpolls, -, -, -, -, hdistinct⟩ := validate_eq_ok_iff.1 hvalid
  exact {
    named := fun id hid => mem_normalizeQueues (s := u) (hu ▸ hid)
    distinct := hdistinct
    polls := hpolls
    starts := ⟨_, Monitor.start_eq_ok_iff.2 ⟨haccepted, rfl⟩⟩
    reconfigures := fun _ => ⟨_, Monitor.reconfigure_eq_ok_iff.2 ⟨haccepted, rfl⟩⟩ }

end

end Settings

end Backlog
