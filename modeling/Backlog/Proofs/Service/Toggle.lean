import Backlog.Proofs.Service.Served

/-!
# Requests between two looks

To answer the requests about the check a daemon looks at two flags, the one to activate first,
and a request may come in between the two looks.  There one to deactivate is still seen, and
one to activate only by the next answer.  So of a pair that comes in there the request to
deactivate is answered first, even if it came last.

`deactivate_holds_iff` says that this is the only way for a last request to deactivate to be
undone.  All that an answer leaves for the next one is a request to activate that came in
between its looks (`applyToggle_of_intake`), so a row of answers is a fold over what came in
around each of them.
-/

namespace Backlog

open Machine

/-- What comes in around one answer: before the first of its two looks, and between them. -/
structure Intake where
  before : List Signal
  between : List Signal
  deriving DecidableEq, Repr

namespace Intake

def all (i : Intake) : List Signal := i.before ++ i.between

/-- The status of the check and whether a request to activate waits, after an answer. -/
def settle (state : MonitorStatus × Bool) (i : Intake) : MonitorStatus × Bool :=
  (if .deactivate ∈ i.all then .deactivated
    else if state.2 ∨ .activate ∈ i.before then .active
    else state.1,
    decide (.activate ∈ i.between))

end Intake

/-- Whether a request is about the status of the check. -/
def Signal.isToggle : Signal → Bool
  | .activate => true
  | .deactivate => true
  | _ => false

/-- Answer the requests about the check so many times. -/
def Daemon.applyToggles {m : Type → Type} [Monad m] [Host m] : Nat → Daemon m → m (Daemon m)
  | 0, d => return d
  | n + 1, d => do
    let (_, d) ← d.applyToggle
    applyToggles n d

namespace SignalFlags

/-- The flags after a batch of signals came in. -/
def raise (f : SignalFlags) (batch : List Signal) : SignalFlags :=
  batch.foldl (fun flags signal => flags.set true signal) f

theorem get_raise (batch : List Signal) (f : SignalFlags) (asked : Signal) :
    (f.raise batch).get asked = (f.get asked || decide (asked ∈ batch)) := by
  induction batch generalizing f with
  | nil => simp [raise]
  | cons signal rest ih =>
      rw [raise, List.foldl_cons, ← raise, ih, get_set]
      by_cases h : signal = asked
      · simp [h]
      · simp [h, Ne.symm h]

end SignalFlags

namespace Machine

variable {s : Machine}

theorem takeSignal_of_batch {batch : List Signal} {rest : List (List Signal)}
    (h : s.arrivals = batch :: rest) (signal : Signal) :
    Host.takeSignal (m := StateM Machine) signal s =
      ((s.signals.raise batch).get signal,
        { s with signals := (s.signals.raise batch).set false signal, arrivals := rest }) := by
  change (s.receive.signals.get signal,
    { s.receive with signals := s.receive.signals.set false signal }) = _
  rw [receive, h]
  rfl

theorem takeToggle_of_intake {i : Intake} {rest : List (List Signal)}
    (hdeactivate : s.signals.get .deactivate = false)
    (harrivals : s.arrivals = i.before :: i.between :: rest) :
    let taken := Requests.takeToggle (m := StateM Machine) s
    taken.1 =
        (if .deactivate ∈ i.all then some .deactivated
          else if s.signals.get .activate ∨ .activate ∈ i.before then some .active
          else none) ∧
      taken.2.signals.get .activate = decide (.activate ∈ i.between) ∧
      taken.2.signals.get .deactivate = false ∧ taken.2.arrivals = rest := by
  intro taken
  -- the flag to activate is taken before the second batch comes in, the other one after it
  have htaken : taken =
      (let first := s.signals.raise i.before
       let second := (first.set false .activate).raise i.between
       (if second.get .deactivate then some .deactivated
         else if first.get .activate then some .active else none,
        { s with signals := second.set false .deactivate, arrivals := rest })) := by
    change Requests.takeToggle (m := StateM Machine) s = _
    rw [Requests.takeToggle, StateM.bind_apply, takeSignal_of_batch harrivals, StateM.bind_apply,
      takeSignal_of_batch (s := { s with signals := _, arrivals := i.between :: rest }) rfl]
    rfl
  rw [htaken]
  refine ⟨?_, ?_, ?_, rfl⟩
  · simp [SignalFlags.get_raise, SignalFlags.get_set, hdeactivate, Intake.all]
  · simp [SignalFlags.get_raise, SignalFlags.get_set]
  · simp [SignalFlags.get_set]

end Machine

namespace Daemon

variable {s : Machine} {d : Daemon (StateM Machine)}

/-- Of what came in around an answer, only a request to activate between the looks is left. -/
theorem applyToggle_of_intake {i : Intake} {rest : List (List Signal)}
    (hdeactivate : s.signals.get .deactivate = false)
    (harrivals : s.arrivals = i.before :: i.between :: rest) :
    let after := d.applyToggle s
    (after.1.2.monitor.status, after.2.signals.get .activate) =
        i.settle (d.monitor.status, s.signals.get .activate) ∧
      after.2.signals.get .deactivate = false ∧ after.2.arrivals = rest := by
  intro after
  obtain ⟨hrequest, hactivate, hdeactivate, hrest⟩ := takeToggle_of_intake hdeactivate harrivals
  obtain ⟨hsignals, harrivals⟩ := heard_eq_iff.1 (heard_applyToggle d s)
  refine ⟨Prod.ext ?_ ?_, ?_, ?_⟩
  · change (d.applyToggle s).1.2.monitor.status = _
    rw [applyToggle_fst, status_answered, hrequest, Intake.settle]
    split
    · rfl
    · split <;> rfl
  · exact (congrArg (·.get .activate) hsignals).trans hactivate
  · exact (congrArg (·.get .deactivate) hsignals).trans hdeactivate
  · exact harrivals.trans hrest

/-- A row of answers settles what came in around each of them, one after the other. -/
theorem applyToggles_of_intakes {intakes : List Intake}
    (hdeactivate : s.signals.get .deactivate = false)
    (harrivals : s.arrivals = intakes.flatMap fun i => [i.before, i.between]) :
    let after := applyToggles intakes.length d s
    (after.1.monitor.status, after.2.signals.get .activate) =
      intakes.foldl Intake.settle (d.monitor.status, s.signals.get .activate) := by
  induction intakes generalizing d s with
  | nil => rfl
  | cons i rest ih =>
      obtain ⟨hstate, hdeactivate, hrest⟩ := applyToggle_of_intake hdeactivate harrivals
      rw [List.foldl_cons, ← hstate]
      exact ih hdeactivate hrest

end Daemon

namespace Intake

/-- An answer around which nothing is asked about the check does what a request to activate
asks that the answer before left, and leaves none. -/
theorem settle_of_idle {i : Intake} (state : MonitorStatus × Bool)
    (hidle : ∀ request ∈ i.all, request.isToggle = false) :
    i.settle state = (if state.2 then .active else state.1, false) := by
  have hactivate : .activate ∉ i.all := fun h => nomatch hidle _ h
  have hdeactivate : .deactivate ∉ i.all := fun h => nomatch hidle _ h
  rw [all, List.mem_append, not_or] at hactivate
  simp [settle, hdeactivate, hactivate.1, hactivate.2]

theorem foldl_settle_of_idle {later : List Intake} (state : MonitorStatus × Bool)
    (hidle : ∀ i ∈ later, ∀ request ∈ i.all, request.isToggle = false) :
    later.foldl settle state =
      if later = [] then state else (if state.2 then .active else state.1, false) := by
  induction later generalizing state with
  | nil => rfl
  | cons i rest ih =>
      obtain ⟨hi, hrest⟩ := List.forall_mem_cons.1 hidle
      rw [List.foldl_cons, settle_of_idle state hi, ih _ hrest]
      simp

end Intake

/-- **When a request to deactivate holds.**  Let `i` be the last that came in about the check
around a row of answers, with a request to deactivate in it, and let none be left in the end.
Then the check is deactivated exactly if no request to activate came in between the two looks
of that answer. -/
theorem Daemon.deactivate_holds_iff {s : Machine} {d : Daemon (StateM Machine)}
    {earlier later : List Intake} {i : Intake} (hsignals : s.signals = .none)
    (harrivals : s.arrivals = (earlier ++ i :: later).flatMap fun i => [i.before, i.between])
    (hdeactivate : .deactivate ∈ i.all)
    (hlater : ∀ i ∈ later, ∀ request ∈ i.all, request.isToggle = false)
    (hsettled : (applyToggles (earlier ++ i :: later).length d s).2.signals.asked = none) :
    (applyToggles (earlier ++ i :: later).length d s).1.monitor.status = .deactivated ↔
      .activate ∉ i.between := by
  have hstate := applyToggles_of_intakes (d := d) (by rw [hsignals]; rfl) harrivals
  generalize applyToggles _ d s = after at hstate hsettled ⊢
  have hi : ∀ state, i.settle state = (.deactivated, decide (.activate ∈ i.between)) := by
    intro state
    rw [Intake.settle, if_pos hdeactivate]
  rw [List.foldl_append, List.foldl_cons, hi, Intake.foldl_settle_of_idle _ hlater] at hstate
  obtain ⟨hstatus, hactivate⟩ := Prod.ext_iff.1 hstate
  cases later with
  | nil =>
      -- nothing is left, so no request to activate came in after the first look
      have hnone : after.2.signals.get .activate = false := by
        by_contra hleft
        have hraised : after.2.signals.activate = true := Bool.eq_true_of_not_eq_false hleft
        rw [SignalFlags.asked, hraised] at hsettled
        split at hsettled <;> cases hsettled
      rw [hnone] at hactivate
      exact iff_of_true hstatus (of_decide_eq_false hactivate.symm)
  | cons next rest =>
      change after.1.monitor.status =
        if decide (.activate ∈ i.between) then .active else .deactivated at hstatus
      rw [hstatus]
      by_cases h : .activate ∈ i.between <;> simp [h]

/-- One request to activate before the looks, and one to deactivate between them. -/
theorem Daemon.deactivate_holds_over_activate :
    let s : Machine := { World.fullMachine with arrivals := [[.activate], [.deactivate]] }
    let after := applyToggles 1 World.attentive s
    after.2.signals.asked = none ∧ after.1.monitor.status = .deactivated :=
  have hsettled : (applyToggles 1 World.attentive
      { World.fullMachine with arrivals := [[.activate], [.deactivate]] }).2.signals.asked =
        none := by
    decide +kernel
  ⟨hsettled, (@deactivate_holds_iff _ World.attentive [] [] ⟨[.activate], [.deactivate]⟩ rfl rfl
    (by decide) nofun hsettled).2 (by decide)⟩

/-- Of a pair of requests between the two looks of an answer the first is answered last, so a
check may be left active after a last request to deactivate. -/
theorem Daemon.activate_outlasts_deactivate :
    ¬ ∀ (s : Machine) (d : Daemon (StateM Machine)) (intakes : List Intake),
      s.signals = .none → s.arrivals = (intakes.flatMap fun i => [i.before, i.between]) →
      ((intakes.flatMap Intake.all).filter Signal.isToggle).getLast? = some .deactivate →
      (applyToggles intakes.length d s).2.signals.asked = none →
      (applyToggles intakes.length d s).1.monitor.status = .deactivated := by
  intro h
  have hdeactivated := h
    { World.fullMachine with arrivals := [[], [.activate, .deactivate], [], []] } World.attentive
    [⟨[], [.activate, .deactivate]⟩, ⟨[], []⟩] rfl rfl (by decide) (by decide +kernel)
  revert hdeactivated
  decide +kernel

end Backlog
