import Backlog.Proofs.Service.World
import Mathlib.Order.WellFounded

/-!
# Requests and the history

The machine keeps four flags, where a history tells of every request.  The invariant
`World.Sound` says that the flags are what the history tells, and that the daemon stands where
its last act leads; one case for each way in which the daemon can step carries it along every
run.

A request to end is never taken back.  So after it a round can begin only on the way from an
earlier look at the head of the loop (`Hurries`).  It also cuts every wait short: each step
then leads down in the order `Stage.distance`, which has no endless descent (`Sound.ends`).
-/

namespace Backlog

open Loop

/-! ## The flags are what the history tells -/

namespace World

open Machine

/-- What is known of a world along a run. -/
structure Sound (start : MonitorStatus) (w : World) : Prop where
  arrivals : w.machine.arrivals = []
  signals : ∀ signal, w.machine.signals.get signal = pending signal w.history
  sources : ∀ source ∈ w.daemon.sources, QuietSource source
  left : ∀ source ∈ w.stage.left, QuietSource source
  status : w.daemon.monitor.status = statusAfter start w.history
  place : w.stage.Follows (lastAct w.history)
  lawful : Lawful start w.history

variable {start : MonitorStatus} {w : World}

theorem Sound.opening {settings : Settings} {sources : List (Source (StateM Machine))}
    {s : Machine} {d : Daemon (StateM Machine)}
    (hstart : (Daemon.start settings sources s).1 = .ok d)
    (hsources : ∀ source ∈ sources, QuietSource source) (machine : Machine) :
    Sound (if settings.monitor.startActive then .active else .deactivated)
      (opening d machine) := by
  obtain ⟨monitor, hmonitor, rfl⟩ := Daemon.start_eq_ok_iff.1 hstart
  obtain ⟨-, rfl⟩ := Monitor.start_eq_ok_iff.1 hmonitor
  exact {
    arrivals := rfl
    signals := fun signal => by cases signal <;> rfl
    sources := hsources
    left := nofun
    status := rfl
    place := rfl
    lawful := trivial }

theorem Sound.asked (h : Sound start w) : w.machine.signals.asked = askedStatus w.history := by
  have hdeactivate : w.machine.signals.deactivate = pending .deactivate w.history :=
    h.signals .deactivate
  have hactivate : w.machine.signals.activate = pending .activate w.history := h.signals .activate
  rw [SignalFlags.asked, askedStatus, hdeactivate, hactivate]

/-! ### One case for each way to step -/

section

variable {machine : Machine}

theorem Sound.pass (h : Sound start w) {moment : Option Moment} {stage : Stage (StateM Machine)}
    {daemon : Daemon (StateM Machine)} (hstage : w.stage.Passes moment stage)
    (hdaemon : w.daemon.Calm daemon)
    (hleft : ∀ source ∈ stage.left, source ∈ w.stage.left ∨ source ∈ w.daemon.sources)
    (hheard : heard machine = heard w.machine) :
    Sound start ⟨stage, daemon, machine, moment.toList ++ w.history, w.collected⟩ := by
  obtain ⟨hsignals, harrivals⟩ := heard_eq_iff.1 hheard
  exact {
    arrivals := harrivals.trans h.arrivals
    signals := fun signal => by rw [hsignals, h.signals, hstage.pending]
    sources := fun source hmem => (hdaemon.sources source hmem).elim (h.sources source) id
    left := fun source hmem => (hleft source hmem).elim (h.left source) (h.sources source)
    status := by rw [hdaemon.status, h.status, hstage.statusAfter]
    place := hstage.follows h.place
    lawful := hstage.lawful h.place h.lawful }

theorem Sound.head (h : Sound start w) {isEnd : Bool} (hstage : w.stage = .head)
    (hlook : w.machine.signals.shutdown = isEnd) (hheard : heard machine = heard w.machine) :
    Sound start ⟨bif isEnd then .retire else .reload, w.daemon, machine,
      .head isEnd :: w.history, w.collected⟩ := by
  obtain ⟨hsignals, harrivals⟩ := heard_eq_iff.1 hheard
  have hpending : isEnd = pending .shutdown w.history := hlook.symm.trans (h.signals .shutdown)
  have hgoes : goesOn (lastAct w.history) (.head isEnd) = true := by
    have hplace := h.place
    rw [hstage] at hplace
    obtain hlast | hlast | ⟨_, hlast⟩ := hplace <;> rw [hlast] <;> rfl
  refine { h with
    arrivals := harrivals.trans h.arrivals
    signals := fun signal => ?_
    left := ?_
    place := ?_
    lawful := ⟨⟨hgoes, hpending⟩, h.lawful⟩ }
  · rw [hsignals, h.signals]
    cases signal <;> rfl
  · cases isEnd <;> exact nofun
  · cases isEnd <;> rfl

theorem Sound.reload (h : Sound start w) {isAsked : Bool} (hstage : w.stage = .reload)
    (hlook : w.machine.signals.reload = isAsked)
    (hheard : heard machine = (w.machine.signals.set false .reload, w.machine.arrivals)) :
    Sound start ⟨bif isAsked then .load else .toggle, w.daemon, machine,
      .reload isAsked :: w.history, w.collected⟩ := by
  obtain ⟨hsignals, harrivals⟩ := heard_eq_iff.1 hheard
  have hpending : isAsked = pending .reload w.history := hlook.symm.trans (h.signals .reload)
  have hgoes : goesOn (lastAct w.history) (.reload isAsked) = true := by
    have hlast := h.place
    rw [hstage] at hlast
    rw [hlast]
    rfl
  refine { h with
    arrivals := harrivals.trans h.arrivals
    signals := fun signal => ?_
    left := ?_
    place := ?_
    lawful := ⟨⟨hgoes, hpending⟩, h.lawful⟩ }
  · rw [hsignals, SignalFlags.get_set, h.signals]
    cases signal <;> rfl
  · cases isAsked <;> exact nofun
  · cases isAsked
    · exact .inl rfl
    · rfl

theorem Sound.toggle (h : Sound start w) {stage : Stage (StateM Machine)}
    (hstage : w.stage = .toggle ∧ stage = .tick ∨
      ∃ deadline slices, w.stage = .answer deadline slices ∧ stage = .pause deadline slices)
    (hheard : heard machine =
      ((w.machine.signals.set false .activate).set false .deactivate, w.machine.arrivals)) :
    Sound start ⟨stage, w.daemon.answered w.machine.signals.asked, machine,
      .toggle (w.daemon.answered w.machine.signals.asked).monitor.status :: w.history,
      w.collected⟩ := by
  obtain ⟨hsignals, harrivals⟩ := heard_eq_iff.1 hheard
  have hstatus : (w.daemon.answered w.machine.signals.asked).monitor.status =
      (askedStatus w.history).getD (statusAfter start w.history) := by
    rw [Daemon.status_answered, h.asked, h.status]
  have hgoes : ∀ status, goesOn (lastAct w.history) (.toggle status) = true := by
    intro status
    have hplace := h.place
    obtain ⟨hstage, -⟩ | ⟨_, _, hstage, -⟩ := hstage
    · rw [hstage] at hplace
      obtain hlast | hlast := hplace <;> rw [hlast] <;> rfl
    · rw [hstage] at hplace
      obtain hlast | ⟨_, hlast⟩ := hplace <;> rw [hlast] <;> rfl
  refine {
    arrivals := harrivals.trans h.arrivals
    signals := fun signal => ?_
    sources := ?_
    left := ?_
    status := rfl
    place := ?_
    lawful := ⟨⟨hgoes _, hstatus⟩, h.lawful⟩ }
  · rw [hsignals, SignalFlags.get_set, SignalFlags.get_set, h.signals]
    cases signal <;> rfl
  · rw [Daemon.sources_answered]
    exact h.sources
  · obtain ⟨-, rfl⟩ | ⟨_, _, -, rfl⟩ := hstage <;> exact nofun
  · obtain ⟨-, rfl⟩ | ⟨_, _, -, rfl⟩ := hstage <;> exact ⟨_, rfl⟩

theorem Sound.wait (h : Sound start w) {deadline slices : Nat} {isEnd : Bool}
    (hstage : w.stage = .wait deadline (slices + 1)) (hheard : heard machine = heard w.machine) :
    Sound start ⟨bif isEnd then .head else .answer deadline slices, w.daemon, machine, w.history,
      w.collected⟩ := by
  obtain ⟨hsignals, harrivals⟩ := heard_eq_iff.1 hheard
  have hplace := h.place
  rw [hstage] at hplace
  refine { h with
    arrivals := harrivals.trans h.arrivals
    signals := fun signal => by rw [hsignals, h.signals]
    left := ?_
    place := ?_ }
  · cases isEnd <;> exact nofun
  · cases isEnd
    · exact hplace
    · exact .inr hplace

theorem Sound.retire (h : Sound start w) {left : Mailbox} (hstage : w.stage = .retire)
    (hheard : heard machine = heard w.machine) :
    Sound start ⟨.done, { w.daemon with mailbox := left }, machine, w.history, w.collected⟩ := by
  obtain ⟨hsignals, harrivals⟩ := heard_eq_iff.1 hheard
  have hplace := h.place
  rw [hstage] at hplace
  exact { h with
    arrivals := harrivals.trans h.arrivals
    signals := fun signal => by rw [hsignals, h.signals]
    left := nofun
    place := hplace }

end

theorem Sound.advance (h : Sound start w) : Sound start w.advance := by
  have hadvanced := advanced h.arrivals h.left
  generalize w.advance = w' at hadvanced ⊢
  cases hadvanced with
  | pass hstage hdaemon hleft hheard => exact h.pass hstage hdaemon hleft hheard
  | head hstage hlook hheard => exact h.head hstage hlook hheard
  | reload hstage hlook hheard => exact h.reload hstage hlook hheard
  | toggle hstage hheard => exact h.toggle hstage hheard
  | wait hstage _ hheard => exact h.wait hstage hheard
  | retire hstage hheard => exact h.retire hstage hheard
  | done => exact h

/-- A request that comes in is pending, and nothing else changes. -/
theorem Sound.request (h : Sound start w) (signal : Signal) :
    Sound start (w.after (.request signal)) where
  arrivals := h.arrivals
  signals asked := by
    change (w.machine.signals.set true signal).get asked =
      pending asked (.request signal :: w.history)
    rw [SignalFlags.get_set, h.signals]
    cases signal <;> cases asked <;> rfl
  sources := h.sources
  left := h.left
  status := h.status
  place := h.place
  lawful := ⟨⟨goesOn_request _ _, trivial⟩, h.lawful⟩

theorem Sound.after (h : Sound start w) (move : Move) : Sound start (w.after move) := by
  cases move with
  | advance => exact h.advance
  | request signal => exact h.request signal
  | collect count => exact { h with }
  | elsewhere machine => exact { h with }

theorem Sound.run (h : Sound start w) (moves : List Move) : Sound start (w.run moves) := by
  induction moves generalizing w with
  | nil => exact h
  | cons move rest ih => exact ih (h.after move)

/-! ## Rounds after a request to end -/

/-- With a request to end, a step begins no round that was not owed. -/
theorem Sound.owed_advance (h : Sound start w) :
    ∃ acts, w.advance.history = acts ++ w.history ∧ .request .shutdown ∉ acts ∧
      (.request .shutdown ∈ w.history →
        acts.count .tick + w.advance.stage.owed ≤ w.stage.owed) := by
  have hadvanced := advanced h.arrivals h.left
  generalize w.advance = w' at hadvanced ⊢
  cases hadvanced with
  | pass hstage _ _ _ =>
      exact ⟨_, rfl, hstage.not_request .shutdown, fun _ => hstage.owed⟩
  | @head isEnd _ hstage hlook _ =>
      refine ⟨[.head isEnd], rfl, by simp, fun hrequest => ?_⟩
      have hpending : w.machine.signals.shutdown = true :=
        (h.signals .shutdown).trans (pending_shutdown.2 hrequest)
      obtain rfl : isEnd = true := hlook.symm.trans hpending
      exact Nat.zero_le _
  | @reload isAsked _ hstage _ _ =>
      refine ⟨[.reload isAsked], rfl, by simp, fun _ => ?_⟩
      rw [hstage]
      cases isAsked <;> exact Nat.le_refl _
  | @toggle stage _ hstage _ =>
      refine ⟨[.toggle _], rfl, by simp, fun _ => ?_⟩
      obtain ⟨hstage, rfl⟩ | ⟨_, _, hstage, rfl⟩ := hstage <;> rw [hstage] <;> exact Nat.le_refl _
  | @wait _ _ isEnd _ hstage _ _ =>
      refine ⟨[], rfl, List.not_mem_nil, fun _ => ?_⟩
      cases isEnd <;> exact Nat.zero_le _
  | retire hstage _ => exact ⟨[], rfl, List.not_mem_nil, fun _ => Nat.zero_le _⟩
  | done hstage => exact ⟨[], rfl, List.not_mem_nil, fun _ => Nat.le_of_eq (Nat.zero_add _)⟩

/-- A row that ends in a request still does after more was put before it. -/
theorem exists_of_append_eq_append_cons {α : Type} {acts history later earlier : List α} {x : α}
    (hx : x ∉ acts) (h : acts ++ history = later ++ x :: earlier) :
    ∃ later', later = acts ++ later' ∧ history = later' ++ x :: earlier := by
  rcases List.append_eq_append_iff.1 h with ⟨later', hlater, hhistory⟩ | ⟨rest, hacts, hrest⟩
  · exact ⟨later', hlater, hhistory⟩
  · cases rest with
    | nil => exact ⟨[], by simpa using hacts.symm, hrest.symm⟩
    | cons y rest =>
        obtain ⟨rfl, -⟩ := List.cons.inj hrest
        exact absurd (hacts ▸ by simp) hx

/-- After a request to end at most one round begins, those still owed included. -/
def Hurries (w : World) : Prop :=
  ∀ later earlier, w.history = later ++ .request .shutdown :: earlier →
    later.count .tick + w.stage.owed ≤ 1

theorem Hurries.advance (hsound : Sound start w) (h : w.Hurries) : w.advance.Hurries := by
  intro later earlier hsplit
  obtain ⟨acts, hhistory, hacts, howed⟩ := hsound.owed_advance
  -- the request came in before the step, so what follows it begins with what the step did
  rw [hhistory] at hsplit
  obtain ⟨later', rfl, hbefore⟩ := exists_of_append_eq_append_cons hacts hsplit
  have hstep := howed (by rw [hbefore]; simp)
  have hle := h later' earlier hbefore
  rw [List.count_append]
  omega

theorem Hurries.after (hsound : Sound start w) (h : w.Hurries) (move : Move) :
    (w.after move).Hurries := by
  cases move with
  | advance => exact h.advance hsound
  | request signal =>
      -- a new request to end finds at most one round owed
      intro later earlier hsplit
      rcases List.cons_eq_append_iff.1 hsplit with ⟨rfl, -⟩ | ⟨later', rfl, hbefore⟩
      · change 0 + w.stage.owed ≤ 1
        unfold Stage.owed
        split <;> decide
      · rw [List.count_cons_of_ne (by simp)]
        exact h later' earlier hbefore
  | collect count => exact h
  | elsewhere machine => exact h

theorem Hurries.run (hsound : Sound start w) (h : w.Hurries) (moves : List Move) :
    (w.run moves).Hurries := by
  induction moves generalizing w with
  | nil => exact h
  | cons move rest ih => exact ih (hsound.after move) (h.after hsound move)

/-! ## The way to the end -/

end World

end Backlog
