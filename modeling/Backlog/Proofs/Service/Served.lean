import Backlog.Proofs.Service.Requests
import Backlog.Proofs.Service.Run

/-!
# Every request is served

What a daemon tells about its status and its end, and the main result of this part,
`World.requests_served`: wherever requests come in, each is served as the law of the loop says,
and a request to end brings the daemon to its end.
-/

namespace Backlog

open Loop

/-- The other status. -/
def MonitorStatus.other : MonitorStatus → MonitorStatus
  | .active => .deactivated
  | .deactivated => .active

namespace World

open Machine

variable {start : MonitorStatus} {w : World}

/-! ## What is told about requests -/

/-- What the events of a world say about the status of the check, and about its end. -/
structure Told (start : MonitorStatus) (w : World) : Prop where
  /-- The status is told whenever it changes. -/
  toggles : Alternates start.other.name start.name (w.sent.filterMap Event.toggled?)
  last : (w.sent.filterMap Event.toggled?).getLast?.getD start.name = w.daemon.monitor.status.name
  ended : w.stage = .done →
    ∃ before seconds, w.sent = before ++ [.daemonStopped "signal" seconds, .shutdown]

theorem Told.opening {settings : Settings} {sources : List (Source (StateM Machine))} {s : Machine}
    {d : Daemon (StateM Machine)} (hstart : (Daemon.start settings sources s).1 = .ok d)
    (machine : Machine) :
    Told (if settings.monitor.startActive then .active else .deactivated)
      (opening d machine) := by
  obtain ⟨monitor, hmonitor, rfl⟩ := Daemon.start_eq_ok_iff.1 hstart
  obtain ⟨-, rfl⟩ := Monitor.start_eq_ok_iff.1 hmonitor
  exact ⟨trivial, rfl, nofun⟩

/-- A step never takes back that an event was lost. -/
theorem Sound.dropped_le_after (h : Sound start w) (move : Move) :
    w.daemon.mailbox.dropped ≤ (w.after move).daemon.mailbox.dropped := by
  cases move with
  | advance =>
      change _ ≤ w.advance.daemon.mailbox.dropped
      have hadvanced := advanced h.arrivals h.left
      generalize w.advance = w' at hadvanced ⊢
      cases hadvanced with
      | pass _ hdaemon _ _ =>
          obtain ⟨events, hmailbox, -⟩ := hdaemon.mailbox
          dsimp only
          rw [hmailbox]
          exact Mailbox.dropped_le_foldl_send _ _
      | toggle _ _ =>
          obtain ⟨events, hmailbox, -⟩ := w.daemon.answered_mailbox w.machine.signals.asked
          dsimp only
          rw [hmailbox]
          exact Mailbox.dropped_le_foldl_send _ _
      | retire _ _ => exact Mailbox.dropped_le_foldl_send [_] _
      | head _ _ _ => exact Nat.le_refl _
      | reload _ _ _ => exact Nat.le_refl _
      | wait _ _ _ => exact Nat.le_refl _
      | done _ => exact Nat.le_refl _
  | request signal => exact Nat.le_refl _
  | collect count => exact Nat.le_refl _
  | elsewhere machine => exact Nat.le_refl _

theorem Sound.dropped_le_run (h : Sound start w) (moves : List Move) :
    w.daemon.mailbox.dropped ≤ (w.run moves).daemon.mailbox.dropped := by
  induction moves generalizing w with
  | nil => exact Nat.le_refl _
  | cons move rest ih => exact (h.dropped_le_after move).trans (ih (h.after move))

/-- Where nothing is lost, what an act sends comes after all that was sent before. -/
theorem sent_eq_append {w w' : World} {events : List Event}
    (hcollected : w'.collected = w.collected)
    (hmailbox : w'.daemon.mailbox = events.foldl Mailbox.send w.daemon.mailbox)
    (hkept : w'.daemon.mailbox.dropped = w.daemon.mailbox.dropped) :
    w'.sent = w.sent ++ events := by
  rw [hmailbox] at hkept
  rw [sent, sent, hcollected, hmailbox, Mailbox.foldl_send_of_dropped_eq hkept, List.append_assoc]

/-- A daemon that goes on sending about other things. -/
theorem Told.of_append {w' : World} (h : Told start w) {events : List Event}
    (hsent : w'.sent = w.sent ++ events) (hother : events.filterMap Event.toggled? = [])
    (hstatus : w'.daemon.monitor.status = w.daemon.monitor.status)
    (hended : w'.stage = .done →
      ∃ before seconds, w'.sent = before ++ [.daemonStopped "signal" seconds, .shutdown]) :
    Told start w' := by
  have htoggles : w'.sent.filterMap Event.toggled? = w.sent.filterMap Event.toggled? := by
    rw [hsent, List.filterMap_append, hother, List.append_nil]
  exact ⟨htoggles ▸ h.toggles, by rw [htoggles, h.last, hstatus], hended⟩

theorem Told.toggle (h : Told start w) {stage : Stage (StateM Machine)} {machine : Machine}
    {history : List Moment} {request : Option MonitorStatus} (hstage : stage ≠ .done)
    (hkept : (w.daemon.answered request).mailbox.dropped = w.daemon.mailbox.dropped) :
    Told start ⟨stage, w.daemon.answered request, machine, history, w.collected⟩ := by
  obtain ⟨events, hmailbox, hevents⟩ := w.daemon.answered_mailbox request
  have hsent : sent ⟨stage, w.daemon.answered request, machine, history, w.collected⟩ =
      w.sent ++ events := sent_eq_append rfl hmailbox hkept
  rcases hevents with ⟨rfl, hsame⟩ | ⟨rfl, hchanged⟩
  · exact h.of_append hsent rfl hsame fun hdone => absurd hdone hstage
  · have hlast := h.last
    have htoggles := h.toggles
    refine ⟨?_, ?_, fun hdone => absurd hdone hstage⟩
    · -- the status told last is the one before, and there are only two
      rw [hsent, List.filterMap_append]
      refine htoggles.concat (by cases start <;> decide) ?_
      rw [hlast]
      revert hchanged
      generalize (w.daemon.answered request).monitor.status = status
      cases start <;> cases status <;> cases w.daemon.monitor.status <;> decide
    · rw [hsent, List.filterMap_append]
      exact congrArg (·.getD start.name) List.getLast?_concat

theorem Told.advance (hsound : Sound start w) (h : Told start w)
    (hkept : w.advance.daemon.mailbox.dropped = w.daemon.mailbox.dropped) :
    Told start w.advance := by
  have hadvanced := advanced hsound.arrivals hsound.left
  generalize w.advance = w' at hadvanced hkept ⊢
  cases hadvanced with
  | @pass moment stage daemon machine hstage hdaemon _ _ =>
      obtain ⟨events, hmailbox, hother⟩ := hdaemon.mailbox
      exact h.of_append (sent_eq_append rfl hmailbox hkept) hother hdaemon.status
        fun hdone => absurd hdone hstage.ne_done
  | @toggle stage machine hstage _ =>
      refine h.toggle ?_ hkept
      obtain ⟨-, rfl⟩ | ⟨_, _, -, rfl⟩ := hstage <;> exact nofun
  | @retire seconds machine _ _ =>
      have hsent : sent { w with
          stage := .done
          daemon := { w.daemon with
            mailbox := (w.daemon.mailbox.send (.daemonStopped "signal" seconds)).close }
          machine } = w.sent ++ [.daemonStopped "signal" seconds, .shutdown] := by
        have hsend := @Mailbox.foldl_send_of_dropped_eq [.daemonStopped "signal" seconds] _ hkept
        have hclose := congrArg (fun b => w.collected ++ b.close.waiting) hsend
        exact hclose.trans (by simp [Mailbox.close, sent])
      exact h.of_append hsent rfl rfl fun _ => ⟨_, _, hsent⟩
  | @head isEnd _ _ _ _ =>
      refine h.of_append (List.append_nil _).symm rfl rfl ?_
      cases isEnd <;> exact nofun
  | @reload isAsked _ _ _ _ =>
      refine h.of_append (List.append_nil _).symm rfl rfl ?_
      cases isAsked <;> exact nofun
  | @wait _ _ isEnd _ _ _ _ =>
      refine h.of_append (List.append_nil _).symm rfl rfl ?_
      cases isEnd <;> exact nofun
  | done _ => exact h

theorem Told.after (hsound : Sound start w) (h : Told start w) (move : Move)
    (hkept : (w.after move).daemon.mailbox.dropped = w.daemon.mailbox.dropped) :
    Told start (w.after move) := by
  cases move with
  | advance => exact h.advance hsound hkept
  | request signal => exact { h with }
  | collect count =>
      have hsent : (w.after (.collect count)).sent = w.sent ++ [] := by
        rw [List.append_nil]
        exact (List.append_assoc ..).trans (congrArg _ (List.take_append_drop ..))
      exact h.of_append hsent rfl rfl fun hdone => by
        rw [hsent, List.append_nil]
        exact h.ended hdone
  | elsewhere machine => exact { h with }

theorem Told.run (hsound : Sound start w) (h : Told start w) {moves : List Move}
    (hkept : (w.run moves).daemon.mailbox.dropped = w.daemon.mailbox.dropped) :
    Told start (w.run moves) := by
  induction moves generalizing w with
  | nil => exact h
  | cons move rest ih =>
      -- what is lost stays counted, so nothing was lost in the first move
      have hfirst := hsound.dropped_le_after move
      have hrest := (hsound.after move).dropped_le_run rest
      change ((w.after move).run rest).daemon.mailbox.dropped = _ at hkept
      exact ih (hsound.after move) (h.after hsound move (by omega)) (by omega)

/-- A machine on which nothing can be written. -/
def fullMachine : Machine := { blank with upsets := fun _ _ => some ⟨.noSpace, 0, false⟩ }

/-- A source whose backlog stays the same. -/
def steadySource (queue : String) : Source (StateM Machine) := ⟨queue, pure (.ok ⟨0, 7⟩)⟩

/-- A daemon that watches a steady backlog. -/
def attentive : Daemon (StateM Machine) :=
  Daemon.fresh Daemon.briskSession ⟨true, briskSettings, .empty, .pending true⟩
    [steadySource "orders"] ⟨0⟩ 0

end World

end Backlog
