import Backlog.Proofs.Service.Loop
import Mathlib.Data.Prod.Lex

/-!
# The history of a run

A history tells when requests came in and what the daemon did, the latest first.  From it alone
it can be read which requests wait (`pending`), and so what each look at them has to find
(`Moment.Finds`); a history in which every look finds that, and every act goes on from the one
before it, is `Lawful`.

The second part relates the stages of the loop to histories.  Most steps pass without a look at
the requests (`Stage.Passes`); they change nothing that can be read off a history but what the
daemon did last.
-/

namespace Backlog.Loop

/-! ## Reading a history -/

/-- Whether a request is taken at a moment. -/
def Moment.takes : Moment → Signal → Bool
  | .reload _, .reload => true
  | .toggle _, .activate => true
  | .toggle _, .deactivate => true
  | _, _ => false

/-- Whether a request has come in that was not taken since.  Histories stand with the latest
moment first. -/
def pending (signal : Signal) : List Moment → Bool
  | [] => false
  | moment :: earlier =>
    !moment.takes signal && (moment == .request signal || pending signal earlier)

/-- The status that the pending requests ask for; to deactivate wins. -/
def askedStatus (history : List Moment) : Option MonitorStatus :=
  if pending .deactivate history then some .deactivated
  else if pending .activate history then some .active
  else none

/-- The status in which the check was left last. -/
def statusAfter (start : MonitorStatus) : List Moment → MonitorStatus
  | [] => start
  | .toggle status :: _ => status
  | _ :: earlier => statusAfter start earlier

/-- What the daemon itself did last. -/
def lastAct : List Moment → Option Moment
  | [] => none
  | .request _ :: earlier => lastAct earlier
  | act :: _ => some act

/-- What the daemon may do next after what it did last.  Requests come in at any time. -/
def goesOn : Option Moment → Moment → Bool
  | _, .request _ => true
  | none, .head _ => true
  | some (.head false), .reload _ => true
  | some (.reload true), .load => true
  | some (.reload false), .toggle _ => true
  | some .load, .toggle _ => true
  | some (.toggle _), .tick => true
  | some (.toggle _), .toggle _ => true
  | some (.toggle _), .head _ => true
  | some .tick, .toggle _ => true
  | some .tick, .head _ => true
  | _, _ => false

/-- What a look at the requests has to find after some history, and the status in which
answering them has to leave the check. -/
def Moment.Finds (start : MonitorStatus) (earlier : List Moment) : Moment → Prop
  | .head isEnd => isEnd = pending .shutdown earlier
  | .reload isAsked => isAsked = pending .reload earlier
  | .toggle status => status = (askedStatus earlier).getD (statusAfter start earlier)
  | _ => True

/-- The law of the loop: every moment goes on from those before it, and finds what they
left. -/
def Lawful (start : MonitorStatus) : List Moment → Prop
  | [] => True
  | moment :: earlier =>
    (goesOn (lastAct earlier) moment = true ∧ moment.Finds start earlier) ∧ Lawful start earlier

theorem pending_shutdown {history : List Moment} :
    pending .shutdown history = true ↔ .request .shutdown ∈ history := by
  induction history with
  | nil => simp [pending]
  | cons moment earlier ih =>
      -- no look takes this request away
      have htakes : moment.takes .shutdown = false := by cases moment <;> rfl
      rw [pending, htakes, Bool.not_false, Bool.true_and, Bool.or_eq_true, beq_iff_eq, ih,
        List.mem_cons, eq_comm]

theorem goesOn_request (last : Option Moment) (signal : Signal) :
    goesOn last (.request signal) = true := by
  unfold goesOn
  rfl

/-! ## Stages and histories -/

/-- The sources that a round has still to ask. -/
def Stage.left {m : Type → Type} : Stage m → List (Source m)
  | .sample left _ => left
  | _ => []

/-- The steps at which nobody looks at the requests. -/
inductive Stage.Passes {m : Type → Type} : Stage m → Option Moment → Stage m → Prop
  | announce : Passes .announce none .head
  | load : Passes .load (some .load) .toggle
  | tick {sources : List (Source m)} : Passes .tick (some .tick) (.sample sources [])
  | sample {source : Source m} {left : List (Source m)} {readings readings' : List Reading} :
      Passes (.sample (source :: left) readings) none (.sample left readings')
  | check {readings : List Reading} : Passes (.sample [] readings) none .rest
  | rest {deadline slices : Nat} : Passes .rest none (.wait deadline slices)
  | late {deadline : Nat} : Passes (.wait deadline 0) none .head
  | rested {deadline slices : Nat} : Passes (.pause deadline slices) none .head
  | slept {deadline slices : Nat} :
      Passes (.pause deadline slices) none (.wait deadline slices)

/-- Where a daemon stands after what it did last. -/
def Stage.Follows {m : Type → Type} (last : Option Moment) : Stage m → Prop
  | .announce => last = none
  | .head => last = none ∨ last = some .tick ∨ ∃ status, last = some (.toggle status)
  | .reload => last = some (.head false)
  | .load => last = some (.reload true)
  | .toggle => last = some (.reload false) ∨ last = some .load
  | .tick => ∃ status, last = some (.toggle status)
  | .sample _ _ => last = some .tick
  | .rest => last = some .tick
  | .wait _ _ => last = some .tick ∨ ∃ status, last = some (.toggle status)
  | .answer _ _ => last = some .tick ∨ ∃ status, last = some (.toggle status)
  | .pause _ _ => ∃ status, last = some (.toggle status)
  | .retire => last = some (.head true)
  | .done => last = some (.head true)

/-- How many rounds begin before the daemon stands at the head of its loop again. -/
def Stage.owed {m : Type → Type} : Stage m → Nat
  | .reload => 1
  | .load => 1
  | .toggle => 1
  | .tick => 1
  | _ => 0

namespace Stage.Passes

variable {m : Type → Type} {stage stage' : Stage m} {moment : Option Moment}
  {history : List Moment}

theorem pending (h : stage.Passes moment stage') (signal : Signal) :
    pending signal (moment.toList ++ history) = Loop.pending signal history := by
  cases h <;> cases signal <;> rfl

theorem statusAfter (h : stage.Passes moment stage') (start : MonitorStatus) :
    statusAfter start (moment.toList ++ history) = Loop.statusAfter start history := by
  cases h <;> rfl

theorem follows (h : stage.Passes moment stage') (hplace : stage.Follows (lastAct history)) :
    stage'.Follows (lastAct (moment.toList ++ history)) := by
  cases h with
  | announce => exact .inl hplace
  | load => exact .inr rfl
  | tick => rfl
  | sample => exact hplace
  | check => exact hplace
  | rest => exact .inl hplace
  | late => exact .inr hplace
  | rested => exact .inr (.inr hplace)
  | slept => exact .inr hplace

theorem lawful {start : MonitorStatus} (h : stage.Passes moment stage')
    (hplace : stage.Follows (lastAct history)) (hlawful : Lawful start history) :
    Lawful start (moment.toList ++ history) := by
  cases h with
  | load =>
      have hlast : lastAct history = some (.reload true) := hplace
      exact ⟨⟨congrArg (goesOn · .load) hlast, trivial⟩, hlawful⟩
  | tick =>
      obtain ⟨status, hlast⟩ : ∃ status, lastAct history = some (.toggle status) := hplace
      exact ⟨⟨congrArg (goesOn · .tick) hlast, trivial⟩, hlawful⟩
  | _ => exact hlawful

theorem not_request (h : stage.Passes moment stage') (signal : Signal) :
    .request signal ∉ moment.toList := by
  cases h <;> simp

theorem ne_done (h : stage.Passes moment stage') : stage' ≠ .done := by
  cases h <;> exact nofun

theorem owed (h : stage.Passes moment stage') :
    moment.toList.count .tick + stage'.owed ≤ stage.owed := by
  cases h <;> simp [Stage.owed]

end Stage.Passes

end Backlog.Loop
