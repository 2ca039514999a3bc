import Backlog.Proofs.Service.Acts
import Mathlib.Logic.Relation

/-!
# The loop of a daemon, step by step

Requests reach a running daemon at any point: between a look at the signals and the act it
leads to, while a source is asked, between two slices of a wait.  To speak of such points the
loop is cut into stages.  `Stage.step` does what the daemon does at one stage, with the
functions of the daemon itself, and says where it goes on.

Nothing is lost by the cut: when the steps follow on each other without a break, they lead
where `Daemon.prepare`, `Daemon.tick` and `Daemon.rest` lead (`leads_turn`).
-/

namespace Backlog.Loop

/-- What happens while a daemon runs, as far as requests are concerned. -/
inductive Moment where
  /-- A request comes in. -/
  | request (signal : Signal)
  /-- The daemon stands at the head of its loop, and sees whether it is to end. -/
  | head (isEnd : Bool)
  /-- The daemon sees whether the settings are to be loaded again. -/
  | reload (isAsked : Bool)
  /-- The daemon loads its settings. -/
  | load
  /-- The daemon answers the requests about the check, and leaves it in a status. -/
  | toggle (status : MonitorStatus)
  /-- A round begins. -/
  | tick
  deriving DecidableEq, Repr

/-- Where in its loop a daemon stands. -/
inductive Stage (m : Type → Type) where
  | announce
  | head
  | reload
  | load
  | toggle
  | tick
  /-- In a round: the sources not asked yet, and the readings so far. -/
  | sample (left : List (Source m)) (readings : List Reading)
  | rest
  /-- In a wait: until when, and for how many slices at most. -/
  | wait (deadline slices : Nat)
  | answer (deadline slices : Nat)
  | pause (deadline slices : Nat)
  | retire
  | done

variable {m : Type → Type} [Monad m] [Host m]

/-- What a daemon does at a stage: what is to be noted about it, and where the daemon stands
afterwards. -/
def Stage.step : Stage m → Daemon m → m (Option Moment × Stage m × Daemon m)
  | .announce, d => do return (none, .head, ← d.announce)
  | .head, d => do
    if ← Requests.shouldShutdown then
      Daemon.say (m := m) "shutdown requested"
      return (some (.head true), .retire, d)
    else return (some (.head false), .reload, d)
  | .reload, d => do
    let isAsked ← Requests.takeReload
    return (some (.reload isAsked), if isAsked then .load else .toggle, d)
  | .load, d => do return (some .load, .toggle, ← d.reload)
  | .toggle, d => do
    let (_, d) ← d.applyToggle
    return (some (.toggle d.monitor.status), .tick, d)
  | .tick, d => return (some .tick, .sample d.sources [], d)
  | .sample (source :: left) readings, d => do
    let reading ← source.read
    return (none, .sample left (readings ++ [reading]), d)
  | .sample [] readings, d => do
    let d ← Daemon.tell { d with monitor := d.monitor.check readings, ticks := d.ticks + 1 }
    return (none, .rest, ← d.persist)
  | .rest, d => do
    let now ← Host.uptime
    let interval := d.settings.monitor.pollIntervalMs
    return (none, .wait (now + interval) (interval / Daemon.slice + 2), d)
  | .wait _ 0, d => return (none, .head, d)
  | .wait deadline (slices + 1), d => do
    if ← Requests.shouldShutdown then return (none, .head, d)
    else return (none, .answer deadline slices, d)
  | .answer deadline slices, d => do
    let (_, d) ← d.applyToggle
    return (some (.toggle d.monitor.status), .pause deadline slices, d)
  | .pause deadline slices, d => do
    let now ← Host.uptime
    if deadline ≤ now then return (none, .head, d)
    else
      Host.sleep (min Daemon.slice (deadline - now))
      return (none, .wait deadline slices, d)
  | .retire, d => do return (none, .done, ← d.retire "signal")
  | .done, d => return (none, .done, d)

/-! ## Steps without a break -/

section

variable {σ : Type} [Host (StateM σ)]

/-- A daemon at a stage, on a system in some state. -/
abbrev Point (σ : Type) := (Stage (StateM σ) × Daemon (StateM σ)) × σ

/-- One step. -/
def next (here : Point σ) : Point σ :=
  let after := here.1.1.step here.1.2 here.2
  (after.1.2, after.2)

/-- Steps without a break. -/
def Leads : Point σ → Point σ → Prop := Relation.ReflTransGen fun a b => next a = b

theorem Leads.step {here there : Point σ} (h : Leads (next here) there) : Leads here there :=
  .head rfl h

theorem Leads.trans {a b c : Point σ} (h : Leads a b) (h' : Leads b c) : Leads a c :=
  Relation.ReflTransGen.trans h h'

variable (d : Daemon (StateM σ)) (s : σ)

theorem leads_prepare :
    Leads ((.head, d), s)
      (match d.prepare s with
      | (none, s) => ((.retire, d), s)
      | (some d, s) => ((.tick, d), s)) := by
  apply Leads.step
  simp only [Daemon.prepare, next, Stage.step, StateM.bind_apply]
  cases (Requests.shouldShutdown (m := StateM σ) s).1 with
  | true => exact .refl
  | false =>
      apply Leads.step
      simp only [Bool.false_eq_true, if_false, next, Stage.step, StateM.bind_apply,
        StateM.pure_apply]
      cases (Requests.takeReload (m := StateM σ)
        (Requests.shouldShutdown (m := StateM σ) s).2).1 with
      | true => exact .step (.step .refl)
      | false => exact .step .refl

/-- Asking the sources one by one leads through the readings of the round. -/
theorem leads_sample (left : List (Source (StateM σ))) (readings : List Reading) (s : σ) :
    Leads ((.sample left readings, d), s)
      ((.sample [] (readings ++ (left.mapM Source.read s).1), d), (left.mapM Source.read s).2) := by
  induction left generalizing readings s with
  | nil =>
      rw [List.mapM_nil, StateM.pure_apply, List.append_nil]
      exact .refl
  | cons source rest ih =>
      apply Leads.step
      rw [List.mapM_cons]
      have hrest := ih (readings ++ [(source.read s).1]) (source.read s).2
      rw [List.append_assoc] at hrest
      exact hrest

theorem leads_tick : Leads ((.tick, d), s) ((.rest, (d.tick s).1), (d.tick s).2) :=
  .step ((leads_sample d d.sources [] s).trans (.step .refl))

theorem leads_restUntil (deadline slices : Nat) (d : Daemon (StateM σ)) (s : σ) :
    Leads ((.wait deadline slices, d), s)
      ((.head, (d.restUntil deadline slices s).1), (d.restUntil deadline slices s).2) := by
  induction slices generalizing d s with
  | zero => exact .step .refl
  | succ slices ih =>
      apply Leads.step
      simp only [Daemon.restUntil, next, Stage.step, StateM.bind_apply]
      cases (Requests.shouldShutdown (m := StateM σ) s).1 with
      | true => exact .refl
      | false =>
          apply Leads.step
          apply Leads.step
          simp only [Bool.false_eq_true, if_false, next, Stage.step, StateM.bind_apply,
            StateM.pure_apply]
          split
          · exact .refl
          · exact ih _ _

theorem leads_rest : Leads ((.rest, d), s) ((.head, (d.rest s).1), (d.rest s).2) :=
  .step (leads_restUntil _ _ _ _)

/-- **The stages are the loop.**  From its head, steps that follow on each other lead to the
end if the daemon is to end; else they lead through the requests, a round and a wait back to
the head, with the daemon and the system as the functions of the daemon leave them. -/
theorem leads_turn :
    Leads ((.head, d), s)
      (match d.prepare s with
      | (none, s) => ((.retire, d), s)
      | (some d, s) =>
        ((.head, ((d.tick >>= Daemon.rest) s).1), ((d.tick >>= Daemon.rest) s).2)) := by
  have hprepare := leads_prepare d s
  generalize d.prepare s = prepared at hprepare ⊢
  obtain ⟨after, s⟩ := prepared
  cases after with
  | none => exact hprepare
  | some d => exact hprepare.trans ((leads_tick d s).trans (leads_rest _ _))

end

end Backlog.Loop
