import Backlog.Proofs.Activity.Fallback

/-!
# The way down

A writer stands on one of four stages: it writes to its first file, to the fallback file or to the
error stream, or it drops its lines.  Whatever the system refuses, a call never takes it back to an
earlier stage, except for the call that asks for just this (`LogWriter.tryRecover`), and that one
goes to the first stage or leaves the writer as it is.

A line is tried again after each step down, and a try may put the file aside first.  `Finishes` says
so without any bound on the number of tries.  There are three of them at most: a try leaves a line
to another one only on a file (`yields_attempt`), and each step down leaves a file for good
(`yields_degrade`).  So the bound that `LogWriter.writeLine` counts down is never felt.
-/

namespace Backlog

section

variable {σ α β : Type} {P : α → Prop} {Q : β → Prop}

/-- The result of a computation has a property, whatever the computation finds. -/
def Yields (P : α → Prop) (x : StateM σ α) : Prop := ∀ s : σ, P (x s).1

theorem Yields.pure {a : α} (h : P a) : Yields P (Pure.pure a : StateM σ α) := fun _ => h

theorem Yields.bind {x : StateM σ α} {f : α → StateM σ β} (hx : Yields P x)
    (hf : ∀ a, P a → Yields Q (f a)) : Yields Q (x >>= f) := fun s => hf (x s).1 (hx s) (x s).2

/-- A first step whose result says nothing. -/
theorem Yields.after {x : StateM σ α} {f : α → StateM σ β} (hf : ∀ a, Yields Q (f a)) :
    Yields Q (x >>= f) := fun s => hf (x s).1 (x s).2

theorem Yields.of_eq {x : StateM σ α} {s s' : σ} {a : α} (h : Yields P x) (heq : x s = (a, s')) :
    P a := by
  have hfirst := h s
  rwa [heq] at hfirst

end

namespace LogWriter

/-! ## Stages -/

/-- The stages of a writer, from the first one to the last. -/
def stages : List String := ["normal", "fallback", "stderr", "discard"]

/-- How many stages a writer has left behind. -/
def depth {F : Type} (w : LogWriter F) : Nat := stages.idxOf w.state

section

variable {F : Type} {settings settings' : LogSettings} {b b' : BufferedFile F} {path path' : String}
  {bytes bytes' : Nat} {lastSync lastSync' : Instant} {isFallback : Bool} {w : LogWriter F}

@[simp] theorem depth_file :
    depth ⟨settings, .file b path bytes isFallback, lastSync⟩ = isFallback.toNat := by
  cases isFallback <;> rfl

@[simp] theorem depth_errorStream :
    depth (F := F) ⟨settings, .errorStream, lastSync⟩ = 2 := rfl

@[simp] theorem depth_discard : depth (F := F) ⟨settings, .discard, lastSync⟩ = 3 := rfl

/-- A writer on the first stage is on its first file. -/
theorem state_eq_normal_iff :
    w.state = "normal" ↔ ∃ b path bytes, w.sink = .file b path bytes false := by
  obtain ⟨settings, sink, lastSync⟩ := w
  cases sink with
  | file b path bytes isFallback => cases isFallback <;> simp [state]
  | errorStream => simp [state]
  | discard => simp [state]

end

variable {σ : Type} [Host (StateM σ)] {w w' : LogWriter (Host.File (StateM σ))}
  {s s' : σ} {line : String}

/-- A call leaves the writer on its stage. -/
def Stays (w : LogWriter (Host.File (StateM σ)))
    (call : StateM σ (LogWriter (Host.File (StateM σ)))) : Prop :=
  Yields (fun w' => w'.depth = w.depth) call

/-- A call leaves the writer on its stage or on a later one. -/
def Descends (w : LogWriter (Host.File (StateM σ)))
    (call : StateM σ (LogWriter (Host.File (StateM σ)))) : Prop :=
  Yields (fun w' => w.depth ≤ w'.depth) call

theorem Stays.descends {call : StateM σ (LogWriter (Host.File (StateM σ)))} (h : Stays w call) :
    Descends w call := fun s => Nat.le_of_eq (h s).symm

/-! ## Calls that stay on their stage -/

theorem stays_flush (w : LogWriter (Host.File (StateM σ))) : Stays w w.flush := by
  obtain ⟨settings, sink, lastSync⟩ := w
  cases sink with
  | file b path bytes isFallback => exact fun s => by cases isFallback <;> rfl
  | errorStream => exact .pure rfl
  | discard => exact .pure rfl

theorem stays_sync (w : LogWriter (Host.File (StateM σ))) : Stays w w.sync := by
  refine .bind (stays_flush w) fun flushed hflushed => ?_
  rw [← hflushed]
  obtain ⟨settings, sink, lastSync⟩ := flushed
  cases sink with
  | file b path bytes isFallback => exact .after fun _ => .after fun now => .pure rfl
  | errorStream => exact .after fun now => .pure rfl
  | discard => exact .after fun now => .pure rfl

theorem stays_syncIfDue (w : LogWriter (Host.File (StateM σ))) : Stays w w.syncIfDue := by
  refine .after fun now => ?_
  dsimp only
  split
  · exact stays_sync w
  · exact .pure rfl

/-! ## Calls that step down -/

theorem yields_openSink (path : String) (isFallback : Bool) :
    Yields (fun opened : Option (LogSink (Host.File (StateM σ))) => ∀ sink ∈ opened,
      ∃ b bytes, sink = .file b path bytes isFallback) (openSink path isFallback) := by
  have hopen {goOn : Except IoFault (Host.File (StateM σ) × Nat) →
        StateM σ (Option (LogSink (Host.File (StateM σ))))}
      (hfailed : ∀ fault, goOn (.error fault) = pure none)
      (hopened : ∀ file size,
        goOn (.ok (file, size)) = pure (some (.file ⟨file, .empty⟩ path size isFallback))) :
      Yields (fun opened => ∀ sink ∈ opened, ∃ b bytes, sink = .file b path bytes isFallback)
        (Host.openAppend path >>= goOn) := by
    refine .after fun opened => ?_
    cases opened with
    | error fault => exact hfailed fault ▸ .pure nofun
    | ok opened =>
        rw [hopened]
        refine .pure fun sink hsink => ?_
        cases hsink
        exact ⟨_, _, rfl⟩
  unfold openSink
  dsimp only
  -- without a directory to create there is nothing that fails before the opening
  cases Path.parent? path
  all_goals
    refine .after fun made => ?_
    cases made with
    | error fault => exact .pure nofun
    | ok made => exact hopen (fun _ => rfl) fun _ _ => rfl

theorem yields_openFallback (settings : LogSettings) :
    Yields (fun opened : Option (LogSink (Host.File (StateM σ))) => ∀ sink ∈ opened,
      ∃ b path bytes, sink = .file b path bytes true) (openFallback settings) := by
  unfold openFallback
  cases settings.fallback with
  | none => exact .pure nofun
  | some path =>
      intro s sink hsink
      obtain ⟨b, bytes, rfl⟩ := yields_openSink path true s sink hsink
      exact ⟨b, path, bytes, rfl⟩

/-- A step down from a file does not lead back. -/
theorem yields_degrade (w : LogWriter (Host.File (StateM σ))) (hfile : w.depth ≤ 1) :
    Yields (fun w' : LogWriter (Host.File (StateM σ)) => w.depth < w'.depth) w.degrade := by
  obtain ⟨settings, sink, lastSync⟩ := w
  have hleave (next : LogSink (Host.File (StateM σ)))
      (hnext : depth ⟨settings, sink, lastSync⟩ < depth ⟨settings, next, lastSync⟩) :
      Yields (fun w' => depth ⟨settings, sink, lastSync⟩ < depth w')
        (Host.warn (mark ++ "write failed, degrading") >>= fun _ => close sink >>= fun _ =>
          pure (⟨settings, next, lastSync⟩ : LogWriter (Host.File (StateM σ)))) :=
    .after fun _ => .after fun _ => .pure hnext
  cases sink with
  | file b path bytes isFallback =>
      cases isFallback with
      | true => exact hleave .errorStream (by simp)
      | false =>
          refine .bind (yields_openFallback settings) fun opened hopened => ?_
          cases opened with
          | none => exact hleave .errorStream (by simp)
          | some next =>
              obtain ⟨b', path', bytes', rfl⟩ := hopened next rfl
              exact hleave _ (by simp)
  | errorStream => simp at hfile
  | discard => simp at hfile

/-- A file that is put aside is followed by another one at its path, or by the error stream. -/
theorem descends_rotate (w : LogWriter (Host.File (StateM σ))) : Descends w w.rotate := by
  refine .bind (stays_flush w) fun flushed hflushed => ?_
  rw [← hflushed]
  obtain ⟨settings, sink, lastSync⟩ := flushed
  cases sink with
  | file b path bytes isFallback =>
      refine .after fun _ => .after fun _ => .after fun _ => .after fun _ => ?_
      refine .bind (yields_openSink path isFallback) fun opened hopened => ?_
      cases opened with
      | some next =>
          obtain ⟨b', bytes', rfl⟩ := hopened next rfl
          exact .pure (by simp)
      | none => exact .after fun _ => .pure (by cases isFallback <;> simp)
  | errorStream => exact .pure (Nat.le_refl _)
  | discard => exact .pure (Nat.le_refl _)

theorem descends_rotateIfDue (w : LogWriter (Host.File (StateM σ))) (size : Nat) :
    Descends w (w.rotateIfDue size) := by
  unfold rotateIfDue
  split
  · split
    · exact descends_rotate w
    · exact .pure (Nat.le_refl _)
  · exact .pure (Nat.le_refl _)

/-! ## Writing a line -/

/-- A try leaves the line to another one only on a file. -/
theorem yields_attempt (w : LogWriter (Host.File (StateM σ))) (line : String) :
    Yields (fun tried : Bool × LogWriter (Host.File (StateM σ)) => w.depth ≤ tried.2.depth ∧
      (tried.1 = false → tried.2.depth ≤ 1)) (w.attempt line) := by
  refine .bind (descends_rotateIfDue w line.utf8ByteSize) fun rotated hrotated => ?_
  obtain ⟨settings, sink, lastSync⟩ := rotated
  cases sink with
  | file b path bytes isFallback =>
      rw [depth_file] at hrotated
      refine .after fun answer => ?_
      obtain ⟨isWritten, b'⟩ := answer
      cases isWritten with
      | true =>
          refine .bind (stays_syncIfDue _) fun synced hsynced => .pure ⟨?_, nofun⟩
          rw [hsynced, depth_file]
          exact hrotated
      | false =>
          refine .pure ⟨?_, fun _ => ?_⟩
          · rw [depth_file]
            exact hrotated
          · rw [depth_file]
            cases isFallback <;> decide
  | errorStream =>
      refine .after fun isPrinted => ?_
      cases isPrinted with
      | true => exact .pure ⟨hrotated, nofun⟩
      | false => exact .pure ⟨Nat.le_succ_of_le hrotated, nofun⟩
  | discard => exact .pure ⟨hrotated, nofun⟩

/-- A line is written by tries and steps down in turn: the last try is done with the line, and all
others leave it to the next one.  The number is that of the steps. -/
inductive Finishes (line : String) : LogWriter (Host.File (StateM σ)) → σ → Nat →
    LogWriter (Host.File (StateM σ)) → σ → Prop
  | done {w w' : LogWriter (Host.File (StateM σ))} {s s' : σ}
      (htry : attempt (m := StateM σ) w line s = ((true, w'), s')) : Finishes line w s 0 w' s'
  | again {w w₁ w₂ w' : LogWriter (Host.File (StateM σ))} {s s₁ s₂ s' : σ} {steps : Nat}
      (htry : attempt (m := StateM σ) w line s = ((false, w₁), s₁))
      (hdown : degrade (m := StateM σ) w₁ s₁ = (w₂, s₂))
      (hrest : Finishes line w₂ s₂ steps w' s') : Finishes line w s (steps + 1) w' s'

/-- The files that are left to step down from bound the steps. -/
theorem exists_finishes {files : Nat} (line : String) (w : LogWriter (Host.File (StateM σ)))
    (s : σ) (hfiles : fileCount ≤ w.depth + files) :
    ∃ steps ≤ files, ∃ w' s', Finishes line w s steps w' s' := by
  induction files using Nat.strongRecOn generalizing w s with
  | ind files ih =>
    cases htry : attempt (m := StateM σ) w line s with
    | mk tried s₁ =>
        obtain ⟨isDone, w₁⟩ := tried
        obtain ⟨hle, hfile⟩ :
            w.depth ≤ w₁.depth ∧ (isDone = false → w₁.depth ≤ 1) :=
          (yields_attempt w line).of_eq htry
        cases isDone with
        | true => exact ⟨0, Nat.zero_le _, w₁, s₁, .done htry⟩
        | false =>
            cases hdown : degrade (m := StateM σ) w₁ s₁ with
            | mk w₂ s₂ =>
                -- the line was left to another try on a file, and this file is left behind now
                have hbelow := hfile rfl
                have hlt : w₁.depth < w₂.depth := (yields_degrade w₁ hbelow).of_eq hdown
                unfold fileCount at *
                obtain ⟨steps, hsteps, w', s', hrest⟩ :=
                  ih (files - 1) (by omega) w₂ s₂ (by omega)
                exact ⟨steps + 1, by omega, w', s', .again htry hdown hrest⟩

/-- A bound on the steps does not show where it suffices. -/
theorem Finishes.writeLine {steps most : Nat} (h : Finishes line w s steps w' s')
    (hmost : steps ≤ most) : writeLine (m := StateM σ) line most w s = (w', s') := by
  induction h generalizing most with
  | done htry =>
      cases most <;> rw [LogWriter.writeLine, StateM.bind_apply, htry] <;> rfl
  | again htry hdown _ ih =>
      obtain ⟨most, rfl⟩ := Nat.exists_eq_add_of_le' (Nat.le_of_add_left_le hmost)
      rw [LogWriter.writeLine, StateM.bind_apply, htry]
      dsimp only
      rw [StateM.bind_apply, hdown]
      exact ih (by omega)

theorem Finishes.depth_le {steps : Nat} (h : Finishes line w s steps w' s') :
    w.depth ≤ w'.depth := by
  induction h with
  | done htry => exact ((yields_attempt _ _).of_eq htry).1
  | again htry hdown _ ih =>
      obtain ⟨hle, hfile⟩ := (yields_attempt _ _).of_eq htry
      have hlt := (yields_degrade _ (hfile rfl)).of_eq hdown
      omega

theorem exists_writeLine (line : String) (w : LogWriter (Host.File (StateM σ))) (s : σ) :
    ∃ steps ≤ fileCount, ∃ w' s', Finishes line w s steps w' s' ∧
      ∀ most, fileCount ≤ most → LogWriter.writeLine (m := StateM σ) line most w s = (w', s') := by
  obtain ⟨steps, hsteps, w', s', hfinishes⟩ := exists_finishes line w s (Nat.le_add_left _ _)
  refine ⟨steps, hsteps, w', s', hfinishes, fun most hmost => ?_⟩
  exact hfinishes.writeLine (Nat.le_trans hsteps hmost)

/-! ## Calls in a row -/

theorem descends_serve (w : LogWriter (Host.File (StateM σ))) {call : Call}
    (hcall : call ≠ .recover) : Descends w (serve w call) := by
  intro s
  cases call with
  | write entry =>
      obtain ⟨_, _, w', s', hfinishes, hwrites⟩ := exists_writeLine (entry.line ++ "\n") w s
      change w.depth ≤ (writeLine (m := StateM σ) (entry.line ++ "\n") fileCount w s).1.depth
      rw [hwrites fileCount (Nat.le_refl _)]
      exact hfinishes.depth_le
  | flush => exact (stays_flush w).descends s
  | sync => exact (stays_sync w).descends s
  | recover => exact absurd rfl hcall

theorem descends_calls (w : LogWriter (Host.File (StateM σ))) {calls : List Call}
    (hcalls : .recover ∉ calls) : Descends w (calls.foldlM serve w) := by
  induction calls generalizing w with
  | nil => exact .pure (Nat.le_refl _)
  | cons call calls ih =>
      rw [List.mem_cons, not_or] at hcalls
      rw [List.foldlM_cons]
      refine .bind (descends_serve w (Ne.symm hcalls.1)) fun w₁ hle => fun s => ?_
      exact Nat.le_trans hle (ih w₁ hcalls.2 s)

/-! ## The way back -/

theorem tryRecover_of_normal (h : w.state = "normal") (s : σ) :
    w.tryRecover (m := StateM σ) s = (w, s) := by
  obtain ⟨settings, sink, lastSync⟩ := w
  obtain ⟨b, path, bytes, rfl⟩ := state_eq_normal_iff.1 h
  rfl

/-- A writer that is not on its first file asks for this file. -/
theorem tryRecover_of_below (h : w.state ≠ "normal") :
    ∃ goOn, w.tryRecover (m := StateM σ) = openSink w.settings.path false >>= goOn ∧
      goOn none = pure w ∧ ∀ sink, goOn (some sink) =
        (w.flush >>= fun w => close w.sink >>= fun _ =>
          Host.warn (mark ++ "recovered to primary path: " ++ w.settings.path) >>= fun _ =>
          pure { w with sink }) := by
  obtain ⟨settings, sink, lastSync⟩ := w
  cases sink with
  | file b path bytes isFallback =>
      cases isFallback with
      | false => exact absurd rfl h
      | true => exact ⟨_, rfl, rfl, fun _ => rfl⟩
  | errorStream => exact ⟨_, rfl, rfl, fun _ => rfl⟩
  | discard => exact ⟨_, rfl, rfl, fun _ => rfl⟩

/-- **A writer only steps down, and it comes to an end.**  Whatever the system answers,

* writing a line takes two steps down at most, though nothing in it counts them (`Finishes`), so
  the bound of `writeLine` never shows;
* no row of calls in which the writer is not asked to go back takes it to an earlier stage;
* asked to go back, a writer on the first stage does nothing, any other one goes to the first stage
  if its first file can be opened, and if not, then nothing has happened but this attempt. -/
theorem steps_down_only (w : LogWriter (Host.File (StateM σ))) (s : σ) :
    (∀ line, ∃ steps ≤ 2, ∃ w' s', Finishes line w s steps w' s' ∧
      ∀ most, fileCount ≤ most → writeLine (m := StateM σ) line most w s = (w', s')) ∧
    (∀ calls : List Call, .recover ∉ calls →
      w.depth ≤ (calls.foldlM (m := StateM σ) serve w s).1.depth) ∧
    (w.state = "normal" → w.tryRecover (m := StateM σ) s = (w, s)) ∧
    (w.state ≠ "normal" → ∀ opened s',
      openSink (m := StateM σ) w.settings.path false s = (opened, s') →
        (opened = none → w.tryRecover (m := StateM σ) s = (w, s')) ∧
        (opened ≠ none → (w.tryRecover (m := StateM σ) s).1.state = "normal")) := by
  refine ⟨fun line => exists_writeLine line w s, fun calls hcalls => descends_calls w hcalls s,
    fun hnormal => tryRecover_of_normal hnormal s, fun hbelow opened s' hopened => ?_⟩
  obtain ⟨goOn, hrecover, hnone, hsome⟩ := tryRecover_of_below hbelow
  rw [hrecover, StateM.bind_apply, hopened]
  cases opened with
  | none => exact ⟨fun _ => hnone ▸ rfl, fun h => absurd rfl h⟩
  | some sink =>
      refine ⟨nofun, fun _ => ?_⟩
      obtain ⟨b, bytes, rfl⟩ := (yields_openSink _ _).of_eq hopened sink rfl
      dsimp only
      rw [hsome]
      rfl

/-- A writer that had to take the fallback file stays there as long as the first file is locked. -/
theorem steps_down_only_on_lockedMachine :
    let w := (start (m := StateM Machine) twoFiles (lockedMachine 0)).1
    let s := (start (m := StateM Machine) twoFiles (lockedMachine 0)).2
    let opened := openSink (m := StateM Machine) w.settings.path false s
    .recover ∉ [Call.write someEntry, .flush] ∧ w.state = "fallback" ∧ opened.1.isNone = true ∧
      1 ≤ ([Call.write someEntry, .flush].foldlM (m := StateM Machine) serve w s).1.depth ∧
      w.tryRecover (m := StateM Machine) s = (w, opened.2) := by
  intro w s opened
  have hcalls : .recover ∉ [Call.write someEntry, .flush] := by simp
  have hstate : w.state = "fallback" := by decide +kernel
  have hlocked : opened.1.isNone = true := by decide +kernel
  have hbelow : w.state ≠ "normal" := by
    rw [hstate]
    decide
  have hdepth : w.depth = 1 := by rw [depth, hstate]; rfl
  obtain ⟨-, hdown, -, hback⟩ := steps_down_only w s
  refine ⟨hcalls, hstate, hlocked, ?_, ?_⟩
  · rw [← hdepth]
    exact hdown _ hcalls
  · exact (hback hbelow opened.1 opened.2 rfl).1 (Option.isNone_iff_eq_none.1 hlocked)

end LogWriter

end Backlog
