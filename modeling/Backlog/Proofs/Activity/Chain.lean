import Backlog.Proofs.Activity.Mirror
import Backlog.Proofs.Activity.Sinks
import Backlog.Host.Machine

/-!
# The chain of a log

A writer steps down from its first file to the fallback file, and from there to the error
stream.  No step loses a line that was held before (`Proceeds`), and after at most two of them
a line has found its place (`writeLine_spec`).

What is left is that a flush may fail, and that nobody hears of it: `LogWriter.flush` and
`LogWriter.sync` leave the bytes waiting, and when the file is left before they could be
written they are gone.  So after a flush a line is in one of the two files or was printed, or it
is among the bytes that a file refused when it was last written to (`lines_after_flush`).
-/

namespace Backlog

namespace LogWriter

variable {σ : Type} [Host (StateM σ)] {sink sink' : Outlet σ} {l l' l'' : Ledger σ}
  {line : String}

/-! ## Steps of a writer -/

/-- A writer goes on, and nothing that it held is lost. -/
structure Proceeds (w : Booked σ) (l : Ledger σ) (w' : Booked σ) (l' : Ledger σ) : Prop where
  settings : w'.settings = w.settings
  fits : Fits w.settings w'.sink l'
  keeps : Keeps w.sink l w'.sink l'

variable {w w' w'' : Booked σ}

theorem Proceeds.trans (h : Proceeds w l w' l') (h' : Proceeds w' l' w'' l'') :
    Proceeds w l w'' l'' :=
  ⟨h'.settings.trans h.settings, h.settings ▸ h'.fits, h.keeps.trans h'.keeps⟩

theorem Proceeds.of_same (hfits : Fits w.settings w.sink l) (h : Ledger.SameBooks l l') :
    Proceeds w l w l' := ⟨rfl, hfits.of_same h, .of_same h⟩

/-- To step down loses nothing, and is possible only so many times. -/
theorem degrade_spec (hfits : Fits w.settings w.sink l) (hfile : 0 < rank w.sink)
    (h : degrade (m := StateM (Ledger σ)) w l = (w', l')) :
    Proceeds w l w' l' ∧ rank w'.sink < rank w.sink := by
  have hnext : ∃ next l₁, Keeps w.sink l w.sink l₁ ∧ Ready w.settings w.sink l₁ next ∧
      rank next < rank w.sink ∧
      (Host.warn (m := StateM (Ledger σ)) (mark ++ "write failed, degrading") >>= fun _ =>
        close w.sink >>= fun _ => pure { w with sink := next }) l₁ = (w', l') := by
    obtain ⟨settings, sink, lastSync⟩ := w
    unfold degrade at h
    cases sink with
    | file b path bytes isFallback =>
        cases isFallback with
        | true => exact ⟨.errorStream, l, .refl _ _, .of_errorStream hfits, Nat.one_pos, h⟩
        | false =>
            dsimp only at h
            obtain ⟨opened, l₁, hopened, h⟩ := StateM.exists_of_bind_apply h
            obtain ⟨hkeeps, hready, hrank⟩ := openFallback_ready hfits hopened
            refine ⟨opened.getD .errorStream, l₁, hkeeps, hready, Nat.lt_succ_of_le hrank, ?_⟩
            cases opened <;> exact h
    | errorStream => cases hfile
    | discard => cases hfile
  obtain ⟨next, l₁, hkeeps, hready, hrank, h⟩ := hnext
  obtain ⟨⟨⟩, l₂, hwarned, h⟩ := StateM.exists_of_bind_apply h
  obtain ⟨hfiles, hprinted, hmute⟩ := warn_spec hwarned
  obtain ⟨⟨⟩, l₃, hclosed, h⟩ := StateM.exists_of_bind_apply h
  cases h
  obtain ⟨hkeeps', hfits'⟩ := close_spec (hready.of_files hfiles hmute) hclosed
  exact ⟨⟨rfl, hfits', (hkeeps.trans (.of_files hfiles hprinted hmute)).trans hkeeps'⟩, hrank⟩

theorem flush_proceeds (hfits : Fits w.settings w.sink l)
    (h : flush (m := StateM (Ledger σ)) w l = (w', l')) :
    Proceeds w l w' l' ∧ Settled w'.sink l' ∧
      flushSink (m := StateM (Ledger σ)) w.sink l = (w'.sink, l') := by
  unfold flush at h
  obtain ⟨sink, l₁, hflush, h⟩ := StateM.exists_of_bind_apply h
  cases h
  obtain ⟨hkeeps, hfits', hsettled, -⟩ := flushSink_spec hfits hflush
  exact ⟨⟨rfl, hfits', hkeeps⟩, hsettled, hflush⟩

theorem rank_flushSink (h : flushSink (m := StateM (Ledger σ)) sink l = (sink', l')) :
    rank sink' = rank sink := by
  unfold flushSink at h
  cases sink with
  | file b path bytes isFallback =>
      cases h
      cases isFallback <;> rfl
  | errorStream =>
      cases h
      rfl
  | discard =>
      cases h
      rfl

theorem sync_proceeds (hfits : Fits w.settings w.sink l)
    (h : sync (m := StateM (Ledger σ)) w l = (w', l')) :
    Proceeds w l w' l' ∧ Settled w'.sink l' := by
  unfold sync at h
  obtain ⟨w₁, l₁, hflush, h⟩ := StateM.exists_of_bind_apply h
  obtain ⟨hproceeds, hsettled, -⟩ := flush_proceeds hfits hflush
  -- the rest asks the system about things that are not booked
  have hrest : w'.settings = w₁.settings ∧ w'.sink = w₁.sink ∧ Ledger.SameBooks l₁ l' := by
    obtain ⟨settings, sink, lastSync⟩ := w₁
    cases sink with
    | file b path bytes isFallback =>
        cases h
        exact ⟨rfl, rfl, (Ledger.unbooked_ask _ _).trans (Ledger.unbooked_ask _ _)⟩
    | errorStream =>
        cases h
        exact ⟨rfl, rfl, Ledger.unbooked_ask _ _⟩
    | discard =>
        cases h
        exact ⟨rfl, rfl, Ledger.unbooked_ask _ _⟩
  obtain ⟨hsettings, hsink, hsame⟩ := hrest
  refine ⟨⟨hsettings.trans hproceeds.settings, ?_, ?_⟩, ?_⟩
  · rw [hsink]
    exact hproceeds.fits.of_same hsame
  · rw [hsink]
    exact hproceeds.keeps.trans (.of_same hsame)
  · rw [hsink]
    exact hsettled.of_same hsame

theorem syncIfDue_proceeds (hfits : Fits w.settings w.sink l)
    (h : syncIfDue (m := StateM (Ledger σ)) w l = (w', l')) : Proceeds w l w' l' := by
  unfold syncIfDue at h
  obtain ⟨now, l₁, hnow, h⟩ := StateM.exists_of_bind_apply h
  have hsame := (Ledger.unbooked_ask _).same hnow
  have hfits' := hfits.of_same hsame
  dsimp only at h
  split at h
  · exact (Proceeds.of_same hfits hsame).trans (sync_proceeds hfits' h).1
  · cases h
    exact .of_same hfits hsame

theorem recover_proceeds {goOn : Option (Outlet σ) → StateM (Ledger σ) (Booked σ)}
    (hfits : Fits w.settings w.sink l) (hnone : goOn none = pure w)
    (hsome : ∀ sink, goOn (some sink) = (w.flush >>= fun w => close w.sink >>= fun _ =>
      Host.warn (mark ++ "recovered to primary path: " ++ w.settings.path) >>= fun _ =>
      pure { w with sink }))
    (h : (openSink w.settings.path false >>= goOn) l = (w', l')) : Proceeds w l w' l' := by
  obtain ⟨opened, l₁, hopened, h⟩ := StateM.exists_of_bind_apply h
  obtain ⟨hkeeps, hready, -⟩ := openSink_ready hfits (.inl rfl) hopened
  cases opened with
  | none =>
      rw [hnone] at h
      cases h
      exact ⟨rfl, hready.fits, hkeeps⟩
  | some next =>
      rw [hsome] at h
      obtain ⟨w₁, l₂, hflushed, h⟩ := StateM.exists_of_bind_apply h
      obtain ⟨hproceeds, -, hflush⟩ := flush_proceeds hready.fits hflushed
      obtain ⟨hready', -, -⟩ := hready.flush hflush
      obtain ⟨⟨⟩, l₃, hclosed, h⟩ := StateM.exists_of_bind_apply h
      obtain ⟨hkeeps', hfits'⟩ := close_spec hready' hclosed
      obtain ⟨⟨⟩, l₄, hwarned, h⟩ := StateM.exists_of_bind_apply h
      obtain ⟨hfiles, hprinted, hmute⟩ := warn_spec hwarned
      cases h
      refine ⟨hproceeds.settings, hfits'.of_files hfiles hmute, ?_⟩
      exact ((hkeeps.trans hproceeds.keeps).trans hkeeps').trans (.of_files hfiles hprinted hmute)

/-- To go back to the first file loses nothing. -/
theorem tryRecover_proceeds (hfits : Fits w.settings w.sink l)
    (h : tryRecover (m := StateM (Ledger σ)) w l = (w', l')) : Proceeds w l w' l' := by
  obtain ⟨settings, sink, lastSync⟩ := w
  unfold tryRecover at h
  cases sink with
  | file b path bytes isFallback =>
      cases isFallback with
      | false =>
          cases h
          exact ⟨rfl, hfits, .refl _ _⟩
      | true => exact recover_proceeds hfits rfl (fun _ => rfl) h
  | errorStream => exact recover_proceeds hfits rfl (fun _ => rfl) h
  | discard => exact recover_proceeds hfits rfl (fun _ => rfl) h

theorem reopen_spec {path : String} {isFallback : Bool}
    {goOn : Option (Outlet σ) → StateM (Ledger σ) (Booked σ)}
    (hfits : Fits w.settings sink l) (hsettled : Settled sink l)
    (hpath : path = w.settings.path ∨ some path = w.settings.fallback)
    (hnone : goOn none = (Host.warn (mark ++ "reopen after rotation failed") >>= fun _ =>
      pure { w with sink := .errorStream }))
    (hsome : ∀ sink, goOn (some sink) = pure { w with sink })
    (h : (openSink path isFallback >>= goOn) l = (w', l')) :
    w'.settings = w.settings ∧ Fits w.settings w'.sink l' ∧ Keeps sink l w'.sink l' ∧
      rank w'.sink ≤ (bif isFallback then 1 else 2) := by
  obtain ⟨opened, l₁, hopened, h⟩ := StateM.exists_of_bind_apply h
  obtain ⟨hkeeps, hready, hrank, hstays⟩ := openSink_ready hfits hpath hopened
  have hleave := hkeeps.trans (.of_leave (hstays hsettled) hready.fresh)
  cases opened with
  | some next =>
      rw [hsome] at h
      cases h
      exact ⟨rfl, hready.nextFits, hleave, hrank⟩
  | none =>
      rw [hnone] at h
      obtain ⟨⟨⟩, l₂, hwarned, h⟩ := StateM.exists_of_bind_apply h
      obtain ⟨hfiles, hprinted, hmute⟩ := warn_spec hwarned
      cases h
      exact ⟨rfl, hready.nextFits.of_files hfiles hmute,
        hleave.trans (.of_files hfiles hprinted hmute), Nat.zero_le _⟩

/-- To put a file aside loses nothing, and it is no step down if a new file can be had. -/
theorem rotate_spec (hfits : Fits w.settings w.sink l)
    (h : rotate (m := StateM (Ledger σ)) w l = (w', l')) :
    Proceeds w l w' l' ∧ rank w'.sink ≤ rank w.sink := by
  unfold rotate at h
  obtain ⟨⟨settings, sink, lastSync⟩, l₁, hflushed, h⟩ := StateM.exists_of_bind_apply h
  obtain ⟨hproceeds, -, hflush⟩ := flush_proceeds hfits hflushed
  have hrank : rank sink = rank w.sink := rank_flushSink hflush
  obtain rfl : settings = w.settings := hproceeds.settings
  have hfits₁ : Fits w.settings sink l₁ := hproceeds.fits
  cases sink with
  | errorStream =>
      cases h
      exact ⟨hproceeds, Nat.le_of_eq hrank⟩
  | discard =>
      cases h
      exact ⟨hproceeds, Nat.le_of_eq hrank⟩
  | file b path bytes isFallback =>
      obtain ⟨hpath, -⟩ := hfits₁.file b path bytes isFallback rfl
      obtain ⟨⟨⟩, l₂, hclosed, h⟩ := StateM.exists_of_bind_apply h
      unfold close at hclosed
      obtain ⟨sink₂, l₃, hflushed₂, hclosed⟩ := StateM.exists_of_bind_apply hclosed
      cases hclosed
      obtain ⟨hkeeps₂, hfits₂, hsettled₂, -⟩ := flushSink_spec hfits₁ hflushed₂
      -- the files are given other names, which the books do not tell
      obtain ⟨removed, l₃, hremoved, h⟩ := StateM.exists_of_bind_apply h
      obtain ⟨⟨⟩, l₄, hshifted, h⟩ := StateM.exists_of_bind_apply h
      obtain ⟨renamed, l₅, hrenamed, h⟩ := StateM.exists_of_bind_apply h
      have hmoved : Ledger.SameBooks l₂ l₅ :=
        ((Ledger.unbooked_ask _).same hremoved).trans
          (((Ledger.unbooked_shift path _).same hshifted).trans
            ((Ledger.unbooked_ask _).same hrenamed))
      obtain ⟨hsettings, hfits', hkeeps', hrank'⟩ :=
        reopen_spec (w := ⟨w.settings, .errorStream, lastSync⟩) (hfits₂.of_same hmoved)
          (hsettled₂.of_same hmoved) hpath rfl (fun _ => rfl) h
      refine ⟨⟨hsettings, hfits', ?_⟩, ?_⟩
      · exact (hproceeds.keeps.trans hkeeps₂).trans ((Keeps.of_same hmoved).trans hkeeps')
      · refine Nat.le_trans hrank' (Nat.le_of_eq (Eq.trans ?_ hrank))
        cases isFallback <;> rfl

theorem rotateIfDue_spec {size : Nat} (hfits : Fits w.settings w.sink l)
    (h : rotateIfDue (m := StateM (Ledger σ)) w size l = (w', l')) :
    Proceeds w l w' l' ∧ rank w'.sink ≤ rank w.sink := by
  unfold rotateIfDue at h
  have hstay : Proceeds w l w l := .of_same hfits (.refl l)
  obtain ⟨settings, sink, lastSync⟩ := w
  cases sink with
  | file b path bytes isFallback =>
      dsimp only at h
      split at h
      · exact rotate_spec hfits h
      · cases h
        exact ⟨hstay, Nat.le_refl _⟩
  | errorStream =>
      cases h
      exact ⟨hstay, Nat.le_refl _⟩
  | discard =>
      cases h
      exact ⟨hstay, Nat.le_refl _⟩

/-! ## Writing a line -/

/-- A line is held, if the error stream works. -/
def Kept (w : Booked σ) (l : Ledger σ) (line : String) : Prop :=
  l.isMute = false → Holds w.sink l line

theorem Kept.proceed (hline : Kept w l line) (h : Proceeds w l w' l') : Kept w' l' line :=
  fun hmute => (hline (h.keeps.isMute hmute)).keep h.keeps

section

variable {settings : LogSettings} {lastSync : Instant} {isDone : Bool}

theorem attempt_file {b : BufferedFile (Host.File (StateM (Ledger σ)))} {path : String}
    {bytes : Nat} {isFallback : Bool}
    {goOn : Bool × BufferedFile (Host.File (StateM (Ledger σ))) →
      StateM (Ledger σ) (Bool × Booked σ)}
    (hfits : Fits settings (.file b path bytes isFallback) l)
    (hwritten : ∀ b', goOn (true, b') =
      (syncIfDue ⟨settings, .file b' path (bytes + line.utf8ByteSize) isFallback, lastSync⟩
        >>= fun w => pure (true, w)))
    (hfailed : ∀ b', goOn (false, b') =
      pure (false, ⟨settings, .file b' path bytes isFallback, lastSync⟩))
    (h : (b.write line.toUTF8 >>= goOn) l = ((isDone, w'), l')) :
    Proceeds ⟨settings, .file b path bytes isFallback, lastSync⟩ l w' l' ∧
      (isDone = true → Kept w' l' line) ∧
      (isDone = false → 0 < rank w'.sink ∧
        rank w'.sink = rank (.file b path bytes isFallback : Outlet σ)) := by
  obtain ⟨⟨isWritten, b'⟩, l₁, hwrite, h⟩ := StateM.exists_of_bind_apply h
  obtain ⟨more, happends, hline⟩ := Ledger.write_spec hwrite
  have hstep (size : Nat) : Proceeds ⟨settings, .file b path bytes isFallback, lastSync⟩ l
      ⟨settings, .file b' path size isFallback, lastSync⟩ l₁ :=
    ⟨rfl, hfits.of_appends happends, .of_appends happends⟩
  cases isWritten with
  | false =>
      rw [hfailed] at h
      cases h
      refine ⟨hstep bytes, nofun, fun _ => ?_⟩
      cases isFallback with
      | false => exact ⟨Nat.two_pos, rfl⟩
      | true => exact ⟨Nat.one_pos, rfl⟩
  | true =>
      rw [hwritten] at h
      obtain ⟨w₂, l₂, hsynced, h⟩ := StateM.exists_of_bind_apply h
      cases h
      have hlonger := hstep (bytes + line.utf8ByteSize)
      have hsync := syncIfDue_proceeds hlonger.fits hsynced
      have hheld : Holds (.file b' path (bytes + line.utf8ByteSize) isFallback) l₁ line :=
        holds_of_appends hfits happends (hline rfl)
      exact ⟨hlonger.trans hsync, fun _ _ => hheld.keep hsync.keeps, nofun⟩

theorem attempt_errorStream {goOn : Bool → StateM (Ledger σ) (Bool × Booked σ)}
    (hfits : Fits (σ := σ) settings .errorStream l)
    (hprinted : goOn true = pure (true, ⟨settings, .errorStream, lastSync⟩))
    (hfailed : goOn false = pure (true, ⟨settings, .discard, lastSync⟩))
    (h : (Host.printError (mark ++ line) >>= goOn) l = ((isDone, w'), l')) :
    Proceeds ⟨settings, .errorStream, lastSync⟩ l w' l' ∧ Kept w' l' line ∧ isDone = true := by
  obtain ⟨isPrinted, l₁, hanswer, h⟩ := StateM.exists_of_bind_apply h
  obtain ⟨hfiles, hmore, hmute⟩ := Ledger.printError_spec hanswer
  have hkeeps : Keeps (σ := σ) .errorStream l .errorStream l₁ :=
    .of_files hfiles hmore fun h => (hmute h).1
  have hfits₁ : Fits (σ := σ) settings .errorStream l₁ := hfits.of_files hfiles fun h => (hmute h).1
  cases isPrinted with
  | true =>
      rw [hprinted] at h
      cases h
      exact ⟨⟨rfl, hfits₁, hkeeps⟩, fun h => .inl (hmute h).2.2, rfl⟩
  | false =>
      rw [hfailed] at h
      cases h
      -- the line is lost, and so is the error stream
      have hlost : l'.isMute = true := by
        cases hl : l'.isMute with
        | true => rfl
        | false => cases (hmute hl).2.1
      refine ⟨⟨rfl, ⟨hfits₁.opened, nofun, fun _ => hlost⟩, ?_⟩, fun h => ?_, rfl⟩
      · exact hkeeps.trans (.of_leave nofun nofun)
      · rw [hlost] at h
        cases h

/-- A line that is done with is held.  One that is not can be tried again further down. -/
theorem attempt_spec (hfits : Fits w.settings w.sink l)
    (h : attempt (m := StateM (Ledger σ)) w line l = ((isDone, w'), l')) :
    Proceeds w l w' l' ∧ (isDone = true → Kept w' l' line) ∧
      (isDone = false → 0 < rank w'.sink ∧ rank w'.sink ≤ rank w.sink) := by
  unfold attempt at h
  obtain ⟨⟨settings, sink, lastSync⟩, l₁, hrotated, h⟩ := StateM.exists_of_bind_apply h
  obtain ⟨hproceeds, hrank⟩ := rotateIfDue_spec hfits hrotated
  obtain rfl : settings = w.settings := hproceeds.settings
  have hfits₁ : Fits w.settings sink l₁ := hproceeds.fits
  cases sink with
  | file b path bytes isFallback =>
      obtain ⟨hwrites, hkept, hfailed⟩ := attempt_file hfits₁ (fun _ => rfl) (fun _ => rfl) h
      refine ⟨hproceeds.trans hwrites, hkept, fun hfalse => ?_⟩
      obtain ⟨hpos, hsame⟩ := hfailed hfalse
      exact ⟨hpos, hsame ▸ hrank⟩
  | errorStream =>
      obtain ⟨hprints, hkept, hdone⟩ := attempt_errorStream hfits₁ rfl rfl h
      refine ⟨hproceeds.trans hprints, fun _ => hkept, fun hfalse => ?_⟩
      cases hdone.symm.trans hfalse
  | discard =>
      cases h
      refine ⟨hproceeds, fun _ hmute => ?_, nofun⟩
      rw [hfits₁.discard rfl] at hmute
      cases hmute

end

/-- A line is held once it was written, if the steps suffice. -/
theorem writeLine_spec {steps : Nat} (hfits : Fits w.settings w.sink l)
    (hsteps : rank w.sink ≤ steps)
    (h : writeLine (m := StateM (Ledger σ)) line steps w l = (w', l')) :
    Proceeds w l w' l' ∧ Kept w' l' line := by
  induction steps generalizing w l with
  | zero =>
      unfold writeLine at h
      obtain ⟨⟨isDone, w₁⟩, l₁, hattempt, h⟩ := StateM.exists_of_bind_apply h
      obtain ⟨hproceeds, hdone, hfailed⟩ := attempt_spec hfits hattempt
      cases h
      cases isDone with
      | true => exact ⟨hproceeds, hdone rfl⟩
      | false =>
          obtain ⟨hpos, hle⟩ := hfailed rfl
          omega
  | succ steps ih =>
      unfold writeLine at h
      obtain ⟨⟨isDone, w₁⟩, l₁, hattempt, h⟩ := StateM.exists_of_bind_apply h
      obtain ⟨hproceeds, hdone, hfailed⟩ := attempt_spec hfits hattempt
      cases isDone with
      | true =>
          cases h
          exact ⟨hproceeds, hdone rfl⟩
      | false =>
          obtain ⟨hpos, hle⟩ := hfailed rfl
          dsimp only at h
          obtain ⟨w₂, l₂, hdegraded, h⟩ := StateM.exists_of_bind_apply h
          have hfits₁ : Fits w₁.settings w₁.sink l₁ := hproceeds.settings ▸ hproceeds.fits
          obtain ⟨hdegrades, hlt⟩ := degrade_spec hfits₁ hpos hdegraded
          have hfits₂ : Fits w₂.settings w₂.sink l₂ := hdegrades.settings ▸ hdegrades.fits
          obtain ⟨hwrites, hkept⟩ := ih hfits₂ (by omega) h
          exact ⟨(hproceeds.trans hdegrades).trans hwrites, hkept⟩

/-! ## Sessions -/

theorem start_spec {settings : LogSettings} (hfits : Fits settings .errorStream l)
    (h : start (m := StateM (Ledger σ)) settings l = (w, l')) :
    w.settings = settings ∧ Fits settings w.sink l' := by
  have hsink : ∃ sink l₁, Fits settings sink l₁ ∧
      (Host.now (m := StateM (Ledger σ)) >>= fun now => pure ⟨settings, sink, now⟩) l₁ =
        (w, l') := by
    unfold start at h
    obtain ⟨opened, l₁, hopened, h⟩ := StateM.exists_of_bind_apply h
    obtain ⟨-, hready, -⟩ := openSink_ready hfits (.inl rfl) hopened
    cases opened with
    | some sink =>
        exact ⟨sink, l₁, hready.nextFits, h⟩
    | none =>
        dsimp only at h
        obtain ⟨opened, l₂, hfallback, h⟩ := StateM.exists_of_bind_apply h
        obtain ⟨-, hready', -⟩ := openFallback_ready hready.fits hfallback
        cases opened with
        | some sink =>
            dsimp only at h
            obtain ⟨⟨⟩, l₃, hwarned, h⟩ := StateM.exists_of_bind_apply h
            obtain ⟨hfiles, -, hmute⟩ := warn_spec hwarned
            exact ⟨sink, l₃, hready'.nextFits.of_files hfiles hmute, h⟩
        | none =>
            dsimp only at h
            obtain ⟨⟨⟩, l₃, hwarned, h⟩ := StateM.exists_of_bind_apply h
            obtain ⟨hfiles, -, hmute⟩ := warn_spec hwarned
            exact ⟨.errorStream, l₃, hready'.nextFits.of_files hfiles hmute, h⟩
  obtain ⟨sink, l₁, hfits₁, h⟩ := hsink
  obtain ⟨now, l₂, hnow, h⟩ := StateM.exists_of_bind_apply h
  cases h
  exact ⟨rfl, hfits₁.of_same ((Ledger.unbooked_ask _).same hnow)⟩

theorem rank_le_fileCount (sink : Outlet σ) : rank sink ≤ fileCount := by
  unfold fileCount
  cases sink with
  | file b path bytes isFallback =>
      cases isFallback with
      | false => exact Nat.le_refl 2
      | true => exact Nat.le_succ 1
  | errorStream => exact Nat.zero_le 2
  | discard => exact Nat.zero_le 2

theorem serve_proceeds {call : Call} (hfits : Fits w.settings w.sink l)
    (h : serve (m := StateM (Ledger σ)) w call l = (w', l')) :
    Proceeds w l w' l' ∧ (∀ entry, call = .write entry → Kept w' l' (entry.line ++ "\n")) ∧
      (call = .flush ∨ call = .sync → Settled w'.sink l') := by
  unfold serve at h
  cases call with
  | write entry =>
      dsimp only at h
      unfold writeEntry at h
      obtain ⟨hproceeds, hkept⟩ := writeLine_spec hfits (rank_le_fileCount w.sink) h
      refine ⟨hproceeds, fun entry' hentry => ?_, nofun⟩
      obtain rfl := Call.write.inj hentry
      exact hkept
  | flush =>
      dsimp only at h
      obtain ⟨hproceeds, hsettled, -⟩ := flush_proceeds hfits h
      exact ⟨hproceeds, fun _ hcall => (by cases hcall), fun _ => hsettled⟩
  | sync =>
      dsimp only at h
      obtain ⟨hproceeds, hsettled⟩ := sync_proceeds hfits h
      exact ⟨hproceeds, fun _ hcall => (by cases hcall), fun _ => hsettled⟩
  | recover =>
      dsimp only at h
      exact ⟨tryRecover_proceeds hfits h, fun _ hcall => (by cases hcall), nofun⟩

theorem calls_proceed {calls : List Call} (hfits : Fits w.settings w.sink l)
    (h : calls.foldlM (m := StateM (Ledger σ)) serve w l = (w', l')) :
    Proceeds w l w' l' ∧ ∀ entry, .write entry ∈ calls → Kept w' l' (entry.line ++ "\n") := by
  induction calls generalizing w l with
  | nil =>
      cases h
      exact ⟨.of_same hfits (.refl _), fun _ hmem => (by cases hmem)⟩
  | cons call calls ih =>
      rw [List.foldlM_cons] at h
      obtain ⟨w₁, l₁, hserved, h⟩ := StateM.exists_of_bind_apply h
      obtain ⟨hproceeds, hwritten, -⟩ := serve_proceeds hfits hserved
      have hfits₁ : Fits w₁.settings w₁.sink l₁ := hproceeds.settings ▸ hproceeds.fits
      obtain ⟨hrest, hlines⟩ := ih hfits₁ h
      refine ⟨hproceeds.trans hrest, fun entry hmem => ?_⟩
      rcases List.mem_cons.1 hmem with hcall | hmem
      · exact (hwritten entry hcall.symm).proceed hrest
      · exact hlines entry hmem

/-- Books about a session change nothing. -/
theorem mirrors_session (settings : LogSettings) (calls : List Call) :
    Reflects (σ := σ) Ledger.base plain (session settings calls) (session settings calls) :=
  reflects_session Ledger.overlay settings calls

/-- A line was printed, or one of the two files took it in. -/
def Delivered (settings : LogSettings) (books : Ledger σ) (line : String) : Prop :=
  mark ++ line ∈ books.printed ∨
    ∃ o ∈ books.files, (o.path = settings.path ∨ some o.path = settings.fallback) ∧
      Within line.toUTF8 o.given

/-- One of the two files refused a line, or a part of it, when it was last written to. -/
def Refused (settings : LogSettings) (books : Ledger σ) (line : String) : Prop :=
  ∃ o ∈ books.files, (o.path = settings.path ∨ some o.path = settings.fallback) ∧
    o.refused ≠ .empty ∧ Within line.toUTF8 (o.given ++ o.refused)

/-- What is held once nothing waits any more is in its place, or was refused. -/
theorem Holds.delivered (hline : Holds sink l line) {settings : LogSettings}
    (hfits : Fits settings sink l) (hsettled : Settled sink l) :
    Delivered settings l line ∨ Refused settings l line := by
  rcases hline with hprinted | ⟨index, o, ho, hwithin⟩
  · exact .inl (.inl hprinted)
  have hmem : o ∈ l.files := List.mem_of_getElem? ho
  have hpath := hfits.opened o hmem
  have hdelivered (hempty : waiting sink index o = .empty) : Delivered settings l line := by
    rw [hempty, ByteArray.append_empty] at hwithin
    exact .inr ⟨o, hmem, hpath, hwithin⟩
  rcases waiting_of_settled hsettled ho with hempty | hwaiting
  · exact .inl (hdelivered hempty)
  · by_cases hrefused : o.refused = .empty
    · exact .inl (hdelivered (hwaiting.trans hrefused))
    · rw [hwaiting] at hwithin
      exact .inr ⟨o, hmem, hpath, hrefused, hwithin⟩

/-- After a flush every line that was written before has been delivered, or else a file refused
it when it was last written to. -/
theorem lines_after_flush (settings : LogSettings) (base : σ) (calls : List Call) (last : Call)
    (hlast : last = .flush ∨ last = .sync)
    (hprints : (session (m := StateM (Ledger σ)) settings (calls ++ [last])
      (.opening base)).2.isMute = false) :
    let outcome := session (m := StateM (Ledger σ)) settings (calls ++ [last]) (.opening base)
    session (m := StateM σ) settings (calls ++ [last]) base =
      (outcome.1.plain, outcome.2.base) ∧
    ∀ entry, .write entry ∈ calls →
      Delivered settings outcome.2 (entry.line ++ "\n") ∨
        Refused settings outcome.2 (entry.line ++ "\n") := by
  refine ⟨mirrors_session settings (calls ++ [last]) (.opening base), fun entry hentry => ?_⟩
  generalize hsession : session (m := StateM (Ledger σ)) settings (calls ++ [last])
    (.opening base) = outcome at hprints ⊢
  unfold session at hsession
  obtain ⟨w, l, hstarted, hserved⟩ := StateM.exists_of_bind_apply hsession
  have hopening : Fits settings (.errorStream : Outlet σ) (.opening base) :=
    ⟨fun _ ho => (by cases ho), nofun, nofun⟩
  obtain ⟨rfl, hfits⟩ := start_spec hopening hstarted
  rw [List.foldlM_append] at hserved
  obtain ⟨w₁, l₁, hserved, hend⟩ := StateM.exists_of_bind_apply hserved
  obtain ⟨hproceeds, hlines⟩ := calls_proceed hfits hserved
  have hfits₁ : Fits w₁.settings w₁.sink l₁ := hproceeds.settings ▸ hproceeds.fits
  rw [List.foldlM_cons] at hend
  obtain ⟨w₂, l₂, hflushed, hend⟩ := StateM.exists_of_bind_apply hend
  cases hend
  obtain ⟨hflush, -, hsettled⟩ := serve_proceeds hfits₁ hflushed
  have hline : Holds w₂.sink l₂ (entry.line ++ "\n") :=
    (hlines entry hentry).proceed hflush hprints
  exact hline.delivered (hproceeds.settings ▸ hflush.fits) (hsettled hlast)

/-- An entry. -/
def someEntry : LogEntry := .plain "t" .error .info

theorem lines_after_flush_on_blank :
    let settings := LogSettings.at "a.jsonl"
    let outcome := session (m := StateM (Ledger Machine)) settings ([.write someEntry] ++ [.flush])
      (.opening Machine.blank)
    outcome.2.isMute = false ∧
      session (m := StateM Machine) settings ([.write someEntry] ++ [.flush]) Machine.blank =
        (outcome.1.plain, outcome.2.base) ∧
      (Delivered settings outcome.2 (someEntry.line ++ "\n") ∨
        Refused settings outcome.2 (someEntry.line ++ "\n")) := by
  have hprints : (session (m := StateM (Ledger Machine)) (LogSettings.at "a.jsonl")
      ([.write someEntry] ++ [.flush]) (.opening Machine.blank)).2.isMute = false := by
    decide +kernel
  obtain ⟨hsame, hlines⟩ := lines_after_flush (LogSettings.at "a.jsonl") Machine.blank
    [.write someEntry] .flush (.inl rfl) hprints
  exact ⟨hprints, hsame, hlines someEntry List.mem_cons_self⟩

/-- A machine on which the log is a device without room. -/
def fullMachine : Machine :=
  { Machine.blank with disk := Disk.empty.put Disk.root "a.jsonl" (.device true) }

/-- The settings of a log with a file to fall back on. -/
def twoFiles : LogSettings := { LogSettings.at "a.jsonl" with fallback := some "b.jsonl" }

/-- A line that the first file has no room for goes nowhere when it is flushed: the fallback file
is not even there, nothing is printed, and the writer takes it that all is well. -/
theorem not_delivered_on_fullMachine :
    let outcome := session (m := StateM (Ledger Machine)) twoFiles [.write someEntry, .flush]
      (.opening fullMachine)
    outcome.1.state = "normal" ∧ outcome.2.isMute = false ∧ outcome.2.base.errors = "" ∧
      outcome.2.base.disk.isThere Disk.root "b.jsonl" = false ∧
      ¬ Delivered twoFiles outcome.2 (someEntry.line ++ "\n") := by
  intro outcome
  have hquiet : outcome.1.state = "normal" ∧ outcome.2.isMute = false ∧
      outcome.2.base.errors = "" ∧ outcome.2.base.disk.isThere Disk.root "b.jsonl" = false := by
    decide +kernel
  have hnothing : outcome.2.printed = [] ∧ (∀ o ∈ outcome.2.files, o.given.size = 0) ∧
      0 < (someEntry.line ++ "\n").toUTF8.size := by
    decide +kernel
  obtain ⟨hstate, hmute, herrors, hfallback⟩ := hquiet
  obtain ⟨hprinted, hgiven, hline⟩ := hnothing
  refine ⟨hstate, hmute, herrors, hfallback, ?_⟩
  rintro (hmem | ⟨o, ho, -, before, after, hwhole⟩)
  · rw [hprinted] at hmem
    cases hmem
  · have hsize := congrArg ByteArray.size hwhole
    rw [hgiven o ho, ByteArray.size_append, ByteArray.size_append] at hsize
    omega

end LogWriter

end Backlog
