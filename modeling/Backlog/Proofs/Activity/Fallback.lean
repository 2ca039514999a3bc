import Backlog.Proofs.Activity.Chain

/-!
# A fallback file that works

A log has a fallback file that can be opened and written at any time, and everything else may
fail.  So the writer should be found on one of its two files after whatever it was asked.  It
is, as long as it steps down through `LogWriter.degrade` or starts anew.  But a rotation that
cannot open the first file again does not look at the fallback file, and goes straight to the
error stream.

The deeds of a watched system tell which file was opened last, whether it was to be put aside
since, and whether an opening failed since (`lastOpened`).  The writer is on one of its files
exactly if these do not say that the first file was opened, put aside and then missed
(`on_files_iff`).  In each step of the writer this is kept up (`Carries`), unless the fallback
file is seen to fail in one of the deeds that are yet to come.
-/

namespace Backlog

/-- Which file was opened last, and what became of it. -/
structure LastOpened where
  path : Option String
  /-- Whether it was to get another name since. -/
  isAside : Bool
  /-- Whether an opening failed since. -/
  isMissed : Bool
  deriving DecidableEq

section

variable {σ : Type}

/-- What a deed makes of it. -/
def LastOpened.note (o : LastOpened) (deed : Deed σ) : LastOpened :=
  match deed.operation with
  | .openAppend path =>
    if deed.isDone then ⟨some path, false, false⟩ else { o with isMissed := true }
  | .createDirs _ => if deed.isDone then o else { o with isMissed := true }
  | .rename source _ => if o.path = some source then { o with isAside := true } else o
  | _ => o

def lastOpened (deeds : List (Deed σ)) : LastOpened := deeds.foldl .note ⟨none, false, false⟩

theorem lastOpened_concat (deeds : List (Deed σ)) (deed : Deed σ) :
    lastOpened (deeds ++ [deed]) = (lastOpened deeds).note deed := by
  simp [lastOpened]

/-- The file at a path, or the directory for it, could not be had or not be written to. -/
def Deed.Refuses (path : String) (deed : Deed σ) : Prop :=
  deed.isDone = false ∧
    (deed.operation = .openAppend path ∨ deed.operation = .write path ∨
      (Path.parent? path).map FileOperation.createDirs = some deed.operation)

instance (path : String) (deed : Deed σ) : Decidable (deed.Refuses path) :=
  inferInstanceAs (Decidable (_ ∧ _))

/-- A path was never refused. -/
def Serves (path : String) (w : Watched σ) : Prop := ∀ deed ∈ w.deeds, ¬deed.Refuses path

theorem Serves.of_grows {path : String} {w w' : Watched σ} (h : Serves path w')
    (hgrows : w.deeds <+: w'.deeds) : Serves path w :=
  fun deed hmem => h deed (hgrows.subset hmem)

/-- No file was opened, missed or put aside on the way. -/
structure Passes (w w' : Watched σ) : Prop where
  grows : w.deeds <+: w'.deeds
  opened : lastOpened w'.deeds = lastOpened w.deeds

variable {w w' w'' : Watched σ} {α : Type}

theorem Passes.refl (w : Watched σ) : Passes w w := ⟨List.prefix_refl _, rfl⟩

theorem Passes.trans (h : Passes w w') (h' : Passes w' w'') : Passes w w'' :=
  ⟨h.grows.trans h'.grows, h'.opened.trans h.opened⟩

/-- Files got other names on the way, and no more. -/
structure Renames (w w' : Watched σ) : Prop where
  grows : w.deeds <+: w'.deeds
  path : (lastOpened w'.deeds).path = (lastOpened w.deeds).path
  isMissed : (lastOpened w'.deeds).isMissed = (lastOpened w.deeds).isMissed

theorem Renames.trans (h : Renames w w') (h' : Renames w' w'') : Renames w w'' :=
  ⟨h.grows.trans h'.grows, h'.path.trans h.path, h'.isMissed.trans h.isMissed⟩

theorem Passes.renames (h : Passes w w') : Renames w w' :=
  ⟨h.grows, by rw [h.opened], by rw [h.opened]⟩

theorem passes_ask {x : StateM σ α} {a : α} (h : Watched.ask x w = (a, w')) : Passes w w' := by
  cases h
  exact ⟨List.prefix_refl _, rfl⟩

theorem deeds_note {operation : FileOperation} {isDone : α → Bool} {x : StateM σ α} {a : α}
    (h : Watched.note operation isDone x w = (a, w')) :
    w'.deeds = w.deeds ++ [⟨operation, isDone a, w.base, w'.base⟩] := by
  cases h
  rfl

theorem grows_note {operation : FileOperation} {isDone : α → Bool} {x : StateM σ α} {a : α}
    (h : Watched.note operation isDone x w = (a, w')) : w.deeds <+: w'.deeds := by
  rw [deeds_note h]
  exact List.prefix_append _ _

theorem lastOpened_note {operation : FileOperation} {isDone : α → Bool} {x : StateM σ α} {a : α}
    (h : Watched.note operation isDone x w = (a, w')) :
    lastOpened w'.deeds = (lastOpened w.deeds).note ⟨operation, isDone a, w.base, w'.base⟩ := by
  rw [deeds_note h, lastOpened_concat]

end

namespace LogWriter

variable {σ : Type} [Host (StateM σ)]

/-- Where a writer stands, by what was opened last.  The fallback file may be the first one. -/
inductive Stands (settings : LogSettings) (fallback : String) (l : Watched σ) :
    WatchedSink σ → Prop
  | first {file pending bytes} (h : lastOpened l.deeds = ⟨some settings.path, false, false⟩) :
      Stands settings fallback l
        (.file ⟨⟨settings.path, file⟩, pending⟩ settings.path bytes false)
  | second {file pending bytes} (hpath : (lastOpened l.deeds).path = some fallback)
      (hmissed : fallback = settings.path → (lastOpened l.deeds).isMissed = false) :
      Stands settings fallback l (.file ⟨⟨fallback, file⟩, pending⟩ fallback bytes true)
  | errorStream (h : lastOpened l.deeds = ⟨some settings.path, true, true⟩) :
      Stands settings fallback l .errorStream
  | discard (h : lastOpened l.deeds = ⟨some settings.path, true, true⟩) :
      Stands settings fallback l .discard

/-- A step of a writer that is all right if the fallback file works up to its end. -/
structure Carries (settings : LogSettings) (fallback : String) (sink : WatchedSink σ)
    (l : Watched σ) (sink' : WatchedSink σ) (l' : Watched σ) : Prop where
  grows : l.deeds <+: l'.deeds
  stands : Serves fallback l' → Stands settings fallback l sink →
    Stands settings fallback l' sink'

/-- The first file is in use. -/
def IsFirst (sink : WatchedSink σ) : Prop := ∃ b path bytes, sink = .file b path bytes false

variable {settings : LogSettings} {fallback : String} {sink sink' sink'' : WatchedSink σ}
  {l l' l'' : Watched σ} {w w' : WatchedWriter σ}

theorem Stands.pass (h : Stands settings fallback l sink) (hpasses : Passes l l') :
    Stands settings fallback l' sink := by
  have hopened := hpasses.opened
  cases h with
  | first h => exact .first (hopened.trans h)
  | second hpath hmissed => exact .second (hopened ▸ hpath) (hopened ▸ hmissed)
  | errorStream h => exact .errorStream (hopened.trans h)
  | discard h => exact .discard (hopened.trans h)

theorem Stands.buffer {b b' : BufferedFile (Host.File (StateM (Watched σ)))} {path : String}
    {bytes bytes' : Nat} {isFallback : Bool}
    (h : Stands settings fallback l (.file b path bytes isFallback)) (hfile : b'.file = b.file) :
    Stands settings fallback l (.file b' path bytes' isFallback) := by
  obtain ⟨file, pending⟩ := b'
  cases h with
  | first h =>
      obtain rfl : file = _ := hfile
      exact .first h
  | second hpath hmissed =>
      obtain rfl : file = _ := hfile
      exact .second hpath hmissed

theorem Carries.refl (sink : WatchedSink σ) (l : Watched σ) :
    Carries settings fallback sink l sink l := ⟨List.prefix_refl _, fun _ => id⟩

theorem Carries.trans (h : Carries settings fallback sink l sink' l')
    (h' : Carries settings fallback sink' l' sink'' l'') :
    Carries settings fallback sink l sink'' l'' := by
  refine ⟨h.grows.trans h'.grows, ?_⟩
  intro hserves hstands
  exact h'.stands hserves (h.stands (hserves.of_grows h'.grows) hstands)

theorem Carries.of_passes (h : Passes l l') : Carries settings fallback sink l sink l' :=
  ⟨h.grows, fun _ hstands => hstands.pass h⟩

/-! ## Buffered files -/

section

variable {b b' : BufferedFile (Host.File (StateM (Watched σ)))} {bytes : ByteArray} {isDone : Bool}

/-- Bytes went to a file, or waited for it.  If this failed, the file is seen to refuse it. -/
structure Fills (b : BufferedFile (Host.File (StateM (Watched σ)))) (l : Watched σ)
    (isDone : Bool) (b' : BufferedFile (Host.File (StateM (Watched σ)))) (l' : Watched σ) :
    Prop where
  file : b'.file = b.file
  passes : Passes l l'
  refused : isDone = false → ¬Serves (WatchedFile.path b.file) l'

theorem write_fills {written : Written}
    (h : Host.write (m := StateM (Watched σ)) b.file bytes l = (written, l'))
    (hfile : b'.file = b.file) : Fills b l written.fault.isNone b' l' := by
  have hnoted : Watched.note (.write (WatchedFile.path b.file))
      (fun written : Written => written.fault.isNone)
      (Host.write (m := StateM σ) (WatchedFile.file b.file) bytes) l = (written, l') := h
  have hdeeds := deeds_note hnoted
  refine ⟨hfile, ⟨grows_note hnoted, lastOpened_note hnoted⟩, ?_⟩
  intro hfault hserves
  refine hserves _ (hdeeds ▸ List.mem_append_right _ List.mem_cons_self) ?_
  exact ⟨hfault, .inr (.inl rfl)⟩

theorem flush_fills
    (h : BufferedFile.flush (m := StateM (Watched σ)) b l = ((isDone, b'), l')) :
    Fills b l isDone b' l' := by
  unfold BufferedFile.flush at h
  by_cases hempty : b.pending.isEmpty = true
  · rw [if_pos hempty] at h
    cases h
    exact ⟨rfl, .refl l, nofun⟩
  rw [if_neg hempty] at h
  obtain ⟨⟨count, fault⟩, l₁, hanswer, h⟩ := StateM.exists_of_bind_apply h
  cases fault with
  | none =>
      cases h
      exact write_fills hanswer rfl
  | some fault =>
      cases h
      exact write_fills hanswer rfl

theorem put_fills
    (h : BufferedFile.put (m := StateM (Watched σ)) b bytes l = ((isDone, b'), l')) :
    Fills b l isDone b' l' := by
  unfold BufferedFile.put at h
  by_cases hlarge : BufferedFile.capacity ≤ bytes.size
  · rw [if_pos hlarge] at h
    obtain ⟨written, l₁, hanswer, h⟩ := StateM.exists_of_bind_apply h
    cases h
    exact write_fills hanswer rfl
  · rw [if_neg hlarge] at h
    cases h
    exact ⟨rfl, .refl l, nofun⟩

theorem write_buffer_fills
    (h : BufferedFile.write (m := StateM (Watched σ)) b bytes l = ((isDone, b'), l')) :
    Fills b l isDone b' l' := by
  unfold BufferedFile.write at h
  by_cases hroom : bytes.size ≤ BufferedFile.capacity - b.pending.size
  · rw [if_pos hroom] at h
    exact put_fills h
  rw [if_neg hroom] at h
  obtain ⟨⟨isFlushed, b₁⟩, l₁, hflushed, h⟩ := StateM.exists_of_bind_apply h
  have hflush := flush_fills hflushed
  cases isFlushed with
  | false =>
      cases h
      exact hflush
  | true =>
      have hput := put_fills h
      refine ⟨hput.file.trans hflush.file, hflush.passes.trans hput.passes, ?_⟩
      intro hfailed
      rw [← hflush.file]
      exact hput.refused hfailed

end

/-! ## Opening and closing -/

/-- What is known once a file was to be opened: it was, or it is seen to be refused. -/
def Opens (path : String) (isFallback : Bool) (l : Watched σ) (opened : Option (WatchedSink σ))
    (l' : Watched σ) : Prop :=
  (opened = none ∧
      lastOpened l'.deeds = ⟨(lastOpened l.deeds).path, (lastOpened l.deeds).isAside, true⟩ ∧
      ¬Serves path l') ∨
    ∃ file size, opened = some (.file ⟨⟨path, file⟩, .empty⟩ path size isFallback) ∧
      lastOpened l'.deeds = ⟨some path, false, false⟩

theorem openAppend_opens {path : String} {isFallback : Bool} {opened : Option (WatchedSink σ)}
    {l₁ : Watched σ} {goOn : Except IoFault (Host.File (StateM (Watched σ)) × Nat) →
      StateM (Watched σ) (Option (WatchedSink σ))}
    (hfailed : ∀ fault, goOn (.error fault) = pure none)
    (hdone : ∀ file size,
      goOn (.ok (file, size)) = pure (some (.file ⟨file, .empty⟩ path size isFallback)))
    (hpasses : Passes l l₁) (h : (Host.openAppend path >>= goOn) l₁ = (opened, l')) :
    l.deeds <+: l'.deeds ∧ Opens path isFallback l opened l' := by
  obtain ⟨answer, l₂, hanswer, h⟩ := StateM.exists_of_bind_apply h
  obtain ⟨outcome, l₃, hnoted, hanswer⟩ := StateM.exists_of_bind_apply hanswer
  cases hanswer
  have hgrows := hpasses.grows.trans (grows_note hnoted)
  have hlast := lastOpened_note hnoted
  have hdeeds := deeds_note hnoted
  rw [hpasses.opened] at hlast
  cases outcome with
  | error fault =>
      change goOn (.error fault) l₂ = _ at h
      rw [hfailed] at h
      cases h
      refine ⟨hgrows, .inl ⟨rfl, hlast, ?_⟩⟩
      intro hserves
      refine hserves _ (hdeeds ▸ List.mem_append_right _ List.mem_cons_self) ?_
      exact ⟨rfl, .inl rfl⟩
  | ok answer =>
      obtain ⟨file, size⟩ := answer
      change goOn (.ok (⟨path, file⟩, size)) l₂ = _ at h
      rw [hdone] at h
      cases h
      exact ⟨hgrows, .inr ⟨file, size, rfl, hlast⟩⟩

theorem openSink_opens {path : String} {isFallback : Bool} {opened : Option (WatchedSink σ)}
    (h : openSink (m := StateM (Watched σ)) path isFallback l = (opened, l')) :
    l.deeds <+: l'.deeds ∧ Opens path isFallback l opened l' := by
  unfold openSink at h
  cases hparent : Path.parent? path with
  | none =>
      rw [hparent] at h
      dsimp only at h
      rw [StateM.bind_apply, StateM.pure_apply] at h
      exact openAppend_opens (fun _ => rfl) (fun _ _ => rfl) (.refl l) h
  | some parent =>
      rw [hparent] at h
      dsimp only at h
      obtain ⟨made, l₁, hmade, h⟩ := StateM.exists_of_bind_apply h
      have hlast := lastOpened_note hmade
      have hdeeds := deeds_note hmade
      cases made with
      | error fault =>
          cases h
          refine ⟨grows_note hmade, .inl ⟨rfl, hlast, ?_⟩⟩
          intro hserves
          refine hserves _ (hdeeds ▸ List.mem_append_right _ List.mem_cons_self) ?_
          exact ⟨rfl, .inr (.inr (by rw [hparent]; rfl))⟩
      | ok made =>
          have hmakes : Passes l l₁ := ⟨grows_note hmade, hlast⟩
          exact openAppend_opens (fun _ => rfl) (fun _ _ => rfl) hmakes h

theorem openFallback_opens {opened : Option (WatchedSink σ)}
    (hfallback : settings.fallback = some fallback)
    (h : openFallback (m := StateM (Watched σ)) settings l = (opened, l')) :
    l.deeds <+: l'.deeds ∧ (Serves fallback l' → ∃ sink, opened = some sink ∧
      Stands settings fallback l' sink) := by
  unfold openFallback at h
  rw [hfallback] at h
  obtain ⟨hgrows, hopened⟩ := openSink_opens h
  refine ⟨hgrows, ?_⟩
  intro hserves
  rcases hopened with ⟨-, -, hrefused⟩ | ⟨file, size, rfl, hlast⟩
  · exact absurd hserves hrefused
  · refine ⟨_, rfl, .second ?_ fun _ => ?_⟩
    · rw [hlast]
    · rw [hlast]

theorem warn_passes {text : String} {u : Unit}
    (h : Host.warn (m := StateM (Watched σ)) text l = (u, l')) : Passes l l' := by
  unfold Host.warn at h
  obtain ⟨isPrinted, l₁, hprinted, h⟩ := StateM.exists_of_bind_apply h
  cases h
  exact ⟨grows_note hprinted, lastOpened_note hprinted⟩

theorem flushSink_passes (h : flushSink (m := StateM (Watched σ)) sink l = (sink', l')) :
    Passes l l' ∧ ∀ settings fallback, Carries settings fallback sink l sink' l' := by
  unfold flushSink at h
  cases sink with
  | file b path bytes isFallback =>
      obtain ⟨⟨isDone, b'⟩, l₁, hflushed, h⟩ := StateM.exists_of_bind_apply h
      cases h
      have hfills := flush_fills hflushed
      refine ⟨hfills.passes, fun settings fallback => ⟨hfills.passes.grows, ?_⟩⟩
      intro _ hstands
      exact (hstands.buffer hfills.file).pass hfills.passes
  | errorStream =>
      cases h
      exact ⟨.refl _, fun _ _ => .refl _ _⟩
  | discard =>
      cases h
      exact ⟨.refl _, fun _ _ => .refl _ _⟩

theorem close_passes {u : Unit} (h : close (m := StateM (Watched σ)) sink l = (u, l')) :
    Passes l l' := by
  unfold close at h
  obtain ⟨sink', l₁, hflushed, h⟩ := StateM.exists_of_bind_apply h
  cases h
  exact (flushSink_passes hflushed).1

/-! ## Steps of a writer -/

/-- A writer goes on with its settings. -/
structure GoesOn (fallback : String) (w : WatchedWriter σ) (l : Watched σ)
    (w' : WatchedWriter σ) (l' : Watched σ) : Prop where
  settings : w'.settings = w.settings
  carries : Carries w.settings fallback w.sink l w'.sink l'

variable {w'' : WatchedWriter σ}

theorem GoesOn.refl (w : WatchedWriter σ) (l : Watched σ) : GoesOn fallback w l w l :=
  ⟨rfl, .refl _ l⟩

theorem GoesOn.trans (h : GoesOn fallback w l w' l') (h' : GoesOn fallback w' l' w'' l'') :
    GoesOn fallback w l w'' l'' :=
  ⟨h'.settings.trans h.settings, h.carries.trans (h.settings ▸ h'.carries)⟩

theorem flush_goesOn (h : flush (m := StateM (Watched σ)) w l = (w', l')) :
    Passes l l' ∧ GoesOn fallback w l w' l' := by
  unfold flush at h
  obtain ⟨sink, l₁, hflushed, h⟩ := StateM.exists_of_bind_apply h
  cases h
  obtain ⟨hpasses, hcarries⟩ := flushSink_passes hflushed
  exact ⟨hpasses, rfl, hcarries _ _⟩

theorem stamp_goesOn {x : StateM (Watched σ) Instant} {lastSync : Instant}
    (hx : ∀ l, Passes l (x l).2)
    (h : (x >>= fun now => pure ⟨settings, sink, now⟩) l = (w', l')) :
    GoesOn fallback ⟨settings, sink, lastSync⟩ l w' l' := by
  cases h
  exact ⟨rfl, .of_passes (hx l)⟩

theorem sync_goesOn (h : sync (m := StateM (Watched σ)) w l = (w', l')) :
    GoesOn fallback w l w' l' := by
  unfold sync at h
  obtain ⟨⟨settings, sink, lastSync⟩, l₁, hflushed, h⟩ := StateM.exists_of_bind_apply h
  refine (flush_goesOn hflushed).2.trans ?_
  have hnow (l : Watched σ) : Passes l (Host.now (m := StateM (Watched σ)) l).2 :=
    passes_ask (x := Host.now (m := StateM σ)) rfl
  cases sink with
  | file b path bytes isFallback =>
      obtain ⟨synced, l₂, hsynced, h⟩ := StateM.exists_of_bind_apply h
      have hpasses : Passes l₁ l₂ := ⟨grows_note hsynced, lastOpened_note hsynced⟩
      exact GoesOn.trans ⟨rfl, .of_passes hpasses⟩ (stamp_goesOn hnow h)
  | errorStream => exact stamp_goesOn hnow h
  | discard => exact stamp_goesOn hnow h

theorem syncIfDue_goesOn (h : syncIfDue (m := StateM (Watched σ)) w l = (w', l')) :
    GoesOn fallback w l w' l' := by
  unfold syncIfDue at h
  obtain ⟨now, l₁, hnow, h⟩ := StateM.exists_of_bind_apply h
  have hasks : GoesOn fallback w l w l₁ := ⟨rfl, .of_passes (passes_ask hnow)⟩
  refine hasks.trans ?_
  dsimp only at h
  split at h
  · exact sync_goesOn h
  · cases h
    exact .refl _ _

theorem recover_goesOn {goOn : Option (WatchedSink σ) → StateM (Watched σ) (WatchedWriter σ)}
    (hnone : goOn none = pure w)
    (hsome : ∀ sink, goOn (some sink) = (w.flush >>= fun w => close w.sink >>= fun _ =>
      Host.warn (mark ++ "recovered to primary path: " ++ w.settings.path) >>= fun _ =>
      pure { w with sink }))
    (hfirst : ∀ b path bytes, w.sink ≠ .file b path bytes false)
    (h : (openSink w.settings.path false >>= goOn) l = (w', l')) : GoesOn fallback w l w' l' := by
  obtain ⟨opened, l₁, hopened, h⟩ := StateM.exists_of_bind_apply h
  obtain ⟨hgrows, hopened⟩ := openSink_opens hopened
  rcases hopened with ⟨rfl, hlast, hrefused⟩ | ⟨file, size, rfl, hlast⟩
  · -- a refusal is no step down: the writer stays where it is
    rw [hnone] at h
    cases h
    refine ⟨rfl, hgrows, ?_⟩
    intro hserves hstands
    generalize w.sink = sink at hfirst hstands ⊢
    cases hstands with
    | first h => exact absurd rfl (hfirst _ _ _)
    | second hpath hmissed =>
        refine .second (by rw [hlast, hpath]) ?_
        intro hsame
        exact absurd hserves (hsame ▸ hrefused)
    | errorStream h => exact .errorStream (by rw [hlast, h])
    | discard h => exact .discard (by rw [hlast, h])
  · rw [hsome] at h
    obtain ⟨w₁, l₂, hflushed, h⟩ := StateM.exists_of_bind_apply h
    have hflush : Passes l₁ l₂ ∧ GoesOn fallback w l₁ w₁ l₂ := flush_goesOn hflushed
    obtain ⟨hpasses, hgoes⟩ := hflush
    obtain ⟨⟨⟩, l₃, hclosed, h⟩ := StateM.exists_of_bind_apply h
    obtain ⟨⟨⟩, l₄, hwarned, h⟩ := StateM.exists_of_bind_apply h
    cases h
    have hrest := (hpasses.trans (close_passes hclosed)).trans (warn_passes hwarned)
    refine ⟨hgoes.settings, hgrows.trans hrest.grows, ?_⟩
    intro _ _
    exact (Stands.first hlast).pass hrest

theorem tryRecover_goesOn (h : tryRecover (m := StateM (Watched σ)) w l = (w', l')) :
    GoesOn fallback w l w' l' := by
  obtain ⟨settings, sink, lastSync⟩ := w
  unfold tryRecover at h
  cases sink with
  | file b path bytes isFallback =>
      cases isFallback with
      | false =>
          cases h
          exact .refl _ l
      | true => exact recover_goesOn rfl (fun _ => rfl) nofun h
  | errorStream => exact recover_goesOn rfl (fun _ => rfl) nofun h
  | discard => exact recover_goesOn rfl (fun _ => rfl) nofun h

/-- To step down from the first file leads to the fallback file. -/
theorem degrade_goesOn (hfallback : w.settings.fallback = some fallback)
    (h : degrade (m := StateM (Watched σ)) w l = (w', l')) :
    w'.settings = w.settings ∧ l.deeds <+: l'.deeds ∧
      (IsFirst w.sink → Serves fallback l' → Stands w.settings fallback l' w'.sink) := by
  have hleave {next : WatchedSink σ} {l₁ : Watched σ}
      (h : (Host.warn (m := StateM (Watched σ)) (mark ++ "write failed, degrading") >>= fun _ =>
        close w.sink >>= fun _ => pure { w with sink := next }) l₁ = (w', l')) :
      Passes l₁ l' ∧ w' = { w with sink := next } := by
    obtain ⟨⟨⟩, l₂, hwarned, h⟩ := StateM.exists_of_bind_apply h
    obtain ⟨⟨⟩, l₃, hclosed, h⟩ := StateM.exists_of_bind_apply h
    cases h
    exact ⟨(warn_passes hwarned).trans (close_passes hclosed), rfl⟩
  obtain ⟨settings, sink, lastSync⟩ := w
  unfold degrade at h
  cases sink with
  | file b path bytes isFallback =>
      cases isFallback with
      | true =>
          obtain ⟨hpasses, rfl⟩ := hleave h
          exact ⟨rfl, hpasses.grows, fun ⟨_, _, _, hsink⟩ => by cases hsink⟩
      | false =>
          obtain ⟨opened, l₁, hopened, h⟩ := StateM.exists_of_bind_apply h
          obtain ⟨hgrows, hopens⟩ := openFallback_opens hfallback hopened
          have hrest : Passes l₁ l' ∧ w' = ⟨settings, opened.getD .errorStream, lastSync⟩ := by
            cases opened with
            | none => exact hleave h
            | some next => exact hleave h
          obtain ⟨hpasses, rfl⟩ := hrest
          refine ⟨rfl, hgrows.trans hpasses.grows, ?_⟩
          intro _ hserves
          obtain ⟨next, rfl, hstands⟩ := hopens (hserves.of_grows hpasses.grows)
          exact hstands.pass hpasses
  | errorStream =>
      obtain ⟨hpasses, rfl⟩ := hleave h
      exact ⟨rfl, hpasses.grows, fun ⟨_, _, _, hsink⟩ => by cases hsink⟩
  | discard =>
      obtain ⟨hpasses, rfl⟩ := hleave h
      exact ⟨rfl, hpasses.grows, fun ⟨_, _, _, hsink⟩ => by cases hsink⟩

/-! ## Rotations -/

theorem renames_rename {source target : String} {moved : Except IoFault Unit}
    (h : Host.rename (m := StateM (Watched σ)) source target l = (moved, l')) :
    Renames l l' ∧ ((lastOpened l.deeds).path = some source →
      (lastOpened l'.deeds).isAside = true) := by
  have hlast := lastOpened_note h
  unfold LastOpened.note at hlast
  dsimp only at hlast
  by_cases hsource : (lastOpened l.deeds).path = some source
  · rw [if_pos hsource] at hlast
    exact ⟨⟨grows_note h, by rw [hlast], by rw [hlast]⟩, fun _ => by rw [hlast]⟩
  · rw [if_neg hsource] at hlast
    exact ⟨⟨grows_note h, by rw [hlast], by rw [hlast]⟩, fun h => absurd h hsource⟩

theorem shift_renames {path : String} {n : Nat} {u : Unit}
    (h : shift (m := StateM (Watched σ)) path n l = (u, l')) : Renames l l' := by
  induction n generalizing l with
  | zero =>
      cases h
      exact (Passes.refl _).renames
  | succ n ih =>
      obtain ⟨moved, l₁, hmoved, h⟩ := StateM.exists_of_bind_apply h
      exact (renames_rename hmoved).1.trans (ih h)

/-- What is opened after a rotation is the same file again.  If it cannot be had, then the first
file was missed, or the fallback file does not work. -/
theorem reopen_stands (b : BufferedFile (Host.File (StateM (Watched σ)))) (bytes : Nat)
    (fallback : String) {path : String} {isFallback : Bool}
    {goOn : Option (WatchedSink σ) → StateM (Watched σ) (WatchedWriter σ)}
    (hnone : goOn none = (Host.warn (mark ++ "reopen after rotation failed") >>= fun _ =>
      pure { w with sink := .errorStream }))
    (hsome : ∀ sink, goOn (some sink) = pure { w with sink })
    (hrenames : Renames l l') (haside : (lastOpened l.deeds).path = some path →
      (lastOpened l'.deeds).isAside = true)
    (h : (openSink path isFallback >>= goOn) l' = (w', l'')) :
    w'.settings = w.settings ∧ l'.deeds <+: l''.deeds ∧
      (Serves fallback l'' → Stands w.settings fallback l (.file b path bytes isFallback) →
        Stands w.settings fallback l'' w'.sink) := by
  obtain ⟨opened, l₁, hopened, h⟩ := StateM.exists_of_bind_apply h
  obtain ⟨hgrows, hopened⟩ := openSink_opens hopened
  rcases hopened with ⟨rfl, hlast, hrefused⟩ | ⟨file, size, rfl, hlast⟩
  · rw [hnone] at h
    obtain ⟨⟨⟩, l₂, hwarned, h⟩ := StateM.exists_of_bind_apply h
    have hpasses := warn_passes hwarned
    cases h
    refine ⟨rfl, hgrows.trans hpasses.grows, ?_⟩
    intro hserves hstands
    cases hstands with
    | first hfirst =>
        -- this is the one way past a fallback file that works
        have hpath := hrenames.path
        rw [hfirst] at haside hpath
        have hmissed : lastOpened l₁.deeds = ⟨some w.settings.path, true, true⟩ := by
          rw [hlast, hpath, haside rfl]
        exact (Stands.errorStream hmissed).pass hpasses
    | second hpath hmissed =>
        exact absurd (hserves.of_grows hpasses.grows) hrefused
  · rw [hsome] at h
    cases h
    refine ⟨rfl, hgrows, ?_⟩
    intro _ hstands
    cases hstands with
    | first hfirst => exact .first hlast
    | second hpath hmissed => exact .second (by rw [hlast]) fun _ => by rw [hlast]

theorem rotate_goesOn (h : rotate (m := StateM (Watched σ)) w l = (w', l')) :
    GoesOn fallback w l w' l' := by
  unfold rotate at h
  obtain ⟨⟨settings, sink, lastSync⟩, l₁, hflushed, h⟩ := StateM.exists_of_bind_apply h
  refine (flush_goesOn hflushed).2.trans ?_
  cases sink with
  | errorStream =>
      cases h
      exact .refl _ _
  | discard =>
      cases h
      exact .refl _ _
  | file b path bytes isFallback =>
      obtain ⟨⟨⟩, l₂, hclosed, h⟩ := StateM.exists_of_bind_apply h
      obtain ⟨removed, l₃, hremoved, h⟩ := StateM.exists_of_bind_apply h
      obtain ⟨⟨⟩, l₄, hshifted, h⟩ := StateM.exists_of_bind_apply h
      obtain ⟨moved, l₅, hmoved, h⟩ := StateM.exists_of_bind_apply h
      have hclose : Passes l₁ l₂ := close_passes hclosed
      have hremove : Passes l₂ l₃ := ⟨grows_note hremoved, lastOpened_note hremoved⟩
      have hshift : Renames l₁ l₄ := (hclose.trans hremove).renames.trans (shift_renames hshifted)
      obtain ⟨hmove, haside⟩ := renames_rename hmoved
      have hrenames : Renames l₁ l₅ := hshift.trans hmove
      obtain ⟨hsettings, hgrows, hstands⟩ := reopen_stands b bytes fallback
        (w := ⟨settings, .errorStream, lastSync⟩) rfl (fun _ => rfl) hrenames
        (fun hpath => haside (hshift.path.trans hpath)) h
      exact ⟨hsettings, hrenames.grows.trans hgrows, hstands⟩

theorem rotateIfDue_goesOn {size : Nat}
    (h : rotateIfDue (m := StateM (Watched σ)) w size l = (w', l')) :
    GoesOn fallback w l w' l' := by
  obtain ⟨settings, sink, lastSync⟩ := w
  unfold rotateIfDue at h
  cases sink with
  | file b path bytes isFallback =>
      dsimp only at h
      split at h
      · exact rotate_goesOn h
      · cases h
        exact .refl _ l
  | errorStream =>
      cases h
      exact .refl _ l
  | discard =>
      cases h
      exact .refl _ l

/-! ## Lines -/

section

variable {line : String} {isDone : Bool}

theorem attempt_file_goesOn (fallback : String)
    {b : BufferedFile (Host.File (StateM (Watched σ)))} {path : String} {bytes : Nat}
    {isFallback : Bool} {lastSync : Instant}
    {goOn : Bool × BufferedFile (Host.File (StateM (Watched σ))) →
      StateM (Watched σ) (Bool × WatchedWriter σ)}
    (hwritten : ∀ b', goOn (true, b') =
      (syncIfDue ⟨settings, .file b' path (bytes + line.utf8ByteSize) isFallback, lastSync⟩
        >>= fun w => pure (true, w)))
    (hfailed : ∀ b', goOn (false, b') =
      pure (false, ⟨settings, .file b' path bytes isFallback, lastSync⟩))
    (h : (b.write line.toUTF8 >>= goOn) l = ((isDone, w'), l')) :
    GoesOn fallback ⟨settings, .file b path bytes isFallback, lastSync⟩ l w' l' ∧
      (isDone = false → Serves fallback l' →
        Stands settings fallback l (.file b path bytes isFallback) → IsFirst w'.sink) := by
  obtain ⟨⟨isWritten, b'⟩, l₁, hwrite, h⟩ := StateM.exists_of_bind_apply h
  have hfills := write_buffer_fills hwrite
  have hstep (size : Nat) : GoesOn fallback ⟨settings, .file b path bytes isFallback, lastSync⟩ l
      ⟨settings, .file b' path size isFallback, lastSync⟩ l₁ :=
    ⟨rfl, hfills.passes.grows, fun _ hstands => (hstands.buffer hfills.file).pass hfills.passes⟩
  cases isWritten with
  | true =>
      rw [hwritten] at h
      obtain ⟨w₂, l₂, hsynced, h⟩ := StateM.exists_of_bind_apply h
      cases h
      exact ⟨(hstep _).trans (syncIfDue_goesOn hsynced), nofun⟩
  | false =>
      rw [hfailed] at h
      cases h
      refine ⟨hstep bytes, ?_⟩
      intro _ hserves hstands
      cases hstands with
      | first _ => exact ⟨_, _, _, rfl⟩
      | second _ _ => exact absurd hserves (hfills.refused rfl)

theorem attempt_goesOn (fallback : String)
    (h : attempt (m := StateM (Watched σ)) w line l = ((isDone, w'), l')) :
    GoesOn fallback w l w' l' ∧ (isDone = false → Serves fallback l' →
      Stands w.settings fallback l w.sink → IsFirst w'.sink) := by
  unfold attempt at h
  obtain ⟨⟨settings, sink, lastSync⟩, l₁, hrotated, h⟩ := StateM.exists_of_bind_apply h
  have hrotate : GoesOn fallback w l ⟨settings, sink, lastSync⟩ l₁ := rotateIfDue_goesOn hrotated
  obtain rfl : settings = w.settings := hrotate.settings
  cases sink with
  | file b path bytes isFallback =>
      obtain ⟨hwrites, hfirst⟩ := attempt_file_goesOn fallback (fun _ => rfl) (fun _ => rfl) h
      refine ⟨hrotate.trans hwrites, ?_⟩
      intro hfailed hserves hstands
      exact hfirst hfailed hserves
        (hrotate.carries.stands (hserves.of_grows hwrites.carries.grows) hstands)
  | errorStream =>
      obtain ⟨isPrinted, l₂, hprinted, h⟩ := StateM.exists_of_bind_apply h
      have hpasses : Passes l₁ l₂ := ⟨grows_note hprinted, lastOpened_note hprinted⟩
      cases isPrinted with
      | true =>
          cases h
          exact ⟨hrotate.trans ⟨rfl, .of_passes hpasses⟩, nofun⟩
      | false =>
          cases h
          refine ⟨hrotate.trans ⟨rfl, hpasses.grows, ?_⟩, nofun⟩
          intro _ hstands
          cases hstands with
          | errorStream h => exact (Stands.discard h).pass hpasses
  | discard =>
      cases h
      exact ⟨hrotate, nofun⟩

theorem writeLine_goesOn {steps : Nat} (hfallback : w.settings.fallback = some fallback)
    (h : writeLine (m := StateM (Watched σ)) line steps w l = (w', l')) :
    GoesOn fallback w l w' l' := by
  induction steps generalizing w l with
  | zero =>
      unfold writeLine at h
      obtain ⟨⟨isDone, w₁⟩, l₁, hattempt, h⟩ := StateM.exists_of_bind_apply h
      cases h
      exact (attempt_goesOn fallback hattempt).1
  | succ steps ih =>
      unfold writeLine at h
      obtain ⟨⟨isDone, w₁⟩, l₁, hattempt, h⟩ := StateM.exists_of_bind_apply h
      obtain ⟨hattempts, hfirst⟩ := attempt_goesOn fallback hattempt
      cases isDone with
      | true =>
          cases h
          exact hattempts
      | false =>
          obtain ⟨w₂, l₂, hdegraded, h⟩ := StateM.exists_of_bind_apply h
          have hfallback₁ : w₁.settings.fallback = some fallback := by
            rw [hattempts.settings, hfallback]
          obtain ⟨hsettings, hgrows, hstands⟩ := degrade_goesOn hfallback₁ hdegraded
          have hrest : GoesOn fallback w₂ l₂ w' l' := ih (by rw [hsettings, hfallback₁]) h
          refine ⟨(hrest.settings.trans hsettings).trans hattempts.settings, ?_, ?_⟩
          · exact (hattempts.carries.grows.trans hgrows).trans hrest.carries.grows
          · intro hserves hbefore
            have hserves₂ : Serves fallback l₂ := hserves.of_grows hrest.carries.grows
            have hdown : Stands w₁.settings fallback l₂ w₂.sink :=
              hstands (hfirst rfl (hserves₂.of_grows hgrows) hbefore) hserves₂
            rw [← hattempts.settings, ← hsettings]
            exact hrest.carries.stands hserves (hsettings ▸ hdown)

end

/-! ## Sessions -/

theorem start_stands (hfallback : settings.fallback = some fallback)
    (h : start (m := StateM (Watched σ)) settings l = (w, l')) :
    w.settings = settings ∧ (Serves fallback l' → Stands settings fallback l' w.sink) := by
  have hstamp {sink : WatchedSink σ} {l₁ : Watched σ}
      (hstands : Serves fallback l₁ → Stands settings fallback l₁ sink)
      (h : (Host.now (m := StateM (Watched σ)) >>= fun now => pure ⟨settings, sink, now⟩) l₁ =
        (w, l')) :
      w.settings = settings ∧ (Serves fallback l' → Stands settings fallback l' w.sink) := by
    obtain ⟨now, l₂, hnow, h⟩ := StateM.exists_of_bind_apply h
    cases h
    have hpasses : Passes l₁ l' := passes_ask hnow
    refine ⟨rfl, ?_⟩
    intro hserves
    exact (hstands (hserves.of_grows hpasses.grows)).pass hpasses
  unfold start at h
  obtain ⟨opened, l₁, hopened, h⟩ := StateM.exists_of_bind_apply h
  obtain ⟨-, hopened⟩ := openSink_opens hopened
  rcases hopened with ⟨rfl, -, -⟩ | ⟨file, size, rfl, hlast⟩
  · dsimp only at h
    obtain ⟨opened, l₂, hsecond, h⟩ := StateM.exists_of_bind_apply h
    obtain ⟨-, hopens⟩ := openFallback_opens hfallback hsecond
    cases opened with
    | none =>
        obtain ⟨⟨⟩, l₃, hwarned, h⟩ := StateM.exists_of_bind_apply h
        refine hstamp ?_ h
        intro hserves
        obtain ⟨sink, hnone, -⟩ := hopens (hserves.of_grows (warn_passes hwarned).grows)
        cases hnone
    | some sink =>
        obtain ⟨⟨⟩, l₃, hwarned, h⟩ := StateM.exists_of_bind_apply h
        refine hstamp ?_ h
        intro hserves
        obtain ⟨sink, hsink, hstands⟩ := hopens (hserves.of_grows (warn_passes hwarned).grows)
        cases hsink
        exact hstands.pass (warn_passes hwarned)
  · exact hstamp (fun _ => .first hlast) h

theorem serve_goesOn {call : Call} (hfallback : w.settings.fallback = some fallback)
    (h : serve (m := StateM (Watched σ)) w call l = (w', l')) : GoesOn fallback w l w' l' := by
  cases call with
  | write entry => exact writeLine_goesOn hfallback h
  | flush => exact (flush_goesOn h).2
  | sync => exact sync_goesOn h
  | recover => exact tryRecover_goesOn h

theorem calls_goOn {calls : List Call} (hfallback : w.settings.fallback = some fallback)
    (h : calls.foldlM (m := StateM (Watched σ)) serve w l = (w', l')) :
    GoesOn fallback w l w' l' := by
  induction calls generalizing w l with
  | nil =>
      cases h
      exact .refl _ _
  | cons call calls ih =>
      rw [List.foldlM_cons] at h
      obtain ⟨w₁, l₁, hserved, h⟩ := StateM.exists_of_bind_apply h
      have hserve : GoesOn fallback w l w₁ l₁ := serve_goesOn hfallback hserved
      exact hserve.trans (ih (by rw [hserve.settings, hfallback]) h)

/-- Where a writer stands tells its state. -/
theorem Stands.state_iff (h : Stands settings fallback l w.sink) :
    (w.state = "normal" ∨ w.state = "fallback") ↔
      lastOpened l.deeds ≠ ⟨some settings.path, true, true⟩ := by
  obtain ⟨settings', sink, lastSync⟩ := w
  cases h with
  | first h => simp [state, h]
  | second hpath hmissed =>
      have hother : lastOpened l.deeds ≠ ⟨some settings.path, true, true⟩ := by
        intro hlast
        rw [hlast] at hpath hmissed
        have hsame : fallback = settings.path := (Option.some.inj hpath).symm
        cases hmissed hsame
      exact iff_of_true (.inr rfl) hother
  | errorStream h => simp [state, h]
  | discard h => simp [state, h]

/-- With a fallback file that works, a writer is on one of its files, unless the last file that
was opened is the first one, and this one was put aside and could not be opened again. -/
theorem on_files_iff (settings : LogSettings) (base : σ) (calls : List Call) {fallback : String}
    (hfallback : settings.fallback = some fallback)
    (hserves : ∀ deed ∈ (session (m := StateM (Watched σ)) settings calls
      (.opening base)).2.deeds, ¬deed.Refuses fallback) :
    let outcome := session (m := StateM (Watched σ)) settings calls (.opening base)
    session (m := StateM σ) settings calls base =
      (outcome.1.map Watched.plainFile, outcome.2.base) ∧
    ((outcome.1.state = "normal" ∨ outcome.1.state = "fallback") ↔
      lastOpened outcome.2.deeds ≠ ⟨some settings.path, true, true⟩) := by
  refine ⟨reflects_session Watched.overlay settings calls (.opening base), ?_⟩
  generalize hsession : session (m := StateM (Watched σ)) settings calls (.opening base) = outcome
    at hserves ⊢
  obtain ⟨w', l'⟩ := outcome
  unfold session at hsession
  obtain ⟨w, l, hstarted, hserved⟩ := StateM.exists_of_bind_apply hsession
  obtain ⟨rfl, hstands⟩ := start_stands hfallback hstarted
  have hgoes : GoesOn fallback w l w' l' := calls_goOn hfallback hserved
  have hbefore : Serves fallback l := Serves.of_grows hserves hgoes.carries.grows
  exact (hgoes.carries.stands hserves (hstands hbefore)).state_iff

/-- A machine on which the first file cannot be opened any more after so many operations, and
nothing else goes wrong. -/
def lockedMachine (count : Nat) : Machine :=
  { Machine.blank with
    upsets := fun step operation =>
      if operation = .openAppend "a.jsonl" ∧ count ≤ step then some ⟨.noSpace, 0, false⟩
      else none }

/-- The first file takes no line. -/
def tinyFiles : LogSettings := { twoFiles with maxSize := 0 }

theorem on_files_on_lockedMachine :
    let outcome := session (m := StateM (Watched Machine)) tinyFiles [.write someEntry, .recover]
      (.opening (lockedMachine 0))
    tinyFiles.fallback = some "b.jsonl" ∧ (∀ deed ∈ outcome.2.deeds, ¬deed.Refuses "b.jsonl") ∧
      session (m := StateM Machine) tinyFiles [.write someEntry, .recover] (lockedMachine 0) =
        (outcome.1.map Watched.plainFile, outcome.2.base) ∧
      (outcome.1.state = "normal" ∨ outcome.1.state = "fallback") := by
  intro outcome
  have hserves : ∀ deed ∈ outcome.2.deeds, ¬deed.Refuses "b.jsonl" := by decide +kernel
  have hopened : lastOpened outcome.2.deeds ≠ ⟨some tinyFiles.path, true, true⟩ := by
    decide +kernel
  have hfallback : tinyFiles.fallback = some "b.jsonl" := rfl
  obtain ⟨hsame, hstate⟩ :=
    on_files_iff tinyFiles (lockedMachine 0) [.write someEntry, .recover] hfallback hserves
  exact ⟨hfallback, hserves, hsame, hstate.2 hopened⟩

/-- A rotation that cannot open the first file again goes past a fallback file that works. -/
theorem fallback_passed_over_on_lockedMachine :
    let outcome := session (m := StateM (Watched Machine)) tinyFiles [.write someEntry]
      (.opening (lockedMachine 2))
    (∀ step operation, operation ≠ .openAppend "a.jsonl" →
        (lockedMachine 2).upsets step operation = none) ∧
      (∀ deed ∈ outcome.2.deeds, ¬deed.Refuses "b.jsonl") ∧
      (outcome.2.base.disk.openFile Disk.root "b.jsonl").isOk = true ∧
      outcome.1.state = "stderr" := by
  refine ⟨?_, by decide +kernel, by decide +kernel, by decide +kernel⟩
  intro step operation hother
  exact if_neg fun h => hother h.1

end LogWriter

end Backlog
