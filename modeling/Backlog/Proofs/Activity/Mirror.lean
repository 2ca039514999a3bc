import Backlog.Proofs.Activity.Ledger
import Backlog.Proofs.Host.Overlay

/-!
# A writer under watch

A writer does on an overlay what it does on the system below: it ends in the same state, and
leaves the same system behind (`reflects_session`).  The books of a `Ledger` are such an
overlay, so what they tell is what happened.
-/

namespace Backlog

/-! ## The files of a writer -/

namespace BufferedFile

variable {F F' : Type}

/-- The buffer of another file. -/
def map (f : F → F') (b : BufferedFile F) : BufferedFile F' := ⟨f b.file, b.pending⟩

end BufferedFile

namespace LogSink

variable {F F' : Type}

/-- The same sink with another file. -/
def map (f : F → F') : LogSink F → LogSink F'
  | .file buffer path bytes isFallback => .file (buffer.map f) path bytes isFallback
  | .errorStream => .errorStream
  | .discard => .discard

end LogSink

namespace LogWriter

variable {F F' : Type}

/-- The same writer with another file. -/
def map (f : F → F') (w : LogWriter F) : LogWriter F' := ⟨w.settings, w.sink.map f, w.lastSync⟩

end LogWriter

section

variable {σ τ : Type} [Host (StateM τ)] [Host (StateM σ)] {base : τ → σ}
  {file : Host.File (StateM τ) → Host.File (StateM σ)}

/-! ## Buffered files -/

namespace BufferedFile

/-- What a write or a flush answers, with another file. -/
def mapAnswer (file : Host.File (StateM τ) → Host.File (StateM σ))
    (answer : Bool × BufferedFile (Host.File (StateM τ))) :
    Bool × BufferedFile (Host.File (StateM σ)) :=
  (answer.1, answer.2.map file)

theorem reflects_flush (h : Overlay base file) (b : BufferedFile (Host.File (StateM τ))) :
    Reflects base (mapAnswer file) b.flush (b.map file).flush := by
  unfold flush
  by_cases hempty : b.pending.isEmpty = true
  · rw [if_pos hempty, if_pos (show (b.map file).pending.isEmpty = true from hempty)]
    exact .pure _
  · rw [if_neg hempty, if_neg (show ¬(b.map file).pending.isEmpty = true from hempty)]
    refine .bind (h.write _ _) fun written => ?_
    dsimp only [id]
    cases written.fault with
    | none => exact .pure _
    | some fault => exact .pure _

theorem reflects_put (h : Overlay base file) (b : BufferedFile (Host.File (StateM τ)))
    (bytes : ByteArray) :
    Reflects base (mapAnswer file) (b.put bytes) ((b.map file).put bytes) := by
  unfold put
  by_cases hlarge : capacity ≤ bytes.size
  · rw [if_pos hlarge, if_pos hlarge]
    exact .bind (h.write _ _) fun _ => .pure _
  · rw [if_neg hlarge, if_neg hlarge]
    exact .pure _

theorem reflects_write (h : Overlay base file) (b : BufferedFile (Host.File (StateM τ)))
    (bytes : ByteArray) :
    Reflects base (mapAnswer file) (b.write bytes) ((b.map file).write bytes) := by
  unfold write
  by_cases hroom : bytes.size ≤ capacity - b.pending.size
  · rw [if_pos hroom,
      if_pos (show bytes.size ≤ capacity - (b.map file).pending.size from hroom)]
    exact reflects_put h b bytes
  · rw [if_neg hroom,
      if_neg (show ¬bytes.size ≤ capacity - (b.map file).pending.size from hroom)]
    refine .bind (reflects_flush h b) fun answer => ?_
    obtain ⟨isDone, b'⟩ := answer
    cases isDone with
    | true => exact reflects_put h b' bytes
    | false => exact .pure _

end BufferedFile

/-! ## Writers -/

namespace LogWriter

theorem reflects_openSink (h : Overlay base file) (path : String) (isFallback : Bool) :
    Reflects base (Option.map (LogSink.map file)) (openSink path isFallback)
      (openSink path isFallback) := by
  unfold openSink
  dsimp only
  cases Path.parent? path with
  | none =>
      refine .bind (.pure _ : Reflects base id _ _) fun made => ?_
      cases made with
      | error fault => exact .pure _
      | ok made =>
          refine .bind (h.openAppend path) fun opened => ?_
          cases opened <;> exact .pure _
  | some parent =>
      refine .bind (h.createDirs parent) fun made => ?_
      cases made with
      | error fault => exact .pure _
      | ok made =>
          refine .bind (h.openAppend path) fun opened => ?_
          cases opened <;> exact .pure _

theorem reflects_openFallback (h : Overlay base file) (settings : LogSettings) :
    Reflects base (Option.map (LogSink.map file)) (openFallback settings)
      (openFallback settings) := by
  unfold openFallback
  cases settings.fallback with
  | none => exact .pure _
  | some path => exact reflects_openSink h path true

theorem reflects_flushSink (h : Overlay base file) (sink : LogSink (Host.File (StateM τ))) :
    Reflects base (LogSink.map file) (flushSink sink) (flushSink (sink.map file)) := by
  cases sink with
  | file b path bytes isFallback =>
      exact .bind (BufferedFile.reflects_flush h b) fun _ => .pure _
  | errorStream => exact .pure _
  | discard => exact .pure _

theorem reflects_close (h : Overlay base file) (sink : LogSink (Host.File (StateM τ))) :
    Reflects base id (close sink) (close (sink.map file)) :=
  .bind (reflects_flushSink h sink) fun _ => .pure _

theorem reflects_stamp (h : Overlay base file) (settings : LogSettings)
    (sink : LogSink (Host.File (StateM τ))) :
    Reflects base (map file) (Host.now >>= fun now => pure ⟨settings, sink, now⟩)
      (Host.now >>= fun now => pure ⟨settings, sink.map file, now⟩) :=
  .bind h.now fun _ => .pure _

theorem reflects_start (h : Overlay base file) (settings : LogSettings) :
    Reflects base (map file) (start settings) (start settings) := by
  unfold start
  dsimp only
  refine .bind (reflects_openSink h settings.path false) fun opened => ?_
  cases opened with
  | some sink => exact reflects_stamp h settings sink
  | none =>
      refine .bind (reflects_openFallback h settings) fun opened => ?_
      cases opened with
      | some sink => exact .bind (h.warn _) fun _ => reflects_stamp h settings sink
      | none => exact .bind (h.warn _) fun _ => reflects_stamp h settings .errorStream

variable (w : LogWriter (Host.File (StateM τ)))

theorem reflects_flush (h : Overlay base file) :
    Reflects base (map file) w.flush (w.map file).flush :=
  .bind (reflects_flushSink h w.sink) fun _ => .pure _

theorem reflects_sync (h : Overlay base file) :
    Reflects base (map file) w.sync (w.map file).sync := by
  refine .bind (reflects_flush w h) fun w => ?_
  obtain ⟨settings, sink, lastSync⟩ := w
  cases sink with
  | file b path bytes isFallback => exact .bind (h.sync _) fun _ => reflects_stamp h settings _
  | errorStream => exact reflects_stamp h settings .errorStream
  | discard => exact reflects_stamp h settings .discard

theorem reflects_syncIfDue (h : Overlay base file) :
    Reflects base (map file) w.syncIfDue (w.map file).syncIfDue := by
  refine .bind h.now fun now => ?_
  by_cases hdue : w.settings.syncSeconds ≤
      (max 0 (now.nanos - w.lastSync.nanos)).toNat / Calendar.second
  · have hdue' : (w.map file).settings.syncSeconds ≤
        (max 0 (now.nanos - (w.map file).lastSync.nanos)).toNat / Calendar.second := hdue
    dsimp only [id]
    rw [if_pos hdue, if_pos hdue']
    exact reflects_sync w h
  · have hdue' : ¬(w.map file).settings.syncSeconds ≤
        (max 0 (now.nanos - (w.map file).lastSync.nanos)).toNat / Calendar.second := hdue
    dsimp only [id]
    rw [if_neg hdue, if_neg hdue']
    exact .pure w

theorem reflects_tryRecover (h : Overlay base file) :
    Reflects base (map file) w.tryRecover (w.map file).tryRecover := by
  have hrecover {goOn : Option (LogSink (Host.File (StateM τ))) →
        StateM τ (LogWriter (Host.File (StateM τ)))}
      {goOn' : Option (LogSink (Host.File (StateM σ))) →
        StateM σ (LogWriter (Host.File (StateM σ)))}
      (hnone : Reflects base (map file) (goOn none) (goOn' none))
      (hsome : ∀ sink,
        Reflects base (map file) (goOn (some sink)) (goOn' (some (sink.map file)))) :
      Reflects base (map file) (openSink w.settings.path false >>= goOn)
        (openSink w.settings.path false >>= goOn') := by
    refine .bind (reflects_openSink h _ _) fun opened => ?_
    cases opened with
    | none => exact hnone
    | some sink => exact hsome sink
  have hreturn (sink : LogSink (Host.File (StateM τ))) : Reflects base (map file)
      (w.flush >>= fun w => close w.sink >>= fun _ =>
        Host.warn (mark ++ "recovered to primary path: " ++ w.settings.path) >>= fun _ =>
        pure { w with sink })
      ((w.map file).flush >>= fun w => close w.sink >>= fun _ =>
        Host.warn (mark ++ "recovered to primary path: " ++ w.settings.path) >>= fun _ =>
        pure { w with sink := sink.map file }) :=
    .bind (reflects_flush w h) fun w => .bind (reflects_close h w.sink) fun _ =>
      .bind (h.warn _) fun _ => .pure _
  obtain ⟨settings, sink, lastSync⟩ := w
  cases sink with
  | file b path bytes isFallback =>
      cases isFallback with
      | false => exact .pure _
      | true => exact hrecover (.pure _) hreturn
  | errorStream => exact hrecover (.pure _) hreturn
  | discard => exact hrecover (.pure _) hreturn

theorem reflects_degrade (h : Overlay base file) :
    Reflects base (map file) w.degrade (w.map file).degrade := by
  have hleave (next : LogSink (Host.File (StateM τ))) : Reflects base (map file)
      (Host.warn (mark ++ "write failed, degrading") >>= fun _ => close w.sink >>= fun _ =>
        pure { w with sink := next })
      (Host.warn (mark ++ "write failed, degrading") >>= fun _ =>
        close (w.map file).sink >>= fun _ => pure { w.map file with sink := next.map file }) :=
    .bind (h.warn _) fun _ => .bind (reflects_close h w.sink) fun _ => .pure _
  obtain ⟨settings, sink, lastSync⟩ := w
  cases sink with
  | file b path bytes isFallback =>
      cases isFallback with
      | true => exact hleave .errorStream
      | false =>
          refine .bind (reflects_openFallback h settings) fun opened => ?_
          cases opened with
          | none => exact hleave .errorStream
          | some next => exact hleave next
  | errorStream => exact hleave .discard
  | discard => exact hleave .discard

theorem reflects_shift (h : Overlay base file) (path : String) (n : Nat) :
    Reflects base id (shift path n) (shift path n) := by
  induction n with
  | zero => exact .pure _
  | succ n ih => exact .bind (h.rename _ _) fun _ => ih

theorem reflects_rotate (h : Overlay base file) :
    Reflects base (map file) w.rotate (w.map file).rotate := by
  refine .bind (reflects_flush w h) fun w => ?_
  obtain ⟨settings, sink, lastSync⟩ := w
  cases sink with
  | file b path bytes isFallback =>
      refine .bind (reflects_close h (.file b path bytes isFallback)) fun _ => ?_
      refine .bind (h.remove _) fun _ => ?_
      refine .bind (reflects_shift h path _) fun _ => ?_
      refine .bind (h.rename _ _) fun _ => ?_
      refine .bind (reflects_openSink h path isFallback) fun opened => ?_
      cases opened with
      | none => exact .bind (h.warn _) fun _ => .pure _
      | some sink => exact .pure _
  | errorStream => exact .pure _
  | discard => exact .pure _

theorem reflects_rotateIfDue (h : Overlay base file) (size : Nat) :
    Reflects base (map file) (w.rotateIfDue size) ((w.map file).rotateIfDue size) := by
  obtain ⟨settings, sink, lastSync⟩ := w
  cases sink with
  | file b path bytes isFallback =>
      change Reflects base (map file) (if settings.maxSize < bytes + size then _ else _)
        (if settings.maxSize < bytes + size then _ else _)
      by_cases hdue : settings.maxSize < bytes + size
      · rw [if_pos hdue, if_pos hdue]
        exact reflects_rotate _ h
      · rw [if_neg hdue, if_neg hdue]
        exact .pure _
  | errorStream => exact .pure _
  | discard => exact .pure _

/-- What an attempt to write a line answers, with another file. -/
def mapAttempt (file : Host.File (StateM τ) → Host.File (StateM σ))
    (answer : Bool × LogWriter (Host.File (StateM τ))) :
    Bool × LogWriter (Host.File (StateM σ)) :=
  (answer.1, answer.2.map file)

theorem reflects_attempt (h : Overlay base file) (line : String) :
    Reflects base (mapAttempt file) (w.attempt line) ((w.map file).attempt line) := by
  refine .bind (reflects_rotateIfDue w h _) fun w => ?_
  obtain ⟨settings, sink, lastSync⟩ := w
  cases sink with
  | file b path bytes isFallback =>
      refine .bind (BufferedFile.reflects_write h b line.toUTF8) fun answer => ?_
      obtain ⟨isDone, b'⟩ := answer
      cases isDone with
      | true =>
          exact .bind (reflects_syncIfDue ⟨settings, .file b' path _ _, lastSync⟩ h) fun _ =>
            .pure _
      | false => exact .pure _
  | errorStream =>
      refine .bind (h.printError _) fun isPrinted => ?_
      cases isPrinted with
      | true => exact .pure _
      | false => exact .pure _
  | discard => exact .pure _

theorem reflects_writeLine (h : Overlay base file) (line : String) (steps : Nat) :
    Reflects base (map file) (writeLine line steps w) (writeLine line steps (w.map file)) := by
  induction steps generalizing w with
  | zero => exact .bind (reflects_attempt w h line) fun _ => .pure _
  | succ steps ih =>
      refine .bind (reflects_attempt w h line) fun answer => ?_
      obtain ⟨isDone, w⟩ := answer
      cases isDone with
      | true => exact .pure _
      | false => exact .bind (reflects_degrade w h) fun w => ih w

end LogWriter

end

/-! ## Sessions -/

namespace LogWriter

/-- What is asked of a writer. -/
inductive Call where
  | write (entry : LogEntry)
  | flush
  | sync
  | recover

section

variable {m : Type → Type} [Monad m] [Host m]

/-- A writer does what it is asked. -/
def serve (w : LogWriter (Host.File m)) : Call → m (LogWriter (Host.File m))
  | .write entry => w.writeEntry entry
  | .flush => w.flush
  | .sync => w.sync
  | .recover => w.tryRecover

/-- A writer from its start on. -/
def session (settings : LogSettings) (calls : List Call) : m (LogWriter (Host.File m)) := do
  let w ← start settings
  calls.foldlM serve w

end

section

variable {σ τ : Type} [Host (StateM τ)] [Host (StateM σ)] {base : τ → σ}
  {file : Host.File (StateM τ) → Host.File (StateM σ)}

theorem reflects_serve (h : Overlay base file) (w : LogWriter (Host.File (StateM τ)))
    (call : Call) : Reflects base (map file) (serve w call) (serve (w.map file) call) := by
  cases call with
  | write entry => exact reflects_writeLine w h _ _
  | flush => exact reflects_flush w h
  | sync => exact reflects_sync w h
  | recover => exact reflects_tryRecover w h

theorem reflects_calls (h : Overlay base file) (calls : List Call)
    (w : LogWriter (Host.File (StateM τ))) :
    Reflects base (map file) (calls.foldlM serve w) (calls.foldlM serve (w.map file)) := by
  induction calls generalizing w with
  | nil => exact .pure _
  | cons call calls ih =>
      rw [List.foldlM_cons, List.foldlM_cons]
      exact .bind (reflects_serve h w call) fun w => ih w

/-- What is kept beside a system changes nothing in a session. -/
theorem reflects_session (h : Overlay base file) (settings : LogSettings) (calls : List Call) :
    Reflects base (map file) (session settings calls) (session settings calls) :=
  .bind (reflects_start h settings) fun w => reflects_calls h calls w

end

end LogWriter

/-! ## Books -/

namespace Ledger

variable {σ : Type} [Host (StateM σ)]

/-- A file without its place in the books. -/
abbrev plainFile : Host.File (StateM (Ledger σ)) → Host.File (StateM σ) := BookedFile.file

omit [Host (StateM σ)] in
theorem reflects_ask {α : Type} (x : StateM σ α) : Reflects base id (ask x) x := fun _ => rfl

/-- Books about a system change nothing on it. -/
theorem overlay : Overlay (σ := σ) base plainFile where
  now := reflects_ask _
  createDirs _ := reflects_ask _
  openAppend path := by
    intro l
    change _ = (((l.bookOpened path (fun a => a.1)
          (Host.openAppend (m := StateM σ) path l.base)).1.map _).map _,
      (l.bookOpened path (fun a => a.1) (Host.openAppend (m := StateM σ) path l.base)).2.base)
    generalize Host.openAppend (m := StateM σ) path l.base = answer
    obtain ⟨outcome, base⟩ := answer
    cases outcome <;> rfl
  openFresh path := by
    intro l
    change _ = (((l.bookOpened path id (Host.openFresh (m := StateM σ) path l.base)).1.map _).map _,
      (l.bookOpened path id (Host.openFresh (m := StateM σ) path l.base)).2.base)
    generalize Host.openFresh (m := StateM σ) path l.base = answer
    obtain ⟨outcome, base⟩ := answer
    cases outcome <;> rfl
  write _ _ := fun _ => rfl
  sync _ := reflects_ask _
  rename _ _ := reflects_ask _
  remove _ := reflects_ask _
  printError text := by
    intro l
    change _ = ((l.bookPrinted text (Host.printError (m := StateM σ) text l.base)).1,
      (l.bookPrinted text (Host.printError (m := StateM σ) text l.base)).2.base)
    generalize Host.printError (m := StateM σ) text l.base = answer
    obtain ⟨isPrinted, base⟩ := answer
    cases isPrinted <;> rfl

end Ledger

namespace LogWriter

variable {σ : Type} [Host (StateM σ)]

abbrev WatchedSink (σ : Type) [Host (StateM σ)] : Type := LogSink (Host.File (StateM (Watched σ)))

abbrev WatchedWriter (σ : Type) [Host (StateM σ)] : Type :=
  LogWriter (Host.File (StateM (Watched σ)))

/-- A writer without the places in the books. -/
abbrev plain (w : Booked σ) : LogWriter (Host.File (StateM σ)) := w.map Ledger.plainFile

end LogWriter

end Backlog
