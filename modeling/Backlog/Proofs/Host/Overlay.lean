import Backlog.Host.Machine
import Backlog.Proofs.Service.Acts

/-!
# Systems that keep something beside another one

A program is written over any system that answers its questions.  So it also runs on a system
that passes all questions on to another one and keeps a record beside it.  What such a record
tells is what happens without it if forgetting the record changes no answer: that is an
`Overlay`, and what a program does on the one system it then does on the other (`Reflects`).

`Watched` is the plainest record.  It notes every operation on files, whether it worked, and
how things stood before and afterwards, so statements about each moment of a run can be read
off it.
-/

namespace Backlog

section

variable {σ τ α β γ δ : Type}

/-- Two computations that are the same when what is kept beside the system is forgotten. -/
def Reflects (base : τ → σ) (view : α → β) (x : StateM τ α) (y : StateM σ β) : Prop :=
  ∀ t, y (base t) = (view (x t).1, base (x t).2)

variable {base : τ → σ}

theorem Reflects.pure {view : α → β} (a : α) :
    Reflects base view (Pure.pure a) (Pure.pure (view a)) := fun _ => rfl

theorem Reflects.bind {view : α → β} {view' : γ → δ} {x : StateM τ α} {y : StateM σ β}
    {f : α → StateM τ γ} {g : β → StateM σ δ} (hx : Reflects base view x y)
    (hf : ∀ a, Reflects base view' (f a) (g (view a))) :
    Reflects base view' (x >>= f) (y >>= g) := by
  intro t
  rw [StateM.bind_apply, StateM.bind_apply, hx t]
  exact hf _ _

end

section

variable {σ τ : Type} [Host (StateM τ)] [Host (StateM σ)]

/-- A system on another one: to forget what is kept beside that one changes no answer.  Files
have a form of their own here. -/
structure Overlay (base : τ → σ) (file : Host.File (StateM τ) → Host.File (StateM σ)) :
    Prop where
  now : Reflects base id Host.now Host.now
  createDirs : ∀ path, Reflects base id (Host.createDirs path) (Host.createDirs path)
  openAppend : ∀ path, Reflects base (fun opened => opened.map fun (f, size) => (file f, size))
    (Host.openAppend path) (Host.openAppend path)
  openFresh : ∀ path, Reflects base (fun opened => opened.map file)
    (Host.openFresh path) (Host.openFresh path)
  write : ∀ f bytes, Reflects base id (Host.write f bytes) (Host.write (file f) bytes)
  sync : ∀ f, Reflects base id (Host.sync f) (Host.sync (file f))
  rename : ∀ source target,
    Reflects base id (Host.rename source target) (Host.rename source target)
  remove : ∀ path, Reflects base id (Host.remove path) (Host.remove path)
  printError : ∀ text, Reflects base id (Host.printError text) (Host.printError text)

variable {base : τ → σ} {file : Host.File (StateM τ) → Host.File (StateM σ)}

theorem Overlay.warn (h : Overlay base file) (text : String) :
    Reflects base id (Host.warn text) (Host.warn text) :=
  .bind (h.printError _) fun _ => .pure ()

end

/-! ## Systems that are watched -/

/-- An operation on files: whether it worked, and how things stood before and after it. -/
structure Deed (σ : Type) where
  operation : FileOperation
  isDone : Bool
  before : σ
  after : σ

/-- A system, and what was done on it so far. -/
structure Watched (σ : Type) where
  base : σ
  deeds : List (Deed σ)

/-- An open file, and the path under which it was opened. -/
structure WatchedFile (F : Type) where
  path : String
  file : F

namespace Watched

variable {σ α : Type}

/-- Nothing was done yet. -/
def opening (base : σ) : Watched σ := ⟨base, []⟩

/-- Ask the system for something that is not noted. -/
def ask (x : StateM σ α) : StateM (Watched σ) α := fun w =>
  ((x w.base).1, { w with base := (x w.base).2 })

/-- Do something, and note it. -/
def note (operation : FileOperation) (isDone : α → Bool) (x : StateM σ α) :
    StateM (Watched σ) α := fun w =>
  ((x w.base).1,
    ⟨(x w.base).2, w.deeds ++ [⟨operation, isDone (x w.base).1, w.base, (x w.base).2⟩]⟩)

/-- The system after one more operation. -/
def after (w : Watched σ) (operation : FileOperation) (isDone : Bool) (base : σ) : Watched σ :=
  ⟨base, w.deeds ++ [⟨operation, isDone, w.base, base⟩]⟩

theorem note_of_eq {operation : FileOperation} {isDone : α → Bool} {x : StateM σ α}
    {w : Watched σ} {a : α} {s : σ} (h : x w.base = (a, s)) :
    note operation isDone x w = (a, w.after operation (isDone a) s) := by
  rw [note, h]
  rfl

theorem exists_of_note {operation : FileOperation} {isDone : α → Bool} {x : StateM σ α}
    {w w' : Watched σ} {a : α} (h : note operation isDone x w = (a, w')) :
    ∃ s, x w.base = (a, s) ∧ w' = w.after operation (isDone a) s := by
  cases h
  exact ⟨_, rfl, rfl⟩

theorem reflects_ask (x : StateM σ α) : Reflects base id (ask x) x := fun _ => rfl

theorem reflects_note (operation : FileOperation) (isDone : α → Bool) (x : StateM σ α) :
    Reflects base id (note operation isDone x) x := fun _ => rfl

variable [Host (StateM σ)]

instance : Host (StateM (Watched σ)) where
  File := WatchedFile (Host.File (StateM σ))
  env name := ask (Host.env name)
  now := ask Host.now
  uptime := ask Host.uptime
  pid := ask Host.pid
  isThere path := ask (Host.isThere path)
  read path := ask (Host.read path)
  createDirs path := note (.createDirs path) Except.isOk (Host.createDirs path)
  openAppend path := do
    let opened ← note (.openAppend path) Except.isOk (Host.openAppend path)
    return opened.map fun (file, size) => (⟨path, file⟩, size)
  openFresh path := do
    let opened ← note (.openFresh path) Except.isOk (Host.openFresh path)
    return opened.map fun file => ⟨path, file⟩
  write file bytes :=
    note (.write file.path) (fun written => written.fault.isNone) (Host.write file.file bytes)
  sync file := note (.sync file.path) Except.isOk (Host.sync file.file)
  rename source target := note (.rename source target) Except.isOk (Host.rename source target)
  remove path := note (.remove path) Except.isOk (Host.remove path)
  printError text := note .printError id (Host.printError text)
  isRaised signal := ask (Host.isRaised signal)
  takeSignal signal := ask (Host.takeSignal signal)
  kill pid signal := ask (Host.kill pid signal)
  sleep millis := ask (Host.sleep millis)

theorem exists_of_openFresh {path : String} {w w' : Watched σ}
    {opened : Except IoFault (WatchedFile (Host.File (StateM σ)))}
    (h : Host.openFresh (m := StateM (Watched σ)) path w = (opened, w')) :
    ∃ answer s, Host.openFresh (m := StateM σ) path w.base = (answer, s) ∧
      opened = answer.map (WatchedFile.mk path) ∧ w' = w.after (.openFresh path) answer.isOk s := by
  change (note (.openFresh path) Except.isOk (Host.openFresh path) >>= fun opened =>
    pure (opened.map fun file => WatchedFile.mk path file)) w = _ at h
  obtain ⟨answer, w₁, hnoted, h⟩ := StateM.exists_of_bind_apply h
  obtain ⟨s, hopen, rfl⟩ := exists_of_note hnoted
  cases h
  exact ⟨answer, s, hopen, rfl, rfl⟩

/-- A file without its path. -/
abbrev plainFile : Host.File (StateM (Watched σ)) → Host.File (StateM σ) := WatchedFile.file

/-- To watch a system changes nothing on it. -/
theorem overlay : Overlay (σ := σ) base plainFile where
  now := reflects_ask _
  createDirs _ := reflects_note _ _ _
  openAppend path := by
    intro w
    change _ = (((Host.openAppend (m := StateM σ) path w.base).1.map
      fun (file, size) => (WatchedFile.mk path file, size)).map _,
        (Host.openAppend (m := StateM σ) path w.base).2)
    generalize Host.openAppend (m := StateM σ) path w.base = answer
    obtain ⟨outcome, base⟩ := answer
    cases outcome <;> rfl
  openFresh path := by
    intro w
    change _ = (((Host.openFresh (m := StateM σ) path w.base).1.map fun file =>
      WatchedFile.mk path file).map _, (Host.openFresh (m := StateM σ) path w.base).2)
    generalize Host.openFresh (m := StateM σ) path w.base = answer
    obtain ⟨outcome, base⟩ := answer
    cases outcome <;> rfl
  write _ _ := reflects_note _ _ _
  sync _ := reflects_note _ _ _
  rename _ _ := reflects_note _ _ _
  remove _ := reflects_note _ _ _
  printError _ := reflects_note _ _ _

end Watched

end Backlog
