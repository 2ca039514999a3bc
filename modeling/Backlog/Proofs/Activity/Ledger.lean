import Backlog.Activity.Writer
import Backlog.Proofs.Service.Acts

/-!
# Keeping book of a log

Whether a line is lost cannot be told from a writer: it forgets the files it has left.  A
`Ledger` stands between the writer and any system.  It passes on all that the writer asks for,
and keeps book of it: for each file that was opened, the bytes that it took in, and the bytes
that it refused when it was last written to; and the texts that the error stream took in.

The first part says what one operation of a writer adds to the books.  Most of them add
nothing (`Unbooked`).
-/

namespace Backlog

/-! ## Bytes -/

/-- Bytes that stand in a row in others. -/
def Within (part whole : ByteArray) : Prop := ∃ before after, whole = before ++ part ++ after

theorem Within.append {part whole : ByteArray} (h : Within part whole) (more : ByteArray) :
    Within part (whole ++ more) := by
  obtain ⟨before, after, rfl⟩ := h
  exact ⟨before, after ++ more, ByteArray.append_assoc⟩

theorem Within.prepend {part whole : ByteArray} (h : Within part whole) (front : ByteArray) :
    Within part (front ++ whole) := by
  obtain ⟨before, after, rfl⟩ := h
  exact ⟨front ++ before, after, by simp only [ByteArray.append_assoc]⟩

theorem within_self (bytes : ByteArray) : Within bytes bytes := ⟨.empty, .empty, by simp⟩

theorem extract_append_rest (bytes : ByteArray) (n : Nat) :
    bytes.extract 0 n ++ bytes.extract n bytes.size = bytes := by
  ext1
  simp

/-! ## Ledgers -/

/-- A file that was opened. -/
structure OpenedFile where
  path : String
  /-- The bytes that it took in. -/
  given : ByteArray
  /-- The bytes that it refused the last time. -/
  refused : ByteArray

/-- The file after bytes were written to it. -/
def OpenedFile.note (o : OpenedFile) (bytes : ByteArray) (w : Written) : OpenedFile :=
  match w.fault with
  | none => { o with given := o.given ++ bytes, refused := .empty }
  | some _ =>
    { o with
      given := o.given ++ bytes.extract 0 w.count
      refused := bytes.extract w.count bytes.size }

/-- A system, and the books about it. -/
structure Ledger (σ : Type) where
  base : σ
  /-- The files in the order in which they were opened. -/
  files : List OpenedFile
  /-- The texts that were printed. -/
  printed : List String
  /-- Whether the error stream refused a text. -/
  isMute : Bool

/-- An open file, and where it stands in the books. -/
structure BookedFile (F : Type) where
  index : Nat
  file : F

namespace Ledger

variable {σ α β : Type}

/-- Nothing is booked yet. -/
def opening (base : σ) : Ledger σ := ⟨base, [], [], false⟩

/-- Ask the system. -/
def ask (x : StateM σ α) : StateM (Ledger σ) α := fun l =>
  ((x l.base).1, { l with base := (x l.base).2 })

theorem mute_of_imp {l l' : Ledger σ} (h : l'.isMute = false → l.isMute = false)
    (hmute : l.isMute = true) : l'.isMute = true := by
  rw [← Bool.not_eq_false] at hmute ⊢
  exact mt h hmute

/-- Two ledgers with the same books. -/
structure SameBooks (l l' : Ledger σ) : Prop where
  files : l'.files = l.files
  printed : l'.printed = l.printed
  isMute : l'.isMute = l.isMute

theorem SameBooks.refl (l : Ledger σ) : SameBooks l l := ⟨rfl, rfl, rfl⟩

theorem SameBooks.trans {l l' l'' : Ledger σ} (h : SameBooks l l') (h' : SameBooks l' l'') :
    SameBooks l l'' :=
  ⟨h'.files.trans h.files, h'.printed.trans h.printed, h'.isMute.trans h.isMute⟩

/-- A computation that leaves the books alone. -/
def Unbooked (x : StateM (Ledger σ) α) : Prop := ∀ l, SameBooks l (x l).2

theorem Unbooked.same {x : StateM (Ledger σ) α} {a : α} {l l' : Ledger σ} (hx : Unbooked x)
    (h : x l = (a, l')) : SameBooks l l' := by
  have hsame := hx l
  rw [h] at hsame
  exact hsame

theorem unbooked_ask (x : StateM σ α) : Unbooked (ask x) := fun _ => ⟨rfl, rfl, rfl⟩

theorem unbooked_pure (a : α) : Unbooked (pure a : StateM (Ledger σ) α) := .refl

theorem Unbooked.bind {x : StateM (Ledger σ) α} {f : α → StateM (Ledger σ) β} (hx : Unbooked x)
    (hf : ∀ a, Unbooked (f a)) : Unbooked (x >>= f) := fun l => (hx l).trans (hf _ _)

variable {F : Type} {α : Type}

/-- The books with one more file. -/
def enter (l : Ledger σ) (path : String) (base : σ) : Ledger σ :=
  { l with base, files := l.files ++ [⟨path, .empty, .empty⟩] }

/-- Book what came of opening a file. -/
def bookOpened {A : Type} (l : Ledger σ) (path : String) (file : A → F) :
    Except IoFault A × σ → Except IoFault (A × BookedFile F) × Ledger σ
  | (.error fault, base) => (.error fault, { l with base })
  | (.ok a, base) => (.ok (a, ⟨l.files.length, file a⟩), l.enter path base)

/-- Book what came of writing to a file. -/
def bookWritten (l : Ledger σ) (index : Nat) (bytes : ByteArray) :
    Written × σ → Written × Ledger σ
  | (written, base) =>
    (written, { l with base, files := l.files.modify index fun o => o.note bytes written })

/-- Book what came of printing a text. -/
def bookPrinted (l : Ledger σ) (text : String) : Bool × σ → Bool × Ledger σ
  | (true, base) => (true, { l with base, printed := l.printed ++ [text] })
  | (false, base) => (false, { l with base, isMute := true })

variable [Host (StateM σ)]

instance : Host (StateM (Ledger σ)) where
  File := BookedFile (Host.File (StateM σ))
  env name := ask (Host.env name)
  now := ask Host.now
  uptime := ask Host.uptime
  pid := ask Host.pid
  isThere path := ask (Host.isThere path)
  read path := ask (Host.read path)
  createDirs path := ask (Host.createDirs path)
  openAppend path := do
    let opened ← fun l => l.bookOpened path (·.1) (Host.openAppend (m := StateM σ) path l.base)
    return opened.map fun ((_, size), file) => (file, size)
  openFresh path := do
    let opened ← fun l => l.bookOpened path id (Host.openFresh (m := StateM σ) path l.base)
    return opened.map fun (_, file) => file
  write file bytes := fun l =>
    l.bookWritten file.index bytes (Host.write (m := StateM σ) file.file bytes l.base)
  sync file := ask (Host.sync file.file)
  rename source target := ask (Host.rename source target)
  remove path := ask (Host.remove path)
  printError text := fun l => l.bookPrinted text (Host.printError (m := StateM σ) text l.base)
  isRaised signal := ask (Host.isRaised signal)
  takeSignal signal := ask (Host.takeSignal signal)
  kill pid signal := ask (Host.kill pid signal)
  sleep millis := ask (Host.sleep millis)

/-! ## What is booked -/

theorem unbooked_shift (path : String) (n : Nat) :
    Unbooked (LogWriter.shift path n : StateM (Ledger σ) Unit) := by
  induction n with
  | zero => exact unbooked_pure ()
  | succ n ih => exact (unbooked_ask _).bind fun _ => ih

section

variable {l l' : Ledger σ}

/-- A text is printed, or the error stream is known to be out of order. -/
theorem printError_spec {text : String} {isPrinted : Bool}
    (h : Host.printError (m := StateM (Ledger σ)) text l = (isPrinted, l')) :
    l'.files = l.files ∧ (∀ t ∈ l.printed, t ∈ l'.printed) ∧
      (l'.isMute = false → l.isMute = false ∧ isPrinted = true ∧ text ∈ l'.printed) := by
  change l.bookPrinted text (Host.printError (m := StateM σ) text l.base) = _ at h
  generalize Host.printError (m := StateM σ) text l.base = answer at h
  obtain ⟨outcome, base⟩ := answer
  cases outcome with
  | false =>
      cases h
      exact ⟨rfl, fun _ => id, nofun⟩
  | true =>
      cases h
      exact ⟨rfl, fun _ => List.mem_append_left _,
        fun hmute => ⟨hmute, rfl, List.mem_append_right _ List.mem_cons_self⟩⟩

/-- What is in the books after a file was opened: one more, that has taken in nothing. -/
structure Entered (path : String) (index : Nat) (l l' : Ledger σ) : Prop where
  index : index = l.files.length
  files : l'.files = l.files ++ [⟨path, .empty, .empty⟩]
  printed : l'.printed = l.printed
  isMute : l'.isMute = l.isMute

theorem openAppend_spec {path : String}
    {opened : Except IoFault (Host.File (StateM (Ledger σ)) × Nat)}
    (h : Host.openAppend (m := StateM (Ledger σ)) path l = (opened, l')) :
    (∃ fault, opened = .error fault ∧ SameBooks l l') ∨
      ∃ file size, opened = .ok (file, size) ∧ Entered path (BookedFile.index file) l l' := by
  change ((l.bookOpened path (fun a => a.1)
      (Host.openAppend (m := StateM σ) path l.base)).1.map fun ((_, size), file) => (file, size),
    (l.bookOpened path (fun a => a.1) (Host.openAppend (m := StateM σ) path l.base)).2) = _ at h
  generalize Host.openAppend (m := StateM σ) path l.base = answer at h
  obtain ⟨outcome, base⟩ := answer
  cases outcome with
  | error fault =>
      cases h
      exact .inl ⟨fault, rfl, ⟨rfl, rfl, rfl⟩⟩
  | ok a =>
      cases h
      exact .inr ⟨⟨l.files.length, a.1⟩, a.2, rfl, ⟨rfl, rfl, rfl, rfl⟩⟩

theorem sink_of_openAppend {path : String} {isFallback : Bool} {l₁ : Ledger σ}
    {opened : Except IoFault (Host.File (StateM (Ledger σ)) × Nat)} (hsame : SameBooks l l₁)
    (h : Host.openAppend (m := StateM (Ledger σ)) path l₁ = (opened, l')) :
    let sink : Option (LogSink (Host.File (StateM (Ledger σ)))) :=
      opened.toOption.map fun (file, size) => .file ⟨file, .empty⟩ path size isFallback
    (sink = none ∧ SameBooks l l') ∨
      ∃ file size, sink = some (.file ⟨file, .empty⟩ path size isFallback) ∧
        Entered path (BookedFile.index file) l l' := by
  rcases openAppend_spec h with ⟨fault, rfl, hsame'⟩ | ⟨file, size, rfl, hentered⟩
  · exact .inl ⟨rfl, hsame.trans hsame'⟩
  · refine .inr ⟨file, size, rfl, ?_⟩
    exact ⟨by rw [hentered.index, hsame.files], by rw [hentered.files, hsame.files],
      hentered.printed.trans hsame.printed, hentered.isMute.trans hsame.isMute⟩

theorem openSink_spec {path : String} {isFallback : Bool}
    {opened : Option (LogSink (Host.File (StateM (Ledger σ))))}
    (h : LogWriter.openSink (m := StateM (Ledger σ)) path isFallback l = (opened, l')) :
    (opened = none ∧ SameBooks l l') ∨
      ∃ file size, opened = some (.file ⟨file, .empty⟩ path size isFallback) ∧
        Entered path (BookedFile.index file) l l' := by
  unfold LogWriter.openSink at h
  cases hparent : Path.parent? path with
  | none =>
      rw [hparent] at h
      dsimp only at h
      rw [StateM.bind_apply, StateM.pure_apply] at h
      obtain ⟨outcome, l₂, hanswer, h⟩ := StateM.exists_of_bind_apply h
      cases outcome <;> cases h <;> exact sink_of_openAppend (.refl l) hanswer
  | some parent =>
      rw [hparent] at h
      dsimp only at h
      obtain ⟨outcome, l₁, hmade, h⟩ := StateM.exists_of_bind_apply h
      have hsame := (unbooked_ask _).same hmade
      cases outcome with
      | error fault =>
          cases h
          exact .inl ⟨rfl, hsame⟩
      | ok _ =>
          dsimp only at h
          obtain ⟨outcome, l₂, hanswer, h⟩ := StateM.exists_of_bind_apply h
          cases outcome <;> cases h <;> exact sink_of_openAppend hsame hanswer

end

section

/-- What becomes of a buffered file that is written to: more bytes are in it or wait for it. -/
structure Appends (b : BufferedFile (Host.File (StateM (Ledger σ)))) (l : Ledger σ)
    (b' : BufferedFile (Host.File (StateM (Ledger σ)))) (l' : Ledger σ) (more : ByteArray) :
    Prop where
  file : b'.file = b.file
  printed : l'.printed = l.printed
  isMute : l'.isMute = l.isMute
  files : ∃ note : OpenedFile → OpenedFile,
    l'.files = l.files.modify (BookedFile.index b.file) note ∧
    ∀ o, (note o).path = o.path ∧ (note o).given ++ b'.pending = o.given ++ b.pending ++ more

variable {b b' b'' : BufferedFile (Host.File (StateM (Ledger σ)))} {l l' l'' : Ledger σ}
  {more more' : ByteArray}

theorem Appends.refl (b : BufferedFile (Host.File (StateM (Ledger σ)))) (l : Ledger σ) :
    Appends b l b l .empty :=
  ⟨rfl, rfl, rfl, id, (List.modify_id _ _).symm, fun _ => ⟨rfl, ByteArray.append_empty.symm⟩⟩

theorem Appends.trans (h : Appends b l b' l' more) (h' : Appends b' l' b'' l'' more') :
    Appends b l b'' l'' (more ++ more') := by
  obtain ⟨note, hfiles, hnote⟩ := h.files
  obtain ⟨note', hfiles', hnote'⟩ := h'.files
  refine ⟨h'.file.trans h.file, h'.printed.trans h.printed, h'.isMute.trans h.isMute,
    note' ∘ note, ?_, fun o => ⟨?_, ?_⟩⟩
  · rw [hfiles', hfiles, h.file, List.modify_modify_eq]
  · exact ((hnote' _).1).trans (hnote o).1
  · rw [Function.comp_apply, (hnote' _).2, (hnote o).2, ByteArray.append_assoc]

theorem appends_write {written : Written} {bytes : ByteArray}
    (h : Host.write (m := StateM (Ledger σ)) b.file bytes l = (written, l')) :
    l'.printed = l.printed ∧ l'.isMute = l.isMute ∧
      l'.files = l.files.modify (BookedFile.index b.file) fun o => o.note bytes written := by
  change l.bookWritten (BookedFile.index b.file) bytes
    (Host.write (m := StateM σ) (BookedFile.file b.file) bytes l.base) = _ at h
  generalize Host.write (m := StateM σ) (BookedFile.file b.file) bytes l.base = answer at h
  obtain ⟨outcome, base⟩ := answer
  cases h
  exact ⟨rfl, rfl, rfl⟩

/-- Nothing is added by a flush.  What it leaves waiting is what the file refused. -/
theorem flush_spec {isDone : Bool}
    (h : BufferedFile.flush (m := StateM (Ledger σ)) b l = ((isDone, b'), l')) :
    Appends b l b' l' .empty ∧ (isDone = true → b'.pending = .empty) ∧
      (b'.pending = .empty ∨
        ∀ o, l'.files[BookedFile.index b.file]? = some o → b'.pending = o.refused) := by
  unfold BufferedFile.flush at h
  by_cases hempty : b.pending.isEmpty = true
  · have hpending : b.pending = .empty := by simpa [ByteArray.isEmpty] using hempty
    rw [if_pos hempty] at h
    cases h
    exact ⟨.refl b l, fun _ => hpending, .inl hpending⟩
  rw [if_neg hempty] at h
  obtain ⟨⟨count, fault⟩, l₁, hanswer, h⟩ := StateM.exists_of_bind_apply h
  obtain ⟨hprinted, hmute, hfiles⟩ := appends_write hanswer
  cases fault with
  | none =>
      cases h
      refine ⟨⟨rfl, hprinted, hmute, _, hfiles, fun o => ⟨rfl, ?_⟩⟩, fun _ => rfl, .inl rfl⟩
      simp [OpenedFile.note]
  | some fault =>
      cases h
      refine ⟨⟨rfl, hprinted, hmute, _, hfiles, fun o => ⟨rfl, ?_⟩⟩, nofun, .inr fun o ho => ?_⟩
      · simp only [OpenedFile.note, ByteArray.append_empty, ByteArray.append_assoc,
          extract_append_rest]
      · rw [hfiles, List.getElem?_modify_eq] at ho
        obtain ⟨before, -, rfl⟩ := Option.map_eq_some_iff.1 ho
        rfl

/-- The buffer of a file takes bytes only if it has room for them, and bytes that it cannot hold
pass it only if nothing waits in it. -/
theorem put_spec {bytes : ByteArray} {isDone : Bool}
    (hroom : BufferedFile.capacity ≤ bytes.size → b.pending = .empty)
    (h : BufferedFile.put (m := StateM (Ledger σ)) b bytes l = ((isDone, b'), l')) :
    ∃ more, Appends b l b' l' more ∧ (isDone = true → more = bytes) := by
  unfold BufferedFile.put at h
  by_cases hlarge : BufferedFile.capacity ≤ bytes.size
  · have hpending := hroom hlarge
    rw [if_pos hlarge] at h
    obtain ⟨⟨count, fault⟩, l₁, hanswer, h⟩ := StateM.exists_of_bind_apply h
    obtain ⟨hprinted, hmute, hfiles⟩ := appends_write hanswer
    cases fault with
    | none =>
        cases h
        refine ⟨bytes, ⟨rfl, hprinted, hmute, _, hfiles, fun o => ⟨rfl, ?_⟩⟩, fun _ => rfl⟩
        simp [OpenedFile.note, hpending]
    | some fault =>
        cases h
        refine ⟨bytes.extract 0 count, ⟨rfl, hprinted, hmute, _, hfiles, fun o => ⟨rfl, ?_⟩⟩, nofun⟩
        simp [OpenedFile.note, hpending]
  · rw [if_neg hlarge] at h
    cases h
    refine ⟨bytes, ⟨rfl, rfl, rfl, id, (List.modify_id _ _).symm, fun o => ⟨rfl, ?_⟩⟩, fun _ => rfl⟩
    exact ByteArray.append_assoc.symm

theorem write_spec {bytes : ByteArray} {isDone : Bool}
    (h : BufferedFile.write (m := StateM (Ledger σ)) b bytes l = ((isDone, b'), l')) :
    ∃ more, Appends b l b' l' more ∧ (isDone = true → Within bytes more) := by
  unfold BufferedFile.write at h
  by_cases hroom : bytes.size ≤ BufferedFile.capacity - b.pending.size
  · rw [if_pos hroom] at h
    obtain ⟨more, hput, hdone⟩ := put_spec (fun hlarge => by
      have hcapacity : 0 < BufferedFile.capacity := by decide
      exact ByteArray.size_eq_zero_iff.1 (by omega)) h
    exact ⟨more, hput, fun htrue => hdone htrue ▸ within_self bytes⟩
  · rw [if_neg hroom] at h
    obtain ⟨⟨isFlushed, b₁⟩, l₁, hflushed, h⟩ := StateM.exists_of_bind_apply h
    obtain ⟨hflush, hempty, -⟩ := flush_spec hflushed
    cases isFlushed with
    | false =>
        cases h
        exact ⟨_, hflush, nofun⟩
    | true =>
        obtain ⟨more, hput, hdone⟩ := put_spec (fun _ => hempty rfl) h
        refine ⟨.empty ++ more, hflush.trans hput, fun htrue => ?_⟩
        rw [hdone htrue, ByteArray.empty_append]
        exact within_self bytes

end

end Ledger

namespace LogWriter

variable (σ : Type) [Host (StateM σ)]

/-- What a writer on a ledger writes to. -/
abbrev Outlet : Type := LogSink (Host.File (StateM (Ledger σ)))

/-- A writer on a ledger. -/
abbrev Booked : Type := LogWriter (Host.File (StateM (Ledger σ)))

end LogWriter

end Backlog
