import Backlog.Proofs.Activity.Rotation
import Mathlib.Data.List.Induction

/-!
# The size of a log

A writer does not ask how large its file is.  It asks once, when it opens the file, and from then on
it counts what it writes, also what still waits in the buffer.  On files that nobody else changes
the count is right at any time: it is the size of what the file holds, with what waits (`Counted`).

Calls keep this.  A line comes behind what the file holds, or it is the first one of a fresh file,
so after it the file is small enough, or there is nothing in it but that line (`On.enters`).  A
writer that goes back to the first file asks for its size, and what waited for the fallback comes to
the fallback only after that, so the fallback has to be another file (`On.recovers`).  Of a writer
that could open its first file when it was opened this is not asked: it never leaves that file.
-/

namespace Backlog

namespace LogWriter

/-- The files of a log at this place can be told apart, on a machine on which operations work. -/
structure Shelved (own : LogSettings) (home : Nat) (name : String) (s : Machine) : Prop where
  steady : s.Steady
  shelf : Shelf s.disk s.workingDir own.path home name (kept own)

/-- An open file is the one that a path leads to, it holds these bytes, and it can be put aside.
The first file of the log is at its place all the time. -/
structure Live (own : LogSettings) (home : Nat) (name path : String) (home' : Nat) (name' : String)
    (bytes : ByteArray) (file : OpenFile) (s : Machine) : Prop where
  first : Shelved own home name s
  shelf : Shelf s.disk s.workingDir path home' name' (kept own)
  entry : ∃ number, s.disk.find? home' name' = some (.file number) ∧
    file.number = some number ∧ s.disk.bytesOf number = bytes
  room : file.isFull = false

/-- A writer of a log that is on no file. -/
def OnNone (own : LogSettings) (w : LogWriter OpenFile) : Prop :=
  ∃ sink lastSync, w = ⟨own, sink, lastSync⟩ ∧ (sink = .errorStream ∨ sink = .discard)

/-- A writer counts right: it is on a file, and the count is the size of what this file holds with
what waits for it, or it is on no file. -/
inductive Counted (own : LogSettings) (home : Nat) (name : String) (w : LogWriter OpenFile)
    (s : Machine) : Prop where
  | first (text : ByteArray)
      (on : On (τ := Machine) (Live own home name own.path home name) own own.path false text
        text.size w s)
  /-- The fallback is not the first file itself. -/
  | fallback (path : String) (home' : Nat) (name' : String) (text : ByteArray)
      (other : ¬(home' = home ∧ name' = name))
      (on : On (τ := Machine) (Live own home name path home' name') own path true text
        text.size w s)
  | elsewhere (on : OnNone own w) (first : Shelved own home name s)

variable {own : LogSettings} {home home' number size : Nat} {name name' path : String}
  {isFallback : Bool} {text bytes : ByteArray} {file : OpenFile} {w : LogWriter OpenFile}
  {s s' : Machine}

/-! ## Files that nobody else changes -/

theorem Shelved.of_disk (h : Shelved own home name s) (hsteady : s'.Steady)
    (hhere : s'.workingDir = s.workingDir) (hdisk : s'.disk = s.disk) :
    Shelved own home name s' :=
  ⟨hsteady, by rw [hhere, hdisk]; exact h.shelf⟩

theorem Live.of_disk (h : Live own home name path home' name' bytes file s) (hsteady : s'.Steady)
    (hhere : s'.workingDir = s.workingDir) (hdisk : s'.disk = s.disk) :
    Live own home name path home' name' bytes file s' :=
  ⟨h.first.of_disk hsteady hhere hdisk, by rw [hhere, hdisk]; exact h.shelf,
    by rw [hdisk]; exact h.entry, h.room⟩

/-- What comes to another file changes nothing here. -/
theorem Live.of_append (h : Live own home name path home' name' bytes file s)
    (hlt : number < s.disk.contents.size) (hother : file.number ≠ some number)
    {more : ByteArray} (hsteady : s'.Steady) (hhere : s'.workingDir = s.workingDir)
    (hdisk : s'.disk = s.disk.append number more) :
    Live own home name path home' name' bytes file s' := by
  obtain ⟨number', hlive, hnumber, hbytes⟩ := h.entry
  have hne : number ≠ number' := fun hsame => hother (hsame ▸ hnumber)
  refine ⟨⟨hsteady, ?_⟩, ?_, ⟨number', ?_, hnumber, ?_⟩, h.room⟩
  · rw [hhere, hdisk]
    exact h.first.shelf.appended number more
  · rw [hhere, hdisk]
    exact h.shelf.appended number more
  · rw [hdisk]
    exact hlive
  · rw [hdisk, Disk.bytesOf_append hlt, if_neg hne, hbytes]

/-- The path leads to what the file holds. -/
theorem Live.content (h : Live own home name path home' name' bytes file s) :
    s.disk.content s.workingDir path = some bytes := by
  obtain ⟨number, hlive, -, rfl⟩ := h.entry
  have hcontent := h.shelf.content_slot (Nat.zero_le _)
  rw [slotName, slotName, hlive] at hcontent
  exact hcontent

theorem takes_live : Takes (τ := Machine) (Live own home name path home' name') where
  write {taken file s} h bytes := by
    obtain ⟨number, hlive, hnumber, rfl⟩ := h.entry
    have hlt : number < s.disk.contents.size := h.shelf.sound.files _ _ _ hlive
    refine ⟨_, h.first.steady.write_file hnumber h.room bytes,
      ⟨h.first.steady.stepTo _, h.first.shelf.appended number bytes⟩,
      h.shelf.appended number bytes, ⟨number, hlive, hnumber, ?_⟩, h.room⟩
    exact (Disk.bytesOf_append hlt bytes number).trans (if_pos rfl)
  sync {taken file s} h := by
    obtain ⟨outcome, hsynced⟩ := h.first.steady.sync file
    exact ⟨outcome, _, hsynced, h.of_disk (h.first.steady.stepTo _) rfl rfl⟩
  now s := ⟨s.now, rfl⟩

theorem On.holds (h : On (τ := Machine) (Live own home name path home' name') own path isFallback
      text size w s) :
    ∃ b, w.sink = .file b path size isFallback ∧
      ∃ live, s.disk.content s.workingDir path = some live ∧ live ++ b.pending = text := by
  obtain ⟨b, lastSync, rfl, live, hlive, htext⟩ := h
  exact ⟨b, rfl, live, hlive.content, htext⟩

/-! ## Rotations -/

/-- The file is put aside, and the fresh one is empty. -/
theorem On.rotates (h : On (τ := Machine) (Live own home name path home' name') own path isFallback
      text size w s) :
    ∃ w' s', rotate (m := StateM Machine) w s = (w', s') ∧
      On (τ := Machine) (Live own home name path home' name') own path isFallback .empty 0
        w' s' := by
  have hwatched : On (τ := Watched Machine)
      (fun bytes file r =>
        Live own home name path home' name' bytes (Watched.plainFile file) r.base)
      own path isFallback text size (w.map (WatchedFile.mk path)) (.opening s) := by
    obtain ⟨b, lastSync, rfl, hheld⟩ := h
    exact ⟨b.map (WatchedFile.mk path), lastSync, rfl, hheld⟩
  obtain ⟨file, r₁, hflushed, hlive⟩ := hwatched.flushes takes_live.watched
  have hfile : OnFile r₁.base { own with path } home' name' _ file r₁ :=
    ⟨hlive.first.steady, rfl, hlive.shelf, .refl _ _ _ _,
      hlive.entry.imp fun number hentry => ⟨hentry.1, hentry.2.1⟩, hlive.room, rfl⟩
  obtain ⟨r', hrotated, hrenewed, hsteady, hhere, -⟩ := OnFile.rotates hflushed hfile
  have hplain := reflects_rotate (w := w.map (WatchedFile.mk path)) Watched.overlay (.opening s)
  rw [map_plainFile_map, hrotated] at hplain
  have hfresh : Live own home name path home' name' .empty
      ⟨path, some r₁.base.disk.contents.size, false⟩ r'.base := by
    refine ⟨⟨hsteady, ?_⟩, ?_, ⟨_, hrenewed.live, rfl, hrenewed.fresh⟩, rfl⟩
    · rw [hhere]
      exact hrenewed.shelf_of hlive.shelf hlive.first.shelf
    · rw [hhere]
      exact hrenewed.shelf hlive.shelf
  exact ⟨_, r'.base, hplain, _, _, rfl, held_empty hfresh⟩

/-! ## Calls on a file -/

/-- A line is written.  Then the file is small enough, or it holds nothing but this line. -/
theorem On.enters (h : On (τ := Machine) (Live own home name path home' name') own path isFallback
      text text.size w s) (entry : LogEntry) :
    ∃ text' w' s', w.writeEntry (m := StateM Machine) entry s = (w', s') ∧
      On (τ := Machine) (Live own home name path home' name') own path isFallback text' text'.size
        w' s' ∧
      (text'.size ≤ own.maxSize ∨ text' = (entry.line ++ "\n").toUTF8) := by
  by_cases hroom : text.size + (entry.line ++ "\n").utf8ByteSize ≤ own.maxSize
  · obtain ⟨w', s', hdone, hon⟩ := h.attempts (rotateIfDue_of_le h hroom) takes_live
    have hsize : (text ++ (entry.line ++ "\n").toUTF8).size =
        text.size + (entry.line ++ "\n").utf8ByteSize := ByteArray.size_append
    rw [← hsize] at hon hroom
    exact ⟨_, w', s', writeEntry_of_attempt hdone, hon, .inl hroom⟩
  · obtain ⟨w₁, s₁, hrotated, hfresh⟩ := h.rotates
    obtain ⟨w', s', hdone, hon⟩ :=
      hfresh.attempts ((rotateIfDue_of_lt h (Nat.lt_of_not_le hroom)).trans hrotated) takes_live
    rw [ByteArray.empty_append, Nat.zero_add] at hon
    exact ⟨_, w', s', writeEntry_of_attempt hdone, hon, .inr rfl⟩

theorem On.served (h : On (τ := Machine) (Live own home name path home' name') own path isFallback
      text text.size w s) (call : Call) (hstays : isFallback = true → call ≠ .recover) :
    ∃ text' w' s', serve (m := StateM Machine) w call s = (w', s') ∧
      On (τ := Machine) (Live own home name path home' name') own path isFallback text' text'.size
        w' s' ∧
      ∀ entry, call = .write entry →
        text'.size ≤ own.maxSize ∨ text' = (entry.line ++ "\n").toUTF8 := by
  cases call with
  | write entry =>
      obtain ⟨text', w', s', hdone, hon, hbound⟩ := h.enters entry
      refine ⟨text', w', s', hdone, hon, ?_⟩
      rintro _ ⟨⟩
      exact hbound
  | flush =>
      obtain ⟨file, s', hflushed, hlive⟩ := h.flushes takes_live
      exact ⟨text, _, s', hflushed, ⟨_, _, rfl, held_empty hlive⟩, fun entry h => nomatch h⟩
  | sync =>
      obtain ⟨file, lastSync, s', hsynced, hlive⟩ := h.syncs takes_live
      exact ⟨text, _, s', hsynced, ⟨_, _, rfl, held_empty hlive⟩, fun entry h => nomatch h⟩
  | recover =>
      cases isFallback with
      | true => exact absurd rfl (hstays rfl)
      | false =>
          obtain ⟨b, lastSync, rfl, hheld⟩ := h
          exact ⟨text, _, s, rfl, ⟨b, lastSync, rfl, hheld⟩, fun entry h => nomatch h⟩

/-! ## The way back to the first file -/

/-- The first file is opened where it is, or it is created, and nothing else changes then. -/
theorem Prepared.opens {made : Disk} (hsteady : s.Steady)
    (h : Prepared s.disk s.workingDir own.path home name (kept own) made) :
    ∃ number s', openSink (m := StateM Machine) own.path false s =
        (some (.file ⟨⟨own.path, some number, false⟩, .empty⟩ own.path
          (s'.disk.bytesOf number).size false), s') ∧
      Live own home name own.path home name (s'.disk.bytesOf number)
        ⟨own.path, some number, false⟩ s' ∧
      ∀ directory other, ¬(directory = home ∧ other = name) →
        s'.disk.find? directory other = made.find? directory other := by
  obtain ⟨number, r', hopened, hleaves, hdisk⟩ :=
    openSink_of_prepared (r := .opening s) hsteady h false own.path
  have hplain := reflects_openSink Watched.overlay own.path false (.opening s)
  rw [hopened] at hplain
  have hhere : r'.base.workingDir = s.workingDir := hleaves.here
  have hfirst : Shelf r'.base.disk r'.base.workingDir own.path home name (kept own) ∧
      r'.base.disk.find? home name = some (.file number) := by
    rw [hhere]
    rcases hdisk with ⟨hsame, hlive⟩ | ⟨rfl, -, hrenewed⟩
    · rw [hsame]
      exact ⟨h.shelf, hlive⟩
    · exact ⟨hrenewed.shelf h.shelf, hrenewed.live⟩
  obtain ⟨hshelf, hlive⟩ := hfirst
  refine ⟨number, r'.base, hplain,
    ⟨⟨hleaves.steady, hshelf⟩, hshelf, ⟨number, hlive, rfl, rfl⟩, rfl⟩, ?_⟩
  rcases hdisk with ⟨hsame, -⟩ | ⟨-, -, hrenewed⟩
  · exact fun _ _ _ => congrArg (fun d => Disk.find? d _ _) hsame
  · exact fun _ _ hne => hrenewed.find?_of_ne hne

theorem tryRecover_of_openSink {w₁ : LogWriter OpenFile} {sink : LogSink OpenFile}
    {s₁ s₂ : Machine} (hother : ∀ b path size, w.sink ≠ .file b path size false)
    (hopened : openSink (m := StateM Machine) w.settings.path false s = (some sink, s₁))
    (hflushed : w.flush (m := StateM Machine) s₁ = (w₁, s₂))
    (hclosed : close (m := StateM Machine) w₁.sink s₂ = ((), s₂)) (hsteady : s₂.Steady) :
    ∃ s', w.tryRecover (m := StateM Machine) s = ({ w₁ with sink }, s') ∧ s'.Steady ∧
      s'.workingDir = s₂.workingDir ∧ s'.disk = s₂.disk := by
  obtain ⟨s', hwarned, hafter⟩ :=
    hsteady.warn (mark ++ "recovered to primary path: " ++ w₁.settings.path)
  have hgoes {goOn : Option (LogSink OpenFile) → StateM Machine (LogWriter OpenFile)}
      (hsome : goOn (some sink) = do
        let w ← w.flush
        close w.sink
        Host.warn (mark ++ "recovered to primary path: " ++ w.settings.path)
        return { w with sink }) :
      (openSink (m := StateM Machine) w.settings.path false >>= goOn) s =
        ({ w₁ with sink }, s') := by
    rw [StateM.bind_apply, hopened]
    dsimp only
    rw [hsome, StateM.bind_apply, hflushed]
    dsimp only
    rw [StateM.bind_apply, hclosed]
    dsimp only
    rw [StateM.bind_apply, hwarned]
    rfl
  refine ⟨s', ?_, hafter⟩
  obtain ⟨settings, sink₀, lastSync⟩ := w
  cases sink₀ with
  | file b path size isFallback =>
      cases isFallback with
      | false => exact absurd rfl (hother b path size)
      | true => exact hgoes (by rfl)
  | errorStream => exact hgoes (by rfl)
  | discard => exact hgoes (by rfl)

/-- What waited for the fallback comes to the fallback, and the first file is as large as it was
when it was opened. -/
theorem On.recovers (h : On (τ := Machine) (Live own home name path home' name') own path true
      text size w s) (hother : ¬(home' = home ∧ name' = name)) :
    ∃ text' w' s', w.tryRecover (m := StateM Machine) s = (w', s') ∧
      On (τ := Machine) (Live own home name own.path home name) own own.path false text'
        text'.size w' s' := by
  obtain ⟨b, lastSync, rfl, taken, hlive, -⟩ := h
  obtain ⟨number, s₁, hopened, hfirst, hkept⟩ :=
    hlive.first.shelf.prepared.opens hlive.first.steady
  obtain ⟨number', hentry, hnumber, -⟩ := hlive.entry
  rw [← hkept home' name' hother] at hentry
  have hwaits : On (τ := Machine) (Appends s₁.disk s₁.workingDir number') own path true b.pending
      size ⟨own, .file b path size true, lastSync⟩ s₁ :=
    ⟨b, lastSync, rfl, .empty, ⟨hfirst.first.steady, rfl, (Disk.append_empty _ _).symm, hnumber,
      hlive.room⟩, ByteArray.empty_append⟩
  obtain ⟨file, s₂, hflushed, hfile⟩ := hwaits.flushes (takes_appends _ _ _)
  obtain ⟨s', hrecovered, hsteady, hhere, hdisk⟩ := tryRecover_of_openSink
    (w := ⟨own, .file b path size true, lastSync⟩) nofun hopened hflushed
    (close_of_empty file path size true s₂) hfile.steady
  -- the two files have two numbers, since the first one has no other name
  have hne : number ≠ number' := by
    rintro rfl
    obtain ⟨_, hlive', ⟨⟩, -⟩ := hfirst.entry
    exact hother (hfirst.shelf.alone 0 (Nat.zero_le _) number hlive' home' name' hentry)
  have hlast := hfirst.of_append (hfirst.shelf.sound.files _ _ _ hentry)
    (fun hsame => hne (Option.some.inj hsame)) hsteady (hhere.trans hfile.here)
    (hdisk.trans hfile.disk)
  exact ⟨_, _, s', hrecovered, _, _, rfl, held_empty hlast⟩

/-- A writer that was on no file is on the first one. -/
theorem OnNone.recovers (h : OnNone own w) (hfirst : Shelved own home name s) :
    ∃ text' w' s', w.tryRecover (m := StateM Machine) s = (w', s') ∧
      On (τ := Machine) (Live own home name own.path home name) own own.path false text'
        text'.size w' s' := by
  obtain ⟨number, s₁, hopened, hlive, -⟩ := hfirst.shelf.prepared.opens hfirst.steady
  obtain ⟨sink, lastSync, rfl, hsink⟩ := h
  have hidle : flush (m := StateM Machine) ⟨own, sink, lastSync⟩ s₁ = (⟨own, sink, lastSync⟩, s₁) ∧
      close (m := StateM Machine) sink s₁ = ((), s₁) ∧
      ∀ b path size, sink ≠ .file b path size false := by
    rcases hsink with rfl | rfl
    · exact ⟨rfl, rfl, fun b path size h => nomatch h⟩
    · exact ⟨rfl, rfl, fun b path size h => nomatch h⟩
  obtain ⟨hflushed, hclosed, hother⟩ := hidle
  obtain ⟨s', hrecovered, hsteady, hhere, hdisk⟩ :=
    tryRecover_of_openSink (w := ⟨own, sink, lastSync⟩) hother hopened hflushed hclosed
      hlive.first.steady
  exact ⟨_, _, s', hrecovered, _, _, rfl, held_empty (hlive.of_disk hsteady hhere hdisk)⟩

/-! ## Calls -/

/-- On no file a line is printed or dropped. -/
theorem OnNone.served (h : OnNone own w) (hfirst : Shelved own home name s) (call : Call)
    (hstays : call ≠ .recover) :
    ∃ w' s', serve (m := StateM Machine) w call s = (w', s') ∧ OnNone own w' ∧
      Shelved own home name s' := by
  obtain ⟨sink, lastSync, rfl, hsink⟩ := h
  have hsame (lastSync : Instant) : OnNone own ⟨own, sink, lastSync⟩ := ⟨sink, lastSync, rfl, hsink⟩
  cases call with
  | write entry =>
      rcases hsink with rfl | rfl
      · obtain ⟨s', hprinted, hsteady, hhere, hdisk⟩ :=
          hfirst.steady.printError (mark ++ (entry.line ++ "\n"))
        refine ⟨_, s', writeEntry_of_attempt ?_, hsame lastSync, hfirst.of_disk hsteady hhere hdisk⟩
        have hnone : rotateIfDue (m := StateM Machine) ⟨own, .errorStream, lastSync⟩
            (entry.line ++ "\n").utf8ByteSize s = (⟨own, .errorStream, lastSync⟩, s) := rfl
        rw [attempt, StateM.bind_apply, hnone]
        change (Host.printError (m := StateM Machine) (mark ++ (entry.line ++ "\n")) >>= _) s = _
        rw [StateM.bind_apply, hprinted]
        rfl
      · exact ⟨_, s, rfl, hsame lastSync, hfirst⟩
  | flush => rcases hsink with rfl | rfl <;> exact ⟨_, s, rfl, hsame lastSync, hfirst⟩
  | sync => rcases hsink with rfl | rfl <;> exact ⟨_, s, rfl, hsame s.now, hfirst⟩
  | recover => exact absurd rfl hstays

/-- A file is not larger than it may be, unless a line that was written is all that it holds. -/
def Bounded (own : LogSettings) (call : Call) (w : LogWriter OpenFile) (s : Machine) : Prop :=
  ∀ entry, call = .write entry → ∀ b path bytes isFallback,
    w.sink = .file b path bytes isFallback → ∀ live, s.disk.content s.workingDir path = some live →
      bytes ≤ own.maxSize ∨ live ++ b.pending = (entry.line ++ "\n").toUTF8

theorem On.bounded (h : On (τ := Machine) (Live own home name path home' name') own path isFallback
      text text.size w s) {call : Call} (hbound : ∀ entry, call = .write entry →
      text.size ≤ own.maxSize ∨ text = (entry.line ++ "\n").toUTF8) : Bounded own call w s := by
  rintro entry hcall b path' bytes isFallback' hsink live hlive
  obtain ⟨b', hsink', live', hlive', htext⟩ := h.holds
  cases hsink.symm.trans hsink'
  cases hlive.symm.trans hlive'
  rw [htext]
  exact hbound entry hcall

theorem bounded_recover : Bounded own .recover w s := fun _ h => nomatch h

theorem Counted.served (h : Counted own home name w s) (call : Call) :
    ∃ w' s', serve (m := StateM Machine) w call s = (w', s') ∧ Counted own home name w' s' ∧
      Bounded own call w' s' := by
  cases h with
  | first text hon =>
      obtain ⟨text', w', s', hserved, hon', hbound⟩ := hon.served call nofun
      exact ⟨w', s', hserved, .first text' hon', hon'.bounded hbound⟩
  | fallback path home' name' text hother hon =>
      by_cases hcall : call = .recover
      · subst hcall
        obtain ⟨text', w', s', hrecovered, hon'⟩ := hon.recovers hother
        exact ⟨w', s', hrecovered, .first text' hon', bounded_recover⟩
      · obtain ⟨text', w', s', hserved, hon', hbound⟩ := hon.served call fun _ => hcall
        exact ⟨w', s', hserved, .fallback path home' name' text' hother hon', hon'.bounded hbound⟩
  | elsewhere hon hfirst =>
      by_cases hcall : call = .recover
      · subst hcall
        obtain ⟨text', w', s', hrecovered, hon'⟩ := hon.recovers hfirst
        exact ⟨w', s', hrecovered, .first text' hon', bounded_recover⟩
      · obtain ⟨w', s', hserved, hon', hfirst'⟩ := hon.served hfirst call hcall
        refine ⟨w', s', hserved, .elsewhere hon' hfirst', ?_⟩
        rintro entry - b path bytes isFallback hfile
        obtain ⟨sink, lastSync, rfl, rfl | rfl⟩ := hon'
        · cases hfile
        · cases hfile

/-! ## Runs -/

/-- A writer is asked something at a time. -/
def serveAt (w : LogWriter OpenFile) (turn : Instant × Call) :
    StateM Machine (LogWriter OpenFile) :=
  fun s => serve (m := StateM Machine) w turn.2 { s with now := turn.1 }

theorem Counted.at_time (h : Counted own home name w s) (now : Instant) :
    Counted own home name w { s with now } := by
  cases h with
  | first text hon =>
      obtain ⟨b, lastSync, hw, live, hlive, htext⟩ := hon
      exact .first text
        ⟨b, lastSync, hw, live, hlive.of_disk (hlive.first.steady.at_time now) rfl rfl, htext⟩
  | fallback path home' name' text hother hon =>
      obtain ⟨b, lastSync, hw, live, hlive, htext⟩ := hon
      exact .fallback path home' name' text hother
        ⟨b, lastSync, hw, live, hlive.of_disk (hlive.first.steady.at_time now) rfl rfl, htext⟩
  | elsewhere hon hfirst =>
      exact .elsewhere hon (hfirst.of_disk (hfirst.steady.at_time now) rfl rfl)

theorem Counted.servedAll (h : Counted own home name w s) (turns : List (Instant × Call)) :
    ∃ w' s', turns.foldlM (m := StateM Machine) serveAt w s = (w', s') ∧
      Counted own home name w' s' ∧
      ∀ before now call, turns = before ++ [(now, call)] → Bounded own call w' s' := by
  induction turns using List.reverseRecOn with
  | nil => exact ⟨w, s, rfl, h, fun before now call hlast => by simp at hlast⟩
  | append_singleton turns turn ih =>
      obtain ⟨w₁, s₁, hbefore, hcounted, -⟩ := ih
      obtain ⟨w', s', hserved, hcounted', hbounded⟩ := (hcounted.at_time turn.1).served turn.2
      refine ⟨w', s', ?_, hcounted', ?_⟩
      · have hturn : serveAt w₁ turn s₁ = (w', s') := hserved
        rw [List.foldlM_append, StateM.bind_apply, hbefore, List.foldlM_cons, StateM.bind_apply,
          hturn]
        rfl
      · intro before now call hlast
        obtain ⟨-, rfl⟩ := List.append_singleton_inj.1 hlast
        exact hbounded

/-- What a writer tells of its size is right. -/
theorem Counted.bytesWritten_eq {b : BufferedFile OpenFile} (h : Counted own home name w s)
    (hsink : w.sink = .file b path size isFallback) :
    ∃ live, s.disk.content s.workingDir path = some live ∧
      w.bytesWritten = live.size + b.pending.size := by
  have hsize {path' : String} {home' : Nat} {name' : String} {text : ByteArray}
      {isFallback' : Bool} (hon : On (τ := Machine) (Live own home name path' home' name') own path'
        isFallback' text text.size w s) : ∃ live, s.disk.content s.workingDir path = some live ∧
      w.bytesWritten = live.size + b.pending.size := by
    obtain ⟨b', hsink', live, hlive, rfl⟩ := hon.holds
    cases hsink.symm.trans hsink'
    refine ⟨live, hlive, ?_⟩
    rw [bytesWritten, hsink]
    exact ByteArray.size_append
  cases h with
  | first text hon => exact hsize hon
  | fallback path' home' name' text hother hon => exact hsize hon
  | elsewhere hon hfirst =>
      obtain ⟨sink, lastSync, rfl, rfl | rfl⟩ := hon
      · cases hsink
      · cases hsink

/-- A writer that is opened is on the first file, and knows its size. -/
theorem Prepared.start {made : Disk} (hsteady : s.Steady)
    (h : Prepared s.disk s.workingDir own.path home name (kept own) made) :
    ∃ w s', start (m := StateM Machine) own s = (w, s') ∧ Counted own home name w s' ∧
      w.state = "normal" := by
  obtain ⟨number, s', hopened, hlive, -⟩ := h.opens hsteady
  refine ⟨⟨own, _, s'.now⟩, s', ?_, .first _ ⟨_, _, rfl, held_empty hlive⟩, rfl⟩
  unfold LogWriter.start
  rw [StateM.bind_apply, hopened]
  rfl

/-- While a writer is on a file, the bytes it has counted are those that the file holds and those
that wait for it.  After each line that is written they are not more than they may be, unless the
file holds nothing but this line. -/
theorem bytesWritten_exact (own : LogSettings) (home : Nat) (name : String) :
    (∀ (s : Machine) (made : Disk), s.Steady →
      Prepared s.disk s.workingDir own.path home name (kept own) made →
      let begun := start (m := StateM Machine) own s
      Counted own home name begun.1 begun.2 ∧ begun.1.state = "normal") ∧
    ∀ w s, Counted own home name w s → ∀ turns : List (Instant × Call),
      let outcome := turns.foldlM (m := StateM Machine) serveAt w s
      Counted own home name outcome.1 outcome.2 ∧
      ∀ b path bytes isFallback, outcome.1.sink = .file b path bytes isFallback →
        ∃ live, outcome.2.disk.content outcome.2.workingDir path = some live ∧
          outcome.1.bytesWritten = live.size + b.pending.size ∧
          ∀ before now entry, turns = before ++ [(now, .write entry)] →
            outcome.1.bytesWritten ≤ own.maxSize ∨
              live ++ b.pending = (entry.line ++ "\n").toUTF8 := by
  refine ⟨?_, ?_⟩
  · intro s made hsteady hprepared
    obtain ⟨w, s', hbegun, hcounted⟩ := hprepared.start hsteady
    rw [hbegun]
    exact hcounted
  · intro w s hcounted turns
    obtain ⟨w', s', hserved, hcounted', hbounded⟩ := hcounted.servedAll turns
    rw [hserved]
    refine ⟨hcounted', ?_⟩
    intro b path bytes isFallback hsink
    obtain ⟨live, hlive, hsize⟩ := hcounted'.bytesWritten_eq hsink
    refine ⟨live, hlive, hsize, ?_⟩
    intro before now entry hlast
    have hwritten : w'.bytesWritten = bytes := by
      rw [bytesWritten, hsink]
    rw [hwritten]
    exact hbounded before now _ hlast entry rfl b path bytes isFallback hsink live hlive

/-- Two lines, the second one a minute after the first, and more calls between them. -/
def twoLines : List (Instant × Call) :=
  [(⟨0⟩, .write someEntry), (⟨0⟩, .flush), (⟨60000000000⟩, .recover),
    (⟨60000000000⟩, .write someEntry)]

theorem bytesWritten_exact_on_oneFileMachine :
    let begun := start (m := StateM Machine) shortLog oneFileMachine
    let outcome := twoLines.foldlM (m := StateM Machine) serveAt begun.1 begun.2
    oneFileMachine.Steady ∧
    Shelf oneFileMachine.disk oneFileMachine.workingDir shortLog.path Disk.root "a.jsonl"
      (kept shortLog) ∧
    Counted shortLog Disk.root "a.jsonl" begun.1 begun.2 ∧ outcome.1.state = "normal" ∧
    shortLog.maxSize < outcome.1.bytesWritten ∧
    ∀ b path bytes isFallback, outcome.1.sink = .file b path bytes isFallback →
      ∃ live, outcome.2.disk.content outcome.2.workingDir path = some live ∧
        outcome.1.bytesWritten = live.size + b.pending.size ∧
        live ++ b.pending = (someEntry.line ++ "\n").toUTF8 := by
  have hsteady : oneFileMachine.Steady := ⟨rfl, fun _ _ => rfl⟩
  have hcounted : Counted shortLog Disk.root "a.jsonl"
      (start (m := StateM Machine) shortLog oneFileMachine).1
      (start (m := StateM Machine) shortLog oneFileMachine).2 :=
    ((bytesWritten_exact shortLog Disk.root "a.jsonl").1 oneFileMachine _ hsteady
      shelf_oneFileMachine.prepared).1
  obtain ⟨-, hexact⟩ := (bytesWritten_exact shortLog Disk.root "a.jsonl").2 _ _ hcounted twoLines
  have hlarge : shortLog.maxSize < (twoLines.foldlM (m := StateM Machine) serveAt
      (start (m := StateM Machine) shortLog oneFileMachine).1
      (start (m := StateM Machine) shortLog oneFileMachine).2).1.bytesWritten := by
    decide +kernel
  refine ⟨hsteady, shelf_oneFileMachine, hcounted, by decide +kernel, hlarge, ?_⟩
  intro b path bytes isFallback hsink
  obtain ⟨live, hlive, hsize, hline⟩ := hexact b path bytes isFallback hsink
  exact ⟨live, hlive, hsize,
    (hline (twoLines.take 3) ⟨60000000000⟩ someEntry rfl).resolve_left (Nat.not_le.2 hlarge)⟩

end LogWriter

end Backlog
