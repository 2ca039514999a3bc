import Backlog.Activity.Writer
import Backlog.Proofs.Host.Files
import Backlog.Proofs.Host.Machine
import Backlog.Proofs.Host.Overlay

/-!
# Bytes on their way to a file

What is written to a log waits in a buffer, and comes to the file when the buffer is full or when it
is flushed.  On files that take in whatever is written to them (`Takes`) the bytes of the file and
those that wait are together the bytes that were written, in their order (`Held`).  A writer on such
a file keeps this through all that it does with one file (`On`).

Nothing of this depends on what a file is: `Takes` can be shown of any predicate that a write brings
from some bytes to those with the new ones behind them.  The simplest one says that a disk is as it
was, with the bytes at the end of one file (`Appends`).
-/

namespace Backlog

/-- Bytes one after the other. -/
def joined (parts : List ByteArray) : ByteArray := parts.foldr (· ++ ·) .empty

theorem joined_append (parts more : List ByteArray) :
    joined (parts ++ more) = joined parts ++ joined more := by
  induction parts with
  | nil => exact ByteArray.empty_append.symm
  | cons part parts ih =>
      change part ++ joined (parts ++ more) = part ++ joined parts ++ joined more
      rw [ih, ByteArray.append_assoc]

namespace LogWriter

variable {τ : Type} [Host (StateM τ)] {P : ByteArray → Host.File (StateM τ) → τ → Prop}
  {taken text bytes : ByteArray} {file : Host.File (StateM τ)}
  {b : BufferedFile (Host.File (StateM τ))} {t t' : τ}

/-- Files that take in all bytes that are written to them.  `P taken file t` is to say what a file
has taken in. -/
structure Takes (P : ByteArray → Host.File (StateM τ) → τ → Prop) : Prop where
  write : ∀ {taken file t}, P taken file t → ∀ bytes, ∃ t',
    Host.write (m := StateM τ) file bytes t = (⟨bytes.size, none⟩, t') ∧
      P (taken ++ bytes) file t'
  sync : ∀ {taken file t}, P taken file t → ∃ outcome t',
    Host.sync (m := StateM τ) file t = (outcome, t') ∧ P taken file t'
  /-- To look at the clock changes nothing. -/
  now : ∀ t, ∃ time, Host.now (m := StateM τ) t = (time, t)

/-- What a file has taken in and what waits for it are together these bytes. -/
def Held (P : ByteArray → Host.File (StateM τ) → τ → Prop) (text : ByteArray)
    (b : BufferedFile (Host.File (StateM τ))) (t : τ) : Prop :=
  ∃ taken, P taken b.file t ∧ taken ++ b.pending = text

theorem held_empty (h : P taken file t) : Held P taken ⟨file, .empty⟩ t :=
  ⟨taken, h, ByteArray.append_empty⟩

/-! ## Buffered files -/

theorem Held.flushes (h : Held P text b t) (hP : Takes P) :
    ∃ t', BufferedFile.flush (m := StateM τ) b t = ((true, ⟨b.file, .empty⟩), t') ∧
      P text b.file t' := by
  obtain ⟨taken, hfile, rfl⟩ := h
  unfold BufferedFile.flush
  by_cases hempty : b.pending.isEmpty = true
  · have hpending : b.pending = .empty := by simpa [ByteArray.isEmpty] using hempty
    rw [if_pos hempty, ← hpending]
    refine ⟨t, rfl, ?_⟩
    rw [hpending, ByteArray.append_empty]
    exact hfile
  · obtain ⟨t', hwritten, hfile'⟩ := hP.write hfile b.pending
    rw [if_neg hempty, StateM.bind_apply]
    refine ⟨t', ?_, hfile'⟩
    rw [hwritten]
    rfl

theorem Held.puts (h : Held P text b t) (hP : Takes P) (bytes : ByteArray)
    (hroom : BufferedFile.capacity ≤ bytes.size → b.pending = .empty) :
    ∃ b' t', BufferedFile.put (m := StateM τ) b bytes t = ((true, b'), t') ∧
      Held P (text ++ bytes) b' t' := by
  obtain ⟨taken, hfile, rfl⟩ := h
  unfold BufferedFile.put
  by_cases hlarge : BufferedFile.capacity ≤ bytes.size
  · obtain ⟨t', hwritten, hfile'⟩ := hP.write hfile bytes
    rw [if_pos hlarge, StateM.bind_apply, hwritten]
    refine ⟨b, t', rfl, taken ++ bytes, hfile', ?_⟩
    rw [hroom hlarge, ByteArray.append_empty, ByteArray.append_empty]
  · rw [if_neg hlarge]
    exact ⟨⟨b.file, b.pending ++ bytes⟩, t, rfl, taken, hfile, ByteArray.append_assoc.symm⟩

theorem Held.writes (h : Held P text b t) (hP : Takes P) (bytes : ByteArray) :
    ∃ b' t', BufferedFile.write (m := StateM τ) b bytes t = ((true, b'), t') ∧
      Held P (text ++ bytes) b' t' := by
  unfold BufferedFile.write
  by_cases hroom : bytes.size ≤ BufferedFile.capacity - b.pending.size
  · rw [if_pos hroom]
    refine h.puts hP bytes fun hlarge => ?_
    -- bytes for which there is no room in an empty buffer have room in this one
    have hcapacity : BufferedFile.capacity = 65536 := rfl
    exact ByteArray.size_eq_zero_iff.1 (by omega)
  · obtain ⟨t₁, hflushed, hfile⟩ := h.flushes hP
    obtain ⟨b', t', hput, hheld⟩ := (held_empty hfile).puts hP bytes fun _ => rfl
    rw [if_neg hroom, StateM.bind_apply, hflushed]
    exact ⟨b', t', hput, hheld⟩

/-- A file for which nothing waits is closed without a write. -/
theorem close_of_empty (file : Host.File (StateM τ)) (path : String) (size : Nat)
    (isFallback : Bool) (t : τ) :
    close (m := StateM τ) (.file ⟨file, .empty⟩ path size isFallback) t = ((), t) := rfl

/-! ## Writers -/

/-- A writer is on a file at a path, and these bytes are held. -/
def On (P : ByteArray → Host.File (StateM τ) → τ → Prop) (settings : LogSettings) (path : String)
    (isFallback : Bool) (text : ByteArray) (size : Nat)
    (w : LogWriter (Host.File (StateM τ))) (t : τ) : Prop :=
  ∃ b lastSync, w = ⟨settings, .file b path size isFallback, lastSync⟩ ∧ Held P text b t

variable {settings : LogSettings} {path : String} {isFallback : Bool} {size : Nat}
  {w w' : LogWriter (Host.File (StateM τ))}

theorem On.flushes (h : On P settings path isFallback text size w t) (hP : Takes P) :
    ∃ file t', w.flush t =
        (⟨settings, .file ⟨file, .empty⟩ path size isFallback, w.lastSync⟩, t') ∧
      P text file t' := by
  obtain ⟨b, lastSync, rfl, hheld⟩ := h
  obtain ⟨t', hflushed, hfile⟩ := hheld.flushes hP
  refine ⟨b.file, t', ?_, hfile⟩
  change ((BufferedFile.flush (m := StateM τ) b >>= _) >>= _) t = _
  rw [StateM.bind_apply, StateM.bind_apply, hflushed]
  rfl

theorem On.syncs (h : On P settings path isFallback text size w t) (hP : Takes P) :
    ∃ file lastSync t', w.sync t =
        (⟨settings, .file ⟨file, .empty⟩ path size isFallback, lastSync⟩, t') ∧
      P text file t' := by
  obtain ⟨file, t₁, hflushed, hfile⟩ := h.flushes hP
  obtain ⟨outcome, t₂, hsynced, hfile'⟩ := hP.sync hfile
  obtain ⟨time, hnow⟩ := hP.now t₂
  refine ⟨file, time, t₂, ?_, hfile'⟩
  rw [sync, StateM.bind_apply, hflushed]
  change (Host.sync (m := StateM τ) file >>= _) t₁ = _
  rw [StateM.bind_apply, hsynced]
  change (Host.now (m := StateM τ) >>= _) t₂ = _
  rw [StateM.bind_apply, hnow]
  rfl

theorem On.syncsIfDue (h : On P settings path isFallback text size w t) (hP : Takes P) :
    ∃ w' t', w.syncIfDue t = (w', t') ∧ On P settings path isFallback text size w' t' := by
  obtain ⟨time, hnow⟩ := hP.now t
  rw [syncIfDue, StateM.bind_apply, hnow]
  dsimp only
  split_ifs with hdue
  · obtain ⟨file, lastSync, t', hsynced, hfile⟩ := h.syncs hP
    exact ⟨_, t', hsynced, _, lastSync, rfl, held_empty hfile⟩
  · exact ⟨w, t, rfl, h⟩

/-- A line comes behind the bytes that are held after a rotation, if one was due. -/
theorem On.attempts {line : String} (hrotated : w.rotateIfDue line.utf8ByteSize t = (w', t'))
    (h : On P settings path isFallback text size w' t') (hP : Takes P) :
    ∃ w'' t'', w.attempt line t = ((true, w''), t'') ∧
      On P settings path isFallback (text ++ line.toUTF8) (size + line.utf8ByteSize) w'' t'' := by
  obtain ⟨b, lastSync, rfl, hheld⟩ := h
  obtain ⟨b', t₁, hwritten, hheld'⟩ := hheld.writes hP line.toUTF8
  have hon : On P settings path isFallback (text ++ line.toUTF8) (size + line.utf8ByteSize)
      ⟨settings, .file b' path (size + line.utf8ByteSize) isFallback, lastSync⟩ t₁ :=
    ⟨b', lastSync, rfl, hheld'⟩
  obtain ⟨w'', t'', hsynced, hon'⟩ := hon.syncsIfDue hP
  refine ⟨w'', t'', ?_, hon'⟩
  rw [attempt, StateM.bind_apply, hrotated]
  change (BufferedFile.write (m := StateM τ) b line.toUTF8 >>= _) t' = _
  rw [StateM.bind_apply, hwritten]
  change (syncIfDue (m := StateM τ) _ >>= _) t₁ = _
  rw [StateM.bind_apply, hsynced]
  rfl

theorem rotateIfDue_of_le (h : On P settings path isFallback text size w t) {more : Nat}
    (hroom : size + more ≤ settings.maxSize) : w.rotateIfDue more t = (w, t) := by
  obtain ⟨b, lastSync, rfl, -⟩ := h
  change (if settings.maxSize < size + more then _ else _ : StateM τ _) t = _
  rw [if_neg (Nat.not_lt.2 hroom)]
  rfl

theorem rotateIfDue_of_lt (h : On P settings path isFallback text size w t) {more : Nat}
    (hfull : settings.maxSize < size + more) : w.rotateIfDue more t = w.rotate t := by
  obtain ⟨b, lastSync, rfl, -⟩ := h
  change (if settings.maxSize < size + more then _ else _ : StateM τ _) t = _
  rw [if_pos hfull]

/-- A writer that is done with a line at once does not step down. -/
theorem writeEntry_of_attempt {entry : LogEntry}
    (h : w.attempt (entry.line ++ "\n") t = ((true, w'), t')) :
    w.writeEntry entry t = (w', t') := by
  change (w.attempt (entry.line ++ "\n") >>= _) t = _
  rw [StateM.bind_apply, h]
  rfl

/-! ## Files of a machine -/

/-- The disk of a machine is what it was, with these bytes at the end of one of its files. -/
structure Appends (d : Disk) (here number : Nat) (taken : ByteArray) (file : OpenFile)
    (s : Machine) : Prop where
  steady : s.Steady
  here : s.workingDir = here
  disk : s.disk = d.append number taken
  number : file.number = some number
  room : file.isFull = false

theorem takes_appends (d : Disk) (here number : Nat) :
    Takes (τ := Machine) (Appends d here number) where
  write {taken file s} h bytes := by
    refine ⟨_, h.steady.write_file h.number h.room bytes, h.steady.stepTo _, h.here, ?_, h.number,
      h.room⟩
    rw [Machine.disk_stepTo, h.disk, Disk.append_append]
  sync {taken file s} h := by
    obtain ⟨outcome, hsynced⟩ := h.steady.sync file
    exact ⟨outcome, _, hsynced, h.steady.stepTo _, h.here, h.disk, h.number, h.room⟩
  now s := ⟨s.now, rfl⟩

/-! ## Systems that are watched -/

/-- To watch a system takes nothing from its files. -/
theorem Takes.watched (hP : Takes P) :
    Takes (τ := Watched τ) fun taken file r => P taken (Watched.plainFile file) r.base where
  write {taken file r} h bytes := by
    obtain ⟨t', hwritten, hfile⟩ := hP.write h bytes
    exact ⟨_, Watched.note_of_eq hwritten, hfile⟩
  sync {taken file r} h := by
    obtain ⟨outcome, t', hsynced, hfile⟩ := hP.sync h
    exact ⟨_, _, Watched.note_of_eq hsynced, hfile⟩
  now r := by
    obtain ⟨time, hnow⟩ := hP.now r.base
    refine ⟨time, ?_⟩
    change ((Host.now (m := StateM τ) r.base).1,
      (⟨(Host.now (m := StateM τ) r.base).2, r.deeds⟩ : Watched τ)) = _
    rw [hnow]

end LogWriter

end Backlog
