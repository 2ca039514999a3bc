import Backlog.Activity.Logger
import Backlog.Proofs.Activity.Buffered
import Backlog.Proofs.Host.Opening
import Backlog.Proofs.Json.OneLine
import Mathlib.Data.List.TakeWhile

/-!
# Events on their way to the log

Events are left in a mailbox, and a logger takes them out, one after the other, and enters each in
its log; both go on side by side, in any order, and time passes meanwhile (`Scene.run`).  As long as
the mailbox has room nothing is lost on the way, so at any time the events that were taken out and
those that wait are the ones that were sent (`Fifo`).

While no file is put aside, the disk of the machine is all that time the one on which the log was
opened, with the lines of the events that were taken out behind it (`Logged`).  This holds from the
opening on (`logged_opened`), one event keeps it (`Logged.handle`), and so does all that happens
(`logged_run`).  The event that closes the log, or the end of the mailbox, has what waits in the
buffer written.
-/

namespace Backlog

/-! ## Lines of entries -/

theorem LogEntry.readable_toJson (e : LogEntry) : e.toJson.Readable := by
  have hmember {β : Type} {name : String} {toJson : β → Json} (h : ∀ b, (toJson b).Readable)
      (o : Option β) : ∀ m ∈ member name toJson o, m.2.Readable := by
    cases o with
    | none => exact fun _ hmem => nomatch hmem
    | some b => exact fun _ hmem => List.eq_of_mem_singleton hmem ▸ h b
  refine .object ?_
  simp only [List.forall_mem_append, List.forall_mem_cons, List.not_mem_nil, false_implies,
    implies_true, and_true]
  exact ⟨⟨⟨⟨⟨⟨⟨⟨⟨⟨.string _, .string _, .string _⟩, hmember .string _⟩, hmember .bool _⟩,
    hmember .string _⟩, hmember Json.readable_double _⟩, hmember (fun _ => Json.readable_int _) _⟩,
    hmember Json.readable_double _⟩, hmember .string _⟩, hmember .string _⟩, hmember .string _⟩

/-- Whatever the texts of an entry are, its line has no line feed and no other control character. -/
theorem LogEntry.printed_line (e : LogEntry) : Json.Printed e.line.toList := by
  rw [line, Json.compact, String.toList_ofList]
  exact Json.printed_chars e.readable_toJson

/-- Whether an event closes the log. -/
def Event.isShutdown : Event → Bool
  | .shutdown => true
  | _ => false

namespace Logger

open LogWriter

/-- The events that are entered: those before the first one that closes the log. -/
def entered (taken : List (Event × Instant)) : List (Event × Instant) :=
  taken.takeWhile fun e => !e.1.isShutdown

/-- The line of an event that was taken out at a time. -/
def lineOf (e : Event × Instant) : String := (e.1.entry (Calendar.stampText e.2)).line

/-- What the events that were taken out bring to the log. -/
def linesOf (taken : List (Event × Instant)) : ByteArray :=
  joined ((entered taken).map fun e => (lineOf e ++ "\n").toUTF8)

section

variable {taken more : List (Event × Instant)} {e : Event × Instant}

/-- As long as the log was not closed all events are entered. -/
theorem entered_of_open (h : ∀ e ∈ taken, e.1.isShutdown = false) : entered taken = taken :=
  List.takeWhile_eq_self_iff.2 fun e hmem => by rw [h e hmem]; rfl

/-- Behind the event that closes the log nothing is entered. -/
theorem entered_of_closed (h : ∃ e ∈ taken, e.1.isShutdown = true) :
    entered (taken ++ more) = entered taken := by
  rw [entered, List.takeWhile_append, if_neg, entered]
  intro hlength
  obtain ⟨e, hmem, hclosed⟩ := h
  rw [← (List.takeWhile_prefix _).eq_of_length hlength] at hmem
  have hopen := List.mem_takeWhile_imp hmem
  rw [hclosed] at hopen
  cases hopen

theorem linesOf_concat (h : ∀ e ∈ taken, e.1.isShutdown = false) (he : e.1.isShutdown = false) :
    linesOf (taken ++ [e]) = linesOf taken ++ (lineOf e ++ "\n").toUTF8 := by
  have hall : ∀ e' ∈ taken ++ [e], e'.1.isShutdown = false :=
    List.forall_mem_append.2 ⟨h, List.forall_mem_singleton.2 he⟩
  have hline : joined [(lineOf e ++ "\n").toUTF8] = (lineOf e ++ "\n").toUTF8 :=
    ByteArray.append_empty
  rw [linesOf, linesOf, entered_of_open h, entered_of_open hall, List.map_append, joined_append,
    List.map_singleton, hline]

/-- The event that closes the log brings no line. -/
theorem linesOf_shutdown (h : ∀ e ∈ taken, e.1.isShutdown = false) (he : e.1.isShutdown = true) :
    linesOf (taken ++ [e]) = linesOf taken := by
  have hlast : entered (taken ++ [e]) = entered taken := by
    have hnone : [e].takeWhile (fun e => !e.1.isShutdown) = [] :=
      List.takeWhile_cons_of_neg (by simp [he])
    rw [entered, List.takeWhile_append_of_pos fun e hmem => by rw [h e hmem]; rfl, hnone,
      List.append_nil, entered_of_open h]
  rw [linesOf, linesOf, hlast]

theorem size_linesOf_le (taken more : List (Event × Instant)) :
    (linesOf taken).size ≤ (linesOf (taken ++ more)).size := by
  have hprefix : entered taken <+: entered (taken ++ more) := by
    rw [entered, entered, List.takeWhile_append]
    split
    · rename_i hall
      rw [(List.takeWhile_prefix _).eq_of_length hall]
      exact List.prefix_append _ _
    · exact List.prefix_rfl
  obtain ⟨rest, hrest⟩ := hprefix
  rw [linesOf, linesOf, ← hrest, List.map_append, joined_append, ByteArray.size_append]
  exact Nat.le_add_right _ _

end

/-! ## What happens around a logger -/

/-- What happens around a logger. -/
inductive Traffic where
  | send (event : Event)
  /-- The event that closes the log is left, for which room is always made. -/
  | close
  /-- The logger takes out an event, if one waits. -/
  | take
  /-- Time passes, or the clock is set. -/
  | pass (now : Instant)

/-- The events that are sent. -/
def sent (traffic : List Traffic) : List Event :=
  traffic.filterMap fun
    | .send event => some event
    | .close => some .shutdown
    | .take | .pass _ => none

/-- A mailbox and the logger that empties it, on a machine.  The events that were taken out are
kept, each with the time then. -/
structure Scene where
  mailbox : Mailbox
  logger : Logger OpenFile
  machine : Machine
  taken : List (Event × Instant)

namespace Scene

/-- The log was opened, and nothing was sent yet. -/
def opened (settings : LogSettings) (capacity : Nat) (s : Machine) : Scene :=
  let begun := Logger.start (m := StateM Machine) settings s
  ⟨.empty capacity, begun.1, begun.2, []⟩

/-- The logger takes out the event that waits longest, and handles it. -/
def take (c : Scene) : Scene :=
  match c.mailbox.waiting with
  | [] => c
  | event :: rest =>
    let handled := c.logger.handle (m := StateM Machine) c.mailbox.dropped event c.machine
    ⟨{ c.mailbox with waiting := rest, dropped := 0 }, handled.1, handled.2,
      c.taken ++ [(event, c.machine.now)]⟩

def after (c : Scene) : Traffic → Scene
  | .send event => { c with mailbox := c.mailbox.send event }
  | .close => { c with mailbox := c.mailbox.close }
  | .take => c.take
  | .pass now => { c with machine := { c.machine with now } }

def run (c : Scene) (traffic : List Traffic) : Scene := traffic.foldl after c

/-- All events that wait are taken out. -/
def drained (c : Scene) : Scene := c.run (List.replicate c.mailbox.waiting.length .take)

/-- Whenever an event is sent there is room for it. -/
def NeverFull (c : Scene) (traffic : List Traffic) : Prop :=
  ∀ before event rest, traffic = before ++ .send event :: rest →
    (c.run before).mailbox.waiting.length < (c.run before).mailbox.capacity

variable {c : Scene} {traffic : List Traffic} {given : List Event}

theorem take_of_empty (h : c.mailbox.waiting = []) : c.take = c := by
  rw [take, h]

theorem take_of_waiting {event : Event} {rest : List Event}
    (h : c.mailbox.waiting = event :: rest) :
    c.take = ⟨{ c.mailbox with waiting := rest, dropped := 0 },
      (c.logger.handle (m := StateM Machine) c.mailbox.dropped event c.machine).1,
      (c.logger.handle (m := StateM Machine) c.mailbox.dropped event c.machine).2,
      c.taken ++ [(event, c.machine.now)]⟩ := by
  rw [take, h]

/-- To empty a mailbox into the log is to take out one event after the other. -/
theorem drain_eq (c : Scene) : c.logger.drain (m := StateM Machine) c.mailbox c.machine =
    ((c.drained.logger, c.drained.mailbox), c.drained.machine) := by
  obtain ⟨⟨capacity, waiting, dropped⟩, logger, machine, taken⟩ := c
  induction waiting generalizing dropped logger machine taken with
  | nil => rfl
  | cons event rest ih =>
      have hfirst : drain (m := StateM Machine) logger ⟨capacity, event :: rest, dropped⟩ machine =
          drain (m := StateM Machine) (logger.handle (m := StateM Machine) dropped event machine).1
            ⟨capacity, rest, 0⟩ (logger.handle (m := StateM Machine) dropped event machine).2 := by
        cases rest <;> rfl
      rw [hfirst]
      exact ih _ _ (taken ++ [(event, machine.now)]) _

/-! ## Events in the order of their sending -/

/-- No event was lost: those that were taken out and those that wait are the ones that were
given to the mailbox. -/
structure Fifo (given : List Event) (c : Scene) : Prop where
  order : c.taken.map Prod.fst ++ c.mailbox.waiting = given
  kept : c.mailbox.dropped = 0

theorem NeverFull.head {first : Traffic} (h : c.NeverFull (first :: traffic)) :
    ∀ event, first = .send event → c.mailbox.waiting.length < c.mailbox.capacity :=
  fun event hsend => h [] event traffic (by rw [hsend]; rfl)

theorem NeverFull.tail {first : Traffic} (h : c.NeverFull (first :: traffic)) :
    (c.after first).NeverFull traffic :=
  fun before event rest hsplit => h (first :: before) event rest (by rw [hsplit]; rfl)

theorem Fifo.after (h : Fifo given c) {traffic : Traffic}
    (hroom : ∀ event, traffic = .send event → c.mailbox.waiting.length < c.mailbox.capacity) :
    Fifo (given ++ sent [traffic]) (c.after traffic) := by
  cases traffic with
  | send event =>
      have hsend : c.mailbox.send event =
          { c.mailbox with waiting := c.mailbox.waiting ++ [event] } := by
        rw [Mailbox.send, if_pos (hroom event rfl)]
      refine ⟨?_, ?_⟩
      · change c.taken.map Prod.fst ++ (c.mailbox.send event).waiting = given ++ [event]
        rw [hsend, ← List.append_assoc, h.order]
      · change (c.mailbox.send event).dropped = 0
        rw [hsend, h.kept]
  | close =>
      refine ⟨?_, h.kept⟩
      change c.taken.map Prod.fst ++ (c.mailbox.waiting ++ [.shutdown]) = given ++ [.shutdown]
      rw [← List.append_assoc, h.order]
  | take =>
      change Fifo (given ++ []) c.take
      rw [List.append_nil]
      cases hwaiting : c.mailbox.waiting with
      | nil =>
          rw [take_of_empty hwaiting]
          exact h
      | cons event rest =>
          rw [take_of_waiting hwaiting]
          refine ⟨?_, rfl⟩
          rw [← h.order, hwaiting, List.map_append, List.append_assoc]
          rfl
  | pass now =>
      change Fifo (given ++ []) _
      rw [List.append_nil]
      exact ⟨h.order, h.kept⟩

theorem Fifo.run (h : Fifo given c) (hroom : c.NeverFull traffic) :
    Fifo (given ++ sent traffic) (c.run traffic) := by
  induction traffic generalizing c given with
  | nil => exact (List.append_nil given).symm ▸ h
  | cons first traffic ih =>
      have hrest := ih (h.after hroom.head) hroom.tail
      have hsent : sent (first :: traffic) = sent [first] ++ sent traffic := by
        rw [sent, sent, sent, ← List.filterMap_append]
        rfl
      rw [hsent, ← List.append_assoc]
      exact hrest

end Scene

/-! ## Opening a log -/

/-- The number of the file that is opened when a log is opened: that of its first file, unless this
one cannot be opened or is a device. -/
def openNumber? (settings : LogSettings) (s : Machine) : Option Nat :=
  match (openSink (m := StateM Machine) settings.path false s).1 with
  | some (.file b _ _ _) => (b.file : OpenFile).number
  | _ => none

section

variable {settings : LogSettings} {s : Machine} {number : Nat} {path : String} {isFallback : Bool}

/-- What was done on the disk if a file could be opened. -/
theorem openSink_eq_some (hsteady : s.Steady) {sink : LogSink OpenFile} {s' : Machine}
    (h : openSink (m := StateM Machine) path isFallback s = (some sink, s')) :
    ∃ made file, (∀ up, Path.parent? path = some up →
        s.disk.createDirs s.workingDir up = (.ok (), made)) ∧
      (Path.parent? path = none → made = s.disk) ∧
      made.openFile s.workingDir path = .ok (file, s'.disk) ∧
      sink = .file ⟨file, .empty⟩ path (s'.disk.sizeOf file) isFallback ∧
      s'.Steady ∧ s'.workingDir = s.workingDir := by
  have hopen {s₁ : Machine} (hsteady₁ : s₁.Steady) (hhere : s₁.workingDir = s.workingDir)
      {rest : Except IoFault (OpenFile × Nat) → StateM Machine (Option (LogSink OpenFile))}
      (hnone : ∀ fault t, rest (.error fault) t = (none, t))
      (hsome : ∀ file size t, rest (.ok (file, size)) t =
        (some (.file ⟨file, .empty⟩ path size isFallback), t))
      (hopened : (Host.openAppend (m := StateM Machine) path >>= rest) s₁ = (some sink, s')) :
      ∃ file, s₁.disk.openFile s.workingDir path = .ok (file, s'.disk) ∧
        sink = .file ⟨file, .empty⟩ path (s'.disk.sizeOf file) isFallback ∧
        s'.Steady ∧ s'.workingDir = s.workingDir := by
    rw [StateM.bind_apply, hsteady₁.openAppend, hhere] at hopened
    cases hfile : s₁.disk.openFile s.workingDir path with
    | error fault =>
        rw [hfile, hnone] at hopened
        cases hopened
    | ok opened =>
        rw [hfile, hsome] at hopened
        cases hopened
        exact ⟨opened.1, rfl, rfl, hsteady₁.stepTo _, hhere⟩
  unfold openSink at h
  cases hparent : Path.parent? path with
  | none =>
      rw [hparent] at h
      dsimp only at h
      rw [StateM.bind_apply, StateM.pure_apply] at h
      obtain ⟨file, hfile⟩ := hopen hsteady rfl (fun _ _ => rfl) (fun _ _ _ => rfl) h
      exact ⟨s.disk, file, nofun, fun _ => rfl, hfile⟩
  | some up =>
      rw [hparent] at h
      dsimp only at h
      rw [StateM.bind_apply, hsteady.createDirs] at h
      cases hdirectory : s.disk.createDirs s.workingDir up with
      | mk outcome made =>
          rw [hdirectory] at h
          cases outcome with
          | error fault => cases h
          | ok done =>
              dsimp only at h
              obtain ⟨file, hfile⟩ :=
                hopen (hsteady.stepTo made) rfl (fun _ _ => rfl) (fun _ _ _ => rfl) h
              refine ⟨made, file, ?_, nofun, hfile⟩
              intro up' hup
              rw [← Option.some.inj hup, hdirectory]

/-- After the opening the path leads to the file, and all files hold what they held. -/
theorem openSink_of_openNumber? (h : openNumber? settings s = some number) (hsteady : s.Steady)
    (hsound : s.disk.Sound) (hinside : s.workingDir < s.disk.directories.size) :
    ∃ file s', openSink (m := StateM Machine) settings.path false s =
        (some (.file ⟨file, .empty⟩ settings.path (s.disk.bytesOf number).size false), s') ∧
      Appends s'.disk s.workingDir number .empty file s' ∧
      number < s'.disk.contents.size ∧ s'.disk.Finds s.workingDir settings.path number ∧
      (∀ other, s'.disk.bytesOf other = s.disk.bytesOf other) ∧
      ∀ old, s.disk.content s.workingDir settings.path = some old →
        s.disk.bytesOf number = old := by
  unfold openNumber? at h
  generalize hopened : openSink (m := StateM Machine) settings.path false s = answer at h
  obtain ⟨sink, s'⟩ := answer
  cases sink with
  | none => cases h
  | some sink =>
  obtain ⟨made, file, hmade, hsame, hfile, rfl, hsteady', hhere⟩ := openSink_eq_some hsteady hopened
  have hnumber : file.number = some number := h
  -- the directories that were created leave all files as they are
  have hbefore : made.Sound ∧ s.workingDir < made.directories.size ∧
      made.contents = s.disk.contents := by
    cases hparent : Path.parent? settings.path with
    | none =>
        rw [hsame hparent]
        exact ⟨hsound, hinside, rfl⟩
    | some up =>
        have hrow : (s.disk.createDirs s.workingDir up).2.Sound ∧
            s.workingDir < (s.disk.createDirs s.workingDir up).2.directories.size :=
          hsound.createRow hinside (up.length + 1) up
        have hcontents := (Disk.grown_createDirs hsound hinside up).contents
        rw [hmade up hparent] at hrow hcontents
        exact ⟨hrow.1, hrow.2, hcontents⟩
  obtain ⟨hsound', hinside', hcontents⟩ := hbefore
  obtain ⟨hroom, hlt, hfinds, hbytes, hentry⟩ :=
    Disk.openFile_finds hsound' hinside' hfile hnumber
  have hall (other : Nat) : s'.disk.bytesOf other = s.disk.bytesOf other := by
    rw [hbytes, Disk.bytesOf, hcontents, Disk.bytesOf]
  have hsize : s'.disk.sizeOf file = (s.disk.bytesOf number).size := by
    rw [Disk.sizeOf, hnumber, ← hall]
  refine ⟨file, s', by rw [hsize], ⟨hsteady', hhere, (Disk.append_empty _ _).symm, hnumber,
    hroom⟩, hlt, hfinds, hall, ?_⟩
  intro old hold
  rw [Disk.content_eq] at hold
  cases hthere : s.disk.entryAt? s.workingDir settings.path with
  | none =>
      rw [hthere] at hold
      cases hold
  | some entry =>
      have hother : ∀ directory, entry ≠ .directory directory := by
        rintro directory rfl
        rw [hthere] at hold
        cases hold
      obtain ⟨up, hparent, hcreate⟩ := Disk.createDirs_of_entry hthere hother
      obtain rfl : made = s.disk := by
        have hpair := (hmade up hparent).symm.trans hcreate
        exact (Prod.mk.inj hpair).2
      rcases hentry with hentry | hentry
      · rw [hentry] at hold
        exact Option.some.inj hold
      · cases hentry.symm.trans hthere

end

/-! ## The log while it is written -/

/-- The lines of the events that were taken out are behind what the log held when it was opened, on
a disk on which nothing else changed. -/
structure Logged (settings : LogSettings) (d : Disk) (here number : Nat)
    (taken : List (Event × Instant)) (l : Logger OpenFile) (s : Machine) : Prop where
  isClosed : l.isClosed = taken.any fun e => e.1.isShutdown
  writer : l.isClosed = false → On (τ := Machine) (Appends d here number) settings settings.path
    false (linesOf taken) ((d.bytesOf number).size + (linesOf taken).size) l.writer s
  closed : l.isClosed = true → ∃ file, Appends d here number (linesOf taken) file s

section

variable {settings : LogSettings} {d : Disk} {here number size : Nat} {text : ByteArray}
  {taken : List (Event × Instant)} {w : LogWriter OpenFile} {l : Logger OpenFile} {s : Machine}
  {event : Event}

/-- What waits is written when a log is closed. -/
theorem finish_of_on
    (h : On (τ := Machine) (Appends d here number) settings settings.path false text size w s) :
    ∃ w' s' file, finish (m := StateM Machine) ⟨w, false⟩ s = (⟨w', true⟩, s') ∧
      Appends d here number text file s' := by
  obtain ⟨file, lastSync, s', hsynced, hfile⟩ := h.syncs (takes_appends d here number)
  refine ⟨⟨settings, .file ⟨file, .empty⟩ settings.path size false, lastSync⟩, s', file, ?_, hfile⟩
  change (LogWriter.sync (m := StateM Machine) w >>= _) s = _
  rw [StateM.bind_apply, hsynced]
  rfl

/-- An entry comes behind the lines before it, and nothing waits then. -/
theorem enter_of_on (entry : String → LogEntry)
    (h : On (τ := Machine) (Appends d here number) settings settings.path false text size w s)
    (hroom : size + ((entry (Calendar.stampText s.now)).line ++ "\n").utf8ByteSize ≤
      settings.maxSize) :
    ∃ w' s', (do
        let w ← enter (m := StateM Machine) w entry
        let w ← w.flush
        w.tryRecover) s = (w', s') ∧
      On (τ := Machine) (Appends d here number) settings settings.path false
        (text ++ ((entry (Calendar.stampText s.now)).line ++ "\n").toUTF8)
        (size + ((entry (Calendar.stampText s.now)).line ++ "\n").utf8ByteSize) w' s' := by
  have htakes := takes_appends d here number
  obtain ⟨w₁, s₁, hdone, hon⟩ := h.attempts (rotateIfDue_of_le h hroom) htakes
  obtain ⟨file, s₂, hflushed, hfile⟩ := hon.flushes htakes
  refine ⟨_, s₂, ?_, ⟨file, .empty⟩, w₁.lastSync, rfl, held_empty hfile⟩
  have hentered : enter (m := StateM Machine) w entry s = (w₁, s₁) :=
    writeEntry_of_attempt hdone
  rw [StateM.bind_apply, hentered]
  dsimp only
  rw [StateM.bind_apply, hflushed]
  rfl

theorem handle_of_open (hopen : l.isClosed = false) (hevent : event.isShutdown = false) :
    l.handle (m := StateM Machine) 0 event s =
      let entered := (do
        let w ← enter (m := StateM Machine) l.writer fun stamp => event.entry stamp
        let w ← w.flush
        w.tryRecover : StateM Machine (LogWriter OpenFile)) s
      (⟨entered.1, false⟩, entered.2) := by
  obtain ⟨w, isClosed⟩ := l
  obtain rfl : isClosed = false := hopen
  cases event with
  | shutdown => cases hevent
  | _ => rfl

theorem handle_of_closed (hclosed : l.isClosed = true) :
    l.handle (m := StateM Machine) 0 event s = (l, s) := by
  unfold handle
  rw [if_pos hclosed]
  rfl

/-- One event: it is entered, or it closes the log, or the log was closed before. -/
theorem Logged.handle (h : Logged settings d here number taken l s)
    (hroom : (d.bytesOf number).size + (linesOf (taken ++ [(event, s.now)])).size ≤
      settings.maxSize) :
    Logged settings d here number (taken ++ [(event, s.now)])
      (l.handle (m := StateM Machine) 0 event s).1
      (l.handle (m := StateM Machine) 0 event s).2 := by
  have hany : (taken ++ [(event, s.now)]).any (fun e => e.1.isShutdown) =
      (l.isClosed || event.isShutdown) := by
    rw [List.any_append, ← h.isClosed]
    simp
  cases hclosed : l.isClosed with
  | true =>
      have hone : ∃ e ∈ taken, e.1.isShutdown = true := by
        rw [← List.any_eq_true, ← h.isClosed, hclosed]
      have hlines : linesOf (taken ++ [(event, s.now)]) = linesOf taken := by
        rw [linesOf, linesOf, entered_of_closed hone]
      rw [handle_of_closed hclosed]
      refine ⟨by rw [hany, hclosed]; rfl, fun hopen => ?_, fun _ => ?_⟩
      · cases hclosed.symm.trans hopen
      · rw [hlines]
        exact h.closed hclosed
  | false =>
      have hon := h.writer hclosed
      have hopen : ∀ e ∈ taken, e.1.isShutdown = false := by
        have hnone := h.isClosed
        rw [hclosed] at hnone
        simpa using List.any_eq_false.1 hnone.symm
      rw [hclosed, Bool.false_or] at hany
      cases hevent : event.isShutdown with
      | true =>
          obtain rfl : event = .shutdown := by
            cases event with
            | shutdown => rfl
            | _ => cases hevent
          obtain ⟨w', s', file, hfinished, hfile⟩ := finish_of_on hon
          have hhandled : l.handle (m := StateM Machine) 0 .shutdown s = (⟨w', true⟩, s') := by
            obtain ⟨w, isClosed⟩ := l
            obtain rfl : isClosed = false := hclosed
            exact hfinished
          rw [hhandled]
          refine ⟨hany.symm, nofun, fun _ => ⟨file, ?_⟩⟩
          rw [linesOf_shutdown hopen rfl]
          exact hfile
      | false =>
          have hlines : linesOf (taken ++ [(event, s.now)]) =
              linesOf taken ++ (lineOf (event, s.now) ++ "\n").toUTF8 := linesOf_concat hopen hevent
          rw [hlines, ByteArray.size_append, ← Nat.add_assoc] at hroom
          obtain ⟨w', s', hentered, hon'⟩ := enter_of_on (fun stamp => event.entry stamp) hon hroom
          have hhandled : l.handle (m := StateM Machine) 0 event s = (⟨w', false⟩, s') := by
            rw [handle_of_open hclosed hevent, hentered]
          rw [hhandled]
          refine ⟨(hany.trans hevent).symm, fun _ => ?_, nofun⟩
          rw [hlines, ByteArray.size_append, ← Nat.add_assoc]
          exact hon'

theorem Logged.finish (h : Logged settings d here number taken l s) :
    ∃ w' s' file, l.finish (m := StateM Machine) s = (⟨w', true⟩, s') ∧
      Appends d here number (linesOf taken) file s' := by
  obtain ⟨w, isClosed⟩ := l
  cases isClosed with
  | true =>
      obtain ⟨file, hfile⟩ := h.closed rfl
      exact ⟨w, s, file, rfl, hfile⟩
  | false => exact finish_of_on (h.writer rfl)

end

namespace Scene

variable {settings : LogSettings} {d : Disk} {here number : Nat} {c : Scene}
  {traffic : List Traffic} {given : List Event}

theorem taken_prefix_after (c : Scene) (traffic : Traffic) :
    c.taken <+: (c.after traffic).taken := by
  cases traffic with
  | take =>
      change c.taken <+: c.take.taken
      cases hwaiting : c.mailbox.waiting with
      | nil => simp [take_of_empty hwaiting]
      | cons event rest =>
          rw [take_of_waiting hwaiting]
          exact List.prefix_append _ _
  | _ => exact List.prefix_rfl

theorem taken_prefix_run (c : Scene) (traffic : List Traffic) :
    c.taken <+: (c.run traffic).taken := by
  induction traffic generalizing c with
  | nil => exact List.prefix_rfl
  | cons first traffic ih => exact (c.taken_prefix_after first).trans (ih _)

theorem logged_after (h : Logged settings d here number c.taken c.logger c.machine)
    (hkept : c.mailbox.dropped = 0) {traffic : Traffic}
    (hroom : (d.bytesOf number).size + (linesOf (c.after traffic).taken).size ≤ settings.maxSize) :
    Logged settings d here number (c.after traffic).taken (c.after traffic).logger
      (c.after traffic).machine := by
  cases traffic with
  | send event => exact h
  | close => exact h
  | take =>
      change Logged settings d here number c.take.taken c.take.logger c.take.machine
      change _ + (linesOf c.take.taken).size ≤ _ at hroom
      cases hwaiting : c.mailbox.waiting with
      | nil =>
          rw [take_of_empty hwaiting]
          exact h
      | cons event rest =>
          rw [take_of_waiting hwaiting] at hroom ⊢
          rw [hkept]
          exact h.handle hroom
  | pass now =>
      have hfile {taken : ByteArray} {file : OpenFile}
          (hfile : Appends d here number taken file c.machine) :
          Appends d here number taken file { c.machine with now } :=
        ⟨hfile.steady.at_time now, hfile.here, hfile.disk, hfile.number, hfile.room⟩
      refine ⟨h.isClosed, fun hopen => ?_, fun hclosed => ?_⟩
      · obtain ⟨b, lastSync, hw, taken, hheld, htext⟩ := h.writer hopen
        exact ⟨b, lastSync, hw, taken, hfile hheld, htext⟩
      · obtain ⟨file, hheld⟩ := h.closed hclosed
        exact ⟨file, hfile hheld⟩

/-- Whatever happens, the lines of the events that were taken out are in the log. -/
theorem logged_run (h : Logged settings d here number c.taken c.logger c.machine)
    (hfifo : Fifo given c) (hfull : c.NeverFull traffic)
    (hroom : (d.bytesOf number).size + (linesOf (c.run traffic).taken).size ≤ settings.maxSize) :
    Logged settings d here number (c.run traffic).taken (c.run traffic).logger
      (c.run traffic).machine := by
  induction traffic generalizing c given with
  | nil => exact h
  | cons first traffic ih =>
      obtain ⟨more, hmore⟩ := (c.after first).taken_prefix_run traffic
      have hsize := size_linesOf_le (c.after first).taken more
      rw [hmore] at hsize
      have hroom₁ : (d.bytesOf number).size + (linesOf (c.after first).taken).size ≤
          settings.maxSize := Nat.le_trans (Nat.add_le_add_left hsize _) hroom
      exact ih (logged_after h hfifo.kept hroom₁) (hfifo.after hfull.head) hfull.tail hroom

theorem logged_opened {settings : LogSettings} {s : Machine} (capacity : Nat)
    (hsteady : s.Steady) (hsound : s.disk.Sound) (hinside : s.workingDir < s.disk.directories.size)
    (hopens : openNumber? settings s = some number) :
    ∃ d, Logged settings d s.workingDir number [] (opened settings capacity s).logger
        (opened settings capacity s).machine ∧
      number < d.contents.size ∧ d.Finds s.workingDir settings.path number ∧
      (∀ other, d.bytesOf other = s.disk.bytesOf other) ∧
      ∀ old, s.disk.content s.workingDir settings.path = some old →
        s.disk.bytesOf number = old := by
  obtain ⟨file, s', hopened, happends, hlt, hfinds, hbytes, hold⟩ :=
    openSink_of_openNumber? hopens hsteady hsound hinside
  have hbegun : Logger.start (m := StateM Machine) settings s =
      (⟨⟨settings, .file ⟨file, .empty⟩ settings.path (s.disk.bytesOf number).size false, s'.now⟩,
        false⟩, s') := by
    change ((openSink (m := StateM Machine) settings.path false >>= _) >>= _) s = _
    rw [StateM.bind_apply, StateM.bind_apply, hopened]
    rfl
  refine ⟨s'.disk, ?_, hlt, hfinds, hbytes, hold⟩
  change Logged settings s'.disk s.workingDir number []
    (Logger.start (m := StateM Machine) settings s).1
    (Logger.start (m := StateM Machine) settings s).2
  rw [hbegun]
  have hsize : (s'.disk.bytesOf number).size + (linesOf []).size = (s.disk.bytesOf number).size :=
    congrArg ByteArray.size (hbytes number)
  refine ⟨rfl, fun _ => ?_, nofun⟩
  rw [hsize]
  exact ⟨_, _, rfl, held_empty happends⟩

theorem waiting_drained (c : Scene) : c.drained.mailbox.waiting = [] :=
  (congrArg (fun answer => answer.1.2.waiting) c.drain_eq).symm

theorem sent_replicate_take (n : Nat) : sent (List.replicate n .take) = [] := by
  rw [sent, List.filterMap_replicate_of_none rfl]

theorem neverFull_replicate_take (c : Scene) (n : Nat) : c.NeverFull (List.replicate n .take) := by
  intro before event rest hsplit
  have hmem : Traffic.send event ∈ List.replicate n .take := by
    rw [hsplit]
    exact List.mem_append_right _ List.mem_cons_self
  cases (List.mem_replicate.1 hmem).2

theorem Fifo.drained (h : Fifo given c) : Fifo given c.drained := by
  have htakes := h.run (neverFull_replicate_take c c.mailbox.waiting.length)
  rw [sent_replicate_take, List.append_nil] at htakes
  exact htakes

theorem mailbox_run_le (c : Scene) (traffic : List Traffic) :
    (c.run traffic).mailbox.capacity = c.mailbox.capacity ∧
      (c.run traffic).mailbox.waiting.length ≤ c.mailbox.waiting.length + traffic.length := by
  induction traffic generalizing c with
  | nil => exact ⟨rfl, Nat.le_refl _⟩
  | cons first traffic ih =>
      have hfirst : (c.after first).mailbox.capacity = c.mailbox.capacity ∧
          (c.after first).mailbox.waiting.length ≤ c.mailbox.waiting.length + 1 := by
        cases first with
        | send event =>
            change (c.mailbox.send event).capacity = _ ∧ (c.mailbox.send event).waiting.length ≤ _
            unfold Mailbox.send
            split
            · exact ⟨rfl, Nat.le_of_eq List.length_append⟩
            · exact ⟨rfl, Nat.le_succ _⟩
        | close => exact ⟨rfl, Nat.le_of_eq List.length_append⟩
        | take =>
            change c.take.mailbox.capacity = _ ∧ c.take.mailbox.waiting.length ≤ _
            cases hwaiting : c.mailbox.waiting with
            | nil =>
                rw [take_of_empty hwaiting]
                exact ⟨rfl, by rw [hwaiting]; exact Nat.zero_le _⟩
            | cons event rest =>
                rw [take_of_waiting hwaiting]
                exact ⟨rfl, Nat.le_trans (Nat.le_succ _) (Nat.le_succ _)⟩
        | pass now => exact ⟨rfl, Nat.le_succ _⟩
      obtain ⟨hcapacity, hlength⟩ := ih (c.after first)
      change ((c.after first).run traffic).mailbox.capacity = _ ∧
        ((c.after first).run traffic).mailbox.waiting.length ≤ _
      rw [List.length_cons]
      exact ⟨hcapacity.trans hfirst.1, by omega⟩

/-- A mailbox with room for all that happens is never full. -/
theorem neverFull_of_length {settings : LogSettings} {capacity : Nat} (s : Machine)
    (h : traffic.length ≤ capacity) : (opened settings capacity s).NeverFull traffic := by
  intro before event rest hsplit
  obtain ⟨hcapacity, hlength⟩ := mailbox_run_le (opened settings capacity s) before
  have hempty : (opened settings capacity s).mailbox.waiting.length = 0 := rfl
  have hlarge : capacity ≤ (opened settings capacity s).mailbox.capacity := Nat.le_max_left _ _
  rw [hsplit, List.length_append, List.length_cons] at h
  omega

/-! ## The end -/

/-- A log was opened, all this happened around its logger, and then nothing is sent any more: the
logger takes out what still waits. -/
def atEnd (settings : LogSettings) (capacity : Nat) (s : Machine) (traffic : List Traffic) :
    Scene :=
  ((opened settings capacity s).run traffic).drained

/-- What becomes of a logger when nobody is left to send anything. -/
def ended (c : Scene) : Logger OpenFile × Machine := c.logger.finish (m := StateM Machine) c.machine

/-- Each event that was sent before the log was closed is one line of it, in their order, and no
line has a line break inside.  The logger ends when it comes to the event that closes the log, or
else when nobody is left to send anything. -/
theorem events_reach_the_log (settings : LogSettings) (capacity : Nat) (s : Machine)
    (traffic : List Traffic) {number : Nat} (hsteady : s.Steady) (hsound : s.disk.Sound)
    (hinside : s.workingDir < s.disk.directories.size)
    (hopens : openNumber? settings s = some number)
    (hfull : (opened settings capacity s).NeverFull traffic)
    (hroom : (s.disk.bytesOf number).size +
      (linesOf (atEnd settings capacity s traffic).taken).size ≤ settings.maxSize) :
    let c := atEnd settings capacity s traffic
    c.mailbox.waiting = [] ∧ c.ended.1.isClosed = true ∧
    (c.logger.isClosed = true ↔ ∃ event ∈ sent traffic, event.isShutdown = true) ∧
    c.taken.map Prod.fst = sent traffic ∧
    (entered c.taken).map Prod.fst = (sent traffic).takeWhile (fun event => !event.isShutdown) ∧
    c.ended.2.disk.content s.workingDir settings.path =
      some (s.disk.bytesOf number ++ linesOf c.taken) ∧
    (∀ old, s.disk.content s.workingDir settings.path = some old → s.disk.bytesOf number = old) ∧
    (∀ other, other ≠ number → c.ended.2.disk.bytesOf other = s.disk.bytesOf other) ∧
    ∀ e ∈ entered c.taken, ∀ char ∈ (lineOf e).toList, 0x20 ≤ char.toNat := by
  intro c
  obtain ⟨d, hlogged, hlt, hfinds, hbytes, hold⟩ :=
    logged_opened capacity hsteady hsound hinside hopens
  rw [← hbytes] at hroom
  have hnothing : Fifo [] (opened settings capacity s) := ⟨rfl, rfl⟩
  have hfifo : Fifo (sent traffic) ((opened settings capacity s).run traffic) :=
    hnothing.run hfull
  have hwaiting : c.mailbox.waiting = [] := waiting_drained _
  have htaken : c.taken.map Prod.fst = sent traffic := by
    have horder := hfifo.drained.order
    rwa [waiting_drained, List.append_nil] at horder
  -- the lines come to the log while the events are sent, and while those that wait are taken out
  have hafter : Logged settings d s.workingDir number c.taken c.logger c.machine := by
    obtain ⟨more, hmore⟩ := taken_prefix_run ((opened settings capacity s).run traffic)
      (List.replicate ((opened settings capacity s).run traffic).mailbox.waiting.length .take)
    have hsize := size_linesOf_le ((opened settings capacity s).run traffic).taken more
    rw [hmore] at hsize
    have hbetween := logged_run hlogged hnothing hfull
      (Nat.le_trans (Nat.add_le_add_left hsize _) hroom)
    exact logged_run hbetween hfifo (neverFull_replicate_take _ _) hroom
  obtain ⟨w', s', file, hfinished, hfile⟩ := hafter.finish
  have hended : c.ended = (⟨w', true⟩, s') := hfinished
  refine ⟨hwaiting, by rw [hended], ?_, htaken, ?_, ?_, hold, ?_, ?_⟩
  · rw [hafter.isClosed, ← htaken, List.any_eq_true]
    simp
  · rw [← htaken, List.takeWhile_map]
    rfl
  · rw [hended, hfile.disk, (hfinds.append number _).content_eq, Disk.bytesOf_append hlt,
      if_pos rfl, hbytes]
  · intro other hother
    rw [hended, hfile.disk, Disk.bytesOf_append hlt, if_neg hother.symm, hbytes]
  · intro e _
    exact (e.1.entry (Calendar.stampText e.2)).printed_line

/-- Events with texts that look like the end of a line, before and after the log is closed. -/
def hostileTraffic : List Traffic :=
  [.send (.error "E\n" "\"\x7d\n\x7b\"ts\":1"), .take, .pass ⟨1500000000⟩,
    .send (.skipped "q\r\n\x00" "\\\""), .close, .send (.toggled "on")]

theorem events_reach_the_log_on_blank :
    let settings := LogSettings.at "a.jsonl"
    let c := atEnd settings 8 Machine.blank hostileTraffic
    Machine.blank.Steady ∧ openNumber? settings Machine.blank = some 0 ∧
    (opened settings 8 Machine.blank).NeverFull hostileTraffic ∧ (entered c.taken).length = 2 ∧
    c.ended.1.isClosed = true ∧
    c.ended.2.disk.content Machine.blank.workingDir settings.path =
      some (Machine.blank.disk.bytesOf 0 ++ linesOf c.taken) := by
  have hsteady : Machine.blank.Steady := ⟨rfl, fun _ _ => rfl⟩
  have hopens : openNumber? (LogSettings.at "a.jsonl") Machine.blank = some 0 := by
    decide +kernel
  have hfull : (opened (LogSettings.at "a.jsonl") 8 Machine.blank).NeverFull hostileTraffic :=
    neverFull_of_length _ (by decide)
  have hroom : (Machine.blank.disk.bytesOf 0).size +
      (linesOf (atEnd (LogSettings.at "a.jsonl") 8 Machine.blank hostileTraffic).taken).size ≤
        (LogSettings.at "a.jsonl").maxSize := by
    decide +kernel
  have hlength : (entered (atEnd (LogSettings.at "a.jsonl") 8 Machine.blank
      hostileTraffic).taken).length = 2 := by
    decide +kernel
  obtain ⟨-, hclosed, -, -, -, hcontent, -⟩ := events_reach_the_log (LogSettings.at "a.jsonl") 8
    Machine.blank hostileTraffic hsteady Disk.sound_empty Nat.zero_lt_one hopens hfull hroom
  exact ⟨hsteady, hopens, hfull, hlength, hclosed, hcontent⟩

end Scene

end Logger

end Backlog
