import Backlog.Proofs.Json.OneLine
import Backlog.Proofs.Text.Lines
import Backlog.SampleLog
import Mathlib.Data.List.ReduceOption

/-!
# Sample logs are read line by line

A log is read exactly if each of its lines says something: nothing at all, or a record (`Says`).
The first line that does not is the one that the fault names (`readLines_eq_error_iff`).

A record that was written as JSON is on one line, since no character of it is a control character,
and that line says the record again.  So a log that was written row by row is read as the records
that were written, whatever stands between them and however the rows end (`Written.lines_said`).
-/

namespace Backlog

/-! ## Records -/

namespace SampleRecord

theorem readable_toJson (r : SampleRecord) : r.toJson.Readable := by
  refine .object ?_
  simp only [List.forall_mem_cons, List.not_mem_nil, false_implies, implies_true, and_true]
  refine ⟨.string _, Json.readable_int _, ?_⟩
  cases r.ready with
  | none => exact .null
  | some n => exact Json.readable_int _

theorem ofJson?_toJson (r : SampleRecord) : ofJson? r.toJson = some r := by
  have hready : (readyJson r.ready).asOptional Json.asInt64 = some r.ready := by
    cases r.ready with
    | none => rfl
    | some n =>
        rw [readyJson]
        exact congrArg (Option.map some) (Json.asInt64_int n)
  rw [ofJson?, toJson, Json.asFields_object (by rfl) (by decide)]
  simp [Json.Fields.required, Json.Fields.optional, Json.Fields.find?, Json.asString,
    Json.asInt64_int, hready]

end SampleRecord

namespace SampleLog

/-! ## Lines -/

/-- A text that says nothing: there is nothing between its blanks, or a comment. -/
def IsIdle (text : String) : Prop :=
  (Text.trim text).toList = [] ∨ ∃ comment, (Text.trim text).toList = '#' :: comment

/-- What a line says: nothing, or a record. -/
inductive Says : List UInt8 → Option SampleRecord → Prop
  | nothing {bytes : List UInt8} {text : String} (hbytes : Text.ofBytes? bytes = some text)
      (hidle : IsIdle text) : Says bytes none
  | record {bytes : List UInt8} {text : String} {v : Json} {r : SampleRecord}
      (hbytes : Text.ofBytes? bytes = some text) (hidle : ¬IsIdle text)
      (hvalue : Json.ofText? (Text.trim text) = some v)
      (hrecord : SampleRecord.ofJson? v = some r) : Says bytes (some r)

/-- What is said of a line that says nothing that is known. -/
def complaint (bytes : List UInt8) : String :=
  if (Text.ofBytes? bytes).isNone then IoFault.notText.message else Json.faultText

theorem isIdle_iff {text : String} :
    ((Text.trim text).isEmpty || (Text.trim text).startsWith "#") = true ↔ IsIdle text := by
  have hempty : (Text.trim text).isEmpty = true ↔ (Text.trim text).toList = [] := by
    rw [String.isEmpty_iff, String.toList_eq_nil_iff]
  have hcomment : (Text.trim text).startsWith "#" = true ↔
      ∃ comment, (Text.trim text).toList = '#' :: comment := by
    rw [String.startsWith_string_iff]
    exact ⟨fun ⟨comment, h⟩ => ⟨comment, h.symm⟩, fun ⟨comment, h⟩ => ⟨comment, h.symm⟩⟩
  rw [Bool.or_eq_true, hempty, hcomment, IsIdle]

theorem readLine_of_isIdle {text : String} (h : IsIdle text) : readLine text = .ok none := by
  rw [readLine, if_pos (isIdle_iff.2 h)]

theorem readLine_of_not_isIdle {text : String} (h : ¬IsIdle text) :
    readLine text =
      match (Json.ofText? (Text.trim text)).bind SampleRecord.ofJson? with
      | some record => .ok (some record)
      | none => .error Json.faultText := by
  cases hrecord : (Json.ofText? (Text.trim text)).bind SampleRecord.ofJson? with
  | none => rw [readLine, if_neg (mt isIdle_iff.1 h), hrecord]
  | some record => rw [readLine, if_neg (mt isIdle_iff.1 h), hrecord]

theorem readLine_eq_ok_iff {bytes : List UInt8} {text : String} {said : Option SampleRecord}
    (hbytes : Text.ofBytes? bytes = some text) : readLine text = .ok said ↔ Says bytes said := by
  constructor
  · intro hread
    by_cases hidle : IsIdle text
    · rw [readLine_of_isIdle hidle] at hread
      cases hread
      exact .nothing hbytes hidle
    · rw [readLine_of_not_isIdle hidle] at hread
      split at hread
      · rename_i r hrecord
        cases hread
        obtain ⟨v, hvalue, hrecord⟩ := Option.bind_eq_some_iff.1 hrecord
        exact .record hbytes hidle hvalue hrecord
      · cases hread
  · intro hsays
    cases hsays with
    | nothing hbytes' hidle =>
        cases hbytes.symm.trans hbytes'
        exact readLine_of_isIdle hidle
    | record hbytes' hidle hvalue hrecord =>
        cases hbytes.symm.trans hbytes'
        rw [readLine_of_not_isIdle hidle, hvalue, Option.bind_some, hrecord]

theorem readLines_said {bytes : List UInt8} {said : Option SampleRecord} (h : Says bytes said)
    (number : Nat) (rest : List (List UInt8)) :
    readLines number (bytes :: rest) =
      (readLines (number + 1) rest).map (said.toList ++ ·) := by
  obtain ⟨text, hbytes⟩ : ∃ text, Text.ofBytes? bytes = some text := by
    cases h with
    | nothing hbytes => exact ⟨_, hbytes⟩
    | record hbytes => exact ⟨_, hbytes⟩
  rw [readLines, hbytes]
  simp only [(readLine_eq_ok_iff hbytes).2 h]
  cases said <;> cases readLines (number + 1) rest <;> rfl

theorem readLines_not_said {bytes : List UInt8} (h : ∀ said, ¬Says bytes said)
    (number : Nat) (rest : List (List UInt8)) :
    readLines number (bytes :: rest) = .error (.sampleParse number (complaint bytes)) := by
  rw [readLines, complaint]
  cases hbytes : Text.ofBytes? bytes with
  | none => rfl
  | some text =>
      have hread : readLine text = .error Json.faultText := by
        have hidle : ¬IsIdle text := fun hidle => h none (.nothing hbytes hidle)
        rw [readLine_of_not_isIdle hidle]
        split
        · rename_i r hrecord
          obtain ⟨v, hvalue, hrecord⟩ := Option.bind_eq_some_iff.1 hrecord
          exact absurd (.record hbytes hidle hvalue hrecord) (h (some r))
        · rfl
      simp [hread]

theorem readLines_eq_ok_iff {lines : List (List UInt8)} {number : Nat}
    {records : List SampleRecord} :
    readLines number lines = .ok records ↔
      ∃ said, List.Forall₂ Says lines said ∧ said.reduceOption = records := by
  induction lines generalizing number records with
  | nil =>
      constructor
      · intro h
        cases h
        exact ⟨[], .nil, rfl⟩
      · rintro ⟨said, hsays, rfl⟩
        cases hsays
        rfl
  | cons bytes rest ih =>
      constructor
      · intro h
        by_cases hfirst : ∃ said, Says bytes said
        · obtain ⟨said, hfirst⟩ := hfirst
          rw [readLines_said hfirst] at h
          cases hrest : readLines (number + 1) rest with
          | error fault =>
              rw [hrest] at h
              cases h
          | ok others =>
              rw [hrest] at h
              obtain ⟨more, hmore, rfl⟩ := ih.1 hrest
              obtain rfl : said.toList ++ more.reduceOption = records := Except.ok.inj h
              exact ⟨said :: more, .cons hfirst hmore, by cases said <;> rfl⟩
        · rw [readLines_not_said (not_exists.1 hfirst)] at h
          cases h
      · rintro ⟨said, hsays, rfl⟩
        obtain ⟨first, more, hfirst, hmore, rfl⟩ := List.forall₂_cons_left_iff.1 hsays
        rw [readLines_said hfirst, ih.2 ⟨more, hmore, rfl⟩]
        cases first <;> rfl

theorem readLines_eq_error_iff {lines : List (List UInt8)} {number : Nat} {fault : Fault} :
    readLines number lines = .error fault ↔
      ∃ before bytes after, lines = before ++ bytes :: after ∧
        (∀ line ∈ before, ∃ said, Says line said) ∧ (∀ said, ¬Says bytes said) ∧
        fault = .sampleParse (number + before.length) (complaint bytes) := by
  constructor
  · intro h
    induction lines generalizing number with
    | nil => cases h
    | cons bytes rest ih =>
        by_cases hfirst : ∃ said, Says bytes said
        · have ⟨said, hsaid⟩ := hfirst
          rw [readLines_said hsaid] at h
          cases hrest : readLines (number + 1) rest with
          | ok others =>
              rw [hrest] at h
              cases h
          | error other =>
              rw [hrest] at h
              obtain rfl : other = fault := Except.error.inj h
              obtain ⟨before, offending, after, rfl, hbefore, hoffending, rfl⟩ := ih hrest
              refine ⟨bytes :: before, offending, after, rfl,
                List.forall_mem_cons.2 ⟨hfirst, hbefore⟩, hoffending, ?_⟩
              rw [List.length_cons, Nat.add_assoc, Nat.add_comm 1]
        · rw [readLines_not_said (not_exists.1 hfirst)] at h
          cases h
          exact ⟨[], bytes, rest, rfl, by simp, not_exists.1 hfirst, rfl⟩
  · rintro ⟨before, bytes, after, rfl, hbefore, hoffending, rfl⟩
    induction before generalizing number with
    | nil => exact readLines_not_said hoffending number after
    | cons line before ih =>
        obtain ⟨⟨said, hsaid⟩, hbefore⟩ := List.forall_mem_cons.1 hbefore
        rw [List.cons_append, readLines_said hsaid, ih hbefore, List.length_cons,
          Nat.add_assoc, Nat.add_comm 1]
        rfl

/-! ## Written logs -/

/-- How a row of a log ends. -/
inductive Ending where
  | feed
  | returnFeed

/-- The characters of an ending. -/
def Ending.chars : Ending → List Char
  | .feed => ['\n']
  | .returnFeed => ['\r', '\n']

/-- A row as it is written into a log: a text without a line feed that says nothing, or a record. -/
inductive Row where
  | idle (text : String) (hidle : IsIdle text) (hline : '\n' ∉ text.toList)
  | record (r : SampleRecord)

namespace Row

/-- The text of a row; that of a record is its JSON on one line. -/
def text : Row → String
  | .idle text _ _ => text
  | .record r => r.toJson.compact

/-- The record of a row. -/
def record? : Row → Option SampleRecord
  | .idle _ _ _ => none
  | .record r => some r

theorem feed_not_mem_text (row : Row) : '\n' ∉ row.text.toList := by
  cases row with
  | idle text hidle hline => exact hline
  | record r =>
      rw [text, Json.compact, String.toList_ofList]
      exact (Json.printed_chars r.readable_toJson).ne (by decide)

theorem exists_record_text (r : SampleRecord) :
    ∃ inside, (Row.record r).text.toList = '\x7b' :: (inside ++ ['\x7d']) := by
  rw [text, Json.compact, String.toList_ofList]
  exact Json.exists_chars_object _ _

theorem record?_of_text_eq_nil {row : Row} (h : row.text.toList = []) : row.record? = none := by
  cases row with
  | idle text hidle hline => rfl
  | record r =>
      obtain ⟨inside, hinside⟩ := exists_record_text r
      rw [hinside] at h
      cases h

/-- A row says what was written into it, also without a carriage return at its end. -/
theorem said_of_kept (row : Row) {kept : List Char}
    (h : row.text.toList = kept ∨ row.text.toList = kept ++ ['\r']) :
    Says (Text.utf8 kept) row.record? := by
  have htrim : Text.trim (String.ofList kept) = Text.trim row.text := by
    rw [Text.trim, Text.trim, String.toList_ofList]
    rcases h with h | h
    · rw [h]
    · rw [h, Text.trimChars_concat (by rfl)]
  cases row with
  | idle text hidle hline =>
      refine .nothing (Text.ofBytes?_utf8 kept) ?_
      rw [IsIdle, htrim]
      exact hidle
  | record r =>
      obtain ⟨inside, hinside⟩ := exists_record_text r
      have hself : Text.trim (Row.record r).text = (Row.record r).text := by
        rw [Text.trim, hinside, Text.trimChars_of_ends (by rfl) (by rfl), ← hinside,
          String.ofList_toList]
      rw [hself] at htrim
      have hvalue : Json.ofText? (Text.trim (String.ofList kept)) = some r.toJson := by
        rw [htrim]
        exact Json.ofText?_compact r.readable_toJson
      refine .record (Text.ofBytes?_utf8 kept) ?_ hvalue r.ofJson?_toJson
      rw [IsIdle, htrim, hinside]
      simp

/-- A row and its ending are one piece, and the line of the piece says what the row does. -/
theorem said_endLine (row : Row) (ending : Ending) :
    ∃ piece, Text.utf8 (row.text.toList ++ ending.chars) = piece ++ [10] ∧ 10 ∉ piece ∧
      Says (Text.endLine piece) row.record? := by
  cases ending with
  | feed =>
      obtain ⟨kept, hkept, htext⟩ := Text.exists_endLine_utf8 row.text.toList
      refine ⟨_, Text.utf8_append _ _, Text.feed_not_mem_utf8 row.feed_not_mem_text, ?_⟩
      rw [hkept]
      exact row.said_of_kept htext
  | returnFeed =>
      have hfeed : '\n' ∉ row.text.toList ++ ['\r'] := by
        simpa using row.feed_not_mem_text
      refine ⟨Text.utf8 (row.text.toList ++ ['\r']), ?_, Text.feed_not_mem_utf8 hfeed, ?_⟩
      · rw [Ending.chars, List.append_cons, Text.utf8_append]
        rfl
      · rw [Text.endLine_return]
        exact row.said_of_kept (.inl rfl)

end Row

/-- A log as it is written: rows with their endings, and perhaps a last one without. -/
structure Written where
  rows : List (Row × Ending)
  last : Option Row

namespace Written

/-- The characters of a log. -/
def chars (log : Written) : List Char :=
  log.rows.flatMap (fun row => row.1.text.toList ++ row.2.chars) ++
    (log.last.map (·.text.toList)).getD []

/-- The records of a log. -/
def records (log : Written) : List SampleRecord :=
  (log.rows.map (·.1) ++ log.last.toList).filterMap Row.record?

theorem lines_said (log : Written) :
    ∃ said, List.Forall₂ Says (Text.endLines ((Text.utf8 log.chars).splitOn 10)) said ∧
      said.reduceOption = log.records := by
  obtain ⟨rows, last⟩ := log
  induction rows with
  | nil =>
      cases last with
      | none => exact ⟨[], .nil, rfl⟩
      | some row =>
          have hchars : chars ⟨[], some row⟩ = row.text.toList := rfl
          rw [hchars, List.splitOn_eq_singleton (Text.feed_not_mem_utf8 row.feed_not_mem_text)]
          by_cases hnil : row.text.toList = []
          · -- nothing behind the last line feed is no line
            have hrecords : records ⟨[], some row⟩ = [] := by
              simp [records, row.record?_of_text_eq_nil hnil]
            rw [hnil, hrecords]
            exact ⟨[], .nil, rfl⟩
          · have hbytes : Text.utf8 row.text.toList ≠ [] := by
              obtain ⟨c, cs, hcs⟩ := List.exists_cons_of_ne_nil hnil
              simp [Text.utf8, hcs, String.utf8EncodeChar_ne_nil]
            have hlines : Text.endLines [Text.utf8 row.text.toList] =
                [Text.utf8 row.text.toList] := if_neg (by simpa using hbytes)
            rw [hlines]
            refine ⟨[row.record?], .cons (row.said_of_kept (.inl rfl)) .nil, ?_⟩
            cases hrow : row.record? <;> simp [records, hrow]
  | cons row rows ih =>
      obtain ⟨said, hsaid, hrecords⟩ := ih
      obtain ⟨piece, hpiece, hfeed, hfirst⟩ := row.1.said_endLine row.2
      have hbytes : Text.utf8 (chars ⟨row :: rows, last⟩) =
          piece ++ 10 :: Text.utf8 (chars ⟨rows, last⟩) := by
        rw [chars, List.flatMap_cons, List.append_assoc, Text.utf8_append, hpiece,
          List.append_assoc]
        rfl
      refine ⟨row.1.record? :: said, ?_, ?_⟩
      · rw [hbytes, List.splitOn_append_cons_self_of_not_mem hfeed,
          Text.endLines_cons _ (List.splitOn_ne_nil _ _)]
        exact .cons hfirst hsaid
      · have hrecord : records ⟨row :: rows, last⟩ =
            row.1.record?.toList ++ records ⟨rows, last⟩ := by
          cases hrow : row.1.record? <;> simp [records, hrow]
        rw [hrecord, ← hrecords]
        cases row.1.record? <;> rfl

end Written

/-- **A log is read line by line.**  The lines of a log are the pieces between its line feeds, each
without a carriage return in front of its own line feed.  The log is read if each line is UTF-8 and,
apart from its blanks, empty, a comment or a record, and its records are then those of the lines, in
order.  Otherwise the fault has the number of the first line that is none of these.  So a log that
was written row by row is read as the records that were written. -/
theorem ofBytes_reads_lines :
    (∀ bytes : ByteArray,
      let lines := Text.endLines (bytes.toList.splitOn 10)
      (∀ records, ofBytes bytes = .ok records ↔
        ∃ said, List.Forall₂ Says lines said ∧ said.reduceOption = records) ∧
      ∀ fault, ofBytes bytes = .error fault ↔
        ∃ before offending after, lines = before ++ offending :: after ∧
          (∀ line ∈ before, ∃ said, Says line said) ∧ (∀ said, ¬Says offending said) ∧
          fault = .sampleParse (before.length + 1) (complaint offending)) ∧
    ∀ log : Written, ofBytes (String.ofList log.chars).toUTF8 = .ok log.records := by
  have hlines (bytes : ByteArray) :
      ofBytes bytes = readLines 1 (Text.endLines (bytes.toList.splitOn 10)) := by
    rw [ofBytes, Text.byteLines_eq]
  refine ⟨fun bytes => ⟨fun records => ?_, fun fault => ?_⟩, fun log => ?_⟩
  · rw [hlines, readLines_eq_ok_iff]
  · rw [hlines, readLines_eq_error_iff]
    simp only [Nat.add_comm 1]
  · rw [hlines, Text.toList_toUTF8]
    exact readLines_eq_ok_iff.2 log.lines_said

end SampleLog

end Backlog
