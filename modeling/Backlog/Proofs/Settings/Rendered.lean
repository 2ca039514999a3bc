import Backlog.Proofs.Host.Files
import Backlog.Proofs.Number.ReadBack
import Backlog.Proofs.Settings.Bounds
import Backlog.Proofs.Settings.Sound
import Backlog.Proofs.Toml.Document

/-!
# Settings that were rendered

Settings that were loaded are written as a document that says all of them (`document`), and
read back from it: every number, every text and every id of a queue.  The doubles are finite,
since the check of the settings lets no other through.  Whole numbers are another matter.  A
document holds none from `2 ^ 63` on.  A file says no larger one, but variables may, and such
settings cannot be rendered at all (`rendered_settings_are_read_back`).
-/

namespace Backlog

open Toml

/-! ## Doubles -/

namespace Layout

/-- In a layout without exponents that keeps a digit behind the point, every numeral has such a
digit and no exponent. -/
theorem fraction_place {layout : Layout} (hlayout : layout.positional = none)
    (hkeeps : layout.keepsFraction = true) (negative : Bool) {digits : List Char}
    (hdigits : digits ≠ []) (point : Int) :
    (layout.place negative digits point).fraction ≠ [] ∧
      (layout.place negative digits point).exponent = none := by
  unfold place
  rw [hlayout, hkeeps]
  simp only [if_true]
  split
  · exact ⟨by simp [hdigits], rfl⟩
  · refine ⟨?_, rfl⟩
    dsimp only
    split
    · exact List.cons_ne_nil _ _
    · rename_i hfraction
      simpa using hfraction

theorem exists_numeral? {layout : Layout} (hlayout : layout.positional = none)
    (hkeeps : layout.keepsFraction = true) {x : Float} (h : Binary64.isFinite x = true) :
    ∃ n, layout.numeral? x = some n ∧ n.fraction ≠ [] ∧ n.exponent = none := by
  unfold Binary64.isFinite at h
  unfold numeral?
  cases hview : Binary64.view x with
  | finite negative mantissa exponent =>
      dsimp only
      split
      · exact ⟨_, rfl, List.cons_ne_nil _ _, rfl⟩
      · refine ⟨_, rfl, fraction_place hlayout hkeeps negative ?_ _⟩
        exact (isWhole_decimalDigits _).ne_nil
  | infinite negative =>
      rw [hview] at h
      cases h
  | nan =>
      rw [hview] at h
      cases h

end Layout

namespace Settings

theorem denotes_doubleText {x : Float} (h : Binary64.isFinite x = true) :
    Denotes (doubleText x).toList (.float x) := by
  obtain ⟨n, hn, hfraction, hexponent⟩ :=
    Layout.exists_numeral? (show layout.positional = none from rfl) rfl h
  have hback := Layout.toFloat_numeral? hn
  have hdenotes := denotes_numeral (Layout.wellFormed_numeral? hn) hfraction hexponent
    fun _ => hback ▸ h
  have htext : doubleText x = String.ofList n.chars := by
    unfold doubleText Layout.text
    rw [hn]
    split
    · rename_i hview
      rw [Layout.numeral?, hview] at hn
      cases hn
    · rfl
  rw [htext, String.toList_ofList]
  rwa [hback] at hdenotes

/-! ## Other values -/

theorem wholeText_of_lt {n : Nat} (h : n < twoTo 63) :
    wholeText n = .ok (toString n) := if_pos h

theorem wholeText_of_le {n : Nat} (h : twoTo 63 ≤ n) :
    wholeText n = .error (.serialization "toml" "number out of range") := if_neg (Nat.not_lt.2 h)

theorem denotes_toString {n : Nat} (h : n < twoTo 63) :
    Denotes (toString n).toList (.integer n) := by
  have hdigits : (toString n).toList = decimalDigits n := Nat.toList_repr
  rw [hdigits]
  exact denotes_whole h

theorem denotes_stringText (s : String) : Denotes (stringText s).toList (.string s) := by
  rw [stringText, String.toList_ofList]
  exact denotes_string s

/-- The line breaks around the rows of a text stand before each row or behind it. -/
theorem rowsChars_append (ss : List String) :
    rowsChars ss ++ ['\n'] =
      '\n' :: ss.flatMap fun s => ("    " ++ stringText s ++ ",\n").toList := by
  induction ss with
  | nil => rfl
  | cons s ss ih =>
      rw [rowsChars, List.flatMap_cons, ← rowsChars, List.append_assoc, ih, List.flatMap_cons]
      simp [stringText]

theorem denotes_stringsText (ss : List String) :
    Denotes (stringsText ss).toList (.array (ss.map .string)) := by
  unfold stringsText
  split
  · exact denotes_nil
  · rename_i s
    have htext : ("[" ++ stringText s ++ "]").toList = '[' :: (stringChars s ++ [']']) := by
      simp [stringText]
    rw [htext]
    exact denotes_single s
  · have htext : ("[\n" ++ String.join (ss.map fun s => "    " ++ stringText s ++ ",\n") ++
        "]").toList = '[' :: (rowsChars ss ++ ['\n', ']']) := by
      rw [List.append_cons, rowsChars_append]
      simp [List.flatMap_map]
    rw [htext]
    exact denotes_rows ss

/-! ## The document -/

/-- What stands under `[monitor.smoothing]`. -/
def smoothingEntries (s : SmoothingSettings Float) : List (String × Toml) :=
  [("mode", .string s.mode.name), ("alpha", .float s.alpha), ("beta", .float s.beta),
    ("gamma", .float s.gamma), ("period", .integer s.period)]

/-- What stands under `[monitor]`. -/
def monitorEntries (s : MonitorSettings Float) : List (String × Toml) :=
  [("window_size", .integer s.windowSize), ("growth_threshold", .float s.growthThreshold),
    ("slope_scale", .float s.slopeScale), ("poll_interval_ms", .integer s.pollIntervalMs),
    ("start_active", .boolean s.startActive)]

/-- What stands under `[sources]`. -/
def sourcesEntries (s : SourceSettings) : List (String × Toml) :=
  [("spool_file", .string s.spoolFile), ("queues", .array (s.queues.map .string))]

/-- What stands under `[paths]`. -/
def pathsEntries (s : PathSettings) : List (String × Toml) :=
  [("config_file", .string s.configFile), ("state_file", .string s.stateFile),
    ("jsonl_log", .string s.jsonlLog)]

/-- The document that says all of some settings. -/
def document (s : Settings) : Toml :=
  .table [
    ("monitor", .table (monitorEntries s.monitor ++
      [("smoothing", .table (smoothingEntries s.monitor.smoothing))])),
    ("sources", .table (sourcesEntries s.sources)),
    ("paths", .table (pathsEntries s.paths))]

theorem asStrings_strings (ss : List String) : asStrings (.array (ss.map .string)) = some ss := by
  rw [asStrings]
  induction ss with
  | nil => rfl
  | cons s ss ih =>
      rw [List.map_cons, List.mapM_cons, ih]
      rfl

theorem ofName?_name (mode : SmoothingMode) : SmoothingMode.ofName? mode.name = some mode := by
  cases mode <;> decide

section

variable {β : Type} {fields : List (String × Toml)} {name other : String} {v : Toml} {value : β}
  {decode : Toml → Option β}

theorem fieldOr_head : fieldOr ((name, v) :: fields) name value decode = decode v := by
  simp [fieldOr]

theorem fieldOr_tail (h : name ≠ other) :
    fieldOr ((other, v) :: fields) name value decode = fieldOr fields name value decode := by
  have hne : (name == other) = false := by simpa using h
  simp [fieldOr, List.lookup_cons, hne]

end

/-- A document that leaves nothing out is read the same whatever stands in for what is left out. -/
theorem ofToml_document (other s : Settings) : ofToml other s.document = some s := by
  have hsmoothing : SmoothingSettings.ofToml .standard
      (.table (smoothingEntries s.monitor.smoothing)) = some s.monitor.smoothing := by
    simp [SmoothingSettings.ofToml, smoothingEntries, asFields, fieldOr_head, fieldOr_tail,
      asChoice, asNumber, asWhole, ofName?_name]
  have hmonitor : MonitorSettings.ofToml .standard (.table (monitorEntries s.monitor ++
      [("smoothing", .table (smoothingEntries s.monitor.smoothing))])) = some s.monitor := by
    simp [MonitorSettings.ofToml, monitorEntries, asFields, fieldOr_head, fieldOr_tail, asNumber,
      asWhole, asBoolean, hsmoothing]
  have hsources : SourceSettings.ofToml other.sources (.table (sourcesEntries s.sources)) =
      some s.sources := by
    simp [SourceSettings.ofToml, sourcesEntries, asFields, fieldOr_head, fieldOr_tail, asString,
      asStrings_strings]
  have hpaths : PathSettings.ofToml other.paths (.table (pathsEntries s.paths)) =
      some s.paths := by
    simp [PathSettings.ofToml, pathsEntries, asFields, fieldOr_head, fieldOr_tail, asString]
  simp [ofToml, document, asFields, fieldOr_head, fieldOr_tail, hmonitor, hsources, hpaths]

/-- The statements of the document. -/
def statements (s : Settings) : List Statement :=
  tableStatements ["monitor"] (monitorEntries s.monitor) ++
    tableStatements ["monitor", "smoothing"] (smoothingEntries s.monitor.smoothing) ++
    tableStatements ["sources"] (sourcesEntries s.sources) ++
    tableStatements ["paths"] (pathsEntries s.paths)

theorem ofStatements?_statements (s : Settings) :
    ofStatements? s.statements = some s.document := by
  -- the tables one after the other: a header closes the table before it, and the one of the
  -- smoothing belongs into the one of the monitor
  let monitor := valueNodes (monitorEntries s.monitor)
  let smoothing := valueNodes (smoothingEntries s.monitor.smoothing)
  let sources := valueNodes (sourcesEntries s.sources)
  let paths := valueNodes (pathsEntries s.paths)
  let whole : Entries := [("monitor",
    .table false false (monitor ++ [("smoothing", .table false false smoothing)]))]
  have hmonitor : (tableStatements ["monitor"] (monitorEntries s.monitor)).foldlM Draft.step
      .start = some ⟨[], ["monitor"], false, monitor⟩ :=
    foldlM_table rfl rfl rfl (by simp [monitorEntries])
  have hsmoothing : (tableStatements ["monitor", "smoothing"]
      (smoothingEntries s.monitor.smoothing)).foldlM Draft.step ⟨[], ["monitor"], false, monitor⟩ =
        some ⟨[("monitor", .table false false monitor)], ["monitor", "smoothing"], false,
          smoothing⟩ :=
    foldlM_table rfl rfl rfl (by simp [smoothingEntries])
  have hsources : (tableStatements ["sources"] (sourcesEntries s.sources)).foldlM Draft.step
      ⟨[("monitor", .table false false monitor)], ["monitor", "smoothing"], false, smoothing⟩ =
        some ⟨whole, ["sources"], false, sources⟩ :=
    foldlM_table rfl rfl rfl (by simp [sourcesEntries])
  have hpaths : (tableStatements ["paths"] (pathsEntries s.paths)).foldlM Draft.step
      ⟨whole, ["sources"], false, sources⟩ =
        some ⟨whole ++ [("sources", .table false false sources)], ["paths"], false, paths⟩ :=
    foldlM_table rfl rfl rfl (by simp [pathsEntries])
  have hstatements : s.statements.foldlM Draft.step .start =
      some ⟨whole ++ [("sources", .table false false sources)], ["paths"], false, paths⟩ := by
    rw [statements, List.foldlM_append, List.foldlM_append, List.foldlM_append, hmonitor]
    simp only [Option.bind_eq_bind, Option.bind_some, hsmoothing, hsources, hpaths]
  rw [ofStatements?, hstatements]
  change some (Toml.table (entriesToml (whole ++ [("sources", .table false false sources)] ++
    [("paths", .table false false paths)]))) = _
  simp only [whole, monitor, smoothing, sources, paths, entriesToml_append, entriesToml,
    Node.toToml, entriesToml_valueNodes]
  rfl

/-- A line with the header of a table. -/
def headerLine (path : List String) : Option (List Char × Statement) :=
  some ('[' :: (dotted path ++ [']']), .header path)

/-- A line with a value under a key. -/
def entryLine (key text : String) (v : Toml) : Option (List Char × Statement) :=
  some (key.toList ++ ' ' :: '=' :: ' ' :: text.toList, .entry [key] v)

/-- The lines of the document. -/
def lines (s : Settings) : List (Option (List Char × Statement)) := [
  headerLine ["monitor"],
  entryLine "window_size" (toString s.monitor.windowSize) (.integer s.monitor.windowSize),
  entryLine "growth_threshold" (doubleText s.monitor.growthThreshold)
    (.float s.monitor.growthThreshold),
  entryLine "slope_scale" (doubleText s.monitor.slopeScale) (.float s.monitor.slopeScale),
  entryLine "poll_interval_ms" (toString s.monitor.pollIntervalMs)
    (.integer s.monitor.pollIntervalMs),
  entryLine "start_active" (if s.monitor.startActive then "true" else "false")
    (.boolean s.monitor.startActive),
  none,
  headerLine ["monitor", "smoothing"],
  entryLine "mode" (stringText s.monitor.smoothing.mode.name)
    (.string s.monitor.smoothing.mode.name),
  entryLine "alpha" (doubleText s.monitor.smoothing.alpha) (.float s.monitor.smoothing.alpha),
  entryLine "beta" (doubleText s.monitor.smoothing.beta) (.float s.monitor.smoothing.beta),
  entryLine "gamma" (doubleText s.monitor.smoothing.gamma) (.float s.monitor.smoothing.gamma),
  entryLine "period" (toString s.monitor.smoothing.period) (.integer s.monitor.smoothing.period),
  none,
  headerLine ["sources"],
  entryLine "spool_file" (stringText s.sources.spoolFile) (.string s.sources.spoolFile),
  entryLine "queues" (stringsText s.sources.queues) (.array (s.sources.queues.map .string)),
  none,
  headerLine ["paths"],
  entryLine "config_file" (stringText s.paths.configFile) (.string s.paths.configFile),
  entryLine "state_file" (stringText s.paths.stateFile) (.string s.paths.stateFile),
  entryLine "jsonl_log" (stringText s.paths.jsonlLog) (.string s.paths.jsonlLog)]

theorem statements_lines (s : Settings) :
    s.lines.filterMap (fun l => l.map Prod.snd) = s.statements := rfl

theorem lineChars_entryLine (key text : String) (v : Toml) :
    lineChars (entryLine key text v) = (line key text).toList := by
  simp [entryLine, lineChars, line]

theorem toToml_eq {s : Settings} (h : s.monitor.Fits) :
    s.toToml = .ok (String.ofList (s.lines.flatMap lineChars)) := by
  have hmonitor : lineChars (headerLine ["monitor"]) = "[monitor]\n".toList := rfl
  have hsmoothing : "\n[monitor.smoothing]\n".toList =
      lineChars none ++ lineChars (headerLine ["monitor", "smoothing"]) := rfl
  have hsources : "\n[sources]\n".toList =
      lineChars none ++ lineChars (headerLine ["sources"]) := rfl
  have hpaths : "\n[paths]\n".toList =
      lineChars none ++ lineChars (headerLine ["paths"]) := rfl
  rw [toToml, wholeText_of_lt h.windowSize, wholeText_of_lt h.pollIntervalMs,
    wholeText_of_lt h.period]
  refine congrArg Except.ok (String.toList_inj.1 ?_)
  simp only [String.toList_ofList, String.toList_append, lines, List.flatMap_cons,
    List.flatMap_nil, lineChars_entryLine, hmonitor, hsmoothing, hsources, hpaths,
    List.append_assoc, List.append_nil]

theorem toToml_of_not_fits {s : Settings} (h : ¬s.monitor.Fits) :
    ∃ details, s.toToml = .error (.serialization "toml" details) := by
  refine ⟨"number out of range", ?_⟩
  by_cases hwindow : s.monitor.windowSize < twoTo 63
  · by_cases hpoll : s.monitor.pollIntervalMs < twoTo 63
    · have hperiod : twoTo 63 ≤ s.monitor.smoothing.period :=
        Nat.not_lt.1 fun hperiod => h ⟨hwindow, hpoll, hperiod⟩
      rw [toToml, wholeText_of_lt hwindow, wholeText_of_lt hpoll, wholeText_of_le hperiod]
      rfl
    · rw [toToml, wholeText_of_lt hwindow, wholeText_of_le (Nat.not_lt.1 hpoll)]
      rfl
  · rw [toToml, wholeText_of_le (Nat.not_lt.1 hwindow)]
    rfl

/-- Settings of which every double is finite. -/
structure IsFinite (s : Settings) : Prop where
  threshold : Binary64.isFinite s.monitor.growthThreshold = true
  slopeScale : Binary64.isFinite s.monitor.slopeScale = true
  alpha : Binary64.isFinite s.monitor.smoothing.alpha = true
  beta : Binary64.isFinite s.monitor.smoothing.beta = true
  gamma : Binary64.isFinite s.monitor.smoothing.gamma = true

theorem isLine_headerLine {path : List String} (h : ∀ key ∈ path, IsBareKey key)
    (hne : path ≠ []) (hlimit : path.length < limit) :
    ∀ p ∈ headerLine path, IsLine p.1 p.2 := by
  rintro p ⟨⟩
  exact isLine_header h hne hlimit

theorem isLine_entryLine {key text : String} {v : Toml} (h : IsBareKey key)
    (hvalue : Denotes text.toList v) : ∀ p ∈ entryLine key text v, IsLine p.1 p.2 := by
  rintro p ⟨⟩
  exact isLine_entry h hvalue

theorem isLine_lines {s : Settings} (hfinite : s.IsFinite) (hfits : s.monitor.Fits) :
    ∀ l ∈ s.lines, ∀ p ∈ l, IsLine p.1 p.2 := by
  have hboolean := denotes_boolean s.monitor.startActive
  simp only [lines, List.forall_mem_cons]
  refine ⟨isLine_headerLine (by decide) (by decide) (by decide),
    isLine_entryLine (by decide) (denotes_toString hfits.windowSize),
    isLine_entryLine (by decide) (denotes_doubleText hfinite.threshold),
    isLine_entryLine (by decide) (denotes_doubleText hfinite.slopeScale),
    isLine_entryLine (by decide) (denotes_toString hfits.pollIntervalMs),
    isLine_entryLine (by decide) hboolean,
    nofun,
    isLine_headerLine (by decide) (by decide) (by decide),
    isLine_entryLine (by decide) (denotes_stringText _),
    isLine_entryLine (by decide) (denotes_doubleText hfinite.alpha),
    isLine_entryLine (by decide) (denotes_doubleText hfinite.beta),
    isLine_entryLine (by decide) (denotes_doubleText hfinite.gamma),
    isLine_entryLine (by decide) (denotes_toString hfits.period),
    nofun,
    isLine_headerLine (by decide) (by decide) (by decide),
    isLine_entryLine (by decide) (denotes_stringText _),
    isLine_entryLine (by decide) (denotes_stringsText _),
    nofun,
    isLine_headerLine (by decide) (by decide) (by decide),
    isLine_entryLine (by decide) (denotes_stringText _),
    isLine_entryLine (by decide) (denotes_stringText _),
    isLine_entryLine (by decide) (denotes_stringText _),
    nofun⟩

theorem ofText?_lines {s : Settings} (hfinite : s.IsFinite) (hfits : s.monitor.Fits) :
    Toml.ofText? (String.ofList (s.lines.flatMap lineChars)) = some s.document := by
  have hread := readStatements_lines (isLine_lines hfinite hfits) (Nat.lt_succ_self _)
  have hfirst : ∃ cs, s.lines.flatMap lineChars = '[' :: cs := ⟨_, rfl⟩
  obtain ⟨cs, hcs⟩ := hfirst
  rw [hcs, statements_lines] at hread
  rw [Toml.ofText?, String.toList_ofList, hcs]
  change (readStatements (('[' :: cs).length + 1) ('[' :: cs)).bind _ = _
  rw [hread]
  exact ofStatements?_statements s

/-! ## Loaded settings -/

theorem isFinite_of_isUnit {x : Float} (h : Scalar.isUnit x = true) :
    Binary64.isFinite x = true :=
  (Bool.and_eq_true_iff.1 h).1

section

variable {σ : Type} [Host (StateM σ)] {path : Option String} {s : σ} {t : Settings}

theorem isFinite_of_load (h : (load (m := StateM σ) path s).1 = .ok t) : t.IsFinite := by
  obtain ⟨file, overrides, read, hcomplete⟩ := exists_complete_of_load h
  obtain ⟨hvalid, -⟩ := exists_of_complete hcomplete
  obtain ⟨-, hpolicy, -, halpha, hbeta, hgamma, -, -⟩ := validate_eq_ok_iff.1 hvalid
  obtain ⟨⟨hthreshold, -⟩, hscale, -⟩ := GrowthPolicy.validate_eq_ok_iff.1 hpolicy
  exact ⟨hthreshold, hscale, isFinite_of_isUnit halpha, isFinite_of_isUnit hbeta,
    isFinite_of_isUnit hgamma⟩

/-- **Loaded settings are rendered and read back**, as long as their whole numbers fit a
document: what is rendered is read as the same settings, whatever stands in for settings that a
document leaves out.  Settings that do not fit are not rendered at all; they come about only if
a variable says a larger number, never from a file. -/
theorem rendered_settings_are_read_back (h : (load (m := StateM σ) path s).1 = .ok t) :
    ((∃ text, t.toToml = .ok text) ↔ t.monitor.Fits) ∧
      (∀ text, t.toToml = .ok text → ∀ other, ofText? other text = some t) ∧
        (¬t.monitor.Fits → ∃ details, t.toToml = .error (.serialization "toml" details)) ∧
          ((∀ name ∈ wholeNames, ∀ text, (name, text) ∈ (said path s).1 → IsSmall text) →
            t.monitor.Fits) := by
  have hrendered (text : String) (htext : t.toToml = .ok text) : t.monitor.Fits := by
    by_contra hfits
    obtain ⟨details, herror⟩ := toToml_of_not_fits hfits
    rw [herror] at htext
    cases htext
  refine ⟨⟨fun ⟨text, htext⟩ => hrendered text htext, fun hfits => ⟨_, toToml_eq hfits⟩⟩,
    fun text htext other => ?_, toToml_of_not_fits, fun hsmall => fits_of_load hsmall h⟩
  have hfits := hrendered text htext
  rw [toToml_eq hfits] at htext
  obtain rfl := Except.ok.inj htext
  rw [ofText?, ofText?_lines (isFinite_of_load h) hfits]
  exact ofToml_document other t

end

/-- A machine with a file that sets a path with both kinds of quotes in it. -/
def quotedMachine : Machine :=
  { Machine.blank with
    disk := .ofFile "c.toml" "paths.state_file = \x22a\x27b\\\x22c.json\x22".toUTF8 }

theorem rendered_settings_on_quotedMachine :
    ∃ t, (load (m := StateM Machine) (some "c.toml") quotedMachine).1 = .ok t ∧
      t.paths.stateFile = "a\x27b\x22c.json" ∧
      ∃ text, t.toToml = .ok text ∧ ∀ other, ofText? other text = some t := by
  have hread : (load (m := StateM Machine) (some "c.toml") quotedMachine).1.toOption.map
      (·.paths.stateFile) = some "a\x27b\x22c.json" := by
    decide +kernel
  have hsaid : (said (some "c.toml") quotedMachine).1 = [] := by
    rw [said_fst]
    decide +kernel
  obtain ⟨t, hload, hstate⟩ := exists_of_toOption hread
  obtain ⟨hrendered, hback, -, hfits⟩ := rendered_settings_are_read_back hload
  obtain ⟨text, htext⟩ := hrendered.2 (hfits (by rw [hsaid]; exact nofun))
  exact ⟨t, hload, hstate, text, htext, hback text htext⟩

/-- A machine on which a variable sets a distance of `2 ^ 63` milliseconds between rounds. -/
def hugeMachine : Machine :=
  { Machine.blank with
    environ := .ofList [("HOME", "h"), ("QGM_MONITOR_POLL_INTERVAL_MS", "9223372036854775808")] }

/-- These settings are loaded but not rendered. -/
theorem not_rendered_on_hugeMachine :
    ∃ t, (load (m := StateM Machine) none hugeMachine).1 = .ok t ∧
      ∃ details, t.toToml = .error (.serialization "toml" details) := by
  have hread : (load (m := StateM Machine) none hugeMachine).1.toOption.map
      (·.monitor.pollIntervalMs) = some (twoTo 63) := by
    decide +kernel
  obtain ⟨t, hload, hpoll⟩ := exists_of_toOption hread
  refine ⟨t, hload, toToml_of_not_fits fun hfits => ?_⟩
  have hlt := hfits.pollIntervalMs
  rw [hpoll] at hlt
  exact absurd hlt (Nat.lt_irrefl _)

end Settings

end Backlog
