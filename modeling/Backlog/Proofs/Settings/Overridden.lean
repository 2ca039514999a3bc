import Backlog.Proofs.Settings.Sound
import Mathlib.Data.List.Forall2

/-!
# Settings and the variables that override them

Each of fourteen variables stands for one setting.  What the settings are after all of them is said
setting by setting (`Settings.Overridden`): a setting whose variable is set is what the text of this
variable says, without the blanks around it where the text has to be read, and any other setting is
what it was.  The path of the file is such another one, as there is no variable for it.

An override reads a text and puts what it read into one place (`Override.Sets`).  Putting there what
is there already changes nothing, so a variable that is not set is one that says the old value, and
a row of overrides is taken apart without a case for each variable (`Override.Sets.foldlM_cons`).

Ten of the texts have to be read as something (`Override.criteria`).  Each override fails exactly if
its own variable is at fault (`Override.Checks`), so a row of them fails as the first variable does
that is at fault, and the settings the row began with have no part in that
(`Override.failure?_foldlM`).
-/

namespace Backlog

namespace Text

theorem dropWhile_isBlank {cs : List Char} (h : ∀ c ∈ cs.head?, isBlank c = false) :
    cs.dropWhile isBlank = cs := by
  cases cs with
  | nil => rfl
  | cons c rest =>
      have hc : isBlank c = false := h c rfl
      rw [List.dropWhile_cons, hc]
      rfl

theorem trim_of_isTrimmed {s : String} (h : IsTrimmed s) : trim s = s := by
  obtain ⟨hfirst, hlast⟩ := h
  rw [← List.head?_reverse] at hlast
  rw [trim, trimChars, trimEnd, dropWhile_isBlank hfirst, dropWhile_isBlank hlast,
    List.reverse_reverse, String.ofList_toList]

theorem trim_trim (s : String) : trim (trim s) = trim s := trim_of_isTrimmed (isTrimmed_trim s)

end Text

namespace Override

variable {β : Type} {lookup : String → Option String} {o : Override} {s t : Settings}
variable {read : String → Except String β} {get : Settings → β} {put : β → Settings → Settings}

/-! ## Readers -/

/-- A reader that cares about blanks neither before nor after what it reads. -/
def IgnoresBlanks (read : String → Except String β) : Prop := read ∘ Text.trim = read

theorem ignoresBlanks_readWhole : IgnoresBlanks Override.readWhole := funext fun text => by
  rw [Function.comp_apply, readWhole, readWhole, Text.trim_trim]

theorem ignoresBlanks_readNumber : IgnoresBlanks readNumber := funext fun text => by
  rw [Function.comp_apply, readNumber, readNumber, Text.trim_trim]

theorem ignoresBlanks_readBool : IgnoresBlanks readBool := funext fun text => by
  rw [Function.comp_apply, readBool, readBool, Text.trim_trim]

theorem ignoresBlanks_readMode : IgnoresBlanks readMode := funext fun text => by
  rw [Function.comp_apply, readMode, readMode, SmoothingMode.read, SmoothingMode.read,
    Text.trim_trim]

/-! ## One override -/

/-- A setting under a variable: it stays as it was if the variable is not set, and else it is what
the text of the variable is read as. -/
def Reads (lookup : String → Option String) (name : String) (read : String → Except String β)
    (old new : β) : Prop :=
  match lookup name with
  | none => new = old
  | some text => read text = .ok new

/-- An override reads a text and puts what it read into one place of the settings. -/
structure Sets (o : Override) (read : String → Except String β) (get : Settings → β)
    (put : β → Settings → Settings) : Prop where
  apply : ∀ text s, o.apply text s = (read text).map (put · s)
  put_get : ∀ s, put (get s) s = s

theorem monitor_apply (name : String) (hread : IgnoresBlanks read)
    (put : β → MonitorSettings Float → MonitorSettings Float) (text : String) (s : Settings) :
    (monitor name read put).apply text s =
      ((read ∘ Text.trim) text).map fun b => { s with monitor := put b s.monitor } := by
  rw [hread]
  cases h : read text <;> simp only [monitor, h] <;> rfl

theorem smoothing_apply (name : String) (hread : IgnoresBlanks read)
    (put : β → SmoothingSettings Float → SmoothingSettings Float) (text : String) (s : Settings) :
    (smoothing name read put).apply text s = ((read ∘ Text.trim) text).map fun b =>
      { s with monitor := { s.monitor with smoothing := put b s.monitor.smoothing } } := by
  rw [hread]
  cases h : read text <;> simp only [smoothing, h] <;> rfl

theorem sets_monitor (name : String) (hread : IgnoresBlanks read) (get : MonitorSettings Float → β)
    (put : β → MonitorSettings Float → MonitorSettings Float) (hput : ∀ m, put (get m) m = m) :
    (monitor name read put).Sets (read ∘ Text.trim) (fun s => get s.monitor)
      (fun b s => { s with monitor := put b s.monitor }) where
  apply := monitor_apply name hread put
  put_get s := by rw [hput]

theorem sets_smoothing (name : String) (hread : IgnoresBlanks read)
    (get : SmoothingSettings Float → β)
    (put : β → SmoothingSettings Float → SmoothingSettings Float)
    (hput : ∀ m, put (get m) m = m) :
    (smoothing name read put).Sets (read ∘ Text.trim) (fun s => get s.monitor.smoothing)
      (fun b s =>
        { s with monitor := { s.monitor with smoothing := put b s.monitor.smoothing } }) where
  apply := smoothing_apply name hread put
  put_get s := by rw [hput]

theorem sets_sources (name : String) (parse : String → β) (get : SourceSettings → β)
    (put : β → SourceSettings → SourceSettings) (hput : ∀ m, put (get m) m = m) :
    (sources name fun text => put (parse text)).Sets (fun text => .ok (parse text))
      (fun s => get s.sources) (fun b s => { s with sources := put b s.sources }) where
  apply _ _ := rfl
  put_get s := by rw [hput]

theorem sets_paths (name : String) (get : PathSettings → String)
    (put : String → PathSettings → PathSettings) (hput : ∀ m, put (get m) m = m) :
    (paths name put).Sets .ok (fun s => get s.paths)
      (fun b s => { s with paths := put b s.paths }) where
  apply _ _ := rfl
  put_get s := by rw [hput]

theorem Sets.applyTo (ho : o.Sets read get put) :
    o.applyTo lookup s = .ok t ↔ ∃ b, Reads lookup o.name read (get s) b ∧ t = put b s := by
  unfold Override.applyTo Reads
  cases lookup o.name with
  | none => simp [ho.put_get, eq_comm]
  | some text =>
      simp only [ho.apply]
      cases read text with
      | error details => simp [Except.map]
      | ok b => simp [Except.map, eq_comm]

/-- Of a row of overrides the first one sets its own setting, and the others go on from there. -/
theorem Sets.foldlM_cons (ho : o.Sets read get put) {row : List Override} :
    (o :: row).foldlM (fun s o => o.applyTo lookup s) s = .ok t ↔
      ∃ b, Reads lookup o.name read (get s) b ∧
        row.foldlM (fun s o => o.applyTo lookup s) (put b s) = .ok t := by
  rw [List.foldlM_cons, bind_eq_ok]
  simp only [ho.applyTo]
  constructor
  · rintro ⟨u, ⟨b, hb, rfl⟩, hrest⟩
    exact ⟨b, hb, hrest⟩
  · rintro ⟨b, hb, hrest⟩
    exact ⟨put b s, ⟨b, hb, rfl⟩, hrest⟩

end Override

open Override in
/-- What settings are after all overrides, setting by setting. -/
structure Settings.Overridden (lookup : String → Option String) (s t : Settings) : Prop where
  windowSize : Reads lookup "QGM_MONITOR_WINDOW_SIZE" (Override.readWhole ∘ Text.trim)
    s.monitor.windowSize t.monitor.windowSize
  growthThreshold : Reads lookup "QGM_MONITOR_GROWTH_THRESHOLD" (readNumber ∘ Text.trim)
    s.monitor.growthThreshold t.monitor.growthThreshold
  slopeScale : Reads lookup "QGM_MONITOR_SLOPE_SCALE" (readNumber ∘ Text.trim)
    s.monitor.slopeScale t.monitor.slopeScale
  pollIntervalMs : Reads lookup "QGM_MONITOR_POLL_INTERVAL_MS" (Override.readWhole ∘ Text.trim)
    s.monitor.pollIntervalMs t.monitor.pollIntervalMs
  startActive : Reads lookup "QGM_MONITOR_START_ACTIVE" (readBool ∘ Text.trim)
    s.monitor.startActive t.monitor.startActive
  mode : Reads lookup "QGM_SMOOTHING_MODE" (readMode ∘ Text.trim)
    s.monitor.smoothing.mode t.monitor.smoothing.mode
  alpha : Reads lookup "QGM_SMOOTHING_ALPHA" (readNumber ∘ Text.trim)
    s.monitor.smoothing.alpha t.monitor.smoothing.alpha
  beta : Reads lookup "QGM_SMOOTHING_BETA" (readNumber ∘ Text.trim)
    s.monitor.smoothing.beta t.monitor.smoothing.beta
  gamma : Reads lookup "QGM_SMOOTHING_GAMMA" (readNumber ∘ Text.trim)
    s.monitor.smoothing.gamma t.monitor.smoothing.gamma
  period : Reads lookup "QGM_SMOOTHING_PERIOD" (Override.readWhole ∘ Text.trim)
    s.monitor.smoothing.period t.monitor.smoothing.period
  spoolFile : Reads lookup "QGM_SOURCES_SPOOL_FILE" .ok s.sources.spoolFile t.sources.spoolFile
  queues : Reads lookup "QGM_SOURCES_QUEUES" (fun text => .ok (text.splitOn ","))
    s.sources.queues t.sources.queues
  stateFile : Reads lookup "QGM_PATHS_STATE_FILE" .ok s.paths.stateFile t.paths.stateFile
  jsonlLog : Reads lookup "QGM_PATHS_JSONL_LOG" .ok s.paths.jsonlLog t.paths.jsonlLog
  /-- No variable stands for the path of the file. -/
  configFile : t.paths.configFile = s.paths.configFile

namespace Settings

open Override

variable {lookup : String → Option String} {s t : Settings}

theorem override_eq_ok_iff : s.override lookup = .ok t ↔ Overridden lookup s t := by
  -- the place of each override, in the order of the row
  have windowSize := sets_monitor "WINDOW_SIZE" ignoresBlanks_readWhole (·.windowSize)
    (fun n m => { m with windowSize := n }) fun _ => rfl
  have growthThreshold := sets_monitor "GROWTH_THRESHOLD" ignoresBlanks_readNumber
    (·.growthThreshold) (fun x m => { m with growthThreshold := x }) fun _ => rfl
  have slopeScale := sets_monitor "SLOPE_SCALE" ignoresBlanks_readNumber (·.slopeScale)
    (fun x m => { m with slopeScale := x }) fun _ => rfl
  have pollIntervalMs := sets_monitor "POLL_INTERVAL_MS" ignoresBlanks_readWhole (·.pollIntervalMs)
    (fun n m => { m with pollIntervalMs := n }) fun _ => rfl
  have startActive := sets_monitor "START_ACTIVE" ignoresBlanks_readBool (·.startActive)
    (fun b m => { m with startActive := b }) fun _ => rfl
  have mode := sets_smoothing "MODE" ignoresBlanks_readMode (·.mode)
    (fun mode m => { m with mode := mode }) fun _ => rfl
  have alpha := sets_smoothing "ALPHA" ignoresBlanks_readNumber (·.alpha)
    (fun x m => { m with alpha := x }) fun _ => rfl
  have beta := sets_smoothing "BETA" ignoresBlanks_readNumber (·.beta)
    (fun x m => { m with beta := x }) fun _ => rfl
  have gamma := sets_smoothing "GAMMA" ignoresBlanks_readNumber (·.gamma)
    (fun x m => { m with gamma := x }) fun _ => rfl
  have period := sets_smoothing "PERIOD" ignoresBlanks_readWhole (·.period)
    (fun n m => { m with period := n }) fun _ => rfl
  have spoolFile := sets_sources "SPOOL_FILE" (fun text => text) (·.spoolFile)
    (fun file m => { m with spoolFile := file }) fun _ => rfl
  have queues := sets_sources "QUEUES" (·.splitOn ",") (·.queues)
    (fun ids m => { m with queues := ids }) fun _ => rfl
  have stateFile := sets_paths "STATE_FILE" (·.stateFile)
    (fun file m => { m with stateFile := file }) fun _ => rfl
  have jsonlLog := sets_paths "JSONL_LOG" (·.jsonlLog)
    (fun file m => { m with jsonlLog := file }) fun _ => rfl
  simp only [Settings.override, Override.all, windowSize.foldlM_cons, growthThreshold.foldlM_cons,
    slopeScale.foldlM_cons, pollIntervalMs.foldlM_cons, startActive.foldlM_cons, mode.foldlM_cons,
    alpha.foldlM_cons, beta.foldlM_cons, gamma.foldlM_cons, period.foldlM_cons,
    spoolFile.foldlM_cons, queues.foldlM_cons, stateFile.foldlM_cons, jsonlLog.foldlM_cons,
    List.foldlM_nil]
  constructor
  · rintro ⟨_, hwindowSize, _, hgrowthThreshold, _, hslopeScale, _, hpollIntervalMs, _,
      hstartActive, _, hmode, _, halpha, _, hbeta, _, hgamma, _, hperiod, _, hspoolFile, _, hqueues,
      _, hstateFile, _, hjsonlLog, h⟩
    cases pure_eq_ok.1 h
    exact ⟨hwindowSize, hgrowthThreshold, hslopeScale, hpollIntervalMs, hstartActive, hmode, halpha,
      hbeta, hgamma, hperiod, hspoolFile, hqueues, hstateFile, hjsonlLog, rfl⟩
  · intro h
    refine ⟨_, h.windowSize, _, h.growthThreshold, _, h.slopeScale, _, h.pollIntervalMs, _,
      h.startActive, _, h.mode, _, h.alpha, _, h.beta, _, h.gamma, _, h.period, _, h.spoolFile, _,
      h.queues, _, h.stateFile, _, h.jsonlLog, ?_⟩
    -- fourteen settings were put, and the fifteenth is the old one
    obtain ⟨monitor, sources, ⟨configFile, stateFile, jsonlLog⟩⟩ := t
    have hfile : configFile = s.paths.configFile := h.configFile
    subst hfile
    rfl

end Settings

/-! ## Texts that cannot be read -/

/-- Why there is no result. -/
def failure? {ε α : Type} : Except ε α → Option ε
  | .ok _ => none
  | .error e => some e

theorem failure?_eq_none_iff {ε α : Type} {x : Except ε α} :
    failure? x = none ↔ ∃ a, x = .ok a := by
  cases x <;> simp [failure?]

theorem failure?_eq_some_iff {ε α : Type} {x : Except ε α} {e : ε} :
    failure? x = some e ↔ x = .error e := by
  cases x <;> simp [failure?]

namespace Override

/-- What is asked of the text of a variable: what is wrong with a text, if anything is. -/
structure Criterion where
  name : String
  complaint : String → Option String

namespace Criterion

variable {lookup : String → Option String} {c : Criterion} {fault : Fault}

/-- A text is as good as its reader says. -/
def of {β : Type} (name : String) (read : String → Except String β) : Criterion :=
  ⟨name, fun text => failure? (read text)⟩

/-- A text that is taken as it is. -/
def free (name : String) : Criterion := ⟨name, fun _ => none⟩

/-- The variable is not set, or its text can be read without the blanks around it. -/
def IsMet (c : Criterion) (lookup : String → Option String) : Prop :=
  ∀ text, lookup c.name = some text → c.complaint (Text.trim text) = none

/-- The variable has a text that cannot be read, and a fault names both and tells the reason. -/
def Blames (c : Criterion) (lookup : String → Option String) (fault : Fault) : Prop :=
  ∃ text details, lookup c.name = some text ∧ c.complaint (Text.trim text) = some details ∧
    fault = .configParse "env" (c.name ++ "=" ++ Text.quoted text ++ ": " ++ details)

/-- The fault of a variable whose text cannot be read. -/
def fault? (lookup : String → Option String) (c : Criterion) : Option Fault :=
  (lookup c.name).bind fun text => (c.complaint (Text.trim text)).map fun details =>
    .configParse "env" (c.name ++ "=" ++ Text.quoted text ++ ": " ++ details)

theorem fault?_eq_none_iff : c.fault? lookup = none ↔ c.IsMet lookup := by
  simp only [fault?, IsMet, Option.bind_eq_none_iff, Option.map_eq_none_iff]

theorem fault?_eq_some_iff : c.fault? lookup = some fault ↔ c.Blames lookup fault := by
  simp only [fault?, Blames, Option.bind_eq_some_iff, Option.map_eq_some_iff, exists_and_left,
    @eq_comm _ fault]

end Criterion

/-- What is asked of the texts that have to be read, in the order in which they are looked up. -/
def criteria : List Criterion := [
  .of "QGM_MONITOR_WINDOW_SIZE" Override.readWhole,
  .of "QGM_MONITOR_GROWTH_THRESHOLD" readNumber,
  .of "QGM_MONITOR_SLOPE_SCALE" readNumber,
  .of "QGM_MONITOR_POLL_INTERVAL_MS" Override.readWhole,
  .of "QGM_MONITOR_START_ACTIVE" readBool,
  .of "QGM_SMOOTHING_MODE" readMode,
  .of "QGM_SMOOTHING_ALPHA" readNumber,
  .of "QGM_SMOOTHING_BETA" readNumber,
  .of "QGM_SMOOTHING_GAMMA" readNumber,
  .of "QGM_SMOOTHING_PERIOD" Override.readWhole]

/-- The variables looked up after these, whose texts are taken as they are. -/
def plain : List Criterion := [
  .free "QGM_SOURCES_SPOOL_FILE",
  .free "QGM_SOURCES_QUEUES",
  .free "QGM_PATHS_STATE_FILE",
  .free "QGM_PATHS_JSONL_LOG"]

variable {β : Type} {lookup : String → Option String} {o : Override}
variable {read : String → Except String β} {put : β → Settings → Settings}

/-- An override refuses the texts that cannot be read, and no others. -/
def Checks (o : Override) (c : Criterion) : Prop :=
  ∀ lookup s, failure? (o.applyTo lookup s) = c.fault? lookup

theorem checks_of (happly : ∀ text s, o.apply text s = ((read ∘ Text.trim) text).map (put · s)) :
    Checks o (.of o.name read) := by
  intro lookup s
  unfold Override.applyTo Criterion.fault? Criterion.of
  cases lookup o.name with
  | none => rfl
  | some text =>
      simp only [happly, Function.comp_apply, Option.bind_some]
      cases read (Text.trim text) <;> rfl

theorem checks_free (happly : ∀ text s, ∃ t, o.apply text s = .ok t) :
    Checks o (.free o.name) := by
  intro lookup s
  unfold Override.applyTo Criterion.fault? Criterion.free
  cases lookup o.name with
  | none => rfl
  | some text =>
      obtain ⟨t, ht⟩ := happly text s
      simp only [ht]
      rfl

theorem checks_monitor (name : String) (hread : IgnoresBlanks read)
    (put : β → MonitorSettings Float → MonitorSettings Float) :
    Checks (monitor name read put) (.of ("QGM_MONITOR_" ++ name) read) :=
  checks_of (monitor_apply name hread put)

theorem checks_smoothing (name : String) (hread : IgnoresBlanks read)
    (put : β → SmoothingSettings Float → SmoothingSettings Float) :
    Checks (smoothing name read put) (.of ("QGM_SMOOTHING_" ++ name) read) :=
  checks_of (smoothing_apply name hread put)

theorem checks_all : List.Forall₂ Checks all (criteria ++ plain) := by
  unfold all criteria plain
  simp only [List.cons_append, List.nil_append, List.forall₂_cons]
  exact ⟨checks_monitor _ ignoresBlanks_readWhole _, checks_monitor _ ignoresBlanks_readNumber _,
    checks_monitor _ ignoresBlanks_readNumber _, checks_monitor _ ignoresBlanks_readWhole _,
    checks_monitor _ ignoresBlanks_readBool _, checks_smoothing _ ignoresBlanks_readMode _,
    checks_smoothing _ ignoresBlanks_readNumber _, checks_smoothing _ ignoresBlanks_readNumber _,
    checks_smoothing _ ignoresBlanks_readNumber _, checks_smoothing _ ignoresBlanks_readWhole _,
    checks_free fun _ _ => ⟨_, rfl⟩, checks_free fun _ _ => ⟨_, rfl⟩,
    checks_free fun _ _ => ⟨_, rfl⟩, checks_free fun _ _ => ⟨_, rfl⟩, .nil⟩

/-- A row of overrides fails as the first of its variables does that is at fault. -/
theorem failure?_foldlM {row : List Override} {cs : List Criterion}
    (h : List.Forall₂ Checks row cs) (s : Settings) :
    failure? (row.foldlM (fun s o => o.applyTo lookup s) s) =
      cs.findSome? (Criterion.fault? lookup) := by
  induction h generalizing s with
  | nil => rfl
  | @cons o c row cs ho _ ih =>
      -- the rest of the row finds other settings, but the same variables
      rw [List.findSome?_cons, List.foldlM_cons, ← ho lookup s]
      cases o.applyTo lookup s with
      | error fault => rfl
      | ok t => exact ih t

end Override

namespace Settings

open Override

theorem failure?_override (lookup : String → Option String) (s : Settings) :
    failure? (s.override lookup) = criteria.findSome? (Criterion.fault? lookup) := by
  have hplain : plain.findSome? (Criterion.fault? lookup) = none := by
    simp [plain, Criterion.fault?, Criterion.free]
  rw [Settings.override, failure?_foldlM checks_all, List.findSome?_append, hplain, Option.or_none]

variable {lookup : String → Option String} {s : Settings} {fault : Fault}

theorem exists_override_iff :
    (∃ t, s.override lookup = .ok t) ↔ ∀ c ∈ criteria, c.IsMet lookup := by
  simp only [← failure?_eq_none_iff, failure?_override, List.findSome?_eq_none_iff,
    Criterion.fault?_eq_none_iff]

theorem override_eq_error_iff :
    s.override lookup = .error fault ↔
      ∃ before c after, criteria = before ++ c :: after ∧
        c.Blames lookup fault ∧ ∀ d ∈ before, d.IsMet lookup := by
  simp only [← failure?_eq_some_iff, failure?_override, List.findSome?_eq_some_iff,
    Criterion.fault?_eq_none_iff, Criterion.fault?_eq_some_iff]

/-- The variables override the settings if each text that has to be read can be read, and then each
of them has an effect on its own setting and on no other; else the first one that cannot be read is
named. -/
theorem variables_override_own_settings (lookup : String → Option String) (s : Settings) :
    ((∃ t, s.override lookup = .ok t) ↔ ∀ c ∈ criteria, c.IsMet lookup) ∧
      (∀ t, s.override lookup = .ok t ↔ Overridden lookup s t) ∧
      ∀ fault, s.override lookup = .error fault ↔
        ∃ before c after, criteria = before ++ c :: after ∧
          c.Blames lookup fault ∧ ∀ d ∈ before, d.IsMet lookup :=
  ⟨exists_override_iff, fun _ => override_eq_ok_iff, fun _ => override_eq_error_iff⟩

example (s : Settings) :
    s.override (fun name => if name = "QGM_MONITOR_WINDOW_SIZE" then some "sixty" else none) =
      .error (.configParse "env"
        "QGM_MONITOR_WINDOW_SIZE=\"sixty\": invalid digit found in string") :=
  rfl

end Settings

end Backlog
