import Backlog.Proofs.Settings.Load
import Backlog.Proofs.Toml.Bounds

/-!
# Whole numbers of settings

Three settings are whole numbers.  A document says no larger ones than it can hold, and so what
is read from a file fits a document again (`fits_of_ofToml`).  A variable may say any number of
64 bits: settings that were loaded fit unless one of `wholeNames` said a larger one
(`fits_of_load`).
-/

namespace Backlog

open Toml

/-- Settings of a monitor whose whole numbers are no larger than those of a document can be. -/
structure MonitorSettings.Fits (s : MonitorSettings Float) : Prop where
  windowSize : s.windowSize < twoTo 63
  pollIntervalMs : s.pollIntervalMs < twoTo 63
  period : s.smoothing.period < twoTo 63

/-! ## Settings in a document -/

namespace Toml

theorem IsBounded.asFields {names : List String} {v : Toml} {fields : List (String × Toml)}
    (h : v.IsBounded) (hfields : v.asFields names = some fields) :
    ∀ e ∈ fields, e.2.IsBounded := by
  cases h with
  | table h =>
      cases hfields
      exact h
  | array h =>
      cases hfields
      exact fun e he => h e.2 (List.of_mem_zip he).2
  | dateTime =>
      cases hfields
      exact nofun
  | _ => cases hfields

theorem IsBounded.asWhole {v : Toml} {n : Nat} (h : v.IsBounded) (hn : v.asWhole = some n) :
    n < twoTo 63 := by
  cases h with
  | integer h =>
      obtain ⟨hnonneg, heq⟩ := Option.ite_none_right_eq_some.1 hn
      cases heq
      omega
  | _ => cases hn

/-- A field has a property if the value that stands in for it has it, and every value that is
read from a document. -/
theorem of_fieldOr {β : Type} (p : β → Prop) {fields : List (String × Toml)} {name : String}
    {value b : β} {decode : Toml → Option β} (hfields : ∀ e ∈ fields, e.2.IsBounded)
    (hvalue : p value) (hdecode : ∀ v b, v.IsBounded → decode v = some b → p b)
    (h : fieldOr fields name value decode = some b) : p b := by
  unfold fieldOr at h
  cases hlookup : fields.lookup name with
  | none =>
      rw [hlookup] at h
      cases h
      exact hvalue
  | some v =>
      rw [hlookup] at h
      obtain ⟨before, after, hsplit, -⟩ := List.lookup_eq_some_iff.1 hlookup
      refine hdecode v b (hfields (name, v) ?_) h
      simp [hsplit]

theorem lt_of_fieldOr {fields : List (String × Toml)} {name : String} {value n : Nat}
    (hfields : ∀ e ∈ fields, e.2.IsBounded) (hvalue : value < twoTo 63)
    (h : fieldOr fields name value Toml.asWhole = some n) : n < twoTo 63 :=
  of_fieldOr (· < twoTo 63) hfields hvalue (fun _ _ => IsBounded.asWhole) h

end Toml

theorem SmoothingSettings.period_of_ofToml {other s : SmoothingSettings Float} {v : Toml}
    (hother : other.period < twoTo 63) (hv : v.IsBounded) (h : ofToml other v = some s) :
    s.period < twoTo 63 := by
  obtain ⟨fields, hfields, h⟩ := Option.bind_eq_some_iff.1 h
  obtain ⟨mode, -, h⟩ := Option.bind_eq_some_iff.1 h
  obtain ⟨alpha, -, h⟩ := Option.bind_eq_some_iff.1 h
  obtain ⟨beta, -, h⟩ := Option.bind_eq_some_iff.1 h
  obtain ⟨gamma, -, h⟩ := Option.bind_eq_some_iff.1 h
  obtain ⟨period, hperiod, heq⟩ := Option.bind_eq_some_iff.1 h
  cases heq
  exact lt_of_fieldOr (hv.asFields hfields) hother hperiod

theorem MonitorSettings.fits_of_ofToml {other s : MonitorSettings Float} {v : Toml}
    (hother : other.Fits) (hv : v.IsBounded) (h : ofToml other v = some s) : s.Fits := by
  obtain ⟨fields, hfields, h⟩ := Option.bind_eq_some_iff.1 h
  obtain ⟨windowSize, hwindow, h⟩ := Option.bind_eq_some_iff.1 h
  obtain ⟨growthThreshold, -, h⟩ := Option.bind_eq_some_iff.1 h
  obtain ⟨slopeScale, -, h⟩ := Option.bind_eq_some_iff.1 h
  obtain ⟨pollIntervalMs, hpoll, h⟩ := Option.bind_eq_some_iff.1 h
  obtain ⟨startActive, -, h⟩ := Option.bind_eq_some_iff.1 h
  obtain ⟨smoothing, hsmoothing, heq⟩ := Option.bind_eq_some_iff.1 h
  cases heq
  have hbounded := hv.asFields hfields
  have husual : (SmoothingSettings.standard : SmoothingSettings Float).period < twoTo 63 := by
    decide
  exact {
    windowSize := lt_of_fieldOr hbounded hother.windowSize hwindow
    pollIntervalMs := lt_of_fieldOr hbounded hother.pollIntervalMs hpoll
    period := of_fieldOr (·.period < twoTo 63) hbounded hother.period
      (fun _ _ => SmoothingSettings.period_of_ofToml husual) hsmoothing }

theorem MonitorSettings.fits_standard : (standard : MonitorSettings Float).Fits :=
  ⟨by decide, by decide, by decide⟩

namespace Settings

theorem fits_of_ofToml {other s : Settings} {v : Toml} (hother : other.monitor.Fits)
    (hv : v.IsBounded) (h : ofToml other v = some s) : s.monitor.Fits := by
  obtain ⟨fields, hfields, h⟩ := Option.bind_eq_some_iff.1 h
  obtain ⟨monitor, hmonitor, h⟩ := Option.bind_eq_some_iff.1 h
  obtain ⟨sources, -, h⟩ := Option.bind_eq_some_iff.1 h
  obtain ⟨paths, -, heq⟩ := Option.bind_eq_some_iff.1 h
  cases heq
  exact of_fieldOr MonitorSettings.Fits (hv.asFields hfields) hother
    (fun _ _ => MonitorSettings.fits_of_ofToml MonitorSettings.fits_standard) hmonitor

theorem fits_of_ofText? {other s : Settings} {text : String} (hother : other.monitor.Fits)
    (h : ofText? other text = some s) : s.monitor.Fits := by
  obtain ⟨v, hv, hs⟩ := Option.bind_eq_some_iff.1 h
  exact fits_of_ofToml hother (isBounded_of_ofText? hv) hs

/-! ## Settings in variables -/

/-- The variables that say a whole number. -/
def wholeNames : List String :=
  ["QGM_MONITOR_WINDOW_SIZE", "QGM_MONITOR_POLL_INTERVAL_MS", "QGM_SMOOTHING_PERIOD"]

/-- A text that says no whole number too large for a document. -/
def IsSmall (text : String) : Prop := ∀ n, Override.readWhole text = .ok n → n < twoTo 63

/-- An override after which settings fit that did before, if its variable says no larger whole
number. -/
def KeepsFits (o : Override) : Prop :=
  ∀ (text : String) (s t : Settings), (o.name ∈ wholeNames → IsSmall text) →
    o.apply text s = .ok t → s.monitor.Fits → t.monitor.Fits

theorem keepsFits_monitor {β : Type} {name : String} {read : String → Except String β}
    {put : β → MonitorSettings Float → MonitorSettings Float}
    (hput : ∀ text b m, ("QGM_MONITOR_" ++ name ∈ wholeNames → IsSmall text) →
      read text = .ok b → m.Fits → (put b m).Fits) : KeepsFits (.monitor name read put) := by
  intro text s t hsmall h hfits
  obtain ⟨b, hb, hnew⟩ := bind_eq_ok.1 h
  cases pure_eq_ok.1 hnew
  exact hput text b s.monitor hsmall hb hfits

theorem keepsFits_smoothing {β : Type} {name : String} {read : String → Except String β}
    {put : β → SmoothingSettings Float → SmoothingSettings Float}
    (hput : ∀ text b m, ("QGM_SMOOTHING_" ++ name ∈ wholeNames → IsSmall text) →
      read text = .ok b → m.period < twoTo 63 → (put b m).period < twoTo 63) :
    KeepsFits (.smoothing name read put) := by
  intro text s t hsmall h hfits
  obtain ⟨b, hb, hnew⟩ := bind_eq_ok.1 h
  cases pure_eq_ok.1 hnew
  exact ⟨hfits.windowSize, hfits.pollIntervalMs, hput text b _ hsmall hb hfits.period⟩

theorem keepsFits_sources (name : String) (put : String → SourceSettings → SourceSettings) :
    KeepsFits (.sources name put) := by
  intro text s t _ h hfits
  cases h
  exact hfits

theorem keepsFits_paths (name : String) (put : String → PathSettings → PathSettings) :
    KeepsFits (.paths name put) := by
  intro text s t _ h hfits
  cases h
  exact hfits

theorem keepsFits_all : ∀ o ∈ Override.all, KeepsFits o := by
  unfold Override.all
  simp only [List.forall_mem_cons]
  exact ⟨keepsFits_monitor fun _ n _ hsmall hn h =>
      ⟨hsmall (by decide) n hn, h.pollIntervalMs, h.period⟩,
    keepsFits_monitor fun _ _ _ _ _ h => ⟨h.windowSize, h.pollIntervalMs, h.period⟩,
    keepsFits_monitor fun _ _ _ _ _ h => ⟨h.windowSize, h.pollIntervalMs, h.period⟩,
    keepsFits_monitor fun _ n _ hsmall hn h =>
      ⟨h.windowSize, hsmall (by decide) n hn, h.period⟩,
    keepsFits_monitor fun _ _ _ _ _ h => ⟨h.windowSize, h.pollIntervalMs, h.period⟩,
    keepsFits_smoothing fun _ _ _ _ _ h => h,
    keepsFits_smoothing fun _ _ _ _ _ h => h,
    keepsFits_smoothing fun _ _ _ _ _ h => h,
    keepsFits_smoothing fun _ _ _ _ _ h => h,
    keepsFits_smoothing fun _ n _ hsmall hn _ => hsmall (by decide) n hn,
    keepsFits_sources _ _, keepsFits_sources _ _, keepsFits_paths _ _, keepsFits_paths _ _,
    List.forall_mem_nil _⟩

theorem fits_of_complete {path : String} {overrides : List (String × String)} {s t : Settings}
    (hsmall : ∀ name ∈ wholeNames, ∀ text, (name, text) ∈ overrides → IsSmall text)
    (hs : s.monitor.Fits) (h : s.complete path overrides = .ok t) : t.monitor.Fits := by
  obtain ⟨u, hu, -, rfl⟩ := complete_eq_ok_iff.1 h
  have hfits : u.monitor.Fits := by
    refine foldlM_applyTo (·.monitor.Fits) (fun o ho text s t hlookup happly => ?_) ?_ hu
    · obtain ⟨before, after, hsplit, -⟩ := List.lookup_eq_some_iff.1 hlookup
      have hmem : (o.name, text) ∈ overrides := by simp [hsplit]
      exact keepsFits_all o ho text s t (fun hwhole => hsmall o.name hwhole text hmem) happly
    · exact hs
  exact hfits

/-! ## Loaded settings -/

section

variable {σ : Type} [Host (StateM σ)]

/-- The variables that a loading finds set, with their texts. -/
def said (path : Option String) : StateM σ (List (String × String)) := do
  let home ← homeDir
  let _ ← begun path home
  overrides

theorem fits_of_begun {path : Option String} {home : String} {s : σ} {t : Settings}
    (h : (begun (σ := σ) path home s).1 = .ok t) : t.monitor.Fits := by
  have husual : (standard home).monitor.Fits := MonitorSettings.fits_standard
  unfold begun at h
  simp only [StateM.bind_apply] at h
  generalize Host.isThere (m := StateM σ) (path.getD (standard home).paths.configFile) s =
    there at h
  obtain ⟨isThere, s'⟩ := there
  cases isThere with
  | true =>
      simp only [if_true, ofFile, StateM.bind_apply] at h
      generalize Host.readText (m := StateM σ) (path.getD (standard home).paths.configFile) s' =
        read at h
      obtain ⟨outcome, s''⟩ := read
      cases outcome with
      | error fault => cases h
      | ok text =>
          dsimp only at h
          cases hread : ofText? (standard home) text with
          | none =>
              rw [hread] at h
              cases h
          | some u =>
              rw [hread] at h
              cases h
              exact fits_of_ofText? husual hread
  | false =>
      cases path with
      | some file => cases h
      | none =>
          cases h
          exact husual

/-- Loaded settings fit a document, whatever is in the file, unless a variable says a larger
whole number. -/
theorem fits_of_load {path : Option String} {s : σ} {t : Settings}
    (hsmall : ∀ name ∈ wholeNames, ∀ text, (name, text) ∈ (said path s).1 → IsSmall text)
    (h : (load (m := StateM σ) path s).1 = .ok t) : t.monitor.Fits := by
  rw [load_eq] at h
  simp only [said, StateM.bind_apply] at h hsmall
  generalize hbegun : begun (σ := σ) path _ _ = read at h hsmall
  obtain ⟨outcome, s'⟩ := read
  cases outcome with
  | error fault => cases h
  | ok u => exact fits_of_complete hsmall (fits_of_begun (congrArg Prod.fst hbegun)) h

end

/-- On a machine these are its variables, which a loading leaves alone. -/
theorem said_fst (path : Option String) (s : Machine) :
    (said path s).1 = (overrides (m := StateM Machine) s).1 := by
  have henviron : (homeDir (m := StateM Machine) s).2.environ = s.environ :=
    congrArg Prod.fst (speaks_homeDir s).scene_eq
  simp only [said, StateM.bind_apply, begun_apply]
  exact overrides_congr henviron

end Settings

end Backlog
