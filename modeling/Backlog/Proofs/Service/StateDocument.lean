import Backlog.Proofs.Json.Reading
import Backlog.Proofs.Service.StateFile
import Backlog.Proofs.Settings.Load
import Backlog.Proofs.Table
import Backlog.Proofs.Text.Lines

/-!
# State files come back

What a daemon leaves in a state file is read as it was, but for its doubles.  Their digits are read
by steps that round, so a double comes back as what the reader makes of its digits (`reread?`).
After a state was written, the file is read as the state with its doubles read again, or not at all
if the reader has no double for some digits (`load_after_write`).
-/

namespace Backlog

namespace Json

/-- The double that is read where a double was written. -/
def reread? (x : Float) : Option Float := (double x).asDouble

/-- The double that is read where a double was written, or the double itself if there is none. -/
def reread (x : Float) : Float := (reread? x).getD x

/-- What is read where a double was written. -/
theorem asDouble_double (x : Float) :
    (double x).asDouble = if (reread? x).isSome then some (reread x) else none := by
  unfold reread
  rw [← reread?]
  cases reread? x <;> rfl

/-- A table is read entry by entry, and only if each entry can be read. -/
theorem asTable_object {β γ : Type} {decode : Json → Option β} {encode : γ → Json}
    {isReadable : γ → Bool} {read : γ → β}
    (h : ∀ c, decode (encode c) = if isReadable c then some (read c) else none) (t : Table γ) :
    asTable decode (.object (t.map encode).entries) =
      if t.entries.all fun e => isReadable e.2 then some (t.map read) else none := by
  have hentries (entries : List (String × γ)) :
      (entries.mapM fun e => (decode (encode e.2)).map fun b => (e.1, b)) =
        if entries.all fun e => isReadable e.2
          then some (entries.map fun e => (e.1, read e.2)) else none := by
    induction entries with
    | nil => rfl
    | cons e entries ih =>
        rw [List.mapM_cons, ih, h]
        cases hfirst : isReadable e.2 <;>
          cases hothers : entries.all fun e => isReadable e.2 <;> simp [hfirst, hothers]
  have hread : Table.ofList (t.entries.map fun e => (e.1, read e.2)) = t.map read :=
    Table.ext_entries (Table.entries_ofList_of_ascending (t.map read).ascending)
  rw [asTable, Table.map, List.mapM_map, Function.comp_def, hentries]
  split
  · rw [Option.map_some, hread]
  · rfl

end Json

namespace QueueDetail

/-- A detail with other doubles. -/
def mapDoubles (f : Float → Float) (d : QueueDetail Float) : QueueDetail Float :=
  { d with lastSmoothed := f d.lastSmoothed, slopePercent := f d.slopePercent }

/-- The doubles of a detail. -/
def doubles (d : QueueDetail Float) : List Float := [d.lastSmoothed, d.slopePercent]

theorem readable_toJson (d : QueueDetail Float) : d.toJson.Readable := by
  refine .object ?_
  simp only [List.forall_mem_cons, List.not_mem_nil, false_implies, implies_true, and_true]
  exact ⟨Json.readable_int _, Json.readable_double _, Json.readable_double _⟩

/-- Whether all doubles of a detail can be read again. -/
def isReadable (d : QueueDetail Float) : Bool := d.doubles.all fun x => (Json.reread? x).isSome

theorem ofJson?_toJson (d : QueueDetail Float) :
    ofJson? d.toJson = if d.isReadable then some (d.mapDoubles Json.reread) else none := by
  rw [ofJson?, toJson, Json.asFields_object (by rfl) (by decide)]
  simp [Json.Fields.required, Json.Fields.find?, Json.asInt64_int, Json.asDouble_double,
    isReadable, doubles, mapDoubles]
  cases (Json.reread? d.lastSmoothed).isSome <;> cases (Json.reread? d.slopePercent).isSome <;> rfl

end QueueDetail

namespace MonitorResult

/-- A result with other doubles. -/
def mapDoubles (f : Float → Float) (r : MonitorResult Float) : MonitorResult Float :=
  { r with details := r.details.map (QueueDetail.mapDoubles f) }

/-- The doubles of a result. -/
def doubles (r : MonitorResult Float) : List Float :=
  r.details.entries.flatMap fun e => e.2.doubles

/-- Whether all doubles of a result can be read again. -/
def isReadable (r : MonitorResult Float) : Bool := r.doubles.all fun x => (Json.reread? x).isSome

theorem isReadable_eq (r : MonitorResult Float) :
    r.isReadable = r.details.entries.all fun e => e.2.isReadable := List.all_flatMap

theorem readable_toJson (r : MonitorResult Float) : r.toJson.Readable := by
  refine .object ?_
  simp only [List.forall_mem_cons, List.not_mem_nil, false_implies, implies_true, and_true]
  refine ⟨.bool _, .string _, .object fun m hmem => ?_, .bool _, .object fun m hmem => ?_⟩
  · obtain ⟨e, -, rfl⟩ := List.mem_map.1 hmem
    exact e.2.readable_toJson
  · obtain ⟨e, -, rfl⟩ := List.mem_map.1 hmem
    exact .string e.2

theorem ofJson?_toJson (r : MonitorResult Float) :
    ofJson? r.toJson = if r.isReadable then some (r.mapDoubles Json.reread) else none := by
  have hdetails := Json.asTable_object QueueDetail.ofJson?_toJson r.details
  have hskipped : Json.asTable Json.asString (.object (r.skipped.map Json.string).entries) =
      some r.skipped := by
    have hsame : r.skipped.map id = r.skipped := Table.ext_entries (List.map_id _)
    have hall : (r.skipped.entries.all fun _ => true) = true := List.all_eq_true.2 fun _ _ => rfl
    have hread := @Json.asTable_object String String Json.asString Json.string (fun _ => true) id
      (fun _ => rfl) r.skipped
    rwa [hsame, if_pos hall] at hread
  rw [ofJson?, toJson, Json.asFields_object (by rfl) (by decide), isReadable_eq]
  simp [Json.Fields.required, Json.Fields.find?, Json.Fields.orElse, Json.asBool, Json.asString,
    hdetails, hskipped]
  split <;> rfl

end MonitorResult

namespace HealthState

/-- A state with other doubles. -/
def mapDoubles (f : Float → Float) (state : HealthState) : HealthState :=
  { state with result := state.result.mapDoubles f }

/-- The doubles of a state. -/
def doubles (state : HealthState) : List Float := state.result.doubles

theorem readable_toJson (state : HealthState) : state.toJson.Readable := by
  refine .object ?_
  simp only [List.forall_mem_cons, List.not_mem_nil, false_implies, implies_true, and_true]
  exact ⟨.string _, Json.readable_int _, .string _, .string _, .string _, Json.readable_int _,
    Json.readable_int _, state.result.readable_toJson⟩

theorem asChoice_name (status : MonitorStatus) :
    Json.asChoice MonitorStatus.ofName? (.string status.name) = some status := by
  cases status <;> rfl

theorem ofJson?_toJson (state : HealthState) :
    ofJson? state.toJson =
      if state.result.isReadable then some (state.mapDoubles Json.reread) else none := by
  have hresult := state.result.ofJson?_toJson
  rw [ofJson?, toJson, Json.asFields_object (by rfl) (by decide)]
  simp [Json.Fields.required, Json.Fields.find?, Json.Fields.orElse, Json.asString,
    Json.asUInt32_int, Json.asUInt64_int, asChoice_name, hresult]
  split <;> rfl

/-- The text of a state is read as the state with its doubles read again. -/
theorem ofText?_pretty (state : HealthState) :
    ofText? state.toJson.pretty =
      if state.result.isReadable then some (state.mapDoubles Json.reread) else none := by
  rw [ofText?, Json.ofText?_pretty state.readable_toJson]
  exact state.ofJson?_toJson

/-! ## Files -/

theorem textOn_of_shows {s : Machine} {path text : String}
    (h : Shows s.workingDir path (some text.toUTF8) s) : Machine.textOn s path = .ok text := by
  have hread : s.disk.read s.workingDir path = .ok text.toUTF8 := by
    have hcontent := h.2
    rw [Disk.content] at hcontent
    cases hread : s.disk.read s.workingDir path with
    | error fault =>
        rw [hread] at hcontent
        cases hcontent
    | ok bytes =>
        rw [hread] at hcontent
        exact congrArg Except.ok (Option.some.inj hcontent)
  rw [Machine.textOn, hread]
  dsimp only
  rw [Text.fromUTF8?_toUTF8]

/-- A state is read from the text of its file, and the warning of a stale one changes nothing
about it. -/
theorem load_of_textOn {s : Machine} {path text : String} (pollIntervalMs : Nat)
    (h : Machine.textOn s path = .ok text) :
    (load (m := StateM Machine) path pollIntervalMs s).1 =
      match ofText? text with
      | some state => .ok state
      | none => .error (.stateUnavailable
          ("invalid state file " ++ path ++ ": " ++ Json.faultText)) := by
  rw [load, StateM.bind_apply, Machine.readText_apply, h]
  dsimp only
  cases ofText? text with
  | none => rfl
  | some state =>
      dsimp only
      rw [StateM.bind_apply]
      split <;> rfl

theorem isReadable_iff {state : HealthState} :
    state.result.isReadable = true ↔ ∀ x ∈ state.doubles, (Json.reread? x).isSome :=
  List.all_eq_true

/-- A state with other doubles is the same only if its doubles are. -/
theorem mapDoubles_eq_self_iff {f : Float → Float} {state : HealthState} :
    state.mapDoubles f = state ↔ ∀ x ∈ state.doubles, f x = x := by
  have hdetails : state.mapDoubles f = state ↔
      state.result.details.map (QueueDetail.mapDoubles f) = state.result.details := by
    constructor
    · exact congrArg fun other : HealthState => other.result.details
    · intro h
      rw [mapDoubles, MonitorResult.mapDoubles, h]
  have hdetail (d : QueueDetail Float) : d.mapDoubles f = d ↔ ∀ x ∈ d.doubles, f x = x := by
    obtain ⟨raw, smoothed, slope⟩ := d
    simp [QueueDetail.mapDoubles, QueueDetail.doubles]
  rw [hdetails, Table.map_eq_self_iff]
  simp only [hdetail, doubles, MonitorResult.doubles, List.mem_flatMap, forall_exists_index,
    and_imp]
  exact ⟨fun h x e hmem hx => h e hmem x hx, fun h e hmem x hx => h x e hmem hx⟩

section

variable {s s' later : Machine} {path : String} {state : HealthState}

/-- What was written is read, unless one of its doubles cannot be read. -/
theorem load_written (pollIntervalMs : Nat) (hsound : s.disk.Sound)
    (hinside : s.workingDir < s.disk.directories.size)
    (hclear : (s.disk.createDirs s.workingDir ((Path.parent? path).getD "")).2.Clear
      s.workingDir path (draftPath path))
    (hwritten : write (m := StateM Machine) path state s = (.ok (), s'))
    (hdisk : later.disk = s'.disk) (hhere : later.workingDir = s'.workingDir) :
    (load (m := StateM Machine) path pollIntervalMs later).1 =
      if state.result.isReadable then .ok (state.mapDoubles Json.reread)
      else .error (.stateUnavailable
        ("invalid state file " ++ path ++ ": " ++ Json.faultText)) := by
  have hshows := shows_of_write hsound hinside hclear hwritten
  have htext : Machine.textOn later path = .ok state.toJson.pretty := by
    refine textOn_of_shows ⟨rfl, ?_⟩
    rw [hdisk, hhere, hshows.1]
    exact hshows.2
  rw [load_of_textOn pollIntervalMs htext, ofText?_pretty]
  cases state.result.isReadable <;> rfl

/-- After a state was written, its file is read as the state with its doubles read again, and not at
all if one of them cannot be read.  So the state comes back exactly if each of its doubles does. -/
theorem load_after_write (pollIntervalMs : Nat) (hsound : s.disk.Sound)
    (hinside : s.workingDir < s.disk.directories.size)
    (hclear : (s.disk.createDirs s.workingDir ((Path.parent? path).getD "")).2.Clear
      s.workingDir path (draftPath path))
    (hwritten : write (m := StateM Machine) path state s = (.ok (), s'))
    (hdisk : later.disk = s'.disk) (hhere : later.workingDir = s'.workingDir) :
    let loaded := (load (m := StateM Machine) path pollIntervalMs later).1
    ((∀ x ∈ state.doubles, (Json.reread? x).isSome) →
        loaded = .ok (state.mapDoubles Json.reread)) ∧
      ((∃ x ∈ state.doubles, Json.reread? x = none) →
        ∃ details, loaded = .error (.stateUnavailable details)) ∧
      (loaded = .ok state ↔ ∀ x ∈ state.doubles, Json.reread? x = some x) := by
  intro loaded
  have hloaded := load_written pollIntervalMs hsound hinside hclear hwritten hdisk hhere
  have hread : (∀ x ∈ state.doubles, (Json.reread? x).isSome) →
      loaded = .ok (state.mapDoubles Json.reread) := by
    intro hall
    exact hloaded.trans (if_pos (isReadable_iff.2 hall))
  have hunread : (∃ x ∈ state.doubles, Json.reread? x = none) →
      ∃ details, loaded = .error (.stateUnavailable details) := by
    rintro ⟨x, hmem, hnone⟩
    have hnot : ¬state.result.isReadable = true := by
      intro hall
      have hsome := isReadable_iff.1 hall x hmem
      rw [hnone] at hsome
      cases hsome
    exact ⟨_, hloaded.trans (if_neg hnot)⟩
  refine ⟨hread, hunread, ?_, ?_⟩
  · -- a state that came back was read, and reading it again changed none of its doubles
    intro hsame
    have hall : ∀ x ∈ state.doubles, (Json.reread? x).isSome := by
      intro x hmem
      cases hx : Json.reread? x with
      | some y => rfl
      | none =>
          obtain ⟨details, herror⟩ := hunread ⟨x, hmem, hx⟩
          cases herror.symm.trans hsame
    have hmap : state.mapDoubles Json.reread = state :=
      Except.ok.inj ((hread hall).symm.trans hsame)
    intro x hmem
    obtain ⟨y, hy⟩ := Option.isSome_iff_exists.1 (hall x hmem)
    have hx := mapDoubles_eq_self_iff.1 hmap x hmem
    rw [Json.reread, hy] at hx
    rw [hy]
    exact congrArg some hx
  · intro hexact
    have hall : ∀ x ∈ state.doubles, (Json.reread? x).isSome := by
      intro x hmem
      rw [hexact x hmem]
      rfl
    rw [hread hall, mapDoubles_eq_self_iff.2]
    intro x hmem
    rw [Json.reread, hexact x hmem]
    rfl

end

/-- The first state of a daemon with one queue. -/
def stateWithSlope (slope : Float) : HealthState :=
  { firstState with
    result := { firstState.result with
      details := Table.empty.insert "a" ⟨1, Float.ofBits 0x3ff8000000000000, slope⟩ } }

theorem mapDoubles_stateWithSlope {f : Float → Float} (slope : Float)
    (h : f (Float.ofBits 0x3ff8000000000000) = Float.ofBits 0x3ff8000000000000) :
    (stateWithSlope slope).mapDoubles f = stateWithSlope (f slope) := by
  have hmap : (stateWithSlope slope).mapDoubles f =
      { firstState with
        result := { firstState.result with
          details := Table.empty.insert "a"
            ⟨1, f (Float.ofBits 0x3ff8000000000000), f slope⟩ } } := rfl
  rw [hmap, h, stateWithSlope]

/-- A machine with a state file. -/
def calmMachine : Machine :=
  { Machine.blank with disk := .ofFile "s.json" "old".toUTF8 }

theorem clear_calmMachine :
    (calmMachine.disk.createDirs calmMachine.workingDir ((Path.parent? "s.json").getD "")).2.Clear
      calmMachine.workingDir "s.json" (draftPath "s.json") := by
  have hparent : (Path.parent? "s.json").getD "" = "" := by decide +kernel
  rw [hparent, Disk.createDirs_empty]
  exact clear_stubbornMachine

/-- A slope of `12.5` comes back. -/
theorem load_after_write_on_calmMachine :
    let state := stateWithSlope (Float.ofBits 0x4029000000000000)
    let written := write (m := StateM Machine) "s.json" state calmMachine
    calmMachine.disk.Sound ∧ written.1 = .ok () ∧
      (load (m := StateM Machine) "s.json" 1000 written.2).1 = .ok state := by
  intro state written
  have hsound : calmMachine.disk.Sound := Disk.sound_ofFile _ _
  have hwritten : written.1 = .ok () := eq_ok_of_isOk (by decide +kernel)
  have hexact : ∀ x ∈ state.doubles, Json.reread? x = some x := by decide +kernel
  obtain ⟨-, -, hback⟩ := load_after_write 1000 hsound Nat.zero_lt_one clear_calmMachine
    (Prod.ext hwritten rfl : written = (.ok (), written.2)) rfl rfl
  exact ⟨hsound, hwritten, hback.2 hexact⟩

/-- A slope of `4.7674448665462294e-7` comes back as `4.76744486654623e-7`. -/
theorem slope_drifts_on_calmMachine :
    let state := stateWithSlope (Float.ofBits 0x3e9ffe686d1cb779)
    let written := write (m := StateM Machine) "s.json" state calmMachine
    let loaded := (load (m := StateM Machine) "s.json" 1000 written.2).1
    state.doubles.all Binary64.isFinite = true ∧ written.1 = .ok () ∧
      loaded = .ok (stateWithSlope (Float.ofBits 0x3e9ffe686d1cb77a)) ∧ loaded ≠ .ok state := by
  intro state written loaded
  have hsound : calmMachine.disk.Sound := Disk.sound_ofFile _ _
  have hfinite : state.doubles.all Binary64.isFinite = true := by decide +kernel
  have hwritten : written.1 = .ok () := eq_ok_of_isOk (by decide +kernel)
  have hsmoothed : Json.reread (Float.ofBits 0x3ff8000000000000) =
      Float.ofBits 0x3ff8000000000000 := by
    decide +kernel
  have hslope : Json.reread (Float.ofBits 0x3e9ffe686d1cb779) =
      Float.ofBits 0x3e9ffe686d1cb77a := by
    decide +kernel
  have hreadable : state.result.isReadable = true := by decide +kernel
  have hother : state.mapDoubles Json.reread =
      stateWithSlope (Float.ofBits 0x3e9ffe686d1cb77a) := by
    rw [mapDoubles_stateWithSlope _ hsmoothed, hslope]
  have hloaded : loaded = .ok (stateWithSlope (Float.ofBits 0x3e9ffe686d1cb77a)) := by
    have hread := load_written 1000 hsound Nat.zero_lt_one clear_calmMachine
      (Prod.ext hwritten rfl : written = (.ok (), written.2)) rfl rfl
    rwa [if_pos hreadable, hother] at hread
  refine ⟨hfinite, hwritten, hloaded, fun hsame => ?_⟩
  have hdoubles : (stateWithSlope (Float.ofBits 0x3e9ffe686d1cb77a)).doubles ≠ state.doubles := by
    decide +kernel
  exact hdoubles (congrArg doubles (Except.ok.inj (hloaded.symm.trans hsame)))

end HealthState

end Backlog
