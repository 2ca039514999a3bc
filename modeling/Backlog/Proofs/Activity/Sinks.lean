import Backlog.Proofs.Activity.Ledger

/-!
# Sinks on a ledger

A line waits in a buffer before its file takes it in.  So what is said about a sink is said
about the bytes that a file took in together with those behind them (`waiting`): those that
wait, as long as the file is in use, and then those that it refused when it was left.  In this
form nothing is ever lost (`Keeps`), neither by a write or a flush that fails
(`Keeps.of_appends`) nor when another sink takes the place of one (`Keeps.of_leave`): a file is
flushed before it is left, and what waits after a flush has been refused (`Settled`).
-/

namespace Backlog

namespace LogWriter

variable {σ : Type} [Host (StateM σ)]

/-- The bytes behind those that a file took in: what waits for it, or else what it refused. -/
def waiting (sink : Outlet σ) (index : Nat) (o : OpenedFile) : ByteArray :=
  match sink with
  | .file buffer _ _ _ =>
    if BookedFile.index buffer.file = index then buffer.pending else o.refused
  | _ => o.refused

/-- A line was printed, or a file took it in or still has it behind the bytes that it took in. -/
def Holds (sink : Outlet σ) (l : Ledger σ) (line : String) : Prop :=
  mark ++ line ∈ l.printed ∨
    ∃ (index : Nat) (o : OpenedFile),
      l.files[index]? = some o ∧ Within line.toUTF8 (o.given ++ waiting sink index o)

/-- Nothing is lost on the way from one point to another. -/
structure Keeps (sink : Outlet σ) (l : Ledger σ) (sink' : Outlet σ) (l' : Ledger σ) : Prop where
  printed : ∀ text ∈ l.printed, text ∈ l'.printed
  isMute : l'.isMute = false → l.isMute = false
  files : ∀ (index : Nat) (o : OpenedFile), l.files[index]? = some o →
    ∃ o', l'.files[index]? = some o' ∧
      ∃ more, o'.given ++ waiting sink' index o' = o.given ++ waiting sink index o ++ more

variable {sink sink' sink'' : Outlet σ} {l l' l'' : Ledger σ} {line : String}

theorem Keeps.refl (sink : Outlet σ) (l : Ledger σ) : Keeps sink l sink l :=
  ⟨fun _ => id, id, fun _ o ho => ⟨o, ho, .empty, ByteArray.append_empty.symm⟩⟩

theorem Keeps.trans (h : Keeps sink l sink' l') (h' : Keeps sink' l' sink'' l'') :
    Keeps sink l sink'' l'' := by
  refine ⟨fun text ht => h'.printed text (h.printed text ht),
    fun hmute => h.isMute (h'.isMute hmute), fun index o ho => ?_⟩
  obtain ⟨o', ho', more, hmore⟩ := h.files index o ho
  obtain ⟨o'', ho'', more', hmore'⟩ := h'.files index o' ho'
  exact ⟨o'', ho'', more ++ more', by rw [hmore', hmore, ByteArray.append_assoc]⟩

theorem Holds.keep (hline : Holds sink l line) (h : Keeps sink l sink' l') :
    Holds sink' l' line := by
  rcases hline with hprinted | ⟨index, o, ho, hwithin⟩
  · exact .inl (h.printed _ hprinted)
  · obtain ⟨o', ho', more, hmore⟩ := h.files index o ho
    refine .inr ⟨index, o', ho', ?_⟩
    rw [hmore]
    exact hwithin.append more

/-- What can be said of a writer at any time: it uses the two paths of its settings, its file is
in the books, and it drops lines only if the error stream is out of order. -/
structure Fits (settings : LogSettings) (sink : Outlet σ) (l : Ledger σ) : Prop where
  opened : ∀ o ∈ l.files, o.path = settings.path ∨ some o.path = settings.fallback
  file : ∀ buffer path bytes isFallback, sink = .file buffer path bytes isFallback →
    (path = settings.path ∨ some path = settings.fallback) ∧
      BookedFile.index buffer.file < l.files.length
  discard : sink = .discard → l.isMute = true

variable {settings : LogSettings}

/-! ## Steps that leave the sink alone -/

theorem Keeps.of_files (hfiles : l'.files = l.files) (hprinted : ∀ t ∈ l.printed, t ∈ l'.printed)
    (hmute : l'.isMute = false → l.isMute = false) : Keeps sink l sink l' :=
  ⟨hprinted, hmute, fun _ o ho => ⟨o, hfiles ▸ ho, .empty, ByteArray.append_empty.symm⟩⟩

theorem Keeps.of_same (h : Ledger.SameBooks l l') : Keeps sink l sink l' :=
  .of_files h.files (fun _ => h.printed ▸ id) (h.isMute ▸ id)

theorem Fits.of_files (h : Fits settings sink l) (hfiles : l'.files = l.files)
    (hmute : l'.isMute = false → l.isMute = false) : Fits settings sink l' := by
  refine ⟨hfiles ▸ h.opened, fun buffer path bytes isFallback hsink => ?_, fun hsink => ?_⟩
  · rw [hfiles]
    exact h.file buffer path bytes isFallback hsink
  · exact Ledger.mute_of_imp hmute (h.discard hsink)

theorem Fits.of_same (h : Fits settings sink l) (hsame : Ledger.SameBooks l l') :
    Fits settings sink l' :=
  h.of_files hsame.files (hsame.isMute ▸ id)

theorem warn_spec {text : String}
    (h : Host.warn (m := StateM (Ledger σ)) text l = ((), l')) :
    l'.files = l.files ∧ (∀ t ∈ l.printed, t ∈ l'.printed) ∧
      (l'.isMute = false → l.isMute = false) := by
  unfold Host.warn at h
  obtain ⟨isPrinted, l₁, hanswer, h⟩ := StateM.exists_of_bind_apply h
  cases h
  obtain ⟨hfiles, hprinted, hmute⟩ := Ledger.printError_spec hanswer
  exact ⟨hfiles, hprinted, fun h => (hmute h).1⟩

theorem Keeps.of_entered {path : String} {index : Nat} (h : Ledger.Entered path index l l') :
    Keeps sink l sink l' := by
  refine ⟨fun _ => h.printed ▸ id, h.isMute ▸ id, fun i o ho => ⟨o, ?_, .empty, ?_⟩⟩
  · rw [h.files, List.getElem?_append_left (List.getElem?_eq_some_iff.1 ho).1, ho]
  · exact ByteArray.append_empty.symm

theorem Fits.of_entered {path : String} {index : Nat} (hfits : Fits settings sink l)
    (h : Ledger.Entered path index l l')
    (hpath : path = settings.path ∨ some path = settings.fallback) : Fits settings sink l' := by
  refine ⟨fun o ho => ?_, fun buffer p bytes isFallback hsink => ?_, fun hsink => ?_⟩
  · rw [h.files] at ho
    rcases List.mem_append.1 ho with ho | ho
    · exact hfits.opened o ho
    · rw [List.mem_singleton.1 ho]
      exact hpath
  · obtain ⟨hallowed, hlt⟩ := hfits.file buffer p bytes isFallback hsink
    rw [h.files, List.length_append]
    exact ⟨hallowed, by omega⟩
  · rw [h.isMute]
    exact hfits.discard hsink

/-! ## Writing to a file -/

section

variable {b b' : BufferedFile (Host.File (StateM (Ledger σ)))} {path : String} {bytes bytes' : Nat}
  {isFallback : Bool} {more : ByteArray}

theorem waiting_file (index : Nat) (o : OpenedFile) :
    waiting (σ := σ) (.file b path bytes isFallback) index o =
      if BookedFile.index b.file = index then b.pending else o.refused := rfl

theorem Keeps.of_appends (h : Ledger.Appends b l b' l' more) :
    Keeps (.file b path bytes isFallback) l (.file b' path bytes' isFallback) l' := by
  obtain ⟨note, hfiles, hnote⟩ := h.files
  refine ⟨fun _ => h.printed ▸ id, h.isMute ▸ id, fun index o ho => ?_⟩
  rw [hfiles]
  by_cases hindex : BookedFile.index b.file = index
  · refine ⟨note o, ?_, more, ?_⟩
    · rw [← hindex, List.getElem?_modify_eq, hindex, ho]
      rfl
    · rw [waiting_file, waiting_file, h.file, if_pos hindex, if_pos hindex]
      exact (hnote o).2
  · refine ⟨o, ?_, .empty, ?_⟩
    · rw [List.getElem?_modify_ne _ _ hindex, ho]
    · rw [waiting_file, waiting_file, h.file, if_neg hindex, if_neg hindex, ByteArray.append_empty]

theorem Fits.of_appends (hfits : Fits settings (.file b path bytes isFallback) l)
    (h : Ledger.Appends b l b' l' more) :
    Fits settings (.file b' path bytes' isFallback) l' := by
  obtain ⟨note, hfiles, hnote⟩ := h.files
  obtain ⟨hallowed, hlt⟩ := hfits.file _ _ _ _ rfl
  refine ⟨fun o ho => ?_, fun buffer p n fb hsink => ?_, nofun⟩
  · rw [hfiles] at ho
    obtain ⟨index, hindex⟩ := List.mem_iff_getElem?.1 ho
    rw [List.getElem?_modify] at hindex
    obtain ⟨before, hbefore, rfl⟩ := Option.map_eq_some_iff.1 hindex
    have hpath := hfits.opened before (List.mem_of_getElem? hbefore)
    split
    · rw [(hnote before).1]
      exact hpath
    · exact hpath
  · cases hsink
    rw [hfiles, List.length_modify, h.file]
    exact ⟨hallowed, hlt⟩

/-- Bytes that were added are held. -/
theorem holds_of_appends (hfits : Fits settings (.file b path bytes isFallback) l)
    (h : Ledger.Appends b l b' l' more) (hline : Within line.toUTF8 more) :
    Holds (.file b' path bytes' isFallback) l' line := by
  obtain ⟨note, hfiles, hnote⟩ := h.files
  obtain ⟨-, hlt⟩ := hfits.file _ _ _ _ rfl
  refine .inr ⟨BookedFile.index b.file, note l.files[BookedFile.index b.file], ?_, ?_⟩
  · rw [hfiles, List.getElem?_modify_eq, List.getElem?_eq_getElem hlt]
    rfl
  · rw [waiting_file, h.file, if_pos rfl, (hnote _).2]
    exact hline.prepend _

end

/-! ## Changing the sink -/

/-- Nothing waits for the file but what it has refused. -/
def Settled (sink : Outlet σ) (l : Ledger σ) : Prop :=
  ∀ buffer path bytes isFallback, sink = .file buffer path bytes isFallback →
    buffer.pending = .empty ∨
      ∀ o, l.files[BookedFile.index buffer.file]? = some o → buffer.pending = o.refused

theorem Settled.of_same (h : Settled sink l) (hsame : Ledger.SameBooks l l') :
    Settled sink l' := by
  unfold Settled
  rw [hsame.files]
  exact h

/-- Nothing was written to the file yet. -/
def Fresh (sink : Outlet σ) (l : Ledger σ) : Prop :=
  ∀ buffer path bytes isFallback, sink = .file buffer path bytes isFallback →
    buffer.pending = .empty ∧
      l.files[BookedFile.index buffer.file]? = some ⟨path, .empty, .empty⟩

/-- The other sink has another file. -/
def Apart (sink sink' : Outlet σ) : Prop :=
  ∀ b path bytes isFallback b' path' bytes' isFallback',
    sink = .file b path bytes isFallback → sink' = .file b' path' bytes' isFallback' →
      BookedFile.index b.file ≠ BookedFile.index b'.file

theorem waiting_of_settled (h : Settled sink l) {index : Nat} {o : OpenedFile}
    (ho : l.files[index]? = some o) :
    waiting sink index o = .empty ∨ waiting sink index o = o.refused := by
  cases sink with
  | file b path bytes isFallback =>
      rw [waiting_file]
      split
      case isTrue hindex =>
        rcases h b path bytes isFallback rfl with hempty | hrefused
        · exact .inl hempty
        · exact .inr (hrefused o (hindex ▸ ho))
      case isFalse => exact .inr rfl
  | errorStream => exact .inr rfl
  | discard => exact .inr rfl

/-- A file that is settled can be left for one that is fresh, or for none. -/
theorem Keeps.of_leave (h : Settled sink l) (h' : Fresh sink' l) : Keeps sink l sink' l := by
  refine ⟨fun _ => id, id, fun index o ho => ⟨o, ho, ?_⟩⟩
  have hafter : waiting sink' index o = o.refused := by
    cases sink' with
    | file b path bytes isFallback =>
        rw [waiting_file]
        split
        case isTrue hindex =>
          obtain ⟨hempty, hfile⟩ := h' b path bytes isFallback rfl
          rw [hindex, ho] at hfile
          cases hfile
          exact hempty
        case isFalse => rfl
    | errorStream => rfl
    | discard => rfl
  rw [hafter]
  rcases waiting_of_settled h ho with hempty | hrefused
  · exact ⟨o.refused, by rw [hempty, ByteArray.append_empty]⟩
  · exact ⟨.empty, by rw [hrefused, ByteArray.append_empty]⟩

/-- A flush loses nothing and settles the file; other files are left alone. -/
theorem flushSink_spec (hfits : Fits settings sink l)
    (h : flushSink (m := StateM (Ledger σ)) sink l = (sink', l')) :
    Keeps sink l sink' l' ∧ Fits settings sink' l' ∧ Settled sink' l' ∧
      (∀ other, Apart sink other → Fresh other l → Fresh other l' ∧ Apart sink' other) := by
  unfold flushSink at h
  cases sink with
  | file b path bytes isFallback =>
      dsimp only at h
      obtain ⟨⟨isDone, b'⟩, l₁, hflushed, h⟩ := StateM.exists_of_bind_apply h
      cases h
      obtain ⟨happends, -, hsettled⟩ := Ledger.flush_spec hflushed
      refine ⟨.of_appends happends, hfits.of_appends happends, ?_,
        fun other hapart hfresh => ⟨?_, ?_⟩⟩
      · intro buffer p n fb hsink
        cases hsink
        rw [happends.file]
        exact hsettled
      · intro buffer p n fb hsink
        obtain ⟨hempty, hfile⟩ := hfresh buffer p n fb hsink
        obtain ⟨note, hfiles, -⟩ := happends.files
        have hne := hapart _ _ _ _ _ _ _ _ rfl hsink
        exact ⟨hempty, by rw [hfiles, List.getElem?_modify_ne _ _ hne, hfile]⟩
      · intro buffer p n fb buffer' p' n' fb' hsink hother
        cases hsink
        rw [happends.file]
        exact hapart _ _ _ _ _ _ _ _ rfl hother
  | errorStream =>
      cases h
      exact ⟨.refl _ _, hfits, nofun, fun _ hapart hfresh => ⟨hfresh, hapart⟩⟩
  | discard =>
      cases h
      exact ⟨.refl _ _, hfits, nofun, fun _ hapart hfresh => ⟨hfresh, hapart⟩⟩

/-- A sink that can take the place of another one. -/
structure Ready (settings : LogSettings) (sink : Outlet σ) (l : Ledger σ) (next : Outlet σ) :
    Prop where
  fits : Fits settings sink l
  nextFits : Fits settings next l
  fresh : Fresh next l
  apart : Apart sink next

theorem Ready.of_errorStream (h : Fits settings sink l) : Ready settings sink l .errorStream :=
  ⟨h, ⟨h.opened, fun _ _ _ _ => nofun, nofun⟩, fun _ _ _ _ => nofun,
    fun _ _ _ _ _ _ _ _ _ => nofun⟩

theorem Ready.of_entered {file : Host.File (StateM (Ledger σ))} {path : String} {size : Nat}
    {isFallback : Bool} (hfits : Fits settings sink l)
    (h : Ledger.Entered path (BookedFile.index file) l l')
    (hpath : path = settings.path ∨ some path = settings.fallback) :
    Ready settings sink l' (.file ⟨file, .empty⟩ path size isFallback) := by
  have hfits' := hfits.of_entered h hpath
  refine ⟨hfits', ⟨hfits'.opened, fun buffer p n fb hsink => ?_, nofun⟩,
    fun buffer p n fb hsink => ?_, fun b p n fb b' p' n' fb' hsink hnext => ?_⟩
  · cases hsink
    rw [h.files, h.index, List.length_append]
    exact ⟨hpath, by simp⟩
  · cases hsink
    rw [h.files, h.index]
    exact ⟨rfl, by simp⟩
  · cases hnext
    obtain ⟨-, hlt⟩ := hfits.file b p n fb hsink
    rw [h.index]
    omega

theorem Ready.of_files {next : Outlet σ} (h : Ready settings sink l next)
    (hfiles : l'.files = l.files) (hmute : l'.isMute = false → l.isMute = false) :
    Ready settings sink l' next := by
  refine ⟨h.fits.of_files hfiles hmute, h.nextFits.of_files hfiles hmute, ?_, h.apart⟩
  intro buffer path bytes isFallback hsink
  rw [hfiles]
  exact h.fresh buffer path bytes isFallback hsink

theorem Ready.flush {next : Outlet σ} (h : Ready settings sink l next)
    (hflush : flushSink (m := StateM (Ledger σ)) sink l = (sink', l')) :
    Ready settings sink' l' next ∧ Keeps sink l sink' l' ∧ Settled sink' l' := by
  obtain ⟨hkeeps, hfits, hsettled, hothers⟩ := flushSink_spec h.fits hflush
  obtain ⟨hfresh, hapart⟩ := hothers next h.apart h.fresh
  refine ⟨⟨hfits, ?_, hfresh, hapart⟩, hkeeps, hsettled⟩
  refine ⟨hfits.opened, fun buffer path bytes isFallback hsink => ?_, fun hsink => ?_⟩
  · obtain ⟨-, hfile⟩ := hfresh buffer path bytes isFallback hsink
    exact ⟨(h.nextFits.file buffer path bytes isFallback hsink).1,
      (List.getElem?_eq_some_iff.1 hfile).1⟩
  · exact Ledger.mute_of_imp hkeeps.isMute (h.nextFits.discard hsink)

/-- What is given up is flushed once more before the next sink takes its place. -/
theorem close_spec {next : Outlet σ} (h : Ready settings sink l next)
    (hclose : close (m := StateM (Ledger σ)) sink l = ((), l')) :
    Keeps sink l next l' ∧ Fits settings next l' := by
  unfold close at hclose
  obtain ⟨sink', l₁, hflush, hclose⟩ := StateM.exists_of_bind_apply hclose
  cases hclose
  obtain ⟨hready, hkeeps, hsettled⟩ := h.flush hflush
  exact ⟨hkeeps.trans (.of_leave hsettled hready.fresh), hready.nextFits⟩

/-- How many more failures a writer can put up with. -/
def rank : Outlet σ → Nat
  | .file _ _ _ false => 2
  | .file _ _ _ true => 1
  | .errorStream | .discard => 0

theorem openSink_ready {path : String} {isFallback : Bool} {opened : Option (Outlet σ)}
    (hfits : Fits settings sink l)
    (hpath : path = settings.path ∨ some path = settings.fallback)
    (h : openSink (m := StateM (Ledger σ)) path isFallback l = (opened, l')) :
    Keeps sink l sink l' ∧ Ready settings sink l' (opened.getD .errorStream) ∧
      rank (opened.getD .errorStream) ≤ (bif isFallback then 1 else 2) ∧
      (Settled sink l → Settled sink l') := by
  rcases Ledger.openSink_spec h with ⟨rfl, hsame⟩ | ⟨file, size, rfl, hentered⟩
  · exact ⟨.of_same hsame, .of_errorStream (hfits.of_same hsame), Nat.zero_le _,
      fun hsettled => hsettled.of_same hsame⟩
  · refine ⟨.of_entered hentered, .of_entered hfits hentered hpath, ?_, fun hsettled => ?_⟩
    · cases isFallback <;> exact Nat.le_refl _
    · intro buffer p n fb hsink
      obtain ⟨-, hlt⟩ := hfits.file buffer p n fb hsink
      rw [hentered.files, List.getElem?_append_left hlt]
      exact hsettled buffer p n fb hsink

theorem openFallback_ready {opened : Option (Outlet σ)} (hfits : Fits settings sink l)
    (h : openFallback (m := StateM (Ledger σ)) settings l = (opened, l')) :
    Keeps sink l sink l' ∧ Ready settings sink l' (opened.getD .errorStream) ∧
      rank (opened.getD .errorStream) ≤ 1 := by
  unfold openFallback at h
  cases hfallback : settings.fallback with
  | none =>
      rw [hfallback] at h
      cases h
      exact ⟨.refl _ _, .of_errorStream hfits, Nat.zero_le _⟩
  | some path =>
      rw [hfallback] at h
      obtain ⟨hkeeps, hready, hrank, -⟩ := openSink_ready hfits (.inr hfallback.symm) h
      exact ⟨hkeeps, hready, hrank⟩

end LogWriter

end Backlog
