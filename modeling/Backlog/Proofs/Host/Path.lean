import Backlog.Activity.Writer
import Backlog.Service.HealthState
import Mathlib.Tactic.SplitIfs

/-!
# The names of a path

The operations on paths cut a text at its slashes and put texts together.  Whoever walks a path
sees its names only (`Path.names`), and whether it starts at the root.  So each operation is
described by what it does to the names: what is dropped at the end of a path names nothing
(`pieceNames_trim`), a parent has all names but the last (`parent_names`), and a file beside
another one has the same names before its own (`steps_rotatedName`, `names_draftPath`).
-/

namespace Backlog.Path

/-! ## Pieces -/

theorem cut_nil : cut [] = [[]] := by with_unfolding_all rfl

theorem cut_cons (c : Char) (rest : List Char) :
    cut (c :: rest) =
      if c = '/' then [] :: cut rest
      else
        match cut rest with
        | [] => [[c]]
        | piece :: pieces => (c :: piece) :: pieces := by
  with_unfolding_all rfl

theorem cut_slash (rest : List Char) : cut ('/' :: rest) = [] :: cut rest := by
  rw [cut_cons, if_pos rfl]

theorem cut_ne_nil (cs : List Char) : cut cs ≠ [] := by
  cases cs with
  | nil => simp [cut_nil]
  | cons c rest =>
      rw [cut_cons]
      split_ifs
      · simp
      · split <;> simp

theorem cut_cons_of_cut {c : Char} {rest piece : List Char} {pieces : List (List Char)}
    (hc : c ≠ '/') (hrest : cut rest = piece :: pieces) :
    cut (c :: rest) = (c :: piece) :: pieces := by
  rw [cut_cons, if_neg hc, hrest]

theorem cut_append_slash (a b : List Char) : cut (a ++ '/' :: b) = cut a ++ cut b := by
  induction a with
  | nil => simp [cut_nil, cut_slash]
  | cons c a ih =>
      by_cases hc : c = '/'
      · subst hc
        simp [cut_slash, ih]
      · obtain ⟨piece, pieces, ha⟩ := List.exists_cons_of_ne_nil (cut_ne_nil a)
        have hlong : cut (a ++ '/' :: b) = piece :: (pieces ++ cut b) := by rw [ih, ha]; rfl
        rw [List.cons_append, cut_cons_of_cut hc hlong, cut_cons_of_cut hc ha]
        rfl

theorem cut_of_not_mem {cs : List Char} (h : '/' ∉ cs) : cut cs = [cs] := by
  induction cs with
  | nil => exact cut_nil
  | cons c cs ih =>
      have hc : c ≠ '/' := fun hc => h (hc ▸ List.mem_cons_self)
      exact cut_cons_of_cut hc (ih fun hmem => h (List.mem_cons_of_mem _ hmem))

/-- A text is its last piece, with a slash before it and other pieces before the slash, if it
has any. -/
theorem exists_last_piece (cs : List Char) :
    ∃ last, '/' ∉ last ∧ (cs = last ∨ ∃ front, cs = front ++ '/' :: last) := by
  induction cs with
  | nil => exact ⟨[], by simp, .inl rfl⟩
  | cons c cs ih =>
      obtain ⟨last, hlast, rfl | ⟨front, rfl⟩⟩ := ih
      · by_cases hc : c = '/'
        · subst hc
          exact ⟨cs, hlast, .inr ⟨[], rfl⟩⟩
        · refine ⟨c :: cs, ?_, .inl rfl⟩
          intro hmem
          rcases List.mem_cons.1 hmem with h | h
          · exact hc h.symm
          · exact hlast h
      · exact ⟨last, hlast, .inr ⟨c :: front, rfl⟩⟩

/-! ## Names -/

/-- Whether a piece names anything. -/
def IsName (piece : List Char) : Prop := piece ≠ [] ∧ piece ≠ ['.']

instance (piece : List Char) : Decidable (IsName piece) := inferInstanceAs (Decidable (_ ∧ _))

/-- The pieces of a text that name anything. -/
def pieceNames (cs : List Char) : List (List Char) := (cut cs).filter fun piece => IsName piece

theorem names_eq (path : String) : names path = (pieceNames path.toList).map String.ofList := by
  unfold names pieces pieceNames
  rw [List.filter_map]
  refine congrArg (List.map String.ofList) (List.filter_congr fun piece _ => ?_)
  have hempty : String.ofList piece = "" ↔ piece = [] :=
    ⟨fun h => by simpa using congrArg String.toList h, fun h => h ▸ rfl⟩
  have hdot : String.ofList piece = "." ↔ piece = ['.'] :=
    ⟨fun h => by simpa using congrArg String.toList h, fun h => h ▸ rfl⟩
  exact decide_eq_decide.2 (and_congr (not_congr hempty) (not_congr hdot))

theorem pieceNames_append_slash (a b : List Char) :
    pieceNames (a ++ '/' :: b) = pieceNames a ++ pieceNames b := by
  simp [pieceNames, cut_append_slash]

theorem pieceNames_of_name {cs : List Char} (h : '/' ∉ cs) (hname : IsName cs) :
    pieceNames cs = [cs] := by
  simp [pieceNames, cut_of_not_mem h, hname]

theorem pieceNames_nil : pieceNames [] = [] := by simp [pieceNames, cut_nil, IsName]

theorem pieceNames_dot : pieceNames ['.'] = [] := by
  simp [pieceNames, cut_of_not_mem (show '/' ∉ ['.'] by decide), IsName]

/-- The names of a path with another one that is its last name. -/
theorem pieceNames_concat {front name : List Char} (h : '/' ∉ name) (hname : IsName name) :
    pieceNames (front ++ '/' :: name) = pieceNames front ++ [name] := by
  rw [pieceNames_append_slash, pieceNames_of_name h hname]

/-! ## The end of a path -/

/-- What is dropped at the end of a path names nothing. -/
theorem pieceNames_trim (cs : List Char) :
    pieceNames (trimReversed cs).reverse = pieceNames cs.reverse := by
  fun_induction trimReversed cs with
  | case1 c rest ih =>
      have hsplit : ('/' :: c :: rest).reverse = (c :: rest).reverse ++ '/' :: [] := by simp
      rw [ih, hsplit, pieceNames_append_slash, pieceNames_nil, List.append_nil]
  | case2 c rest ih =>
      have hsplit : ('.' :: '/' :: c :: rest).reverse = (c :: rest).reverse ++ '/' :: ['.'] := by
        simp
      rw [ih, hsplit, pieceNames_append_slash, pieceNames_dot, List.append_nil]
  | case3 => decide +kernel
  | case4 => rfl

theorem trimReversed_suffix (cs : List Char) : trimReversed cs <:+ cs := by
  fun_induction trimReversed cs with
  | case1 c rest ih => exact ih.trans (List.suffix_cons _ _)
  | case2 c rest ih => exact ih.trans ((List.suffix_cons _ _).trans (List.suffix_cons _ _))
  | case3 => exact List.suffix_cons _ _
  | case4 => exact List.suffix_refl _

theorem getLast?_trimReversed (cs : List Char) : (trimReversed cs).getLast? = cs.getLast? := by
  fun_induction trimReversed cs with
  | case1 c rest ih => rw [ih]; simp
  | case2 c rest ih => rw [ih]; simp
  | case3 => rfl
  | case4 => rfl

/-- What is left of a path that names something ends in its last name. -/
theorem trim_ends_in_name (cs : List Char) (hnames : pieceNames cs.reverse ≠ []) :
    ∃ name, '/' ∉ name ∧ IsName name ∧
      ((trimReversed cs).reverse = name ∨
        ∃ front, (trimReversed cs).reverse = front ++ '/' :: name) := by
  fun_induction trimReversed cs with
  | case1 c rest ih =>
      refine ih ?_
      rwa [← pieceNames_trim, trimReversed, pieceNames_trim] at hnames
  | case2 c rest ih =>
      refine ih ?_
      rwa [← pieceNames_trim, trimReversed, pieceNames_trim] at hnames
  | case3 => exact absurd (by decide +kernel) hnames
  | case4 cs hslash hdot hroot =>
      obtain ⟨last, hlast, hcs⟩ := exists_last_piece cs.reverse
      have hback (front : List Char) (h : cs.reverse = front ++ '/' :: last) :
          cs = last.reverse ++ '/' :: front.reverse := by
        rw [← List.reverse_reverse cs, h]
        simp
      have hname : IsName last := by
        refine ⟨?_, ?_⟩
        · rintro rfl
          rcases hcs with hcs | ⟨front, hcs⟩
          · exact hnames (by rw [hcs, pieceNames_nil])
          · cases hfront : front.reverse with
            | nil =>
                refine hnames ?_
                rw [hcs, List.reverse_eq_nil_iff.1 hfront, pieceNames_append_slash, pieceNames_nil]
                rfl
            | cons c rest => exact hslash c rest (by rw [hback front hcs, hfront]; rfl)
        · rintro rfl
          rcases hcs with hcs | ⟨front, hcs⟩
          · exact hnames (by rw [hcs, pieceNames_dot])
          · cases hfront : front.reverse with
            | nil => exact hroot (by rw [hback front hcs, hfront]; rfl)
            | cons c rest => exact hdot c rest (by rw [hback front hcs, hfront]; rfl)
      exact ⟨last, hlast, hname, hcs⟩

/-! ## What stands before a name -/

/-- A text that a name can follow: nothing, or something with a slash at its end. -/
def IsLead (lead : List Char) : Prop := lead = [] ∨ ∃ front, lead = front ++ ['/']

/-- The pieces of a text that are not empty. -/
def pieceSteps (cs : List Char) : List (List Char) := (cut cs).filter (· ≠ [])

theorem steps_eq (path : String) : steps path = (pieceSteps path.toList).map String.ofList := by
  unfold steps pieces pieceSteps
  rw [List.filter_map]
  refine congrArg (List.map String.ofList) (List.filter_congr fun piece _ => ?_)
  have hempty : String.ofList piece = "" ↔ piece = [] :=
    ⟨fun h => by simpa using congrArg String.toList h, fun h => h ▸ rfl⟩
  exact decide_eq_decide.2 (not_congr hempty)

/-- A path names what its steps do, apart from dots. -/
theorem names_eq_filter_steps (path : String) :
    names path = (steps path).filter fun step => step ≠ "." := by
  simp [names, steps, List.filter_filter, Bool.and_comm]

theorem IsLead.pieceSteps_append {lead name : List Char} (hlead : IsLead lead)
    (hslash : '/' ∉ name) (hne : name ≠ []) :
    pieceSteps (lead ++ name) = pieceSteps lead ++ [name] := by
  have hname : pieceSteps name = [name] := by simp [pieceSteps, cut_of_not_mem hslash, hne]
  have hnil : pieceSteps [] = [] := by simp [pieceSteps, cut_nil]
  have happend (a b : List Char) : pieceSteps (a ++ '/' :: b) = pieceSteps a ++ pieceSteps b := by
    simp [pieceSteps, cut_append_slash]
  rcases hlead with rfl | ⟨front, rfl⟩
  · rw [List.nil_append, hname, hnil, List.nil_append]
  · rw [List.append_assoc, List.singleton_append, happend, happend, hname, hnil, List.append_nil]

theorem IsLead.pieceNames_append {lead name : List Char} (hlead : IsLead lead)
    (hslash : '/' ∉ name) (hname : IsName name) :
    pieceNames (lead ++ name) = pieceNames lead ++ [name] := by
  rcases hlead with rfl | ⟨front, rfl⟩
  · rw [List.nil_append, pieceNames_of_name hslash hname, pieceNames_nil, List.nil_append]
  · rw [List.append_assoc, List.singleton_append, pieceNames_concat hslash hname,
      pieceNames_append_slash, pieceNames_nil, List.append_nil]

section

variable {path name : String} {front : List String}

/-- A path without its end is its last name behind what stands before it. -/
theorem trimmed_eq (h : names path = front ++ [name]) :
    '/' ∉ name.toList ∧ IsName name.toList ∧
      ∃ lead, IsLead lead ∧ (trimmed path).toList = lead ++ name.toList ∧
        (pieceNames lead).map String.ofList = front := by
  have htrimmed : (trimmed path).toList = (trimReversed path.toList.reverse).reverse := by
    simp [trimmed]
  have hnames : (pieceNames (trimmed path).toList).map String.ofList = front ++ [name] := by
    rw [htrimmed, pieceNames_trim, List.reverse_reverse, ← names_eq, h]
  have hne : pieceNames path.toList.reverse.reverse ≠ [] := by
    intro hempty
    rw [htrimmed, pieceNames_trim, hempty] at hnames
    simp at hnames
  obtain ⟨last, hslash, hname, hshape⟩ := trim_ends_in_name _ hne
  have hlead : ∃ lead, IsLead lead ∧ (trimmed path).toList = lead ++ last := by
    rw [htrimmed]
    rcases hshape with hshape | ⟨front, hshape⟩
    · exact ⟨[], .inl rfl, hshape⟩
    · exact ⟨front ++ ['/'], .inr ⟨front, rfl⟩, by rw [hshape]; simp⟩
  obtain ⟨lead, hlead, heq⟩ := hlead
  rw [heq, hlead.pieceNames_append hslash hname, List.map_append] at hnames
  obtain ⟨hfront, hlast⟩ := List.append_inj' hnames rfl
  obtain rfl : String.ofList last = name := (List.cons.inj hlast).1
  rw [String.toList_ofList]
  exact ⟨hslash, hname, lead, hlead, heq, hfront⟩

theorem trimmed_isPart (path : String) : (trimmed path).toList <+: path.toList := by
  have h := List.reverse_prefix.2 (trimReversed_suffix path.toList.reverse)
  rw [List.reverse_reverse] at h
  simpa [trimmed] using h

theorem last?_eq (h : names path = front ++ [name]) : last? path = some name := by
  obtain ⟨hslash, hname, lead, hlead, heq, -⟩ := trimmed_eq h
  have hpieces : (pieces (trimmed path)).getLast? = some name := by
    unfold pieces
    rw [heq]
    rcases hlead with rfl | ⟨front, rfl⟩
    · simp [cut_of_not_mem hslash]
    · rw [List.append_assoc, List.singleton_append, cut_append_slash, cut_of_not_mem hslash]
      simp
  unfold last?
  rw [if_neg (by simp [h]), hpieces]

/-- What stands before the last name is a part of the path, and empty only where the path is
relative. -/
theorem isAbsolute_of_trimmed {lead : List Char} (hslash : '/' ∉ name.toList)
    (heq : (trimmed path).toList = lead ++ name.toList) (hname : name.toList ≠ []) :
    isAbsolute path = (lead.head? == some '/') := by
  have hhead : path.toList.head? = (lead ++ name.toList).head? := by
    rw [← heq, ← List.getLast?_reverse, ← getLast?_trimReversed, ← List.head?_reverse]
    simp [trimmed]
  rw [isAbsolute, hhead]
  cases lead with
  | cons c lead => rfl
  | nil =>
      obtain ⟨c, rest, hcons⟩ := List.exists_cons_of_ne_nil hname
      have hc : c ≠ '/' := fun hc => hslash (by rw [hcons, hc]; exact List.mem_cons_self)
      simp [hcons, hc]

/-- The parent of a path has all of its names but the last. -/
theorem parent_names (h : names path = front ++ [name]) :
    ∃ up, parent? path = some up ∧ names up = front ∧ up.toList <+: path.toList ∧
      up.length < path.length ∧ (up = "" → isAbsolute path = false) := by
  obtain ⟨hslash, hname, lead, hlead, heq, hfront⟩ := trimmed_eq h
  have hdrop : (trimmed path).toList.reverse.drop name.length = lead.reverse := by
    rw [heq, List.reverse_append, ← String.length_toList, ← List.length_reverse]
    exact List.drop_left
  have hlast : (trimReversed lead.reverse).getLast? = lead.head? := by
    rw [getLast?_trimReversed, List.getLast?_reverse]
  have hup : (trimReversed lead.reverse).reverse <+: lead := by
    simpa using List.reverse_prefix.2 (trimReversed_suffix lead.reverse)
  have hpath : lead ++ name.toList <+: path.toList := heq ▸ trimmed_isPart path
  refine ⟨String.ofList (trimReversed lead.reverse).reverse, ?_, ?_, ?_, ?_, ?_⟩
  · rw [parent?, last?_eq h]
    simp only [hdrop]
  · rw [names_eq, String.toList_ofList, pieceNames_trim, List.reverse_reverse, hfront]
  · rw [String.toList_ofList]
    exact hup.trans ((List.prefix_append _ _).trans hpath)
  · have hne : 0 < name.toList.length := List.length_pos_iff.2 hname.1
    have hle := hup.length_le
    have hle' := hpath.length_le
    rw [List.length_append] at hle'
    rw [← String.length_toList, ← String.length_toList, String.toList_ofList]
    omega
  · intro hempty
    have hnil : trimReversed lead.reverse = [] := by
      simpa using congrArg String.toList hempty
    rw [hnil] at hlast
    rw [isAbsolute_of_trimmed hslash heq hname.1, ← hlast]
    rfl

/-! ## Files beside a path -/

theorem toList_rotatedName (path : String) (number : Nat) :
    (LogWriter.rotatedName path number).toList = path.toList ++ '.' :: Nat.toDigits 10 number := by
  simp [LogWriter.rotatedName]

theorem slash_notMem_ending (number : Nat) : '/' ∉ '.' :: Nat.toDigits 10 number := by
  intro hmem
  rcases List.mem_cons.1 hmem with h | h
  · cases h
  · have hdigit := Nat.isDigit_of_mem_toDigits (by omega) (by omega) h
    revert hdigit
    decide

theorem nul_notMem_ending (number : Nat) : '\x00' ∉ '.' :: Nat.toDigits 10 number := by
  intro hmem
  rcases List.mem_cons.1 hmem with h | h
  · cases h
  · have hdigit := Nat.isDigit_of_mem_toDigits (by omega) (by omega) h
    revert hdigit
    decide

theorem getLast?_rotatedName (path : String) (number : Nat) :
    ∃ c, c.isDigit = true ∧ (LogWriter.rotatedName path number).toList.getLast? = some c := by
  have hne : Nat.toDigits 10 number ≠ [] := Nat.toDigits_ne_nil
  refine ⟨(Nat.toDigits 10 number).getLast hne, ?_, ?_⟩
  · exact Nat.isDigit_of_mem_toDigits (by omega) (by omega) (List.getLast_mem hne)
  · rw [toList_rotatedName, List.getLast?_append, List.getLast?_cons,
      List.getLast?_eq_some_getLast hne]
    rfl

theorem endsInSlash_rotatedName (path : String) (number : Nat) :
    endsInSlash (LogWriter.rotatedName path number) = false := by
  obtain ⟨c, hdigit, hlast⟩ := getLast?_rotatedName path number
  have hc : c ≠ '/' := by
    rintro rfl
    cases hdigit
  simp [endsInSlash, hlast, hc]

theorem isAbsolute_rotatedName (hne : path ≠ "") (number : Nat) :
    isAbsolute (LogWriter.rotatedName path number) = isAbsolute path := by
  obtain ⟨c, rest, hcons⟩ := List.exists_cons_of_ne_nil (l := path.toList) (by simpa using hne)
  rw [isAbsolute, isAbsolute, toList_rotatedName, hcons]
  rfl

theorem rotatedName_ne_dots (name : String) (number : Nat) :
    LogWriter.rotatedName name number ≠ "." ∧ LogWriter.rotatedName name number ≠ ".." := by
  obtain ⟨c, hdigit, hlast⟩ := getLast?_rotatedName name number
  have hc : c ≠ '.' := by
    rintro rfl
    cases hdigit
  refine ⟨?_, ?_⟩
  · intro h
    rw [h] at hlast
    exact hc (Option.some.inj hlast).symm
  · intro h
    rw [h] at hlast
    exact hc (Option.some.inj hlast).symm

/-- A file that was put aside lies beside the file. -/
theorem steps_rotatedName (h : steps path = front ++ [name]) (hslash : endsInSlash path = false)
    (number : Nat) :
    steps (LogWriter.rotatedName path number) = front ++ [LogWriter.rotatedName name number] := by
  obtain ⟨last, hlast, hpath⟩ := exists_last_piece path.toList
  have hlead : ∃ lead, IsLead lead ∧ path.toList = lead ++ last := by
    rcases hpath with hpath | ⟨before, hpath⟩
    · exact ⟨[], .inl rfl, hpath⟩
    · exact ⟨before ++ ['/'], .inr ⟨before, rfl⟩, by rw [hpath]; simp⟩
  obtain ⟨lead, hlead, hpath⟩ := hlead
  have hne : last ≠ [] := by
    rintro rfl
    rcases hlead with rfl | ⟨before, rfl⟩
    · rw [steps_eq, hpath] at h
      simp [pieceSteps, cut_nil] at h
    · simp [endsInSlash, hpath] at hslash
  rw [steps_eq, hpath, hlead.pieceSteps_append hlast hne, List.map_append] at h
  obtain ⟨hfront, hname⟩ := List.append_inj' h rfl
  obtain rfl : String.ofList last = name := (List.cons.inj hname).1
  have hlong : '/' ∉ last ++ '.' :: Nat.toDigits 10 number := by
    rw [List.mem_append, not_or]
    exact ⟨hlast, slash_notMem_ending number⟩
  have hrotated : LogWriter.rotatedName (String.ofList last) number =
      String.ofList (last ++ '.' :: Nat.toDigits 10 number) := by
    rw [← String.toList_inj, toList_rotatedName, String.toList_ofList, String.toList_ofList]
  rw [steps_eq, toList_rotatedName, hpath, List.append_assoc,
    hlead.pieceSteps_append hlong (by simp), List.map_append, hfront, hrotated]
  rfl

theorem rotatedName_inj {a b : Nat}
    (h : LogWriter.rotatedName name a = LogWriter.rotatedName name b) : a = b := by
  have hdigits := congrArg String.toList h
  rw [toList_rotatedName, toList_rotatedName] at hdigits
  have hsame : Nat.toDigits 10 a = Nat.toDigits 10 b := by
    simpa using hdigits
  calc
    a = Nat.ofDigitChars 10 (Nat.toDigits 10 a) 0 := Nat.ofDigitChars_ten_toDigits.symm
    _ = Nat.ofDigitChars 10 (Nat.toDigits 10 b) 0 := by rw [hsame]
    _ = b := Nat.ofDigitChars_ten_toDigits

theorem rotatedName_ne (name : String) (number : Nat) :
    LogWriter.rotatedName name number ≠ name := by
  intro h
  have hlength := congrArg (fun text => text.toList.length) h
  simp [toList_rotatedName] at hlength

theorem stem_isPart (name : String) : (stem name).toList <+: name.toList := by
  unfold stem
  dsimp only
  split
  · exact List.prefix_refl _
  · exact List.prefix_refl _
  · rename_i c front _ h
    have hsuffix : front <:+ name.toList.reverse := by
      have hdrop := List.dropWhile_suffix (l := name.toList.reverse) fun c => decide (c ≠ '.')
      rw [h] at hdrop
      exact (List.suffix_cons _ _).trans hdrop
    simpa using List.reverse_prefix.2 hsuffix

theorem stem_append (a : String) (ha : a ≠ "") : stem (a ++ ".tmp") = a := by
  obtain ⟨c, rest, hcons⟩ := List.exists_cons_of_ne_nil (l := a.toList.reverse)
    (by simpa using ha)
  have hreversed : (a ++ ".tmp").toList.reverse = 'p' :: 'm' :: 't' :: '.' :: c :: rest := by
    simp [hcons]
  have hdrop : (a ++ ".tmp").toList.reverse.dropWhile (fun c => decide (c ≠ '.')) =
      '.' :: c :: rest := by
    rw [hreversed]
    simp [List.dropWhile]
  unfold stem
  simp only [hdrop]
  rw [← hcons]
  simp

/-- A draft lies beside its file, under another name.  It takes its name from the file, unless
only dots would be left of that. -/
theorem draft_names (h : names path = front ++ [name]) (hup : name ≠ "..") :
    ∃ (lead : List Char) (last : String), IsLead lead ∧
      (trimmed path).toList = lead ++ name.toList ∧
      (pieceNames lead).map String.ofList = front ∧
      (HealthState.draftPath path).toList = lead ++ last.toList ∧ '/' ∉ last.toList ∧
      IsName last.toList ∧ last ≠ name := by
  obtain ⟨hslash, hname, lead, hlead, heq, hfront⟩ := trimmed_eq h
  have hfile : fileName? path = some name := by simp [fileName?, h, hup]
  have hdrop : String.ofList ((trimmed path).toList.reverse.drop name.length).reverse =
      String.ofList lead := by
    rw [heq, List.reverse_append, ← String.length_toList, ← List.length_reverse, List.drop_left,
      List.reverse_reverse]
  have hdraft : HealthState.draftPath path =
      if stem name = "." ∧ trimmed path = path then String.ofList lead ++ ".."
      else String.ofList lead ++ stem name ++ "." ++ "json.tmp" := by
    unfold HealthState.draftPath withExtension
    rw [hfile]
    simp only [hdrop]
  by_cases hdots : stem name = "." ∧ trimmed path = path
  · -- with its dots alone the draft goes back, which a file name never does
    rw [if_pos hdots] at hdraft
    refine ⟨lead, "..", hlead, heq, hfront, ?_, by decide, by decide, hup.symm⟩
    rw [hdraft]
    simp
  · rw [if_neg hdots] at hdraft
    refine ⟨lead, stem name ++ ".json.tmp", hlead, heq, hfront, ?_, ?_, ?_, ?_⟩
    · rw [hdraft]
      simp
    · have hstem : '/' ∉ (stem name).toList := fun hmem => hslash ((stem_isPart name).subset hmem)
      simp [hstem]
    · refine ⟨?_, ?_⟩
      · simp
      · intro hdot
        have hlength := congrArg List.length hdot
        simp at hlength
    · -- to drop the last ending would leave the one before
      intro hsame
      have hparts : stem name ++ ".json.tmp" = stem name ++ ".json" ++ ".tmp" := by
        rw [String.append_assoc]
        rfl
      have hstem : stem name = stem name ++ ".json" :=
        calc
          stem name = stem (stem name ++ ".json" ++ ".tmp") := by rw [← hparts, hsame]
          _ = stem name ++ ".json" := stem_append _ (by simp)
      have hlength := congrArg (fun text => text.toList.length) hstem
      simp at hlength

theorem names_of_fileName? (h : fileName? path = some name) :
    ∃ front, names path = front ++ [name] ∧ name ≠ ".." := by
  unfold fileName? at h
  rcases List.eq_nil_or_concat (names path) with hnil | ⟨front, last, hnames⟩
  · rw [hnil] at h
    cases h
  · rw [List.concat_eq_append] at hnames
    rw [hnames, List.getLast?_concat] at h
    dsimp only at h
    split_ifs at h with hup
    cases h
    exact ⟨front, hnames, hup⟩

/-- A draft is in the directory of its file, and has another name there. -/
theorem names_draftPath (h : names path = front ++ [name]) (hup : name ≠ "..") :
    ∃ last, last ≠ name ∧ names (HealthState.draftPath path) = front ++ [last] ∧
      isAbsolute (HealthState.draftPath path) = isAbsolute path := by
  obtain ⟨lead, last, hlead, htrimmed, hfront, hdraft, hslash, hname, hne⟩ := draft_names h hup
  obtain ⟨hslash', hname', -⟩ := trimmed_eq h
  refine ⟨last, hne, ?_, ?_⟩
  · rw [names_eq, hdraft, hlead.pieceNames_append hslash hname, List.map_append, hfront]
    simp
  · rw [isAbsolute_of_trimmed hslash' htrimmed hname'.1, isAbsolute, hdraft]
    cases lead with
    | cons c lead => rfl
    | nil =>
        obtain ⟨c, rest, hcons⟩ := List.exists_cons_of_ne_nil hname.1
        have hc : c ≠ '/' := fun hc => hslash (by rw [hcons, hc]; exact List.mem_cons_self)
        simp [hcons, hc]

end

end Backlog.Path
