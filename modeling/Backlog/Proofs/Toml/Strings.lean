import Backlog.Toml.Quoted
import Backlog.Toml.Reader

/-!
# Strings that were written

A string is read as itself, whichever of its forms it was written in (`readString_append`).
Between three quotes on each side some quotes may stand unescaped.  The reader looks ahead for
the three that end the string, so all depends on how many quotes stand in a row
(`closing?_append`): never more than two, by the choice of the form or by the escapes.
-/

namespace Backlog.Toml

variable {c quote : Char} {cs rest more : List Char} {fuel : Nat}

/-! ## Quotes in a row -/

theorem longestRun_mono {q q' : Nat} (h : q ≤ q') :
    longestRun quote q cs ≤ longestRun quote q' cs := by
  induction cs generalizing q q' with
  | nil => exact h
  | cons d rest ih =>
      rw [longestRun, longestRun]
      split
      · exact ih (by omega)
      · omega

/-- What is left of a text has no longer runs than the text. -/
theorem longestRun_tail (quote d : Char) (cs : List Char) (q : Nat) :
    longestRun quote 0 cs ≤ longestRun quote q (d :: cs) := by
  rw [longestRun]
  split
  · exact longestRun_mono (Nat.zero_le _)
  · exact Nat.le_max_right _ _

theorem length_takeWhile_le_longestRun (quote : Char) (cs : List Char) (q : Nat) :
    q + (cs.takeWhile (· == quote)).length ≤ longestRun quote q cs := by
  induction cs generalizing q with
  | nil => exact Nat.le_refl _
  | cons d rest ih =>
      rw [longestRun, List.takeWhile_cons]
      by_cases hd : d = quote
      · have hrest := ih (q + 1)
        rw [if_pos hd, if_pos (by simpa using hd), List.length_cons]
        omega
      · rw [if_neg hd, if_neg (by simpa using hd), List.length_nil]
        exact Nat.le_max_left _ _

theorem ne_of_longestRun_eq_zero (h : longestRun quote 0 cs = 0) : ∀ c ∈ cs, c ≠ quote := by
  induction cs with
  | nil => exact fun _ hmem => absurd hmem List.not_mem_nil
  | cons d rest ih =>
      have htail := longestRun_tail quote d rest 0
      have hhead := length_takeWhile_le_longestRun quote (d :: rest) 0
      refine List.forall_mem_cons.2 ⟨?_, ih (by omega)⟩
      rintro rfl
      simp only [List.takeWhile_cons, beq_self_eq_true, if_true, List.length_cons] at hhead
      omega

/-- The quotes that the reader sees ahead of it. -/
theorem takeWhile_replicate (k : Nat) (hrest : rest.head? ≠ some quote) :
    (List.replicate k quote ++ rest).takeWhile (· == quote) = List.replicate k quote := by
  rw [List.takeWhile_append_of_pos fun d hd => by simpa using List.eq_of_mem_replicate hd]
  cases rest with
  | nil => rw [List.takeWhile_nil, List.append_nil]
  | cons c more =>
      have hc : ¬c = quote := by simpa using hrest
      rw [List.takeWhile_cons, if_neg (by simpa using hc), List.append_nil]

/-- A string ends where three quotes follow, and up to two more before them belong to it. -/
theorem closing?_replicate {k : Nat} (hk : k ≤ 2) (hrest : rest.head? ≠ some quote) :
    closing? quote (List.replicate k quote ++ (triple quote ++ rest)) =
      some (List.replicate k quote, rest) := by
  have hquotes : List.replicate k quote ++ (triple quote ++ rest) =
      List.replicate (k + 3) quote ++ rest := by
    rw [← List.replicate_append_replicate, List.append_assoc]
    rfl
  have hextra : min (k + 3 - 3) 2 = k := by omega
  have hdrop : 3 + k = (List.replicate (k + 3) quote).length := by
    rw [List.length_replicate]
    omega
  unfold closing?
  simp only [hquotes, takeWhile_replicate _ hrest, List.length_replicate, hextra]
  rw [if_neg (by omega), hdrop, List.drop_left]

/-- A string goes on where at most two quotes follow. -/
theorem closing?_of_few {k : Nat} (hk : k ≤ 2) (hrest : rest.head? ≠ some quote) :
    closing? quote (List.replicate k quote ++ rest) = none := by
  unfold closing?
  simp only [takeWhile_replicate _ hrest, List.length_replicate]
  exact if_pos (by omega)

/-- A string ends where there is nothing but quotes before the end, and goes on elsewhere. -/
theorem closing?_append (cs : List Char) (hk : (cs.takeWhile (· == quote)).length ≤ 2)
    (hrest : rest.head? ≠ some quote) :
    (∀ c ∈ cs, c = quote) ∧ closing? quote (cs ++ (triple quote ++ rest)) = some (cs, rest) ∨
      closing? quote (cs ++ (triple quote ++ rest)) = none := by
  by_cases hall : ∀ c ∈ cs, c = quote
  · refine .inl ⟨hall, ?_⟩
    obtain ⟨k, rfl⟩ : ∃ k, cs = List.replicate k quote := ⟨_, List.eq_replicate_of_mem hall⟩
    have hquotes : (List.replicate k quote ++ []).takeWhile (· == quote) =
        List.replicate k quote := takeWhile_replicate k nofun
    rw [List.append_nil] at hquotes
    rw [hquotes, List.length_replicate] at hk
    exact closing?_replicate hk hrest
  · right
    have hquotes : cs.takeWhile (· == quote) =
        List.replicate (cs.takeWhile (· == quote)).length quote :=
      List.eq_replicate_of_mem fun d hd => by
        simpa using List.all_eq_true.1 List.all_takeWhile d hd
    have hsplit := List.takeWhile_append_dropWhile (p := (· == quote)) (l := cs)
    have hhead := List.head?_dropWhile_not (· == quote) cs
    rw [hquotes] at hsplit
    rw [← hsplit, List.append_assoc]
    cases hafter : cs.dropWhile (· == quote) with
    | nil =>
        rw [hafter, List.append_nil] at hsplit
        exact absurd (fun c hc => List.eq_of_mem_replicate (hsplit ▸ hc)) hall
    | cons c more =>
        rw [hafter] at hhead
        exact closing?_of_few hk (by simpa using hhead)

/-! ## Characters as they are written -/

/-- How a character other than a double quote is written. -/
def written (isLong : Bool) (c : Char) : List Char :=
  if c = '\x08' then ['\\', 'b']
  else if c = '\t' then ['\\', 't']
  else if c = '\n' then if isLong then ['\n'] else ['\\', 'n']
  else if c = '\x0c' then ['\\', 'f']
  else if c = '\r' then ['\\', 'r']
  else if c = '\\' then ['\\', '\\']
  else if c.toNat < 0x20 || c.toNat == 0x7f then numberEscape c.toNat
  else [c]

theorem escaped_cons {isLong : Bool} {allowed quotes : Nat} (h : c ≠ '\x22') :
    escaped isLong allowed quotes (c :: rest) =
      written isLong c ++ escaped isLong allowed 0 rest := by
  rw [escaped]
  exact if_neg h

theorem hexValue?_upperDigit : ∀ n < 16, Json.hexValue? (upperDigit n) = some n := by
  decide

theorem readEscape_number (h : c.toNat < 0x80) :
    readEscape ('u' :: '0' :: '0' :: upperDigit (c.toNat / 16) :: upperDigit (c.toNat % 16) ::
      rest) = some (c, rest) := by
  have hhigh := hexValue?_upperDigit (c.toNat / 16) (by omega)
  have hlow := hexValue?_upperDigit (c.toNat % 16) (by omega)
  have hzero : Json.hexValue? '0' = some 0 := rfl
  have hvalue : 16 * (16 * (16 * (16 * 0 + 0) + 0) + c.toNat / 16) + c.toNat % 16 = c.toNat := by
    omega
  rw [readEscape, readCodePoint]
  simp only [List.take_succ_cons, List.take_zero, List.mapM_cons, List.mapM_nil, hzero, hhigh,
    hlow, Option.bind_eq_bind, Option.bind_some, Option.pure_def, List.length_cons,
    List.length_nil, List.foldl_cons, List.foldl_nil, hvalue, List.drop_succ_cons, List.drop_zero]
  have hvalid : c.toNat.isValidChar := c.valid
  rw [if_pos trivial, if_pos hvalid, Char.ofNat_toNat]

/-- A character that is written is an escape that stands for it, or itself. -/
inductive IsWritten (isLong : Bool) (c : Char) : List Char → Prop
  | escape {letter : Char} {tail : List Char} (hws : isWs letter = false)
      (hbreak : letter ≠ '\n' ∧ letter ≠ '\r')
      (h : ∀ rest, readEscape (letter :: (tail ++ rest)) = some (c, rest)) :
      IsWritten isLong c ('\\' :: letter :: tail)
  | itself (hslash : c ≠ '\\') (h : isPlain c = true ∨ isLong = true ∧ c = '\n') :
      IsWritten isLong c [c]

theorem isWritten_written (isLong : Bool) (c : Char) :
    IsWritten isLong c (written isLong c) := by
  unfold written
  -- the characters that have an escape of their own come first
  iterate 2
    split
    · subst c
      exact .escape rfl (by decide) fun rest => rfl
  split
  · subst c
    cases isLong with
    | true => exact .itself (by decide) (.inr ⟨rfl, rfl⟩)
    | false => exact .escape rfl (by decide) fun rest => rfl
  iterate 3
    split
    · subst c
      exact .escape rfl (by decide) fun rest => rfl
  split
  · rename_i hcontrol
    have hlt : c.toNat < 0x80 := by
      rw [Bool.or_eq_true, decide_eq_true_eq, beq_iff_eq] at hcontrol
      omega
    exact .escape rfl (by decide) fun rest => readEscape_number hlt
  · rename_i hslash hcontrol
    refine .itself hslash (.inl ?_)
    simp only [isPlain]
    simp at hcontrol ⊢
    omega

/-! ## Strings on one line -/

/-- A character in front of what was read. -/
def prepend (c : Char) (read : List Char × List Char) : List Char × List Char :=
  (c :: read.1, read.2)

theorem readBasic_escape (h : readEscape rest = some (c, more)) :
    readBasic (fuel + 1) ('\\' :: rest) = (readBasic fuel more).map (prepend c) := by
  rw [readBasic]
  simp only [h, Option.bind_eq_bind, Option.bind_some]
  cases readBasic fuel more <;> rfl

theorem readBasic_plain (hquote : c ≠ '\x22') (hslash : c ≠ '\\') (hplain : isPlain c = true) :
    readBasic (fuel + 1) (c :: rest) = (readBasic fuel rest).map (prepend c) := by
  rw [readBasic]
  · rw [if_pos hplain]
    cases readBasic fuel rest <;> rfl
  · exact hquote
  · exact hslash

theorem readBasic_written (hquote : c ≠ '\x22') :
    readBasic (fuel + 1) (written false c ++ rest) = (readBasic fuel rest).map (prepend c) := by
  have hwritten := isWritten_written false c
  generalize written false c = chars at hwritten ⊢
  cases hwritten with
  | escape hws hbreak h => exact readBasic_escape (h rest)
  | itself hslash h =>
      obtain hplain | ⟨hlong, -⟩ := h
      · exact readBasic_plain hquote hslash hplain
      · cases hlong

theorem readBasic_escaped (q : Nat) (hfuel : cs.length < fuel) :
    readBasic fuel (escaped false 0 q cs ++ '\x22' :: rest) = some (cs, rest) := by
  induction cs generalizing fuel q with
  | nil =>
      obtain ⟨fuel, rfl⟩ := Nat.exists_eq_add_of_lt hfuel
      rfl
  | cons c cs ih =>
      rw [List.length_cons] at hfuel
      obtain ⟨fuel, rfl⟩ : ∃ less, fuel = less + 1 := ⟨fuel - 1, by omega⟩
      have hread : readBasic fuel (escaped false 0 0 cs ++ '\x22' :: rest) = some (cs, rest) :=
        ih 0 (by omega)
      by_cases hquote : c = '\x22'
      · subst hquote
        rw [escaped, if_pos rfl, if_neg (Nat.not_lt_zero q), List.cons_append, List.cons_append,
          readBasic_escape rfl, hread]
        rfl
      · rw [escaped_cons hquote, List.append_assoc, readBasic_written hquote, hread]
        rfl

theorem readLiteral_append (h : ∀ c ∈ cs, c ≠ '\x27' ∧ isPlain c = true) :
    readLiteral (cs ++ '\x27' :: rest) = some (cs, rest) := by
  induction cs with
  | nil => rfl
  | cons c cs ih =>
      obtain ⟨⟨hquote, hplain⟩, hcs⟩ := List.forall_mem_cons.1 h
      rw [List.cons_append, readLiteral.eq_def]
      split
      · rename_i heq
        exact absurd (List.cons.inj heq).1 hquote
      · rename_i heq
        cases heq
        rw [if_pos hplain, ih hcs]
        rfl
      · rename_i heq
        cases heq

/-! ## Strings over several lines -/

theorem readLongLiteral_plain (hclose : closing? '\x27' (c :: rest) = none)
    (hplain : isPlain c = true ∨ c = '\n') :
    readLongLiteral (fuel + 1) (c :: rest) = (readLongLiteral fuel rest).map (prepend c) := by
  rw [readLongLiteral]
  simp only [hclose]
  by_cases h : isPlain c = true
  · rw [if_pos h]
    cases readLongLiteral fuel rest <;> rfl
  · obtain rfl := hplain.resolve_left h
    rw [if_neg h]
    simp only [newline?, Option.bind_eq_bind, Option.bind_some]
    cases readLongLiteral fuel rest <;> rfl

theorem readLongLiteral_append (hrun : longestRun '\x27' 0 cs ≤ 2)
    (hplain : ∀ c ∈ cs, isPlain c = true ∨ c = '\n') (hrest : rest.head? ≠ some '\x27')
    (hfuel : cs.length < fuel) :
    readLongLiteral fuel (cs ++ (triple '\x27' ++ rest)) = some (cs, rest) := by
  induction cs generalizing fuel with
  | nil =>
      obtain ⟨fuel, rfl⟩ := Nat.exists_eq_add_of_lt hfuel
      have hclose : closing? '\x27' (triple '\x27' ++ rest) = some ([], rest) :=
        closing?_replicate (k := 0) (Nat.zero_le 2) hrest
      simp only [readLongLiteral, List.nil_append, hclose]
  | cons c cs ih =>
      rw [List.length_cons] at hfuel
      obtain ⟨fuel, rfl⟩ : ∃ less, fuel = less + 1 := ⟨fuel - 1, by omega⟩
      obtain ⟨hc, hcs⟩ := List.forall_mem_cons.1 hplain
      have hquotes := length_takeWhile_le_longestRun '\x27' (c :: cs) 0
      rcases closing?_append (c :: cs) (by omega) hrest with ⟨-, hclose⟩ | hclose
      · simp only [readLongLiteral, hclose]
      · rw [List.cons_append] at hclose ⊢
        rw [readLongLiteral_plain hclose hc,
          ih (Nat.le_trans (longestRun_tail _ _ _ 0) hrun) hcs (by omega)]
        rfl

/-- With escapes no more than two quotes stand in a row. -/
theorem length_takeWhile_escaped (cs : List Char) {q : Nat} (hq : q ≤ 2) :
    q + ((escaped true 2 q cs).takeWhile (· == '\x22')).length ≤ 2 := by
  induction cs generalizing q with
  | nil => simpa [escaped] using hq
  | cons c cs ih =>
      by_cases hquote : c = '\x22'
      · subst hquote
        rw [escaped, if_pos rfl]
        split
        · have hrest := ih (q := q + 1) (by omega)
          rw [List.takeWhile_cons, if_pos (beq_self_eq_true _), List.length_cons]
          omega
        · exact hq
      · have hwritten := isWritten_written true c
        rw [escaped_cons hquote]
        generalize written true c = chars at hwritten ⊢
        cases hwritten with
        | escape hws hbreak h => exact hq
        | itself hslash h =>
            rw [List.cons_append, List.takeWhile_cons, if_neg (by simpa using hquote)]
            exact hq

/-- A text that is written as nothing but quotes is these quotes. -/
theorem eq_of_escaped {q : Nat} (h : ∀ c ∈ escaped true 2 q cs, c = '\x22') :
    escaped true 2 q cs = cs := by
  induction cs generalizing q with
  | nil => rfl
  | cons c cs ih =>
      by_cases hquote : c = '\x22'
      · subst hquote
        rw [escaped, if_pos rfl] at h ⊢
        split at h
        · rename_i hq
          rw [if_pos hq, ih (List.forall_mem_cons.1 h).2]
        · exact absurd (h '\\' List.mem_cons_self) (by decide)
      · have hwritten := isWritten_written true c
        rw [escaped_cons hquote] at h
        generalize written true c = chars at hwritten h
        cases hwritten with
        | escape hws hbreak h' => exact absurd (h '\\' List.mem_cons_self) (by decide)
        | itself hslash h' => exact absurd (h c List.mem_cons_self) hquote

theorem newline?_eq_none (hbreak : c ≠ '\n' ∧ c ≠ '\r') : newline? (c :: rest) = none := by
  unfold newline?
  split
  · rename_i heq
    exact absurd (List.cons.inj heq).1 hbreak.1
  · rename_i heq
    exact absurd (List.cons.inj heq).1 hbreak.2
  · rfl

theorem skipEscapedBreak_eq_none (hws : isWs c = false) (hbreak : c ≠ '\n' ∧ c ≠ '\r') :
    skipEscapedBreak fuel (c :: rest) = none := by
  have hskip : skipWs (c :: rest) = c :: rest := List.dropWhile_cons_of_neg (by simp [hws])
  rw [skipEscapedBreak, hskip, newline?_eq_none hbreak]
  rfl

theorem readLongBasic_escape (hbreak : skipEscapedBreak fuel rest = none)
    (h : readEscape rest = some (c, more)) :
    readLongBasic (fuel + 1) ('\\' :: rest) = (readLongBasic fuel more).map (prepend c) := by
  have hclose : closing? '\x22' ('\\' :: rest) = none :=
    closing?_of_few (k := 0) (Nat.zero_le 2) (by simp)
  rw [readLongBasic]
  simp only [hclose, hbreak, h, Option.bind_eq_bind, Option.bind_some]
  cases readLongBasic fuel more <;> rfl

theorem readLongBasic_plain (hclose : closing? '\x22' (c :: rest) = none) (hslash : c ≠ '\\')
    (hplain : isPlain c = true ∨ c = '\n') :
    readLongBasic (fuel + 1) (c :: rest) = (readLongBasic fuel rest).map (prepend c) := by
  rw [readLongBasic]
  · simp only [hclose]
    by_cases h : isPlain c = true
    · rw [if_pos h]
      cases readLongBasic fuel rest <;> rfl
    · obtain rfl := hplain.resolve_left h
      rw [if_neg h]
      simp only [newline?, Option.bind_eq_bind, Option.bind_some]
      cases readLongBasic fuel rest <;> rfl
  · exact hslash

theorem readLongBasic_written (hclose : closing? '\x22' (written true c ++ rest) = none) :
    readLongBasic (fuel + 1) (written true c ++ rest) =
      (readLongBasic fuel rest).map (prepend c) := by
  have hwritten := isWritten_written true c
  generalize written true c = chars at hwritten hclose ⊢
  cases hwritten with
  | escape hws hbreak h =>
      exact readLongBasic_escape (skipEscapedBreak_eq_none hws hbreak) (h rest)
  | itself hslash h => exact readLongBasic_plain hclose hslash (h.imp_right (·.2))

theorem readLongBasic_escaped {q : Nat} (hq : q ≤ 2) (hrest : rest.head? ≠ some '\x22')
    (hfuel : cs.length < fuel) :
    readLongBasic fuel (escaped true 2 q cs ++ (triple '\x22' ++ rest)) = some (cs, rest) := by
  induction cs generalizing fuel q with
  | nil =>
      obtain ⟨fuel, rfl⟩ := Nat.exists_eq_add_of_lt hfuel
      have hclose : closing? '\x22' (triple '\x22' ++ rest) = some ([], rest) :=
        closing?_replicate (k := 0) (Nat.zero_le 2) hrest
      simp only [readLongBasic, escaped, List.nil_append, hclose]
  | cons c cs ih =>
      rw [List.length_cons] at hfuel
      obtain ⟨fuel, rfl⟩ : ∃ less, fuel = less + 1 := ⟨fuel - 1, by omega⟩
      have hquotes := length_takeWhile_escaped (c :: cs) hq
      rcases closing?_append (escaped true 2 q (c :: cs)) (by omega) hrest with
        ⟨hall, hclose⟩ | hclose
      · rw [eq_of_escaped hall] at hclose ⊢
        simp only [readLongBasic, hclose]
      · by_cases hquote : c = '\x22'
        · subst hquote
          rw [escaped, if_pos rfl] at hclose ⊢
          split
          · rename_i hlt
            rw [if_pos hlt, List.cons_append] at hclose
            rw [List.cons_append, readLongBasic_plain hclose (by decide) (.inl rfl),
              ih (by omega) (by omega)]
            rfl
          · rw [List.cons_append, List.cons_append,
              readLongBasic_escape (skipEscapedBreak_eq_none rfl (by decide)) rfl,
              ih (Nat.zero_le 2) (by omega)]
            rfl
        · rw [escaped_cons hquote, List.append_assoc] at hclose ⊢
          rw [readLongBasic_written hclose, ih (Nat.zero_le 2) (by omega)]
          rfl

/-! ## All forms -/

/-- Where a string starts, a line break says nothing.  One is put there if there are others. -/
theorem dropBreak_start (h : '\n' ∉ cs → ∃ c tail, more = c :: tail ∧ c ≠ '\n' ∧ c ≠ '\r') :
    dropBreak ((if cs.contains '\n' then ['\n'] else []) ++ more) = more := by
  unfold dropBreak
  by_cases hbreak : '\n' ∈ cs
  · rw [if_pos (by simpa using hbreak)]
    rfl
  · obtain ⟨c, tail, rfl, hc⟩ := h hbreak
    rw [if_neg (by simpa using hbreak), List.nil_append, newline?_eq_none hc]
    rfl

theorem isPlain_of_not_needsEscape (h : needsEscape c = false) :
    isPlain c = true ∨ c = '\n' := by
  unfold needsEscape at h
  unfold isPlain
  simp only [Bool.and_eq_false_iff, bne_eq_false_iff_eq, Bool.or_eq_false_iff,
    decide_eq_false_iff_not, beq_eq_false_iff_ne] at h
  simp only [Bool.or_eq_true, Bool.and_eq_true, beq_iff_eq, decide_eq_true_eq, bne_iff_ne]
  rcases h with (⟨hlow, hdelete⟩ | htab) | hbreak
  · exact .inl (.inr ⟨Nat.not_lt.1 hlow, hdelete⟩)
  · exact .inl (.inl htab)
  · exact .inr hbreak

/-- What was read as a string. -/
def joined (read : List Char × List Char) : String × List Char := (String.ofList read.1, read.2)

theorem readString_basic (h : ∀ after, more ≠ '\x22' :: '\x22' :: after) :
    readString fuel ('\x22' :: more) = (readBasic fuel more).map joined := by
  unfold readString
  split
  case h_1 heq => exact absurd (List.cons.inj heq).2 (h _)
  case h_2 heq =>
    cases heq
    cases readBasic fuel more <;> rfl
  case h_5 hnot _ _ => exact absurd rfl (hnot _)
  all_goals
    rename_i heq
    cases heq

theorem readString_literal (h : ∀ after, more ≠ '\x27' :: '\x27' :: after) :
    readString fuel ('\x27' :: more) = (readLiteral more).map joined := by
  unfold readString
  split
  case h_3 heq => exact absurd (List.cons.inj heq).2 (h _)
  case h_4 heq =>
    cases heq
    cases readLiteral more <;> rfl
  case h_5 hnot => exact absurd rfl (hnot _)
  all_goals
    rename_i heq
    cases heq

theorem readString_tripleDouble : readString fuel (triple '\x22' ++ more) =
    (readLongBasic fuel (dropBreak more)).map joined := by
  change (readLongBasic fuel (dropBreak more) >>= fun read => pure (joined read)) = _
  cases readLongBasic fuel (dropBreak more) <;> rfl

theorem readString_tripleSingle : readString fuel (triple '\x27' ++ more) =
    (readLongLiteral fuel (dropBreak more)).map joined := by
  change (readLongLiteral fuel (dropBreak more) >>= fun read => pure (joined read)) = _
  cases readLongLiteral fuel (dropBreak more) <;> rfl

/-- How what is between double quotes begins. -/
theorem head_escaped (cs : List Char) (allowed : Nat) {isLong : Bool}
    (h : isLong = true → '\n' ∉ cs) :
    escaped isLong allowed 0 cs = [] ∧ cs = [] ∨
      ∃ c tail, escaped isLong allowed 0 cs = c :: tail ∧ c ≠ '\n' ∧ c ≠ '\r' ∧
        (allowed = 0 → c ≠ '\x22') := by
  cases cs with
  | nil => exact .inl ⟨rfl, rfl⟩
  | cons c cs =>
      right
      by_cases hquote : c = '\x22'
      · subst hquote
        rw [escaped, if_pos rfl]
        split
        · rename_i hpos
          exact ⟨_, _, rfl, by decide, by decide, by omega⟩
        · exact ⟨_, _, rfl, by decide, by decide, fun _ => by decide⟩
      · have hwritten := isWritten_written isLong c
        rw [escaped_cons hquote]
        generalize written isLong c = chars at hwritten ⊢
        cases hwritten with
        | escape hws hbreak h' => exact ⟨_, _, rfl, by decide, by decide, fun _ => by decide⟩
        | itself hslash h' =>
            refine ⟨c, _, rfl, ?_, ?_, fun _ => hquote⟩
            · rintro rfl
              rcases h' with hplain | ⟨hlong, -⟩
              · cases hplain
              · exact h hlong List.mem_cons_self
            · rintro rfl
              rcases h' with hplain | ⟨-, hbreak⟩
              · cases hplain
              · cases hbreak

/-- A string between double quotes on one line. -/
theorem readString_double (hfuel : cs.length < fuel) (hrest : rest.head? ≠ some '\x22') :
    readString fuel (['\x22'] ++ escaped false 0 0 cs ++ ['\x22'] ++ rest) =
      some (String.ofList cs, rest) := by
  simp only [List.append_assoc, List.cons_append, List.nil_append]
  rw [readString_basic, readBasic_escaped 0 hfuel]
  · rfl
  · intro after heq
    rcases head_escaped cs 0 (show false = true → '\n' ∉ cs from nofun) with
      ⟨hempty, -⟩ | ⟨c, tail, hhead, -, -, hquote⟩
    · rw [hempty, List.nil_append] at heq
      rw [(List.cons.inj heq).2] at hrest
      exact hrest rfl
    · rw [hhead] at heq
      exact hquote rfl (List.cons.inj heq).1

/-- A string between single quotes on one line. -/
theorem readString_single (hplain : ∀ c ∈ cs, c ≠ '\x27' ∧ isPlain c = true)
    (hrest : rest.head? ≠ some '\x27') :
    readString fuel (['\x27'] ++ cs ++ ['\x27'] ++ rest) = some (String.ofList cs, rest) := by
  simp only [List.append_assoc, List.cons_append, List.nil_append]
  rw [readString_literal, readLiteral_append hplain]
  · rfl
  · intro after heq
    cases cs with
    | nil =>
        rw [List.nil_append] at heq
        rw [(List.cons.inj heq).2] at hrest
        exact hrest rfl
    | cons c cs => exact (hplain c List.mem_cons_self).1 (List.cons.inj heq).1

/-- A string between double quotes over several lines. -/
theorem readString_longDouble (hfuel : cs.length < fuel) (hrest : rest.head? ≠ some '\x22') :
    readString fuel (triple '\x22' ++ (if cs.contains '\n' then ['\n'] else []) ++
      escaped true 2 0 cs ++ triple '\x22' ++ rest) = some (String.ofList cs, rest) := by
  have hread := readLongBasic_escaped (q := 0) (Nat.zero_le 2) hrest hfuel
  have hdrop : dropBreak ((if cs.contains '\n' then ['\n'] else []) ++
      (escaped true 2 0 cs ++ (triple '\x22' ++ rest))) =
        escaped true 2 0 cs ++ (triple '\x22' ++ rest) := by
    refine dropBreak_start fun hbreak => ?_
    rcases head_escaped cs 2 (show true = true → '\n' ∉ cs from fun _ => hbreak) with
      ⟨hempty, -⟩ | ⟨c, tail, hhead, hfeed, hreturn, -⟩
    · exact ⟨'\x22', _, by rw [hempty]; rfl, by decide, by decide⟩
    · exact ⟨c, _, by rw [hhead]; rfl, hfeed, hreturn⟩
  simp only [List.append_assoc]
  rw [readString_tripleDouble, hdrop, hread]
  rfl

/-- A string between single quotes over several lines. -/
theorem readString_longSingle (hrun : longestRun '\x27' 0 cs ≤ 2)
    (hplain : ∀ c ∈ cs, isPlain c = true ∨ c = '\n') (hfuel : cs.length < fuel)
    (hrest : rest.head? ≠ some '\x27') :
    readString fuel (triple '\x27' ++ (if cs.contains '\n' then ['\n'] else []) ++ cs ++
      triple '\x27' ++ rest) = some (String.ofList cs, rest) := by
  have hread := readLongLiteral_append hrun hplain hrest hfuel
  have hdrop : dropBreak ((if cs.contains '\n' then ['\n'] else []) ++
      (cs ++ (triple '\x27' ++ rest))) = cs ++ (triple '\x27' ++ rest) := by
    refine dropBreak_start fun hbreak => ?_
    cases cs with
    | nil => exact ⟨'\x27', _, rfl, by decide, by decide⟩
    | cons c tail =>
        obtain ⟨hne, -⟩ := not_or.1 (mt List.mem_cons.2 hbreak)
        refine ⟨c, _, rfl, Ne.symm hne, ?_⟩
        rintro rfl
        exact absurd (hplain _ List.mem_cons_self) (by decide)
  simp only [List.append_assoc]
  rw [readString_tripleSingle, hdrop, hread]
  rfl

/-- **A string is read as it was written**, with any text behind it that does not go on with a
quote. -/
theorem readString_append (s : String) (hfuel : s.toList.length < fuel)
    (hdouble : rest.head? ≠ some '\x22') (hsingle : rest.head? ≠ some '\x27') :
    readString fuel (stringChars s ++ rest) = some (s, rest) := by
  have hdoubled := readString_double hfuel hdouble
  have hlong := readString_longDouble hfuel hdouble
  rw [String.ofList_toList] at hdoubled hlong
  -- which of the forms hold a control character decides about the ones between single quotes
  have hplain (h : (!s.toList.any needsEscape) = true) :
      ∀ c ∈ s.toList, isPlain c = true ∨ c = '\n' := by
    intro c hc
    refine isPlain_of_not_needsEscape ?_
    simp only [Bool.not_eq_true', List.any_eq_false] at h
    exact Bool.eq_false_iff.2 (h c hc)
  unfold stringChars
  simp only
  split
  · exact hdoubled
  · split
    · rename_i hform
      simp only [Bool.and_eq_true, beq_iff_eq, Bool.not_eq_true', List.contains_eq_mem,
        decide_eq_false_iff_not] at hform
      obtain ⟨⟨hcontrol, hrun⟩, hbreak⟩ := hform
      have hchars (c : Char) (hc : c ∈ s.toList) : c ≠ '\x27' ∧ isPlain c = true :=
        ⟨ne_of_longestRun_eq_zero hrun c hc,
          (hplain (by simpa using hcontrol) c hc).resolve_right fun heq => hbreak (heq ▸ hc)⟩
      have hread : readString fuel (['\x27'] ++ s.toList ++ ['\x27'] ++ rest) =
          some (String.ofList s.toList, rest) := readString_single hchars hsingle
      rwa [String.ofList_toList] at hread
    · split
      · exact hlong
      · split
        · rename_i hform
          rw [Bool.and_eq_true, decide_eq_true_eq] at hform
          have hread := readString_longSingle hform.2 (hplain hform.1) hfuel hsingle
          rwa [String.ofList_toList] at hread
        · split
          · rename_i hbreak
            rwa [if_pos hbreak] at hlong
          · exact hdoubled

end Backlog.Toml
