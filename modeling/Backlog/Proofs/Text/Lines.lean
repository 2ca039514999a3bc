import Backlog.Text.Blank
import Backlog.Text.Lines
import Mathlib.Data.List.Basic

/-!
# Lines in bytes and in text

The lines of a file are the pieces between its line feeds, each without the carriage return that
belongs to the ending (`byteLines_eq`).  In UTF-8 a byte below 128 stands for one character
and for itself (`mem_of_mem_utf8`), so the pieces of a text are those between its line feeds, and a
carriage return at the end of a piece is one in the text.  It is blank, and so may others before it
be: what a line says between its blanks does not depend on the ending (`exists_endLine_utf8`).
-/

namespace Backlog

theorem ByteArray.toList_loop (bytes : ByteArray) (i : Nat) (taken : List UInt8) :
    ByteArray.toList.loop bytes i taken = taken.reverse ++ bytes.data.toList.drop i := by
  fun_induction ByteArray.toList.loop bytes i taken with
  | case1 i taken hlt ih =>
      have hlt' : i < bytes.data.toList.length := by simpa using hlt
      have hget : bytes.get! i = bytes.data.toList[i] := getElem!_pos bytes.data i hlt
      rw [ih, List.drop_eq_getElem_cons hlt', hget, List.reverse_cons, List.append_assoc]
      rfl
  | case2 i taken hge =>
      have hge' : bytes.data.toList.length ≤ i := by simpa using hge
      rw [List.drop_eq_nil_of_le hge', List.append_nil]

namespace Text

/-! ## Characters and bytes -/

/-- The bytes of a row of characters. -/
def utf8 (cs : List Char) : List UInt8 := cs.flatMap String.utf8EncodeChar

theorem utf8_append (cs more : List Char) : utf8 (cs ++ more) = utf8 cs ++ utf8 more :=
  List.flatMap_append

theorem toList_toUTF8 (cs : List Char) : (String.ofList cs).toUTF8.toList = utf8 cs := by
  rw [ByteArray.toList, ByteArray.toList_loop]
  simp [utf8, List.utf8Encode]

theorem fromUTF8?_toUTF8 (s : String) : String.fromUTF8? s.toUTF8 = some s := by
  rw [String.fromUTF8?]
  exact dif_pos (c := s.toUTF8.IsValidUTF8) s.isValidUTF8

theorem ofBytes?_utf8 (cs : List Char) : ofBytes? (utf8 cs) = some (String.ofList cs) := by
  have hbytes : (⟨(utf8 cs).toArray⟩ : ByteArray) = (String.ofList cs).toUTF8 :=
    ByteArray.ext (by simp [utf8, List.utf8Encode, List.data_toByteArray])
  rw [ofBytes?, hbytes, fromUTF8?_toUTF8]

/-- A byte below 128 is its character. -/
theorem eq_of_mem_utf8EncodeChar {c : Char} {b : UInt8} (hmem : b ∈ String.utf8EncodeChar c)
    (hb : b.toNat < 128) : c.toNat = b.toNat := by
  have hnat : c.val.toNat = c.toNat := rfl
  simp only [String.utf8EncodeChar, hnat] at hmem
  split at hmem
  · obtain rfl := List.mem_singleton.1 hmem
    rw [UInt8.toNat_ofNat']
    omega
  · -- the bytes of a longer character are all above
    exfalso
    repeat' split at hmem
    all_goals
      simp only [List.mem_cons, List.not_mem_nil, or_false] at hmem
      rcases hmem with rfl | rfl | rfl | rfl <;> rw [UInt8.toNat_ofNat'] at hb <;> omega

theorem mem_of_mem_utf8 {cs : List Char} {b : UInt8} (hmem : b ∈ utf8 cs) (hb : b.toNat < 128) :
    Char.ofNat b.toNat ∈ cs := by
  obtain ⟨c, hc, hbyte⟩ := List.mem_flatMap.1 hmem
  rw [← eq_of_mem_utf8EncodeChar hbyte hb, Char.ofNat_toNat]
  exact hc

theorem feed_not_mem_utf8 {cs : List Char} (h : '\n' ∉ cs) : 10 ∉ utf8 cs :=
  fun hmem => h (mem_of_mem_utf8 hmem (by decide))

/-! ## Pieces -/

/-- A piece in front of a line feed, without the carriage return that belongs to the ending. -/
def endLine (piece : List UInt8) : List UInt8 :=
  if piece.getLast? = some 13 then piece.dropLast else piece

/-- The lines that the pieces between line feeds are. -/
def endLines : List (List UInt8) → List (List UInt8)
  | [] => []
  | [last] => if last.isEmpty then [] else [last]
  | piece :: next :: rest => endLine piece :: endLines (next :: rest)

theorem endLines_cons (piece : List UInt8) {rest : List (List UInt8)} (h : rest ≠ []) :
    endLines (piece :: rest) = endLine piece :: endLines rest := by
  obtain ⟨next, rest, rfl⟩ := List.exists_cons_of_ne_nil h
  rfl

theorem endLine_reverse (line : List UInt8) :
    endLine line.reverse = (match line with | 13 :: before => before | _ => line).reverse := by
  rw [endLine, List.getLast?_reverse, List.dropLast_reverse]
  cases line with
  | nil => rfl
  | cons b before =>
      by_cases hb : b = 13
      · subst hb
        rfl
      · rw [List.head?_cons, if_neg (by simpa using hb)]
        split
        · rename_i heq
          exact absurd (List.cons.inj heq).1 hb
        · rfl

theorem splitLines_eq (line bytes : List UInt8) :
    splitLines line bytes =
      endLines ((bytes.splitOn 10).modifyHead (line.reverse ++ ·)) := by
  induction bytes generalizing line with
  | nil =>
      cases line with
      | nil => rfl
      | cons b before => simp [splitLines, endLines]
  | cons b rest ih =>
      have hstep : splitLines line (b :: rest) =
          if b = 10 then
            (match line with | 13 :: before => before | _ => line).reverse :: splitLines [] rest
          else splitLines (b :: line) rest :=
        splitLines.eq_def line (b :: rest)
      rw [hstep, List.splitOn_cons_eq_if_modifyHead]
      by_cases hb : b = 10
      · subst hb
        have hsame : (rest.splitOn (10 : UInt8)).modifyHead (([] : List UInt8) ++ ·) =
            rest.splitOn 10 := by
          cases rest.splitOn 10 <;> rfl
        rw [if_pos rfl, if_pos (by rfl), ih, List.modifyHead_cons, List.append_nil,
          endLines_cons _ (List.splitOn_ne_nil _ _), endLine_reverse, List.reverse_nil, hsame]
      · rw [if_neg hb, if_neg (by simpa using hb), ih, List.modifyHead_modifyHead]
        congr 2
        funext piece
        simp

/-- The lines of a file are the pieces between its line feeds. -/
theorem byteLines_eq (bytes : ByteArray) :
    byteLines bytes = endLines (bytes.toList.splitOn 10) := by
  rw [byteLines, splitLines_eq]
  cases bytes.toList.splitOn 10 <;> rfl

theorem endLine_return (cs : List Char) : endLine (utf8 (cs ++ ['\r'])) = utf8 cs := by
  have hbytes : utf8 (cs ++ ['\r']) = utf8 cs ++ [13] := utf8_append _ _
  rw [endLine, hbytes, if_pos List.getLast?_concat, List.dropLast_concat]

/-- The line of a text is the text, unless it ends in a carriage return of its own. -/
theorem exists_endLine_utf8 (cs : List Char) :
    ∃ kept, endLine (utf8 cs) = utf8 kept ∧ (cs = kept ∨ cs = kept ++ ['\r']) := by
  by_cases hreturn : (utf8 cs).getLast? = some 13
  · obtain ⟨front, c, rfl⟩ : ∃ front c, cs = front ++ [c] := by
      rcases List.eq_nil_or_concat' cs with rfl | hconcat
      · cases hreturn
      · exact hconcat
    have hlast : (String.utf8EncodeChar c).getLast? = some 13 := by
      rw [utf8_append, utf8, utf8, List.flatMap_singleton,
        List.getLast?_append_of_ne_nil _ String.utf8EncodeChar_ne_nil] at hreturn
      exact hreturn
    have hc : c = '\r' := by
      rw [← Char.ofNat_toNat c,
        eq_of_mem_utf8EncodeChar (List.mem_of_getLast? hlast) (by decide)]
      rfl
    subst hc
    exact ⟨front, endLine_return front, .inr rfl⟩
  · exact ⟨cs, if_neg hreturn, .inl rfl⟩

/-! ## Blanks -/

theorem trimEnd_concat {c : Char} (hc : isBlank c = true) (cs : List Char) :
    trimEnd (cs ++ [c]) = trimEnd cs := by
  rw [trimEnd, List.reverse_append, List.reverse_singleton, List.singleton_append,
    List.dropWhile_cons_of_pos hc, trimEnd]

theorem trimChars_concat {c : Char} (hc : isBlank c = true) (cs : List Char) :
    trimChars (cs ++ [c]) = trimChars cs := by
  rw [trimChars, trimChars, List.dropWhile_append]
  split
  · rename_i hnil
    rw [List.isEmpty_iff.1 hnil, List.dropWhile_cons_of_pos hc, List.dropWhile_nil]
  · exact trimEnd_concat hc _

/-- Nothing is cut from a text that is not blank at its two ends. -/
theorem trimChars_of_ends {first last : Char} (hfirst : isBlank first = false)
    (hlast : isBlank last = false) (cs : List Char) :
    trimChars (first :: (cs ++ [last])) = first :: (cs ++ [last]) := by
  rw [trimChars, List.dropWhile_cons_of_neg (by simp [hfirst]), trimEnd, List.reverse_cons,
    List.reverse_append, List.reverse_singleton, List.singleton_append, List.cons_append,
    List.dropWhile_cons_of_neg (by simp [hlast])]
  simp

end Text

end Backlog
