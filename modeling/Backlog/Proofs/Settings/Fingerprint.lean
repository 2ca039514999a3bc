import Backlog.Settings.Fingerprint
import Backlog.Proofs.Json.OneLine
import Backlog.Proofs.Text.Lines

/-!
# What a fingerprint notices

A step of the hash mixes a byte into what it has so far and multiplies by an odd number.  Both can
be undone, so a step loses nothing: neither of the byte (`Fingerprint.step_injective`) nor of the
hash before it (`Fingerprint.step_left_injective`).  A single changed byte changes the hash where it
is mixed in, and every later step hands the change on, so that it is still there at the end.

The text of a hash can be read as its number again (`Fingerprint.hexNumber_toList_text`).  So
settings whose JSON texts differ in a single byte have different fingerprints
(`Settings.fingerprint_ne`).
-/

namespace Backlog

namespace Fingerprint

/-! ## Rows with one different byte -/

/-- In how many places two rows have different bytes. -/
def differences (xs ys : List UInt8) : Nat := (xs.zip ys).countP fun p => p.1 != p.2

/-- Two rows of one length that have different bytes in exactly one place. -/
def DifferOnce (xs ys : List UInt8) : Prop := xs.length = ys.length ∧ differences xs ys = 1

instance (xs ys : List UInt8) : Decidable (DifferOnce xs ys) :=
  inferInstanceAs (Decidable (_ ∧ _))

variable {xs ys : List UInt8}

theorem differences_cons (x y : UInt8) (xs ys : List UInt8) :
    differences (x :: xs) (y :: ys) = differences xs ys + if x = y then 0 else 1 := by
  rw [differences, List.zip_cons_cons, List.countP_cons]
  by_cases h : x = y <;> simp [differences, h]

theorem eq_of_differences (hlength : xs.length = ys.length) (h : differences xs ys = 0) :
    xs = ys := by
  induction xs generalizing ys with
  | nil => exact (List.length_eq_zero_iff.1 hlength.symm).symm
  | cons x xs ih =>
      cases ys with
      | nil => cases hlength
      | cons y ys =>
          rw [differences_cons] at h
          have hrest : differences xs ys = 0 := by omega
          have hxy : x = y := by
            by_contra hne
            rw [if_neg hne] at h
            omega
          rw [hxy, ih (Nat.succ_injective hlength) hrest]

theorem differences_self (xs : List UInt8) : differences xs xs = 0 := by
  induction xs with
  | nil => rfl
  | cons x xs ih => rw [differences_cons, ih, if_pos rfl]

theorem differences_append (hlength : xs.length = ys.length) (more more' : List UInt8) :
    differences (xs ++ more) (ys ++ more') = differences xs ys + differences more more' := by
  rw [differences, List.zip_append hlength, List.countP_append]
  rfl

/-- Between the same bytes rows differ as they do alone. -/
theorem DifferOnce.between (h : DifferOnce xs ys) (front back : List UInt8) :
    DifferOnce (front ++ xs ++ back) (front ++ ys ++ back) := by
  obtain ⟨hlength, hcount⟩ := h
  have hfront : (front ++ xs).length = (front ++ ys).length := by
    rw [List.length_append, List.length_append, hlength]
  refine ⟨by rw [List.length_append, hfront, ← List.length_append], ?_⟩
  rw [differences_append hfront, differences_append rfl, differences_self, differences_self, hcount]

/-- The rows are the same before the different bytes and after them. -/
theorem DifferOnce.exists_split (h : DifferOnce xs ys) :
    ∃ front a b back, a ≠ b ∧ xs = front ++ a :: back ∧ ys = front ++ b :: back := by
  obtain ⟨hlength, hcount⟩ := h
  induction xs generalizing ys with
  | nil => simp [differences] at hcount
  | cons x xs ih =>
      cases ys with
      | nil => cases hlength
      | cons y ys =>
          have hlength' : xs.length = ys.length := Nat.succ_injective hlength
          rw [differences_cons] at hcount
          -- the different bytes are further on, or here, and then no more follow
          by_cases hxy : x = y
          · rw [if_pos hxy] at hcount
            obtain ⟨front, a, b, back, hne, rfl, rfl⟩ := ih hlength' hcount
            exact ⟨x :: front, a, b, back, hne, rfl, by rw [hxy]; rfl⟩
          · rw [if_neg hxy] at hcount
            have hrest := eq_of_differences hlength' (Nat.succ_injective hcount)
            exact ⟨[], x, y, ys, hxy, by rw [hrest]; rfl, rfl⟩

/-! ## The hash -/

/-- What the factor of a step has to be multiplied by to be one. -/
def inverse : UInt64 := 0xce965057aff6957b

theorem prime_mul_inverse : prime * inverse = 1 := by decide

theorem mul_prime_injective : Function.Injective (· * prime) := by
  intro a b h
  calc a = a * prime * inverse := by rw [UInt64.mul_assoc, prime_mul_inverse, UInt64.mul_one]
    _ = b * prime * inverse := congrArg (· * inverse) h
    _ = b := by rw [UInt64.mul_assoc, prime_mul_inverse, UInt64.mul_one]

theorem step_injective (hash : UInt64) : Function.Injective (step hash) := by
  intro a b h
  have hmixed : hash ^^^ a.toUInt64 = hash ^^^ b.toUInt64 := mul_prime_injective h
  exact UInt8.toUInt64_inj.1 ((UInt64.xor_right_inj hash).1 hmixed)

theorem step_left_injective (byte : UInt8) : Function.Injective (step · byte) := by
  intro a b h
  have hmixed : a ^^^ byte.toUInt64 = b ^^^ byte.toUInt64 := mul_prime_injective h
  exact (UInt64.xor_left_inj byte.toUInt64).1 hmixed

/-- Two hashes that differ still do so after a row of further bytes. -/
theorem foldl_step_injective (bytes : List UInt8) : Function.Injective (bytes.foldl step) := by
  induction bytes with
  | nil => exact fun _ _ h => h
  | cons byte rest ih => exact ih.comp (step_left_injective byte)

theorem hash_ne (h : DifferOnce xs ys) : hash xs ≠ hash ys := by
  obtain ⟨front, a, b, back, hne, rfl, rfl⟩ := h.exists_split
  intro heq
  simp only [hash, List.foldl_append, List.foldl_cons] at heq
  exact hne (step_injective _ (foldl_step_injective back heq))

/-! ## The text of a hash -/

/-- The number that a row of hexadecimal digits stands for. -/
def hexNumber (digits : List Char) : Nat :=
  digits.foldl (fun n c => 16 * n + (Json.hexValue? c).getD 0) 0

theorem hexNumber_concat (digits : List Char) {d : Nat} (hd : d < 16) :
    hexNumber (digits ++ [d.digitChar]) = 16 * hexNumber digits + d := by
  have hvalue : Json.hexValue? d.digitChar = some d := Json.hexValue?_hexDigit d hd
  rw [hexNumber, List.foldl_concat, hvalue]
  rfl

theorem hexNumber_toDigits (n : Nat) : hexNumber (Nat.toDigits 16 n) = n := by
  induction n using Nat.strongRecOn with
  | ind n ih =>
      rw [Nat.toDigits_eq_if (by decide)]
      by_cases hlt : n < 16
      · rw [if_pos hlt]
        exact (hexNumber_concat [] hlt).trans (Nat.zero_add n)
      · rw [if_neg hlt, hexNumber_concat _ (Nat.mod_lt n (by decide)), ih (n / 16) (by omega)]
        omega

theorem hexNumber_zeros (k : Nat) (digits : List Char) :
    hexNumber (List.replicate k '0' ++ digits) = hexNumber digits := by
  induction k with
  | zero => rfl
  | succ k ih => exact ih

theorem hexNumber_toList_text (hash : UInt64) : hexNumber (text hash).toList = hash.toNat := by
  rw [text, String.toList_ofList, hexNumber_zeros, hexNumber_toDigits]

theorem text_injective : Function.Injective text := by
  intro a b h
  apply UInt64.toNat_inj.1
  rw [← hexNumber_toList_text a, h, hexNumber_toList_text]

theorem length_text (hash : UInt64) : (text hash).length = 16 := by
  have hfits : (Nat.toDigits 16 hash.toNat).length ≤ 16 :=
    (Nat.length_toDigits_le_iff (by decide) (by decide)).2 hash.toNat_lt
  rw [text, String.length_ofList, List.length_append, List.length_replicate]
  omega

end Fingerprint

namespace Settings

/-- The bytes that the fingerprint of settings is made of. -/
def canonicalBytes (s : Settings) : List UInt8 := s.toJson.compact.toUTF8.toList

theorem canonicalBytes_eq (s : Settings) :
    s.canonicalBytes = s.toJson.chars.flatMap String.utf8EncodeChar := by
  rw [canonicalBytes, Json.compact, Text.toList_toUTF8, Text.utf8]

/-- The fingerprint, read off the characters of the JSON text. -/
theorem fingerprint_eq (s : Settings) :
    s.fingerprint =
      Fingerprint.text (Fingerprint.hash (s.toJson.chars.flatMap String.utf8EncodeChar)) := by
  rw [fingerprint, ← canonicalBytes, canonicalBytes_eq]

/-- Settings with another window size have the same bytes around it. -/
theorem differOnce_windowSize {s : Settings} {size : Nat}
    (h : Fingerprint.DifferOnce (Text.utf8 (Json.int s.monitor.windowSize).chars)
      (Text.utf8 (Json.int size).chars)) :
    Fingerprint.DifferOnce s.canonicalBytes
      { s with monitor := { s.monitor with windowSize := size } }.canonicalBytes := by
  have hbytes (t : Settings) : t.canonicalBytes = Text.utf8 t.toJson.chars := t.canonicalBytes_eq
  rw [hbytes, hbytes, toJson, toJson, Json.chars_object_cons, Json.chars_object_cons,
    MonitorSettings.toJson, MonitorSettings.toJson, Json.chars_object_cons, Json.chars_object_cons]
  simp only [Text.utf8_append]
  exact (h.between _ _).between _ _

theorem fingerprint_ne {s t : Settings}
    (h : Fingerprint.DifferOnce s.canonicalBytes t.canonicalBytes) :
    s.fingerprint ≠ t.fingerprint := by
  intro heq
  exact Fingerprint.hash_ne h (Fingerprint.text_injective heq)

end Settings

end Backlog
