import Backlog.Settings.Document
import Backlog.Text.Quoted

/-!
# Fingerprints of settings

A fingerprint tells whether settings changed: the 64-bit FNV-1a hash of their JSON text,
in hexadecimal.
-/

namespace Backlog

namespace Fingerprint

/-- The hash of nothing. -/
def offsetBasis : UInt64 := 0xcbf29ce484222325

/-- The factor of each step. -/
def prime : UInt64 := 0x100000001b3

/-- The hash after one more byte. -/
def step (hash : UInt64) (byte : UInt8) : UInt64 := (hash ^^^ byte.toUInt64) * prime

/-- The hash of a row of bytes. -/
def hash (bytes : List UInt8) : UInt64 := bytes.foldl step offsetBasis

/-- A hash as sixteen digits. -/
def text (hash : UInt64) : String :=
  let digits := Nat.toDigits 16 hash.toNat
  String.ofList (List.replicate (16 - digits.length) '0' ++ digits)

end Fingerprint

/-- The fingerprint of settings. -/
def Settings.fingerprint (s : Settings) : String :=
  Fingerprint.text (Fingerprint.hash s.toJson.compact.toUTF8.toList)

end Backlog
