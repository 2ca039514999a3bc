import Backlog.Json.Reader
import Backlog.Number.Approximate
import Backlog.Table

/-!
# Values out of JSON

Decoders from JSON to the values of the program.  A record is read from an object, in
which unknown members are passed over and no known one may stand twice, or from an
array of its fields in order.
-/

namespace Backlog.Json

/-- What is said of a text that is no document of the expected form. -/
def faultText : String := "not a document of the expected form"

/-- A truth value. -/
def asBool : Json → Option Bool
  | .bool b => some b
  | _ => none

/-- A text. -/
def asString : Json → Option String
  | .string s => some s
  | _ => none

/-- An integer between two bounds.  Minus zero is no integer. -/
def asInt (low high : Int) : Json → Option Int
  | .number n =>
    match n.intWithin? low high with
    | some i => if n.isInteger ∧ ¬(n.negative = true ∧ i = 0) then some i else none
    | none => none
  | _ => none

/-- A signed 64-bit integer. -/
def asInt64 (v : Json) : Option Int64 :=
  (v.asInt (-(twoTo 63)) (twoTo 63 - 1)).map Int64.ofInt

/-- An unsigned 64-bit integer. -/
def asUInt64 (v : Json) : Option UInt64 :=
  (v.asInt 0 (twoTo 64 - 1)).map fun i => UInt64.ofNat i.toNat

/-- An unsigned 32-bit integer. -/
def asUInt32 (v : Json) : Option UInt32 :=
  (v.asInt 0 (twoTo 32 - 1)).map fun i => UInt32.ofNat i.toNat

/-- A double. -/
def asDouble : Json → Option Float
  | .number n => n.approximate
  | _ => none

/-- Null for no value. -/
def asOptional {β : Type} (decode : Json → Option β) : Json → Option (Option β)
  | .null => some none
  | v => (decode v).map some

/-- A choice between named values: the name alone, or an object whose only member has
the name and is null. -/
def asChoice {β : Type} (ofName : String → Option β) : Json → Option β
  | .string name => ofName name
  | .object [(name, .null)] => ofName name
  | _ => none

/-- Values under any names; of two values under one name the later one stays. -/
def asTable {β : Type} (decode : Json → Option β) : Json → Option (Table β)
  | .object members =>
    (members.mapM fun m => (decode m.2).map fun b => (m.1, b)).map Table.ofList
  | _ => none

/-- The fields of a record. -/
structure Fields where
  /-- Whether they were given in order, without names. -/
  isPositional : Bool
  members : List (String × Json)

/-- The fields with these names. -/
def asFields (names : List String) : Json → Option Fields
  | .object members =>
    let known := members.filter fun (name, _) => names.contains name
    let isRepeated := names.any fun name => 1 < (known.filter fun e => e.1 == name).length
    if isRepeated then none else some ⟨false, known⟩
  | .array elements =>
    if elements.length ≤ names.length then some ⟨true, names.zip elements⟩ else none
  | _ => none

namespace Fields

variable {β : Type}

/-- The value of a field. -/
def find? (f : Fields) (name : String) : Option Json :=
  (f.members.find? (·.1 == name)).map (·.2)

/-- A field that must be there. -/
def required (f : Fields) (name : String) (decode : Json → Option β) : Option β :=
  (f.find? name).bind decode

/-- A field that may be null, and may be left out where fields have names. -/
def optional (f : Fields) (name : String) (decode : Json → Option β) : Option (Option β) :=
  match f.find? name with
  | some v => v.asOptional decode
  | none => if f.isPositional then none else some none

/-- A field that may be left out for a given value. -/
def orElse (f : Fields) (name : String) (value : β) (decode : Json → Option β) : Option β :=
  match f.find? name with
  | some v => decode v
  | none => some value

end Fields

end Backlog.Json
