/-
JSON values.

Numbers keep the form they are written in: an integer of 64 bits is exact, and every other number
is a binary one.  An object keeps its fields in the order of the text; of a repeated key the last
value counts.
-/

import ExportSurface.Number.Binary64

set_option autoImplicit false

namespace ExportSurface

/-- A number of a JSON text. -/
inductive JsonNumber where
  | natural (n : Nat)
  /-- The integer `-n`. -/
  | negative (n : Nat)
  | binary (x : Binary64)
  deriving DecidableEq

/-- The binary number nearest to a JSON number. -/
def JsonNumber.toBinary64 : JsonNumber → Binary64
  | .natural n => .ofNat n
  | .negative n => (Binary64.ofNat n).negate
  | .binary x => x

/-- A JSON value. -/
inductive Json where
  | null
  | bool (b : Bool)
  | number (n : JsonNumber)
  | string (s : String)
  | array (items : List Json)
  | object (fields : List (String × Json))

namespace Json

/-- The last value of a key among the fields of an object. -/
def lastField? (key : String) : List (String × Json) → Option Json
  | [] => none
  | (k, v) :: rest => (lastField? key rest).or (if k = key then some v else none)

/-- The value of a key, if the value is an object that has it. -/
def field? (v : Json) (key : String) : Option Json :=
  match v with
  | .object fields => lastField? key fields
  | _ => none

def isNull : Json → Bool
  | .null => true
  | _ => false

def string? : Json → Option String
  | .string s => some s
  | _ => none

def bool? : Json → Option Bool
  | .bool b => some b
  | _ => none

def array? : Json → Option (List Json)
  | .array items => some items
  | _ => none

/-- A number written as a natural number of 64 bits. -/
def natural? : Json → Option Nat
  | .number (.natural n) => some n
  | _ => none

/-- The value at the end of a path of keys. -/
def path? (v : Json) : List String → Option Json
  | [] => some v
  | key :: rest =>
      match v.field? key with
      | some child => child.path? rest
      | none => none

/-- The value of a key that is present and not null. -/
def present? (v : Json) (key : String) : Option Json :=
  (v.field? key).filter fun child => !child.isNull

end Json

end ExportSurface
