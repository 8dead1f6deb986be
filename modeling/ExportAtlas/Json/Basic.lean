/-!
# JSON values

A value of the JSON data format. The members of an object are kept in the
order in which they were written; each name stands once.
-/

namespace ExportAtlas

/-- The number `± significand · 10 ^ exponent`. -/
structure Json.Number where
  negative : Bool
  significand : Nat
  exponent : Int
  deriving DecidableEq, Repr, Inhabited

/-- A JSON value. -/
inductive Json where
  | null
  | bool (value : Bool)
  | number (value : Json.Number)
  | string (value : String)
  | array (items : List Json)
  | object (members : List (String × Json))
  deriving Inhabited, Repr

namespace Json

/-- An array of strings. -/
def strings (values : List String) : Json := .array (values.map .string)

/-- The text of a string value. -/
def string? : Json → Option String
  | .string s => some s
  | _ => none

/-- The texts of an array that holds nothing but strings. -/
def strings? : Json → Option (List String)
  | .array items => items.mapM string?
  | _ => none

/-- The members of an object. -/
def object? : Json → Option (List (String × Json))
  | .object members => some members
  | _ => none

end Json

end ExportAtlas
