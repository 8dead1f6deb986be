import ExportAtlas.Json.Token
import ExportAtlas.KeyedList
/-!
# Reading JSON

A text is read token by token, with the containers that are still open on a
stack. Of members that share a name the last one counts. Nesting is bounded:
at most 127 containers may be open at a time.
-/

namespace ExportAtlas

namespace Json

/-- An open container, with what it holds so far: the items of an array, last
one first, or the members of an object and the name whose value is awaited. -/
inductive Frame where
  | array (items : List Json)
  | object (members : List (String × Json)) (name : String)

/-- What may come next. -/
inductive Awaited where
  /-- A value; or the end of the array, right after its start. -/
  | value (mayClose : Bool)
  /-- A name of an object; or the end of the object, right after its start. -/
  | name (members : List (String × Json)) (mayClose : Bool)
  /-- The colon behind a name. -/
  | colon (members : List (String × Json)) (name : String)
  /-- What follows a finished value. -/
  | after (value : Json)

/-- How many containers may be open at a time. -/
def maxDepth : Nat := 127

/-- The state after one more token; `none` if it does not fit. -/
def step : List Frame × Awaited → Token → Option (List Frame × Awaited)
  | (stack, .value _), .string s => some (stack, .after (.string s))
  | (stack, .value _), .scalar v => some (stack, .after v)
  | (stack, .value _), .openArray =>
    if stack.length < maxDepth then some (.array [] :: stack, .value true) else none
  | (stack, .value _), .openObject =>
    if stack.length < maxDepth then some (.object [] "" :: stack, .name [] true) else none
  | (.array [] :: stack, .value true), .closeArray => some (stack, .after (.array []))
  | (_ :: stack, .name members true), .closeObject => some (stack, .after (.object members))
  | (stack, .name members _), .string s => some (stack, .colon members s)
  | (_ :: stack, .colon members s), .colon => some (.object members s :: stack, .value false)
  | (.array items :: stack, .after v), .comma => some (.array (v :: items) :: stack, .value false)
  | (.array items :: stack, .after v), .closeArray =>
    some (stack, .after (.array (v :: items).reverse))
  | (.object members s :: stack, .after v), .comma =>
    some (.object members s :: stack, .name (KeyedList.put s v members) false)
  | (.object members s :: stack, .after v), .closeObject =>
    some (stack, .after (.object (KeyedList.put s v members)))
  | _, _ => none

/-- The value that a sequence of tokens writes. -/
def ofTokens? (tokens : List Token) : Option Json :=
  match tokens.foldlM step ([], .value false) with
  | some ([], .after v) => some v
  | _ => none

/-- The value that a text writes, read strictly. -/
def read? (s : String) : Option Json := (tokens? s.toList).bind ofTokens?

end Json

end ExportAtlas
