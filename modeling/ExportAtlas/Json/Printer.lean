import ExportAtlas.Json.Basic
/-!
# Printing JSON

Values over several lines: two spaces of indentation a level, one item or
member a line, empty containers closed where they open.
-/

namespace ExportAtlas

namespace Json

/-- A hexadecimal digit, in lower case. -/
def hexDigit (n : Nat) : Char := (Nat.toDigits 16 n).headD '0'

/-- A character as a string shows it: quotes, backslashes and control
characters are escaped. -/
def escape (c : Char) : List Char :=
  match c with
  | '"' => ['\\', '"']
  | '\\' => ['\\', '\\']
  | '\n' => ['\\', 'n']
  | '\r' => ['\\', 'r']
  | '\t' => ['\\', 't']
  | '\x08' => ['\\', 'b']
  | '\x0c' => ['\\', 'f']
  | c =>
    if c.toNat < 0x20 then
      ['\\', 'u', '0', '0', hexDigit (c.toNat / 16), hexDigit (c.toNat % 16)]
    else [c]

/-- A string between quotes. -/
def quote (s : String) : String := "\"" ++ String.ofList (s.toList.flatMap escape) ++ "\""

/-- The indentation of a level. -/
def indent (depth : Nat) : String := String.ofList (List.replicate (2 * depth) ' ')

/-- The parts of a container between its brackets, one a line. -/
def bracketed (opening closing : String) (depth : Nat) (parts : List String) : String :=
  if parts.isEmpty then opening ++ closing
  else
    opening ++ "\n" ++
      String.intercalate ",\n" (parts.map (indent (depth + 1) ++ ·)) ++
      "\n" ++ indent depth ++ closing

/-- A number as digits and, where it is not an integer, an exponent. -/
def Number.print (n : Number) : String :=
  (if n.negative then "-" else "") ++ toString n.significand ++
    (if n.exponent = 0 then "" else "e" ++ toString n.exponent)

mutual

/-- A value at a level of indentation; its first line stands where the text
stands. -/
def printAt (depth : Nat) : Json → String
  | .null => "null"
  | .bool true => "true"
  | .bool false => "false"
  | .number n => n.print
  | .string s => quote s
  | .array items => bracketed "[" "]" depth (printItems (depth + 1) items)
  | .object members => bracketed "\x7b" "\x7d" depth (printMembers (depth + 1) members)

/-- The items of an array, each as its own text. -/
def printItems (depth : Nat) : List Json → List String
  | [] => []
  | item :: items => printAt depth item :: printItems depth items

/-- The members of an object, each as its own text. -/
def printMembers (depth : Nat) : List (String × Json) → List String
  | [] => []
  | (name, value) :: members =>
    (quote name ++ ": " ++ printAt depth value) :: printMembers depth members

end

/-- A value over several lines. -/
def print (j : Json) : String := printAt 0 j

end Json

end ExportAtlas
