/-!
# TOML values

A value of the TOML configuration format, version 1.0. Nothing reads a
floating-point number or a date, so these keep no more than their kind.
-/

namespace ExportAtlas

/-- A TOML value. -/
inductive Toml where
  | string (value : String)
  | integer (value : Int)
  | float
  | boolean (value : Bool)
  | datetime
  | array (items : List Toml)
  | table (entries : List (String × Toml))
  deriving Inhabited, Repr

namespace Toml

/-- The text of a string value. -/
def string? : Toml → Option String
  | .string s => some s
  | _ => none

/-- The texts of an array that holds nothing but strings. -/
def strings? : Toml → Option (List String)
  | .array items => items.mapM string?
  | _ => none

/-- The value of an integer that is not negative. -/
def nat? : Toml → Option Nat
  | .integer (.ofNat n) => some n
  | _ => none

/-- The value of a boolean. -/
def boolean? : Toml → Option Bool
  | .boolean b => some b
  | _ => none

/-! ## Reading -/

/-- A reader of one form: what it found at the front of a text, and the text
that is left. -/
abbrev Read (α : Type) := List Char → Option (α × List Char)

/-- Blank within a line. -/
def isSpace (c : Char) : Bool := c == ' ' || c == '\t'

/-- The text after the blanks at its front. -/
def skipSpace (s : List Char) : List Char := s.dropWhile isSpace

/-- The text after one character, if it begins with it. -/
def expect (k : Char) : List Char → Option (List Char)
  | c :: s => if c = k then some s else none
  | [] => none

/-- The text after a newline, if it begins with one; a carriage return counts
only in front of a line feed. -/
def newline : List Char → Option (List Char)
  | '\n' :: s => some s
  | '\r' :: '\n' :: s => some s
  | _ => none

/-- A character that may stand in a comment: a tab or no control character. -/
def isPlain (c : Char) : Bool := c == '\t' || (0x20 ≤ c.toNat && c.toNat != 0x7F)

/-- The text after what may follow a statement on its line: blanks, a comment,
and the end of the line or of the text. -/
def lineEnd (s : List Char) : Option (List Char) :=
  let s := skipSpace s
  let s :=
    match s with
    | '#' :: s => s.dropWhile isPlain
    | s => s
  match s with
  | [] => some []
  | s => newline s

/-- The text after blanks, newlines and comments, read inside a comment or
outside. -/
def skipBlanks : (inComment : Bool) → List Char → Option (List Char)
  | _, [] => some []
  | _, '\n' :: s => skipBlanks false s
  | _, '\r' :: '\n' :: s => skipBlanks false s
  | true, c :: s => if isPlain c then skipBlanks true s else none
  | false, c :: s =>
    if isSpace c then skipBlanks false s
    else if c = '#' then skipBlanks true s
    else some (c :: s)

end Toml

end ExportAtlas
