import ExportAtlas.Toml.Basic
/-!
# TOML strings

The four kinds of strings: basic ones with escapes and literal ones without,
each on one line or over several.
-/

namespace ExportAtlas

namespace Toml

/-- The value of a hexadecimal digit. -/
def hexValue? (c : Char) : Option Nat :=
  if c.isDigit then some (c.toNat - '0'.toNat)
  else if 'a' ≤ c ∧ c ≤ 'f' then some (c.toNat - 'a'.toNat + 10)
  else if 'A' ≤ c ∧ c ≤ 'F' then some (c.toNat - 'A'.toNat + 10)
  else none

/-- The character whose number hexadecimal digits write; a surrogate is
none. -/
def scalar? (digits : List Char) : Option Char := do
  let n ← digits.foldlM (fun n c => (hexValue? c).map (n * 16 + ·)) 0
  if n.isValidChar then some (Char.ofNat n) else none

/-- The character of a one-letter escape. -/
def escaped? : Char → Option Char
  | 'b' => some '\x08'
  | 't' => some '\t'
  | 'n' => some '\n'
  | 'f' => some '\x0c'
  | 'r' => some '\r'
  | '"' => some '"'
  | '\\' => some '\\'
  | _ => none

/-- The inside of a basic string and what follows its closing quote; `run`
holds the characters read so far, last one first. -/
def basicFrom (run : List Char) : Read String
  | [] => none
  | '"' :: s => some (String.ofList run.reverse, s)
  | '\\' :: 'u' :: a :: b :: c :: d :: s =>
    (scalar? [a, b, c, d]).bind fun x => basicFrom (x :: run) s
  | '\\' :: 'U' :: a :: b :: c :: d :: e :: f :: g :: h :: s =>
    (scalar? [a, b, c, d, e, f, g, h]).bind fun x => basicFrom (x :: run) s
  | '\\' :: c :: s => (escaped? c).bind fun x => basicFrom (x :: run) s
  | c :: s => if isPlain c ∧ c ≠ '\\' then basicFrom (c :: run) s else none

/-- The inside of a literal string and what follows its closing quote. -/
def literal (s : List Char) : Option (String × List Char) :=
  let isInside (c : Char) : Bool := isPlain c && c != '\''
  match s.dropWhile isInside with
  | '\'' :: rest => some (String.ofList (s.takeWhile isInside), rest)
  | _ => none

/-- The inside of a string over several lines that ends at three of its
quotes; up to two more in front of them belong to it. A basic one has
escapes, and a backslash at the end of a line takes the blanks and newlines
after it along: reading goes on with `skipping` set. -/
def linesFrom (quote : Char) (hasEscapes : Bool) :
    (skipping : Bool) → (run : List Char) → Read String
  | _, _, [] => none
  | skipping, run, '\r' :: '\n' :: s =>
    linesFrom quote hasEscapes skipping (if skipping then run else '\n' :: run) s
  | skipping, run, '\n' :: s =>
    linesFrom quote hasEscapes skipping (if skipping then run else '\n' :: run) s
  | _, run, '\\' :: s =>
    if !hasEscapes then linesFrom quote hasEscapes false ('\\' :: run) s
    else
      match s with
      | 'u' :: a :: b :: c :: d :: s =>
        (scalar? [a, b, c, d]).bind fun x => linesFrom quote hasEscapes false (x :: run) s
      | 'U' :: a :: b :: c :: d :: e :: f :: g :: h :: s =>
        (scalar? [a, b, c, d, e, f, g, h]).bind fun x =>
          linesFrom quote hasEscapes false (x :: run) s
      | [] => none
      | c :: s =>
        match escaped? c with
        | some x => linesFrom quote hasEscapes false (x :: run) s
        | none =>
          if (newline (skipSpace (c :: s))).isSome then
            linesFrom quote hasEscapes true run (c :: s)
          else none
  | skipping, run, c :: s =>
    if skipping && isSpace c then linesFrom quote hasEscapes true run s
    else if c = quote then
      match s with
      | c₂ :: c₃ :: s₃ =>
        if c₂ = quote ∧ c₃ = quote then
          let more := (s₃.take 2).takeWhile (· == quote)
          some (String.ofList (run.reverse ++ more), s₃.drop more.length)
        else linesFrom quote hasEscapes false (c :: run) s
      | _ => none
    else if isPlain c then linesFrom quote hasEscapes false (c :: run) s
    else none

/-- A string over several lines behind its three opening quotes; a newline
right there is left out. -/
def multiline (quote : Char) (hasEscapes : Bool) (s : List Char) :
    Option (String × List Char) :=
  linesFrom quote hasEscapes false [] ((newline s).getD s)

/-- A string of any kind. -/
def text : Read String
  | '"' :: '"' :: '"' :: s => multiline '"' true s
  | '"' :: s => basicFrom [] s
  | '\'' :: '\'' :: '\'' :: s => multiline '\'' false s
  | '\'' :: s => literal s
  | _ => none

end Toml

end ExportAtlas
