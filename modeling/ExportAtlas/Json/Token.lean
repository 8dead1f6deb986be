import ExportAtlas.Json.Basic
/-!
# JSON tokens

The lexical grammar of JSON, read strictly: blanks are the four that the
format names, a string holds no control character and no half of a surrogate
pair, and a number is refused when the double nearest to it is infinite.
-/

namespace ExportAtlas

namespace Json

/-- A token of JSON text. -/
inductive Token where
  | openArray
  | closeArray
  | openObject
  | closeObject
  | comma
  | colon
  | string (text : String)
  /-- A number, `true`, `false` or `null`. -/
  | scalar (value : Json)

/-! ## Numbers -/

/-- The double nearest to a natural number, ties to the even neighbour, as
long as it is finite: 53 significant bits. -/
def nearestDouble (n : Nat) : Nat :=
  if n < Nat.pow 2 53 then n
  else
    let unit := Nat.pow 2 (n.log2 - 52)
    let quotient := n / unit
    let remainder := n % unit
    if 2 * remainder < unit then quotient * unit
    else if unit < 2 * remainder then (quotient + 1) * unit
    else (quotient + quotient % 2) * unit

/-- The product of the double nearest to `significand` and the double nearest
to `10 ^ exponent` is infinite: it reaches the midpoint between the largest
double and the next power of two. -/
def isInfinite (significand : Nat) (exponent : Int) : Bool :=
  significand != 0 &&
    (308 < exponent ||
      (0 ≤ exponent &&
        Nat.pow 2 1024 - Nat.pow 2 970 ≤
          nearestDouble significand * nearestDouble (Nat.pow 10 exponent.toNat)))

/-- The value of a digit. -/
def digitValue (c : Char) : Nat := c.toNat - '0'.toNat

/-- A significand with one more digit, if it still fits into 64 bits. -/
def appendDigit? (significand : Nat) (c : Char) : Option Nat :=
  let n := significand * 10 + digitValue c
  if n < Nat.pow 2 64 then some n else none

/-- The significand and the exponent that integer digits make: digits that no
longer fit raise the exponent. -/
def readInteger (significand : Nat) : List Char → Nat × Int
  | [] => (significand, 0)
  | c :: rest =>
    match appendDigit? significand c with
    | some n => readInteger n rest
    | none => (significand, (rest.length + 1 : Nat))

/-- The significand and the exponent with fraction digits added: digits that
no longer fit are dropped. -/
def readFraction (significand : Nat) (exponent : Int) : List Char → Nat × Int
  | [] => (significand, exponent)
  | c :: rest =>
    match appendDigit? significand c with
    | some n => readFraction n (exponent - 1) rest
    | none => (significand, exponent)

/-- The digits at the front of a text, and what follows them. -/
def spanDigits (s : List Char) : List Char × List Char :=
  (s.takeWhile Char.isDigit, s.dropWhile Char.isDigit)

/-- The number that a list of digits writes. -/
def natOfDigits (digits : List Char) : Nat :=
  digits.foldl (fun n c => n * 10 + digitValue c) 0

/-- The exponent part of a number, which ends it; an absent one is zero. -/
def exponent? : List Char → Option Int
  | [] => some 0
  | c :: s =>
    if c = 'e' ∨ c = 'E' then
      let (negative, s) : Bool × List Char :=
        match s with
        | '-' :: s => (true, s)
        | '+' :: s => (false, s)
        | s => (false, s)
      let (digits, s) := spanDigits s
      if digits.isEmpty || !s.isEmpty then none
      else some (if negative then -(natOfDigits digits : Int) else natOfDigits digits)
    else none

/-- The fraction digits at the front of a text, and what follows them; a point
without a digit is refused. -/
def fraction? : List Char → Option (List Char × List Char)
  | '.' :: s =>
    let (digits, s) := spanDigits s
    if digits.isEmpty then none else some (digits, s)
  | s => some ([], s)

/-- The number that a whole text writes. -/
def number? (s : List Char) : Option Number := do
  let (negative, s) : Bool × List Char :=
    match s with
    | '-' :: s => (true, s)
    | s => (false, s)
  let (integer, s) := spanDigits s
  if integer.isEmpty || (integer.head? == some '0' && 1 < integer.length) then none
  let (digits, s) ← fraction? s
  let written ← exponent? s
  let (significand, exponent) := readInteger 0 integer
  let (significand, exponent) := readFraction significand exponent digits
  if isInfinite significand (exponent + written) then none
  else some ⟨negative, significand, exponent + written⟩

/-- The value that a run of letters and digits stands for. -/
def scalar? (s : List Char) : Option Token :=
  if s = "null".toList then some (.scalar .null)
  else if s = "true".toList then some (.scalar (.bool true))
  else if s = "false".toList then some (.scalar (.bool false))
  else (number? s).map fun n => .scalar (.number n)

/-! ## Strings -/

/-- The value of a hexadecimal digit. -/
def hexValue? (c : Char) : Option Nat :=
  if c.isDigit then some (c.toNat - '0'.toNat)
  else if 'a' ≤ c ∧ c ≤ 'f' then some (c.toNat - 'a'.toNat + 10)
  else if 'A' ≤ c ∧ c ≤ 'F' then some (c.toNat - 'A'.toNat + 10)
  else none

/-- The code unit that four hexadecimal digits write. -/
def codeUnit? (a b c d : Char) : Option Nat := do
  some (((← hexValue? a) * 16 + (← hexValue? b)) * 256 + (← hexValue? c) * 16 + (← hexValue? d))

/-- The character of a one-letter escape. -/
def escaped? : Char → Option Char
  | '"' => some '"'
  | '\\' => some '\\'
  | '/' => some '/'
  | 'b' => some '\x08'
  | 'f' => some '\x0c'
  | 'n' => some '\n'
  | 'r' => some '\r'
  | 't' => some '\t'
  | _ => none

/-- The first half of a surrogate pair. -/
def isHighSurrogate (n : Nat) : Bool := 0xD800 ≤ n && n < 0xDC00

/-- The second half of a surrogate pair. -/
def isLowSurrogate (n : Nat) : Bool := 0xDC00 ≤ n && n < 0xE000

/-- The character that a surrogate pair stands for. -/
def joinSurrogates (high low : Nat) : Char :=
  Char.ofNat (0x10000 + (high - 0xD800) * 0x400 + (low - 0xDC00))

/-! ## Tokens of a text -/

/-- Blank between tokens. -/
def isSpace (c : Char) : Bool := c == ' ' || c == '\n' || c == '\r' || c == '\t'

/-- The token of a single character. -/
def punctuation? : Char → Option Token
  | '[' => some .openArray
  | ']' => some .closeArray
  | '{' => some .openObject
  | '}' => some .closeObject
  | ',' => some .comma
  | ':' => some .colon
  | _ => none

/-- What the lexer is in the middle of; `run` holds the characters read so
far, last one first. -/
inductive Mode where
  | between
  | bare (run : List Char)
  | quoted (run : List Char)

/-- The tokens of a text, read from a mode on; `none` if the text is not
lexically JSON. -/
def tokensFrom : Mode → List Char → Option (List Token)
  | .between, [] => some []
  | .between, c :: rest =>
    if isSpace c then tokensFrom .between rest
    else if c = '"' then tokensFrom (.quoted []) rest
    else
      match punctuation? c with
      | some t => (tokensFrom .between rest).map (t :: ·)
      | none => tokensFrom (.bare [c]) rest
  | .bare run, [] => (scalar? run.reverse).map ([·])
  | .bare run, c :: rest =>
    if isSpace c then
      (scalar? run.reverse).bind fun v => (tokensFrom .between rest).map (v :: ·)
    else
      match punctuation? c with
      | some t => (scalar? run.reverse).bind fun v => (tokensFrom .between rest).map (v :: t :: ·)
      | none => if c = '"' then none else tokensFrom (.bare (c :: run)) rest
  | .quoted _, [] => none
  | .quoted run, '"' :: rest =>
    (tokensFrom .between rest).map (.string (String.ofList run.reverse) :: ·)
  | .quoted run, '\\' :: 'u' :: a :: b :: c :: d :: rest =>
    match codeUnit? a b c d with
    | none => none
    | some unit =>
      if isHighSurrogate unit then
        match rest with
        | '\\' :: 'u' :: a :: b :: c :: d :: rest =>
          match codeUnit? a b c d with
          | none => none
          | some low =>
            if isLowSurrogate low then tokensFrom (.quoted (joinSurrogates unit low :: run)) rest
            else none
        | _ => none
      else if isLowSurrogate unit then none
      else tokensFrom (.quoted (Char.ofNat unit :: run)) rest
  | .quoted run, '\\' :: e :: rest =>
    match escaped? e with
    | none => none
    | some c => tokensFrom (.quoted (c :: run)) rest
  | .quoted run, c :: rest =>
    if c = '\\' ∨ c.toNat < 0x20 then none else tokensFrom (.quoted (c :: run)) rest

/-- The tokens of a text; `none` if the text is not lexically JSON. -/
def tokens? (s : List Char) : Option (List Token) := tokensFrom .between s

end Json

end ExportAtlas
