import ExportAtlas.Text.Property.Table
/-!
# Character properties

Which characters are blank, alphabetic, numeric or part of a word, for all
of Unicode. ASCII is decided by cases, so a statement about ASCII text never
reads a table; beyond it a property is the parity of a position in its table
of bounds.
-/

namespace ExportAtlas

namespace Text

namespace Property

/-- How many entries of an increasing table lie at or below `n`, found by
halving the stretch from `lo` to `hi`; `fuel` bounds the number of halvings. -/
def countAtMost (bounds : Array Nat) (n : Nat) : (fuel lo hi : Nat) → Nat
  | 0, lo, _ => lo
  | fuel + 1, lo, hi =>
    if lo < hi then
      let mid := (lo + hi) / 2
      if bounds.getD mid 0 ≤ n then countAtMost bounds n fuel (mid + 1) hi
      else countAtMost bounds n fuel lo mid
    else lo

/-- A code point has the property whose membership changes at `bounds`. -/
def holdsAt (bounds : Array Nat) (n : Nat) : Bool :=
  countAtMost bounds n bounds.size 0 bounds.size % 2 == 1

end Property

open Property

/-- Unicode `White_Space`. -/
def isBlank (c : Char) : Bool :=
  let n := c.toNat
  n == 0x20 || (0x9 ≤ n && n ≤ 0xD) || n == 0x85 || n == 0xA0 || n == 0x1680 ||
    (0x2000 ≤ n && n ≤ 0x200A) || n == 0x2028 || n == 0x2029 || n == 0x202F || n == 0x205F ||
    n == 0x3000

/-- Unicode `Alphabetic`. -/
def isAlphabetic (c : Char) : Bool :=
  if c.toNat < 0x80 then c.isAlpha else holdsAt alphabeticBounds c.toNat

/-- The number categories of Unicode: decimal digits, letter-like and other
numbers. -/
def isNumeric (c : Char) : Bool :=
  if c.toNat < 0x80 then c.isDigit else holdsAt numericBounds c.toNat

/-- A word character: alphabetic, a mark, a decimal digit, connecting
punctuation or a join control. -/
def isWord (c : Char) : Bool :=
  if c.toNat < 0x80 then c.isAlphanum || c == '_' else holdsAt wordBounds c.toNat

/-- Unicode `Cased`: the character has, or is, an upper, lower or title case
form. -/
def isCased (c : Char) : Bool :=
  if c.toNat < 0x80 then c.isAlpha else holdsAt casedBounds c.toNat

/-- Unicode `Case_Ignorable`: the character is skipped when the surroundings
of a letter are looked at. -/
def isCaseIgnorable (c : Char) : Bool :=
  if c.toNat < 0x80 then
    c == '\'' || c == '.' || c == ':' || c == '^' || c == '\x60'
  else holdsAt caseIgnorableBounds c.toNat

/-! ## Trimming -/

/-- The text from its first character that is not blank. -/
def trimLeft (s : List Char) : List Char := s.dropWhile isBlank

/-- The text up to its last character that is not blank. -/
def trimRight (s : List Char) : List Char := (s.reverse.dropWhile isBlank).reverse

/-- The text without the blanks at its two ends. -/
def trim (s : List Char) : List Char := trimRight (trimLeft s)

end Text

end ExportAtlas
