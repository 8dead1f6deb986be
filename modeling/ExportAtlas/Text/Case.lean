import ExportAtlas.Text.Property
import ExportAtlas.Text.Case.Table
/-!
# Lower and upper case

The full case mappings of Unicode. One rule looks at the surroundings of a
letter: a capital sigma that ends a word becomes the final form `ς`, any
other one `σ`.
-/

namespace ExportAtlas

namespace Text

namespace Case

/-- The code point that a table of runs gives for `n`, if a run covers it. -/
def image? (runs : List Run) (n : Nat) : Option Nat :=
  (runs.find? fun r => r.first ≤ n && n ≤ r.last && (n - r.first) % r.step == 0).map
    fun r => r.target + (n - r.first)

/-- A mapping by its two tables; what neither lists stays as it is. -/
def mapped (runs : List Run) (expansions : List (Nat × List Nat)) (c : Char) : List Char :=
  match image? runs c.toNat with
  | some n => [Char.ofNat n]
  | none =>
    match expansions.lookup c.toNat with
    | some ns => ns.map Char.ofNat
    | none => [c]

/-- The lower case of one character on its own. -/
def lowerChar (c : Char) : List Char :=
  if c.toNat < 0x80 then [c.toLower] else mapped lowerRuns lowerExpansions c

/-- The upper case of one character. -/
def upperChar (c : Char) : List Char :=
  if c.toNat < 0x80 then [c.toUpper] else mapped upperRuns upperExpansions c

/-- Past the characters that case ignores stands a cased one. -/
def reachesCased (s : List Char) : Bool :=
  match s.dropWhile isCaseIgnorable with
  | [] => false
  | c :: _ => isCased c

/-- A sigma ends its word: a cased letter comes before it and none after.
`before` is the text on its left, nearest character first. -/
def endsWord (before after : List Char) : Bool :=
  reachesCased before && !reachesCased after

/-- The lower case of a text that follows `before`, given nearest first. -/
def lowerAfter (before : List Char) : List Char → List Char
  | [] => []
  | c :: rest =>
    (if c = 'Σ' then [if endsWord before rest then 'ς' else 'σ'] else lowerChar c) ++
      lowerAfter (c :: before) rest

end Case

/-- The lower case of a list of characters. -/
def lowerChars (s : List Char) : List Char := Case.lowerAfter [] s

/-- The lower case of a text. -/
def lower (s : String) : String := String.ofList (lowerChars s.toList)

/-- The upper case of a text. -/
def upper (s : String) : String := String.ofList (s.toList.flatMap Case.upperChar)

/-- The text with its first character in upper case. -/
def capitalize (s : String) : String :=
  match s.toList with
  | [] => ""
  | c :: rest => String.ofList (Case.upperChar c ++ rest)

end Text

end ExportAtlas
