import ExportAtlas.Text.Property
/-!
# Scanning a source text

A scan reads one form at the front of a text and says what it found and
what text is left. Scans are put together from a few readers of words,
blanks and names; `occurrences` runs one over a whole text and lists the
places where it succeeds, leftmost first and without overlap.

No reader looks back. Each of them takes the longest stretch it can, and
what may follow that stretch never begins with a character the stretch
could have taken, so nothing is lost by not trying shorter ones.
-/

namespace ExportAtlas

namespace Source

open Text (isBlank isWord)

/-- A reader of one form: what it found at the front of a text, and the text
that is left. -/
abbrev Scan (α : Type) := List Char → Option (α × List Char)

/-! ## Readers -/

/-- The text after the given characters, if it begins with them. -/
def expect : List Char → List Char → Option (List Char)
  | [], s => some s
  | k :: ks, c :: s => if k = c then expect ks s else none
  | _ :: _, [] => none

/-- The text after one character, if it begins with it. -/
def expectChar (k : Char) : List Char → Option (List Char) := expect [k]

/-- The text as a reader leaves it, or as it stands where the reader fails. -/
def optionally (read : List Char → Option (List Char)) (s : List Char) : List Char :=
  (read s).getD s

/-- The text after the blanks at its front. -/
def skipBlanks (s : List Char) : List Char := s.dropWhile isBlank

/-- The text after at least one blank. -/
def someBlanks : List Char → Option (List Char)
  | [] => none
  | c :: s => if isBlank c then some (skipBlanks s) else none

/-- The text after a word and at least one blank. -/
def keyword (word : String) (s : List Char) : Option (List Char) :=
  (expect word.toList s).bind someBlanks

/-- No word character stands at the front of the text. -/
def atWordEnd : List Char → Bool
  | [] => true
  | c :: _ => !isWord c

/-- A whole word stands at the front of the text; the text after it. -/
def wholeWord (word : String) (s : List Char) : Option (List Char) := do
  let s ← expect word.toList s
  if atWordEnd s then some s else none

/-! ## Names -/

/-- A character that may begin a name. -/
def isNameStart (c : Char) : Bool := c.isAlpha || c == '_' || c == '$'

/-- A character that may continue a name. -/
def isNamePart (c : Char) : Bool := isWord c || c == '$'

/-- A name, as long as it goes. -/
def name : Scan (List Char)
  | [] => none
  | c :: s =>
    if isNameStart c then some (c :: s.takeWhile isNamePart, s.dropWhile isNamePart) else none

/-- A name between quotes; the two quotes need not be of one kind. -/
def quotedName (s : List Char) : Option (List Char × List Char) := do
  let quote (s : List Char) := (expectChar '"' s).or (expectChar '\'' s)
  let s ← quote s
  let (found, s) ← name s
  let s ← quote s
  some (found, s)

/-- The text of a line from here on is blank but for at most one semicolon,
and may end in a carriage return; what is left begins with the newline. -/
def endOfStatement (s : List Char) : Option (List Char) :=
  let skipSpaces (s : List Char) := s.dropWhile fun c => c == ' ' || c == '\t'
  let s := skipSpaces (optionally (expectChar ';') (skipSpaces s))
  let s := optionally (expectChar '\r') s
  match s with
  | [] => some []
  | c :: _ => if c = '\n' then some s else none

/-! ## A scan over a whole text -/

/-- The places of a text where a scan succeeds at the start of a word, with
what it found there. The text begins at `position`, right after a word
character if `inWord`; its first `skip` characters belong to the last
finding. -/
def occurrencesFrom {α : Type} (scan : Scan α) :
    (inWord : Bool) → (skip position : Nat) → List Char → List (Nat × α)
  | _, _, _, [] => []
  | _, skip + 1, position, c :: rest =>
    occurrencesFrom scan (isWord c) skip (position + 1) rest
  | inWord, 0, position, c :: rest =>
    match if inWord then none else scan (c :: rest) with
    | none => occurrencesFrom scan (isWord c) 0 (position + 1) rest
    | some (found, left) =>
      (position, found) ::
        occurrencesFrom scan (isWord c) (rest.length - left.length) (position + 1) rest

/-- The places of a text where a scan succeeds at the start of a word, with
what it found there, leftmost first and without overlap. -/
def occurrences {α : Type} (scan : Scan α) (text : List Char) : List (Nat × α) :=
  occurrencesFrom scan false 0 0 text

end Source

end ExportAtlas
