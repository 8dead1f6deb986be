import ExportAtlas.Ignore.Rules
import ExportAtlas.Text.Case
/-!
# The user's rules for all projects

Version control lets a user keep ignore rules for all projects in one file. Its
settings name that file, in the first of their own files that does, and
otherwise it lies in its usual place.
-/

namespace ExportAtlas

open Text

namespace UserRules

/-- A value without the quotation marks around it, of which each may be
missing. -/
def unquote (value : List Char) : List Char :=
  let dropQuote (s : List Char) := if s.head? = some '"' then trim s.tail else s
  (dropQuote (dropQuote (trim value)).reverse).reverse

/-- The path that a line of settings gives for the file. -/
def namedOn? (line : List Char) : Option (List Char) :=
  match cutAt '=' line with
  | (_, none) => none
  | (key, some value) =>
    let path := unquote value
    if lowerChars (trim key) = "excludesfile".toList ∧ path ≠ [] ∧ ¬path.any isBlank then
      some path
    else none

/-- The path that settings give for the file, on the first line that gives one. -/
def named? (settings : List UInt8) : Option (List Char) :=
  (IgnoreRule.lines settings).findSome? namedOn?

/-- A path with the user's home folder for each tilde. -/
def expand (home path : List Char) : List Char :=
  path.flatMap fun c => if c = '~' then home else [c]

/-- The path of the file, from the settings that there are and its usual path. -/
def path? (home : Option String) (settings : List (List UInt8)) (usual : Option Path) :
    Option Path :=
  match settings.findSome? named? with
  | none => usual
  | some path =>
    let home := home.map String.toList
    some (Path.ofString (String.ofList (expand (home.getD ['~']) path)))

end UserRules

end ExportAtlas
