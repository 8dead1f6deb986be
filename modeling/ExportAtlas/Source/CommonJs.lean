import ExportAtlas.Source.Callable
import ExportAtlas.Source.Declaration
import ExportAtlas.Text.Pieces
import ExportAtlas.Text.Case
/-!
# CommonJS declarations

The assignments to `exports` and `module.exports` of a masked source text,
and the registrations of Mongoose models, which count as classes.
-/

namespace ExportAtlas

namespace Source

namespace CommonJs

/-! ## The forms -/

/-- `exports.f =` or `module.exports.f =`; the finding holds the text behind
the assignment as well. -/
def memberForm : Scan (List Char × List Char) := fun s => do
  let s ← expect "exports.".toList (optionally (expect "module.".toList) s)
  let (found, s) ← name s
  let s ← expectChar '=' (skipBlanks s)
  some ((found, s), s)

/-- `module.exports =` and the blanks behind it. -/
def moduleHead (s : List Char) : Option (List Char) := do
  let s ← expect "module.exports".toList s
  let s ← expectChar '=' (skipBlanks s)
  some (skipBlanks s)

/-- `module.exports = { … }` up to the first closing brace, with something
between the braces. The finding is what stands between them, and how far it
lies from the start of the form. -/
def objectForm : Scan (Nat × List Char) := fun s => do
  let inside ← moduleHead s
  let inside ← expectChar '{' inside
  let body := inside.takeWhile (· != '}')
  let rest ← expectChar '}' (inside.dropWhile (· != '}'))
  if body.isEmpty then none else some ((s.length - inside.length, body), rest)

/-- `module.exports = f` with nothing else on the line. -/
def wholeForm : Scan (List Char) := fun s => do
  let s ← moduleHead s
  let (found, s) ← name s
  let s ← endOfStatement s
  some (found, s)

/-- `mongoose.model("M"`, perhaps with a type argument up to the first `>`. -/
def modelForm : Scan (List Char) := fun s => do
  let s ← expect "mongoose.model".toList s
  let s := optionally (fun s => (expectChar '<' s).bind (skipPast '>')) (skipBlanks s)
  let s ← expectChar '(' (skipBlanks s)
  quotedName (skipBlanks s)

/-! ## Members -/

/-- A name in capitals: a capital letter, and nothing but capitals, digits and
underscores. -/
def isCapitals (name : List Char) : Bool :=
  name.any Char.isUpper && name.all fun c => c.isUpper || c.isDigit || c == '_'

/-- A character without regard to case. The long s is the only character
beyond ASCII that is a letter of the words below in another case. -/
def foldCase (c : Char) : Char := if c = 'ſ' then 's' else c.toLower

/-- A name that begins with `config`, `options` or `settings` in any case. -/
def isConfigName (name : List Char) : Bool :=
  ["config", "options", "settings"].any fun word =>
    word.toList.isPrefixOf (name.map foldCase)

/-- A member that is no function counts as a constant if its name reads like
one. -/
def isConstantName (name : List Char) : Bool := isCapitals name || isConfigName name

/-- The members of `exports` that a text assigns. `exports.x == y` compares
and assigns nothing. -/
def members (text : List Char) : List Declaration :=
  (occurrences memberForm text).filterMap fun (position, found, value) =>
    if value.head? = some '=' then none
    else if isCallableAssignment value then some ⟨position, .function, String.ofList found⟩
    else if isConstantName found then some ⟨position, .constant, String.ofList found⟩
    else none

/-! ## Object literals -/

/-- An ASCII identifier. -/
def isPlainName : List Char → Bool
  | [] => false
  | c :: rest => isNameStart c && rest.all fun c => c.isAlphanum || c == '_' || c == '$'

/-- The key of an item of an object literal: what stands before the colon. -/
def keyOf (item : List Char) : List Char := Text.trim (Text.cutAt ':' item).1

/-- The items of an object literal with the places where they begin. -/
def placed : (position : Nat) → List (List Char) → List (Nat × List Char)
  | _, [] => []
  | position, item :: items => (position, item) :: placed (position + item.length + 1) items

/-- The keys of the first object literal assigned to `module.exports`; they
declare functions. -/
def objectKeys (text : List Char) : List Declaration :=
  match (occurrences objectForm text).head? with
  | none => []
  | some (position, offset, body) =>
    (placed (position + offset) (Text.splitOn ',' body)).filterMap fun (position, item) =>
      if isPlainName (keyOf item) then some ⟨position, .function, String.ofList (keyOf item)⟩
      else none

/-- Every CommonJS declaration of a masked text, form by form. -/
def declarations (text : List Char) : List Declaration :=
  members text ++
  objectKeys text ++
  declareUnreserved .wholeModule (occurrences wholeForm text) ++
  declare .classDef (occurrences modelForm text)

end CommonJs

end Source

end ExportAtlas
