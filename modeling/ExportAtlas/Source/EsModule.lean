import ExportAtlas.Source.Callable
import ExportAtlas.Source.Declaration
/-!
# ES module declarations

The `export` forms of a masked source text: functions, constants, types,
interfaces, classes and the default export.
-/

namespace ExportAtlas

namespace Source

namespace EsModule

/-! ## The forms -/

/-- `export` and the blanks behind it. -/
def exportHead : List Char → Option (List Char) := keyword "export"

/-- A function's name, perhaps behind the star of a generator. -/
def functionName (s : List Char) : Option (List Char × List Char) := do
  let s ← expect "function".toList s
  name (skipBlanks (optionally (expectChar '*') (skipBlanks s)))

/-- `export function f`, perhaps `async`, perhaps a generator. -/
def functionForm : Scan (List Char) := fun s => do
  let s ← exportHead s
  functionName (optionally (keyword "async") s)

/-- `export const c`; the finding holds the text behind the name as well. -/
def constantForm : Scan (List Char × List Char) := fun s => do
  let s ← exportHead s
  let s ← keyword "const" s
  let (found, s) ← name s
  some ((found, s), s)

/-- `export type T` or `export interface T`, by the word given, perhaps behind
`declare`. -/
def typeForm (word : String) : Scan (List Char) := fun s => do
  let s ← exportHead s
  let s ← keyword word (optionally (keyword "declare") s)
  name s

/-- `export class C`, perhaps behind `default`, `declare` and `abstract`; the
finding says whether `default` was there. -/
def classForm : Scan (Bool × List Char) := fun s => do
  let s ← exportHead s
  let isDefault := (keyword "default" s).isSome
  let s := optionally (keyword "default") s
  let s ← keyword "class" (optionally (keyword "abstract") (optionally (keyword "declare") s))
  let (found, s) ← name s
  some ((isDefault, found), s)

/-- `export default function f`, perhaps `async`, perhaps a generator. -/
def defaultFunctionForm : Scan (List Char) := fun s => do
  let s ← exportHead s
  let s ← keyword "default" s
  functionName (optionally (keyword "async") s)

/-- `export default f` with nothing else on the line. -/
def defaultNameForm : Scan (List Char) := fun s => do
  let s ← exportHead s
  let s ← keyword "default" s
  let (found, s) ← name s
  let s ← endOfStatement s
  some (found, s)

/-- `f as default`, where `before` is the character in front of it. A name
that begins with `$` has a word boundary in front only behind a word
character. -/
def aliasAt (before : Char) (s : List Char) : Option (List Char × List Char) := do
  if atWordEnd s == Text.isWord before then
    let (found, s) ← name s
    let s ← someBlanks s
    let s ← keyword "as" s
    let s ← wholeWord "default" s
    some (found, s)
  else none

/-- The first `f as default` before the next closing brace. -/
def findAlias (before : Char) : List Char → Option (List Char × List Char)
  | [] => none
  | c :: rest =>
    (aliasAt before (c :: rest)).or (if c = '}' then none else findAlias c rest)

/-- `export { …, f as default`. -/
def defaultAliasForm : Scan (List Char) := fun s => do
  let s ← expect "export".toList s
  let s ← expectChar '{' (skipBlanks s)
  findAlias '{' s

/-! ## Constants -/

/-- An opening bracket of a type annotation. -/
def isOpening (c : Char) : Bool := c == '(' || c == '[' || c == '{' || c == '<'

/-- A closing bracket of a type annotation. -/
def isClosing (c : Char) : Bool := c == ')' || c == ']' || c == '}' || c == '>'

/-- The text behind the assignment that ends a type annotation, read at a
bracket depth. A closing bracket of any kind closes any opening one, the
arrow of a function type is no bracket, and outside brackets a semicolon or
a newline ends the declaration without a value. -/
def annotated : (depth : Nat) → List Char → Option (List Char)
  | _, [] => none
  | depth, '=' :: '>' :: rest => annotated depth rest
  | depth, c :: rest =>
    if isOpening c then annotated (depth + 1) rest
    else if isClosing c then annotated (depth - 1) rest
    else if c = '=' ∧ depth = 0 then some rest
    else if (c = ';' ∨ c = '\n') ∧ depth = 0 then none
    else annotated depth rest

/-- The initializer of a constant, read from the text behind its name. A
comparison or an arrow is none. -/
def initializer (rest : List Char) : Option (List Char) :=
  match skipBlanks rest with
  | '=' :: s =>
    match s with
    | '=' :: _ => none
    | '>' :: _ => none
    | _ => some s
  | ':' :: s => annotated 0 s
  | _ => none

/-- The constants of a text that have an initializer; one whose initializer
reads as a function declares a function. -/
def constants (text : List Char) : List Declaration :=
  (occurrences constantForm text).filterMap fun (position, found, rest) =>
    (initializer rest).map fun value =>
      ⟨position, if isCallable value then .function else .constant, String.ofList found⟩

/-- The classes of a text; a default one declares the default export too. -/
def classes (text : List Char) : List Declaration :=
  (occurrences classForm text).flatMap fun (position, isDefault, found) =>
    let name := String.ofList found
    ⟨position, .classDef, name⟩ :: if isDefault then [⟨position, .defaultExport, name⟩] else []

/-- Every ES module declaration of a masked text, form by form. -/
def declarations (text : List Char) : List Declaration :=
  declare .function (occurrences functionForm text) ++
  constants text ++
  declare .type (occurrences (typeForm "type") text) ++
  declare .interface (occurrences (typeForm "interface") text) ++
  classes text ++
  declare .defaultExport (occurrences defaultFunctionForm text) ++
  declareUnreserved .defaultExport (occurrences defaultNameForm text) ++
  declare .defaultExport (occurrences defaultAliasForm text)

end EsModule

end Source

end ExportAtlas
