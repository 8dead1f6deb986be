import ExportAtlas.Source.Scan
/-!
# Callable values

Which right-hand sides read as a function. ES modules and CommonJS judge an
open parenthesis differently: an ES initializer must be an arrow function,
with parameters up to the first closing parenthesis; in CommonJS the
parenthesis alone is enough.
-/

namespace ExportAtlas

namespace Source

/-- `=>` stands at the front of the text. -/
def atArrow (s : List Char) : Bool := (expect "=>".toList s).isSome

/-- A function expression: the word `function`. -/
def isFunctionExpression (s : List Char) : Bool := (wholeWord "function" s).isSome

/-- An arrow function of one bare parameter. -/
def isBareArrow (s : List Char) : Bool :=
  match name s with
  | some (_, rest) => atArrow (skipBlanks rest)
  | none => false

/-- The text after the next occurrence of a character. -/
def skipPast (stop : Char) (s : List Char) : Option (List Char) :=
  match s.dropWhile (· != stop) with
  | [] => none
  | _ :: rest => some rest

/-- The text after a type parameter list, up to the first `>`, and the
blanks behind it. -/
def skipTypeParameters (s : List Char) : Option (List Char) := do
  let s ← expectChar '<' s
  let s ← skipPast '>' s
  some (skipBlanks s)

/-- An arrow function of a parameter list: perhaps type parameters, the
parameters up to the first `)`, perhaps a return type without `=`, and
`=>`. -/
def isListArrow (s : List Char) : Bool :=
  match expectChar '(' (optionally skipTypeParameters s) with
  | none => false
  | some s =>
    match skipPast ')' s with
    | none => false
    | some s =>
      let s := skipBlanks s
      atArrow s ||
        match expectChar ':' s with
        | some s => atArrow (s.dropWhile (· != '='))
        | none => false

/-- A test of a value, made on its text as it stands or behind the word
`async`. -/
def orAsync (test : List Char → Bool) (s : List Char) : Bool :=
  test s ||
    match wholeWord "async" s with
    | some s => test (skipBlanks s)
    | none => false

/-- The initializer of an ES constant reads as a function. -/
def isCallable (value : List Char) : Bool :=
  orAsync (fun s => isFunctionExpression s || isListArrow s || isBareArrow s) (skipBlanks value)

/-- The value assigned to a CommonJS export reads as a function. -/
def isCallableAssignment (value : List Char) : Bool :=
  orAsync (fun s => isFunctionExpression s || (expectChar '(' s).isSome || isBareArrow s)
    (skipBlanks value)

end Source

end ExportAtlas
