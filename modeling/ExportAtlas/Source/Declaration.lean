/-!
# Declarations

What one place of a source text contributes to the exports of its file: a
name, the part it plays, and where it stands.
-/

namespace ExportAtlas

namespace Source

/-- The part a declared name plays. -/
inductive Role where
  | function
  | constant
  | type
  | interface
  | classDef
  /-- The default export of an ES module. -/
  | defaultExport
  /-- The name that a CommonJS module exports as a whole; it is the default
  export of a file that declares no other. -/
  | wholeModule
  deriving DecidableEq, Repr

/-- One declared name. Positions count characters of the masked text. -/
structure Declaration where
  position : Nat
  role : Role
  name : String
  deriving DecidableEq, Repr

/-- Words that may stand where a name is expected without being one. -/
def reservedWords : List String :=
  ["null", "undefined", "true", "false", "this", "function", "class", "async", "new", "await",
    "typeof", "void"]

/-- A declaration of a role for each occurrence of a name. -/
def declare (role : Role) (found : List (Nat × List Char)) : List Declaration :=
  found.map fun (position, name) => ⟨position, role, String.ofList name⟩

/-- The same, leaving out the reserved words. -/
def declareUnreserved (role : Role) (found : List (Nat × List Char)) : List Declaration :=
  (declare role found).filter fun d => !reservedWords.contains d.name

end Source

end ExportAtlas
