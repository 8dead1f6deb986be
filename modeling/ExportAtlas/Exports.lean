/-!
# The exports of a file

The exported names of one source file, by kind, with its default export.
-/

namespace ExportAtlas

/-- The kind of an exported name. -/
inductive SymbolKind where
  | function
  | constant
  | type
  | interface
  | classDef
  deriving DecidableEq, Repr

namespace SymbolKind

/-- The word for a kind. -/
def label : SymbolKind → String
  | function => "function"
  | constant => "constant"
  | type => "type"
  | interface => "interface"
  | classDef => "class"

/-- The kinds in the order in which reports list them. -/
def all : List SymbolKind := [function, constant, type, interface, classDef]

end SymbolKind

/-- The exported names of one file. Each list is in the order of first
appearance. -/
structure Exports where
  functions : List String
  constants : List String
  types : List String
  interfaces : List String
  classes : List String
  defaultExport : Option String
  deriving DecidableEq, Repr

namespace Exports

/-- No exports at all. -/
def empty : Exports := ⟨[], [], [], [], [], none⟩

instance : Inhabited Exports := ⟨empty⟩

/-- The names of one kind. -/
def names (e : Exports) : SymbolKind → List String
  | .function => e.functions
  | .constant => e.constants
  | .type => e.types
  | .interface => e.interfaces
  | .classDef => e.classes

/-- The named symbols with their kinds, kind by kind. -/
def symbols (e : Exports) : List (SymbolKind × String) :=
  SymbolKind.all.flatMap fun kind => (e.names kind).map (kind, ·)

/-- Nothing is exported. -/
def isEmpty (e : Exports) : Bool :=
  e.functions.isEmpty && e.constants.isEmpty && e.types.isEmpty && e.interfaces.isEmpty &&
    e.classes.isEmpty && e.defaultExport.isNone

/-- The number of symbols; a default export counts as one. -/
def symbolCount (e : Exports) : Nat :=
  e.symbols.length + (if e.defaultExport.isSome then 1 else 0)

end Exports

end ExportAtlas
