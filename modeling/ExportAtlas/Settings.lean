import ExportAtlas.Text.Case
import ExportAtlas.Text.Pieces
import ExportAtlas.Toml.Reader
/-!
# Settings

Which files of a project are read: their extensions, the names that are left
out, how deep folders are followed and whether `.gitignore` files count. A
settings file changes the defaults, and the command line changes both.
-/

namespace ExportAtlas

open Text

/-- Which files of a project are read. -/
structure Settings where
  extensions : List String
  /-- Names and patterns of names that are left out at every depth. -/
  ignore : List String
  maxDepth : Nat
  respectGitignore : Bool
  deriving DecidableEq, Repr, Inhabited

/-- Changes to the settings for one run. -/
structure Overrides where
  /-- Replaces the extensions, unless it is empty. -/
  extensions : List String
  /-- Added to the names that are left out. -/
  ignore : List String
  maxDepth : Option Nat
  noGitignore : Bool
  deriving DecidableEq, Repr, Inhabited

namespace Settings

/-- The settings without a file. -/
def standard : Settings where
  extensions := [".ts", ".tsx", ".js", ".jsx"]
  ignore := ["node_modules", ".git", ".directory", "dist", "build", ".next", "*.test.*",
    "*.spec.*", "__tests__", "*.d.ts", ".DS_Store"]
  maxDepth := 10
  respectGitignore := true

/-! ## Extensions -/

/-- The form in which extensions are kept and compared: trimmed, in lower
case, with a dot in front. -/
def normalizeExtension (ext : String) : String :=
  let lowered := lower (String.ofList (trim ext.toList))
  if startsWith lowered '.' then lowered else "." ++ lowered

/-- Extensions in their form, each once; those with nothing behind the dot
are left out. -/
def normalizeExtensions (exts : List String) : List String :=
  exts.foldl
    (fun kept ext =>
      let ext := normalizeExtension ext
      if ext = "." ∨ ext ∈ kept then kept else kept ++ [ext])
    []

/-- Files with this extension are read; it may come without its dot. -/
def allowsExtension (s : Settings) (ext : String) : Bool :=
  s.extensions.contains (normalizeExtension ext)

/-! ## Settings files -/

/-- The value of a key, or the default where the key is missing; `none` where
the value does not fit. -/
def member {α : Type} (entries : List (String × Toml)) (key : String) (fit : Toml → Option α)
    (default : α) : Option α :=
  match entries.lookup key with
  | none => some default
  | some v => fit v

/-- The settings that a table states; other keys say nothing. -/
def ofToml? : Toml → Option Settings
  | .table entries => do
    let extensions ← member entries "extensions" Toml.strings? standard.extensions
    let ignore ← member entries "ignore" Toml.strings? standard.ignore
    let maxDepth ← member entries "max_depth" Toml.nat? standard.maxDepth
    let respectGitignore ←
      member entries "respect_gitignore" Toml.boolean? standard.respectGitignore
    some ⟨normalizeExtensions extensions, ignore, maxDepth, respectGitignore⟩
  | _ => none

/-- The settings that a text states; `none` if it is not TOML or a value does
not fit. -/
def parse? (content : String) : Option Settings := (Toml.read? content).bind ofToml?

/-! ## Changes for one run -/

/-- The settings with changes. A name that is left out already is not added
again. -/
def apply (s : Settings) (o : Overrides) : Settings where
  extensions := if o.extensions.isEmpty then s.extensions else normalizeExtensions o.extensions
  ignore := o.ignore.foldl (fun kept name => if name ∈ kept then kept else kept ++ [name]) s.ignore
  maxDepth := o.maxDepth.getD s.maxDepth
  respectGitignore := s.respectGitignore && !o.noGitignore

end Settings

end ExportAtlas
