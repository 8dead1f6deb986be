import ExportAtlas.Json.Reader
/-!
# Kinds of projects

The kind of a project is read off the packages its manifest declares, in a
fixed order of precedence, and off the presence of a Next.js configuration
file. A manifest that cannot be read counts as none.
-/

namespace ExportAtlas

/-- What a project is built on. -/
inductive ProjectKind where
  | nextjs
  | react
  | express
  | nestjs
  | vue
  | sveltekit
  | node
  | vanilla
  deriving DecidableEq, Repr, Inhabited

namespace ProjectKind

/-- Every kind. -/
def all : List ProjectKind := [nextjs, react, express, nestjs, vue, sveltekit, node, vanilla]

/-- The word for a kind in structured reports. -/
def id : ProjectKind → String
  | nextjs => "nextjs"
  | react => "react"
  | express => "express"
  | nestjs => "nestjs"
  | vue => "vue"
  | sveltekit => "sveltekit"
  | node => "node"
  | vanilla => "vanilla"

/-- The name of a kind in reports for people. -/
def label : ProjectKind → String
  | nextjs => "Next.js"
  | react => "React"
  | express => "Express/Fastify"
  | nestjs => "NestJS"
  | vue => "Vue/Nuxt"
  | sveltekit => "SvelteKit"
  | node => "Node.js"
  | vanilla => "JavaScript/TypeScript"

/-- The kind with a given word. -/
def ofId? (s : String) : Option ProjectKind := all.find? fun kind => kind.id == s

/-- The kind that a JSON value names: its word, or an object whose only member
is the word with null. -/
def ofJson? : Json → Option ProjectKind
  | .string s => ofId? s
  | .object [(s, .null)] => ofId? s
  | _ => none

end ProjectKind

/-! ## Manifests -/

/-- The packages that a project manifest declares, each name once. -/
structure Manifest where
  dependencies : List String
  devDependencies : List String
  deriving DecidableEq, Repr, Inhabited

namespace Manifest

/-- The package names of a table of dependencies; anything but an object
declares none. -/
def packages (table : Option Json) : List String :=
  ((table.bind Json.object?).getD []).map Prod.fst

/-- The manifest that a text writes: any JSON object is one. -/
def parse? (content : String) : Option Manifest :=
  ((Json.read? content).bind Json.object?).map fun members =>
    ⟨packages (members.lookup "dependencies"), packages (members.lookup "devDependencies")⟩

/-- A package is declared in one of the two tables. -/
def has (m : Manifest) (package : String) : Bool :=
  m.dependencies.contains package || m.devDependencies.contains package

end Manifest

namespace ProjectKind

/-- The packages that tell a kind, the most telling first. -/
def signs : List (List String × ProjectKind) :=
  [(["next"], nextjs), (["@nestjs/core"], nestjs), (["@sveltejs/kit"], sveltekit),
    (["vue", "nuxt"], vue), (["express", "fastify", "koa", "hono"], express),
    (["react"], react)]

/-- The kind of a project with a manifest or without one. -/
def ofManifest (manifest : Option Manifest) (hasNextConfig : Bool) : ProjectKind :=
  if hasNextConfig then nextjs
  else
    match manifest with
    | none => vanilla
    | some m =>
      match signs.find? fun (packages, _) => packages.any m.has with
      | some (_, kind) => kind
      | none => node

end ProjectKind

end ExportAtlas
