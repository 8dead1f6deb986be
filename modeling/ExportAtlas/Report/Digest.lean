import ExportAtlas.Atlas
import ExportAtlas.Report.Lines
import ExportAtlas.RouteTree.Groups
/-!
# The digest

A compact account of a project that sums up instead of listing: a few pages
per route group, feature domains by purpose and number of actions, hooks by
name, and the size of the component layer.
-/

namespace ExportAtlas

namespace Report

namespace Digest

/-- How many pages of a route group are shown. -/
def maxPages : Nat := 4

/-- The lines of a block, with a blank one behind them. -/
def block (lines : List String) : List String := lines ++ [""]

/-- A title with a count. -/
def counted (title : String) (n : Nat) : String := "## " ++ title ++ " (" ++ toString n ++ ")"

/-! ## Routes -/

/-- The line of a route group. -/
def groupLine (g : RouteGroup) : String :=
  "/" ++ g.key ++ " → " ++ String.intercalate ", " (g.children.take maxPages)

/-- The block of the routes. -/
def routeBlock (a : Atlas) : List String :=
  match a.someRoutes? with
  | none => []
  | some t =>
    let groups := t.routeGroups .skip
    block (counted "Routes" groups.length :: groups.map groupLine)

/-! ## Domains -/

/-- The purposes of well-known domains. -/
def knownPurposes : List (String × String) :=
  [("users", "authenticate, edit profile, manage credentials"),
    ("orders", "create/edit/cancel"),
    ("estimates", "create/edit/convert"),
    ("files", "upload/download")]

/-- What the functions of a domain do, and the words in their names that tell
it. -/
def signs : List (String × List String) :=
  [("create", ["create"]), ("edit", ["edit", "update"]), ("cancel", ["delete", "cancel"])]

/-- What a domain is for, by its name or else by the names of its
functions. -/
def purpose (domain : String) (files : List FileRecord) : String :=
  match knownPurposes.lookup domain with
  | some text => text
  | none =>
    let functions := String.intercalate " "
      ((files.flatMap fun file => file.exports.functions).map Text.lower)
    let found := signs.filter fun (_, words) => words.any (Text.contains functions)
    if found.isEmpty then "manage" else String.intercalate "/" (found.map Prod.fst)

/-- The number of functions in the files of a section that are named for
actions. -/
def actionCount (s : Section) : Nat :=
  ((s.files.filter fun file => Text.contains file.name "action").flatMap
    fun file => file.exports.functions).length

/-- The line of a domain. -/
def domainLine (s : Section) : String :=
  let name := domainName s.name
  name ++ " — " ++ purpose name s.files ++ " (" ++ toString (actionCount s) ++ " actions)"

/-- The sections shown as domains. -/
def domains (a : Atlas) : List Section := a.sections.matching "features"

/-- The block of the domains. -/
def domainBlock (a : Atlas) : List String :=
  let found := domains a
  if found.isEmpty then []
  else block (counted "Core Domains" found.length :: found.map domainLine)

/-! ## The other layers -/

/-- Some section matches a pattern. -/
def hasSection (a : Atlas) (pattern : String) : Bool := !(a.sections.matching pattern).isEmpty

/-- The block about signing in. -/
def authBlock (a : Atlas) : List String :=
  if hasSection a "auth" then
    block ["## Auth & Session", "sign-in, session handling, token management"]
  else []

/-- The block about the shared library. -/
def libraryBlock (a : Atlas) : List String :=
  if hasSection a "lib" then
    block (["## Shared Lib", "utils — formatting, helpers"] ++
      if hasSection a "config" then ["config — api, uploads, pricing"] else [])
  else []

/-- A section of hooks: `Hooks`, or below it, in any case. -/
def isHookSection (name : String) : Bool :=
  let lowered := Text.lower name
  lowered == "hooks" || "hooks/".toList.isPrefixOf lowered.toList

/-- The block of the hooks. -/
def hookBlock (a : Atlas) : List String :=
  let found := a.sections.entries.filter fun s => isHookSection s.name
  if found.isEmpty then []
  else
    let hooks := ((found.flatMap Section.files).flatMap fun file => file.exports.functions).filter
      fun name => "use".toList.isPrefixOf name.toList
    block [counted "Hooks" hooks.length, String.intercalate ", " hooks]

/-- What stands behind the last slash of a section's name, in lower case. -/
def lastFolder (s : Section) : String :=
  Text.lower (String.ofList ((Text.splitOn '/' s.name.toList).getLastD []))

/-- The distinct values of a list in order of first occurrence. -/
def distinct (values : List String) : List String :=
  values.foldl (fun seen v => if seen.contains v then seen else seen ++ [v]) []

/-- The block of the components. -/
def componentBlock (a : Atlas) : List String :=
  let found := a.sections.matching "components"
  if found.isEmpty then []
  else
    let total := (found.flatMap Section.files).length
    block ["## UI Layer",
      "~" ++ toString total ++ " components (" ++
        String.intercalate ", " (distinct (found.map lastFolder)) ++ ")"]

/-- The lines of the digest. -/
def lines (a : Atlas) : List String :=
  block ["# Project Context (" ++ a.kind.label ++ ")"] ++ routeBlock a ++ domainBlock a ++
    authBlock a ++ libraryBlock a ++ hookBlock a ++ componentBlock a

/-- The digest of a project. -/
def render (a : Atlas) : String := joinLines (lines a)

end Digest

end Report

end ExportAtlas
