import ExportAtlas.Disk.Lookup
import ExportAtlas.Ignore.Glob
import ExportAtlas.Text.Property
/-!
# Ignore rules

The rules of `.gitignore` files and their kin. A line is a rule: a glob,
perhaps turned round by an exclamation mark, bound to folders by a slash at
its end, or bound to the folder of the file by any other slash. Within a file
the last rule that fits decides; the files of a deeper folder come before
those of the folders above it, and what a user has set for all projects comes
last.
-/

namespace ExportAtlas

open Text

/-- What a rule says of an entry. -/
inductive Verdict where
  | ignored
  /-- Read, even where it would be left out otherwise. -/
  | kept
  deriving DecidableEq, Repr

/-- A rule of an ignore file. -/
structure IgnoreRule where
  glob : Glob
  verdict : Verdict
  /-- The rule fits folders alone. -/
  foldersOnly : Bool
  deriving Repr

namespace IgnoreRule

/-! ## Lines -/

/-- A line without the blanks at its end, unless a backslash guards them. -/
def trimLine (line : List Char) : List Char :=
  if ['\\', ' '].isSuffixOf line then line else trimRight line

/-- What a line begins with: whether it is turned round, whether a slash binds
it to the folder of the file, and the rest. -/
def opening : List Char → Bool × Bool × List Char
  | '\\' :: '!' :: rest => (false, false, '!' :: rest)
  | '\\' :: '#' :: rest => (false, false, '#' :: rest)
  | '!' :: '/' :: rest => (true, true, rest)
  | '!' :: rest => (true, false, rest)
  | '/' :: rest => (false, true, rest)
  | rest => (false, false, rest)

/-- A line without the slash at its end and the backslash in front of that,
and whether there was such a slash. -/
def closing (line : List Char) : Bool × List Char :=
  match line.reverse with
  | '/' :: '\\' :: rest => (true, rest.reverse)
  | '/' :: rest => (true, rest.reverse)
  | _ => (false, line)

/-- The glob of a rule. A pattern without a slash fits at every depth, and one
that ends in `/**` does not fit the folder itself. -/
def globText (isBound : Bool) (pattern : List Char) : List Char :=
  let anywhere := !isBound && !pattern.contains '/' && pattern != ['*', '*']
  let pattern := if anywhere then '*' :: '*' :: '/' :: pattern else pattern
  if ['/', '*', '*'].isSuffixOf pattern then pattern ++ ['/', '*'] else pattern

/-- The rule on a line; none on a blank line, on a comment, and where the glob
is not valid. -/
def ofLine? (line : List Char) : Option IgnoreRule :=
  if line.head? = some '#' then none
  else
    match trimLine line with
    | [] => none
    | line => do
      let (isTurned, isBound, rest) := opening line
      let (foldersOnly, pattern) := closing rest
      let glob ← Glob.parse? (globText isBound pattern)
      some ⟨glob, if isTurned then .kept else .ignored, foldersOnly⟩

/-! ## Files -/

/-- A line without the carriage return at its end. -/
def dropReturn (line : List UInt8) : List UInt8 :=
  if line.getLast? = some 0x0D then line.dropLast else line

/-- The lines of a file, as bytes. A carriage return in front of a line feed
is left out. -/
def byteLines (bytes : List UInt8) : List (List UInt8) :=
  let pieces := splitOn 0x0A bytes
  pieces.dropLast.map dropReturn ++ pieces.getLast?.toList

/-- The lines of a file as text, up to the first that is not UTF-8. Byte order
marks at the start of the file are left out. -/
def lines (bytes : List UInt8) : List (List Char) :=
  match ((byteLines bytes).map Utf8.decode?).takeWhile Option.isSome with
  | [] => []
  | first :: rest =>
    ((first.map fun line => line.dropWhile (· == '\uFEFF')) :: rest).filterMap id

/-- The rules of a file; none at all if a glob among them nests too deep. -/
def ofFile (bytes : List UInt8) : List IgnoreRule :=
  let rules := (lines bytes).filterMap ofLine?
  if rules.all fun r => r.glob.depth ≤ Glob.depthLimit then rules else []

/-- The last rule that fits a path decides. The path is relative to the folder
of the file. -/
def decide? (rules : List IgnoreRule) (path : List UInt8) (isFolder : Bool) : Option Verdict :=
  ((rules.reverse.find? fun r => (!r.foldersOnly || isFolder) && r.glob.accepts path)).map verdict

end IgnoreRule

/-! ## Folders -/

/-- The rules that the files of one folder set for all below it. -/
structure FolderRules where
  folder : Location
  /-- Those that count always. -/
  general : List IgnoreRule
  /-- Those of version control. -/
  shared : List IgnoreRule
  /-- Those of version control that are not shared with others. -/
  personal : List IgnoreRule
  deriving Repr

namespace FolderRules

/-- The rules of a file, seen from a folder; none where there is no such file. -/
def ofFile (d : Disk) (folder : Location) (path : Path) : List IgnoreRule :=
  match d.read folder path with
  | .ok bytes => IgnoreRule.ofFile bytes
  | .error _ => []

/-- The first line of a file, seen from a folder, if there is one and it is
text. -/
def firstLine? (d : Disk) (folder : Location) (path : Path) : Option String :=
  match d.read folder path with
  | .ok [] => none
  | .ok bytes => (IgnoreRule.byteLines bytes).head?.bind Utf8.toString?
  | .error _ => none

/-- The entry of a folder that belongs to version control. -/
def gitEntry : Path := Path.ofString ".git"

/-- The path that a `.git` file in a folder names: the folder in which version
control keeps what concerns this one working tree. -/
def gitTree? (d : Disk) (place : Location) : Option Path := do
  let line ← firstLine? d place gitEntry
  let tree ← Path.dropPrefix? "gitdir: ".toList line.toList
  some (Path.ofString (String.ofList tree))

/-- The file that tells where the common folder is, in the folder of one
working tree. -/
def commonFile (tree : Path) : Path := tree.join (Path.ofString "commondir")

/-- The folder of version control that the working trees of a project have in
common, found by way of the folder that a `.git` file names. A path there that
begins with a dot is seen from that folder, and any other one from `folder`, as
is the path in the `.git` file itself. -/
def commonFolder? (d : Disk) (folder place : Location) : Option Path := do
  let tree ← gitTree? d place
  let common ← firstLine? d folder (commonFile tree)
  let path := Path.ofString common
  some (if startsWith common '.' then tree.join path else path)

/-- The file with the rules that are not shared with others, in a folder of
version control. -/
def personalFile (git : Path) : Path := git.join (Path.ofString "info/exclude")

/-- The rules of version control at a place that are not shared with others.
They are in its `.git` folder, or in the common folder if `.git` is a file. -/
def personalRules (d : Disk) (folder place : Location) : List IgnoreRule :=
  if d.isFile place gitEntry then
    match commonFolder? d folder place with
    | some common => ofFile d folder (personalFile common)
    | none => []
  else ofFile d place (personalFile gitEntry)

/-- The rules that a place sets, with those of version control or without.
Paths in files are seen from `folder`. -/
def ofPlace (d : Disk) (folder : Location) (withGit : Bool) (place : Location) : FolderRules where
  folder := place
  general := ofFile d place (Path.ofString ".ignore")
  shared := if withGit then ofFile d place (Path.ofString ".gitignore") else []
  personal := if withGit then personalRules d folder place else []

/-- A place as a path, seen from a folder above it. -/
def pathFrom (folder place : Location) : List UInt8 :=
  match place.drop folder.length with
  | [] => []
  | name :: names => name ++ names.flatMap (Path.slash :: ·)

/-- What the rules of the folders above a place say of it, the deepest folder
first. The three kinds of rules are asked one after the other. -/
def decide? (above : List FolderRules) (place : Location) (isFolder : Bool) : Option Verdict :=
  let ask (kind : FolderRules → List IgnoreRule) : Option Verdict :=
    above.findSome? fun rules =>
      if (kind rules).isEmpty then none
      else IgnoreRule.decide? (kind rules) (pathFrom rules.folder place) isFolder
  (ask general).or ((ask shared).or (ask personal))

end FolderRules

/-! ## All projects -/

namespace UserRules

/-- The rules that a user keeps for all projects, in a file seen from a folder.
They are rules of version control. -/
def ofFile (d : Disk) (folder : Location) (withGit : Bool) (file : Option Path) :
    List IgnoreRule :=
  match file with
  | some path => if withGit then FolderRules.ofFile d folder path else []
  | none => []

/-- A place as these rules see it: its path without that of the working folder,
where it begins with that byte by byte, and else its absolute path. -/
def pathSeen (folder place : Location) : List UInt8 :=
  let path := (Path.ofNames place).bytes
  match Path.dropPrefix? (Path.ofNames folder).bytes path with
  | none => path
  | some rest => if rest.head? = some Path.slash then rest.tail else rest

end UserRules

end ExportAtlas
