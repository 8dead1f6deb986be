import ExportAtlas.Ignore.Row
/-!
# Patterns of names

The patterns that an ignore entry may be written as. `?` stands for one
character and `*` for any number of them, slashes included; `**` stands for
whole folders on the way, and `[…]` for one character of a set. A pattern is
compared with the whole of a name.
-/

namespace ExportAtlas

namespace NamePattern

/-- A member of a set of characters: `a`, or `a-z`. -/
inductive Member where
  | single (c : Char)
  | range (first last : Char)
  deriving DecidableEq, Repr

/-- A character belongs to a member of a set. -/
def Member.holds : Member → Char → Bool
  | single c, x => x == c
  | range first last, x => first ≤ x && x ≤ last

/-- The members of a set, as they are written between its brackets. -/
def members : List Char → List Member
  | first :: '-' :: last :: rest => .range first last :: members rest
  | c :: rest => .single c :: members rest
  | [] => []

/-- A part of a pattern. -/
inductive Part where
  | literal (c : Char)
  | anyChar
  /-- Any number of characters: `*`. -/
  | anyRun
  /-- Any number of folders, with their slashes: `**`. -/
  | anyFolders
  /-- A character of a set, or with `negated` a character outside it. -/
  | set (negated : Bool) (members : List Member)
  deriving DecidableEq, Repr

/-- Where the reader of a pattern stands. -/
inductive Place where
  /-- Between parts; `atStart` says that nothing or a slash comes before. -/
  | between (atStart : Bool)
  /-- In a set; its characters so far, last one first. -/
  | inSet (negated : Bool) (run : List Char)

/-- The parts that a pattern writes, read from some place on. `**` stands only
at the start or behind a slash, and takes the slash after it along; nothing
else may follow it. A set has at least one character, and a bracket that
comes first is one. -/
def partsFrom : Place → List Char → Option (List Part)
  | .between _, [] => some []
  | .between _, '?' :: rest => (partsFrom (.between false) rest).map (.anyChar :: ·)
  | .between atStart, '*' :: '*' :: rest =>
    if !atStart then none
    else
      match rest with
      | [] => some [.anyFolders]
      | '/' :: rest => (partsFrom (.between true) rest).map (.anyFolders :: ·)
      | _ => none
  | .between _, '*' :: rest => (partsFrom (.between false) rest).map (.anyRun :: ·)
  | .between _, '[' :: '!' :: rest => partsFrom (.inSet true []) rest
  | .between _, '[' :: rest => partsFrom (.inSet false []) rest
  | .between _, c :: rest => (partsFrom (.between (c == '/')) rest).map (.literal c :: ·)
  | .inSet _ _, [] => none
  | .inSet negated run, c :: rest =>
    if c = ']' ∧ run ≠ [] then
      (partsFrom (.between false) rest).map (.set negated (members run.reverse) :: ·)
    else partsFrom (.inSet negated (c :: run)) rest

/-- What a part says of a text, with a row behind it. Folders end behind a
slash or at the end of the text. -/
def Part.row (text : List Char) (r : Row) : Part → Row
  | literal c => r.one (· == c) text
  | anyChar => r.one (fun _ => true) text
  | anyRun => r.run (fun _ => true) text
  | anyFolders => r.either ((r.past (· == '/') text).either r.toEnd)
  | set negated members => r.one (fun x => members.any (·.holds x) != negated) text

end NamePattern

/-- A pattern of names, as its parts. -/
structure NamePattern where
  parts : List NamePattern.Part
  deriving DecidableEq, Repr

namespace NamePattern

/-- The pattern that a text writes, if it is a valid one. -/
def parse? (s : String) : Option NamePattern :=
  (partsFrom (.between true) s.toList).map NamePattern.mk

/-- A name has the form of a pattern. -/
def accepts (p : NamePattern) (name : String) : Bool :=
  let text := name.toList
  (p.parts.foldr (fun part r => part.row text r) (Row.atEnd text)).fits

end NamePattern

end ExportAtlas
