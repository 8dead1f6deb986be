import ExportAtlas.Disk.Basic
/-!
# Following paths

What a path names on a disk, seen from a folder. Links are followed, up to
forty of them; `..` goes up from where the links have led; and a slash at the
end of a path asks for a folder.
-/

namespace ExportAtlas

/-- A step along a path. -/
inductive Step where
  /-- To the root. -/
  | top
  /-- Nowhere, but only from a folder. -/
  | stay
  | up
  | down (name : FileName)
  deriving DecidableEq, Repr

namespace Path

/-- The step that a piece between slashes stands for. -/
def step (piece : List UInt8) : Step :=
  if piece = [] ∨ piece = [dot] then .stay
  else if piece = [dot, dot] then .up
  else .down piece

/-- The steps of a path. -/
def steps (p : Path) : List Step :=
  let steps := (Text.splitOn slash p.bytes).map step
  if p.isAbsolute then .top :: steps else steps

end Path

namespace Disk

/-- How many links may be followed on one way. -/
def linkLimit : Nat := 40

/-- How many bytes a name may have. -/
def nameLimit : Nat := 255

/-- How many bytes a path may have. -/
def pathLimit : Nat := 4095

/-- What is wrong with a path as it is written. -/
def pathProblem? (p : Path) : Option FileProblem :=
  if p.bytes = [] then some .notFound
  else if pathLimit < p.bytes.length then some .nameTooLong
  else none

/-- Where steps lead as far as no link is met. -/
inductive Arrival where
  | at (place : Location)
  | blocked (problem : FileProblem)
  /-- A link in a folder, and the steps that remain behind it. -/
  | link (folder : Location) (target : Path) (rest : List Step)
  deriving Repr

/-- What a name leads to in a folder. -/
inductive Found where
  | nothing
  | link (target : Path)
  | entry (e : Entry)
  | blocked (problem : FileProblem)
  deriving Repr

/-- What a name leads to from a place, which has to be a folder. -/
def find (d : Disk) (folder : Location) (name : FileName) : Found :=
  match d.entry? folder with
  | some (.folder children) =>
    if nameLimit < name.length then .blocked .nameTooLong
    else
      match children.lookup name with
      | none => .nothing
      | some (.link target) => .link target
      | some e => .entry e
  | _ => .blocked .notADirectory

/-- The place is a folder. -/
def isFolderAt (d : Disk) (place : Location) : Bool :=
  match d.entry? place with
  | some (.folder _) => true
  | _ => false

/-- Steps from a place up to the first link. -/
def advance (d : Disk) : Location → List Step → Arrival
  | place, [] => .at place
  | _, .top :: steps => d.advance [] steps
  | place, .stay :: steps =>
    if d.isFolderAt place then d.advance place steps else .blocked .notADirectory
  | place, .up :: steps =>
    if d.isFolderAt place then d.advance place.dropLast steps else .blocked .notADirectory
  | place, .down name :: steps =>
    match d.find place name with
    | .nothing => .blocked .notFound
    | .link target => .link place target steps
    | .entry _ => d.advance (place ++ [name]) steps
    | .blocked problem => .blocked problem

/-- Where steps from a place lead, with no more than so many links. -/
def follow (d : Disk) : (links : Nat) → Location → List Step → Except FileProblem Location
  | links, place, steps =>
    match d.advance place steps with
    | .at place => .ok place
    | .blocked problem => .error problem
    | .link folder target rest =>
      match links with
      | 0 => .error .tooManyLinks
      | links + 1 => d.follow links folder (target.steps ++ rest)

/-- The place that a path names, seen from a folder. -/
def locate (d : Disk) (folder : Location) (p : Path) : Except FileProblem Location :=
  match pathProblem? p with
  | some problem => .error problem
  | none => d.follow linkLimit folder p.steps

/-- The entry that a path names; it is no link. -/
def lookup? (d : Disk) (folder : Location) (p : Path) : Option Entry :=
  match d.locate folder p with
  | .ok place => d.entry? place
  | .error _ => none

/-- A path names a folder. -/
def isFolder (d : Disk) (folder : Location) (p : Path) : Bool :=
  match d.lookup? folder p with
  | some (.folder _) => true
  | _ => false

/-- A path names a file. -/
def isFile (d : Disk) (folder : Location) (p : Path) : Bool :=
  match d.lookup? folder p with
  | some (.file _) => true
  | _ => false

/-- The bytes of the file that a path names. -/
def read (d : Disk) (folder : Location) (p : Path) : Except FileProblem (List UInt8) :=
  match d.locate folder p with
  | .error problem => .error problem
  | .ok place =>
    match d.entry? place with
    | some (.file content) => content
    | some .device => .ok []
    | some _ => .error .isADirectory
    | none => .error .notFound

/-- The text of the file that a path names. -/
def readText (d : Disk) (folder : Location) (p : Path) : Except FileProblem String := do
  match Text.Utf8.toString? (← d.read folder p) with
  | some s => .ok s
  | none => .error .notText

/-! ## Writing -/

/-- A path without the slashes at its end, and whether there were any. -/
def trimSlashes (p : Path) : Path × Bool :=
  let bytes := (p.bytes.reverse.dropWhile (· == Path.slash)).reverse
  (⟨bytes⟩, bytes != p.bytes)

/-- How many links may still be followed where steps from a place have led, of so
many at first. -/
def linksLeft (d : Disk) : (links : Nat) → Location → List Step → Nat
  | links, place, steps =>
    match d.advance place steps with
    | .link folder target rest =>
      match links with
      | 0 => 0
      | links + 1 => d.linksLeft links folder (target.steps ++ rest)
    | _ => links

theorem linksLeft_le (d : Disk) (links : Nat) (place : Location) (steps : List Step) :
    d.linksLeft links place steps ≤ links := by
  induction links generalizing place steps with
  | zero =>
    rw [linksLeft]
    split <;> exact Nat.le_refl 0
  | succ links ih =>
    rw [linksLeft]
    split
    · exact Nat.le_succ_of_le (ih _ _)
    · exact Nat.le_refl _

/-- The place of the file or device that writing to a path reaches or makes, with
no more than so many links. Those on the way to its folder count. A file that
cannot be opened to be read cannot be opened to be written either. -/
def destination (d : Disk) (links : Nat) (folder : Location) (p : Path) :
    Except FileProblem Location :=
  let (body, wantsFolder) := trimSlashes p
  match body.steps.getLast? with
  | none => .error .isADirectory
  | some last => do
    let way := body.steps.dropLast ++ [.stay]
    let parent ← d.follow links folder way
    match last with
    | .down name =>
      if wantsFolder then .error .isADirectory
      else
        match d.find parent name with
        | .nothing => .ok (parent ++ [name])
        | .entry (.file (.ok _)) => .ok (parent ++ [name])
        | .entry (.file (.error problem)) => .error problem
        | .entry .device => .ok (parent ++ [name])
        | .entry _ => .error .isADirectory
        | .blocked problem => .error problem
        | .link target =>
          let left := d.linksLeft links folder way
          if h : left = 0 then .error .tooManyLinks
          else d.destination (left - 1) parent target
    | _ => .error .isADirectory
termination_by links
decreasing_by exact Nat.sub_one_lt_of_le (Nat.pos_of_ne_zero h) (d.linksLeft_le links folder way)

/-- The disk with bytes written to a place. -/
def fill (d : Disk) (place : Location) (bytes : List UInt8) : Disk :=
  match d.entry? place with
  | some .device => d
  | _ => d.put place (.file (.ok bytes))

/-- The disk after bytes are written to a path, seen from a folder. -/
def write (d : Disk) (folder : Location) (p : Path) (bytes : List UInt8) :
    Except FileProblem Disk :=
  match pathProblem? p with
  | some problem => .error problem
  | none => (d.destination linkLimit folder p).map fun place => d.fill place bytes

end Disk

end ExportAtlas
