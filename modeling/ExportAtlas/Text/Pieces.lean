/-!
# Pieces of a text

Splitting at a separator, cutting at its first occurrence, and looking for
one text inside another, over lists of characters and over strings.
-/

namespace ExportAtlas

namespace Text

variable {α : Type} [BEq α]

/-- The pieces of a list between the occurrences of a separator; empty
pieces count, so the pieces are one more than the separators. -/
def splitOn (sep : α) : List α → List (List α)
  | [] => [[]]
  | x :: rest =>
    if x == sep then [] :: splitOn sep rest
    else
      match splitOn sep rest with
      | [] => [[x]]
      | piece :: pieces => (x :: piece) :: pieces

/-- What stands before the first separator, and what stands after it if
there is one. -/
def cutAt (sep : α) : List α → List α × Option (List α)
  | [] => ([], none)
  | x :: rest =>
    if x == sep then ([], some rest)
    else (x :: (cutAt sep rest).1, (cutAt sep rest).2)

/-- One list occurs inside another without gaps. -/
def occursIn (needle : List α) : List α → Bool
  | [] => needle.isEmpty
  | x :: rest => needle.isPrefixOf (x :: rest) || occursIn needle rest

/-- The list without the first occurrence of `needle`. -/
def eraseFirst (needle : List α) : List α → List α
  | [] => []
  | x :: rest =>
    if needle.isPrefixOf (x :: rest) then (x :: rest).drop needle.length
    else x :: eraseFirst needle rest

/-! ## Strings -/

/-- A string occurs inside another. -/
def contains (s needle : String) : Bool := occursIn needle.toList s.toList

/-- A string begins with a character. -/
def startsWith (s : String) (c : Char) : Bool := s.toList.head? == some c

/-- A string ends with a character. -/
def endsWith (s : String) (c : Char) : Bool := s.toList.getLast? == some c

/-- What stands before the first separator of a string, and what stands
after it if there is one. -/
def cutOnce (sep : Char) (s : String) : String × Option String :=
  let (head, tail) := cutAt sep s.toList
  (String.ofList head, tail.map String.ofList)

end Text

end ExportAtlas
