/-!
# Rows of answers

A pattern is compared with a text from its end to its start. A row says, for
each end of the text, the whole text first and the empty end last, whether
what the pattern has left to say fits it. Each part of a pattern makes a row
of the row behind it, so a comparison takes a number of steps bounded by the
parts times the length of the text, however many ways there are to share the
text out among the parts.
-/

namespace ExportAtlas

/-- Whether each end of a text fits, the longest end first. -/
abbrev Row := List Bool

namespace Row

variable {α : Type}

/-- The longest end, which is the whole text, fits. -/
def fits (r : Row) : Bool := r.headD false

/-- The row of a pattern with nothing left to say: only the empty end fits. -/
def atEnd : List α → Row
  | [] => [true]
  | _ :: text => false :: atEnd text

/-- No end fits. -/
def nowhere (text : List α) : Row := false :: text.map fun _ => false

/-- Ends that fit one of two ways. -/
def either (a b : Row) : Row := List.zipWith or a b

/-- One element with a property, and then a row. -/
def one (p : α → Bool) : List α → Row → Row
  | x :: text, _ :: r => (p x && fits r) :: one p text r
  | _, _ => [false]

/-- Any number of elements with a property, and then a row. -/
def run (p : α → Bool) : List α → Row → Row
  | x :: text, now :: r =>
    let later := run p text r
    (now || (p x && fits later)) :: later
  | _, r => r

/-- Any elements up to one with a property, and then a row. -/
def past (p : α → Bool) : List α → Row → Row
  | x :: text, _ :: r =>
    let later := past p text r
    ((p x && fits r) || fits later) :: later
  | _, _ => [false]

/-- All that is left of the text, and then a row. -/
def toEnd (r : Row) : Row := r.map fun _ => r.getLastD false

end Row

end ExportAtlas
