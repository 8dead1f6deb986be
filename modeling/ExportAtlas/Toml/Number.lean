import ExportAtlas.Toml.Text
/-!
# TOML numbers and dates

Integers of 64 bits in four bases, floating-point numbers, and dates and
times of the calendar. Underscores may stand between two digits.
-/

namespace ExportAtlas

namespace Toml

/-! ## Digits -/

/-- Digits of a kind with underscores between them: the digits, and what
follows them. -/
def digitsFrom (isDigit : Char → Bool) (run : List Char) : Read (List Char)
  | [] => some (run.reverse, [])
  | '_' :: c :: s => if isDigit c then digitsFrom isDigit (c :: run) s else none
  | ['_'] => none
  | c :: s => if isDigit c then digitsFrom isDigit (c :: run) s else some (run.reverse, c :: s)

/-- At least one digit of a kind, with underscores between them. -/
def digits (isDigit : Char → Bool) : Read (List Char)
  | c :: s => if isDigit c then digitsFrom isDigit [c] s else none
  | [] => none

/-- The number that digits write in a base. -/
def natOf (base : Nat) (ds : List Char) : Nat :=
  ds.foldl (fun n c => n * base + (hexValue? c).getD 0) 0

/-- A sign at the front of a text, and what follows it. -/
def sign : List Char → Bool × List Char
  | '-' :: s => (true, s)
  | '+' :: s => (false, s)
  | s => (false, s)

/-- Decimal digits without a leading zero. -/
def decimal : Read (List Char)
  | '0' :: s => some (['0'], s)
  | s => digits Char.isDigit s

/-! ## Integers -/

/-- An integer in a base other than ten, behind its mark. -/
def based (base : Nat) (isDigit : Char → Bool) (s : List Char) : Option (Toml × List Char) := do
  let (ds, s) ← digits isDigit s
  let n := natOf base ds
  if n < Nat.pow 2 63 then some (.integer n, s) else none

/-- An integer of 64 bits. -/
def readInteger : Read Toml
  | '0' :: 'x' :: s => based 16 (fun c => (hexValue? c).isSome) s
  | '0' :: 'o' :: s => based 8 (fun c => '0' ≤ c && c ≤ '7') s
  | '0' :: 'b' :: s => based 2 (fun c => c == '0' || c == '1') s
  | s => do
    let (negative, s) := sign s
    let (ds, s) ← decimal s
    let n := natOf 10 ds
    if negative then
      if n ≤ Nat.pow 2 63 then some (.integer (-(n : Int)), s) else none
    else if n < Nat.pow 2 63 then some (.integer n, s)
    else none

/-! ## Floating-point numbers -/

/-- `significand · 10 ^ exponent` reaches the midpoint between the largest
double and the next power of two, so that the double nearest to it is
infinite. -/
def isInfinite (significand : Nat) (exponent : Int) : Bool :=
  if significand = 0 then false
  else
    let magnitude : Int := (Nat.toDigits 10 significand).length + exponent
    if magnitude < 309 then false
    else if 309 < magnitude then true
    else if 0 ≤ exponent then
      Nat.pow 2 1024 - Nat.pow 2 970 ≤ significand * Nat.pow 10 exponent.toNat
    else (Nat.pow 2 1024 - Nat.pow 2 970) * Nat.pow 10 (-exponent).toNat ≤ significand

/-- The exponent part of a number, and what follows it. -/
def exponent? : List Char → Option (Int × List Char)
  | c :: s =>
    if c = 'e' ∨ c = 'E' then do
      let (negative, s) := sign s
      let (ds, s) ← digits Char.isDigit s
      let n : Int := natOf 10 ds
      some (if negative then -n else n, s)
    else none
  | [] => none

/-- `inf` or `nan`, perhaps behind a sign. -/
def special (s : List Char) : Option (Toml × List Char) :=
  match (sign s).2 with
  | 'i' :: 'n' :: 'f' :: s => some (.float, s)
  | 'n' :: 'a' :: 'n' :: s => some (.float, s)
  | _ => none

/-- How a text reads as a number with a fraction or an exponent. -/
inductive Reading where
  /-- It does not begin like one. -/
  | other
  /-- It begins like one and goes wrong. -/
  | broken
  | float (rest : List Char)

/-- A number with a fraction or an exponent. A positive one must not be too
large for a double. -/
def readFloat (s : List Char) : Reading :=
  let (negative, s) := sign s
  let finish (significand : Nat) (exponent : Int) (rest : List Char) : Reading :=
    if !negative && isInfinite significand exponent then .broken else .float rest
  match decimal s with
  | none => .other
  | some (whole, s) =>
    match s with
    | '.' :: s =>
      match digits Char.isDigit s with
      | none => .broken
      | some (fraction, s) =>
        let significand := natOf 10 (whole ++ fraction)
        match s with
        | c :: _ =>
          if c = 'e' ∨ c = 'E' then
            match exponent? s with
            | none => .broken
            | some (e, s) => finish significand (e - fraction.length) s
          else finish significand (-(fraction.length : Int)) s
        | [] => finish significand (-(fraction.length : Int)) s
    | c :: _ =>
      if c = 'e' ∨ c = 'E' then
        match exponent? s with
        | none => .broken
        | some (e, s) => finish (natOf 10 whole) e s
      else .other
    | [] => .other

/-! ## Dates and times -/

/-- A number of exactly `n` digits that lies in a range. -/
def field (n low high : Nat) (s : List Char) : Option (Nat × List Char) :=
  let ds := s.take n
  if ds.length = n ∧ ds.all Char.isDigit then
    let value := natOf 10 ds
    if low ≤ value ∧ value ≤ high then some (value, s.drop n) else none
  else none

/-- The number of days of a month. -/
def daysIn (year month : Nat) : Nat :=
  if month = 2 then
    if year % 4 = 0 ∧ (year % 100 ≠ 0 ∨ year % 400 = 0) then 29 else 28
  else if [4, 6, 9, 11].contains month then 30
  else 31

/-- The text after a date, behind its year and the dash after it. -/
def dateFrom (year : Nat) (s : List Char) : Option (List Char) := do
  let (month, s) ← field 2 1 12 s
  let s ← expect '-' s
  let (_, s) ← field 2 1 (daysIn year month) s
  some s

/-- The text after a time, behind its hour and the colon after it. -/
def timeFrom (s : List Char) : Option (List Char) := do
  let (_, s) ← field 2 0 59 s
  let s ← expect ':' s
  let (_, s) ← field 2 0 60 s
  match s with
  | '.' :: c :: rest =>
    if c.isDigit then some (rest.dropWhile Char.isDigit) else some s
  | s => some s

/-- The text behind an hour and its colon, if the text begins with them. -/
def hour? (s : List Char) : Option (List Char) := do
  let (_, s) ← field 2 0 23 s
  expect ':' s

/-- The text after an offset from universal time, or as it stands without
one. -/
def offset (s : List Char) : Option (List Char) :=
  match s with
  | 'Z' :: s => some s
  | 'z' :: s => some s
  | '+' :: s => do
    let (_, s) ← field 2 0 59 (← hour? s)
    some s
  | '-' :: s => do
    let (_, s) ← field 2 0 59 (← hour? s)
    some s
  | s => some s

/-- A date, perhaps with a time and an offset, or a time alone: the text after
it. The outer level is missing where the text begins like neither, the inner
one where it begins like one and goes wrong. -/
def readDatetime (s : List Char) : Option (Option (List Char)) :=
  match field 4 0 9999 s with
  | some (year, '-' :: s) =>
    some do
      let s ← dateFrom year s
      match s with
      | c :: rest =>
        if c = 'T' ∨ c = 't' ∨ c = ' ' then
          match hour? rest with
          | some rest => offset (← timeFrom rest)
          | none => some s
        else some s
      | [] => some []
  | _ => (hour? s).map timeFrom

/-- A number, a date or a time. -/
def numeric (s : List Char) : Option (Toml × List Char) :=
  match readDatetime s with
  | some read => read.map fun rest => (.datetime, rest)
  | none =>
    match readFloat s with
    | .broken => none
    | .float rest => some (.float, rest)
    | .other => (special s).or (readInteger s)

end Toml

end ExportAtlas
