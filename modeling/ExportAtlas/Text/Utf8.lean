/-!
# UTF-8

Characters as bytes and back. Reading is total: each stretch of bytes that
begins a character but does not finish one, and each byte that begins none,
is read as a missing character. Reading strictly refuses a missing
character; reading leniently shows it as `U+FFFD`.
-/

namespace ExportAtlas

namespace Text

namespace Utf8

/-- The bytes of a list of characters. -/
def encode (s : List Char) : List UInt8 := s.flatMap String.utf8EncodeChar

/-- The bytes of a string. -/
def ofString (s : String) : List UInt8 := encode s.toList

/-- How many bytes a string takes. -/
def width : List Char → Nat
  | [] => 0
  | c :: s => c.utf8Size + width s

/-- A byte that continues a character. -/
def isTail (b : UInt8) : Bool := 0x80 ≤ b && b ≤ 0xBF

/-- The second byte `b` may follow the lead byte `a`: the narrow ranges keep
out overlong forms, surrogates and numbers above `U+10FFFF`. -/
def mayFollow (a b : UInt8) : Bool :=
  if a == 0xE0 then 0xA0 ≤ b && b ≤ 0xBF
  else if a == 0xED then 0x80 ≤ b && b ≤ 0x9F
  else if a == 0xF0 then 0x90 ≤ b && b ≤ 0xBF
  else if a == 0xF4 then 0x80 ≤ b && b ≤ 0x8F
  else isTail b

/-- The low six bits of a continuing byte. -/
def payload (b : UInt8) : Nat := b.toNat % 0x40

/-- The characters of a byte sequence, `none` for each stretch that is not
one. -/
def decode : List UInt8 → List (Option Char)
  | [] => []
  | a :: rest =>
    if a < 0x80 then some (Char.ofNat a.toNat) :: decode rest
    else if a < 0xC2 || 0xF4 < a then none :: decode rest
    else
      match rest with
      | [] => [none]
      | b :: rest₂ =>
        if !mayFollow a b then none :: decode (b :: rest₂)
        else if a < 0xE0 then
          some (Char.ofNat (a.toNat % 0x20 * 0x40 + payload b)) :: decode rest₂
        else
          match rest₂ with
          | [] => [none]
          | c :: rest₃ =>
            if !isTail c then none :: decode (c :: rest₃)
            else if a < 0xF0 then
              some (Char.ofNat ((a.toNat % 0x10 * 0x40 + payload b) * 0x40 + payload c)) ::
                decode rest₃
            else
              match rest₃ with
              | [] => [none]
              | d :: rest₄ =>
                if !isTail d then none :: decode (d :: rest₄)
                else
                  some (Char.ofNat
                    (((a.toNat % 0x08 * 0x40 + payload b) * 0x40 + payload c) * 0x40 +
                      payload d)) :: decode rest₄

/-- The characters of a byte sequence, if all of it is UTF-8. -/
def decode? (bytes : List UInt8) : Option (List Char) := (decode bytes).mapM id

/-- The text of a byte sequence, if all of it is UTF-8. -/
def toString? (bytes : List UInt8) : Option String := (decode? bytes).map String.ofList

/-- The text of a byte sequence, with `U+FFFD` for what is not UTF-8. -/
def toStringLossy (bytes : List UInt8) : String :=
  String.ofList ((decode bytes).map fun c => c.getD '\uFFFD')

end Utf8

end Text

end ExportAtlas
