import ExportAtlas.Proofs.Source.CommentEdits
import ExportAtlas.Proofs.Text.Utf8
import ExportAtlas.Source.Extract
/-!
# Blanking, byte by byte and twice over

A source text is a sequence of tokens: comments, strings and single bytes
(`tokens`). Blanking goes over characters, one region after another, and does
to the bytes what is said of the tokens: those of a comment become spaces, but
for its newlines, and all others stand (`blankComments_bytes`). The walk and
the tokens are compared region by region, each with what the tokens have left
of it (`encode_blankFrom`).

Where blanking has been, no comment opens: the second walk is in code where
the first was in a comment, and in the same region elsewhere
(`blankFrom_blankFrom`).
-/

namespace ExportAtlas

namespace Source

open Text Utf8

/-! ## Tokens -/

/-- A part of a source text, with its bytes. -/
inductive Token where
  /-- From `//` to the end of the line; the newline is not part of it. -/
  | lineComment (bytes : List UInt8)
  /-- From `/*` up to the next `*/`, or to the end of the text. -/
  | blockComment (bytes : List UInt8)
  /-- From a quote to the end of its string, or to that of the text. -/
  | string (bytes : List UInt8)
  /-- Any other byte. -/
  | other (byte : UInt8)
  deriving DecidableEq, Repr

namespace Token

/-- The bytes of a token. -/
def bytes : Token → List UInt8
  | lineComment bytes | blockComment bytes | string bytes => bytes
  | other byte => [byte]

/-- A byte of a comment, blanked. -/
def blankByte (b : UInt8) : UInt8 := if b = '\n'.toUInt8 then b else ' '.toUInt8

/-- The bytes of a token, blanked if it is a comment. -/
def blanked : Token → List UInt8
  | lineComment bytes | blockComment bytes => bytes.map blankByte
  | string bytes => bytes
  | other byte => [byte]

theorem length_blanked (t : Token) : t.blanked.length = t.bytes.length := by
  cases t with
  | lineComment bytes | blockComment bytes => exact List.length_map _
  | string bytes | other byte => rfl

/-- Bytes cut behind the first `*/`. -/
def cutBlock : List UInt8 → List UInt8 × List UInt8
  | [] => ([], [])
  | b :: rest =>
    if b = '*'.toUInt8 ∧ rest.head? = some '/'.toUInt8 then ([b, '/'.toUInt8], rest.tail)
    else (b :: (cutBlock rest).1, (cutBlock rest).2)

/-- A byte ends the string that `quote` opened. -/
def endsString (quote b : UInt8) : Bool :=
  b == quote || (b == '\n'.toUInt8 && quote != templateQuote.toUInt8)

/-- Bytes cut behind the one that ends the string that `quote` opened. A
backslash takes the next byte along. -/
def cutString (quote : UInt8) : List UInt8 → List UInt8 × List UInt8
  | [] => ([], [])
  | [b] => ([b], [])
  | b :: e :: rest =>
    if b = '\\'.toUInt8 then (b :: e :: (cutString quote rest).1, (cutString quote rest).2)
    else if endsString quote b then ([b], e :: rest)
    else (b :: (cutString quote (e :: rest)).1, (cutString quote (e :: rest)).2)

/-- A byte opens a string. -/
def isQuote (b : UInt8) : Bool :=
  b == '"'.toUInt8 || b == '\''.toUInt8 || b == templateQuote.toUInt8

/-- The first token of `b :: rest`, and what is left. -/
def first (b : UInt8) (rest : List UInt8) : Token × List UInt8 :=
  if b = '/'.toUInt8 ∧ rest.head? = some '/'.toUInt8 then
    (lineComment (b :: rest.takeWhile (· != '\n'.toUInt8)), rest.dropWhile (· != '\n'.toUInt8))
  else if b = '/'.toUInt8 ∧ rest.head? = some '*'.toUInt8 then
    (blockComment (b :: '*'.toUInt8 :: (cutBlock rest.tail).1), (cutBlock rest.tail).2)
  else if isQuote b then (string (b :: (cutString b rest).1), (cutString b rest).2)
  else (other b, rest)

end Token

namespace Token

theorem length_cutBlock (bs : List UInt8) : (cutBlock bs).2.length ≤ bs.length := by
  induction bs with
  | nil => exact Nat.le_refl _
  | cons b rest ih =>
    rw [cutBlock]
    split
    · exact (rest.length_tail ▸ Nat.sub_le _ _).trans (Nat.le_succ _)
    · exact ih.trans (Nat.le_succ _)

theorem length_cutString (quote : UInt8) (bs : List UInt8) :
    (cutString quote bs).2.length ≤ bs.length := by
  fun_induction cutString quote bs with
  | case1 => exact Nat.le_refl _
  | case2 b => exact Nat.zero_le _
  | case3 e rest ih => exact ih.trans (by simp only [List.length_cons]; omega)
  | case4 b e rest hescape hends => simp
  | case5 b e rest hescape hends ih => exact ih.trans (by simp)

/-- A token has a byte at least. -/
theorem length_first (b : UInt8) (rest : List UInt8) : (first b rest).2.length ≤ rest.length := by
  rw [first]
  split
  · exact (List.dropWhile_suffix _).length_le
  split
  · exact (length_cutBlock _).trans (rest.length_tail ▸ Nat.sub_le _ _)
  split
  · exact length_cutString b rest
  · exact Nat.le_refl _

end Token

/-- The tokens of a source text, from left to right. -/
def tokens : List UInt8 → List Token
  | [] => []
  | b :: rest => (Token.first b rest).1 :: tokens (Token.first b rest).2
termination_by bytes => bytes.length
decreasing_by exact Nat.lt_succ_of_le (Token.length_first b rest)

namespace Token

theorem cutBlock_append (bs : List UInt8) : (cutBlock bs).1 ++ (cutBlock bs).2 = bs := by
  induction bs with
  | nil => rfl
  | cons b rest ih =>
    rw [cutBlock]
    split
    · rename_i hend
      rw [List.cons_append, List.singleton_append, List.cons_head?_tail hend.2]
    · rw [List.cons_append, ih]

theorem cutString_cons_cons (quote b e : UInt8) (rest : List UInt8) :
    cutString quote (b :: e :: rest) =
      if b = '\\'.toUInt8 then (b :: e :: (cutString quote rest).1, (cutString quote rest).2)
      else if endsString quote b then ([b], e :: rest)
      else (b :: (cutString quote (e :: rest)).1, (cutString quote (e :: rest)).2) := by
  rw [cutString]

theorem cutString_append (quote : UInt8) (bs : List UInt8) :
    (cutString quote bs).1 ++ (cutString quote bs).2 = bs := by
  fun_induction cutString quote bs with
  | case1 => rfl
  | case2 b => rfl
  | case3 e rest ih => rw [List.cons_append, List.cons_append, ih]
  | case4 b e rest hescape hends => rfl
  | case5 b e rest hescape hends ih => rw [List.cons_append, ih]

theorem first_append (b : UInt8) (rest : List UInt8) :
    (first b rest).1.bytes ++ (first b rest).2 = b :: rest := by
  rw [first]
  split
  · rw [bytes, List.cons_append, List.takeWhile_append_dropWhile]
  split
  · rename_i hopen
    rw [bytes, List.cons_append, List.cons_append, cutBlock_append, List.cons_head?_tail hopen.2]
  split
  · rw [bytes, List.cons_append, cutString_append]
  · rfl

end Token

/-- **Tokens leave nothing out.** -/
theorem flatMap_bytes_tokens (bs : List UInt8) : (tokens bs).flatMap Token.bytes = bs := by
  fun_induction tokens bs with
  | case1 => rfl
  | case2 b rest ih => rw [List.flatMap_cons, ih, Token.first_append]

/-! ## Characters as bytes -/

theorem encode_append (s t : List Char) : encode (s ++ t) = encode s ++ encode t :=
  List.flatMap_append

theorem toNat_toUInt8 {c : Char} (hc : c.toNat < 0x80) : c.toUInt8.toNat = c.toNat := by
  change c.toNat % 256 = c.toNat
  omega

/-- A character in ASCII is its own byte, and no byte of any other is in
ASCII. -/
theorem encodeChar_cases (c : Char) :
    (c.toNat < 0x80 ∧ String.utf8EncodeChar c = [c.toUInt8]) ∨
      (0x80 ≤ c.toNat ∧ ∀ b ∈ String.utf8EncodeChar c, 0x80 ≤ b.toNat) := by
  have hspell := spelling_encodeChar c
  generalize String.utf8EncodeChar c = l at hspell
  cases hspell with
  | @one a hn ha =>
    refine .inl ⟨hn, ?_⟩
    rw [← UInt8.toNat_inj.mp (ha.trans (toNat_toUInt8 hn).symm)]
  | two hlow hn ha hb => exact .inr ⟨hlow, by simp; omega⟩
  | three hlow hn hscalar ha hb hc => exact .inr ⟨by omega, by simp; omega⟩
  | four hlow hn ha hb hc hd => exact .inr ⟨by omega, by simp; omega⟩

theorem encodeChar_of_lt {c : Char} (hc : c.toNat < 0x80) :
    String.utf8EncodeChar c = [c.toUInt8] := by
  rcases encodeChar_cases c with h | h
  · exact h.2
  · omega

theorem toUInt8_inj {c k : Char} (hc : c.toNat < 0x80) (hk : k.toNat < 0x80) :
    c.toUInt8 = k.toUInt8 ↔ c = k := by
  rw [← UInt8.toNat_inj, toNat_toUInt8 hc, toNat_toUInt8 hk, Char.toNat_inj]

theorem beq_toUInt8 {c k : Char} (hc : c.toNat < 0x80) (hk : k.toNat < 0x80) :
    (c.toUInt8 == k.toUInt8) = (c == k) := by
  rw [Bool.eq_iff_iff, beq_iff_eq, beq_iff_eq, toUInt8_inj hc hk]

/-- A character in ASCII is at the front of a text if its byte is at the front
of the bytes. -/
theorem head?_encode {k : Char} (hk : k.toNat < 0x80) (s : List Char) :
    (encode s).head? = some k.toUInt8 ↔ s.head? = some k := by
  cases s with
  | nil => simp [encode]
  | cons c s =>
    rw [encode_cons, List.head?_cons, Option.some.injEq]
    rcases encodeChar_cases c with ⟨hc, hbytes⟩ | ⟨hc, hbytes⟩
    · rw [hbytes, List.singleton_append, List.head?_cons, Option.some.injEq, toUInt8_inj hc hk]
    · obtain ⟨b, l, hl⟩ := List.exists_cons_of_ne_nil (String.utf8EncodeChar_ne_nil (c := c))
      rw [hl] at hbytes ⊢
      have hb := hbytes b (List.mem_cons_self ..)
      rw [List.cons_append, List.head?_cons, Option.some.injEq, ← UInt8.toNat_inj,
        toNat_toUInt8 hk]
      refine iff_of_false (by omega) ?_
      rintro rfl
      omega

/-! ## Region by region -/

/-- The bytes of the tokens of a text, with comments blanked. -/
def blankedBytes (bs : List UInt8) : List UInt8 := (tokens bs).flatMap Token.blanked

/-- The same of a text that starts in a region: first comes the rest of the
token there. -/
def blankedFrom : Region → List UInt8 → List UInt8
  | .code, bs => blankedBytes bs
  | .string quote, bs =>
    (Token.cutString quote.toUInt8 bs).1 ++ blankedBytes (Token.cutString quote.toUInt8 bs).2
  | .lineComment, bs =>
    (bs.takeWhile (· != '\n'.toUInt8)).map Token.blankByte ++
      blankedBytes (bs.dropWhile (· != '\n'.toUInt8))
  | .blockComment, bs =>
    (Token.cutBlock bs).1.map Token.blankByte ++ blankedBytes (Token.cutBlock bs).2

/-- What is shown of a byte inside a token. -/
def Region.shownByte : Region → UInt8 → UInt8
  | .lineComment, b | .blockComment, b => Token.blankByte b
  | _, b => b

section Regions

variable {r : Region} {b e : UInt8} {bs l : List UInt8} {c : Char} {s : List Char}

theorem blankedBytes_cons (b : UInt8) (bs : List UInt8) :
    blankedBytes (b :: bs) =
      (Token.first b bs).1.blanked ++ blankedBytes (Token.first b bs).2 := by
  rw [blankedBytes, tokens, List.flatMap_cons, blankedBytes]

theorem blankedFrom_nil (r : Region) : blankedFrom r [] = [] := by
  have hnil : blankedBytes [] = [] := by rw [blankedBytes, tokens, List.flatMap_nil]
  cases r <;> exact hnil

theorem blankedBytes_line (bs : List UInt8) :
    blankedBytes ('/'.toUInt8 :: '/'.toUInt8 :: bs) =
      ' '.toUInt8 :: ' '.toUInt8 :: blankedFrom .lineComment bs := by
  rw [blankedBytes_cons]
  rfl

theorem blankedBytes_block (bs : List UInt8) :
    blankedBytes ('/'.toUInt8 :: '*'.toUInt8 :: bs) =
      ' '.toUInt8 :: ' '.toUInt8 :: blankedFrom .blockComment bs := by
  rw [blankedBytes_cons]
  rfl

theorem blankedBytes_quote (hc : isQuote c = true) (bs : List UInt8) :
    blankedBytes (c.toUInt8 :: bs) = c.toUInt8 :: blankedFrom (.string c) bs := by
  rw [blankedBytes_cons]
  simp only [isQuote, Bool.or_eq_true, beq_iff_eq] at hc
  rcases hc with (rfl | rfl) | rfl <;> rfl

/-- A byte that opens nothing is a token alone. -/
theorem blankedBytes_other (hopen : b = '/'.toUInt8 →
      bs.head? ≠ some '/'.toUInt8 ∧ bs.head? ≠ some '*'.toUInt8)
    (hquote : Token.isQuote b = false) : blankedBytes (b :: bs) = b :: blankedBytes bs := by
  rw [blankedBytes_cons, Token.first, if_neg fun h => (hopen h.1).1 h.2,
    if_neg fun h => (hopen h.1).2 h.2, if_neg (Bool.eq_false_iff.mp hquote)]
  rfl

theorem blankedFrom_escape (quote : Char) (e : UInt8) (bs : List UInt8) :
    blankedFrom (.string quote) ('\\'.toUInt8 :: e :: bs) =
      '\\'.toUInt8 :: e :: blankedFrom (.string quote) bs := by
  rw [blankedFrom, Token.cutString_cons_cons, if_pos rfl]
  rfl

/-- A byte that ends its string, where no byte is escaped. -/
theorem blankedFrom_stringEnd {quote : Char} (hescape : b = '\\'.toUInt8 → bs = [])
    (hend : Token.endsString quote.toUInt8 b = true) :
    blankedFrom (.string quote) (b :: bs) = b :: blankedFrom .code bs := by
  cases bs with
  | nil => rfl
  | cons e bs =>
    change (Token.cutString _ _).1 ++ blankedBytes (Token.cutString _ _).2 = _
    rw [Token.cutString_cons_cons, if_neg fun h => List.cons_ne_nil e bs (hescape h), if_pos hend]
    rfl

/-- And one that goes on with it. -/
theorem blankedFrom_inString {quote : Char} (hescape : b = '\\'.toUInt8 → bs = [])
    (hend : Token.endsString quote.toUInt8 b = false) :
    blankedFrom (.string quote) (b :: bs) = b :: blankedFrom (.string quote) bs := by
  cases bs with
  | nil => rfl
  | cons e bs =>
    rw [blankedFrom, Token.cutString_cons_cons, if_neg fun h => List.cons_ne_nil e bs (hescape h),
      if_neg (Bool.eq_false_iff.mp hend)]
    rfl

theorem blankedFrom_lineEnd (bs : List UInt8) :
    blankedFrom .lineComment ('\n'.toUInt8 :: bs) = '\n'.toUInt8 :: blankedFrom .code bs :=
  blankedBytes_other (fun h => absurd h (by decide)) (by decide)

theorem blankedFrom_inLine (hb : b ≠ '\n'.toUInt8) :
    blankedFrom .lineComment (b :: bs) = Token.blankByte b :: blankedFrom .lineComment bs := by
  have hpass : (b != '\n'.toUInt8) = true := bne_iff_ne.mpr hb
  rw [blankedFrom, List.takeWhile_cons, List.dropWhile_cons, if_pos hpass, if_pos hpass]
  rfl

theorem blankedFrom_blockEnd (bs : List UInt8) :
    blankedFrom .blockComment ('*'.toUInt8 :: '/'.toUInt8 :: bs) =
      ' '.toUInt8 :: ' '.toUInt8 :: blankedFrom .code bs := rfl

theorem blankedFrom_inBlock (hend : b = '*'.toUInt8 → bs.head? ≠ some '/'.toUInt8) :
    blankedFrom .blockComment (b :: bs) = Token.blankByte b :: blankedFrom .blockComment bs := by
  rw [blankedFrom, Token.cutBlock, if_neg fun h => hend h.1 h.2]
  rfl

/-! ### Characters in ASCII and beyond -/

theorem isQuote_toUInt8 (hc : c.toNat < 0x80) : Token.isQuote c.toUInt8 = isQuote c := by
  rw [Token.isQuote, isQuote, beq_toUInt8 hc (by decide), beq_toUInt8 hc (by decide),
    beq_toUInt8 hc (by decide)]

theorem toNat_lt_of_isQuote (hc : isQuote c = true) : c.toNat < 0x80 := by
  simp only [isQuote, Bool.or_eq_true, beq_iff_eq] at hc
  rcases hc with (rfl | rfl) | rfl <;> decide

theorem toNat_lt_of_endsString {quote : Char} (hquote : isQuote quote = true)
    (hc : endsString quote c = true) : c.toNat < 0x80 := by
  rw [endsString, Bool.or_eq_true, Bool.and_eq_true, beq_iff_eq, beq_iff_eq] at hc
  rcases hc with rfl | ⟨rfl, -⟩
  · exact toNat_lt_of_isQuote hquote
  · decide

theorem endsString_toUInt8 {quote : Char} (hquote : isQuote quote = true) (hc : c.toNat < 0x80) :
    Token.endsString quote.toUInt8 c.toUInt8 = endsString quote c := by
  have hlow := toNat_lt_of_isQuote hquote
  rw [Token.endsString, endsString, beq_toUInt8 hc hlow, beq_toUInt8 hc (by decide), bne, bne,
    beq_toUInt8 hlow (by decide)]

/-- A byte beyond ASCII is none that a token begins or ends with. -/
theorem blankedFrom_cons_of_high (hr : r.IsProper) (hb : 0x80 ≤ b.toNat) :
    blankedFrom r (b :: bs) = r.shownByte b :: blankedFrom r bs := by
  have hne : ∀ k : Char, k.toNat < 0x80 → b ≠ k.toUInt8 := by
    rintro k hk rfl
    rw [toNat_toUInt8 hk] at hb
    omega
  cases r with
  | code =>
    refine blankedBytes_other (fun h => absurd h (hne '/' (by decide))) ?_
    simp only [Token.isQuote, Bool.or_eq_false_iff, beq_eq_false_iff_ne]
    exact ⟨⟨hne _ (by decide), hne _ (by decide)⟩, hne _ (by decide)⟩
  | string quote =>
    refine blankedFrom_inString (fun h => absurd h (hne '\\' (by decide))) ?_
    have hquote : quote.toNat < 0x80 := toNat_lt_of_isQuote hr
    rw [Token.endsString, Bool.or_eq_false_iff, beq_eq_false_iff_ne, Bool.and_eq_false_iff,
      beq_eq_false_iff_ne]
    exact ⟨hne _ hquote, .inl (hne _ (by decide))⟩
  | lineComment => exact blankedFrom_inLine (hne '\n' (by decide))
  | blockComment => exact blankedFrom_inBlock fun h => absurd h (hne '*' (by decide))

theorem blankedFrom_append_of_high (hr : r.IsProper) (hl : ∀ b ∈ l, 0x80 ≤ b.toNat) :
    blankedFrom r (l ++ bs) = l.map r.shownByte ++ blankedFrom r bs := by
  induction l with
  | nil => rfl
  | cons b l ih =>
    rw [List.cons_append, blankedFrom_cons_of_high hr (hl b (List.mem_cons_self ..)),
      ih fun d hd => hl d (List.mem_cons_of_mem b hd)]
    rfl

/-- A character of a comment is blanked byte by byte. -/
theorem encode_blanked (c : Char) :
    encode (blanked c) = (String.utf8EncodeChar c).map Token.blankByte := by
  rw [blanked]
  split
  · rename_i hc
    rw [hc]
    rfl
  · rename_i hc
    have hspaces : ∀ n, encode (List.replicate n ' ') = List.replicate n ' '.toUInt8 := by
      intro n
      induction n with
      | zero => rfl
      | succ n ih => rw [List.replicate_succ, encode_cons, ih]; rfl
    rw [hspaces, ← String.length_utf8EncodeChar, eq_comm, List.map_eq_replicate_iff]
    intro b hb
    refine if_neg ?_
    rintro rfl
    rcases encodeChar_cases c with ⟨hlow, hbytes⟩ | ⟨-, hbytes⟩
    · rw [hbytes, List.mem_singleton, eq_comm, toUInt8_inj hlow (by decide)] at hb
      exact hc hb
    · exact absurd (hbytes _ hb) (by decide)

/-! ### One character -/

/-- **A character inside a token**: where its byte does nothing to the region,
neither does any byte of a longer one. -/
theorem blankedFrom_encode_cons (hr : r.IsProper)
    (hlow : c.toNat < 0x80 →
      blankedFrom r (c.toUInt8 :: encode s) = r.shownByte c.toUInt8 :: blankedFrom r (encode s)) :
    blankedFrom r (encode (c :: s)) =
      (String.utf8EncodeChar c).map r.shownByte ++ blankedFrom r (encode s) := by
  rw [encode_cons]
  rcases encodeChar_cases c with ⟨hc, hbytes⟩ | ⟨-, hbytes⟩
  · rw [hbytes]
    exact hlow hc
  · exact blankedFrom_append_of_high hr hbytes

theorem map_shownByte_code (l : List UInt8) : l.map (Region.shownByte .code) = l := List.map_id l

theorem map_shownByte_string (quote : Char) (l : List UInt8) :
    l.map (Region.shownByte (.string quote)) = l := List.map_id l

/-- **Blanking character by character** does to the bytes what is said of the
tokens. -/
theorem encode_blankFrom (hr : r.IsProper) : encode (blankFrom r s) = blankedFrom r (encode s) := by
  fun_induction blankFrom r s with
  | case1 r => exact (blankedFrom_nil r).symm
  | case2 rest ih =>
    rw [encode_cons, encode_cons, ih trivial]
    exact (blankedBytes_line _).symm
  | case3 rest ih =>
    rw [encode_cons, encode_cons, ih trivial]
    exact (blankedBytes_block _).symm
  | case4 c rest hline hblock ih =>
    by_cases hquote : isQuote c = true
    · rw [if_pos hquote] at ih ⊢
      rw [encode_cons, ih hquote, encode_cons, encodeChar_of_lt (toNat_lt_of_isQuote hquote)]
      exact (blankedBytes_quote hquote _).symm
    · rw [if_neg hquote] at ih ⊢
      rw [encode_cons, ih hr, blankedFrom_encode_cons hr fun hlow => ?_, map_shownByte_code]
      refine blankedBytes_other (fun hc => ?_)
        ((isQuote_toUInt8 hlow).trans (by simpa using hquote))
      -- behind a slash that opens no comment stands neither of the two marks
      have hslash : c = '/' := (toUInt8_inj hlow (by decide)).mp hc
      rw [Ne, Ne, head?_encode (by decide), head?_encode (by decide), List.head?_eq_some_iff,
        List.head?_eq_some_iff]
      constructor
      · rintro ⟨t, ht⟩
        exact hline t hslash ht
      · rintro ⟨t, ht⟩
        exact hblock t hslash ht
  | case5 quote c rest ih =>
    -- of a longer character the backslash takes the first byte along, and the others are passed
    rw [encode_cons, encode_cons, ih hr, encode_cons, encode_cons]
    obtain ⟨e, l, hl⟩ := List.exists_cons_of_ne_nil (String.utf8EncodeChar_ne_nil (c := c))
    have hhigh : ∀ b ∈ l, 0x80 ≤ b.toNat := by
      intro b hb
      rcases encodeChar_cases c with ⟨-, hbytes⟩ | ⟨-, hbytes⟩
      · rw [hl, List.cons_eq_cons] at hbytes
        rw [hbytes.2] at hb
        cases hb
      · exact hbytes b (by rw [hl]; exact List.mem_cons_of_mem e hb)
    rw [hl]
    refine Eq.trans ?_ (blankedFrom_escape quote e (l ++ encode rest)).symm
    rw [blankedFrom_append_of_high hr hhigh, map_shownByte_string]
    rfl
  | case6 quote c rest hescape ih =>
    have hbackslash : c = '\\' → rest = [] := by
      intro hc
      cases rest with
      | nil => rfl
      | cons e t => exact absurd rfl (hescape e t hc)
    have hbyte : c.toNat < 0x80 → c.toUInt8 = '\\'.toUInt8 → encode rest = [] := by
      intro hlow hc
      rw [hbackslash ((toUInt8_inj hlow (by decide)).mp hc)]
      rfl
    by_cases hend : endsString quote c = true
    · rw [if_pos hend] at ih ⊢
      have hlow := toNat_lt_of_endsString hr hend
      rw [encode_cons, ih trivial, encode_cons, encodeChar_of_lt hlow]
      exact (blankedFrom_stringEnd (hbyte hlow) ((endsString_toUInt8 hr hlow).trans hend)).symm
    · rw [if_neg hend] at ih ⊢
      rw [encode_cons, ih hr, blankedFrom_encode_cons hr fun hlow => ?_, map_shownByte_string]
      exact blankedFrom_inString (hbyte hlow)
        ((endsString_toUInt8 hr hlow).trans (by simpa using hend))
  | case7 rest ih =>
    rw [encode_cons, ih trivial]
    exact (blankedFrom_lineEnd _).symm
  | case8 c rest hc ih =>
    rw [encode_append, ih hr, encode_blanked, blankedFrom_encode_cons hr fun hlow => ?_]
    · rfl
    · exact blankedFrom_inLine fun hb => hc ((toUInt8_inj hlow (by decide)).mp hb)
  | case9 rest ih =>
    rw [encode_cons, encode_cons, ih trivial]
    exact (blankedFrom_blockEnd _).symm
  | case10 c rest hend ih =>
    rw [encode_append, ih hr, encode_blanked, blankedFrom_encode_cons hr fun hlow => ?_]
    · rfl
    · refine blankedFrom_inBlock fun hc => ?_
      rw [Ne, head?_encode (by decide), List.head?_eq_some_iff]
      rintro ⟨t, ht⟩
      exact hend t ((toUInt8_inj hlow (by decide)).mp hc) ht

end Regions

/-- **Blanking blanks exactly the comments.** The tokens of a source text make
up its bytes; those of the text with its comments blanked are the same, but
that every byte of a comment other than a newline is a space. They are as many
as before, and read as characters again, so there is no text for which one
would have to fall back on the source. -/
theorem blankComments_bytes (source : List Char) :
    (tokens (encode source)).flatMap Token.bytes = encode source ∧
    encode (blankComments source) = (tokens (encode source)).flatMap Token.blanked ∧
    (encode (blankComments source)).length = (encode source).length ∧
    decode? ((tokens (encode source)).flatMap Token.blanked) = some (blankComments source) := by
  have hblanked : encode (blankComments source) =
      (tokens (encode source)).flatMap Token.blanked := by
    rw [blankComments_eq, ← blankFrom_eq_flatMap]
    exact encode_blankFrom (r := .code) trivial
  refine ⟨flatMap_bytes_tokens _, hblanked, ?_, ?_⟩
  · rw [hblanked]
    refine Eq.trans ?_ (congrArg List.length (flatMap_bytes_tokens (encode source)))
    rw [List.length_flatMap, List.length_flatMap]
    exact congrArg List.sum (List.map_congr_left fun t _ => t.length_blanked)
  · rw [← hblanked, decode?]
    exact mapM_id_eq_some_iff.mpr (decode_encode _)

/-! ## Blanking twice -/

/-- What a place lies in once comments are blanked. -/
def Region.onceBlanked : Region → Region
  | .lineComment | .blockComment => .code
  | r => r

/-- In code, blanks are passed one by one. -/
theorem blankFrom_code_append {a : List Char} (ha : ∀ c ∈ a, c = ' ' ∨ c = '\n') (s : List Char) :
    blankFrom .code (a ++ s) = a ++ blankFrom .code s := by
  induction a with
  | nil => rfl
  | cons c a ih =>
    rw [List.cons_append, List.cons_append, ← ih fun d hd => ha d (List.mem_cons_of_mem c hd)]
    rcases ha c (List.mem_cons_self ..) with rfl | rfl <;> rfl

/-- A character of code that opens no comment is passed. -/
theorem blankFrom_code_cons {c : Char} {s : List Char}
    (hopen : c = '/' → ∀ t, s ≠ '/' :: t ∧ s ≠ '*' :: t) :
    blankFrom .code (c :: s) = c :: blankFrom (if isQuote c then .string c else .code) s := by
  rw [blankFrom]
  · exact fun t hc => (hopen hc t).1
  · exact fun t hc => (hopen hc t).2

/-- And one of a string that escapes none. -/
theorem blankFrom_string_cons {quote c : Char} {s : List Char} (hescape : c = '\\' → s = []) :
    blankFrom (.string quote) (c :: s) =
      c :: blankFrom (if endsString quote c then .code else .string quote) s := by
  rw [blankFrom]
  rintro e t hc rfl
  exact List.cons_ne_nil e t (hescape hc)

/-- What stands at the front of blanked code stood there before, or is a
space. -/
theorem front_of_blankFrom_code {s t : List Char} {k : Char} (h : blankFrom .code s = k :: t) :
    k = ' ' ∨ ∃ rest, s = k :: rest := by
  cases s with
  | nil => cases h
  | cons c s =>
    by_cases hopen : c = '/' ∧ ∃ rest, s = '/' :: rest ∨ s = '*' :: rest
    · obtain ⟨rfl, rest, rfl | rfl⟩ := hopen <;> exact .inl (List.cons.inj h).1.symm
    · rw [blankFrom_code_cons fun hc rest =>
        ⟨fun hs => hopen ⟨hc, rest, .inl hs⟩, fun hs => hopen ⟨hc, rest, .inr hs⟩⟩] at h
      exact .inr ⟨s, by rw [(List.cons.inj h).1]⟩

/-- **The second walk follows the first**: in code where the first was in a
comment, and in the region of the first elsewhere. -/
theorem blankFrom_blankFrom (r : Region) (s : List Char) :
    blankFrom r.onceBlanked (blankFrom r s) = blankFrom r s := by
  fun_induction blankFrom r s with
  | case1 r => cases r <;> rfl
  | case2 rest ih | case3 rest ih | case9 rest ih => exact congrArg (' ' :: ' ' :: ·) ih
  | case4 c rest hline hblock ih =>
    have hcode : (if isQuote c then Region.string c else .code).onceBlanked =
        if isQuote c then .string c else .code := by
      split <;> rfl
    rw [hcode] at ih
    refine (blankFrom_code_cons fun hc t => ?_).trans (congrArg (c :: ·) ih)
    -- a slash that opens no comment has no mark behind it after blanking either
    subst hc
    constructor <;> intro hfront <;>
      rcases front_of_blankFrom_code hfront with hk | ⟨rest', hrest⟩
    · cases hk
    · exact hline rest' rfl hrest
    · cases hk
    · exact hblock rest' rfl hrest
  | case5 quote c rest ih => exact congrArg ('\\' :: c :: ·) ih
  | case6 quote c rest hescape ih =>
    have hstring : (if endsString quote c then Region.code else .string quote).onceBlanked =
        if endsString quote c then .code else .string quote := by
      split <;> rfl
    rw [hstring] at ih
    refine (blankFrom_string_cons fun hc => ?_).trans (congrArg (c :: ·) ih)
    cases rest with
    | nil => split <;> rfl
    | cons e t => exact absurd rfl (hescape e t hc)
  | case7 rest ih => exact congrArg ('\n' :: ·) ih
  | case8 c rest hc ih | case10 c rest hend ih =>
    exact (blankFrom_code_append (fun d hd => mem_blanked hd) _).trans
      (congrArg (blanked c ++ ·) ih)

/-- **Blanking is idempotent and not seen by extraction.** -/
theorem extract_blankComments (source : List Char) :
    blankComments (blankComments source) = blankComments source ∧
    extract (blankComments source) = extract source := by
  have htwice : blankComments (blankComments source) = blankComments source := by
    rw [blankComments_eq, ← blankFrom_eq_flatMap, blankComments_eq, ← blankFrom_eq_flatMap]
    exact blankFrom_blankFrom .code source
  exact ⟨htwice, by rw [extract, htwice, extract]⟩

end Source

end ExportAtlas
