import Mathlib.Data.List.Lex
import Mathlib.Data.String.Basic
import ExportAtlas.Text.Utf8
/-!
# UTF-8 there and back

A character's bytes are told by its number (`Spelling`). Reading finds a
character exactly where one is spelled (`Spelling.decode_append`,
`spelling_of_decode`), so strict reading and writing are inverse
(`toString?_eq_some_iff`); and greater numbers have greater spellings
(`Spelling.append_lt`), so texts are in the order of their bytes
(`ofString_lt_ofString`). Bytes that are not UTF-8 never make a character of
ASCII: one is read from its own byte (`mem_of_mem_decode`).
-/

namespace ExportAtlas

namespace Text

namespace Utf8

variable {a b : UInt8} {l rest : List UInt8} {c : Char} {m n : Nat}

/-- The bytes of the character of a number, by how many bits it takes. -/
inductive Spelling (n : Nat) : List UInt8 → Prop
  | one {a : UInt8} (hn : n < 0x80) (ha : a.toNat = n) : Spelling n [a]
  | two {a b : UInt8} (hlow : 0x80 ≤ n) (hn : n < 0x800) (ha : a.toNat = n / 0x40 + 0xC0)
      (hb : b.toNat = n % 0x40 + 0x80) : Spelling n [a, b]
  | three {a b c : UInt8} (hlow : 0x800 ≤ n) (hn : n < 0x10000)
      (hscalar : n < 0xD800 ∨ 0xDFFF < n) (ha : a.toNat = n / 0x1000 + 0xE0)
      (hb : b.toNat = n / 0x40 % 0x40 + 0x80) (hc : c.toNat = n % 0x40 + 0x80) :
      Spelling n [a, b, c]
  | four {a b c d : UInt8} (hlow : 0x10000 ≤ n) (hn : n < 0x110000)
      (ha : a.toNat = n / 0x40000 + 0xF0) (hb : b.toNat = n / 0x1000 % 0x40 + 0x80)
      (hc : c.toNat = n / 0x40 % 0x40 + 0x80) (hd : d.toNat = n % 0x40 + 0x80) :
      Spelling n [a, b, c, d]

theorem toNat_scalar (c : Char) : c.toNat < 0xD800 ∨ 0xDFFF < c.toNat ∧ c.toNat < 0x110000 :=
  c.valid

theorem toNat_ofNat (h : n < 0xD800 ∨ 0xDFFF < n ∧ n < 0x110000) : (Char.ofNat n).toNat = n := by
  rw [Char.ofNat, dif_pos h]
  rfl

/-- **Characters are spelled** as they are written. -/
theorem spelling_encodeChar (c : Char) : Spelling c.toNat (String.utf8EncodeChar c) := by
  have hscalar := toNat_scalar c
  have hnat : c.val.toNat = c.toNat := rfl
  rw [String.utf8EncodeChar, hnat]
  split
  · exact .one (by omega) (by rw [UInt8.toNat_ofNat']; omega)
  split
  · exact .two (by omega) (by omega) (by rw [UInt8.toNat_ofNat']; omega)
      (by rw [UInt8.toNat_ofNat']; omega)
  split
  · exact .three (by omega) (by omega) (by omega) (by rw [UInt8.toNat_ofNat']; omega)
      (by rw [UInt8.toNat_ofNat']; omega) (by rw [UInt8.toNat_ofNat']; omega)
  · exact .four (by omega) (by omega) (by rw [UInt8.toNat_ofNat']; omega)
      (by rw [UInt8.toNat_ofNat']; omega) (by rw [UInt8.toNat_ofNat']; omega)
      (by rw [UInt8.toNat_ofNat']; omega)

/-- A number has one spelling. -/
theorem Spelling.unique {l' : List UInt8} (h : Spelling n l) (h' : Spelling n l') : l = l' := by
  cases h <;> cases h' <;> first
    | omega
    | simp only [List.cons.injEq, and_true, ← UInt8.toNat_inj]
      omega

/-! ## Bytes as numbers -/

theorem isTail_iff : isTail b = true ↔ 0x80 ≤ b.toNat ∧ b.toNat ≤ 0xBF := by
  simp [isTail, UInt8.le_iff_toNat_le]

theorem mayFollow_iff : mayFollow a b = true ↔
    0x80 ≤ b.toNat ∧ b.toNat ≤ 0xBF ∧ (a.toNat = 0xE0 → 0xA0 ≤ b.toNat) ∧
      (a.toNat = 0xED → b.toNat ≤ 0x9F) ∧ (a.toNat = 0xF0 → 0x90 ≤ b.toNat) ∧
      (a.toNat = 0xF4 → b.toNat ≤ 0x8F) := by
  simp only [mayFollow, isTail, beq_iff_eq, ← UInt8.toNat_inj, UInt8.reduceToNat]
  split
  · simp only [Bool.and_eq_true, decide_eq_true_eq, UInt8.le_iff_toNat_le, UInt8.reduceToNat]
    omega
  split
  · simp only [Bool.and_eq_true, decide_eq_true_eq, UInt8.le_iff_toNat_le, UInt8.reduceToNat]
    omega
  split
  · simp only [Bool.and_eq_true, decide_eq_true_eq, UInt8.le_iff_toNat_le, UInt8.reduceToNat]
    omega
  split <;>
  · simp only [Bool.and_eq_true, decide_eq_true_eq, UInt8.le_iff_toNat_le, UInt8.reduceToNat]
    omega

/-! ## Reading what is spelled -/

/-- The lead byte of a longer character is none on its own. -/
theorem isLead_iff : ¬ a < 0x80 ∧ (decide (a < 0xC2) || decide (0xF4 < a)) = false ↔
    0xC2 ≤ a.toNat ∧ a.toNat ≤ 0xF4 := by
  simp only [Bool.or_eq_false_iff, decide_eq_false_iff_not, UInt8.lt_iff_toNat_lt,
    UInt8.reduceToNat]
  omega

/-- **A spelled character is read**, whatever follows it. -/
theorem Spelling.decode_append (h : Spelling n l) (rest : List UInt8) :
    decode (l ++ rest) = some (Char.ofNat n) :: decode rest := by
  cases h with
  | @one a hn ha =>
    have hlow : a < 0x80 := by rwa [UInt8.lt_iff_toNat_lt, ha]
    rw [List.singleton_append, decode.eq_def, ← ha]
    exact if_pos hlow
  | @two a b hlow hn ha hb =>
    obtain ⟨h₁, h₂⟩ := isLead_iff.mpr (show 0xC2 ≤ a.toNat ∧ a.toNat ≤ 0xF4 by omega)
    have hb' : mayFollow a b = true := mayFollow_iff.mpr (by omega)
    have ha' : a < 0xE0 := by rw [UInt8.lt_iff_toNat_lt]; simp only [UInt8.reduceToNat]; omega
    have hvalue : a.toNat % 0x20 * 0x40 + payload b = n := by rw [payload]; omega
    change decode (a :: b :: rest) = _
    rw [decode.eq_def]
    simp only [h₁, h₂, hb', ha', hvalue, Bool.not_true, Bool.false_eq_true, if_true, if_false]
  | @three a b c hlow hn hscalar ha hb hc =>
    obtain ⟨h₁, h₂⟩ := isLead_iff.mpr (show 0xC2 ≤ a.toNat ∧ a.toNat ≤ 0xF4 by omega)
    have hb' : mayFollow a b = true := mayFollow_iff.mpr (by omega)
    have hc' : isTail c = true := isTail_iff.mpr (by omega)
    have ha' : ¬ a < 0xE0 ∧ a < 0xF0 := by
      simp only [UInt8.lt_iff_toNat_lt, UInt8.reduceToNat]
      omega
    have hvalue : (a.toNat % 0x10 * 0x40 + payload b) * 0x40 + payload c = n := by
      rw [payload, payload]
      omega
    change decode (a :: b :: c :: rest) = _
    rw [decode.eq_def]
    simp only [h₁, h₂, hb', hc', ha', hvalue, Bool.not_true, Bool.false_eq_true, if_true, if_false]
  | @four a b c d hlow hn ha hb hc hd =>
    obtain ⟨h₁, h₂⟩ := isLead_iff.mpr (show 0xC2 ≤ a.toNat ∧ a.toNat ≤ 0xF4 by omega)
    have hb' : mayFollow a b = true := mayFollow_iff.mpr (by omega)
    have hc' : isTail c = true := isTail_iff.mpr (by omega)
    have hd' : isTail d = true := isTail_iff.mpr (by omega)
    have ha' : ¬ a < 0xE0 ∧ ¬ a < 0xF0 := by
      simp only [UInt8.lt_iff_toNat_lt, UInt8.reduceToNat]
      omega
    have hvalue :
        ((a.toNat % 0x08 * 0x40 + payload b) * 0x40 + payload c) * 0x40 + payload d = n := by
      rw [payload, payload, payload]
      omega
    change decode (a :: b :: c :: d :: rest) = _
    rw [decode.eq_def]
    simp only [h₁, h₂, hb', hc', hd', ha', hvalue, Bool.not_true, Bool.false_eq_true, if_false]

/-- **What is read was spelled.** -/
theorem spelling_of_decode {bytes : List UInt8} {more : List (Option Char)}
    (h : decode bytes = some c :: more) :
    ∃ l rest, bytes = l ++ rest ∧ Spelling c.toNat l ∧ more = decode rest := by
  rw [decode.eq_def] at h
  split at h
  · cases h
  rename_i a rest
  -- a first byte that is a character alone
  split at h
  · rename_i ha
    rw [UInt8.lt_iff_toNat_lt] at ha
    simp only [UInt8.reduceToNat] at ha
    cases h
    refine ⟨[a], rest, rfl, ?_, rfl⟩
    rw [toNat_ofNat (by omega)]
    exact .one ha rfl
  rename_i h₁
  split at h
  · cases h
  rename_i h₂
  obtain ⟨hlow, hhigh⟩ := isLead_iff.mp ⟨h₁, by simpa using h₂⟩
  -- a second byte that may follow
  split at h
  · cases h
  rename_i b rest
  split at h
  · cases h
  rename_i hb
  have hb := mayFollow_iff.mp (by simpa using hb)
  split at h
  · rename_i ha
    rw [UInt8.lt_iff_toNat_lt] at ha
    simp only [UInt8.reduceToNat] at ha
    cases h
    refine ⟨[a, b], rest, rfl, ?_, rfl⟩
    rw [payload, toNat_ofNat (by omega)]
    exact .two (by omega) (by omega) (by omega) (by omega)
  rename_i ha
  rw [UInt8.lt_iff_toNat_lt] at ha
  simp only [UInt8.reduceToNat] at ha
  -- a third one
  split at h
  · cases h
  rename_i d rest
  split at h
  · cases h
  rename_i hd
  have hd := isTail_iff.mp (by simpa using hd)
  split at h
  · rename_i ha'
    rw [UInt8.lt_iff_toNat_lt] at ha'
    simp only [UInt8.reduceToNat] at ha'
    cases h
    refine ⟨[a, b, d], rest, rfl, ?_, rfl⟩
    rw [payload, payload, toNat_ofNat (by omega)]
    exact .three (by omega) (by omega) (by omega) (by omega) (by omega) (by omega)
  rename_i ha'
  rw [UInt8.lt_iff_toNat_lt] at ha'
  simp only [UInt8.reduceToNat] at ha'
  -- and a fourth
  split at h
  · cases h
  rename_i e rest
  split at h
  · cases h
  rename_i he
  have he := isTail_iff.mp (by simpa using he)
  cases h
  refine ⟨[a, b, d, e], rest, rfl, ?_, rfl⟩
  rw [payload, payload, payload, toNat_ofNat (by omega)]
  exact .four (by omega) (by omega) (by omega) (by omega) (by omega) (by omega)

theorem decode_ne_nil {bytes : List UInt8} (h : bytes ≠ []) : decode bytes ≠ [] := by
  rw [decode.eq_def]
  split
  · exact absurd rfl h
  repeat' split
  all_goals exact List.cons_ne_nil _ _

/-! ## Texts -/

theorem encode_cons (c : Char) (s : List Char) :
    encode (c :: s) = String.utf8EncodeChar c ++ encode s := List.flatMap_cons

theorem decode_encode (s : List Char) : decode (encode s) = s.map some := by
  induction s with
  | nil => rfl
  | cons c s ih =>
    rw [encode_cons, (spelling_encodeChar c).decode_append, ih, Char.ofNat_toNat]
    rfl

theorem encode_of_decode {s : List Char} {bytes : List UInt8} (h : decode bytes = s.map some) :
    encode s = bytes := by
  induction s generalizing bytes with
  | nil =>
    by_contra hne
    exact decode_ne_nil (Ne.symm hne) h
  | cons c s ih =>
    obtain ⟨l, rest, rfl, hl, hrest⟩ := spelling_of_decode h
    rw [encode_cons, (spelling_encodeChar c).unique hl, ih hrest.symm]

theorem mapM_id_eq_some_iff {α : Type} {l : List (Option α)} {s : List α} :
    l.mapM id = some s ↔ l = s.map some := by
  induction l generalizing s with
  | nil =>
    rw [List.mapM_nil, List.nil_eq, List.map_eq_nil_iff]
    exact ⟨fun h => (Option.some.inj h).symm, fun h => by rw [h]; rfl⟩
  | cons a l ih =>
    rw [List.mapM_cons]
    constructor
    · intro h
      obtain ⟨x, hx, h⟩ := Option.bind_eq_some_iff.mp h
      obtain ⟨xs, hxs, h⟩ := Option.bind_eq_some_iff.mp h
      obtain rfl := Option.some.inj h
      rw [List.map_cons, ← ih.mp hxs, ← hx]
      rfl
    · intro h
      cases s with
      | nil => cases h
      | cons x xs =>
        obtain ⟨rfl, hxs⟩ := List.cons.inj h
        rw [ih.mpr hxs]
        rfl

/-- **Bytes read as a text** exactly if they are the text's. -/
theorem toString?_eq_some_iff {bytes : List UInt8} {s : String} :
    toString? bytes = some s ↔ bytes = ofString s := by
  rw [toString?, decode?, Option.map_eq_some_iff, ofString]
  constructor
  · rintro ⟨chars, hchars, rfl⟩
    rw [String.toList_ofList, encode_of_decode (mapM_id_eq_some_iff.mp hchars)]
  · rintro rfl
    exact ⟨s.toList, mapM_id_eq_some_iff.mpr (decode_encode s.toList), String.ofList_toList⟩

/-- Nothing of a text is missing. -/
theorem toStringLossy_ofString (s : String) : toStringLossy (ofString s) = s := by
  rw [toStringLossy, ofString, decode_encode, List.map_map, Function.comp_def]
  simp

/-! ## The order of texts -/

/-- **A greater number has a greater spelling**, whatever follows. -/
theorem Spelling.append_lt {l' : List UInt8} (h : Spelling m l) (h' : Spelling n l') (hlt : m < n)
    (x y : List UInt8) : l ++ x < l' ++ y := by
  cases h <;> cases h' <;> first
    | omega
    | simp only [List.cons_append, List.cons_lt_cons_iff, UInt8.lt_iff_toNat_lt, ← UInt8.toNat_inj]
      omega

theorem encode_lt_encode {s s' : List Char} (h : s < s') : encode s < encode s' := by
  induction s generalizing s' with
  | nil =>
    cases s' with
    | nil => exact absurd h (List.lt_irrefl _)
    | cons d s' =>
      rw [encode_cons]
      cases hd : String.utf8EncodeChar d with
      | nil => exact absurd hd String.utf8EncodeChar_ne_nil
      | cons b bytes => exact List.nil_lt_cons _ _
  | cons c s ih =>
    cases s' with
    | nil => exact absurd h (List.not_lt_nil _)
    | cons d s' =>
      rw [encode_cons, encode_cons]
      rcases List.cons_lt_cons_iff.mp h with hlt | ⟨rfl, hlt⟩
      · exact (spelling_encodeChar c).append_lt (spelling_encodeChar d) hlt _ _
      · exact List.append_left_lt (ih hlt)

/-- **Texts are in the order of their bytes.** -/
theorem ofString_lt_ofString {s s' : String} (h : s < s') : ofString s < ofString s' :=
  encode_lt_encode (String.lt_iff_toList_lt.mp h)

/-! ## Bytes of ASCII -/

/-- Behind what is read first the reading goes on at a later byte. -/
theorem exists_drop_of_decode {bytes : List UInt8} {x : Option Char} {more : List (Option Char)}
    (h : decode bytes = x :: more) : ∃ k, 0 < k ∧ more = decode (bytes.drop k) := by
  rw [decode.eq_def] at h
  split at h
  · cases h
  repeat' split at h
  all_goals obtain ⟨-, rfl⟩ := List.cons.inj h
  -- one byte, or as many as the character has
  all_goals first
    | exact ⟨1, Nat.succ_pos _, rfl⟩
    | exact ⟨2, Nat.succ_pos _, rfl⟩
    | exact ⟨3, Nat.succ_pos _, rfl⟩
    | exact ⟨4, Nat.succ_pos _, rfl⟩

/-- **A character of ASCII is read from its own byte**, be the rest UTF-8 or
not. -/
theorem mem_of_mem_decode {bytes : List UInt8} (hc : c.toNat < 0x80)
    (h : some c ∈ decode bytes) : ∃ b ∈ bytes, b.toNat = c.toNat := by
  induction hn : bytes.length using Nat.strong_induction_on generalizing bytes with
  | _ n ih =>
  cases hread : decode bytes with
  | nil =>
    rw [hread] at h
    cases h
  | cons x more =>
    rw [hread] at h
    rcases List.mem_cons.mp h with rfl | h
    · obtain ⟨l, rest, rfl, hl, -⟩ := spelling_of_decode hread
      cases hl with
      | @one a hlt ha => exact ⟨a, List.mem_cons_self .., ha⟩
      | two | three | four => omega
    · obtain ⟨k, hk, rfl⟩ := exists_drop_of_decode hread
      have hne : bytes ≠ [] := by
        rintro rfl
        cases hread
      have hlength := List.length_pos_of_ne_nil hne
      obtain ⟨b, hb, hbc⟩ := ih _ (by rw [List.length_drop]; omega) h rfl
      exact ⟨b, List.mem_of_mem_drop hb, hbc⟩

theorem mem_of_mem_toStringLossy {bytes : List UInt8} (hc : c.toNat < 0x80)
    (h : c ∈ (toStringLossy bytes).toList) : ∃ b ∈ bytes, b.toNat = c.toNat := by
  rw [toStringLossy, String.toList_ofList, List.mem_map] at h
  obtain ⟨read, hread, rfl⟩ := h
  cases read with
  | none => exact absurd hc (by decide)
  | some d => exact mem_of_mem_decode hc hread

end Utf8

end Text

end ExportAtlas
