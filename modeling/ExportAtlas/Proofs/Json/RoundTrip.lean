import Mathlib.Data.List.Nodup
import ExportAtlas.Json.Printer
import ExportAtlas.Json.Reader
/-!
# Printed values are read back

A value of strings and containers is printed over several lines and read token
by token. The reader's states behind a text are taken as a function of the
state in front of it (`readFrom`), so that each printed piece is passed by one
lemma, and a whole value by induction on it (`Legible.reads`).
Reading then undoes printing (`Legible.read?_print`), provided that no object
has a name twice and nothing is nested too deep.
-/

namespace ExportAtlas

namespace Json

variable {state : List Frame × Awaited} {stack : List Frame} {s rest : List Char} {c : Char}
  {t : Token} {j : Json} {depth level level' : Nat}

/-! ## Characters of a string -/

theorem codeUnit?_of_lt (h : c.toNat < 0x20) :
    codeUnit? '0' '0' (hexDigit (c.toNat / 16)) (hexDigit (c.toNat % 16)) = some c.toNat := by
  have hall : ∀ n < 0x20, codeUnit? '0' '0' (hexDigit (n / 16)) (hexDigit (n % 16)) = some n := by
    decide
  exact hall _ h

/-- **A character that is shown in a string is read as itself.** -/
theorem tokensFrom_escape (run : List Char) (c : Char) (s : List Char) :
    tokensFrom (.quoted run) (escape c ++ s) = tokensFrom (.quoted (c :: run)) s := by
  rw [escape.eq_def]
  split
  case h_8 _ hquote hslash _ _ _ _ _ =>
    split
    · rename_i hcontrol
      have hhigh : isHighSurrogate c.toNat = false := by
        simp only [isHighSurrogate, Bool.and_eq_false_iff, decide_eq_false_iff_not]
        omega
      have hlow : isLowSurrogate c.toNat = false := by
        simp only [isLowSurrogate, Bool.and_eq_false_iff, decide_eq_false_iff_not]
        omega
      simp [tokensFrom, codeUnit?_of_lt hcontrol, hhigh, hlow]
    · rename_i hcontrol
      rw [List.singleton_append, tokensFrom]
      · rw [if_neg fun h => h.elim hslash hcontrol]
      · exact hquote
      · exact fun _ _ _ _ _ heq => absurd heq hslash
      · exact fun _ _ heq => absurd heq hslash
  all_goals simp [tokensFrom, escaped?]

/-- The characters of a string are read up to the quote behind them. -/
theorem tokensFrom_escaped (run s rest : List Char) :
    tokensFrom (.quoted run) (s.flatMap escape ++ '"' :: rest) =
      (tokensFrom .between rest).map (.string (String.ofList (run.reverse ++ s)) :: ·) := by
  induction s generalizing run with
  | nil => rw [List.flatMap_nil, List.nil_append, tokensFrom, List.append_nil]
  | cons c s ih =>
    rw [List.flatMap_cons, List.append_assoc, tokensFrom_escape, ih, List.reverse_cons,
      List.append_assoc, List.singleton_append]

theorem toList_quote (text : String) :
    (quote text).toList = '"' :: text.toList.flatMap escape ++ ['"'] := by
  simp [quote]

/-! ## Pieces of a text -/

/-- The state of the reader behind a text, from a state between two tokens on. -/
def readFrom (state : List Frame × Awaited) (s : List Char) : Option (List Frame × Awaited) :=
  (tokensFrom .between s).bind fun tokens => tokens.foldlM step state

theorem readFrom_nil : readFrom state [] = some state := rfl

/-- Blanks change nothing. -/
theorem readFrom_blanks {blanks : List Char} (h : ∀ c ∈ blanks, isSpace c = true) :
    readFrom state (blanks ++ s) = readFrom state s := by
  induction blanks with
  | nil => rfl
  | cons c blanks ih =>
    rw [List.forall_mem_cons] at h
    rw [List.cons_append, readFrom, tokensFrom, if_pos h.1]
    exact ih h.2

/-- A token at the front is one step. -/
theorem readFrom_of_token
    (h : tokensFrom .between s = (tokensFrom .between rest).map (t :: ·)) :
    readFrom state s = (step state t).bind fun state => readFrom state rest := by
  simp only [readFrom, h]
  cases tokensFrom .between rest with
  | none => cases step state t <;> rfl
  | some tokens => rfl

theorem readFrom_punctuation (hc : punctuation? c = some t) :
    readFrom state (c :: s) = (step state t).bind fun state => readFrom state s := by
  have hspace : isSpace c = false ∧ c ≠ '"' := by
    rw [punctuation?.eq_def] at hc
    split at hc
    case h_7 => cases hc
    all_goals decide
  refine readFrom_of_token ?_
  rw [tokensFrom, hspace.1, if_neg hspace.2, hc]
  rfl

theorem readFrom_quote (text : String) :
    readFrom state ((quote text).toList ++ s) =
      (step state (.string text)).bind fun state => readFrom state s := by
  refine readFrom_of_token ?_
  have hquoted := tokensFrom_escaped [] text.toList s
  rw [List.reverse_nil, List.nil_append, String.ofList_toList] at hquoted
  rw [toList_quote, List.append_assoc, List.singleton_append, List.cons_append, ← hquoted]
  rfl

/-! ## Containers -/

theorem printItems_eq_map (items : List Json) :
    printItems level items = items.map (printAt level) := by
  induction items with
  | nil => rfl
  | cons item items ih => rw [printItems, ih, List.map_cons]

theorem printMembers_eq_map (members : List (String × Json)) :
    printMembers level members = members.map fun m => quote m.1 ++ ": " ++ printAt level m.2 := by
  induction members with
  | nil => rfl
  | cons m members ih => rw [printMembers, ih, List.map_cons]

theorem isSpace_space : ∀ c ∈ [' '], isSpace c = true := List.forall_mem_singleton.mpr rfl

theorem isSpace_newline : ∀ c ∈ ['\n'], isSpace c = true := List.forall_mem_singleton.mpr rfl

theorem isSpace_indent : ∀ c ∈ (indent level).toList, isSpace c = true := by
  intro c hc
  rw [indent, String.toList_ofList] at hc
  rw [List.eq_of_mem_replicate hc]
  rfl

/-- What stands in front of the bracket that closes a container. -/
def closingBlanks (level : Nat) : List Char := '\n' :: (indent level).toList

theorem isSpace_closingBlanks : ∀ c ∈ closingBlanks level, isSpace c = true :=
  List.forall_mem_cons.mpr ⟨rfl, isSpace_indent⟩

/-- The parts of a container with commas between them, each on its own line. -/
def partLines (level : Nat) (parts : List String) : List Char :=
  ",\n".toList.intercalate (parts.map fun part => (indent level).toList ++ part.toList)

theorem partLines_singleton (part : String) :
    partLines level [part] = (indent level).toList ++ part.toList := by
  simp [partLines]

theorem partLines_cons_cons (part part' : String) (parts : List String) :
    partLines level (part :: part' :: parts) = (indent level).toList ++
      (part.toList ++ (',' :: ['\n'] ++ partLines level (part' :: parts))) := by
  simp [partLines, List.intercalate_cons_cons]

/-- A container with parts: its bracket, the lines of its parts, and the other
bracket on a line of its own. -/
theorem toList_bracketed (opening closing : String) {parts : List String} (h : parts ≠ []) :
    (bracketed opening closing level parts).toList = opening.toList ++
      (['\n'] ++ (partLines (level + 1) parts ++ (closingBlanks level ++ closing.toList))) := by
  rw [bracketed, if_neg (by simpa using h)]
  simp [partLines, closingBlanks, Function.comp_def]

/-- The reader passes a printed value, at any place that leaves room for its
containers. -/
def Reads (depth : Nat) (j : Json) : Prop :=
  ∀ (stack : List Frame) (mayClose : Bool) (level : Nat) (rest : List Char),
    stack.length + depth ≤ maxDepth →
      readFrom (stack, .value mayClose) ((printAt level j).toList ++ rest) =
        readFrom (stack, .after j) rest

/-- The items of an array are read one after the other, up to the bracket. -/
theorem readFrom_items {item : Json} {items : List Json}
    (hread : ∀ i ∈ item :: items, Reads depth i)
    (hstack : stack.length + 1 + depth ≤ maxDepth) (before : List Json) (mayClose : Bool) :
    readFrom (.array before :: stack, .value mayClose)
        (partLines level ((item :: items).map (printAt level)) ++
          (closingBlanks level' ++ ']' :: rest)) =
      readFrom (stack, .after (.array (before.reverse ++ item :: items))) rest := by
  induction items generalizing item before mayClose with
  | nil =>
    rw [List.map_singleton, partLines_singleton, List.append_assoc, readFrom_blanks isSpace_indent,
      hread item List.mem_cons_self (.array before :: stack) _ _ _ hstack,
      readFrom_blanks isSpace_closingBlanks, readFrom_punctuation rfl]
    simp [step]
  | cons next items ih =>
    rw [List.forall_mem_cons] at hread
    have hcomma : step (.array before :: stack, .after item) .comma =
      some (.array (item :: before) :: stack, .value false) := rfl
    have hnext := ih hread.2 (item :: before) false
    rw [List.reverse_cons, List.append_assoc, List.singleton_append, List.map_cons] at hnext
    rw [List.map_cons, List.map_cons, partLines_cons_cons, List.append_assoc,
      readFrom_blanks isSpace_indent, List.append_assoc,
      hread.1 (.array before :: stack) _ _ _ hstack, List.append_assoc, List.cons_append,
      readFrom_punctuation rfl, hcomma, Option.bind_some, readFrom_blanks isSpace_newline, hnext]

/-- Members whose names differ are put behind each other. -/
theorem put_of_nodup {before members : List (String × Json)} {m : String × Json}
    (h : ((before ++ m :: members).map Prod.fst).Nodup) :
    KeyedList.put m.1 m.2 before = before ++ [m] := by
  induction before with
  | nil => rfl
  | cons other before ih =>
    rw [List.cons_append, List.map_cons, List.nodup_cons] at h
    have hother : other.1 ≠ m.1 := fun heq => h.1 (by simp [heq])
    rw [KeyedList.put, if_neg hother, ih h.2, List.cons_append]

/-- The name of a member is read, and then its value. -/
theorem readFrom_member {m : String × Json} {frame : Frame} (hread : Reads depth m.2)
    (hstack : stack.length + 1 + depth ≤ maxDepth) (before : List (String × Json))
    (mayClose : Bool) :
    readFrom (frame :: stack, .name before mayClose) ((indent level).toList ++
        ((quote m.1 ++ ": " ++ printAt level m.2).toList ++ rest)) =
      readFrom (.object before m.1 :: stack, .after m.2) rest := by
  have hname : step (frame :: stack, .name before mayClose) (.string m.1) =
    some (frame :: stack, .colon before m.1) := by simp [step]
  have hcolon : step (frame :: stack, .colon before m.1) .colon =
    some (.object before m.1 :: stack, .value false) := by simp [step]
  have htext : (quote m.1 ++ ": " ++ printAt level m.2).toList ++ rest =
      (quote m.1).toList ++ (':' :: ([' '] ++ ((printAt level m.2).toList ++ rest))) := by
    simp
  rw [readFrom_blanks isSpace_indent, htext, readFrom_quote, hname, Option.bind_some,
    readFrom_punctuation rfl, hcolon, Option.bind_some, readFrom_blanks isSpace_space,
    hread (.object before m.1 :: stack) _ _ _ hstack]

/-- The members of an object are read one after the other, up to the bracket. -/
theorem readFrom_members {m : String × Json} {members : List (String × Json)} {frame : Frame}
    (hread : ∀ m' ∈ m :: members, Reads depth m'.2)
    (hstack : stack.length + 1 + depth ≤ maxDepth) (before : List (String × Json))
    (hnames : ((before ++ m :: members).map Prod.fst).Nodup) (mayClose : Bool) :
    readFrom (frame :: stack, .name before mayClose)
        (partLines level ((m :: members).map fun m => quote m.1 ++ ": " ++ printAt level m.2) ++
          (closingBlanks level' ++ '\x7d' :: rest)) =
      readFrom (stack, .after (.object (before ++ m :: members))) rest := by
  induction members generalizing m before frame mayClose with
  | nil =>
    have hclose : step (.object before m.1 :: stack, .after m.2) .closeObject =
      some (stack, .after (.object (KeyedList.put m.1 m.2 before))) := rfl
    rw [List.map_singleton, partLines_singleton, List.append_assoc,
      readFrom_member (hread m List.mem_cons_self) hstack, readFrom_blanks isSpace_closingBlanks,
      readFrom_punctuation rfl, hclose, Option.bind_some, put_of_nodup hnames]
  | cons next members ih =>
    rw [List.forall_mem_cons] at hread
    have hcomma : step (.object before m.1 :: stack, .after m.2) .comma =
      some (.object before m.1 :: stack, .name (KeyedList.put m.1 m.2 before) false) := rfl
    have hnext : readFrom (.object before m.1 :: stack, .name (before ++ [m]) false) _ =
        readFrom (stack, _) rest :=
      ih hread.2 (before ++ [m]) (by rwa [List.append_assoc]) false
    rw [List.append_assoc, List.singleton_append, List.map_cons] at hnext
    rw [List.map_cons, List.map_cons, partLines_cons_cons, List.append_assoc, List.append_assoc,
      readFrom_member hread.1 hstack, List.append_assoc, List.cons_append,
      readFrom_punctuation rfl, hcomma, Option.bind_some, put_of_nodup hnames,
      readFrom_blanks isSpace_newline, hnext]

/-! ## Whole values -/

/-- A value of strings and containers, with so many levels of containers at
most, in which no object has a name twice. -/
inductive Legible : (depth : Nat) → Json → Prop where
  | string (depth : Nat) (text : String) : Legible depth (.string text)
  | array {depth : Nat} {items : List Json} (hitems : ∀ item ∈ items, Legible depth item) :
    Legible (depth + 1) (.array items)
  | object {depth : Nat} {members : List (String × Json)}
    (hmembers : ∀ m ∈ members, Legible depth m.2) (hnames : (members.map Prod.fst).Nodup) :
    Legible (depth + 1) (.object members)

/-- **The reader passes a printed value** as it was before printing. -/
theorem Legible.reads (h : Legible depth j) : Reads depth j := by
  induction h with
  | string depth text =>
    intro stack mayClose level rest _
    rw [printAt, readFrom_quote]
    rfl
  | array hitems ih =>
    rename_i depth items
    intro stack mayClose level rest hstack
    have hroom : stack.length < maxDepth := by omega
    have hopen : step (stack, .value mayClose) .openArray =
        some (.array [] :: stack, .value true) := by
      simp [step, hroom]
    rw [printAt, printItems_eq_map]
    cases items with
    | nil =>
      have htext : (bracketed "[" "]" level []).toList = ['[', ']'] := by simp [bracketed]
      rw [List.map_nil, htext, List.cons_append, readFrom_punctuation rfl, hopen,
        Option.bind_some, List.cons_append, readFrom_punctuation rfl]
      rfl
    | cons item items =>
      have htext : (bracketed "[" "]" level ((item :: items).map (printAt (level + 1)))).toList ++
          rest = '[' :: (['\n'] ++
            (partLines (level + 1) ((item :: items).map (printAt (level + 1))) ++
              (closingBlanks level ++ ']' :: rest))) := by
        rw [toList_bracketed _ _ (by simp)]
        simp
      have hdepth : stack.length + 1 + depth ≤ maxDepth := by omega
      rw [htext, readFrom_punctuation rfl, hopen, Option.bind_some, readFrom_blanks isSpace_newline,
        readFrom_items ih hdepth [] true]
      rfl
  | object hmembers hnames ih =>
    rename_i depth members
    intro stack mayClose level rest hstack
    have hroom : stack.length < maxDepth := by omega
    have hopen : step (stack, .value mayClose) .openObject =
        some (.object [] "" :: stack, .name [] true) := by
      simp [step, hroom]
    rw [printAt, printMembers_eq_map]
    cases members with
    | nil =>
      have htext : (bracketed "\x7b" "\x7d" level []).toList = ['\x7b', '\x7d'] := by
        simp [bracketed]
      rw [List.map_nil, htext, List.cons_append, readFrom_punctuation rfl, hopen,
        Option.bind_some, List.cons_append, readFrom_punctuation rfl]
      rfl
    | cons m members =>
      have htext : (bracketed "\x7b" "\x7d" level ((m :: members).map fun m =>
          quote m.1 ++ ": " ++ printAt (level + 1) m.2)).toList ++ rest =
          '\x7b' :: (['\n'] ++ (partLines (level + 1) ((m :: members).map fun m =>
            quote m.1 ++ ": " ++ printAt (level + 1) m.2) ++
              (closingBlanks level ++ '\x7d' :: rest))) := by
        rw [toList_bracketed _ _ (by simp)]
        simp
      have hdepth : stack.length + 1 + depth ≤ maxDepth := by omega
      rw [htext, readFrom_punctuation rfl, hopen, Option.bind_some, readFrom_blanks isSpace_newline,
        readFrom_members ih hdepth [] hnames true]
      rfl

/-- **Reading undoes printing**, whatever blanks follow the value. -/
theorem Legible.read?_print (h : Legible depth j) (hdepth : depth ≤ maxDepth) {blanks : String}
    (hblanks : ∀ c ∈ blanks.toList, isSpace c = true) : read? (j.print ++ blanks) = some j := by
  have hpassed := h.reads [] false 0 blanks.toList (by simpa using hdepth)
  have hend : readFrom ([], .after j) blanks.toList = some ([], .after j) := by
    rw [← List.append_nil blanks.toList, readFrom_blanks hblanks, readFrom_nil]
  rw [hend, readFrom] at hpassed
  obtain ⟨tokens, htokens, hsteps⟩ := Option.bind_eq_some_iff.mp hpassed
  rw [read?, print, String.toList_append, tokens?, htokens, Option.bind_some, ofTokens?, hsteps]

end Json

end ExportAtlas
