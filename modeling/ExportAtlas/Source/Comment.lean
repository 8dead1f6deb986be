/-!
# Comments of a source text

Comments are blanked before anything is read out of a source text, so that
a declaration inside a comment counts for nothing. Blanking keeps the width
of the text: each character of a comment but a newline becomes as many
spaces as it has bytes in UTF-8.

String literals are followed only to leave `"https://…"` alone. A quote of
one of the two straight kinds ends at the end of its line, so that a stray
apostrophe cannot swallow the rest of the text.
-/

namespace ExportAtlas

namespace Source

/-- What a place in a source text lies in. -/
inductive Region where
  /-- Outside comments and strings. -/
  | code
  /-- In a string opened by `quote`. -/
  | string (quote : Char)
  /-- After `//`, up to the end of the line. -/
  | lineComment
  /-- After `/*`, up to the next `*/`. -/
  | blockComment
  deriving DecidableEq, Repr

/-- The template quote, which lets a string run over several lines. -/
def templateQuote : Char := '\x60'

/-- A character that opens a string. -/
def isQuote (c : Char) : Bool := c == '"' || c == '\'' || c == templateQuote

/-- A character ends the string that `quote` opened. -/
def endsString (quote c : Char) : Bool := c == quote || (c == '\n' && quote != templateQuote)

/-- A character of a comment, blanked. -/
def blanked (c : Char) : List Char :=
  if c = '\n' then ['\n'] else List.replicate c.utf8Size ' '

/-- A text with its comments blanked, when its start lies in a region. -/
def blankFrom : Region → List Char → List Char
  | _, [] => []
  | .code, '/' :: '/' :: rest => ' ' :: ' ' :: blankFrom .lineComment rest
  | .code, '/' :: '*' :: rest => ' ' :: ' ' :: blankFrom .blockComment rest
  | .code, c :: rest => c :: blankFrom (if isQuote c then .string c else .code) rest
  | .string quote, '\\' :: c :: rest => '\\' :: c :: blankFrom (.string quote) rest
  | .string quote, c :: rest =>
    c :: blankFrom (if endsString quote c then .code else .string quote) rest
  | .lineComment, c :: rest =>
    if c = '\n' then c :: blankFrom .code rest else blanked c ++ blankFrom .lineComment rest
  | .blockComment, '*' :: '/' :: rest => ' ' :: ' ' :: blankFrom .code rest
  | .blockComment, c :: rest => blanked c ++ blankFrom .blockComment rest

/-- Some comment may open in the text: it holds `//` or `/*`. -/
def mentionsComment : List Char → Bool
  | '/' :: '/' :: _ => true
  | '/' :: '*' :: _ => true
  | _ :: rest => mentionsComment rest
  | [] => false

/-- A source text with its comments blanked. -/
def blankComments (source : List Char) : List Char :=
  if mentionsComment source then blankFrom .code source else source

end Source

end ExportAtlas
