import Mathlib.Data.List.Basic
import ExportAtlas.Source.Extract
import ExportAtlas.Proofs.Source.Characters
/-!
# Statements as they are written

The documented forms of an export, each on a line of its own, with the
symbols that each declares. A program is a list of statements, of which at
most one assigns an object literal to `module.exports`.

Every statement is its opening words, then a name, then what closes it
(`Statement.text`). The names are free but for the words that the forms
themselves set apart.
-/

namespace ExportAtlas

namespace Source

/-! ## The parts of a statement -/

/-- A name in ASCII that is no reserved word. -/
structure Identifier where
  chars : List Char
  isPlain : CommonJs.isPlainName chars = true
  notReserved : String.ofList chars ∉ reservedWords

/-- The name as a string. -/
def Identifier.name (n : Identifier) : String := String.ofList n.chars

/-- A decimal integer. -/
structure Numeral where
  negative : Bool
  digits : List Char
  digits_ne_nil : digits ≠ []
  isDigit : ∀ c ∈ digits, c.isDigit = true

/-- An integer as it is written. -/
def Numeral.chars (d : Numeral) : List Char :=
  if d.negative then '-' :: d.digits else d.digits

/-- A value as a statement assigns it. -/
inductive Value where
  /-- `() => {}` -/
  | arrow
  /-- `async () => {}` -/
  | asyncArrow
  /-- `function () {}` -/
  | functionExpression
  /-- `x => x` -/
  | bareArrow
  /-- A decimal integer. -/
  | number (d : Numeral)

namespace Value

/-- The value as it is written. -/
def text : Value → List Char
  | arrow => "() => {}".toList
  | asyncArrow => "async () => {}".toList
  | functionExpression => "function () {}".toList
  | bareArrow => "x => x".toList
  | number d => d.chars

/-- Every value but an integer is a function. -/
def isFunction : Value → Bool
  | number _ => false
  | _ => true

end Value

/-- The keys of an object literal after the first. -/
def furtherKeys (ks : List Identifier) : List Char := ks.flatMap fun k => ", ".toList ++ k.chars

theorem furtherKeys_cons (k : Identifier) (ks : List Identifier) :
    furtherKeys (k :: ks) = ", ".toList ++ (k.chars ++ furtherKeys ks) := List.append_assoc ..

/-! ## Statements -/

/-- A statement in one of the documented forms. -/
inductive Statement where
  /-- `export function N() {}`, perhaps `async`. -/
  | function (isAsync : Bool) (n : Identifier)
  /-- `export const N = V;`, perhaps with a type `: T`. -/
  | constant (n : Identifier) (type? : Option Identifier) (value : Value)
  /-- `export type N = string;` -/
  | type (n : Identifier)
  /-- `export interface N {}` -/
  | interface (n : Identifier)
  /-- `export class N {}` -/
  | classDef (n : Identifier)
  /-- `export abstract class N {}` -/
  | abstractClass (n : Identifier)
  /-- `export default class N {}` -/
  | defaultClass (n : Identifier)
  /-- `export default function N() {}` -/
  | defaultFunction (n : Identifier)
  /-- `exports.N = V;`, or `module.exports.N = V;` -/
  | member (viaModule : Bool) (n : Identifier) (value : Value)
  /-- `module.exports = { K, …, L };` -/
  | object (first : Identifier) (others : List Identifier)
  /-- `module.exports = N;` -/
  | wholeModule (n : Identifier)
  /-- `mongoose.model("N", s);` -/
  | model (n : Identifier)

namespace Statement

/-- The opening words, up to the first name. -/
def opening : Statement → List Char
  | function false _ => "export function ".toList
  | function true _ => "export async function ".toList
  | constant _ _ _ => "export const ".toList
  | type _ => "export type ".toList
  | interface _ => "export interface ".toList
  | classDef _ => "export class ".toList
  | abstractClass _ => "export abstract class ".toList
  | defaultClass _ => "export default class ".toList
  | defaultFunction _ => "export default function ".toList
  | member false _ _ => "exports.".toList
  | member true _ _ => "module.exports.".toList
  | object _ _ => "module.exports = \x7b ".toList
  | wholeModule _ => "module.exports = ".toList
  | model _ => "mongoose.model(\"".toList

/-- The first name; only an object literal has more than one. -/
def subject : Statement → Identifier
  | function _ n | constant n _ _ | type n | interface n | classDef n | abstractClass n
  | defaultClass n | defaultFunction n | member _ n _ | object n _ | wholeModule n | model n => n

/-- What follows the first name, with the newline that ends the line. -/
def closing : Statement → List Char
  | function _ _ | defaultFunction _ => "() {}\n".toList
  | constant _ none v => " = ".toList ++ (v.text ++ ";\n".toList)
  | constant _ (some t) v => ": ".toList ++ (t.chars ++ (" = ".toList ++ (v.text ++ ";\n".toList)))
  | type _ => " = string;\n".toList
  | interface _ | classDef _ | abstractClass _ | defaultClass _ => " {}\n".toList
  | member _ _ v => " = ".toList ++ (v.text ++ ";\n".toList)
  | object _ others => furtherKeys others ++ " \x7d;\n".toList
  | wholeModule _ => ";\n".toList
  | model _ => "\", s);\n".toList

/-- The line that the statement is. -/
def text (st : Statement) : List Char := st.opening ++ (st.subject.chars ++ st.closing)

/-- The statement assigns an object literal to `module.exports`. -/
def isObject : Statement → Bool
  | object _ _ => true
  | _ => false

/-- The symbols that the statement declares, with the parts they play. A
member that is no function counts if its name reads like a constant. -/
def declares : Statement → List (Role × String)
  | function _ n => [(.function, n.name)]
  | constant n _ v => [(if v.isFunction then .function else .constant, n.name)]
  | type n => [(.type, n.name)]
  | interface n => [(.interface, n.name)]
  | classDef n | abstractClass n | model n => [(.classDef, n.name)]
  | defaultClass n => [(.classDef, n.name), (.defaultExport, n.name)]
  | defaultFunction n => [(.defaultExport, n.name)]
  | member _ n v =>
    if v.isFunction then [(.function, n.name)]
    else if CommonJs.isConstantName n.chars then [(.constant, n.name)]
    else []
  | object first others => (first :: others).map fun k => (.function, k.name)
  | wholeModule n => [(.wholeModule, n.name)]

end Statement

/-- A list of statements, of which at most one is an object literal. -/
structure Program where
  statements : List Statement
  oneObject : (statements.filter Statement.isObject).length ≤ 1

/-- The text of statements, line after line. -/
def textOf (statements : List Statement) : List Char := statements.flatMap Statement.text

/-- The text of a program. -/
def Program.text (p : Program) : List Char := textOf p.statements

/-! ## The characters of names and integers -/

section PlainName

variable {m : List Char}

/-- A name has a first character, which may begin a name. -/
theorem exists_cons_of_isPlainName (h : CommonJs.isPlainName m = true) :
    ∃ c s, m = c :: s ∧ isNameStart c = true := by
  cases m with
  | nil => cases h
  | cons c s =>
    simp only [CommonJs.isPlainName, Bool.and_eq_true] at h
    exact ⟨c, s, rfl, h.1⟩

theorem isPlainPart_of_isPlainName (h : CommonJs.isPlainName m = true) :
    ∀ c ∈ m, isPlainPart c = true := by
  cases m with
  | nil => cases h
  | cons d s =>
    simp only [CommonJs.isPlainName, Bool.and_eq_true, List.all_eq_true] at h
    intro c hc
    rcases List.mem_cons.mp hc with rfl | hmem
    · exact isPlainPart_of_isNameStart h.1
    · exact h.2 c hmem

end PlainName

namespace Identifier

variable (n : Identifier)

theorem exists_cons : ∃ c s, n.chars = c :: s ∧ isNameStart c = true :=
  exists_cons_of_isPlainName n.isPlain

theorem isPlainPart_of_mem {c : Char} (h : c ∈ n.chars) : isPlainPart c = true :=
  isPlainPart_of_isPlainName n.isPlain c h

end Identifier

/-- The characters of an integer are digits and the sign. -/
theorem Numeral.isDigit_or_sign (d : Numeral) {c : Char} (h : c ∈ d.chars) :
    c.isDigit = true ∨ c = '-' := by
  unfold Numeral.chars at h
  split at h
  · rcases List.mem_cons.mp h with rfl | hmem
    · exact .inr rfl
    · exact .inl (d.isDigit c hmem)
  · exact .inl (d.isDigit c h)

theorem Numeral.exists_cons (d : Numeral) : ∃ c s, d.chars = c :: s := by
  unfold Numeral.chars
  split
  · exact ⟨'-', d.digits, rfl⟩
  · exact List.exists_cons_of_ne_nil d.digits_ne_nil

end Source

end ExportAtlas
