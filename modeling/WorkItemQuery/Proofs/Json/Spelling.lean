import Mathlib.Data.List.Forall2
import WorkItemQuery.Json.Reader
import WorkItemQuery.Text

/-!
# Texts of JSON values

A value has many texts.  Blanks may stand between its parts, and a character of a string may stand
for itself, behind a backslash, or as one or two escapes by its code.  These are the texts of the
JSON grammar, without those that have a lone surrogate, a number that no double holds, or arrays
and objects that nest too deep.
-/

namespace WorkItemQuery
namespace Json

/-- Blanks and nothing else. -/
def IsGap (text : List Char) : Prop := ∀ char ∈ text, isBlank char = true

/-! ## Strings -/

/-- The letters of the short escapes, with the characters that they stand for. -/
def shortEscapes : List (Char × Char) :=
  [('"', '"'), ('\\', '\\'), ('/', '/'), ('b', '\x08'), ('f', '\x0c'), ('n', '\n'), ('r', '\r'),
    ('t', '\t')]

/-- Four hexadecimal digits of a code, in either case. -/
def SpellsCode (code : Nat) (text : List Char) : Prop :=
  ∃ a b c d, text.map hexValue? = [some a, some b, some c, some d] ∧
    code = ((a * 16 + b) * 16 + c) * 16 + d

/-- A character, as it may stand in a string. -/
inductive SpellsChar : Char → List Char → Prop where
  | plain {char : Char} (not_quote : char ≠ '"') (not_backslash : char ≠ '\\')
      (not_control : 0x20 ≤ char.toNat) : SpellsChar char [char]
  | letter {char letter : Char} (mem : (letter, char) ∈ shortEscapes) :
      SpellsChar char ['\\', letter]
  | code {char : Char} {digits : List Char} (spells : SpellsCode char.toNat digits) :
      SpellsChar char ('\\' :: 'u' :: digits)
  /-- A character beyond the first 65536 by the two halves of its code. -/
  | pair {char : Char} {high low : List Char} (beyond : 0x10000 ≤ char.toNat)
      (high_spells : SpellsCode (0xd800 + (char.toNat - 0x10000) / 0x400) high)
      (low_spells : SpellsCode (0xdc00 + (char.toNat - 0x10000) % 0x400) low) :
      SpellsChar char ('\\' :: 'u' :: high ++ '\\' :: 'u' :: low)

/-- A string between its quotes. -/
def SpellsString (value : String) (text : List Char) : Prop :=
  ∃ parts, List.Forall₂ SpellsChar value.toList parts ∧ text = '"' :: parts.flatten ++ ['"']

/-! ## Numbers -/

/-- Digits, and at least one of them. -/
def IsDigits (text : List Char) : Prop := text ≠ [] ∧ ∀ char ∈ text, char.isDigit = true

/-- The whole part of a number, which begins with a zero only if that is all of it. -/
def IsWhole (text : List Char) : Prop := text = ['0'] ∨ IsDigits text ∧ text.head? ≠ some '0'

/-- The digits behind the point of a number, with the point if there is one. -/
def SpellsFraction (digits text : List Char) : Prop :=
  digits = [] ∧ text = [] ∨ IsDigits digits ∧ text = '.' :: digits

/-- The digits of an exponent as a number.  One that is too large by far is cut off. -/
def exponentSize (digits : List Char) : Nat := min (Text.digitsValue digits) (10 * maxExponent)

/-- The exponent of a number, if it has one.  It must not be too large to be kept, unless that
makes no difference. -/
inductive SpellsExponent (isZero : Bool) : Int → List Char → Prop where
  | absent : SpellsExponent isZero 0 []
  | positive {mark : Char} {sign digits : List Char} (is_mark : mark = 'e' ∨ mark = 'E')
      (is_sign : sign = [] ∨ sign = ['+']) (is_digits : IsDigits digits)
      (is_kept : isZero = true ∨ exponentSize digits ≤ maxExponent) :
      SpellsExponent isZero (exponentSize digits) (mark :: sign ++ digits)
  | negative {mark : Char} {digits : List Char} (is_mark : mark = 'e' ∨ mark = 'E')
      (is_digits : IsDigits digits) :
      SpellsExponent isZero (-(exponentSize digits : Int)) (mark :: '-' :: digits)

/-- The text of a number behind its sign, where a double holds the number. -/
inductive IsUnsigned : List Char → Prop where
  | intro {whole fraction pointed exponent : List Char} {size : Int} (is_whole : IsWhole whole)
      (spells_fraction : SpellsFraction fraction pointed)
      (spells_exponent :
        SpellsExponent ((Scaled.ofDigits whole fraction).value == 0) size exponent)
      (in_range : ((Scaled.ofDigits whole fraction).scale size).isOutOfRange = false) :
      IsUnsigned (whole ++ (pointed ++ exponent))

/-- The text of a number that a double holds. -/
def IsNumber (text : List Char) : Prop :=
  IsUnsigned text ∨ ∃ unsigned, IsUnsigned unsigned ∧ text = '-' :: unsigned

/-! ## Values -/

/-- The parts of an array or an object with blanks around them and commas between them. -/
inductive Separated {α : Type} (SpellsPart : α → List Char → Prop) : List α → List Char → Prop where
  | last {part : α} {front text back : List Char} (front_gap : IsGap front)
      (spells : SpellsPart part text) (back_gap : IsGap back) :
      Separated SpellsPart [part] (front ++ (text ++ back))
  | more {part : α} {parts : List α} {front text back rest : List Char} (front_gap : IsGap front)
      (spells : SpellsPart part text) (back_gap : IsGap back)
      (separated : Separated SpellsPart parts rest) :
      Separated SpellsPart (part :: parts) (front ++ (text ++ (back ++ ',' :: rest)))

/-- What stands between the brackets of an array or an object. -/
def SpellsParts {α : Type} (SpellsPart : α → List Char → Prop) (parts : List α)
    (text : List Char) : Prop :=
  parts = [] ∧ IsGap text ∨ Separated SpellsPart parts text

/-- A member of an object, where the texts of its value are known. -/
inductive SpellsMember (SpellsValue : Json → List Char → Prop) :
    String × Json → List Char → Prop where
  | intro {name : String} {value : Json} {nameText back front text : List Char}
      (spells_name : SpellsString name nameText) (back_gap : IsGap back) (front_gap : IsGap front)
      (spells_value : SpellsValue value text) :
      SpellsMember SpellsValue (name, value) (nameText ++ (back ++ ':' :: (front ++ text)))

/-- A value without parts. -/
inductive SpellsScalar : Json → List Char → Prop where
  | null : SpellsScalar .null ['n', 'u', 'l', 'l']
  | true : SpellsScalar (.bool true) ['t', 'r', 'u', 'e']
  | false : SpellsScalar (.bool false) ['f', 'a', 'l', 's', 'e']
  | number {text : String} (is_number : IsNumber text.toList) :
      SpellsScalar (.number text) text.toList
  | string {value : String} {text : List Char} (spells : SpellsString value text) :
      SpellsScalar (.string value) text

/-- An array or an object, where the texts of the values in it are known. -/
inductive SpellsNested (SpellsValue : Json → List Char → Prop) : Json → List Char → Prop where
  | array {items : List Json} {text : List Char} (spells : SpellsParts SpellsValue items text) :
      SpellsNested SpellsValue (.array items) ('[' :: text ++ [']'])
  | object {members : List (String × Json)} {text : List Char}
      (spells : SpellsParts (SpellsMember SpellsValue) members text) :
      SpellsNested SpellsValue (.object members) ('\x7b' :: text ++ ['\x7d'])

/-- A value that nests arrays and objects up to a depth. -/
def Spells : Nat → Json → List Char → Prop
  | 0 => SpellsScalar
  | depth + 1 => fun value text => SpellsScalar value text ∨ SpellsNested (Spells depth) value text

/-- A text of a value, with blanks around it. -/
def IsText (value : Json) (text : String) : Prop :=
  ∃ front body back, IsGap front ∧ Spells maxDepth value body ∧ IsGap back ∧
    text.toList = front ++ (body ++ back)

end Json
end WorkItemQuery
