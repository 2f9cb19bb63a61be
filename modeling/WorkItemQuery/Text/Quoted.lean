import WorkItemQuery.Text.Printable

/-!
# Quoted text

A text between double quotes.  Quotes, backslashes and the common control characters are written
with a backslash before a letter; other characters that do not show by themselves are written by
their code point.
-/

namespace WorkItemQuery
namespace Text

/-- The lower-case hexadecimal digits of a number. -/
def hexDigits (value : Nat) : List Char := Nat.toDigits 16 value

/-- A character inside quotes. -/
def quoteChar (char : Char) : List Char :=
  match char with
  | '"' => ['\\', '"']
  | '\\' => ['\\', '\\']
  | '\t' => ['\\', 't']
  | '\r' => ['\\', 'r']
  | '\n' => ['\\', 'n']
  | '\x00' => ['\\', '0']
  | _ =>
    if isPrintable char then [char]
    else ['\\', 'u', '\x7b'] ++ hexDigits char.toNat ++ ['\x7d']

/-- A text between double quotes. -/
def quoted (text : String) : String :=
  .ofList ('"' :: text.toList.flatMap quoteChar ++ ['"'])

end Text
end WorkItemQuery
