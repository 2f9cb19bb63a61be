/-!
# Characters and numbers in texts

Classes of characters are given by tables of code points.  A text may have blanks at its ends, and
it may write a whole number in decimal.
-/

namespace WorkItemQuery
namespace Text

/-! ## Classes of characters -/

/-- The character lies in one of the stretches of a table, each with its first and its last code
point. -/
def inRanges (table : List (Nat × Nat)) (char : Char) : Bool :=
  table.any fun range => range.1 ≤ char.toNat && char.toNat ≤ range.2

/-- A character that Unicode calls white space. -/
def isBlank (char : Char) : Bool :=
  let code := char.toNat
  (9 ≤ code && code ≤ 13) || code == 0x20 || code == 0x85 || code == 0xa0 || code == 0x1680 ||
    (0x2000 ≤ code && code ≤ 0x200a) || code == 0x2028 || code == 0x2029 || code == 0x202f ||
    code == 0x205f || code == 0x3000

/-- The text without the blanks at its ends. -/
def trim (text : List Char) : List Char :=
  ((text.dropWhile isBlank).reverse.dropWhile isBlank).reverse

/-- The text has no other characters than blanks. -/
def allBlank (text : List Char) : Bool := text.all isBlank

/-! ## Whole numbers -/

/-- The value of a list of decimal digits, the highest first. -/
def digitsValue (digits : List Char) : Nat :=
  digits.foldl (fun value digit => 10 * value + (digit.toNat - '0'.toNat)) 0

/-- The value of a list of decimal digits, if there is at least one and there is nothing else. -/
def nat? (text : List Char) : Option Nat :=
  if text.isEmpty || !text.all Char.isDigit then none else some (digitsValue text)

/-- The number lies in the range of signed numbers of 64 bits. -/
def fits64 (value : Int) : Bool := -9223372036854775808 ≤ value && value < 9223372036854775808

/-- The number that a text writes with at most one sign, if it fits into 64 bits. -/
def int64? (text : List Char) : Option Int := do
  let value ← match text with
    | '-' :: digits => (nat? digits).map fun value => -(value : Int)
    | '+' :: digits => (nat? digits).map Int.ofNat
    | digits => (nat? digits).map Int.ofNat
  if fits64 value then some value else none

end Text
end WorkItemQuery
