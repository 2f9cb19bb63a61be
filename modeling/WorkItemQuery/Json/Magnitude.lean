/-!
# The size of numbers

A number is kept as a double.  Its digits count as long as they fit into 64 bits.  Both they and
the power of ten that scales them are rounded to a double before they are multiplied, and the
product is rounded again; a number whose product has no double is out of range.
-/

namespace WorkItemQuery
namespace Json

/-- A whole number scaled by a power of ten. -/
structure Scaled where
  /-- The whole number. -/
  value : Nat
  /-- The power of ten. -/
  exponent : Int
deriving DecidableEq, Repr

namespace Scaled

/-- Appends digits to a whole number as long as it fits into 64 bits.  The second answer counts the
digits that are left. -/
def append (value : Nat) : List Char → Nat × Nat
  | [] => (value, 0)
  | digit :: more =>
    let next := 10 * value + (digit.toNat - '0'.toNat)
    if next < 1 <<< 64 then append next more else (value, more.length + 1)

/-- The number with the given digits before its point and behind it. -/
def ofDigits (whole fraction : List Char) : Scaled :=
  let (value, dropped) := append 0 whole
  let (value, ignored) := append value fraction
  ⟨value, dropped - (fraction.length - ignored : Nat)⟩

/-- The number, scaled by another power of ten. -/
def scale (number : Scaled) (exponent : Int) : Scaled :=
  { number with exponent := number.exponent + exponent }

/-- A whole number to 53 binary digits, and to an even last one where two are equally near. -/
def round (value : Nat) : Nat :=
  let unit := 1 <<< (value.log2 - 52)
  let kept := value / unit
  let rest := value % unit
  if unit < 2 * rest ∨ (unit = 2 * rest ∧ kept % 2 = 1) then (kept + 1) * unit else kept * unit

/-- The largest power of ten that a double holds. -/
def maxPower : Nat := 308

/-- No double holds the number. -/
def isOutOfRange (number : Scaled) : Bool :=
  if number.value = 0 ∨ number.exponent < 0 then false
  else if maxPower < number.exponent then true
  else 1 <<< 1024 ≤ round (round number.value * round (Nat.pow 10 number.exponent.toNat))

end Scaled
end Json
end WorkItemQuery
