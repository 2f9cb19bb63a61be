import WorkItemQuery.Json
import WorkItemQuery.Json.Magnitude

/-!
# Reading JSON

Reading is strict: it takes the grammar of JSON and nothing else, numbers that a double can hold,
and nesting below a fixed depth.  A failure names what is wrong and the line and column, in bytes,
at which reading stopped.
-/

namespace WorkItemQuery
namespace Json

/-- What is wrong with a text. -/
inductive Flaw where
  | endInList
  | endInObject
  | endInString
  | endInValue
  | expectedColon
  | expectedListEnd
  | expectedObjectEnd
  | expectedWord
  | expectedValue
  | invalidEscape
  | invalidNumber
  | numberOutOfRange
  | controlCharacter
  | nameNotString
  | loneSurrogate
  | trailingComma
  | trailingCharacters
  | unfinishedEscape
  | tooDeep
deriving DecidableEq, Repr

namespace Flaw

/-- A flaw in words. -/
def message : Flaw → String
  | .endInList => "EOF while parsing a list"
  | .endInObject => "EOF while parsing an object"
  | .endInString => "EOF while parsing a string"
  | .endInValue => "EOF while parsing a value"
  | .expectedColon => "expected `:`"
  | .expectedListEnd => "expected `,` or `]`"
  | .expectedObjectEnd => "expected `,` or `\x7d`"
  | .expectedWord => "expected ident"
  | .expectedValue => "expected value"
  | .invalidEscape => "invalid escape"
  | .invalidNumber => "invalid number"
  | .numberOutOfRange => "number out of range"
  | .controlCharacter =>
    "control character (\\u0000-\\u001F) found while parsing a string"
  | .nameNotString => "key must be a string"
  | .loneSurrogate => "lone leading surrogate in hex escape"
  | .trailingComma => "trailing comma"
  | .trailingCharacters => "trailing characters"
  | .unfinishedEscape => "unexpected end of hex escape"
  | .tooDeep => "recursion limit exceeded"

/-- The text ended too early. -/
def isEnd : Flaw → Bool
  | .endInList | .endInObject | .endInString | .endInValue => true
  | _ => false

end Flaw

/-- A flaw, with the number of bytes behind the place where reading stopped. -/
structure Failure where
  /-- What is wrong. -/
  flaw : Flaw
  /-- The bytes that are left. -/
  left : Nat
deriving DecidableEq, Repr

/-- The number of bytes of a text. -/
def byteCount (text : List Char) : Nat := (text.map Char.utf8Size).foldl (· + ·) 0

/-- Stops before a text. -/
def stopBefore {α : Type} (flaw : Flaw) (text : List Char) : Except Failure α :=
  .error ⟨flaw, byteCount text⟩

/-- Stops behind the first byte of a text, or at the end. -/
def stopInside {α : Type} (flaw : Flaw) (text : List Char) : Except Failure α :=
  .error ⟨flaw, byteCount text - 1⟩

/-- The line and the column that a number of bytes leads to, from a line and a column on. -/
def locateFrom (line column : Nat) : Nat → List Char → Nat × Nat
  | _, [] => (line, column)
  | bytes, char :: text =>
    if bytes < char.utf8Size then (line, column + bytes)
    else if char = '\n' then locateFrom (line + 1) 0 (bytes - char.utf8Size) text
    else locateFrom line (column + char.utf8Size) (bytes - char.utf8Size) text

/-- The line, counted from one, and the bytes on it before the place of a failure. -/
def Failure.locate (failure : Failure) (text : List Char) : Nat × Nat :=
  locateFrom 1 0 (byteCount text - failure.left) text

/-- A failure in words. -/
def Failure.message (failure : Failure) (text : List Char) : String :=
  let (line, column) := failure.locate text
  failure.flaw.message ++ " at line " ++ toString line ++ " column " ++ toString column

/-- A blank between the parts of a value. -/
def isBlank (char : Char) : Bool := char == ' ' || char == '\n' || char == '\t' || char == '\r'

/-- The text without blanks in front. -/
def skipBlanks (text : List Char) : List Char := text.dropWhile isBlank

/-- The value of a hexadecimal digit. -/
def hexValue? (char : Char) : Option Nat :=
  if char.isDigit then some (char.toNat - '0'.toNat)
  else if 'a' ≤ char ∧ char ≤ 'f' then some (char.toNat - 'a'.toNat + 10)
  else if 'A' ≤ char ∧ char ≤ 'F' then some (char.toNat - 'A'.toNat + 10)
  else none

/-- The value of four hexadecimal digits, and the text behind them. -/
def fourDigits (text : List Char) : Except Failure (Nat × List Char) :=
  match text with
  | a :: b :: c :: d :: rest =>
    match hexValue? a, hexValue? b, hexValue? c, hexValue? d with
    | some a, some b, some c, some d => .ok (((a * 16 + b) * 16 + c) * 16 + d, rest)
    | _, _, _, _ => .error ⟨.invalidEscape, byteCount text - 4⟩
  | _ =>
    if byteCount text < 4 then .error ⟨.endInString, 0⟩
    else .error ⟨.invalidEscape, byteCount text - 4⟩

/-- The second half of a pair of escapes must follow, and begins with the given character. -/
def expectEscape (expected : Char) (text : List Char) : Except Failure (List Char) :=
  match text with
  | [] => stopBefore .endInString text
  | char :: rest => if char = expected then .ok rest else stopInside .unfinishedEscape text

/-- The character of an escape by its code, with the text behind it.  A character beyond the first
65536 is written as a pair of escapes. -/
def codeEscape (text : List Char) : Except Failure (Char × List Char) := do
  let (high, text) ← fourDigits text
  if 0xdc00 ≤ high ∧ high ≤ 0xdfff then stopBefore .loneSurrogate text
  else if high < 0xd800 ∨ 0xdbff < high then return (.ofNat high, text)
  else do
    let text ← expectEscape '\\' text
    let text ← expectEscape 'u' text
    let (low, text) ← fourDigits text
    if low < 0xdc00 ∨ 0xdfff < low then stopBefore .loneSurrogate text
    else return (.ofNat ((high - 0xd800) * 0x400 + (low - 0xdc00) + 0x10000), text)

/-- The character of an escape, with the text behind it. -/
def escape (text : List Char) : Except Failure (Char × List Char) :=
  match text with
  | [] => stopBefore .endInString text
  | '"' :: rest => .ok ('"', rest)
  | '\\' :: rest => .ok ('\\', rest)
  | '/' :: rest => .ok ('/', rest)
  | 'b' :: rest => .ok ('\x08', rest)
  | 'f' :: rest => .ok ('\x0c', rest)
  | 'n' :: rest => .ok ('\n', rest)
  | 'r' :: rest => .ok ('\r', rest)
  | 't' :: rest => .ok ('\t', rest)
  | 'u' :: rest => codeEscape rest
  | _ => stopInside .invalidEscape text

/-- The characters of a string behind its opening quote, with the text behind its closing quote.
Each step takes at least one character. -/
def stringWithin : Nat → List Char → Except Failure (List Char × List Char)
  | 0, text => stopBefore .endInString text
  | steps + 1, text =>
    match text with
    | [] => stopBefore .endInString text
    | '"' :: rest => .ok ([], rest)
    | '\\' :: rest => do
      let (char, rest) ← escape rest
      let (chars, rest) ← stringWithin steps rest
      return (char :: chars, rest)
    | char :: rest =>
      if char.toNat < 0x20 then stopInside .controlCharacter text
      else do
        let (chars, rest) ← stringWithin steps rest
        return (char :: chars, rest)

/-- A string behind its opening quote, with the text behind its closing quote. -/
def readString (text : List Char) : Except Failure (String × List Char) := do
  let (chars, rest) ← stringWithin (text.length + 1) text
  return (.ofList chars, rest)

/-- The rest of a word, with the text behind it. -/
def word : List Char → List Char → Except Failure (List Char)
  | [], text => .ok text
  | _ :: _, [] => stopBefore .endInValue []
  | expected :: more, char :: text =>
    if char = expected then word more text else stopInside .expectedWord (char :: text)

/-- The digits in front of a text, and the text behind them. -/
def digits (text : List Char) : List Char × List Char := text.span Char.isDigit

/-- The whole part of a number, with the text behind it. -/
def wholePart (text : List Char) : Except Failure (List Char × List Char) :=
  match text with
  | [] => stopBefore .endInValue text
  | '0' :: rest =>
    if rest.head?.any Char.isDigit then stopInside .invalidNumber rest else .ok (['0'], rest)
  | char :: _ => if char.isDigit then .ok (digits text) else stopInside .invalidNumber text

/-- The digits behind the point of a number, if it has one, with the text behind them. -/
def fractionPart (text : List Char) : Except Failure (List Char × List Char) :=
  match text with
  | '.' :: rest =>
    match digits rest with
    | ([], rest) => stopInside (if rest.isEmpty then .endInValue else .invalidNumber) rest
    | found => .ok found
  | _ => .ok ([], text)

/-- The largest exponent that is kept. -/
def maxExponent : Nat := 2147483647

/-- Reads the digits of an exponent behind a value.  A number other than zero is out of range as
soon as its exponent is too large to be kept. -/
def exponentFrom (refuse : Bool) (value : Nat) : List Char → Except Failure (Nat × List Char)
  | [] => .ok (value, [])
  | char :: text =>
    if char.isDigit then
      let next := 10 * value + (char.toNat - '0'.toNat)
      if maxExponent < next ∧ refuse then stopBefore .numberOutOfRange text
      else exponentFrom refuse (min next (10 * maxExponent)) text
    else .ok (value, char :: text)

/-- The exponent of a number, if it has one, with the text behind it. -/
def exponentPart (isZero : Bool) (text : List Char) : Except Failure (Int × List Char) :=
  match text with
  | [] => .ok (0, text)
  | mark :: rest =>
    if mark = 'e' ∨ mark = 'E' then
      let (negative, rest) := match rest with
        | '+' :: rest => (false, rest)
        | '-' :: rest => (true, rest)
        | rest => (false, rest)
      match rest with
      | [] => stopBefore .endInValue rest
      | first :: _ =>
        if first.isDigit then do
          let (size, rest) ← exponentFrom (!isZero && !negative) 0 rest
          return (if negative then -(size : Int) else size, rest)
        else stopInside .invalidNumber rest
    else .ok (0, text)

/-- A number behind its sign, with the text behind it. -/
def readNumber (sign : List Char) (text : List Char) : Except Failure (Json × List Char) := do
  let (whole, rest) ← wholePart text
  let (fraction, rest) ← fractionPart rest
  let digits := Scaled.ofDigits whole fraction
  let (exponent, rest) ← exponentPart (digits.value == 0) rest
  if (digits.scale exponent).isOutOfRange then stopBefore .numberOutOfRange rest
  else return (.number (.ofList (sign ++ text.take (text.length - rest.length))), rest)

/-- What reads a value in front of a text. -/
abbrev Reader := List Char → Except Failure (Json × List Char)

/-- The items of an array behind its opening bracket, in a number of steps, with the text behind
its closing bracket. -/
def itemsWithin (read : Reader) : Nat → Bool → List Char → Except Failure (List Json × List Char)
  | 0, _, text => stopInside .expectedListEnd text
  | steps + 1, isFirst, text =>
    let item (text : List Char) : Except Failure (List Json × List Char) := do
      let (value, rest) ← read text
      let (more, rest) ← itemsWithin read steps false rest
      return (value :: more, rest)
    match skipBlanks text with
    | [] => stopInside .endInList []
    | ']' :: rest => .ok ([], rest)
    | char :: rest =>
      if isFirst then item (char :: rest)
      else if char = ',' then
        match skipBlanks rest with
        | [] => stopInside .endInValue []
        | ']' :: rest => stopInside .trailingComma (']' :: rest)
        | rest => item rest
      else stopInside .expectedListEnd (char :: rest)

/-- A member of an object behind the opening quote of its name, with the text behind it. -/
def readMember (read : Reader) (text : List Char) :
    Except Failure ((String × Json) × List Char) := do
  let (name, rest) ← readString text
  match skipBlanks rest with
  | ':' :: rest => do
    let (value, rest) ← read rest
    return ((name, value), rest)
  | [] => stopInside .endInObject []
  | rest => stopInside .expectedColon rest

/-- The members of an object behind its opening brace, in a number of steps, with the text behind
its closing brace. -/
def membersWithin (read : Reader) :
    Nat → Bool → List Char → Except Failure (List (String × Json) × List Char)
  | 0, _, text => stopInside .expectedObjectEnd text
  | steps + 1, isFirst, text =>
    let member (text : List Char) : Except Failure (List (String × Json) × List Char) := do
      let (first, rest) ← readMember read text
      let (more, rest) ← membersWithin read steps false rest
      return (first :: more, rest)
    match skipBlanks text with
    | [] => stopInside .endInObject []
    | '\x7d' :: rest => .ok ([], rest)
    | char :: rest =>
      if isFirst then
        if char = '"' then member rest else stopInside .nameNotString (char :: rest)
      else if char = ',' then
        match skipBlanks rest with
        | [] => stopInside .endInValue []
        | '"' :: rest => member rest
        | '\x7d' :: rest => stopInside .trailingComma ('\x7d' :: rest)
        | rest => stopInside .nameNotString rest
      else stopInside .expectedObjectEnd (char :: rest)

/-- A value in front of a text that nests arrays and objects up to a depth, with the text behind
it. -/
def readValue : Nat → Reader
  | depth, text =>
    match skipBlanks text with
    | [] => stopInside .endInValue []
    | 'n' :: rest => (Json.null, ·) <$> word ['u', 'l', 'l'] rest
    | 't' :: rest => (Json.bool true, ·) <$> word ['r', 'u', 'e'] rest
    | 'f' :: rest => (Json.bool false, ·) <$> word ['a', 'l', 's', 'e'] rest
    | '-' :: rest => readNumber ['-'] rest
    | '"' :: rest => do
      let (value, rest) ← readString rest
      return (.string value, rest)
    | '[' :: rest =>
      match depth with
      | 0 => stopInside .tooDeep ('[' :: rest)
      | depth + 1 => do
        let (items, rest) ← itemsWithin (readValue depth) (rest.length + 1) true rest
        return (.array items, rest)
    | '\x7b' :: rest =>
      match depth with
      | 0 => stopInside .tooDeep ('\x7b' :: rest)
      | depth + 1 => do
        let (members, rest) ← membersWithin (readValue depth) (rest.length + 1) true rest
        return (.object members, rest)
    | char :: rest =>
      if char.isDigit then readNumber [] (char :: rest)
      else stopInside .expectedValue (char :: rest)

/-- How deep arrays and objects may nest. -/
def maxDepth : Nat := 127

/-- The value in front of a text, and the text behind it. -/
def readFirst (text : List Char) : Except Failure (Json × List Char) := readValue maxDepth text

/-- Nothing but blanks may be left. -/
def expectEnd (text : List Char) : Except Failure Unit :=
  match skipBlanks text with
  | [] => .ok ()
  | rest => stopInside .trailingCharacters rest

end Json
end WorkItemQuery
