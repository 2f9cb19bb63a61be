import WorkItemQuery.Text.Width

/-!
# Lines of a text

A text is shown line by line.  A byte offset belongs to a line, and comes behind a number of its
characters and of its columns.  An offset inside a character has no place.
-/

namespace WorkItemQuery
namespace Excerpt

/-- A line of a text. -/
structure Line where
  /-- Its number, counted from one. -/
  number : Nat
  /-- The offset of its first byte. -/
  start : Nat
  /-- Its characters, without the line break. -/
  text : List Char
  /-- The offset behind its line break. -/
  stop : Nat
deriving DecidableEq, Repr

/-- Splits a text at its line breaks.  The characters of the current line come first, the last one
in front; each line has the number of bytes of its line break. -/
def splitFrom : List Char → List Char → List (List Char × Nat)
  | [], [] => []
  | line, [] => [(line.reverse, 0)]
  | line, char :: text =>
    if char = '\n' then
      match line with
      | '\r' :: line => (line.reverse, 2) :: splitFrom [] text
      | line => (line.reverse, 1) :: splitFrom [] text
    else splitFrom (char :: line) text

/-- The number of bytes of a text. -/
def byteCount (text : List Char) : Nat := (text.map Char.utf8Size).foldl (· + ·) 0

/-- Gives lines their numbers and offsets, from a number and an offset on. -/
def placeLines (number start : Nat) : List (List Char × Nat) → List Line
  | [] => []
  | (text, lineBreak) :: rest =>
    let stop := start + byteCount text + lineBreak
    ⟨number, start, text, stop⟩ :: placeLines (number + 1) stop rest

/-- The first line of an empty text. -/
def emptyLine : Line := ⟨1, 0, [], 0⟩

/-- The lines of a text; there is always one. -/
def lines (source : String) : List Line :=
  match placeLines 1 0 (splitFrom [] source.toList) with
  | [] => [emptyLine]
  | lines => lines

/-- The line that an offset belongs to, the last one for offsets behind the text. -/
def lineAt (lines : List Line) (offset : Nat) : Line :=
  match lines.find? fun line => line.start ≤ offset && offset < line.stop with
  | some line => line
  | none => lines.getLast?.getD emptyLine

/-- The text of the line with a number. -/
def textOf? (lines : List Line) (number : Nat) : Option (List Char) :=
  (lines.find? (·.number = number)).map (·.text)

/-- The characters of a text that lie within a number of bytes, unless one of them is cut. -/
def takeBytes? : Nat → List Char → Option (List Char)
  | 0, _ | _, [] => some []
  | bytes, char :: text =>
    if char.utf8Size ≤ bytes then (takeBytes? (bytes - char.utf8Size) text).map (char :: ·)
    else none

/-- The line as it is shown. -/
def Line.shown (line : Line) : List Char := line.text.flatMap Text.shownAs

/-- The offset comes behind the characters of the line, in its line break or later. -/
def Line.isPassedBy (line : Line) (offset : Nat) : Bool :=
  line.start + byteCount line.text < offset

/-- A spot on a line.  Characters without width make spots that share a column. -/
structure Spot where
  /-- The columns before it. -/
  column : Nat
  /-- The characters before it. -/
  letters : Nat
deriving DecidableEq, Repr

/-- The first spot does not come behind the second. -/
def Spot.le (left right : Spot) : Bool :=
  left.column < right.column || (left.column == right.column && left.letters ≤ right.letters)

/-- A spot with its line. -/
structure Place extends Spot where
  /-- The number of the line. -/
  line : Nat
  /-- The byte offset in the text. -/
  offset : Nat
deriving DecidableEq, Repr

/-- The place of an offset.  In a line break it is the end of the text of the line. -/
def placeAt? (lines : List Line) (offset : Nat) : Option Place :=
  let line := lineAt lines offset
  (takeBytes? (offset - line.start) line.text).map fun before =>
    { column := Text.width before, letters := before.length, line := line.number, offset }

/-- The place where a stretch of text starts.  A line break takes no columns, so that a start in it
has the column of the end of the text, but comes one character behind it. -/
def startAt? (lines : List Line) (offset : Nat) : Option Place :=
  (placeAt? lines offset).map fun place =>
    if (lineAt lines offset).isPassedBy offset then { place with letters := place.letters + 1 }
    else place

/-- The places where a stretch of text starts and stops.  One that comes from an earlier line and
takes in a line break stops a column further, so that the break can be seen. -/
def extent? (lines : List Line) (start stop : Nat) : Option (Place × Place) := do
  let first ← startAt? lines start
  if start = stop then return (first, first)
  let last ← placeAt? lines stop
  if first.line ≠ last.line && (lineAt lines stop).isPassedBy stop then
    return (first, { last with column := last.column + 1, letters := last.letters + 1 })
  return (first, last)

end Excerpt
end WorkItemQuery
