import WorkItemQuery.Diagnostic.Ink
import WorkItemQuery.Diagnostic.Mark
import WorkItemQuery.Text

/-!
# The window on long lines

The lines of a drawing are cut to a window of columns: blanks that all of them start with are left
out when there are many, and so are parts far from the marks when the lines are too long.  Dots
stand where something is left out.
-/

namespace WorkItemQuery

open Excerpt (Line)

/-- The columns that are shown of the lines of a drawing. -/
structure Window where
  /-- The number of columns that a line may take. -/
  room : Nat
  /-- The first column that is shown. -/
  left : Nat
  /-- The column behind the last one that is shown. -/
  right : Nat
deriving DecidableEq, Repr

namespace Window

/-- What stands where something is left out. -/
def dots : Row := Row.of .accent "..."

/-- Dots need room, so that a window reaches a little further than what it is to show. -/
def slack : Nat := 6

/-- The columns of the blanks at the start of a line. -/
def indent (text : List Char) : Nat :=
  ((text.takeWhile Text.isBlank).map fun char => if char = '\t' then 4 else 1).foldl (· + ·) 0

/-- The blanks at the start of every line that is not all blank. -/
def commonIndent (lines : List Line) : Nat :=
  (((lines.map (·.text)).filter (!Text.allBlank ·)).map indent).min?.getD 0

/-- The window for marked lines.  More than twenty blanks are cut down to a few.  If the lines are
still too long the window leaves out all of the blanks, or else all but the marks with their
labels, or else all but the marks. -/
def fit (room : Nat) (lines : List Line) (marks : List Mark) : Window :=
  let columns := marks.flatMap fun mark => [mark.start.column, mark.stop.column]
  let first := columns.min?.getD 0
  let blanks := min (commonIndent lines) first - slack
  let first := first - slack
  let last := columns.foldl max 0 + slack
  let labelled := (marks.map (·.labelEnd)).foldl max 0 + slack
  let longest := (lines.map fun line => Text.width line.text).foldl max 0
  let left := if 20 < blanks then blanks - 16 else 0
  let right := max longest left
  let starting (left : Nat) : Window := ⟨room, left, left + room⟩
  if right - left ≤ room then ⟨room, left, right⟩
  else if labelled - blanks ≤ room then starting blanks
  else if labelled - first ≤ room then starting (first - (room - (labelled - first)) / 2)
  else if last - first ≤ room then starting (first - (room - (last - first)) / 5 * 2)
  else ⟨room, first, last⟩

/-- Leaves out characters from a text until some columns are gone.  The columns that are left out
come first; they are more if the last character is wide. -/
def dropColumns : Nat → List Char → Nat × List Char
  | 0, text => (0, text)
  | _, [] => (0, [])
  | count, char :: text =>
    let (gone, rest) := dropColumns (count - Text.charWidth char) text
    (Text.charWidth char + gone, rest)

/-- The longest start of a text that fits into some columns. -/
def takeColumns : Nat → List Char → List Char
  | _, [] => []
  | count, char :: text =>
    if Text.charWidth char ≤ count then char :: takeColumns (count - Text.charWidth char) text
    else []

/-- The window leaves out the start of the lines. -/
def isCut (window : Window) : Bool := 0 < window.left

/-- What is shown of a line, behind the columns that are left out. -/
def cut (window : Window) (shown : List Char) : Nat × Row :=
  let length := Text.width shown
  let left := min window.left length
  let right :=
    if length - window.left ≤ window.room then length else min length window.right
  let (gone, rest) := dropColumns left shown
  let code := takeColumns (right - left) rest
  let (covered, rest) := if window.isCut then dropColumns dots.length code else (0, code)
  let front := if window.isCut then dots else []
  let row := front.draw covered (Row.ofChars .plain rest)
  if right < length then
    let (_, kept) := dropColumns dots.length code.reverse
    (max left gone, row.draw (covered + rest.length - (code.length - kept.length)) dots)
  else (max left gone, row)

end Window
end WorkItemQuery
